import PatronLoyalty.Txn.Bodies

/-!
# Conditions on commits

What a commit does often has to be judged by what its request has read before. `CommitsAs D h` says
of a history that every commit meets `D` of the history before it. `Config.CommitMeets` is a condition
on the steps of a run: the commit that a session is about to make meets `K` of its history so far and of
the stores before and after. Headline: **`reach_commitMeets`**, the commits of such a run do.
-/

namespace PatronLoyalty.Txn

variable {σ ω ι ε ev α β : Type}

/-- Every commit meets `D` of the history before it. -/
def CommitsAs (D : List (Entry σ ε ev α) → σ → σ → Prop) (h : List (Entry σ ε ev α)) : Prop :=
  ∀ h₁ a b h₂, h = h₁ ++ .commit a b :: h₂ → D h₁ a b

section History

variable {D : List (Entry σ ε ev α) → σ → σ → Prop} {h : List (Entry σ ε ev α)}
  {e : Entry σ ε ev α}

theorem commitsAs_nil : CommitsAs D ([] : List (Entry σ ε ev α)) := fun _ _ _ _ he => by
  simp at he

/-- A history that ends in `e` has its commits before `e`, or `e` is one. -/
theorem snoc_eq_split {h1 h2 : List (Entry σ ε ev α)} {x : Entry σ ε ev α}
    (he : h ++ [e] = h1 ++ x :: h2) : (∃ h3, h = h1 ++ x :: h3) ∨ h1 = h ∧ x = e := by
  rcases List.eq_nil_or_concat h2 with rfl | ⟨h3, y, rfl⟩
  · obtain ⟨rfl, hx⟩ := List.append_inj' he rfl
    exact Or.inr ⟨rfl, (List.cons.inj hx).1.symm⟩
  · rw [List.concat_eq_append, ← List.cons_append, ← List.append_assoc] at he
    exact Or.inl ⟨h3, (List.append_inj' he rfl).1⟩

theorem CommitsAs.snoc (hw : CommitsAs D h) (he : ∀ a b, e = .commit a b → D h a b) :
    CommitsAs D (h ++ [e]) := by
  intro h1 a b h2 heq
  rcases snoc_eq_split heq with ⟨h3, hh⟩ | ⟨rfl, hx⟩
  · exact hw h1 a b h3 hh
  · exact he a b hx.symm

theorem CommitsAs.mem (hw : CommitsAs D h) {a b : σ} (hc : .commit a b ∈ h) : ∃ h1, D h1 a b := by
  obtain ⟨h1, h2, rfl⟩ := List.append_of_mem hc
  exact ⟨h1, hw h1 a b h2 rfl⟩

/-- The store a session has last committed to, or read in a transaction of its own. -/
def lastStore (h : List (Entry σ ε ev α)) : Option σ :=
  h.reverse.findSome? fun
    | .commit _ b => some b
    | _ => none

theorem lastStore_commit (h : List (Entry σ ε ev α)) (a b : σ) :
    lastStore (h ++ [.commit a b]) = some b := by
  rw [lastStore, List.reverse_append]
  rfl

theorem lastStore_snoc (h : List (Entry σ ε ev α)) (he : ∀ a b, e ≠ .commit a b) :
    lastStore (h ++ [e]) = lastStore h := by
  rw [lastStore, List.reverse_append]
  cases e with
  | commit a b => exact absurd rfl (he a b)
  | start | rollback | emit | answer => rfl

end History

/-! ## Runs -/

variable [Store σ ω ι]

/-- If the session's next step is a commit, it meets `K`. -/
def Session.CommitMeets (K : σ → σ → Prop) (s : σ) : Session σ ω ε ev α → Prop
  | inTx ws (.pure _) _ => K s (view ws s)
  | _ => True

/-- **The commit** that session `i` is about to make, if it is, meets `K`. -/
def Config.CommitMeets (K : ℕ → List (Entry σ ε ev α) → σ → σ → Prop) (c : Config σ ω ε ev α)
    (i : ℕ) : Prop :=
  ∀ ss, c.sess[i]? = some ss → ss.CommitMeets (K i (c.histOf i)) c.db

/-- The condition, computed. -/
def Session.commitMeets (K : σ → σ → Bool) (s : σ) : Session σ ω ε ev α → Bool
  | inTx ws (.pure _) _ => K s (view ws s)
  | _ => true

def Config.commitMeets (K : ℕ → List (Entry σ ε ev α) → σ → σ → Bool) (c : Config σ ω ε ev α)
    (i : ℕ) : Bool :=
  c.sess[i]?.all fun ss => ss.commitMeets (K i (c.histOf i)) c.db

theorem Config.commitMeets_of {K : ℕ → List (Entry σ ε ev α) → σ → σ → Prop}
    {k : ℕ → List (Entry σ ε ev α) → σ → σ → Bool}
    (hk : ∀ i h a b, k i h a b = true → K i h a b) {c : Config σ ω ε ev α} {i : ℕ}
    (h : c.commitMeets k i = true) : c.CommitMeets K i := by
  intro ss hss
  unfold Config.commitMeets at h
  rw [hss, Option.all_some] at h
  cases ss with
  | inTx ws t k' =>
    cases t with
    | pure b => exact hk _ _ _ _ h
    | throw | pick | clock | stmt => trivial
  | new | idle | done => trivial

theorem Session.commitMeets_advance [Faulty ε] {K : σ → σ → Prop} {s s' a b : σ}
    {ss ss' : Session σ ω ε ev α} {es : List (Entry σ ε ev α)} {m : Move ε}
    (h : ss.advance s m = some (ss', s', es)) (hK : ss.CommitMeets K s) (hc : .commit a b ∈ es) :
    K a b := by
  rcases Session.advance_cases h with rfl | ⟨-, hes⟩
  · cases List.mem_singleton.mp hc
    cases ss with
    | inTx ws t k =>
      cases t with
      | pure r =>
        cases m with
        | go n => cases h; exact hK
        | fail e =>
          simp only [Session.advance] at h
          split at h <;> simp at h
        | crash => cases h
      | throw e =>
        cases m with
        | go n => cases h
        | fail e =>
          simp only [Session.advance] at h
          split at h <;> simp at h
        | crash => cases h
      | pick t => cases m <;> simp [Session.advance, Session.next] at h
      | clock t => cases m <;> simp [Session.advance, Session.next] at h
      | stmt q t =>
        cases m with
        | go n =>
          simp only [Session.advance, Session.next] at h
          split at h <;> simp at h
        | fail e =>
          simp only [Session.advance] at h
          split at h <;> simp at h
        | crash => cases h
    | new c => cases m <;> cases h
    | idle c =>
      cases c <;> cases m <;> simp [Session.advance, Session.next] at h
    | done => cases m <;> cases h
  · exact absurd hc (hes a b)

variable [Faulty ε]

section

variable [DecidableEq ι] {P : Config σ ω ε ev α → ℕ → Prop} {s₀ : σ}
  {calls : List (Call σ ω ε ev α)} {c : Config σ ω ε ev α}
  {K : ℕ → List (Entry σ ε ev α) → σ → σ → Prop}

/-- **The commits of a run** whose steps meet the condition. -/
theorem reach_commitMeets (hP : ∀ c i, P c i → c.CommitMeets K i)
    (h : Reach P (Config.init s₀ calls) c) (i : ℕ) : CommitsAs (K i) (c.histOf i) := by
  induction h with
  | refl => rw [histOf_init]; exact commitsAs_nil
  | @tail c c' j m _ hp hs ih =>
    obtain ⟨ss, ss', db', es, hj, ha, -, rfl⟩ := Config.step_cases hs
    by_cases hij : i = j
    · subst hij
      rw [Config.histOf_append, if_pos rfl]
      rcases Session.advance_cases ha with rfl | ⟨-, hes⟩
      · refine ih.snoc fun a b he => ?_
        exact Session.commitMeets_advance ha (hP c i hp ss hj) (List.mem_singleton.mpr he.symm)
      · intro h1 a b h2 heq
        rcases List.append_eq_append_iff.mp heq with ⟨h3, rfl, he⟩ | ⟨h3, hh, he⟩
        · exact absurd (he ▸ List.mem_append_right _ List.mem_cons_self) (hes a b)
        · cases h3 with
          | nil =>
            rw [List.nil_append] at he
            exact absurd (he ▸ List.mem_cons_self) (hes a b)
          | cons x h4 =>
            obtain ⟨rfl, -⟩ := List.cons.inj he
            exact ih h1 a b h4 hh
    · rw [histOf_step db' _ es i hij]
      exact ih

end

/-- **Events in order**: whatever part of them has been emitted, the protocol is kept. -/
theorem Call.wp_fireAll {G : Guarantee σ} {pr : Protocol σ ε ev α G}
    {Q : Except ε Unit → List (Entry σ ε ev α) → σ → Prop} {vs : List ev}
    {h : List (Entry σ ε ev α)} {s : σ}
    (hk : ∀ ws s', ws <+: vs → pr.keeps (h ++ ws.map .emit) s')
    (hQ : ∀ s', Q (.ok ()) (h ++ vs.map .emit) s') :
    Call.wp pr Q (Call.fireAll vs : Call σ ω ε ev Unit) h s := by
  induction vs generalizing h s with
  | nil =>
    have := hQ s
    rwa [List.map_nil, List.append_nil] at this
  | cons v vs ih =>
    intro s' _ _
    refine ⟨hk [v] s' ⟨vs, rfl⟩, ih (fun ws s'' hws => ?_) fun s'' => ?_⟩
    · simpa using hk (v :: ws) s'' (List.cons_prefix_cons.mpr ⟨rfl, hws⟩)
    · simpa using hQ s''

/-! ## Requests described by their commits -/

section Describes

variable {γ : Type} {G : Guarantee σ} {D : List (Entry σ ε ev α) → σ → σ → Prop}

/-- The protocol of histories within `D`, whose last store others have moved along the guarantee. -/
def Protocol.describing (G : Guarantee σ) (D : List (Entry σ ε ev α) → σ → σ → Prop) :
    Protocol σ ε ev α G where
  cond _ _ := True
  keeps h s := CommitsAs D h ∧ ∀ s₀, lastStore h = some s₀ → G.rel s₀ s
  keeps_stable hG hk := ⟨hk.1, fun s₀ h => G.trans (hk.2 s₀ h) hG⟩

omit [Faulty ε] in
/-- A line that is no commit. -/
theorem Protocol.describing_snoc {h : List (Entry σ ε ev α)} {e : Entry σ ε ev α} {s : σ}
    (he : ∀ a b, e ≠ .commit a b) (hk : (Protocol.describing G D).keeps h s) :
    (Protocol.describing G D).keeps (h ++ [e]) s := by
  refine ⟨hk.1.snoc fun a b hab => absurd hab (he a b), fun s₀ hs => hk.2 s₀ ?_⟩
  rwa [lastStore_snoc h he] at hs

omit [Faulty ε] in
theorem Protocol.describing_quiet (hD : ∀ h a, D h a a) : (Protocol.describing G D).Quiet where
  read h s hk := ⟨hk.1.snoc fun a b he => by cases he; exact hD h s, fun s₀ h0 => by
    rw [lastStore_commit] at h0
    cases h0
    exact G.refl s⟩
  rollback h e s hk := Protocol.describing_snoc (fun _ _ he => by cases he) hk
  emit h v s hk := Protocol.describing_snoc (fun _ _ he => by cases he) hk

/-- **A triple** for the guarded request. -/
def Describes (C : ω → Bool) (e : ε) (G : Guarantee σ) (D : List (Entry σ ε ev α) → σ → σ → Prop)
    (Φ : List (Entry σ ε ev α) → Prop) (c : Call σ ω ε ev β)
    (Ψ : β → List (Entry σ ε ev α) → Prop) : Prop :=
  ∀ h s, (Protocol.describing G D).keeps h s → Φ h →
    Call.wp (.describing G D)
      (fun r h' s' => (Protocol.describing G D).keeps h' s' ∧ ∀ b, r = .ok b → Ψ b h')
      (c.guard C e) h s

/-- `F` holds of the last store. -/
def Holds (F : σ → Prop) (h : List (Entry σ ε ev α)) : Prop := ∃ s, lastStore h = some s ∧ F s

/-- The last store has moved along the guarantee to where the transaction starts. -/
def Since (G : Guarantee σ) (h : List (Entry σ ε ev α)) (a c : σ) : Prop :=
  (∀ s₀, lastStore h = some s₀ → G.rel s₀ a) ∧ a = c

namespace Describes

variable {C : ω → Bool} {e : ε} {Φ : List (Entry σ ε ev α) → Prop}
  {Ψ : β → List (Entry σ ε ev α) → Prop} {t : Tx σ ω ε β}

theorem pure {b : β} (hb : ∀ h, Φ h → Ψ b h) :
    Describes C e G D Φ (Call.pure b : Call σ ω ε ev β) Ψ :=
  fun h _ hk hh => ⟨hk, fun _ he => by cases he; exact hb h hh⟩

theorem throw {e' : ε} : Describes C e G D Φ (Call.throw e' : Call σ ω ε ev β) Ψ :=
  fun _ _ hk _ => ⟨hk, fun _ he => by cases he⟩

theorem input {Ψ : ℕ → List (Entry σ ε ev α) → Prop} (hn : ∀ n h, Φ h → Ψ n h) :
    Describes C e G D Φ (Call.input : Call σ ω ε ev ℕ) Ψ :=
  fun h _ hk hh n => ⟨hk, fun _ he => by cases he; exact hn n h hh⟩

theorem ofExcept {r : Except ε β} (hb : ∀ b h, r = .ok b → Φ h → Ψ b h) :
    Describes C e G D Φ (Call.ofExcept r : Call σ ω ε ev β) Ψ := by
  cases r with
  | ok b => exact pure fun h hh => hb b h rfl hh
  | error e => exact throw

/-- **Sequencing.** -/
theorem bind {c : Call σ ω ε ev β} {f : β → Call σ ω ε ev γ} {Ω : γ → List (Entry σ ε ev α) → Prop}
    (hc : Describes C e G D Φ c Ψ) (hf : ∀ b, Describes C e G D (Ψ b) (f b) Ω) :
    Describes C e G D Φ (c.bind f) Ω := by
  intro h s hk hh
  rw [Call.guard_bind]
  refine Call.wp_bind (Call.wp_mono (fun r h' s' hr => ?_) (hc h s hk hh))
  cases r with
  | ok b => exact hf b h' s' hr.1 (hr.2 b rfl)
  | error e' => exact ⟨hr.1, fun _ he => by cases he⟩

theorem post {Ψ' : β → List (Entry σ ε ev α) → Prop} {c : Call σ ω ε ev β}
    (hc : Describes C e G D Φ c Ψ) (hΨ : ∀ b h, Ψ b h → Ψ' b h) : Describes C e G D Φ c Ψ' :=
  fun h s hk hh => Call.wp_mono (fun _ _ _ hr => ⟨hr.1, fun b he => hΨ b _ (hr.2 b he)⟩)
    (hc h s hk hh)

/-- **One transaction**, within `D` of the history before it. -/
theorem tx {R : List (Entry σ ε ev α) → β → σ → σ → Prop}
    (ht : ∀ h, Φ h → Triple C e G (Since G h) t (R h)) (hD : ∀ h b a c, Φ h → R h b a c →
      G.rel a c ∧ D h a c ∧ Ψ b (h ++ [.commit a c])) :
    Describes C e G D Φ (Call.withTx t : Call σ ω ε ev β) Ψ := by
  intro h s hk hh
  rw [Call.guard_withTx]
  refine Call.wp_withTx fun s' hs _ => ⟨?_, fun e' _ s'' hs' _ => ?_⟩
  · refine Tx.wp_mono (fun b ws s1 hd s2 hs2 _ => ?_) (fun e' s1 he s2 hs2 _ => ?_)
      (Tx.wp_from hs (ht h hh _ [] s' (did_nil.mpr fun s1 hs1 =>
        ⟨fun s₀ h0 => G.trans (hk.2 s₀ h0) (G.trans hs hs1), rfl⟩)))
    · obtain ⟨hG, hDD, hΨ⟩ := hD h b s2 _ hh (hd.2 s2 hs2)
      have hkeep : (Protocol.describing G D).keeps (h ++ [.commit s2 (view ws s2)])
          (view ws s2) := by
        refine ⟨hk.1.snoc fun x y he => ?_, fun s₀ h0 => ?_⟩
        · cases he
          exact hDD
        · rw [lastStore_commit] at h0
          cases h0
          exact G.refl _
      exact ⟨hG, hkeep, hkeep, fun _ he => by cases he; exact hΨ⟩
    · have hkeep := Protocol.describing_snoc (e := .rollback e') (by simp)
        ((Protocol.describing G D).keeps_stable (G.trans he.1 hs2) hk)
      exact ⟨hkeep, hkeep, fun _ he' => by cases he'⟩
  · have hkeep := Protocol.describing_snoc (e := .rollback e') (by simp)
      ((Protocol.describing G D).keeps_stable (G.trans hs hs') hk)
    exact ⟨hkeep, hkeep, fun _ he' => by cases he'⟩

theorem read {F : β → σ → Prop} (hD : ∀ h a, D h a a)
    (ht : Triple C e G Eq t fun b a c => F b a ∧ a = c) :
    Describes C e G D Φ (Call.withTx t : Call σ ω ε ev β) fun b => Holds (F b) := by
  refine tx (R := fun _ b a c => F b a ∧ a = c) (fun h _ => ht.pre fun _ _ hp => hp.2) ?_
  rintro h b a c - ⟨hF, rfl⟩
  exact ⟨G.refl a, hD h a, a, lastStore_commit h a a, hF⟩

/-- A transaction that only reads leaves a fact that others respect. -/
theorem still {F : σ → Prop} (hD : ∀ h a, D h a a) (hF : G.Keeps F)
    (ht : Confined C e G (fun _ _ => False) t) :
    Describes C e G D (Holds F) (Call.withTx t : Call σ ω ε ev β) fun _ => Holds F := by
  refine tx (R := fun h _ => Since G h) (fun h _ => ht.still) ?_
  rintro h b a c ⟨s₀, h0, hs⟩ ⟨hl, rfl⟩
  exact ⟨G.refl a, hD h a, a, lastStore_commit h a a, hF _ _ (hl s₀ h0) hs⟩

theorem fireAll {vs : List ev} :
    Describes C e G D Φ (Call.fireAll vs : Call σ ω ε ev Unit) fun _ _ => True := by
  suffices ∀ h s, (Protocol.describing G D).keeps h s →
      Call.wp (.describing G D)
        (fun r h' s' => (Protocol.describing G D).keeps h' s' ∧ ∀ b : Unit, r = .ok b → True)
        ((Call.fireAll vs : Call σ ω ε ev Unit).guard C e) h s from fun h s hk _ => this h s hk
  induction vs with
  | nil => exact fun h s hk => ⟨hk, fun _ _ => trivial⟩
  | cons v vs ih =>
    intro h s hk s' hs _
    have hk' := Protocol.describing_snoc (e := .emit v) (by simp)
      ((Protocol.describing G D).keeps_stable hs hk)
    exact ⟨hk', ih _ s' hk'⟩

theorem safe {c : Call σ ω ε ev α} {Ψ : α → List (Entry σ ε ev α) → Prop}
    (hc : Describes C e G D (fun _ => True) c Ψ) (s : σ) :
    Safe (.describing G D) (c.guard C e) s := by
  have hnil : ∀ s, (Protocol.describing G D).keeps ([] : List (Entry σ ε ev α)) s := fun s =>
    ⟨commitsAs_nil, fun _ h => by cases h⟩
  refine ⟨hnil s, fun s' _ _ => ?_⟩
  have hstart := Protocol.describing_snoc (e := .start) (by simp) (hnil s')
  refine ⟨hstart, Call.wp_mono (fun r h s hr s' hs => ?_) (hc [.start] s' hstart trivial)⟩
  exact Protocol.describing_snoc (by simp) ((Protocol.describing G D).keeps_stable hs hr.1)

end Describes

variable [DecidableEq ι] {P : Config σ ω ε ev α → ℕ → Prop} {s₀ : σ}
  {calls : List (Call σ ω ε ev α)} {c : Config σ ω ε ev α} {Cs : ℕ → ω → Bool} {e : ε}
  {Ds : ℕ → List (Entry σ ε ev α) → σ → σ → Prop}
  {Ψs : ℕ → α → List (Entry σ ε ev α) → Prop}

/-- **The commits of a run** of requests whose statements pass their checks respect the guarantee, and
each is within what describes its request. -/
theorem reach_describes
    (hd : ∀ i c, calls[i]? = some c → Describes (Cs i) e G (Ds i) (fun _ => True) c (Ψs i))
    (hP : ∀ c i, P c i → c.Meets Cs i) (h : Reach P (Config.init s₀ calls) c) :
    G.rel s₀ c.db ∧ (∀ i a b, Commit c.trace i a b → G.rel a b) ∧
      ∀ i, CommitsAs (Ds i) (c.histOf i) := by
  have hg : Reach Always (Config.init s₀ (guardCalls Cs e calls)) (c.guard Cs e) := by
    rw [← Config.guard_init]
    exact h.guard fun c i hp => ⟨hP c i hp, trivial⟩
  have hsafe : ∀ (j : ℕ) d, (guardCalls Cs e calls)[j]? = some d →
      Safe (Protocol.describing G (Ds j)) d s₀ := by
    intro j d hd'
    rw [guardCalls, List.getElem?_mapIdx, Option.map_eq_some_iff] at hd'
    obtain ⟨d', hd', rfl⟩ := hd'
    exact (hd j d' hd').safe s₀
  refine ⟨(reach_sound hsafe (fun _ _ _ _ _ => trivial) hg).rel,
    fun i a b hc => reach_commits hsafe (fun _ _ _ _ _ => trivial) hg hc, fun i => ?_⟩
  by_cases hlt : i < (guardCalls Cs e calls).length
  · exact (reach_keeps hsafe (fun _ _ _ _ _ => trivial) hg hlt).1
  · intro h1 a b h2 he
    have hm : (i, Entry.commit a b) ∈ c.trace := Config.mem_histOf.mp (by rw [he]; simp)
    refine absurd (reach_owned h hm) ?_
    rwa [guardCalls, List.length_mapIdx] at hlt

end Describes

end PatronLoyalty.Txn
