import PatronLoyalty.Txn.Commits

/-!
# Serving requests

`serve run s requests` is a server with the store `s` that has received the requests. The trace of a run
is read by position: `linesOf i es` is session `i`'s share of a trace, and what was done at position `p`
was done in a configuration whose trace is the first `p` lines (`reach_at`). A condition on a run may
so speak of everything that has happened before a commit (`Config.AtCommit`, `reach_atCommit`).

Headline: **`reach_served`**. Along a run every commit is as described of its request and of the history
before it, and so is every answer.
-/

namespace PatronLoyalty.Txn

variable {σ ω ι ε ev α β R : Type} {i : ℕ}

/-- Session `i`'s share of a trace. -/
def linesOf (i : ℕ) (es : List (ℕ × Entry σ ε ev α)) : List (Entry σ ε ev α) :=
  es.filterMap fun e => if e.1 = i then some e.2 else none

section Lines

variable {i p : ℕ} {e : Entry σ ε ev α} {es : List (ℕ × Entry σ ε ev α)}

theorem mem_linesOf : e ∈ linesOf i es ↔ (i, e) ∈ es := by
  simp only [linesOf, List.mem_filterMap, Prod.exists]
  constructor
  · rintro ⟨j, x, hm, hx⟩
    split at hx
    · rename_i hj
      cases hx
      exact hj ▸ hm
    · cases hx
  · exact fun hm => ⟨i, e, hm, if_pos rfl⟩

/-- What a session did before position `p` it did at an earlier position. -/
theorem exists_getElem?_of_mem_linesOf (h : e ∈ linesOf i (es.take p)) :
    ∃ q, q < p ∧ es[q]? = some (i, e) := by
  obtain ⟨q, hq⟩ := List.mem_iff_getElem?.mp (mem_linesOf.mp h)
  have hlt : q < (es.take p).length := (List.getElem?_eq_some_iff.mp hq).1
  rw [List.length_take] at hlt
  have hqp : q < p := by omega
  exact ⟨q, hqp, by rwa [List.getElem?_take_of_lt hqp] at hq⟩

theorem mem_linesOf_take {q : ℕ} (h : es[q]? = some (i, e)) (hq : q < p) :
    e ∈ linesOf i (es.take p) := by
  refine mem_linesOf.mpr (List.mem_of_getElem? (i := q) ?_)
  rwa [List.getElem?_take_of_lt hq]

/-- The share of a trace up to a position, and after it. -/
theorem linesOf_split {q : ℕ} (h : es[q]? = some (i, e)) (hq : q < p) :
    ∃ h2, linesOf i (es.take p) = linesOf i (es.take q) ++ e :: h2 := by
  have hq' : (es.take p)[q]? = some (i, e) := by rwa [List.getElem?_take_of_lt hq]
  have hs := Linear.split_at hq'
  rw [List.take_take, Nat.min_eq_left (by omega)] at hs
  refine ⟨linesOf i ((es.take p).drop (q + 1)), ?_⟩
  have := congrArg (linesOf i) hs
  rwa [linesOf, linesOf, List.filterMap_append, List.filterMap_cons, if_pos rfl] at this

theorem exists_take_of_linesOf {h1 h2 : List (Entry σ ε ev α)}
    (h : linesOf i (es.take p) = h1 ++ e :: h2) :
    ∃ q, q < p ∧ es[q]? = some (i, e) ∧ linesOf i (es.take q) = h1 := by
  induction p generalizing h2 with
  | zero => simp [linesOf] at h
  | succ p ih =>
    cases hp : es[p]? with
    | none =>
      rw [List.take_add_one, hp, Option.toList_none, List.append_nil] at h
      obtain ⟨q, hq, he⟩ := ih h
      exact ⟨q, by omega, he⟩
    | some x =>
      obtain ⟨j, y⟩ := x
      rw [List.take_add_one, hp, Option.toList_some, linesOf, List.filterMap_append] at h
      by_cases hj : j = i
      · subst hj
        simp only [List.filterMap_cons, if_true, List.filterMap_nil] at h
        rcases List.eq_nil_or_concat h2 with rfl | ⟨h3, z, rfl⟩
        · obtain ⟨hh, he⟩ := List.append_inj' h rfl
          obtain rfl := (List.cons.inj he).1
          exact ⟨p, by omega, hp, hh⟩
        · rw [List.concat_eq_append, ← List.cons_append, ← List.append_assoc] at h
          obtain ⟨q, hq, he⟩ := ih (List.append_inj' h rfl).1
          exact ⟨q, by omega, he⟩
      · simp only [List.filterMap_cons, if_neg hj, List.filterMap_nil, List.append_nil] at h
        obtain ⟨q, hq, he⟩ := ih h
        exact ⟨q, by omega, he⟩

end Lines

/-! ## Commits counted -/

def commits (h : List (Entry σ ε ev α)) : ℕ := h.countP (Entry.isCommit fun _ _ => true)

section Commits

variable {h : List (Entry σ ε ev α)}

theorem commits_snoc (a b : σ) : commits (h ++ [.commit a b]) = commits h + 1 := by
  simp [commits, Entry.isCommit]

theorem commits_append (h h' : List (Entry σ ε ev α)) :
    commits (h ++ h') = commits h + commits h' := List.countP_append

theorem commits_emit (v : ev) : commits (h ++ [.emit v]) = commits h := by
  simp [commits, Entry.isCommit]

theorem commits_rollback (e : ε) : commits (h ++ [.rollback e]) = commits h := by
  simp [commits, Entry.isCommit]

theorem exists_commit_take {i p k : ℕ} {es : List (ℕ × Entry σ ε ev α)}
    (hk : k < commits (linesOf i (es.take p))) :
    ∃ q a b, q < p ∧ es[q]? = some (i, .commit a b) ∧ commits (linesOf i (es.take q)) = k := by
  induction p with
  | zero => simp [commits, linesOf] at hk
  | succ p ih =>
    by_cases hlt : k < commits (linesOf i (es.take p))
    · obtain ⟨q, a, b, hq, he, hc⟩ := ih hlt
      exact ⟨q, a, b, by omega, he, hc⟩
    · cases hp : es[p]? with
      | none =>
        rw [List.take_of_length_le (by have := List.getElem?_eq_none_iff.mp hp; omega)] at hk
        rw [List.take_of_length_le (List.getElem?_eq_none_iff.mp hp)] at hlt
        exact absurd hk hlt
      | some x =>
        obtain ⟨j, e⟩ := x
        rw [List.take_add_one, hp, Option.toList_some, linesOf, List.filterMap_append] at hk
        by_cases hj : j = i
        · subst hj
          cases e with
          | commit a b =>
            have hc : k = commits (linesOf j (es.take p)) := by
              simp [commits, Entry.isCommit, linesOf] at hk hlt ⊢
              omega
            exact ⟨p, a, b, by omega, hp, hc.symm⟩
          | start | rollback | emit | answer =>
            simp [commits, Entry.isCommit, linesOf] at hk hlt
            omega
        · simp [commits, linesOf, hj] at hk hlt
          omega

theorem commits_lt_of_commit {i p q : ℕ} {a b : σ} {es : List (ℕ × Entry σ ε ev α)}
    (h : es[q]? = some (i, .commit a b)) (hq : q < p) :
    commits (linesOf i (es.take q)) < commits (linesOf i (es.take p)) := by
  obtain ⟨h2, hs⟩ := linesOf_split h hq
  rw [hs]
  simp [commits, Entry.isCommit]

theorem mem_of_lastStore {s : σ} (hs : lastStore h = some s) : ∃ a, Entry.commit a s ∈ h := by
  obtain ⟨e, he, hx⟩ := List.exists_of_findSome?_eq_some hs
  cases e with
  | commit a b =>
    cases hx
    exact ⟨a, List.mem_reverse.mp he⟩
  | start | rollback | emit | answer => cases hx

theorem exists_lastStore_of_commits (hc : 0 < commits h) : ∃ s, lastStore h = some s := by
  obtain ⟨e, he, hcommit⟩ := List.countP_pos_iff.mp hc
  refine Option.isSome_iff_exists.mp (List.findSome?_isSome_iff.mpr
    ⟨e, List.mem_reverse.mpr he, ?_⟩)
  cases e with
  | commit a b => rfl
  | start | rollback | emit | answer => exact absurd hcommit (by simp [Entry.isCommit])

end Commits

/-! ## Answers -/

/-- Every successful answer meets `Ψ` of the history before it. -/
def AnswersAs (Ψ : α → List (Entry σ ε ev α) → Prop) (h : List (Entry σ ε ev α)) : Prop :=
  ∀ h₁ x h₂, h = h₁ ++ .answer (.ok x) :: h₂ → Ψ x h₁

theorem answersAs_nil {Ψ : α → List (Entry σ ε ev α) → Prop} :
    AnswersAs Ψ ([] : List (Entry σ ε ev α)) := fun _ _ _ he => by simp at he

theorem AnswersAs.snoc {Ψ : α → List (Entry σ ε ev α) → Prop} {h : List (Entry σ ε ev α)}
    {e : Entry σ ε ev α} (hw : AnswersAs Ψ h) (he : ∀ x, e = .answer (.ok x) → Ψ x h) :
    AnswersAs Ψ (h ++ [e]) := by
  intro h1 x h2 heq
  rcases snoc_eq_split heq with ⟨h3, hh⟩ | ⟨rfl, hx⟩
  · exact hw h1 x h3 hh
  · exact he x hx.symm

section Answering

variable [Store σ ω ι] [Faulty ε] {G : Guarantee σ} {D : List (Entry σ ε ev α) → σ → σ → Prop}
  {Ψ : α → List (Entry σ ε ev α) → Prop} {Φ : List (Entry σ ε ev α) → Prop} {C : ω → Bool} {e : ε}
  {Ω : List (Entry σ ε ev α) → Prop} {t : Tx σ ω ε β}

/-- The protocol of histories within `D` whose successful answers meet `Ψ`. -/
def Protocol.answering (G : Guarantee σ) (D : List (Entry σ ε ev α) → σ → σ → Prop)
    (Ψ : α → List (Entry σ ε ev α) → Prop) : Protocol σ ε ev α G where
  cond _ _ := True
  keeps h s := (Protocol.describing G D).keeps h s ∧ AnswersAs Ψ h
  keeps_stable hG hk := ⟨(Protocol.describing G D).keeps_stable hG hk.1, hk.2⟩

theorem Call.wp_answering {Q : Except ε β → List (Entry σ ε ev α) → σ → Prop}
    {c : Call σ ω ε ev β} {h : List (Entry σ ε ev α)} {s : σ}
    (hw : Call.wp (.describing G D) Q c h s) (hh : AnswersAs Ψ h) :
    Call.wp (.answering G D Ψ) (fun r h s => Q r h s ∧ AnswersAs Ψ h) c h s := by
  induction c generalizing h s with
  | pure b => exact ⟨hw, hh⟩
  | throw e => exact ⟨hw, hh⟩
  | pick k ih => exact fun n => ih n (hw n) hh
  | emit v k ih =>
    intro s' hs _
    obtain ⟨hk, hw'⟩ := hw s' hs trivial
    have hh' := hh.snoc (e := .emit v) (by simp)
    exact ⟨⟨hk, hh'⟩, ih hw' hh'⟩
  | tx t k ih =>
    intro s' hs _
    obtain ⟨ht, hf⟩ := hw s' hs trivial
    refine ⟨Tx.wp_mono (fun b ws s1 hc s2 hs2 _ => ?_) (fun e' s1 ha s2 hs2 _ => ?_) ht,
      fun e' hfault s2 hs2 _ => ?_⟩
    · obtain ⟨hG, hk, hw'⟩ := hc s2 hs2 trivial
      have hh' := hh.snoc (e := .commit s2 (view ws s2)) (by simp)
      exact ⟨hG, ⟨hk, hh'⟩, ih _ hw' hh'⟩
    · obtain ⟨hk, hw'⟩ := ha s2 hs2 trivial
      have hh' := hh.snoc (e := .rollback e') (by simp)
      exact ⟨⟨hk, hh'⟩, ih _ hw' hh'⟩
    · obtain ⟨hk, hw'⟩ := hf e' hfault s2 hs2 trivial
      have hh' := hh.snoc (e := .rollback e') (by simp)
      exact ⟨⟨hk, hh'⟩, ih _ hw' hh'⟩

/-- **A described request** is safe for its commits and its answer. -/
theorem Describes.safe_answering {c : Call σ ω ε ev α} (hΦ : Φ [.start])
    (hc : Describes C e G D Φ c Ψ) (s : σ) : Safe (.answering G D Ψ) (c.guard C e) s := by
  have hnil : ∀ s, (Protocol.answering G D Ψ).keeps ([] : List (Entry σ ε ev α)) s := fun s =>
    ⟨⟨commitsAs_nil, fun _ h => by cases h⟩, answersAs_nil⟩
  refine ⟨hnil s, fun s' _ _ => ?_⟩
  have hd := Protocol.describing_snoc (e := .start) (by simp) (hnil s').1
  have ha : AnswersAs Ψ ([.start] : List (Entry σ ε ev α)) :=
    answersAs_nil.snoc (e := .start) (by simp)
  refine ⟨⟨hd, ha⟩, Call.wp_mono (fun r h s hr s' hs => ⟨?_, ?_⟩)
    (Call.wp_answering (hc [.start] s' hd hΦ) ha)⟩
  · exact Protocol.describing_snoc (by simp) ((Protocol.describing G D).keeps_stable hs hr.1.1)
  · exact hr.2.snoc fun x hx => by cases hx; exact hr.1.2 x rfl

/-- **`try … catch`**: the handler starts from whatever the body has done. -/
theorem Describes.handle {c : Call σ ω ε ev β} {f : ε → Call σ ω ε ev β}
    {Ψ : β → List (Entry σ ε ev α) → Prop} (hc : Describes C e G D Φ c Ψ)
    (hf : ∀ e', Describes C e G D (fun _ => True) (f e') Ψ) :
    Describes C e G D Φ (c.handle f) Ψ := by
  intro h s hk hh
  rw [Call.guard_handle]
  refine Call.wp_handle (Call.wp_mono (fun r h' s' hr => ?_) (hc h s hk hh))
  cases r with
  | ok b => exact ⟨hr.1, fun _ he => by cases he; exact hr.2 b rfl⟩
  | error e' => exact hf e' h' s' hr.1 trivial

theorem Describes.pre {c : Call σ ω ε ev β} {Φ' : List (Entry σ ε ev α) → Prop}
    {Ψ : β → List (Entry σ ε ev α) → Prop} (hc : Describes C e G D Φ c Ψ)
    (hΦ : ∀ h, Φ' h → Φ h) : Describes C e G D Φ' c Ψ := fun h s hk hh => hc h s hk (hΦ h hh)

/-- A line that is no commit. -/
theorem Describes.fire {v : ev} (hv : ∀ h, Φ h → Ω (h ++ [.emit v])) :
    Describes C e G D Φ (Call.fire v : Call σ ω ε ev Unit) fun _ => Ω := by
  intro h s hk hh s' hs _
  have hk' := Protocol.describing_snoc (e := .emit v) (by simp)
    ((Protocol.describing G D).keeps_stable hs hk)
  exact ⟨hk', hk', fun _ _ => hv h hh⟩

/-- **A confined transaction.** -/
theorem Describes.confined {E : σ → σ → Prop} {Ψ : β → List (Entry σ ε ev α) → Prop}
    (ht : Confined C e G E t) (hE : ∀ a b, Relation.ReflTransGen E a b → G.rel a b)
    (hD : ∀ h a b, Φ h → Relation.ReflTransGen E a b → D h a b)
    (hΨ : ∀ r h a b, Φ h → Ψ r (h ++ [.commit a b])) :
    Describes C e G D Φ (Call.withTx t : Call σ ω ε ev β) Ψ := by
  refine .tx (R := fun h _ => Relation.Comp (Since G h) (Relation.ReflTransGen E))
    (fun h _ => ht (Since G h)) ?_
  rintro h r a c hh ⟨b, ⟨-, rfl⟩, hs⟩
  exact ⟨hE _ _ hs, hD h _ _ hh hs, hΨ r h _ _ hh⟩

/-- A request on its way keeps what no further line takes away. -/
theorem Call.wp_frame {pr : Protocol σ ε ev α G} {F : List (Entry σ ε ev α) → Prop}
    {Q : Except ε β → List (Entry σ ε ev α) → σ → Prop} {c : Call σ ω ε ev β}
    {h : List (Entry σ ε ev α)} {s : σ} (hF : ∀ h e, F h → F (h ++ [e]))
    (hw : Call.wp pr Q c h s) (hh : F h) : Call.wp pr (fun r h s => Q r h s ∧ F h) c h s := by
  induction c generalizing h s with
  | pure b => exact ⟨hw, hh⟩
  | throw e => exact ⟨hw, hh⟩
  | pick k ih => exact fun n => ih n (hw n) hh
  | emit v k ih =>
    intro s' hs hc
    obtain ⟨hk, hw'⟩ := hw s' hs hc
    exact ⟨hk, ih hw' (hF _ _ hh)⟩
  | tx t k ih =>
    intro s' hs hc
    obtain ⟨ht, hf⟩ := hw s' hs hc
    refine ⟨Tx.wp_mono (fun b ws s1 hcm s2 hs2 hc2 => ?_) (fun e' s1 ha s2 hs2 hc2 => ?_) ht,
      fun e' hfault s2 hs2 hc2 => ?_⟩
    · obtain ⟨hG, hk, hw'⟩ := hcm s2 hs2 hc2
      exact ⟨hG, hk, ih _ hw' (hF _ _ hh)⟩
    · obtain ⟨hk, hw'⟩ := ha s2 hs2 hc2
      exact ⟨hk, ih _ hw' (hF _ _ hh)⟩
    · obtain ⟨hk, hw'⟩ := hf e' hfault s2 hs2 hc2
      exact ⟨hk, ih _ hw' (hF _ _ hh)⟩

/-- **The frame rule.** -/
theorem Describes.frame {c : Call σ ω ε ev β} {F : List (Entry σ ε ev α) → Prop}
    {Ψ : β → List (Entry σ ε ev α) → Prop} (hF : ∀ h e, F h → F (h ++ [e]))
    (hc : Describes C e G D Φ c Ψ) :
    Describes C e G D (fun h => Φ h ∧ F h) c fun b h => Ψ b h ∧ F h := fun h s hk hh =>
  Call.wp_mono (fun _ _ _ hr => ⟨hr.1.1, fun b he => ⟨hr.1.2 b he, hr.2⟩⟩)
    (Call.wp_frame hF (hc h s hk hh.1) hh.2)

/-- The session has made `k` commits. -/
def Made (k : ℕ) (h : List (Entry σ ε ev α)) : Prop := commits h = k

/-- A transaction that only reads is one commit more. -/
theorem Describes.count {k : ℕ} (hD : ∀ h a, Made k h → D h a a)
    (ht : Confined C e G (fun _ _ => False) t) :
    Describes C e G D (Made k) (Call.withTx t : Call σ ω ε ev β) fun _ => Made (k + 1) := by
  have hsame : ∀ {a b : σ}, Relation.ReflTransGen (fun _ _ => False) a b → a = b := by
    intro a b hs
    induction hs with
    | refl => rfl
    | tail _ hf => exact hf.elim
  refine .confined ht (fun a b hs => hsame hs ▸ G.refl a) (fun h a b hh hs => ?_)
    fun _ h a b hh => ?_
  · cases hsame hs
    exact hD h a hh
  · rw [Made, commits_snoc, hh]

/-- **A transaction that reads**: what it has learned of the last store, that others respect. -/
theorem Describes.learn {F : β → σ → Prop} (hD : ∀ h a, Φ h → D h a a)
    (hΦ : ∀ h a, Φ h → Ω (h ++ [.commit a a])) (ht : Triple C e G Eq t fun x a b => F x a ∧ a = b) :
    Describes C e G D Φ (Call.withTx t : Call σ ω ε ev β) fun x h => Ω h ∧ Holds (F x) h := by
  refine .tx (R := fun _ x a b => F x a ∧ a = b) (fun h _ => ht.pre fun a b hab => hab.2) ?_
  rintro h x a c hh ⟨hx, rfl⟩
  exact ⟨G.refl a, hD h a hh, hΦ h a hh, a, lastStore_commit h a a, hx⟩

/-- The same, beside what is known already. -/
theorem Describes.learnMore {F0 : σ → Prop} {F : β → σ → Prop} (hD : ∀ h a, Φ h → D h a a)
    (hΦ : ∀ h a, Φ h → Ω (h ++ [.commit a a])) (hF0 : G.Keeps F0)
    (ht : Triple C e G (fun a b => F0 a ∧ a = b) t fun x a b => F x a ∧ F0 a ∧ a = b) :
    Describes C e G D (fun h => Φ h ∧ Holds F0 h) (Call.withTx t : Call σ ω ε ev β)
      fun x h => Ω h ∧ Holds (fun s => F0 s ∧ F x s) h := by
  refine .tx (R := fun _ x a b => F x a ∧ F0 a ∧ a = b) (fun h hh => ht.pre fun a b hab => ?_) ?_
  · obtain ⟨-, s, hs, h0⟩ := hh
    exact ⟨hF0 _ _ (hab.1 s hs) h0, hab.2⟩
  · rintro h x a c ⟨hh, -⟩ ⟨hx, h0, rfl⟩
    exact ⟨G.refl a, hD h a hh, hΦ h a hh, a, lastStore_commit h a a, h0, hx⟩

end Answering

/-! ## Positions of a trace -/

variable [Store σ ω ι]

/-- One move adds at most one line. -/
theorem Session.advance_length [Faulty ε] {s s' : σ} {ss ss' : Session σ ω ε ev α}
    {es : List (Entry σ ε ev α)} {m : Move ε} (h : ss.advance s m = some (ss', s', es)) :
    es.length ≤ 1 := by
  cases m with
  | go n =>
    cases ss with
    | new c => cases h; simp
    | idle c => cases c <;> cases h <;> simp
    | inTx ws t k =>
      cases t with
      | stmt q t =>
        simp only [Session.advance, Session.next] at h
        revert h
        cases q (view ws s) <;> (intro h; cases h; simp)
      | pure b => cases h; simp
      | throw e => cases h; simp
      | pick t => cases h; simp
      | clock t => cases h; simp
    | done => cases h
  | fail e =>
    cases ss with
    | inTx ws t k =>
      simp only [Session.advance] at h
      split at h
      · cases h; simp
      · cases h
    | new c => cases h
    | idle c => cases h
    | done => cases h
  | crash => cases ss <;> cases h <;> simp

variable [Faulty ε] [DecidableEq ι] {P : Config σ ω ε ev α → ℕ → Prop} {s₀ : σ}
  {calls : List (Call σ ω ε ev α)} {c : Config σ ω ε ev α}

/-- **What was done at position `p`** was one step of a run whose trace so far is the first `p`
lines. -/
theorem reach_at (h : Reach P (Config.init s₀ calls) c) {p : ℕ} {e : Entry σ ε ev α}
    (hp : c.trace[p]? = some (i, e)) : ∃ d d' m, Reach P (Config.init s₀ calls) d ∧ P d i ∧
      d.step i m = some d' ∧ d.trace = c.trace.take p ∧ d'.trace = d.trace ++ [(i, e)] := by
  induction h with
  | refl => simp [Config.init] at hp
  | @tail c c' j m hr hP hs ih =>
    obtain ⟨ss, ss', db', es, hj, ha, hf, rfl⟩ := Config.step_cases hs
    by_cases hlt : p < c.trace.length
    · rw [List.getElem?_append_left hlt] at hp
      rw [List.take_append_of_le_length (by omega)]
      exact ih hp
    · -- The line was added by this step, and it is the only one.
      rw [List.getElem?_append_right (by omega)] at hp
      have hlen := Session.advance_length ha
      have hes : es ≠ [] := by
        rintro rfl
        simp at hp
      obtain ⟨x, rfl⟩ : ∃ x, es = [x] := List.length_eq_one_iff.mp (by
        have := List.length_pos_iff.mpr hes
        omega)
      have hpe : p = c.trace.length := by
        have := (List.getElem?_eq_some_iff.mp hp).1
        simp at this
        omega
      subst hpe
      simp only [List.map_cons, List.map_nil, Nat.sub_self, List.getElem?_cons_zero,
        Option.some.injEq] at hp
      cases hp
      refine ⟨c, _, m, hr, hP, hs, ?_, rfl⟩
      rw [List.take_append_of_le_length (by omega), List.take_length]

/-! ## Conditions on commits that look back on the run -/

/-- If session `i` is about to commit, the stores before and after meet `Q`. -/
def Config.AtCommit (Q : σ → σ → Prop) (c : Config σ ω ε ev α) (i : ℕ) : Prop :=
  ∀ ss, c.sess[i]? = some ss → ss.CommitMeets Q c.db

/-- The condition, computed. -/
def Config.atCommit (q : σ → σ → Bool) (c : Config σ ω ε ev α) (i : ℕ) : Bool :=
  c.sess[i]?.all fun ss => ss.commitMeets q c.db

omit [Faulty ε] [DecidableEq ι] in
theorem Config.atCommit_of {Q : σ → σ → Prop} {q : σ → σ → Bool} (hq : ∀ a b, q a b = true → Q a b)
    (h : c.atCommit q i = true) : c.AtCommit Q i :=
  Config.commitMeets_of (K := fun _ _ => Q) (k := fun _ _ => q) (fun _ _ a b => hq a b) h

/-- **The commit at position `p`** of a run whose commits meet `K` of the trace before them. -/
theorem reach_atCommit {K : List (ℕ × Entry σ ε ev α) → ℕ → σ → σ → Prop}
    (hK : ∀ c i, P c i → c.AtCommit (K c.trace i) i) (h : Reach P (Config.init s₀ calls) c) {p : ℕ}
    {a b : σ} (hp : c.trace[p]? = some (i, .commit a b)) : K (c.trace.take p) i a b := by
  obtain ⟨d, d', m, -, hP, hs, ht, ht'⟩ := reach_at h hp
  obtain ⟨ss, ss', db', es, hi, ha, -, rfl⟩ := Config.step_cases hs
  have hm : Entry.commit a b ∈ es := by
    have := List.append_cancel_left ht'
    obtain ⟨x, rfl⟩ : ∃ x, es = [x] := List.length_eq_one_iff.mp (by
      simpa using congrArg List.length this)
    simpa using this.symm
  rw [← ht]
  exact Session.commitMeets_advance ha (hK d i hP ss hi) hm

/-! ## The server -/

/-- **The server** with the store `s`, when it has received the requests. -/
def serve (run : R → Call σ ω ε ev α) (s : σ) (requests : List R) : Config σ ω ε ev α :=
  Config.init s (requests.map run)

variable {run : R → Call σ ω ε ev α} {requests : List R} {G : Guarantee σ}
  {D : R → List (Entry σ ε ev α) → σ → σ → Prop} {Φ : List (Entry σ ε ev α) → Prop}
  {Ψ : R → α → List (Entry σ ε ev α) → Prop}

/-- What a run of described requests is made of. -/
structure Served (G : Guarantee σ) (D : R → List (Entry σ ε ev α) → σ → σ → Prop)
    (Ψ : R → α → List (Entry σ ε ev α) → Prop) (s : σ) (requests : List R)
    (c : Config σ ω ε ev α) : Prop where
  linear : Linear s c.trace c.db
  rel : G.rel s c.db
  /-- Every commit is one of its request. -/
  commit {p i : ℕ} {a b : σ} : c.trace[p]? = some (i, .commit a b) →
    ∃ r, requests[i]? = some r ∧ G.rel a b ∧ D r (linesOf i (c.trace.take p)) a b
  /-- So is every successful answer. -/
  answer {p i : ℕ} {x : α} : c.trace[p]? = some (i, .answer (.ok x)) →
    ∃ r, requests[i]? = some r ∧ Ψ r x (linesOf i (c.trace.take p))

namespace Served

omit [Faulty ε] [DecidableEq ι] in
/-- What a stretch of the trace does to the store is guaranteed. -/
theorem rel_of_linear (h : Served (ω := ω) G D Ψ s₀ requests c) {es : List (ℕ × Entry σ ε ev α)}
    (hes : es ⊆ c.trace) {s s' : σ} (hl : Linear s es s') : G.rel s s' := by
  refine hl.carry (F := G.rel s) (fun i a b hc hs => ?_) (G.refl s)
  obtain ⟨p, hp⟩ := List.getElem?_of_mem (hes hc)
  obtain ⟨-, -, hab, -⟩ := h.commit hp
  exact G.trans hs hab

omit [Faulty ε] [DecidableEq ι] in
/-- From one commit to a later one. -/
theorem since (h : Served (ω := ω) G D Ψ s₀ requests c) {p q i j : ℕ} {a b a' b' : σ}
    (hp : c.trace[p]? = some (i, .commit a b)) (hq : c.trace[q]? = some (j, .commit a' b'))
    (hlt : p < q) : G.rel b a' := by
  obtain ⟨mid, hmid, hl⟩ := h.linear.between hp hq hlt
  exact h.rel_of_linear hmid hl

omit [Faulty ε] [DecidableEq ι] in
theorem toEnd (h : Served (ω := ω) G D Ψ s₀ requests c) {p i : ℕ} {a b : σ}
    (hp : c.trace[p]? = some (i, .commit a b)) : G.rel b c.db :=
  h.rel_of_linear (List.drop_subset _ _) (h.linear.after hp)

end Served

/-- **Every commit and every answer** of a run is as described. -/
theorem reach_served (e : ε) (hΦ : Φ [.start])
    (hd : ∀ r ∈ requests, Describes (fun _ => true) e G (D r) Φ (run r) (Ψ r))
    (h : Reach P (serve run s₀ requests) c) : Served G D Ψ s₀ requests c := by
  let D' : ℕ → List (Entry σ ε ev α) → σ → σ → Prop := fun i h a b =>
    ∀ r, requests[i]? = some r → D r h a b
  let Ψ' : ℕ → α → List (Entry σ ε ev α) → Prop := fun i x h => ∀ r, requests[i]? = some r → Ψ r x h
  have hsafe : ∀ (i : ℕ) d, (requests.map run)[i]? = some d →
      Safe (Protocol.answering G (D' i) (Ψ' i)) d s₀ := by
    intro i d hi
    rw [List.getElem?_map, Option.map_eq_some_iff] at hi
    obtain ⟨r, hr, rfl⟩ := hi
    have hD : D' i = D r := by funext h a b; simp [D', hr]
    have hΨ : Ψ' i = Ψ r := by funext x h; simp [Ψ', hr]
    rw [hD, hΨ, ← Call.guard_true (e := e) (run r)]
    exact (hd r (List.mem_of_getElem? hr)).safe_answering hΦ s₀
  have hcond : ∀ (c : Config σ ω ε ev α) i,
      c.Ok (fun i => Protocol.answering G (D' i) (Ψ' i)) s₀ → P c i → c.ends i = false →
        (Protocol.answering G (D' i) (Ψ' i)).cond (c.histOf i) c.db := fun _ _ _ _ _ => trivial
  have hown : ∀ {p i : ℕ} {x : Entry σ ε ev α}, c.trace[p]? = some (i, x) →
      ∃ r, requests[i]? = some r := by
    intro p i x hp
    have hlt := reach_owned h (List.mem_of_getElem? hp)
    rw [List.length_map] at hlt
    exact ⟨_, List.getElem?_eq_getElem hlt⟩
  have hkeeps : ∀ {p i : ℕ} {x : Entry σ ε ev α}, c.trace[p]? = some (i, x) →
      CommitsAs (D' i) (c.histOf i) ∧ AnswersAs (Ψ' i) (c.histOf i) := by
    intro p i x hp
    have hlt := reach_owned h (List.mem_of_getElem? hp)
    have hk := reach_keeps hsafe hcond h hlt
    exact ⟨hk.1.1, hk.2⟩
  have hsplit : ∀ {p i : ℕ} {x : Entry σ ε ev α}, c.trace[p]? = some (i, x) →
      ∃ h2, c.histOf i = linesOf i (c.trace.take p) ++ x :: h2 := by
    intro p i x hp
    have hlt : p < c.trace.length := (List.getElem?_eq_some_iff.mp hp).1
    obtain ⟨h2, hh⟩ := linesOf_split hp hlt
    rw [List.take_length] at hh
    exact ⟨h2, hh⟩
  refine ⟨reach_linear h, (reach_sound hsafe hcond h).rel, ?_, ?_⟩
  · intro p i a b hp
    obtain ⟨r, hr⟩ := hown hp
    obtain ⟨h2, hh⟩ := hsplit hp
    exact ⟨r, hr, reach_commits hsafe hcond h (List.mem_of_getElem? hp),
      (hkeeps hp).1 _ a b h2 hh r hr⟩
  · intro p i x hp
    obtain ⟨r, hr⟩ := hown hp
    obtain ⟨h2, hh⟩ := hsplit hp
    exact ⟨r, hr, (hkeeps hp).2 _ x h2 hh r hr⟩

end PatronLoyalty.Txn
