import PatronLoyalty.Txn.Alone

/-!
# Requests one after the other

`InTurn run P s l s'`: a server that serves one request after the other has come from `s` to `s'`, with
the requests and answers `l`, and every turn met `P` of what came before it, of the request and of the
stores before and after. A request without an answer died on its way. Headline: **`InTurn.keeps`**.

What a single statement gives, and what is kept by the parts of a request that only read, is stated here
for `Call.Keeps`.
-/

namespace PatronLoyalty.Txn

open Relation

variable {σ ω ι ε ev α β γ R : Type} [Store σ ω ι] {c : Call σ ω ε ev β} {s s' : σ}
  {E : σ → σ → Prop}

/-! ## Turns -/

/-- **One turn**: the request answers, or dies on its way. -/
def Call.turn (c : Call σ ω ε ev α) (s : σ) : Option (Except ε α) → σ → Prop
  | some a, s' => c.gives s a s'
  | none, s' => c.passes s s'

theorem Call.Keeps.turn {I : σ → Prop} {Q : Except ε α → σ → Prop} {c : Call σ ω ε ev α}
    {o : Option (Except ε α)} (h : c.Keeps I Q s) (ht : c.turn s o s') :
    I s' ∧ ∀ a, o = some a → Q a s' := by
  cases o with
  | none => exact ⟨h.passes s' ht, nofun⟩
  | some a =>
    refine ⟨h.passes s' (Call.gives_passes ht), fun a' ha => ?_⟩
    cases ha
    exact h.gives a s' ht

/-- **Served in turn.** -/
inductive InTurn (run : R → Call σ ω ε ev α)
    (P : List (R × Option (Except ε α)) → σ → R → σ → Prop) (s : σ) :
    List (R × Option (Except ε α)) → σ → Prop
  | nil : InTurn run P s [] s
  | snoc {l : List (R × Option (Except ε α))} {m s' : σ} {r : R} {o : Option (Except ε α)}
      (h : InTurn run P s l m) (hP : P l m r s') (ht : (run r).turn m o s') :
      InTurn run P s (l ++ [(r, o)]) s'

namespace InTurn

variable {run : R → Call σ ω ε ev α} {P P' : List (R × Option (Except ε α)) → σ → R → σ → Prop}
  {s s' : σ} {l : List (R × Option (Except ε α))}

/-- **What every turn keeps** holds at the end. -/
theorem keeps {I : List (R × Option (Except ε α)) → σ → Prop} (h : InTurn run P s l s')
    (h0 : I [] s) (hI : ∀ l m r o m', I l m → P l m r m' → (run r).turn m o m' →
      I (l ++ [(r, o)]) m') : I l s' := by
  induction h with
  | nil => exact h0
  | snoc h hP ht ih => exact hI _ _ _ _ _ ih hP ht

theorem of_mem (h : InTurn run P s l s') {r : R} {o : Option (Except ε α)} (hr : (r, o) ∈ l) :
    ∃ l1 m m', InTurn run P s l1 m ∧ P l1 m r m' ∧ (run r).turn m o m' := by
  induction h with
  | nil => exact absurd hr List.not_mem_nil
  | snoc h hP ht ih =>
    rcases List.mem_append.mp hr with hr | hr
    · exact ih hr
    · cases List.mem_singleton.mp hr
      exact ⟨_, _, _, h, hP, ht⟩

end InTurn

/-- What a request comes to with its inputs from an environment, it may come to. -/
theorem Call.gives_eval (env : Env) (c : Call σ ω ε ev α) (n : ℕ) (s : σ) :
    c.gives s (c.eval env n s).answer (c.eval env n s).db := by
  induction c generalizing n s with
  | pure a => exact ⟨rfl, rfl⟩
  | throw e => exact ⟨rfl, rfl⟩
  | pick k ih => exact ⟨_, ih _ _ _⟩
  | emit v k ih => exact ih n s
  | tx t k ih =>
    simp only [eval]
    cases ht : t.eval env n [] s with
    | mk r m =>
      cases r with
      | ok r => exact Or.inl ⟨r.1, view r.2 s, Tx.gives_of_eval ht, ih _ _ _⟩
      | error e => exact Or.inr ⟨e, ih _ _ _⟩

theorem InTurn.eval {run : R → Call σ ω ε ev α}
    {P : List (R × Option (Except ε α)) → σ → R → σ → Prop} {m : σ}
    {l : List (R × Option (Except ε α))} (h : InTurn run P s l m) (env : Env) (r : R)
    (hP : P l m r ((run r).eval env 0 m).db) :
    InTurn run P s (l ++ [(r, some ((run r).eval env 0 m).answer)]) ((run r).eval env 0 m).db :=
  h.snoc hP (Call.gives_eval env (run r) 0 m)

/-! ## Parts of a request -/

theorem eq_of_noSteps (h : ReflTransGen (fun _ _ : σ => False) s s') : s' = s := by
  rcases ReflTransGen.cases_tail h with rfl | ⟨_, _, hf⟩
  · rfl
  · exact hf.elim

/-- A request that only reads leaves the store. -/
theorem Call.Walks.still {r : Except ε β} (h : Walks (fun _ _ => False) c)
    (hg : c.gives s r s') : s' = s :=
  eq_of_noSteps (h.gives hg)

theorem Call.Walks.of_still (h : Walks (fun _ _ => False) c) : Walks E c := fun s s' hp => by
  rw [eq_of_noSteps (h s s' hp)]

namespace Call.Keeps

variable {I : σ → Prop} {Q : Except ε β → σ → Prop} {s : σ} {e : ε} {Q' : Except ε γ → σ → Prop}
  {c : Call σ ω ε ev β} {f : β → Call σ ω ε ev γ}

theorem throw (hI : I s) (hQ : Q (.error e) s) :
    Keeps I Q (Call.throw e : Call σ ω ε ev β) s where
  passes := by
    rintro s' rfl
    exact hI
  gives := by
    rintro r s' ⟨rfl, rfl⟩
    exact hQ

theorem input {Q : Except ε ℕ → σ → Prop} (hI : I s) (hQ : ∀ n, Q (.ok n) s) :
    Keeps I Q (Call.input : Call σ ω ε ev ℕ) s where
  passes := by
    rintro s' ⟨-, rfl⟩
    exact hI
  gives := by
    rintro r s' ⟨n, rfl, rfl⟩
    exact hQ n

/-- **A transaction that only reads**; it may fail. -/
theorem read {t : Tx σ ω ε β} (hI : I s)
    (ht : Confined (fun _ => true) e alone (fun _ _ => False) t)
    (hok : ∀ b, t.gives s b s → Q (.ok b) s) (herr : ∀ e, Q (.error e) s) :
    Keeps I Q (withTx t : Call σ ω ε ev β) s :=
  .tx hI (fun b s' hg => by
    have hs := ht.gives_still hg
    subst hs
    exact ⟨hI, hok b hg⟩) herr

/-- **Sequencing** after a part that leaves the store. -/
theorem andThen {F : β → Prop} (hc : Keeps I (fun r m => m = s ∧ ∀ b, r = .ok b → F b) c s)
    (hok : ∀ b, F b → Keeps I Q' (f b) s) (herr : ∀ e, Q' (.error e) s) :
    Keeps I Q' (c.bind f) s := by
  refine hc.bind (fun b m hb => ?_) fun e m he => ?_
  · obtain ⟨rfl, hF⟩ := hb
    exact hok b (hF b rfl)
  · obtain ⟨rfl, -⟩ := he
    exact herr e

/-- A check comes first. -/
theorem ofExcept_bind {r : Except ε β} (hI : I s) (hok : ∀ b, r = .ok b → Keeps I Q' (f b) s)
    (herr : ∀ e, Q' (.error e) s) :
    Keeps I Q' ((Call.ofExcept r).bind f) s := by
  cases r with
  | ok b => exact hok b rfl
  | error e => exact .throw hI (herr e)

theorem read_bind {t : Tx σ ω ε β} (hI : I s)
    (ht : Confined (fun _ => true) e alone (fun _ _ => False) t)
    (hok : ∀ b, t.gives s b s → Keeps I Q' (f b) s) (herr : ∀ e, Q' (.error e) s) :
    Keeps I Q' ((withTx t).bind f) s :=
  .andThen (.read hI ht (fun b hb => ⟨rfl, fun b' h => by cases h; exact hb⟩)
    fun _ => ⟨rfl, nofun⟩) hok herr

theorem of_walks {E : σ → σ → Prop} (h : Walks E c) (hE : ∀ s', ReflTransGen E s s' → I s')
    (hQ : ∀ r s', c.gives s r s' → ReflTransGen E s s' → Q r s') : Keeps I Q c s :=
  (walks h hE).post fun r s' hr => hQ r s' hr.1 hr.2

/-- A part that leaves the store comes first. -/
theorem still_bind (hI : I s) (hc : Walks (fun _ _ => False) c) (hok : ∀ b, Keeps I Q' (f b) s)
    (herr : ∀ e, Q' (.error e) s) : Keeps I Q' (c.bind f) s := by
  refine .andThen (F := fun _ => True) (.of_walks hc (fun s' h => ?_) fun r s' _ h => ?_)
    (fun b _ => hok b) herr
  · rw [eq_of_noSteps h]
    exact hI
  · exact ⟨eq_of_noSteps h, fun _ _ => trivial⟩

theorem found_bind (hI : I s) (hc : Walks (fun _ _ => False) c)
    (hok : ∀ b, c.gives s (.ok b) s → Keeps I Q' (f b) s) (herr : ∀ e, Q' (.error e) s) :
    Keeps I Q' (c.bind f) s := by
  refine .andThen (F := fun b => c.gives s (.ok b) s) ⟨fun s' h => ?_, fun r s' h => ?_⟩ hok herr
  · rw [eq_of_noSteps (hc _ _ h)]
    exact hI
  · obtain rfl := hc.still h
    exact ⟨rfl, fun b hb => hb ▸ h⟩

/-- **`try … catch`.** -/
theorem handle {f : ε → Call σ ω ε ev β}
    (hc : Keeps I (fun r m => (∀ b, r = .ok b → Q r m) ∧ ∀ e, r = .error e → Keeps I Q (f e) m) c s) :
    Keeps I Q (c.handle f) s where
  passes s' h := by
    rcases passes_handle h with h | ⟨e, m, he, h⟩
    · exact hc.passes s' h
    · exact ((hc.gives _ m he).2 e rfl).passes s' h
  gives r s' h := by
    rcases gives_handle h with ⟨b, rfl, hb⟩ | ⟨e, m, he, h⟩
    · exact (hc.gives _ s' hb).1 b rfl
    · exact ((hc.gives _ m he).2 e rfl).gives r s' h

/-- What is made of the result. -/
theorem map {A : σ → Prop} {F : β → σ → Prop} {f : β → γ}
    (h : Keeps I (fun r m => A m ∧ ∀ b, r = .ok b → F b m) c s) :
    Keeps I (fun r m => A m ∧ ∀ y, r = .ok y → ∃ b, y = f b ∧ F b m)
      (c.bind fun b => .pure (f b)) s where
  passes s' hp := by
    rcases passes_bind hp with hp | ⟨b, m, hb, hp⟩
    · exact h.passes s' hp
    · cases hp
      exact h.passes _ (gives_passes hb)
  gives r s' hg := by
    rcases gives_bind.mp hg with ⟨b, m, hb, rfl, rfl⟩ | ⟨e, he, rfl⟩
    · obtain ⟨hA, hF⟩ := h.gives _ _ hb
      refine ⟨hA, fun y hy => ?_⟩
      cases hy
      exact ⟨b, rfl, hF b rfl⟩
    · refine ⟨(h.gives _ _ he).1, fun y hy => ?_⟩
      cases hy

end Call.Keeps

theorem Call.Keeps.turn_map {I : σ → Prop} {Q : Except ε β → σ → Prop} {f : β → γ}
    {o : Option (Except ε γ)} (h : c.Keeps I Q s)
    (ht : (c.bind fun b => .pure (f b)).turn s o s') : I s' := by
  have hp : (c.bind fun b => .pure (f b)).passes s s' := by
    cases o with
    | none => exact ht
    | some r => exact gives_passes ht
  rcases passes_bind hp with hp | ⟨b, m, hb, rfl⟩
  · exact h.passes s' hp
  · exact h.passes _ (gives_passes hb)

theorem Call.Walks.fire (v : ev) :
    Walks E (Call.fire v : Call σ ω ε ev Unit) := by
  rintro s s' rfl
  exact .refl

theorem Call.Walks.fireAll (vs : List ev) :
    Walks E (Call.fireAll vs : Call σ ω ε ev Unit) := by
  induction vs with
  | nil => exact .pure ()
  | cons v vs ih => exact ih

theorem Call.Walks.ofExcept (r : Except ε β) :
    Walks E (Call.ofExcept r : Call σ ω ε ev β) := by
  cases r with
  | ok b => exact .pure b
  | error e => exact .throw e

/-! ## What a request gives when it succeeds -/

namespace Call

variable {s s' : σ} {b : β}

@[simp] theorem gives_pure {r : Except ε β} :
    (pure b : Call σ ω ε ev β).gives s r s' ↔ r = .ok b ∧ s' = s := Iff.rfl

@[simp] theorem not_gives_throw {e : ε} :
    ¬ (throw e : Call σ ω ε ev β).gives s (.ok b) s' := fun h => nomatch h.1

@[simp] theorem gives_input {n : ℕ} :
    (input : Call σ ω ε ev ℕ).gives s (.ok n) s' ↔ s' = s := by
  constructor
  · rintro ⟨_, -, h⟩
    exact h
  · exact fun h => ⟨n, rfl, h⟩

/-- **Sequencing.** -/
theorem gives_bind_ok {c : Call σ ω ε ev β} {f : β → Call σ ω ε ev γ} {y : γ} :
    (c.bind f).gives s (.ok y) s' ↔ ∃ b m, c.gives s (.ok b) m ∧ (f b).gives m (.ok y) s' := by
  rw [gives_bind]
  simp

theorem gives.seq {c : Call σ ω ε ev β} {f : β → Call σ ω ε ev γ} {y : γ}
    (h : (c.bind f).gives s (.ok y) s') :
    ∃ b m, c.gives s (.ok b) m ∧ (f b).gives m (.ok y) s' := gives_bind_ok.mp h

/-- A transaction that commits. -/
theorem gives_withTx_ok {t : Tx σ ω ε β} :
    (withTx t : Call σ ω ε ev β).gives s (.ok b) s' ↔ t.gives s b s' := by
  rw [gives_withTx]
  simp

@[simp] theorem gives_ofExcept {r : Except ε β} :
    (ofExcept r : Call σ ω ε ev β).gives s (.ok b) s' ↔ r = .ok b ∧ s' = s := by
  cases r with
  | ok c => simp [ofExcept, eq_comm]
  | error e => simp [ofExcept]

end Call

/-! ## Statements -/

theorem Tx.gives_readOrThrow {e : ε} {f : σ → Option β} {x : β} :
    (Tx.readOrThrow e f : Tx σ ω ε β).gives s x s' ↔ f s = some x ∧ s' = s := by
  constructor
  · rintro ⟨b, ws, hq, rfl, rfl⟩
    cases hf : f s with
    | none => simp [hf] at hq
    | some y =>
      simp only [hf, Except.ok.injEq, Prod.mk.injEq] at hq
      obtain ⟨rfl, rfl⟩ := hq
      exact ⟨rfl, rfl⟩
  · rintro ⟨hf, rfl⟩
    exact ⟨x, [], by simp [hf], rfl, rfl⟩

namespace Rel

variable {κ : Type} {ρ : κ → Type} {L υ : Type} [DecidableEq κ] [∀ k, DecidableEq (ρ k)]
  [DecidableEq υ] [Keyed ρ L υ] {miss dup : ε} {k : κ} {id : ℕ} {s s' : Rel ρ L}

theorem gives_insert {r : ρ k} {u : Unit} :
    (Rel.insert dup k id r : Tx (Rel ρ L) (Write ρ L) ε Unit).gives s u s' ↔
      s.get k id = none ∧ s.clashes k none r = false ∧ s' = s.set k id r := by
  rw [insert, Tx.gives_exec]
  constructor
  · rintro ⟨ws, hq, rfl⟩
    split at hq
    · cases hq
    · rename_i hc
      cases hq
      simp only [Bool.or_eq_true, not_or, Bool.not_eq_true, Option.isSome_eq_false_iff,
        Option.isNone_iff_eq_none] at hc
      exact ⟨hc.1, hc.2, put_eq hc.1⟩
  · rintro ⟨hn, hc, rfl⟩
    exact ⟨[.put k id none r], by simp [hn, hc], (put_eq hn).symm⟩

theorem gives_insertLog {l : L} {u : Unit} (h : Keyed.logKeys ρ l = ([] : List υ)) :
    (Rel.insertLog dup l : Tx (Rel ρ L) (Write ρ L) ε Unit).gives s u s' ↔
      s' = { s with log := s.log ++ [l] } := by
  rw [insertLog, Tx.gives_exec]
  simp [h, view]

theorem gives_modify {f : ρ k → Except ε (ρ k)} {r' : ρ k} :
    (Rel.modify miss dup k id f : Tx (Rel ρ L) (Write ρ L) ε (ρ k)).gives s r' s' ↔
      ∃ r, s.get k id = some r ∧ f r = .ok r' ∧ s.clashes k (some r) r' = false ∧
        s' = s.set k id r' := by
  rw [modify, Tx.gives_exec]
  constructor
  · rintro ⟨ws, hq, rfl⟩
    cases hg : s.get k id with
    | none =>
      rw [hg] at hq
      cases hq
    | some r =>
      rw [hg] at hq
      cases hf : f r with
      | error e =>
        simp only [hf] at hq
        cases hq
      | ok r1 =>
        simp only [hf] at hq
        split at hq
        · cases hq
        · rename_i hc
          cases hq
          exact ⟨r, rfl, hf, by simpa using hc, put_eq hg⟩
  · rintro ⟨r, hg, hf, hc, rfl⟩
    exact ⟨[.put k id (some r) r'], by simp [hg, hf, hc], (put_eq hg).symm⟩

/-- `UPDATE … WHERE p`. -/
theorem gives_modifyAll {p : ℕ → ρ k → Bool} {f : ρ k → ρ k} {n : ℕ}
    (hk : ∀ r, Keyed.keys L k (f r) ⊆ Keyed.keys L k r)
    (h : (Rel.modifyAll dup k p f : Tx (Rel ρ L) (Write ρ L) ε ℕ).gives s n s') :
    Overwrote k f (s.rows k p) s s' := by
  refine Triple.gives (e := dup) (Q := fun _ a c => Overwrote k f (a.rows k p) a c)
    (Triple.modifyAll hk fun s m a b c hm ha hb ho => ?_) h
  rw [alone_rel] at ha
  subst hm ha hb
  exact ho

end Rel

end PatronLoyalty.Txn
