import PatronLoyalty.Txn.Interleaving

/-!
# Guarded requests

`guard C e t` is the program `t` with a check before every write: a statement that would make a write
outside `C` fails with `e` instead. A run in which no statement of a request would do so (`Meets`) is,
step for step, a run of the guarded request, so what guarded requests cannot do was not done.

Headline: **`Reach.guard`**.
-/

namespace PatronLoyalty.Txn

variable {σ ω ι ε ev α β γ : Type} {c : Config σ ω ε ev α}

namespace Tx

/-- A statement that fails with `e` where it would make a write outside `C`. -/
def guardStmt (C : ω → Bool) (e : ε) (q : σ → Except ε (β × List ω)) (s : σ) :
    Except ε (β × List ω) :=
  match q s with
  | .ok (b, ws) => if ws.all C then .ok (b, ws) else .error e
  | .error e' => .error e'

/-- The transaction with a check before every write. -/
def guard (C : ω → Bool) (e : ε) : Tx σ ω ε β → Tx σ ω ε β
  | pure b => pure b
  | throw e' => throw e'
  | pick k => pick fun n => (k n).guard C e
  | clock k => clock fun n => (k n).guard C e
  | stmt q k => stmt (guardStmt C e q) fun b => (k b).guard C e

variable {C : ω → Bool} {e : ε} {q : σ → Except ε (β × List ω)} {s : σ}

theorem guardStmt_ok {b : β} {ws : List ω} (h : q s = .ok (b, ws))
    (hC : ∀ w ∈ ws, C w = true) : guardStmt C e q s = .ok (b, ws) := by
  unfold guardStmt
  rw [h]
  exact if_pos (List.all_eq_true.mpr hC)

theorem guardStmt_error {e' : ε} (h : q s = .error e') : guardStmt C e q s = .error e' := by
  unfold guardStmt
  rw [h]

/-- What a checked statement does, the statement does, with writes within `C`. -/
theorem guardStmt_eq_ok {b : β} {ws : List ω}
    (h : guardStmt C e q s = .ok (b, ws)) : q s = .ok (b, ws) ∧ ∀ w ∈ ws, C w = true := by
  unfold guardStmt at h
  split at h
  · rename_i b' ws' hq
    split at h
    · rename_i hC
      cases h
      exact ⟨hq, List.all_eq_true.mp hC⟩
    · cases h
  · cases h

/-- A check that every write passes is no check. -/
theorem guard_true (t : Tx σ ω ε β) : t.guard (fun _ => true) e = t := by
  induction t with
  | pure b => rfl
  | throw e' => rfl
  | pick k ih => exact congrArg pick (funext ih)
  | clock k ih => exact congrArg clock (funext ih)
  | stmt q k ih =>
    have hq : guardStmt (fun _ => true) e q = q := by
      funext s
      unfold guardStmt
      cases q s <;> simp
    show stmt _ _ = _
    rw [hq]
    exact congrArg (stmt q) (funext ih)

/-- **Sequencing.** -/
theorem guard_bind (t : Tx σ ω ε β) (f : β → Tx σ ω ε γ) :
    (t.bind f).guard C e = (t.guard C e).bind fun b => (f b).guard C e := by
  induction t with
  | pure b => rfl
  | throw e' => rfl
  | pick k ih => exact congrArg pick (funext fun n => ih n)
  | clock k ih => exact congrArg clock (funext fun n => ih n)
  | stmt q k ih => exact congrArg (stmt _) (funext fun b => ih b)

end Tx

namespace Call

/-- The request with a check before every write of its transactions. -/
def guard (C : ω → Bool) (e : ε) : Call σ ω ε ev β → Call σ ω ε ev β
  | pure b => pure b
  | throw e' => throw e'
  | pick k => pick fun n => (k n).guard C e
  | emit v k => emit v (k.guard C e)
  | tx t k => tx (t.guard C e) fun r => (k r).guard C e

variable {C : ω → Bool} {e : ε}

theorem guard_true (c : Call σ ω ε ev β) : c.guard (fun _ => true) e = c := by
  induction c with
  | pure b => rfl
  | throw e' => rfl
  | pick k ih => exact congrArg pick (funext ih)
  | emit v k ih => exact congrArg (emit v) ih
  | tx t k ih =>
    show tx _ _ = _
    rw [Tx.guard_true, funext ih]

theorem guard_bind (c : Call σ ω ε ev β) (f : β → Call σ ω ε ev γ) :
    (c.bind f).guard C e = (c.guard C e).bind fun b => (f b).guard C e := by
  induction c with
  | pure b => rfl
  | throw e' => rfl
  | pick k ih => exact congrArg pick (funext fun n => ih n)
  | emit v k ih => exact congrArg (emit v) ih
  | tx t k ih => exact congrArg (tx _) (funext fun r => ih r)

theorem guard_handle (c : Call σ ω ε ev β) (f : ε → Call σ ω ε ev β) :
    (c.handle f).guard C e = (c.guard C e).handle fun e' => (f e').guard C e := by
  induction c with
  | pure b => rfl
  | throw e' => rfl
  | pick k ih => exact congrArg pick (funext fun n => ih n)
  | emit v k ih => exact congrArg (emit v) ih
  | tx t k ih => exact congrArg (tx _) (funext fun r => ih r)

theorem guard_withTx (t : Tx σ ω ε β) :
    (withTx t : Call σ ω ε ev β).guard C e = withTx (t.guard C e) := by
  refine congrArg (tx _) (funext fun r => ?_)
  cases r <;> rfl

theorem guard_forEach (xs : List β) (f : β → Call σ ω ε ev Unit) :
    (forEach xs f).guard C e = forEach xs fun x => (f x).guard C e := by
  induction xs with
  | nil => rfl
  | cons x xs ih =>
    rw [forEach, guard_bind]
    exact congrArg _ (funext fun _ => ih)

theorem guard_foldEach (xs : List β) (a : γ) (f : γ → β → Call σ ω ε ev γ) :
    (foldEach xs a f).guard C e = foldEach xs a fun a x => (f a x).guard C e := by
  induction xs generalizing a with
  | nil => rfl
  | cons x xs ih =>
    rw [foldEach, guard_bind]
    exact congrArg _ (funext fun a' => ih a')

end Call

namespace Session

variable [Store σ ω ι]

/-- The next statement of the session writes within `C`. -/
def Meets (C : ω → Bool) (s : σ) : Session σ ω ε ev α → Prop
  | inTx ws (.stmt q _) _ => ∀ b ws', q (view ws s) = .ok (b, ws') → ∀ w ∈ ws', C w = true
  | _ => True

omit [Store σ ω ι] in
def guard (C : ω → Bool) (e : ε) : Session σ ω ε ev α → Session σ ω ε ev α
  | new c => new (c.guard C e)
  | idle c => idle (c.guard C e)
  | inTx ws t k => inTx ws (t.guard C e) fun r => (k r).guard C e
  | done => done

variable {C : ω → Bool} {e : ε}

@[simp] theorem locks_guard (ss : Session σ ω ε ev α) : (ss.guard C e).locks = ss.locks := by
  cases ss <;> rfl

/-- **One step** that writes within `C` is a step of the guarded session. -/
theorem next_guard {ss ss' : Session σ ω ε ev α} {s s' : σ} {n : ℕ} {es : List (Entry σ ε ev α)}
    (hm : ss.Meets C s) (h : ss.next s n = some (ss', s', es)) :
    (ss.guard C e).next s n = some (ss'.guard C e, s', es) := by
  cases ss with
  | new c => cases h; rfl
  | done => cases h
  | idle c => cases c <;> cases h <;> rfl
  | inTx ws t k =>
    cases t with
    | pure b => cases h; rfl
    | throw e' => cases h; rfl
    | pick t => cases h; rfl
    | clock t => cases h; rfl
    | stmt q t =>
      simp only [next] at h
      show (inTx ws (.stmt (Tx.guardStmt C e q) fun b => (t b).guard C e)
        fun r => (k r).guard C e).next s n = _
      cases hq : q (view ws s) with
      | error e' =>
        rw [hq] at h
        cases h
        simp only [next, Tx.guardStmt_error hq]
        rfl
      | ok r =>
        obtain ⟨b, ws'⟩ := r
        rw [hq] at h
        cases h
        simp only [next, Tx.guardStmt_ok hq (hm b ws' hq)]
        rfl

theorem advance_guard [Faulty ε] {ss ss' : Session σ ω ε ev α} {s s' : σ} {m : Move ε}
    {es : List (Entry σ ε ev α)} (hm : ss.Meets C s) (h : ss.advance s m = some (ss', s', es)) :
    (ss.guard C e).advance s m = some (ss'.guard C e, s', es) := by
  cases m with
  | go n => exact next_guard hm h
  | crash => cases ss <;> cases h <;> rfl
  | fail e' =>
    cases ss with
    | inTx ws t k =>
      simp only [advance] at h
      split at h
      · rename_i hf
        cases h
        simp only [guard, advance, if_pos hf]
      · cases h
    | new c => cases h
    | idle c => cases h
    | done => cases h

end Session

variable [Store σ ω ι]

/-- The run with its requests guarded, each by its own check. -/
def Config.guard (C : ℕ → ω → Bool) (e : ε) (c : Config σ ω ε ev α) : Config σ ω ε ev α :=
  { c with sess := c.sess.mapIdx fun i ss => ss.guard (C i) e }

/-- The next statement of session `i` writes within its check. -/
def Config.Meets (C : ℕ → ω → Bool) (c : Config σ ω ε ev α) (i : ℕ) : Prop :=
  ∀ ss, c.sess[i]? = some ss → ss.Meets (C i) c.db

def Session.meets (C : ω → Bool) (s : σ) : Session σ ω ε ev α → Bool
  | inTx ws (.stmt q _) _ =>
    match q (view ws s) with
    | .ok r => r.2.all C
    | .error _ => true
  | _ => true

/-- A check that every write passes. -/
theorem Config.meets_true (c : Config σ ω ε ev α) (i : ℕ) : c.Meets (fun _ _ => true) i := by
  intro ss _
  cases ss with
  | inTx ws t k =>
    cases t with
    | stmt q k' => exact fun _ _ _ _ _ => rfl
    | pure b => trivial
    | throw e => trivial
    | pick k' => trivial
    | clock k' => trivial
  | new c => trivial
  | idle c => trivial
  | done => trivial

/-- The check, computed. -/
def Config.meets (C : ℕ → ω → Bool) (c : Config σ ω ε ev α) (i : ℕ) : Bool :=
  c.sess[i]?.all fun ss => ss.meets (C i) c.db

theorem Session.meets_of {C : ω → Bool} {s : σ} {ss : Session σ ω ε ev α}
    (h : ss.meets C s = true) : ss.Meets C s := by
  unfold Session.Meets
  split
  · rename_i ws q k k'
    intro b ws' hq w hw
    simp only [Session.meets, hq] at h
    exact List.all_eq_true.mp h w hw
  · trivial

theorem Config.meets_of {i : ℕ} (h : c.meets C i = true) : c.Meets C i := fun ss hss => by
  unfold Config.meets at h
  rw [hss] at h
  exact Session.meets_of h

/-- The requests of a run, each with its own check. -/
def guardCalls (C : ℕ → ω → Bool) (e : ε) (calls : List (Call σ ω ε ev α)) :
    List (Call σ ω ε ev α) :=
  calls.mapIdx fun i c => c.guard (C i) e

variable {C : ℕ → ω → Bool} {e : ε}

theorem Config.guard_init (db : σ) (calls : List (Call σ ω ε ev α)) :
    (Config.init db calls).guard C e = Config.init db (guardCalls C e calls) := by
  unfold Config.guard Config.init guardCalls
  refine congrArg (Config.mk db · []) (List.ext_getElem? fun i => ?_)
  simp only [List.getElem?_mapIdx, List.getElem?_map]
  cases calls[i]? <;> rfl

theorem Config.guard_getElem? (c : Config σ ω ε ev α) (i : ℕ) :
    (c.guard C e).sess[i]? = c.sess[i]?.map fun ss => ss.guard (C i) e := by
  simp [Config.guard]

variable [Faulty ε] [DecidableEq ι]

omit [Faulty ε] in
theorem Config.free_guard (c : Config σ ω ε ev α) (i : ℕ) (rs : List ι) :
    (c.guard C e).free i rs = c.free i rs := by
  unfold Config.free
  refine congrArg (List.all rs) (funext fun r => ?_)
  rw [Bool.eq_iff_iff, List.all_eq_true, List.all_eq_true]
  constructor
  · intro h t ht
    obtain ⟨j, hj, hjt⟩ := List.mem_eraseIdx_iff_getElem?.mp ht
    have := h (t.guard (C j) e) (List.mem_eraseIdx_iff_getElem?.mpr
      ⟨j, hj, by rw [Config.guard_getElem?, hjt]; rfl⟩)
    simpa using this
  · intro h t ht
    obtain ⟨j, hj, hjt⟩ := List.mem_eraseIdx_iff_getElem?.mp ht
    rw [Config.guard_getElem?, Option.map_eq_some_iff] at hjt
    obtain ⟨t', ht', rfl⟩ := hjt
    have := h t' (List.mem_eraseIdx_iff_getElem?.mpr ⟨j, hj, ht'⟩)
    simpa using this

/-- **One step of a run** that writes within the checks is a step of the guarded run. -/
theorem Config.step_guard {c' : Config σ ω ε ev α} {i : ℕ} {m : Move ε} (hm : c.Meets C i)
    (h : c.step i m = some c') : (c.guard C e).step i m = some (c'.guard C e) := by
  unfold Config.step at h ⊢
  rw [Config.guard_getElem?]
  cases hs : c.sess[i]? with
  | none => simp [hs] at h
  | some ss =>
    simp only [hs] at h
    cases ha : ss.advance c.db m with
    | none => simp [ha] at h
    | some r =>
      obtain ⟨ss', db', es⟩ := r
      have hg : (ss.guard (C i) e).advance (c.guard C e).db m =
          some (ss'.guard (C i) e, db', es) := Session.advance_guard (hm ss hs) ha
      simp only [ha] at h
      simp only [Option.map_some, hg, Session.locks_guard, Config.free_guard]
      split at h
      · rename_i hf
        cases h
        rw [if_pos hf]
        refine congrArg some ?_
        unfold Config.guard
        rw [Config.mk.injEq]
        refine ⟨rfl, List.ext_getElem? fun j => ?_, rfl⟩
        simp only [List.getElem?_mapIdx, List.getElem?_set, List.length_mapIdx]
        by_cases hij : i = j
        · subst hij
          by_cases hl : i < c.sess.length
          · simp [hl]
          · simp [hl]
        · simp [hij]
      · cases h

/-- **A run within the checks** is a run of the guarded requests. -/
theorem Reach.guard {P Q : Config σ ω ε ev α → ℕ → Prop} {c0 : Config σ ω ε ev α}
    (hP : ∀ c i, P c i → c.Meets C i ∧ Q (c.guard C e) i) (h : Reach P c0 c) :
    Reach Q (c0.guard C e) (c.guard C e) := by
  induction h with
  | refl => exact .refl
  | tail _ hp hs ih =>
    exact .tail ih (hP _ _ hp).2 (Config.step_guard (hP _ _ hp).1 hs)

end PatronLoyalty.Txn
