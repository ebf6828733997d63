import PatronLoyalty.Txn.Program

/-!
# Interleaved sessions over a READ COMMITTED store

The store is shared by a list of sessions, each running one `Call`. Sessions are interleaved
between any two statements, with the rules of READ COMMITTED:

* a statement sees the last committed store with the transaction's own pending writes applied to
  it (`view`), never another transaction's pending writes;
* a write takes an exclusive lock on every row it touches, held until commit or rollback. A
  statement that needs a row held by another session is not enabled: it waits. An entry of a
  unique index is a row here, so two inserts under one key wait for each other as two updates of
  one row do;
* a commit applies all pending writes at once; an abort drops them;
* the database may fail a transaction at any point (`Move.fail`) and the process of a session may
  die at any point (`Move.crash`).

`step` is executable. `Reach P` collects the configurations of the runs whose steps all meet the
run condition `P`, a condition on the configuration before the step and on the session that
takes it. `trace` is the history of the run; `histOf i` is session `i`'s share of it.
-/

namespace PatronLoyalty.Txn

/-- A store whose unit of locking is the row `ι`: `same r` compares the content of row `r`. -/
class Store (σ : Type) (ω ι : outParam Type) where
  apply : ω → σ → σ
  touches : ω → List ι
  same : ι → σ → σ → Prop
  same_equiv (r : ι) : Equivalence (same r)
  /-- A write changes only the rows it touches. -/
  frame {r : ι} {w : ω} (s : σ) : r ∉ touches w → same r s (apply w s)
  /-- What a write leaves in the rows it touches depends on those rows only. -/
  respects (w : ω) {s s' : σ} : (∀ r ∈ touches w, same r s s') →
    ∀ r ∈ touches w, same r (apply w s) (apply w s')

/-- The errors a database may raise on its own, at any statement. -/
class Faulty (ε : Type) where
  fault : ε → Bool

section View

variable {σ ω ι : Type} [Store σ ω ι] {r : ι} {s s' : σ}

/-- The store as a transaction with the pending writes `ws` sees it. -/
def view (ws : List ω) (s : σ) : σ := ws.foldl (fun s w => Store.apply w s) s

/-- The rows a transaction with the pending writes `ws` holds locked. -/
def held (ws : List ω) : List ι := ws.flatMap (Store.touches σ)

@[simp] theorem view_nil (s : σ) : view [] s = s := rfl

@[simp] theorem view_append (ws ws' : List ω) (s : σ) :
    view (ws ++ ws') s = view ws' (view ws s) := List.foldl_append

@[simp] theorem view_cons (w : ω) (ws : List ω) (s : σ) :
    view (w :: ws) s = view ws (Store.apply w s) := rfl

@[simp] theorem held_nil : held (σ := σ) ([] : List ω) = [] := rfl

@[simp] theorem held_append (ws ws' : List ω) :
    held (σ := σ) (ws ++ ws') = held (σ := σ) ws ++ held (σ := σ) ws' := List.flatMap_append

@[simp] theorem held_cons (w : ω) (ws : List ω) :
    held (σ := σ) (w :: ws) = Store.touches σ w ++ held (σ := σ) ws := List.flatMap_cons

theorem same_refl (r : ι) (s : σ) : Store.same r s s := (Store.same_equiv r).refl s

theorem same_symm (h : Store.same r s s') : Store.same r s' s :=
  (Store.same_equiv r).symm h

theorem same_trans {s'' : σ} (h : Store.same r s s') (h' : Store.same r s' s'') :
    Store.same r s s'' := (Store.same_equiv r).trans h h'

theorem same_view {ws : List ω} (hw : ∀ q ∈ held (σ := σ) ws, Store.same q s s')
    (h : Store.same r s s') :
    Store.same r (view ws s) (view ws s') := by
  induction ws generalizing s s' with
  | nil => exact h
  | cons w ws ih =>
    have ht : ∀ q ∈ Store.touches σ w, Store.same q s s' := fun q hq =>
      hw q (by rw [held_cons]; exact List.mem_append_left _ hq)
    have step : ∀ q, Store.same q s s' → Store.same q (Store.apply w s) (Store.apply w s') := by
      intro q hq
      by_cases hqt : q ∈ Store.touches σ w
      · exact Store.respects w ht q hqt
      · exact same_trans (same_symm (Store.frame s hqt)) (same_trans hq (Store.frame s' hqt))
    exact ih (fun q hq => step q (hw q (by rw [held_cons]; exact List.mem_append_right _ hq)))
      (step r h)

/-- A transaction leaves the rows it does not hold as they are. -/
theorem frame_view {ws : List ω} (s : σ) (h : r ∉ held (σ := σ) ws) :
    Store.same r s (view ws s) := by
  induction ws generalizing s with
  | nil => exact same_refl r s
  | cons w ws ih =>
    rw [held_cons, List.mem_append, not_or] at h
    exact same_trans (Store.frame s h.1) (ih (Store.apply w s) h.2)

end View

/-- One line of a session's history. -/
inductive Entry (σ ε ev α : Type)
  | start
  | commit (before after : σ)
  | rollback (e : ε)
  | emit (v : ev)
  | answer (r : Except ε α)

/-- The state of one client request. -/
inductive Session (σ ω ε ev α : Type) : Type 1
  | new (c : Call σ ω ε ev α)
  | idle (c : Call σ ω ε ev α)
  | inTx {β : Type} (ws : List ω) (t : Tx σ ω ε β) (k : Except ε β → Call σ ω ε ev α)
  | done

/-- What the scheduler may do to a session. -/
inductive Move (ε : Type)
  | go (n : ℕ)
  | fail (e : ε)
  | crash

structure Config (σ ω ε ev α : Type) : Type 1 where
  db : σ
  sess : List (Session σ ω ε ev α)
  trace : List (ℕ × Entry σ ε ev α)

variable {σ ω ι ε ev α : Type} [Store σ ω ι] {c c' c₀ : Config σ ω ε ev α}

namespace Session

def locks : Session σ ω ε ev α → List ι
  | inTx ws _ _ => held (σ := σ) ws
  | _ => []

/-- The next move of the session is its answer. -/
def ends : Session σ ω ε ev α → Bool
  | idle (.pure _) | idle (.throw _) => true
  | _ => false

/-- The next move of the session is an error for an answer. -/
def fails : Session σ ω ε ev α → Bool
  | idle (.throw _) => true
  | _ => false

/-- The next step of a session over the committed store `s`, with the environment input `n`: the
session and the store afterwards, and the history line it adds. -/
def next (s : σ) (n : ℕ) :
    Session σ ω ε ev α → Option (Session σ ω ε ev α × σ × List (Entry σ ε ev α))
  | new c => some (idle c, s, [.start])
  | idle (.pure a) => some (done, s, [.answer (.ok a)])
  | idle (.throw e) => some (done, s, [.answer (.error e)])
  | idle (.pick k) => some (idle (k n), s, [])
  | idle (.emit v k) => some (idle k, s, [.emit v])
  | idle (.tx t k) => some (inTx [] t k, s, [])
  | inTx ws (.pure b) k => some (idle (k (.ok b)), view ws s, [.commit s (view ws s)])
  | inTx _ (.throw e) k => some (idle (k (.error e)), s, [.rollback e])
  | inTx ws (.pick t) k => some (inTx ws (t n) k, s, [])
  | inTx ws (.clock t) k => some (inTx ws (t n) k, s, [])
  | inTx ws (.stmt q t) k =>
    match q (view ws s) with
    | .error e => some (idle (k (.error e)), s, [.rollback e])
    | .ok (b, ws') => some (inTx (ws ++ ws') (t b) k, s, [])
  | done => none

/-- One move of a session. Lock conflicts are checked by `Config.step`. -/
def advance [Faulty ε] (s : σ) (ss : Session σ ω ε ev α) :
    Move ε → Option (Session σ ω ε ev α × σ × List (Entry σ ε ev α))
  | .go n => ss.next s n
  | .fail e =>
    match ss with
    | inTx _ _ k =>
      if Faulty.fault e then some (idle (k (.error e)), s, [.rollback e]) else none
    | _ => none
  | .crash =>
    match ss with
    | done => none
    | _ => some (done, s, [])

end Session

namespace Config

/-- Every request has been received, none has started. -/
def init (db : σ) (calls : List (Call σ ω ε ev α)) : Config σ ω ε ev α :=
  ⟨db, calls.map .new, []⟩

/-- No session other than `i` holds a row of `rs`. -/
def free [DecidableEq ι] (c : Config σ ω ε ev α) (i : ℕ) (rs : List ι) : Bool :=
  rs.all fun r => (c.sess.eraseIdx i).all fun s => !decide (r ∈ s.locks)

/-- Session `i` is about to answer. -/
def ends (c : Config σ ω ε ev α) (i : ℕ) : Bool := c.sess[i]?.any Session.ends

/-- Session `i` is about to answer with an error. -/
def fails (c : Config σ ω ε ev α) (i : ℕ) : Bool := c.sess[i]?.any Session.fails

/-- **One step**: session `i` moves, unless it would have to wait for a row. -/
def step [Faulty ε] [DecidableEq ι] (c : Config σ ω ε ev α) (i : ℕ) (m : Move ε) :
    Option (Config σ ω ε ev α) :=
  match c.sess[i]? with
  | none => none
  | some s =>
    match s.advance c.db m with
    | none => none
    | some (s', db', es) =>
      if c.free i s'.locks then some ⟨db', c.sess.set i s', c.trace ++ es.map (i, ·)⟩ else none

/-- Run a schedule, as long as every move is possible and made where `ok` holds. -/
def run [Faulty ε] [DecidableEq ι] (ok : Config σ ω ε ev α → ℕ → Bool) :
    Config σ ω ε ev α → List (ℕ × Move ε) → Option (Config σ ω ε ev α)
  | c, [] => some c
  | c, (i, m) :: ms =>
    if ok c i then
      match c.step i m with
      | none => none
      | some c' => c'.run ok ms
    else none

/-- Session `i`'s history. -/
def histOf (c : Config σ ω ε ev α) (i : ℕ) : List (Entry σ ε ev α) :=
  c.trace.filterMap fun e => if e.1 = i then some e.2 else none

theorem histOf_append (db : σ) (ss : List (Session σ ω ε ev α)) (c : Config σ ω ε ev α)
    (i j : ℕ) (es : List (Entry σ ε ev α)) :
    (⟨db, ss, c.trace ++ es.map (i, ·)⟩ : Config σ ω ε ev α).histOf j =
      if i = j then c.histOf j ++ es else c.histOf j := by
  unfold histOf
  rw [List.filterMap_append, List.filterMap_map]
  split
  · rename_i h
    subst h
    congr 1
    exact (List.filterMap_congr fun x _ => if_pos rfl).trans List.filterMap_some
  · rename_i h
    rw [show (List.filterMap ((fun e : ℕ × Entry σ ε ev α => if e.1 = j then some e.2 else none) ∘
      fun x => (i, x)) es) = [] from List.filterMap_eq_nil_iff.mpr fun _ _ => if_neg h,
      List.append_nil]

end Config

/-- **The configurations of the runs** from `c₀` in which every step, taken by session `i` from
`c`, meets `P c i`. -/
inductive Reach [Faulty ε] [DecidableEq ι] (P : Config σ ω ε ev α → ℕ → Prop)
    (c₀ : Config σ ω ε ev α) : Config σ ω ε ev α → Prop
  | refl : Reach P c₀ c₀
  | tail {c c' : Config σ ω ε ev α} {i : ℕ} {m : Move ε} :
      Reach P c₀ c → P c i → c.step i m = some c' → Reach P c₀ c'

/-- No condition on the run. -/
abbrev Always (_ : Config σ ω ε ev α) (_ : ℕ) : Prop := True

variable [Faulty ε] [DecidableEq ι] {P : Config σ ω ε ev α → ℕ → Prop}

theorem Reach.trans (h : Reach P c₀ c) (h' : Reach P c c') :
    Reach P c₀ c' := by
  induction h' with
  | refl => exact h
  | tail _ hP hs ih => exact .tail ih hP hs

theorem Reach.mono {Q : Config σ ω ε ev α → ℕ → Prop} (hPQ : ∀ c i, P c i → Q c i)
    (h : Reach P c₀ c) : Reach Q c₀ c := by
  induction h with
  | refl => exact .refl
  | tail _ hP hs ih => exact .tail ih (hPQ _ _ hP) hs

theorem reach_of_run {o : Config σ ω ε ev α → ℕ → Bool} (hok : ∀ c i, o c i = true → P c i)
    {ms : List (ℕ × Move ε)} (h : c.run o ms = some c') :
    Reach P c c' := by
  induction ms generalizing c with
  | nil =>
    cases h
    exact .refl
  | cons m ms ih =>
    unfold Config.run at h
    split at h
    · rename_i hc
      cases hs : c.step m.1 m.2 with
      | none => simp [hs] at h
      | some d =>
        rw [hs] at h
        exact Reach.trans (.tail .refl (hok c m.1 hc) hs) (ih h)
    · cases h

theorem exists_reach {o : Config σ ω ε ev α → ℕ → Bool} (hok : ∀ c i, o c i = true → P c i)
    (c : Config σ ω ε ev α) (ms : List (ℕ × Move ε)) (p : Config σ ω ε ev α → Bool)
    (h : (c.run o ms).any p = true) : ∃ c', Reach P c c' ∧ p c' = true := by
  obtain ⟨c', hc, hp⟩ := (Option.any_eq_true _ _).mp h
  exact ⟨c', reach_of_run hok hc, hp⟩

abbrev anywhere (_ : Config σ ω ε ev α) (_ : ℕ) : Bool := true

theorem exists_reach_anywhere (c : Config σ ω ε ev α) (ms : List (ℕ × Move ε))
    (p : Config σ ω ε ev α → Bool) (h : (c.run anywhere ms).any p = true) :
    ∃ c', Reach Always c c' ∧ p c' = true := exists_reach (fun _ _ _ => trivial) c ms p h

/-- What a step does: one session advances, and every row it then holds is held by nobody
else. -/
theorem Config.step_cases {i : ℕ} {m : Move ε} (h : c.step i m = some c') :
    ∃ s s' db' es, c.sess[i]? = some s ∧ s.advance c.db m = some (s', db', es) ∧
      (∀ r ∈ s'.locks, ∀ j t, j ≠ i → c.sess[j]? = some t → r ∉ t.locks) ∧
      c' = ⟨db', c.sess.set i s', c.trace ++ es.map (i, ·)⟩ := by
  unfold step at h
  cases hs : c.sess[i]? with
  | none => simp [hs] at h
  | some s =>
    simp only [hs] at h
    cases ha : s.advance c.db m with
    | none => simp [ha] at h
    | some r =>
      obtain ⟨s', db', es⟩ := r
      simp only [ha] at h
      split at h
      · rename_i hf
        refine ⟨s, s', db', es, rfl, ha, fun r hr j t hj ht => ?_, (Option.some.inj h).symm⟩
        have hall := List.all_eq_true.mp (List.all_eq_true.mp hf r hr)
        have := hall t (List.mem_eraseIdx_iff_getElem?.mpr ⟨j, hj, ht⟩)
        simpa using this
      · cases h

theorem Config.length_step {i : ℕ} {m : Move ε}
    (h : c.step i m = some c') : c'.sess.length = c.sess.length := by
  obtain ⟨s, s', db', es, -, -, -, rfl⟩ := Config.step_cases h
  exact List.length_set

/-- A run has the sessions it began with. -/
theorem Reach.length_sess (h : Reach P c₀ c) :
    c.sess.length = c₀.sess.length := by
  induction h with
  | refl => rfl
  | tail _ _ hs ih => exact (Config.length_step hs).trans ih

end PatronLoyalty.Txn
