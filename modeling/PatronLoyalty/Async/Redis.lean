import Mathlib.Data.Nat.Notation
import Mathlib.Logic.Function.Basic

/-!
# Keys that expire

A store of values by key, as far as `GET`, `SET`, `SETEX`, `DEL`, `INCR` and `INCRBY` go. Each command is one step.
The clock counts milliseconds; an entry whose time has come is not there.
-/

namespace PatronLoyalty.Async

/-- A value, and when it expires. -/
structure Entry (V : Type) where
  value : V
  expiresAt : Option ℕ := none
  deriving DecidableEq, Repr

structure Redis (K V : Type) where
  now : ℕ
  entries : K → Option (Entry V)

namespace Redis

variable {K V : Type} {r : Redis K V} {k k' : K} {v : V} {e : Entry V} {n : ℕ}

def live (r : Redis K V) (k : K) : Option (Entry V) :=
  (r.entries k).filter fun e => e.expiresAt.all fun t => decide (r.now < t)

theorem live_eq_some : r.live k = some e ↔
    r.entries k = some e ∧ ∀ t, e.expiresAt = some t → r.now < t := by
  unfold live
  rw [Option.filter_eq_some_iff]
  cases e.expiresAt <;> simp

def get (r : Redis K V) (k : K) : Option V := (r.live k).map (·.value)

/-- Time passes. -/
def later (r : Redis K V) (n : ℕ) : Redis K V := { r with now := r.now + n }

@[simp] theorem now_later : (r.later n).now = r.now + n := rfl

theorem live_of_live_later (h : (r.later n).live k = some e) : r.live k = some e := by
  rw [live_eq_some] at h ⊢
  refine ⟨h.1, fun t ht => ?_⟩
  have hlt := h.2 t ht
  rw [now_later] at hlt
  omega

variable [DecidableEq K]

def put (r : Redis K V) (k : K) (e : Entry V) : Redis K V :=
  { r with entries := Function.update r.entries k (some e) }

@[simp] theorem now_put : (r.put k e).now = r.now := rfl

@[simp] theorem entries_put_self : (r.put k e).entries k = some e := by simp [put]

theorem entries_put_ne (h : k' ≠ k) : (r.put k e).entries k' = r.entries k' := by
  simp [put, Function.update_of_ne h]

theorem live_put_ne (h : k' ≠ k) : (r.put k e).live k' = r.live k' := by
  unfold live
  rw [entries_put_ne h, now_put]

theorem live_put_self (h : ∀ t, e.expiresAt = some t → r.now < t) : (r.put k e).live k = some e :=
  live_eq_some.mpr ⟨entries_put_self, h⟩

def set (r : Redis K V) (k : K) (v : V) : Redis K V := r.put k { value := v }

def setex (r : Redis K V) (k : K) (seconds : ℕ) (v : V) : Redis K V :=
  r.put k { value := v, expiresAt := some (r.now + 1000 * seconds) }

def del (r : Redis K V) (k : K) : Redis K V :=
  { r with entries := Function.update r.entries k none }

@[simp] theorem now_del : (r.del k).now = r.now := rfl

@[simp] theorem entries_del_self : (r.del k).entries k = none := by simp [del]

theorem entries_del_ne (h : k' ≠ k) : (r.del k).entries k' = r.entries k' := by
  simp [del, Function.update_of_ne h]

theorem get_set_self : (r.set k v).get k = some v := by
  have hl : (r.set k v).live k = some { value := v } := live_put_self nofun
  unfold get
  rw [hl]
  rfl

theorem get_set_ne (h : k' ≠ k) : (r.set k v).get k' = r.get k' := by
  unfold get set
  rw [live_put_ne h]

theorem get_del_self : (r.del k).get k = none := by simp [get, live]

theorem get_del_ne (h : k' ≠ k) : (r.del k).get k' = r.get k' := by
  unfold get live
  rw [entries_del_ne h, now_del]

/-- `INCR`: a key that is not there counts from zero, and has no expiry. -/
def incr (r : Redis K ℕ) (k : K) : ℕ × Redis K ℕ :=
  match r.live k with
  | none => (1, r.put k { value := 1 })
  | some e => (e.value + 1, r.put k { e with value := e.value + 1 })

def incrby (r : Redis K ℕ) (k : K) (n : ℕ) : Redis K ℕ :=
  match r.live k with
  | none => r.put k { value := n }
  | some e => r.put k { e with value := e.value + n }

theorem get_incrby_self {r : Redis K ℕ} : (r.incrby k n).get k = some ((r.get k).getD 0 + n) := by
  unfold incrby get
  cases h : r.live k with
  | none =>
    have hl : (r.put k { value := n }).live k = some { value := n } := live_put_self nofun
    simp [hl]
  | some e =>
    have hl : (r.put k { e with value := e.value + n }).live k =
        some { e with value := e.value + n } := live_put_self (live_eq_some.mp h).2
    simp [hl]

theorem get_incrby_ne {r : Redis K ℕ} (h : k' ≠ k) : (r.incrby k n).get k' = r.get k' := by
  unfold incrby get
  cases r.live k <;> simp only [live_put_ne h]

end Redis

end PatronLoyalty.Async
