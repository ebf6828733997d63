import Mathlib.Algebra.BigOperators.Group.List.Basic

/-!
# Journals with running balances

An append-only list of postings, each for one account and with the balance it left behind. `Running`
says that the recorded balances are the prefix sums; the lemmas say what one more posting does to an
account's entries, to their total and to `Running`.
-/

namespace PatronLoyalty.Txn

/-- How a posting is read: its account, its amount and the balance it records. -/
structure Journal (l κ : Type) where
  account : l → κ
  amount : l → ℤ
  balance : l → ℤ

namespace Journal

variable {l κ : Type} (J : Journal l κ) {rows : List l} {x : l} {k : κ}

def total (rows : List l) : ℤ := rows.foldr (fun x n => J.amount x + n) 0

/-- Every posting records the sum up to and including its own. -/
def Running (rows : List l) : Prop :=
  ∀ pre x post, rows = pre ++ x :: post → J.balance x = J.total (pre ++ [x])

@[simp] theorem total_nil : J.total [] = 0 := rfl

@[simp] theorem total_cons (x : l) (rows : List l) :
    J.total (x :: rows) = J.amount x + J.total rows := rfl

@[simp] theorem total_append (rows rows' : List l) :
    J.total (rows ++ rows') = J.total rows + J.total rows' := by
  induction rows with
  | nil => simp
  | cons x rows ih =>
    rw [List.cons_append, total_cons, total_cons, ih]
    omega

@[simp] theorem total_singleton (x : l) : J.total [x] = J.amount x := by
  simp [total]

@[simp] theorem running_nil : J.Running [] := by
  rintro pre x post h
  cases pre <;> cases h

/-- One more posting. -/
theorem Running.concat (h : J.Running rows)
    (hx : J.balance x = J.total rows + J.amount x) : J.Running (rows ++ [x]) := by
  rintro pre y post he
  rcases List.eq_nil_or_concat post with rfl | ⟨post', z, rfl⟩
  · obtain ⟨rfl, hy⟩ := List.append_inj' he rfl
    cases hy
    rw [hx, total_append, total_singleton]
  · refine h pre y post' ?_
    have he' : rows ++ [x] = (pre ++ y :: post') ++ [z] := by
      rw [he, List.concat_eq_append, List.append_assoc, List.cons_append]
    exact (List.append_inj' he' rfl).1

variable [DecidableEq κ]

def entries (k : κ) (rows : List l) : List l := rows.filter fun x => decide (J.account x = k)

theorem entries_concat_self (h : J.account x = k) :
    J.entries k (rows ++ [x]) = J.entries k rows ++ [x] := by
  simp [entries, h]

theorem entries_concat_ne (h : J.account x ≠ k) :
    J.entries k (rows ++ [x]) = J.entries k rows := by
  simp [entries, h]

theorem entries_eq_nil (h : ∀ x ∈ rows, J.account x ≠ k) :
    J.entries k rows = [] :=
  List.filter_eq_nil_iff.mpr fun x hx => by simpa using h x hx

end Journal

end PatronLoyalty.Txn
