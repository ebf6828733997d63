import Mathlib.Data.List.Basic

/-!
# Overlays

Updates that write a column where they give a value for it, and leave it where they do not. Headline:
**`Overlaid.absorb`**, doing all of a list of updates again after some of them comes to the same as doing
them once.
-/

namespace PatronLoyalty.Txn

variable {α β R : Type*} {f : α → β} {given : R → Option β} {step : α → R → α} {rs rs' : List R}

/-- An update writes what it gives for the column, if it gives anything. -/
def Overlaid (f : α → β) (given : R → Option β) (step : α → R → α) : Prop :=
  ∀ a r, f (step a r) = (given r).getD (f a)

def lastGiven (given : R → Option β) (rs : List R) : Option β := (rs.filterMap given).getLast?

theorem lastGiven_append : lastGiven given (rs' ++ rs) =
    (lastGiven given rs).or (lastGiven given rs') := by
  unfold lastGiven
  rw [List.filterMap_append, List.getLast?_append]

/-- What some of the updates give, all of them give. -/
theorem lastGiven_eq_none (h : rs' ⊆ rs) (hn : lastGiven given rs = none) :
    lastGiven given rs' = none := by
  unfold lastGiven at hn ⊢
  rw [List.getLast?_eq_none_iff, List.filterMap_eq_nil_iff] at hn ⊢
  exact fun r hr => hn r (h hr)

namespace Overlaid

/-- **After a list of updates** the column has the last value they give. -/
theorem foldl (h : Overlaid f given step) (rs : List R) (a : α) :
    f (rs.foldl step a) = (lastGiven given rs).getD (f a) := by
  induction rs generalizing a with
  | nil => rfl
  | cons r rs ih =>
    rw [List.foldl_cons, ih, h a r, show r :: rs = [r] ++ rs from rfl, lastGiven_append]
    cases hl : lastGiven given rs with
    | some b => rfl
    | none =>
      show (given r).getD (f a) = (lastGiven given [r]).getD (f a)
      unfold lastGiven
      cases hg : given r <;> simp [hg]

/-- **Some of the updates, and then all of them**, come to all of them. -/
theorem absorb (h : Overlaid f given step) (hsub : rs' ⊆ rs) (a : α) :
    f ((rs' ++ rs).foldl step a) = f (rs.foldl step a) := by
  rw [h.foldl, h.foldl, lastGiven_append]
  cases hl : lastGiven given rs with
  | some b => rfl
  | none =>
    rw [lastGiven_eq_none hsub hl]
    rfl

end Overlaid

end PatronLoyalty.Txn
