import Mathlib.Algebra.GroupWithZero.Nat
import Mathlib.Data.List.AList

/-!
# Counting the rows of a table

A table is Mathlib's `AList`: rows by key. What a count of its rows, or a sum over them, is after a row has
been inserted, and after one has been replaced.
-/

namespace PatronLoyalty.Async

variable {κ V : Type} [DecidableEq κ] {t : AList fun _ : κ => V} {k : κ} {v w : V}

theorem countP_insert_new (q : (Σ _ : κ, V) → Bool) (h : t.lookup k = none) :
    (t.insert k v).entries.countP q = t.entries.countP q + if q ⟨k, v⟩ then 1 else 0 := by
  rw [AList.entries_insert_of_notMem (AList.lookup_eq_none.mp h), List.countP_cons]

theorem entries_insert_row (h : t.lookup k = some v) : ∃ l1 l2 : List (Σ _ : κ, V),
    t.entries = l1 ++ ⟨k, v⟩ :: l2 ∧ (t.insert k w).entries = ⟨k, w⟩ :: (l1 ++ l2) := by
  have hmem : (⟨k, v⟩ : Σ _ : κ, V) ∈ t.entries := AList.mem_lookup_iff.mp h
  obtain ⟨v', l1, l2, hk, hl, hl'⟩ := List.exists_of_kerase (List.mem_keys_of_mem hmem)
  have hv : v' = v := by
    have hmem' : (⟨k, v'⟩ : Σ _ : κ, V) ∈ t.entries := by
      rw [hl]
      exact List.mem_append_right _ List.mem_cons_self
    exact Option.some.inj ((AList.mem_lookup_iff.mpr hmem').symm.trans h)
  subst hv
  exact ⟨l1, l2, hl, by rw [AList.entries_insert, hl']⟩

theorem countP_insert_row (q : (Σ _ : κ, V) → Bool) (h : t.lookup k = some v) :
    (t.insert k w).entries.countP q + (if q ⟨k, v⟩ then 1 else 0) =
      t.entries.countP q + if q ⟨k, w⟩ then 1 else 0 := by
  obtain ⟨l1, l2, hl, hl'⟩ := entries_insert_row (w := w) h
  rw [hl, hl']
  simp only [List.countP_append, List.countP_cons]
  omega

theorem sum_insert_new (f : (Σ _ : κ, V) → ℕ) (h : t.lookup k = none) :
    ((t.insert k v).entries.map f).sum = (t.entries.map f).sum + f ⟨k, v⟩ := by
  rw [AList.entries_insert_of_notMem (AList.lookup_eq_none.mp h), List.map_cons, List.sum_cons,
    Nat.add_comm]

theorem sum_insert_row (f : (Σ _ : κ, V) → ℕ) (h : t.lookup k = some v) :
    ((t.insert k w).entries.map f).sum + f ⟨k, v⟩ = (t.entries.map f).sum + f ⟨k, w⟩ := by
  obtain ⟨l1, l2, hl, hl'⟩ := entries_insert_row (w := w) h
  rw [hl, hl']
  simp only [List.map_append, List.map_cons, List.sum_append, List.sum_cons]
  omega

theorem countP_or_le {α : Type} (l : List α) (q q' : α → Bool) :
    (l.countP fun a => q a || q' a) ≤ l.countP q + l.countP q' := by
  induction l with
  | nil => exact Nat.le_refl _
  | cons a l ih =>
    simp only [List.countP_cons]
    cases q a <;> cases q' a <;> simp <;> omega

/-- The keys of different rows are different: as many keys as rows with a property. -/
theorem length_le_countP {l : List κ} (hl : l.Nodup) (q : (Σ _ : κ, V) → Bool)
    (h : ∀ k ∈ l, ∃ v, t.lookup k = some v ∧ q ⟨k, v⟩ = true) :
    l.length ≤ t.entries.countP q := by
  have hsub : l ⊆ (t.entries.filter q).map Sigma.fst := by
    intro k hk
    obtain ⟨v, hv, hq⟩ := h k hk
    exact List.mem_map.mpr ⟨⟨k, v⟩, List.mem_filter.mpr ⟨AList.mem_lookup_iff.mp hv, hq⟩, rfl⟩
  calc l.length ≤ ((t.entries.filter q).map Sigma.fst).length := (List.subperm_of_subset hl hsub).length_le
    _ = t.entries.countP q := by rw [List.length_map, List.countP_eq_length_filter]

end PatronLoyalty.Async
