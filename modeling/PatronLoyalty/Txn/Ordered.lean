import Mathlib.Data.List.Permutation
import Mathlib.Data.List.Sort

/-!
# Rows in an order with ties

A query with an `ORDER BY` answers with its rows in some arrangement that the order allows. Rows that
tie come in either order, and two queries of one store need not agree on them. `orderings` are the
arrangements.

`TakenInTurn le xs ys`: from the rows `xs`, one that comes first is taken again and again, and these
were `ys`.

Headlines: a row that ties with no other is in every arrangement at the place **`ahead`** counts
(`getElem?_orderings`), and is taken as the row of that number (`TakenInTurn.getElem?_iff`).
-/

namespace PatronLoyalty.Txn

variable {α : Type} {le : α → α → Bool} {xs ys : List α} {x y : α}

/-- **The arrangements** of the rows that the order allows. -/
def orderings (le : α → α → Bool) (xs : List α) : List (List α) :=
  xs.permutations'.filter fun ys => ys.Pairwise fun a b => le a b = true

theorem mem_orderings :
    ys ∈ orderings le xs ↔ ys.Perm xs ∧ ys.Pairwise fun a b => le a b = true := by
  unfold orderings
  rw [List.mem_filter, List.mem_permutations', decide_eq_true_eq]

theorem insertionSort_mem_orderings (total : ∀ a b, le a b = true ∨ le b a = true)
    (trans : ∀ a b c, le a b = true → le b c = true → le a c = true) :
    xs.insertionSort (fun a b => le a b = true) ∈ orderings le xs := by
  have : Std.Total fun a b : α => le a b = true := ⟨total⟩
  have : IsTrans α fun a b => le a b = true := ⟨trans⟩
  exact mem_orderings.mpr ⟨List.perm_insertionSort _ xs, List.pairwise_insertionSort _ xs⟩

theorem first_of_orderings (refl : ∀ a, le a a = true) (h : ys ∈ orderings le xs)
    (h0 : ys[0]? = some x) : ∀ y ∈ xs, le x y = true := by
  obtain ⟨hp, hs⟩ := mem_orderings.mp h
  intro y hy
  cases ys with
  | nil => simp at h0
  | cons z ys =>
    rw [List.getElem?_cons_zero, Option.some.injEq] at h0
    subst h0
    rcases List.mem_cons.mp (hp.mem_iff.mpr hy) with rfl | hy
    · exact refl y
    · exact (List.pairwise_cons.mp hs).1 y hy

/-- How many rows come before `x`, whatever the arrangement. -/
def ahead (le : α → α → Bool) (xs : List α) (x : α) : ℕ :=
  (xs.filter fun y => le y x && !le x y).length

/-- No other row ties with `x`. -/
def Untied (le : α → α → Bool) (xs : List α) (x : α) : Prop :=
  ∀ y ∈ xs, le x y = true → le y x = true → y = x

theorem ahead_perm (h : xs.Perm ys) (x : α) : ahead le xs x = ahead le ys x :=
  (h.filter _).length_eq

theorem Untied.perm (h : Untied le xs x) (hp : xs.Perm ys) : Untied le ys x :=
  fun y hy => h y (hp.mem_iff.mpr hy)

theorem ahead_append_cons {l1 l2 : List α}
    (hs : (l1 ++ x :: l2).Pairwise fun a b => le a b = true) (hn : (l1 ++ x :: l2).Nodup)
    (hu : Untied le (l1 ++ x :: l2) x) : ahead le (l1 ++ x :: l2) x = l1.length := by
  rw [List.pairwise_append, List.pairwise_cons] at hs
  rw [List.nodup_append] at hn
  obtain ⟨-, ⟨hafter, -⟩, hbefore⟩ := hs
  unfold ahead
  rw [List.filter_append, List.filter_eq_self.mpr, List.filter_eq_nil_iff.mpr, List.append_nil]
  · intro y hy
    rcases List.mem_cons.mp hy with rfl | hy
    · cases le y y <;> simp
    · simp [hafter y hy]
  · intro y hy
    have hle : le y x = true := hbefore y hy x List.mem_cons_self
    have hne : y ≠ x := hn.2.2 y hy x List.mem_cons_self
    cases hback : le x y with
    | false => simp [hle]
    | true => exact absurd (hu y (List.mem_append_left _ hy) hback hle) hne

/-- **The place of a row** that ties with no other. -/
theorem getElem?_orderings {i : ℕ} (h : ys ∈ orderings le xs) (hn : xs.Nodup)
    (hu : Untied le xs x) (hi : ys[i]? = some x) : i = ahead le xs x := by
  obtain ⟨hp, hs⟩ := mem_orderings.mp h
  obtain ⟨hlt, hx⟩ := List.getElem?_eq_some_iff.mp hi
  have hsplit : ys = ys.take i ++ x :: ys.drop (i + 1) := by
    rw [← hx, List.getElem_cons_drop, List.take_append_drop]
  have hny : ys.Nodup := hp.nodup_iff.mpr hn
  have huy : Untied le ys x := hu.perm hp.symm
  rw [hsplit] at hs hny huy
  have hahead := ahead_append_cons hs hny huy
  rw [← hsplit, ahead_perm hp, List.length_take] at hahead
  omega

/-! ## Taking the first, again and again -/

/-- One of the first rows is taken, then one of the first that are left, and so on. -/
inductive TakenInTurn (le : α → α → Bool) : List α → List α → Prop
  | done (xs : List α) : TakenInTurn le xs []
  | take {xs xs' ys : List α} {x : α} (hp : xs.Perm (x :: xs')) (hx : ∀ y ∈ xs, le x y = true)
      (h : TakenInTurn le xs' ys) : TakenInTurn le xs (x :: ys)

theorem TakenInTurn.subset (h : TakenInTurn le xs ys) (hy : y ∈ ys) : y ∈ xs := by
  induction h with
  | done => cases hy
  | take hp _ _ ih =>
    rcases List.mem_cons.mp hy with rfl | hy
    · exact hp.mem_iff.mpr List.mem_cons_self
    · exact hp.mem_iff.mpr (List.mem_cons_of_mem _ (ih hy))

theorem ahead_cons (x y : α) (xs : List α) :
    ahead le (y :: xs) x = ahead le xs x + if (le y x && !le x y) = true then 1 else 0 := by
  unfold ahead
  rw [List.filter_cons]
  split
  · rw [List.length_cons]
  · rfl

theorem ahead_eq_zero (h : ∀ y ∈ xs, le x y = true) : ahead le xs x = 0 := by
  unfold ahead
  rw [List.length_eq_zero_iff, List.filter_eq_nil_iff]
  intro y hy
  simp [h y hy]

/-- **The number of a row** that ties with no other is the one it is taken at. -/
theorem TakenInTurn.getElem?_iff (h : TakenInTurn le xs ys) (hn : xs.Nodup) (hx : x ∈ xs)
    (hu : Untied le xs x) {k : ℕ} (hk : k < ys.length) :
    ys[k]? = some x ↔ k = ahead le xs x := by
  induction h generalizing k with
  | done => simp at hk
  | @take xs xs' ys z hp hz h ih =>
    have hn' : (z :: xs').Nodup := hp.nodup_iff.mp hn
    by_cases hzx : z = x
    · subst hzx
      rw [ahead_eq_zero hz]
      cases k with
      | zero => simp
      | succ k =>
        have hnot : z ∉ ys := fun hm => (List.nodup_cons.mp hn').1 (h.subset hm)
        rw [List.getElem?_cons_succ]
        exact ⟨fun hz => absurd (List.mem_of_getElem? hz) hnot, fun h => by omega⟩
    · have hfirst : le z x = true := hz x hx
      have hback : le x z = false := by
        by_contra hback
        rw [Bool.not_eq_false] at hback
        exact hzx (hu z (hp.mem_iff.mpr List.mem_cons_self) hback hfirst)
      have hmem : x ∈ xs' := (List.mem_cons.mp (hp.mem_iff.mp hx)).resolve_left (Ne.symm hzx)
      rw [ahead_perm hp, ahead_cons, hfirst, hback]
      cases k with
      | zero =>
        simp only [List.getElem?_cons_zero, Option.some.injEq, Bool.not_false, Bool.and_self, if_true]
        exact ⟨fun h => absurd h hzx, fun h => by omega⟩
      | succ k =>
        have hu' : Untied le xs' x :=
          fun y hy => hu y (hp.mem_iff.mpr (List.mem_cons_of_mem _ hy))
        rw [List.getElem?_cons_succ, ih (List.nodup_cons.mp hn').2 hmem hu' (by simpa using hk)]
        simp

theorem TakenInTurn.before (h : TakenInTurn le xs ys) (hx : x ∈ xs) (hlt : le y x = false) {k : ℕ}
    (hk : ys[k]? = some y) : ∃ i, i < k ∧ ys[i]? = some x := by
  induction h generalizing k with
  | done => simp at hk
  | @take xs xs' ys z hp hz h ih =>
    cases k with
    | zero =>
      rw [List.getElem?_cons_zero, Option.some.injEq] at hk
      subst hk
      rw [hz x hx] at hlt
      cases hlt
    | succ k =>
      rw [List.getElem?_cons_succ] at hk
      by_cases hzx : z = x
      · exact ⟨0, by omega, by rw [List.getElem?_cons_zero, hzx]⟩
      · have hmem : x ∈ xs' := (List.mem_cons.mp (hp.mem_iff.mp hx)).resolve_left (Ne.symm hzx)
        obtain ⟨i, hi, hxi⟩ := ih hmem hk
        exact ⟨i + 1, by omega, by rw [List.getElem?_cons_succ, hxi]⟩

theorem TakenInTurn.nodup (h : TakenInTurn le xs ys) (hn : xs.Nodup) : ys.Nodup := by
  induction h with
  | done => exact List.nodup_nil
  | take hp _ h ih =>
    obtain ⟨hnot, hn'⟩ := List.nodup_cons.mp (hp.nodup_iff.mp hn)
    exact List.nodup_cons.mpr ⟨fun hm => hnot (h.subset hm), ih hn'⟩

end PatronLoyalty.Txn
