import PatronLoyalty.Txn.Relational

/-!
# Counting rows

`Rel.count` is how many rows of a table satisfy a predicate. It depends on the rows alone, not on
their order (`count_eq_of_get`), and one row that is written changes it by what its old and its new
version contribute (`count_of_get`).
-/

namespace PatronLoyalty.Txn.Rel

variable {κ : Type} {ρ : κ → Type} {L : Type}

/-- How many rows of table `k` satisfy `p`. -/
def count (s : Rel ρ L) (k : κ) (p : ℕ → ρ k → Bool) : ℕ := (s.rows k p).length

/-- What one version of a row contributes to a count. -/
def weight {k : κ} (p : ℕ → ρ k → Bool) (id : ℕ) : Option (ρ k) → ℕ
  | none => 0
  | some r => if p id r then 1 else 0

theorem count_eq_countP (s : Rel ρ L) (k : κ) (p : ℕ → ρ k → Bool) :
    s.count k p = (s.tables k).entries.countP fun e => p e.1 e.2 := by
  unfold count rows
  generalize (s.tables k).entries = es
  induction es with
  | nil => rfl
  | cons e es ih =>
    rw [List.filterMap_cons, List.countP_cons]
    cases hp : p e.1 e.2 with
    | true => simp [ih]
    | false => simp [ih]

/-- **Equal rows, equal counts.** -/
theorem count_eq_of_get {a b : Rel ρ L} {k : κ} (h : ∀ id, b.get k id = a.get k id)
    (p : ℕ → ρ k → Bool) : b.count k p = a.count k p := by
  have hperm : ((b.tables k).entries).Perm (a.tables k).entries := by
    refine List.lookup_ext (b.tables k).nodupKeys (a.tables k).nodupKeys fun id r => ?_
    have hid : (b.tables k).lookup id = (a.tables k).lookup id := h id
    exact iff_of_eq (congrArg (r ∈ ·) hid)
  rw [count_eq_countP, count_eq_countP]
  exact hperm.countP_eq _

variable [DecidableEq κ]

theorem rows_set_of_not {s : Rel ρ L} {k : κ} {id : ℕ} {r : ρ k} {p : ℕ → ρ k → Bool}
    (hnew : p id r = false) (hold : ∀ old, s.get k id = some old → p id old = false) :
    (s.set k id r).rows k p = s.rows k p := by
  have hset : (s.set k id r).tables k = (s.tables k).insert id r := Function.update_self _ _ _
  unfold rows
  rw [hset, AList.entries_insert, List.filterMap_cons, hnew]
  cases hg : s.get k id with
  | none =>
    have hnot : id ∉ (s.tables k).keys := AList.lookup_eq_none.mp hg
    rw [List.kerase_of_notMem_keys hnot]
    rfl
  | some old =>
    have hmem : id ∈ (s.tables k).entries.keys :=
      AList.lookup_isSome.mp (by rw [show (s.tables k).lookup id = some old from hg]; rfl)
    obtain ⟨b, l1, l2, -, hes, hker⟩ := List.exists_of_kerase hmem
    have hlook : (s.tables k).lookup id = some b :=
      AList.mem_lookup_iff.mpr (by rw [hes]; simp)
    rw [hker, hes, List.filterMap_append, List.filterMap_append, List.filterMap_cons, hold b hlook]
    rfl

theorem rows_set_of_new {s : Rel ρ L} {k : κ} {id : ℕ} {r : ρ k} (hg : s.get k id = none)
    (p : ℕ → ρ k → Bool) :
    (s.set k id r).rows k p = (if p id r then [(id, r)] else []) ++ s.rows k p := by
  have hset : (s.set k id r).tables k = (s.tables k).insert id r := Function.update_self _ _ _
  have hnot : id ∉ (s.tables k).keys := AList.lookup_eq_none.mp hg
  unfold rows
  rw [hset, AList.entries_insert, List.kerase_of_notMem_keys hnot, List.filterMap_cons]
  cases hp : p id r with
  | true => simp
  | false => simp

/-- Storing a row replaces the contribution of the version before. -/
theorem count_set (s : Rel ρ L) (k : κ) (id : ℕ) (r : ρ k) (p : ℕ → ρ k → Bool) :
    (s.set k id r).count k p + weight p id (s.get k id) = s.count k p + weight p id (some r) := by
  have hset : (s.set k id r).tables k = (s.tables k).insert id r := Function.update_self _ _ _
  rw [count_eq_countP, count_eq_countP, hset, AList.entries_insert, List.countP_cons]
  cases hg : s.get k id with
  | none =>
    have hnot : id ∉ (s.tables k).keys := AList.lookup_eq_none.mp hg
    rw [List.kerase_of_notMem_keys hnot]
    rfl
  | some old =>
    have hmem : id ∈ (s.tables k).entries.keys :=
      AList.lookup_isSome.mp (by rw [show (s.tables k).lookup id = some old from hg]; rfl)
    obtain ⟨b, l1, l2, -, hes, hker⟩ := List.exists_of_kerase hmem
    have hb : b = old := by
      have hlook : (s.tables k).lookup id = some b :=
        AList.mem_lookup_iff.mpr (by rw [hes]; simp)
      exact Option.some.inj (hlook.symm.trans hg)
    subst hb
    rw [hker, hes, List.countP_append, List.countP_append, List.countP_cons]
    simp only [weight]
    omega

/-- **One row written**: the count changes by its old and its new version. -/
theorem count_of_get {a b : Rel ρ L} {k : κ} {id : ℕ} {r : ρ k}
    (h : ∀ id', id' ≠ id → b.get k id' = a.get k id') (hr : b.get k id = some r)
    (p : ℕ → ρ k → Bool) :
    b.count k p + weight p id (a.get k id) = a.count k p + weight p id (some r) := by
  have hsame : ∀ id', b.get k id' = (a.set k id r).get k id' := by
    intro id'
    by_cases hid : id' = id
    · subst hid
      rw [get_set_self, hr]
    · rw [get_set_ne (by simpa using hid), h id' hid]
  rw [count_eq_of_get hsame p]
  exact count_set a k id r p

/-! ## Comparing counts -/

/-- The primary keys of a query. -/
def ids (s : Rel ρ L) (k : κ) (p : ℕ → ρ k → Bool) : List ℕ := (s.rows k p).map (·.1)

omit [DecidableEq κ] in
theorem mem_ids {s : Rel ρ L} {k : κ} {p : ℕ → ρ k → Bool} {id : ℕ} :
    id ∈ s.ids k p ↔ ∃ r, s.get k id = some r ∧ p id r = true := by
  unfold ids
  rw [List.mem_map]
  constructor
  · rintro ⟨⟨id', r⟩, hm, rfl⟩
    exact ⟨r, mem_rows.mp hm⟩
  · rintro ⟨r, hr⟩
    exact ⟨(id, r), mem_rows.mpr hr, rfl⟩

omit [DecidableEq κ] in
theorem nodup_ids (s : Rel ρ L) (k : κ) (p : ℕ → ρ k → Bool) : (s.ids k p).Nodup := by
  have hkeys : ((s.tables k).entries.map Sigma.fst).Nodup := (s.tables k).nodupKeys
  refine List.Nodup.sublist ?_ hkeys
  unfold ids rows
  generalize (s.tables k).entries = es
  induction es with
  | nil => exact List.Sublist.slnil
  | cons e es ih =>
    rw [List.filterMap_cons]
    split
    · rename_i hnone
      exact ih.cons _
    · rename_i x hx
      split at hx
      · cases hx
        exact ih.cons_cons _
      · cases hx

omit [DecidableEq κ] in
theorem count_eq_ids (s : Rel ρ L) (k : κ) (p : ℕ → ρ k → Bool) : s.count k p = (s.ids k p).length := by
  unfold ids count
  rw [List.length_map]

variable {a b : Rel ρ L} {k : κ} {p q : ℕ → ρ k → Bool}

omit [DecidableEq κ] in
theorem count_le_of_get (h : ∀ id r, a.get k id = some r → p id r = true →
      ∃ r', b.get k id = some r' ∧ q id r' = true) : a.count k p ≤ b.count k q := by
  rw [count_eq_ids, count_eq_ids]
  refine (nodup_ids a k p).length_le_of_subset fun id hid => ?_
  obtain ⟨r, hr, hp⟩ := mem_ids.mp hid
  exact mem_ids.mpr (h id r hr hp)

omit [DecidableEq κ] in
/-- **One more**: rows that stay and keep counting, and one that did not count before. -/
theorem count_lt_of_get (h : ∀ id r, a.get k id = some r → p id r = true →
      ∃ r', b.get k id = some r' ∧ q id r' = true) {i : ℕ} {r' : ρ k}
    (hi : b.get k i = some r') (hq : q i r' = true)
    (hno : ∀ r, a.get k i = some r → p i r = false) : a.count k p < b.count k q := by
  rw [count_eq_ids, count_eq_ids]
  have hnew : i ∉ a.ids k p := by
    intro hm
    obtain ⟨r, hr, hp⟩ := mem_ids.mp hm
    rw [hno r hr] at hp
    cases hp
  have hnodup : (i :: a.ids k p).Nodup := List.nodup_cons.mpr ⟨hnew, nodup_ids a k p⟩
  refine hnodup.length_le_of_subset fun id hid => ?_
  rcases List.mem_cons.mp hid with rfl | hid
  · exact mem_ids.mpr ⟨r', hi, hq⟩
  · obtain ⟨r, hr, hp⟩ := mem_ids.mp hid
    exact mem_ids.mpr (h id r hr hp)

end PatronLoyalty.Txn.Rel
