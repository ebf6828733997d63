import Mathlib.Data.List.AList
import PatronLoyalty.Txn.RelyGuarantee

/-!
# Relational stores

A `Store` made of tables: `Rel ρ L` has one table of rows `ρ k` per table name `k`, each keyed by
a primary key, and one append-only log of rows `L` in commit order. A table may carry unique
indexes: `Keyed` lists the index entries of a row.

A write is a **row version**: `put k id old new` replaces the version `old` (`none`: no row yet) of
row `id` by `new`, and does nothing over any other version. The version a transaction read under
lock is the version it replaces, so a pending write never misses (`Stable.get_view`).

The statements are `insert`, `insertLog`, `modify` (by primary key, the row must exist) and
`modifyIf` (a conditional update by primary key that answers how many rows it changed). A
statement that would put two rows under one entry of a unique index fails.
-/

namespace PatronLoyalty.Txn

/-- The unique index entries of a row. -/
class Keyed {κ : Type} (ρ : κ → Type) (L : Type) (υ : outParam Type) where
  keys (k : κ) : ρ k → List υ
  logKeys : L → List υ

/-- Tables by name, and a log. -/
structure Rel {κ : Type} (ρ : κ → Type) (L : Type) where
  tables (k : κ) : AList fun _ : ℕ => ρ k
  log : List L

namespace Rel

variable {κ : Type} {ρ : κ → Type} {L υ : Type} {s : Rel ρ L} {k : κ} {id : ℕ}

inductive Write (ρ : κ → Type) (L : Type)
  | put (k : κ) (id : ℕ) (old : Option (ρ k)) (new : ρ k)
  | append (l : L)

/-- What is locked: a row, or an entry of a unique index. -/
inductive Lock (κ υ : Type)
  | row (k : κ) (id : ℕ)
  | key (u : υ)
  deriving DecidableEq

/-- The row `id` of table `k`. -/
def get (s : Rel ρ L) (k : κ) (id : ℕ) : Option (ρ k) := (s.tables k).lookup id

/-- The rows of table `k` that satisfy `p`, with their primary keys. -/
def rows (s : Rel ρ L) (k : κ) (p : ℕ → ρ k → Bool) : List (ℕ × ρ k) :=
  (s.tables k).entries.filterMap fun e => if p e.1 e.2 then some (e.1, e.2) else none

variable {p : ℕ → ρ k → Bool} {r : ρ k}

theorem mem_rows :
    (id, r) ∈ s.rows k p ↔ s.get k id = some r ∧ p id r = true := by
  unfold rows get
  rw [List.mem_filterMap, ← Option.mem_def, AList.mem_lookup_iff]
  constructor
  · rintro ⟨⟨i, q⟩, hm, hq⟩
    split at hq
    · rename_i hp
      cases hq
      exact ⟨hm, hp⟩
    · cases hq
  · rintro ⟨hm, hp⟩
    exact ⟨⟨id, r⟩, hm, if_pos hp⟩

theorem getElem?_rows {i : ℕ}
    (h : (s.rows k p)[i]? = some (id, r)) : s.get k id = some r ∧ p id r = true :=
  mem_rows.mp (List.mem_of_getElem? h)

/-- An unordered query finds nothing only where there is nothing. -/
theorem eq_false_of_getElem?_rows {n : ℕ} (h : (s.rows k p)[n % (s.rows k p).length]? = none)
    (hg : s.get k id = some r) : p id r = false := by
  cases hp : p id r with
  | false => rfl
  | true =>
    have hm := mem_rows.mpr ⟨hg, hp⟩
    rw [List.getElem?_eq_none_iff] at h
    exact absurd (Nat.mod_lt n (List.length_pos_of_mem hm)) (Nat.not_lt.mpr h)

section Index

variable [Keyed ρ L υ] {s : Rel ρ L} {k : κ} {u : υ}

/-- Row `id` of table `k` is under index entry `u`. -/
def Owns (s : Rel ρ L) (u : υ) (k : κ) (id : ℕ) : Prop :=
  ∃ r, s.get k id = some r ∧ u ∈ Keyed.keys L k r

/-- The index entries of a version, none for no row. -/
def versionKeys (k : κ) (old : Option (ρ k)) : List υ :=
  match old with
  | some r => Keyed.keys L k r
  | none => []

theorem owns_iff_versionKeys {id : ℕ} {old : Option (ρ k)}
    (h : s.get k id = old) : s.Owns u k id ↔ u ∈ versionKeys (L := L) k old := by
  unfold Owns versionKeys
  rw [h]
  cases old <;> simp

variable [DecidableEq υ]

/-- The log rows under index entry `u`. -/
def logAt (s : Rel ρ L) (u : υ) : List L :=
  s.log.filter fun l => decide (u ∈ Keyed.logKeys ρ l)

/-- Some row of table `k` is under index entry `u`. -/
def taken (s : Rel ρ L) (k : κ) (u : υ) : Bool :=
  (s.tables k).entries.any fun e => decide (u ∈ Keyed.keys L k e.2)

theorem taken_iff : s.taken k u = true ↔ ∃ id, s.Owns u k id := by
  unfold taken Owns get
  simp only [List.any_eq_true, decide_eq_true_eq, ← Option.mem_def, AList.mem_lookup_iff]
  constructor
  · rintro ⟨⟨id, r⟩, hm, hu⟩
    exact ⟨id, r, hm, hu⟩
  · rintro ⟨id, r, hm, hu⟩
    exact ⟨⟨id, r⟩, hm, hu⟩

theorem mem_logAt {l : L} :
    l ∈ s.logAt u ↔ l ∈ s.log ∧ u ∈ Keyed.logKeys ρ l := by
  simp [logAt]

/-- The index entries in which two versions differ. -/
def changedKeys (k : κ) (old : Option (ρ k)) (new : ρ k) : List υ :=
  (versionKeys (L := L) k old).filter (fun u => decide (u ∉ Keyed.keys L k new)) ++
    (Keyed.keys L k new).filter (fun u => decide (u ∉ versionKeys (L := L) k old))

theorem notMem_changedKeys {old : Option (ρ k)} {new : ρ k} :
    u ∉ changedKeys (L := L) k old new ↔
      (u ∈ versionKeys (L := L) k old ↔ u ∈ Keyed.keys L k new) := by
  unfold changedKeys
  simp only [List.mem_append, List.mem_filter, decide_eq_true_eq]
  tauto

end Index

/-! ## Row versions -/

section Set

variable [DecidableEq κ]

/-- Store row `r` under `id`. -/
def set (s : Rel ρ L) (k : κ) (id : ℕ) (r : ρ k) : Rel ρ L :=
  { s with tables := Function.update s.tables k ((s.tables k).insert id r) }

@[simp] theorem get_set_self (s : Rel ρ L) (k : κ) (id : ℕ) (r : ρ k) :
    (s.set k id r).get k id = some r := by
  simp [get, set, AList.lookup_insert]

theorem get_set_ne {s : Rel ρ L} {k k' : κ} {id id' : ℕ} {r : ρ k}
    (h : (k', id') ≠ (k, id)) : (s.set k id r).get k' id' = s.get k' id' := by
  by_cases hk : k' = k
  · subst hk
    have hid : id' ≠ id := fun e => h (by rw [e])
    simp [get, set, AList.lookup_insert_ne hid]
  · simp [get, set, Function.update_of_ne hk]

@[simp] theorem log_set (s : Rel ρ L) (k : κ) (id : ℕ) (r : ρ k) :
    (s.set k id r).log = s.log := rfl

theorem owns_set [Keyed ρ L υ] {s : Rel ρ L} {k k' : κ} {id id' : ℕ} {new : ρ k} {u : υ} :
    (s.set k id new).Owns u k' id' ↔
      if (k', id') = (k, id) then u ∈ Keyed.keys L k new else s.Owns u k' id' := by
  split
  · rename_i h
    cases h
    simp [Owns]
  · rename_i h
    unfold Owns
    rw [get_set_ne h]

end Set

variable [DecidableEq κ] [∀ k, DecidableEq (ρ k)]

/-- Replace the version `old` of a row. -/
def put (s : Rel ρ L) (k : κ) (id : ℕ) (old : Option (ρ k)) (new : ρ k) : Rel ρ L :=
  if s.get k id = old then s.set k id new else s

theorem put_eq {old : Option (ρ k)} {new : ρ k}
    (h : s.get k id = old) : s.put k id old new = s.set k id new := if_pos h

theorem get_put_ne {k' : κ} {id' : ℕ} {old : Option (ρ k)} {new : ρ k}
    (h : (k', id') ≠ (k, id)) : (s.put k id old new).get k' id' = s.get k' id' := by
  unfold put
  split
  · exact get_set_ne h
  · rfl

@[simp] theorem log_put (s : Rel ρ L) (k : κ) (id : ℕ) (old : Option (ρ k)) (new : ρ k) :
    (s.put k id old new).log = s.log := by
  unfold put
  split <;> rfl

variable [DecidableEq υ] [Keyed ρ L υ]

def Same : Lock κ υ → Rel ρ L → Rel ρ L → Prop
  | .row k id, s, s' => s.get k id = s'.get k id
  | .key u, s, s' => s.Owns u = s'.Owns u ∧ s.logAt u = s'.logAt u

def applyWrite : Write ρ L → Rel ρ L → Rel ρ L
  | .put k id old new, s => s.put k id old new
  | .append l, s => { s with log := s.log ++ [l] }

def writeTouches : Write ρ L → List (Lock κ υ)
  | .put k id old new => .row k id :: (changedKeys (L := L) k old new).map .key
  | .append l => (Keyed.logKeys ρ l).map .key

instance : Store (Rel ρ L) (Write ρ L) (Lock κ υ) where
  apply := applyWrite
  touches := writeTouches
  same := Same
  same_equiv r := by
    cases r with
    | row k id => exact ⟨fun _ => rfl, fun h => h.symm, fun h h' => h.trans h'⟩
    | key u =>
      exact ⟨fun _ => ⟨rfl, rfl⟩, fun h => ⟨h.1.symm, h.2.symm⟩,
        fun h h' => ⟨h.1.trans h'.1, h.2.trans h'.2⟩⟩
  frame {r w} s h := by
    cases w with
    | put k id old new =>
      simp only [writeTouches, List.mem_cons, not_or] at h
      show Same r s (s.put k id old new)
      by_cases hv : s.get k id = old
      · rw [put_eq hv]
        cases r with
        | row k' id' => exact (get_set_ne fun e => h.1 (by cases e; rfl)).symm
        | key u =>
          have hu : u ∉ changedKeys (L := L) k old new := fun hm =>
            h.2 (List.mem_map.mpr ⟨u, hm, rfl⟩)
          refine ⟨funext fun k' => funext fun id' => propext ?_, rfl⟩
          rw [owns_set]
          split
          · rename_i he
            cases he
            rw [owns_iff_versionKeys hv]
            exact notMem_changedKeys.mp hu
          · exact Iff.rfl
      · rw [put, if_neg hv]
        cases r with
        | row k' id' => rfl
        | key u => exact ⟨rfl, rfl⟩
    | append l =>
      cases r with
      | row k id => rfl
      | key u =>
        have hu : u ∉ Keyed.logKeys ρ l := fun hm => h (List.mem_map.mpr ⟨u, hm, rfl⟩)
        refine ⟨rfl, ?_⟩
        show s.logAt u = (s.log ++ [l]).filter _
        rw [List.filter_append, List.filter_cons_of_neg (by simpa using hu), List.filter_nil,
          List.append_nil]
        rfl
  respects w {s s'} h r hr := by
    cases w with
    | put k id old new =>
      have hrow : s.get k id = s'.get k id := h (.row k id) List.mem_cons_self
      show Same r (s.put k id old new) (s'.put k id old new)
      by_cases hv : s.get k id = old
      · rw [put_eq hv, put_eq (hrow ▸ hv)]
        rcases List.mem_cons.mp hr with rfl | hk
        · exact (get_set_self s k id new).trans (get_set_self s' k id new).symm
        · obtain ⟨u, -, rfl⟩ := List.mem_map.mp hk
          obtain ⟨ho, hl⟩ := h (.key u) hr
          refine ⟨funext fun k' => funext fun id' => propext ?_, hl⟩
          rw [owns_set, owns_set, ho]
      · rw [put, if_neg hv, put, if_neg (hrow ▸ hv)]
        exact h r hr
    | append l =>
      obtain ⟨u, hu, rfl⟩ := List.mem_map.mp hr
      obtain ⟨ho, hl⟩ := h (.key u) hr
      refine ⟨ho, ?_⟩
      show (s.log ++ [l]).filter _ = (s'.log ++ [l]).filter _
      rw [List.filter_append, List.filter_append]
      exact congrArg (· ++ _) hl

@[simp] theorem apply_put (s : Rel ρ L) (k : κ) (id : ℕ) (old : Option (ρ k)) (new : ρ k) :
    Store.apply (.put k id old new : Write ρ L) s = s.put k id old new := rfl

@[simp] theorem apply_append (s : Rel ρ L) (l : L) :
    Store.apply (.append l : Write ρ L) s = { s with log := s.log ++ [l] } := rfl

/-! ## Statements -/

section Statements

variable {ε : Type} {dup : ε} {k : κ} {id : ℕ}

/-- An index entry the new version would share with another row of the table. -/
def clashes (s : Rel ρ L) (k : κ) (old : Option (ρ k)) (new : ρ k) : Bool :=
  (Keyed.keys L k new).any fun u => !decide (u ∈ versionKeys (L := L) k old) && s.taken k u

/-- `INSERT`: fails with `dup` on a used primary key or index entry. -/
def insert (dup : ε) (k : κ) (id : ℕ) (r : ρ k) : Tx (Rel ρ L) (Write ρ L) ε Unit :=
  .exec fun s =>
    if (s.get k id).isSome || s.clashes k none r then .error dup
    else .ok ((), [.put k id none r])

/-- `INSERT` into the log. -/
def insertLog (dup : ε) (l : L) : Tx (Rel ρ L) (Write ρ L) ε Unit :=
  .exec fun s =>
    if (Keyed.logKeys ρ l).any fun u => !(s.logAt u).isEmpty then .error dup
    else .ok ((), [.append l])

/-- `UPDATE` by primary key: fails with `miss` when there is no such row. Answers the new row. -/
def modify (miss dup : ε) (k : κ) (id : ℕ) (f : ρ k → Except ε (ρ k)) :
    Tx (Rel ρ L) (Write ρ L) ε (ρ k) :=
  .exec fun s =>
    match s.get k id with
    | none => .error miss
    | some r =>
      match f r with
      | .error e => .error e
      | .ok r' =>
        if s.clashes k (some r) r' then .error dup else .ok (r', [.put k id (some r) r'])

/-- `UPDATE … WHERE id = … AND p`: answers the number of rows changed. A row that does not match
is neither changed nor locked. -/
def modifyIf (dup : ε) (k : κ) (id : ℕ) (p : ρ k → Bool) (f : ρ k → Except ε (ρ k)) :
    Tx (Rel ρ L) (Write ρ L) ε ℕ :=
  .exec fun s =>
    match s.get k id with
    | none => .ok (0, [])
    | some r =>
      if p r then
        match f r with
        | .error e => .error e
        | .ok r' =>
          if s.clashes k (some r) r' then .error dup else .ok (1, [.put k id (some r) r'])
      else .ok (0, [])

variable {G : Guarantee (Rel ρ L)} {A : Rel ρ L → Prop} {exc : ε → Rel ρ L → Prop}
  {ws : List (Write ρ L)} {s : Rel ρ L}

theorem wp_insert {post : Unit → List (Write ρ L) → Rel ρ L → Prop} {r : ρ k}
    (hp : ∀ s', Stable G ws s s' → A s' → (view ws s').get k id = none →
      (view ws s').clashes k none r = false → post () (ws ++ [.put k id none r]) s')
    (he : ∀ s', Stable G ws s s' → A s' →
      (view ws s').get k id ≠ none ∨ (view ws s').clashes k none r = true → exc dup s') :
    Tx.wp G A post exc (insert dup k id r) ws s := by
  rw [insert, Tx.wp_exec]
  intro s' hs hA
  cases hg : (view ws s').get k id with
  | some q => simpa using he s' hs hA (Or.inl (by simp [hg]))
  | none =>
    cases hc : (view ws s').clashes k none r with
    | true => simpa using he s' hs hA (Or.inr hc)
    | false =>
      refine ⟨fun b ws' h => ?_, fun e h => by simp at h⟩
      simp only [Option.isSome_none, Bool.or_self, Bool.false_eq_true, if_false, Except.ok.injEq,
        Prod.mk.injEq] at h
      obtain ⟨-, rfl⟩ := h
      exact hp s' hs hA hg hc

theorem wp_insertLog {post : Unit → List (Write ρ L) → Rel ρ L → Prop} {l : L}
    (hp : ∀ s', Stable G ws s s' → A s' → (∀ u ∈ Keyed.logKeys ρ l, (view ws s').logAt u = []) →
      post () (ws ++ [.append l]) s')
    (he : ∀ s' u, Stable G ws s s' → A s' → u ∈ Keyed.logKeys ρ l → (view ws s').logAt u ≠ [] →
      exc dup s') :
    Tx.wp G A post exc (insertLog dup l) ws s := by
  rw [insertLog, Tx.wp_exec]
  intro s' hs hA
  cases hc : (Keyed.logKeys ρ l).any fun u => !((view ws s').logAt u).isEmpty with
  | true =>
    obtain ⟨u, hu, hne⟩ := List.any_eq_true.mp hc
    simpa using he s' u hs hA hu (by simpa using hne)
  | false =>
    refine ⟨fun b ws' h => ?_, fun e h => by simp at h⟩
    have hall : ∀ u ∈ Keyed.logKeys ρ l, (view ws s').logAt u = [] := by
      intro u hu
      have := List.any_eq_false.mp hc u hu
      simpa using this
    simp only [Bool.false_eq_true, if_false, Except.ok.injEq, Prod.mk.injEq] at h
    obtain ⟨-, rfl⟩ := h
    exact hp s' hs hA hall

theorem wp_modify {post : ρ k → List (Write ρ L) → Rel ρ L → Prop} {miss : ε}
    {f : ρ k → Except ε (ρ k)}
    (hp : ∀ s' r r', Stable G ws s s' → A s' → (view ws s').get k id = some r → f r = .ok r' →
      (view ws s').clashes k (some r) r' = false → post r' (ws ++ [.put k id (some r) r']) s')
    (hm : ∀ s', Stable G ws s s' → A s' → (view ws s').get k id = none → exc miss s')
    (hf : ∀ s' r e, Stable G ws s s' → A s' → (view ws s').get k id = some r → f r = .error e →
      exc e s')
    (hd : ∀ s' r r', Stable G ws s s' → A s' → (view ws s').get k id = some r → f r = .ok r' →
      (view ws s').clashes k (some r) r' = true → exc dup s') :
    Tx.wp G A post exc (modify miss dup k id f) ws s := by
  rw [modify, Tx.wp_exec]
  intro s' hs hA
  cases hg : (view ws s').get k id with
  | none => simpa using hm s' hs hA hg
  | some r =>
    cases hr : f r with
    | error e => simpa [hr] using hf s' r e hs hA hg hr
    | ok r' =>
      cases hc : (view ws s').clashes k (some r) r' with
      | true => simpa [hr, hc] using hd s' r r' hs hA hg hr hc
      | false => simpa [hr, hc] using hp s' r r' hs hA hg hr hc

theorem wp_modifyIf {post : ℕ → List (Write ρ L) → Rel ρ L → Prop} {p : ρ k → Bool}
    {f : ρ k → Except ε (ρ k)}
    (hp : ∀ s' r r', Stable G ws s s' → A s' → (view ws s').get k id = some r → p r = true →
      f r = .ok r' → (view ws s').clashes k (some r) r' = false →
      post 1 (ws ++ [.put k id (some r) r']) s')
    (h0 : ∀ s', Stable G ws s s' → A s' → (∀ r, (view ws s').get k id = some r → p r = false) →
      post 0 ws s')
    (hf : ∀ s' r e, Stable G ws s s' → A s' → (view ws s').get k id = some r → p r = true →
      f r = .error e → exc e s')
    (hd : ∀ s' r r', Stable G ws s s' → A s' → (view ws s').get k id = some r → p r = true →
      f r = .ok r' → (view ws s').clashes k (some r) r' = true → exc dup s') :
    Tx.wp G A post exc (modifyIf dup k id p f) ws s := by
  rw [modifyIf, Tx.wp_exec]
  intro s' hs hA
  cases hg : (view ws s').get k id with
  | none => simpa using h0 s' hs hA (by simp [hg])
  | some r =>
    cases hpr : p r with
    | false => simpa [hpr] using h0 s' hs hA (by simp [hg, hpr])
    | true =>
      cases hr : f r with
      | error e => simpa [hpr, hr] using hf s' r e hs hA hg hpr hr
      | ok r' =>
        cases hc : (view ws s').clashes k (some r) r' with
        | true => simpa [hpr, hr, hc] using hd s' r r' hs hA hg hpr hr hc
        | false => simpa [hpr, hr, hc] using hp s' r r' hs hA hg hpr hr hc

end Statements

/-! ## What locked rows look like later -/

section Later

variable {G : Guarantee (Rel ρ L)} {ws ws' : List (Write ρ L)} {s s' : Rel ρ L}

/-- A row the transaction has written is, below its first `ws` writes, what it was. -/
theorem get_view_of_stable {k : κ} {id : ℕ} {old : Option (ρ k)} {new : ρ k}
    (h : Stable G (ws ++ ws') s s') (hm : .put k id old new ∈ ws ++ ws') :
    (view ws s').get k id = (view ws s).get k id := by
  have hr : Lock.row k id ∈ held (σ := Rel ρ L) (ws ++ ws') :=
    List.mem_flatMap.mpr ⟨_, hm, List.mem_cons_self⟩
  exact (h.same_view hr).symm

/-- Index entries the transaction has changed are, below its first `ws` writes, what they
were. -/
theorem owns_view_of_stable {k : κ} {id : ℕ} {old : Option (ρ k)} {new : ρ k} {u : υ}
    (h : Stable G (ws ++ ws') s s') (hm : .put k id old new ∈ ws ++ ws')
    (hu : u ∈ changedKeys (L := L) k old new) : (view ws s').Owns u = (view ws s).Owns u := by
  have hr : Lock.key u ∈ held (σ := Rel ρ L) (ws ++ ws') :=
    List.mem_flatMap.mpr ⟨_, hm, List.mem_cons_of_mem _ (List.mem_map.mpr ⟨u, hu, rfl⟩)⟩
  exact (h.same_view hr).1.symm

/-- The log under an index entry of a row the transaction has appended is, below its first `ws`
writes, what it was. -/
theorem logAt_view_of_stable {l : L} {u : υ} (h : Stable G (ws ++ ws') s s')
    (hm : .append l ∈ ws ++ ws') (hu : u ∈ Keyed.logKeys ρ l) :
    (view ws s').logAt u = (view ws s).logAt u := by
  have hr : Lock.key u ∈ held (σ := Rel ρ L) (ws ++ ws') :=
    List.mem_flatMap.mpr ⟨_, hm, List.mem_map.mpr ⟨u, hu, rfl⟩⟩
  exact (h.same_view hr).2.symm

end Later

end Rel

end PatronLoyalty.Txn
