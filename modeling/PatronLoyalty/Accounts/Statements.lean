import PatronLoyalty.Accounts.Users
import PatronLoyalty.Txn.InTurn

/-!
# What the statements of the account services do

A row is `Live` when queries see it. What a body that is a single statement gives, and the steps in which
it changes the store.
-/

namespace PatronLoyalty.Accounts

open Txn
open Txn.Rel (Wrote)
open Loyalty (Id)

/-! ## Text -/

theorem toLower_toLower (c : Char) : c.toLower.toLower = c.toLower := by
  unfold Char.toLower
  split
  · rename_i h
    split
    · rename_i h'
      exfalso
      revert h'
      simp only [ge_iff_le, UInt32.le_iff_toNat_le] at h ⊢
      simp at h ⊢
      omega
    · rfl
  · rfl

theorem lower_lower (text : String) : text.toLower.toLower = text.toLower := by
  unfold String.toLower
  rw [String.map_map]
  congr 1
  funext c
  exact toLower_toLower c

/-! ## Rows -/

/-- Row `id` is there, and has not been deleted. -/
def Live (s : Db) (k : Kind) (id : Id) (r : Row k) : Prop := s.get k id = some r ∧ gone k r = false

variable {s s' : Db} {k : Kind} {id : Id} {p : Row k → Bool} {r : Row k}

theorem live_filter :
    ((s.get k id).filter fun r => !gone k r && p r) = some r ↔ Live s k id r ∧ p r = true := by
  rw [Option.filter_eq_some_iff]
  simp [Live, and_assoc]

theorem live_any :
    ((s.get k id).filter fun r => !gone k r && anyRow r) = some r ↔ Live s k id r := by
  rw [live_filter]
  simp [anyRow]

theorem mem_seen {p : Id → Row k → Bool} :
    (id, r) ∈ seen k p s ↔ Live s k id r ∧ p id r = true := by
  rw [seen, Rel.mem_rows]
  simp [Live, and_assoc]

/-! ## Statements alone -/

theorem gives_findById {o : Option (Row k)} :
    (findById k id p).gives s o s' ↔ o = ((s.get k id).filter fun r => !gone k r && p r) ∧ s' = s :=
  Tx.gives_read

theorem gives_findUnique {o : Option (Id × Row k)} :
    (findUnique k p).gives s o s' ↔ o = (seen k (fun _ => p) s).head? ∧ s' = s := Tx.gives_read

theorem gives_findMany {p : Id → Row k → Bool} {rows : List (Id × Row k)} :
    (findMany k p).gives s rows s' ↔ rows = seen k p s ∧ s' = s := Tx.gives_read

theorem gives_create :
    (create k r).gives s id s' ↔
      s.get k id = none ∧ s.clashes k none r = false ∧ s' = s.set k id r := by
  simp only [create, Tx.bind_eq, Tx.gives_bind, Tx.gives_input, Rel.gives_insert]
  constructor
  · rintro ⟨n, m, rfl, u, m', ⟨hn, hc, rfl⟩, rfl, rfl⟩
    exact ⟨hn, hc, rfl⟩
  · rintro ⟨hn, hc, rfl⟩
    exact ⟨id, s, rfl, (), _, ⟨hn, hc, rfl⟩, rfl, rfl⟩

theorem gives_update {f : Row k → Row k} {r' : Row k} :
    (update k id p f).gives s r' s' ↔ ∃ r, Live s k id r ∧ p r = true ∧ r' = f r ∧
      s.clashes k (some r) r' = false ∧ s' = s.set k id r' := by
  rw [update, Rel.gives_modify]
  refine exists_congr fun r => ?_
  constructor
  · rintro ⟨hg, hf, hc, hs⟩
    split at hf
    · rename_i hp
      cases hf
      simp only [Bool.and_eq_true, Bool.not_eq_true'] at hp
      exact ⟨⟨hg, hp.1⟩, hp.2, rfl, hc, hs⟩
    · cases hf
  · rintro ⟨⟨hg, hl⟩, hp, rfl, hc, hs⟩
    exact ⟨hg, by simp [hl, hp], hc, hs⟩

theorem gives_updateMany {p : Id → Row k → Bool} {f : Row k → Row k} {n : ℕ}
    (hk : ∀ r, uniqueKeys k (f r) ⊆ uniqueKeys k r) (h : (updateMany k p f).gives s n s') :
    (∀ i, s'.get k i = (s.get k i).map fun r => if !gone k r && p i r then f r else r) ∧
      ∀ k' i, k' ≠ k → s'.get k' i = s.get k' i := by
  have ho := Rel.gives_modifyAll hk h
  exact ⟨ho.get, fun k' i hne => ho.frame fun r _ he => hne (Prod.mk.inj he).1⟩

/-! ## Steps -/

section Steps

variable {C : DbWrite → Bool} {e : Err} {G : Guarantee Db} {E : Db → Db → Prop} {r : Row k}
  {f : Row k → Row k} {P : Db → Db → Prop}

theorem confined_create (h : ∀ id a b, Wrote C k id none r a b → E a b) :
    Confined C e G E (create k r) :=
  .bind .input fun id => .bind (.insert (h id)) fun _ => .pure _

theorem confined_update {p : Row k → Bool}
    (h : ∀ r a b, Live a k id r → p r = true → Wrote C k id (some r) (f r) a b → E a b) :
    Confined C e G E (update k id p f) :=
  .modify fun r r' a b hf hw => by
    split at hf
    · rename_i hp
      cases hf
      simp only [Bool.and_eq_true, Bool.not_eq_true'] at hp
      exact h r a b ⟨hw.2.1, hp.1⟩ hp.2 hw
    · cases hf

theorem confined_updateMany {p : Id → Row k → Bool} (hk : ∀ r, uniqueKeys k (f r) ⊆ uniqueKeys k r)
    (h : ∀ id r a b, Live a k id r → p id r = true → Wrote C k id (some r) (f r) a b → E a b) :
    Confined C e G E (updateMany k p f) :=
  .modifyAll hk fun id r a b hp hw => by
    simp only [Bool.and_eq_true, Bool.not_eq_true'] at hp
    exact h id r a b ⟨hw.2.1, hp.1⟩ hp.2 hw

theorem confined_assignRole {userId roleId : Id} {roleName : String} {branchIds : List Id}
    (h : ∀ branchId id a b, Wrote C .roleAssignment id none { userId, roleId, branchId } a b →
      E a b) : Confined C e G E (assignRole userId roleId roleName branchIds) := by
  have hcs : Confined C e G E (createAssignments userId roleId branchIds) := by
    induction branchIds with
    | nil => exact .pure _
    | cons branchId branchIds ih => exact .bind (confined_create (h _)) fun _ => ih
  exact .ite (.bind (confined_create (h none)) fun _ => .pure _) hcs

theorem triple_create {Q : Id → Db → Db → Prop}
    (h : ∀ id a b, P a b → b.get k id = none → Q id a (b.set k id r)) :
    Triple C e G P (create k r) Q :=
  .bind (.input (Q := fun _ => P) fun _ _ _ hp => hp) fun id =>
    .bind (.insert (Q := fun _ => Q id) fun a b c hp hw => by
      rw [hw.2.2.2]
      exact h id a b hp hw.2.1) fun _ => .pure fun _ _ hq => hq

theorem triple_updateRow {Q : Row k → Db → Db → Prop} {p : Row k → Bool}
    (h : ∀ r a b, P a b → Live b k id r → p r = true → Q (f r) a (b.set k id (f r))) :
    Triple C e G P (update k id p f) Q :=
  .modify fun r r' a b c hp hf hw => by
    split at hf
    · rename_i hr
      cases hf
      simp only [Bool.and_eq_true, Bool.not_eq_true'] at hr
      rw [hw.2.2.2]
      exact h r a b hp ⟨hw.2.1, hr.1⟩ hr.2
    · cases hf

theorem triple_setKey {Q : Unit → Db → Db → Prop} (hk : uniqueKeys k r = [])
    (h : ∀ old a b c, P a b → Wrote C k id old r b c → Q () a c) :
    Triple C e G P (setKey k id r) Q := by
  refine .exec fun ws s b ws' hd hq hC => ?_
  cases hq
  have hc : (view ws s).clashes k ((view ws s).get k id) r = false := by
    unfold Rel.clashes
    rw [show Keyed.keys Empty k r = [] from hk]
    rfl
  refine (Did.put hd rfl hc).mono ?_
  rintro a c ⟨m, hp, hw⟩
  exact h _ a m c hp ⟨hC _ List.mem_cons_self, hw⟩

theorem confined_setKey (hk : uniqueKeys k r = [])
    (h : ∀ old a b, Wrote C k id old r a b → E a b) : Confined C e G E (setKey k id r) :=
  fun _ => triple_setKey hk fun old _ b c hp hw => ⟨b, hp, .single (h old b c hw)⟩

end Steps

end PatronLoyalty.Accounts
