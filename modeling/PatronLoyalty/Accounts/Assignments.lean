import PatronLoyalty.Accounts.Impersonation
import PatronLoyalty.Accounts.Members

/-!
# Assignments of roles

What the parts of `invite` and `update` that write assignments do to those of one user in one
organisation. `WellAssigned` tells what these are to look like: managers, staff and viewers have branches,
nobody has two roles, and owners and admins have one assignment. Branches leave a user well assigned
(`gives_changeBranches`), and a role alone does under a condition (`gives_changeRole`).
-/

namespace PatronLoyalty.Accounts

open Txn
open Auth (SystemRole normalizeSystemRoleName)
open Loyalty (Id)

variable {s s' a b c m m' : Db} {orgId userId actorUserId : Id} {name : String}
  {branchId : Option Id} {N i id org : Id} {r : RoleAssignment} {role : Role} {u : Unit}
  {branchIds : List Id}

/-! ## Assignments of an organisation -/

structure Assigned (s : Db) (orgId id : Id) (r : RoleAssignment) (role : Role) : Prop where
  live : Live s .roleAssignment id r
  found : s.get .role r.roleId = some role
  org : role.orgId = orgId

/-- `SYSTEM_ROLES.MANAGER`, `STAFF` and `VIEWER`. -/
def branchRoles : List String := ["manager", "staff", "viewer"]

/-- **What the assignments of a user are to look like.** -/
structure WellAssigned (s : Db) (orgId userId : Id) : Prop where
  placed {i : Id} {r : RoleAssignment} {role : Role} : Assigned s orgId i r role →
    r.userId = userId → role.name ∈ branchRoles → r.branchId ≠ none
  uniform {i j : Id} {r r' : RoleAssignment} {role role' : Role} : Assigned s orgId i r role →
    Assigned s orgId j r' role' → r.userId = userId → r'.userId = userId → r.roleId = r'.roleId
  single {i j : Id} {r r' : RoleAssignment} {role role' : Role} : Assigned s orgId i r role →
    Assigned s orgId j r' role' → r.userId = userId → r'.userId = userId →
    isGlobalRole role.name = true → j = i

def AppliesEverywhere (branchId : Option Id) : Prop :=
  ∀ requested : String, requested ≠ "" →
    Auth.isAssignmentApplicable (branchId.map idText) (some requested) none = true

theorem isGlobalRole_iff :
    isGlobalRole name = true ↔ name = "owner" ∨ name = "admin" := by
  simp [isGlobalRole]

theorem not_isGlobalRole (h : name ∈ branchRoles) : isGlobalRole name = false := by
  rw [Bool.eq_false_iff, Ne, isGlobalRole_iff]
  simp only [branchRoles, List.mem_cons, List.not_mem_nil, or_false] at h
  rcases h with rfl | rfl | rfl <;> decide +kernel

theorem requiresAssignedBranches (h : name ∈ branchRoles) :
    roleRequiresAssignedBranches name = true := by
  simp only [branchRoles, List.mem_cons, List.not_mem_nil, or_false] at h
  rcases h with rfl | rfl | rfl <;> decide +kernel

theorem not_appliesEverywhere (h : branchId ≠ none) :
    ¬ AppliesEverywhere branchId := by
  obtain ⟨b, rfl⟩ := Option.ne_none_iff_exists'.mp h
  intro hall
  have hne : idText b ++ "x" ≠ "" := by simp [String.append_eq_empty_iff]
  have happ := hall _ hne
  rw [Auth.isAssignmentApplicable, Option.map_some, Loyalty.truthy_some (idText_ne_empty b)] at happ
  simp only [Loyalty.truthy_some hne, Option.all_some, beq_iff_eq] at happ
  simpa using congrArg String.length happ

/-! ## What a request leaves of the others -/

/-- **The assignments of one user** in one organisation are changed, and nothing else of what the
assignments of an organisation are read from. -/
structure Reassigned (orgId userId : Id) (a b : Db) : Prop where
  role (id : Id) : b.get .role id = a.get .role id
  branch (id : Id) : b.get .branch id = a.get .branch id
  user {id : Id} : a.get .user id ≠ none → b.get .user id ≠ none
  others {org id : Id} {r : RoleAssignment} {role : Role} : ¬ (org = orgId ∧ r.userId = userId) →
    (Assigned b org id r role ↔ Assigned a org id r role)

theorem Reassigned.refl (a : Db) : Reassigned orgId userId a a :=
  ⟨fun _ => rfl, fun _ => rfl, id, fun _ => Iff.rfl⟩

theorem Reassigned.trans (h : Reassigned orgId userId a b) (h' : Reassigned orgId userId b c) :
    Reassigned orgId userId a c where
  role id := (h'.role id).trans (h.role id)
  branch id := (h'.branch id).trans (h.branch id)
  user hu := h'.user (h.user hu)
  others ho := (h'.others ho).trans (h.others ho)

theorem assigned_congr (ha : ∀ i, b.get .roleAssignment i = a.get .roleAssignment i)
    (hr : ∀ i, b.get .role i = a.get .role i) :
    Assigned b org id r role ↔ Assigned a org id r role := by
  constructor
  · exact fun h => ⟨⟨(ha id).symm.trans h.live.1, h.live.2⟩, (hr _).symm.trans h.found, h.org⟩
  · exact fun h => ⟨⟨(ha id).trans h.live.1, h.live.2⟩, (hr _).trans h.found, h.org⟩

/-- Rows of the other tables, without losing a user. -/
theorem reassigned_of_same (ha : ∀ i, b.get .roleAssignment i = a.get .roleAssignment i)
    (hr : ∀ i, b.get .role i = a.get .role i) (hb : ∀ i, b.get .branch i = a.get .branch i)
    (hu : ∀ i, a.get .user i ≠ none → b.get .user i ≠ none) : Reassigned orgId userId a b :=
  ⟨hr, hb, fun {id} h => hu id h, fun _ => assigned_congr ha hr⟩

theorem reassigned_of_written (hf : ∀ k, k ≠ .roleAssignment → ∀ i, b.get k i = a.get k i)
    (h : ∀ {org id : Id} {r : RoleAssignment} {role : Role}, ¬ (org = orgId ∧ r.userId = userId) →
      (Assigned b org id r role ↔ Assigned a org id r role)) : Reassigned orgId userId a b :=
  ⟨hf .role (by simp), hf .branch (by simp), fun {id} hu => by rwa [hf .user (by simp)], h⟩

theorem assigned_set {v : RoleAssignment} (hd : v.deleted = false) :
    Assigned (a.set .roleAssignment id v) org i r role ↔
      i ≠ id ∧ Assigned a org i r role ∨ i = id ∧ r = v ∧ a.get .role v.roleId = some role ∧
        role.orgId = org := by
  have hrole : ∀ j, (a.set .roleAssignment id v).get .role j = a.get .role j :=
    fun j => Rel.get_set_ne (by simp)
  by_cases hi : i = id
  · subst hi
    constructor
    · intro h
      obtain rfl : v = r := Option.some.inj ((Rel.get_set_self a _ _ _).symm.trans h.live.1)
      exact Or.inr ⟨rfl, rfl, (hrole _).symm.trans h.found, h.org⟩
    · rintro (h | ⟨-, rfl, hN, ho⟩)
      · exact absurd rfl h.1
      · exact ⟨⟨Rel.get_set_self _ _ _ _, hd⟩, (hrole _).trans hN, ho⟩
  · have hrow : (a.set .roleAssignment id v).get .roleAssignment i = a.get .roleAssignment i :=
      Rel.get_set_ne (by simp [hi])
    constructor
    · intro h
      exact Or.inl ⟨hi, ⟨hrow.symm.trans h.live.1, h.live.2⟩, (hrole _).symm.trans h.found, h.org⟩
    · rintro (⟨-, h⟩ | ⟨rfl, -⟩)
      · exact ⟨⟨hrow.trans h.live.1, h.live.2⟩, (hrole _).trans h.found, h.org⟩
      · exact absurd rfl hi

/-- An assignment of the user, of one of the organisation's roles, is written over one of the same. -/
theorem reassigned_set {r' : RoleAssignment} (hd : r'.deleted = false)
    (hr : a.get .role r'.roleId = some role) (ho : role.orgId = orgId) (hu : r'.userId = userId)
    (hid : ∀ r, a.get .roleAssignment id = some r → gone .roleAssignment r = false →
      r.userId = userId ∧ ∃ x, a.get .role r.roleId = some x ∧ x.orgId = orgId) :
    Reassigned orgId userId a (a.set .roleAssignment id r') := by
  refine reassigned_of_written (fun k hk i => Rel.get_set_ne (by simp [hk])) fun {org i r x} hne => ?_
  rw [assigned_set hd]
  constructor
  · rintro (⟨-, h⟩ | ⟨-, rfl, hx, hxo⟩)
    · exact h
    · obtain rfl := Option.some.inj (hr.symm.trans hx)
      exact absurd ⟨hxo.symm.trans ho, hu⟩ hne
  · intro h
    refine Or.inl ⟨?_, h⟩
    rintro rfl
    obtain ⟨hru, y, hy, hyo⟩ := hid r h.live.1 h.live.2
    obtain rfl := Option.some.inj (hy.symm.trans h.found)
    exact hne ⟨h.org.symm.trans hyo, hru⟩

theorem assigned_create (hid : a.get .roleAssignment id = none) :
    Assigned (a.set .roleAssignment id { userId, roleId := N, branchId }) org i r role ↔
      Assigned a org i r role ∨ i = id ∧ r = { userId, roleId := N, branchId } ∧
        a.get .role N = some role ∧ role.orgId = org := by
  rw [assigned_set rfl]
  refine or_congr_left ⟨And.right, fun h => ⟨?_, h⟩⟩
  rintro rfl
  exact absurd h.live.1 (by simp [hid])

theorem reassigned_create (hN : a.get .role N = some role) (ho : role.orgId = orgId)
    (h : (create .roleAssignment { userId, roleId := N, branchId }).gives a id b) :
    Reassigned orgId userId a b := by
  obtain ⟨hid, -, rfl⟩ := gives_create.mp h
  exact reassigned_set rfl hN ho rfl fun r hr => by simp [hid] at hr

theorem assigned_delete {q : Id → RoleAssignment → Bool} {n : ℕ}
    (h : (updateMany .roleAssignment q fun r => { r with deleted := true }).gives a n b) :
    Assigned b org i r role ↔ Assigned a org i r role ∧ q i r = false := by
  obtain ⟨hrow, hframe⟩ := gives_updateMany (fun r => by simp [uniqueKeys]) h
  have hrole : ∀ j, b.get .role j = a.get .role j := fun j => hframe .role j (by simp)
  constructor
  · intro h
    have hr := h.live.1
    rw [hrow] at hr
    obtain ⟨r0, hr0, he⟩ := Option.map_eq_some_iff.mp hr
    split at he
    · rw [← he] at h
      exact absurd h.live.2 (by simp [gone])
    · rename_i hq
      subst he
      refine ⟨⟨⟨hr0, h.live.2⟩, (hrole _).symm.trans h.found, h.org⟩, ?_⟩
      simpa [h.live.2] using hq
  · rintro ⟨h, hq⟩
    refine ⟨⟨?_, h.live.2⟩, (hrole _).trans h.found, h.org⟩
    rw [hrow, h.live.1]
    simp [hq]

theorem contains_roles (h : Assigned a org i r role) :
    ((seen .role (fun _ (x : Role) => x.orgId == orgId) a).map (·.1)).contains r.roleId = true ↔
      org = orgId := by
  rw [List.contains_iff_mem, List.mem_map]
  constructor
  · rintro ⟨⟨j, x⟩, hx, hj⟩
    obtain ⟨hlive, ho⟩ := mem_seen.mp hx
    obtain rfl : j = r.roleId := hj
    obtain rfl : x = role := Option.some.inj (hlive.1.symm.trans h.found)
    exact h.org.symm.trans (beq_iff_eq.mp ho)
  · rintro rfl
    exact ⟨(r.roleId, role), mem_seen.mpr ⟨⟨h.found, rfl⟩, beq_iff_eq.mpr h.org⟩, rfl⟩

theorem gives_deleted {q : Id → RoleAssignment → Bool} {K : Id → Prop} {n : ℕ}
    (h : (updateMany .roleAssignment q fun r => { r with deleted := true }).gives a n b)
    (hq : ∀ i r, q i r = true ↔ r.userId = userId ∧ K i ∧
      ((seen .role (fun _ (x : Role) => x.orgId == orgId) a).map (·.1)).contains r.roleId = true) :
    Reassigned orgId userId a b ∧
      ∀ {i : Id} {r : RoleAssignment} {role : Role}, Assigned b orgId i r role →
        Assigned a orgId i r role ∧ (r.userId = userId → ¬ K i) := by
  refine ⟨reassigned_of_written (fun k hk i => (gives_updateMany (fun r => by simp [uniqueKeys])
    h).2 k i hk) fun {org i r role} hne => ?_, fun {i r role} hb => ?_⟩
  · rw [assigned_delete h]
    refine ⟨And.left, fun ha => ⟨ha, ?_⟩⟩
    rw [← Bool.not_eq_true, hq, contains_roles ha]
    rintro ⟨hu, -, ho⟩
    exact hne ⟨ho, hu⟩
  · obtain ⟨ha, hn⟩ := (assigned_delete h).mp hb
    rw [← Bool.not_eq_true, hq, contains_roles ha] at hn
    exact ⟨ha, fun hu hK => hn ⟨hu, hK, rfl⟩⟩

theorem gives_deleteAssignments (h : (deleteAssignments orgId userId).gives a u b) :
    Reassigned orgId userId a b ∧
      ∀ {i : Id} {r : RoleAssignment} {role : Role}, Assigned b orgId i r role → r.userId ≠ userId := by
  obtain ⟨roles, m, hroles, h⟩ := h.seq
  obtain ⟨rfl, hm⟩ := gives_findMany.mp hroles
  rw [hm] at h
  obtain ⟨n, m', hdel, -, rfl⟩ := h.seq
  obtain ⟨hre, hall⟩ := gives_deleted (K := fun _ => True) hdel fun i r => by
    rw [Bool.and_eq_true, beq_iff_eq, true_and]
  exact ⟨hre, fun hb hu => (hall hb).2 hu trivial⟩

theorem gives_deleteOtherAssignments {keep : Id}
    (h : (deleteOtherAssignments orgId userId keep).gives a u b) :
    Reassigned orgId userId a b ∧ ∀ {i : Id} {r : RoleAssignment} {role : Role},
      Assigned b orgId i r role → Assigned a orgId i r role ∧ (r.userId = userId → i = keep) := by
  obtain ⟨roles, m, hroles, h⟩ := h.seq
  obtain ⟨rfl, hm⟩ := gives_findMany.mp hroles
  rw [hm] at h
  obtain ⟨n, m', hdel, -, rfl⟩ := h.seq
  obtain ⟨hre, hall⟩ := gives_deleted (K := fun i => i ≠ keep) hdel fun i r => by
    rw [Bool.and_eq_true, Bool.and_eq_true, beq_iff_eq, bne_iff_ne, and_assoc]
  exact ⟨hre, fun hb => ⟨(hall hb).1, fun hu => not_not.mp ((hall hb).2 hu)⟩⟩

/-! ## assignRole -/

theorem gives_createAssignments (ho : role.orgId = orgId) :
    ∀ {branchIds : List Id} {a : Db}, a.get .role N = some role →
      (createAssignments userId N branchIds).gives a u b → Reassigned orgId userId a b ∧
        ∀ {i : Id} {r : RoleAssignment} {x : Role}, Assigned b orgId i r x → r.userId = userId →
          Assigned a orgId i r x ∨ r.roleId = N ∧ r.branchId ≠ none := by
  intro branchIds
  induction branchIds with
  | nil =>
    rintro a hN ⟨-, rfl⟩
    exact ⟨.refl _, fun h _ => Or.inl h⟩
  | cons branchId branchIds ih =>
    intro a hN h
    obtain ⟨id, m, hcreate, h⟩ := h.seq
    have hre := reassigned_create hN ho hcreate
    obtain ⟨hre', hnew⟩ := ih ((hre.role N).trans hN) h
    refine ⟨hre.trans hre', fun {i r x} hb hu => ?_⟩
    rcases hnew hb hu with hm | hm
    · obtain ⟨hid, -, rfl⟩ := gives_create.mp hcreate
      rcases (assigned_create hid).mp hm with ha | ⟨-, rfl, -⟩
      · exact Or.inl ha
      · exact Or.inr ⟨rfl, by simp⟩
    · exact Or.inr hm

/-- **The assignments of a user without any.** -/
theorem gives_assignRole (hN : a.get .role N = some role) (ho : role.orgId = orgId)
    (h : (assignRole userId N role.name branchIds).gives a u b) :
    Reassigned orgId userId a b ∧ ((∀ i r x, Assigned a orgId i r x → r.userId ≠ userId) →
      (role.name ∈ branchRoles → branchIds ≠ []) → WellAssigned b orgId userId) := by
  unfold assignRole at h
  split at h
  · rename_i hone
    obtain ⟨id, _, hcreate, -, rfl⟩ := h.seq
    refine ⟨reassigned_create hN ho hcreate, fun hnone hbranch => ?_⟩
    obtain ⟨hid, -, rfl⟩ := gives_create.mp hcreate
    have hall : ∀ {i r x}, Assigned (a.set .roleAssignment id { userId, roleId := N }) orgId i r x →
        r.userId = userId → i = id ∧ r = { userId, roleId := N } ∧ x = role := by
      intro i r x hb hu
      rcases (assigned_create hid).mp hb with ha | ⟨hi, rfl, hx, -⟩
      · exact absurd hu (hnone _ _ _ ha)
      · exact ⟨hi, rfl, Option.some.inj (hx.symm.trans hN)⟩
    refine ⟨fun {i r x} hb hu hx => ?_, fun hb hb' hu hu' => ?_, fun hb hb' hu hu' _ => ?_⟩
    · obtain ⟨-, -, rfl⟩ := hall hb hu
      have hg := not_isGlobalRole hx
      rw [Bool.eq_false_iff, Ne, isGlobalRole_iff, not_or] at hg
      rcases hone with h | h | h
      · exact absurd h hg.1
      · exact absurd h hg.2
      · exact absurd h (hbranch hx)
    · rw [(hall hb hu).2.1, (hall hb' hu').2.1]
    · rw [(hall hb hu).1, (hall hb' hu').1]
  · rename_i hone
    obtain ⟨hre, hnew⟩ := gives_createAssignments ho hN h
    refine ⟨hre, fun hnone _ => ?_⟩
    have hall : ∀ {i r x}, Assigned b orgId i r x → r.userId = userId →
        r.roleId = N ∧ r.branchId ≠ none :=
      fun hb hu => (hnew hb hu).resolve_left fun ha => hnone _ _ _ ha hu
    refine ⟨fun hb hu _ => (hall hb hu).2, fun hb hb' hu hu' => ?_,
      fun {i j r r' x x'} hb _ hu _ hg => ?_⟩
    · rw [(hall hb hu).1, (hall hb' hu').1]
    · have hx := hb.found
      rw [(hall hb hu).1, hre.role, hN] at hx
      cases hx
      exact absurd ((isGlobalRole_iff.mp hg).imp_right Or.inl) hone

/-! ## changeBranches -/

def HasBranch (s : Db) (orgId : Id) : Prop := ∃ i x, s.get .branch i = some x ∧ x.orgId = orgId

theorem mem_assignmentsOf :
    (i, r) ∈ assignmentsOf orgId userId s ↔
      (∃ role, Assigned s orgId i r role) ∧ r.userId = userId := by
  rw [assignmentsOf, List.mem_insertionSort, mem_seen, Bool.and_eq_true, beq_iff_eq, ofOrg,
    Option.any_eq_true]
  constructor
  · rintro ⟨hl, hu, role, hr, ho⟩
    exact ⟨⟨role, hl, hr, beq_iff_eq.mp ho⟩, hu⟩
  · rintro ⟨⟨role, h⟩, hu⟩
    exact ⟨h.live, hu, role, h.found, beq_iff_eq.mpr h.org⟩

theorem gives_validBranchIds {l : List Id}
    (h : (validBranchIds orgId branchIds).gives a l b) : b = a := by
  refine Confined.gives_still (e := Err.recordNotFound) ?_ h
  exact .ite (.pure _) (.bind (.read _) fun _ => .ite (.throw _) (.pure _))

theorem gives_branchesAssigned (h : (branchesAssigned orgId name branchIds).gives a u b) :
    b = a ∧ (HasBranch a orgId → name ∈ branchRoles → branchIds ≠ []) := by
  obtain ⟨branches, m, hbranches, h⟩ := h.seq
  obtain ⟨rfl, hm⟩ := gives_findMany.mp hbranches
  rw [hm] at h
  split at h
  · cases h
  · rename_i hno
    refine ⟨h.2, fun ⟨i, x, hx, ho⟩ hname hnil => hno ⟨?_, requiresAssignedBranches hname, ?_⟩⟩
    · have hm : (i, x) ∈ seen .branch (fun _ (b : Branch) => b.orgId == orgId) a :=
        mem_seen.mpr ⟨⟨hx, rfl⟩, beq_iff_eq.mpr ho⟩
      exact List.isEmpty_eq_false_iff.mpr (List.ne_nil_of_mem hm)
    · rw [hnil, List.isEmpty_nil]

/-- **The part of `update` for branches** leaves a user well assigned, whatever the assignments were. -/
theorem gives_changeBranches (h : (changeBranches orgId userId branchIds).gives a u b) :
    Reassigned orgId userId a b ∧ (HasBranch a orgId → WellAssigned b orgId userId) := by
  obtain ⟨l, m, hvalid, h⟩ := h.seq
  rw [gives_validBranchIds hvalid] at h
  obtain ⟨o, m', hread, h⟩ := h.seq
  obtain ⟨rfl, hm'⟩ := Tx.gives_read.mp hread
  rw [hm'] at h
  cases hc : currentRole orgId userId a with
  | none =>
    rw [hc] at h
    obtain ⟨-, rfl⟩ := h
    have hnone : ∀ {i r x}, Assigned b orgId i r x → r.userId ≠ userId := by
      intro i r x hx hu
      have hm : (i, r) ∈ assignmentsOf orgId userId b := mem_assignmentsOf.mpr ⟨⟨x, hx⟩, hu⟩
      cases hl : assignmentsOf orgId userId b with
      | nil => simp [hl] at hm
      | cons y ys =>
        obtain ⟨⟨role, hy⟩, -⟩ := mem_assignmentsOf.mp (hl ▸ List.mem_cons_self : y ∈ _)
        simp [currentRole, hl, hy.found] at hc
    exact ⟨.refl _, fun _ => ⟨fun hx hu => absurd hu (hnone hx), fun hx _ hu => absurd hu (hnone hx),
      fun hx _ hu => absurd hu (hnone hx)⟩⟩
  | some x =>
    obtain ⟨R, role⟩ := x
    rw [hc] at h
    obtain ⟨y, hhead, hrole⟩ := Option.bind_eq_some_iff.mp hc
    obtain ⟨role', hrole', he⟩ := Option.map_eq_some_iff.mp hrole
    obtain ⟨rfl, rfl⟩ := Prod.mk.inj he
    obtain ⟨⟨x, hy⟩, -⟩ := mem_assignmentsOf.mp (List.mem_of_mem_head? hhead)
    obtain rfl : x = role' := Option.some.inj (hy.found.symm.trans hrole')
    obtain ⟨_, n, hassigned, h⟩ := h.seq
    obtain ⟨hn, hbranch⟩ := gives_branchesAssigned hassigned
    rw [hn] at h
    obtain ⟨_, n', hdelete, h⟩ := h.seq
    obtain ⟨hre, hnone⟩ := gives_deleteAssignments hdelete
    obtain ⟨hre', hwell⟩ := gives_assignRole ((hre.role _).trans hrole') hy.org h
    exact ⟨hre.trans hre', fun hb => hwell (fun _ _ _ hx => hnone hx) (hbranch hb)⟩

/-! ## changeRole -/

def systemRoles (orgId userId : Id) (s : Db) : List SystemRole :=
  (seen .role (fun id (r : Role) => r.orgId == orgId && r.isSystemRole &&
    (seen .roleAssignment (fun _ (a : RoleAssignment) => a.userId == userId) s).any
      fun a => a.2.roleId == id) s).filterMap fun r => normalizeSystemRoleName (some r.2.name)

theorem gives_systemRolesOf {l : List SystemRole} :
    (systemRolesOf orgId userId).gives a l b ↔ l = systemRoles orgId userId a ∧ b = a := by
  constructor
  · intro h
    obtain ⟨_, m, hm, h⟩ := h.seq
    obtain ⟨rfl, rfl⟩ := gives_findMany.mp hm
    obtain ⟨_, n, hn, h⟩ := h.seq
    obtain ⟨rfl, rfl⟩ := gives_findMany.mp hn
    exact h
  · rintro ⟨rfl, rfl⟩
    refine Tx.gives_bind.mpr ⟨_, b, gives_findMany.mpr ⟨rfl, rfl⟩, ?_⟩
    exact Tx.gives_bind.mpr ⟨_, b, gives_findMany.mpr ⟨rfl, rfl⟩, rfl, rfl⟩

def MayAssign (s : Db) (orgId actorUserId : Id) (role : Role) : Prop :=
  canActorAssignRole (highestRole (systemRoles orgId actorUserId s))
    (normalizeSystemRoleName (some role.name)) = true

def MayManage (s : Db) (orgId actorUserId userId : Id) : Prop :=
  canActorManageUserWithRole (highestRole (systemRoles orgId actorUserId s))
    (highestRole (systemRoles orgId userId s)) = true

theorem gives_resolveHighestRole {o : Option SystemRole}
    (h : (resolveHighestRole orgId userId).gives a o b) :
    o = highestRole (systemRoles orgId userId a) ∧ b = a := by
  obtain ⟨l, m, hl, rfl, rfl⟩ := h.seq
  obtain ⟨rfl, rfl⟩ := gives_systemRolesOf.mp hl
  exact ⟨rfl, rfl⟩

theorem gives_findRole {o : Option Role} (h : (findRole orgId N).gives a o b) :
    b = a ∧ ∀ role, o = some role ↔ a.get .role N = some role ∧ role.orgId = orgId := by
  obtain ⟨rfl, rfl⟩ := gives_findById.mp h
  refine ⟨rfl, fun role => ?_⟩
  rw [live_filter, beq_iff_eq]
  exact and_congr_left fun _ => ⟨And.left, fun h => ⟨h, rfl⟩⟩

theorem gives_mayAssignRoleId (h : (mayAssignRoleId orgId actorUserId N).gives a u b)
    (hN : a.get .role N = some role) :
    b = a ∧ MayAssign a orgId actorUserId role := by
  obtain ⟨o, m, ho, h⟩ := h.seq
  obtain ⟨rfl, hrole⟩ := gives_findRole ho
  cases o with
  | none => cases h
  | some x =>
    obtain rfl := Option.some.inj (((hrole x).mp rfl).1.symm.trans hN)
    obtain ⟨r, n, hr, h⟩ := h.seq
    obtain ⟨rfl, rfl⟩ := gives_resolveHighestRole hr
    simp only at h
    split at h
    · rename_i hmay
      exact ⟨h.2, hmay⟩
    · cases h

/-- **When a role alone may be given**: it is an owner's or an admin's, or the user has no assignments of
another role beside the first, and there is a branch for a role of branches. -/
def KeepsBranches (s : Db) (orgId userId N : Id) (role : Role) : Prop :=
  isGlobalRole role.name = true ∨
    (∀ i r x, Assigned s orgId i r x → r.userId = userId → r.roleId = N ∨
      ∀ j r' x', Assigned s orgId j r' x' → r'.userId = userId → j = i) ∧
    (role.name ∈ branchRoles → (∃ i r x, Assigned s orgId i r x ∧ r.userId = userId) ∧
      ∀ i r x, Assigned s orgId i r x → r.userId = userId → r.branchId ≠ none)

theorem wellAssigned_first (hN : a.get .role N = some role)
    (hnone : ∀ i r x, Assigned a orgId i r x → r.userId ≠ userId)
    (hid : a.get .roleAssignment id = none) (hkeeps : KeepsBranches a orgId userId N role) :
    WellAssigned (a.set .roleAssignment id { userId, roleId := N }) orgId userId := by
  have hall : ∀ {i r x}, Assigned (a.set .roleAssignment id { userId, roleId := N }) orgId i r x →
      r.userId = userId → i = id ∧ r = { userId, roleId := N } ∧ x = role := by
    intro i r x hb hu
    rcases (assigned_create hid).mp hb with ha | ⟨hi, rfl, hx, -⟩
    · exact absurd hu (hnone _ _ _ ha)
    · exact ⟨hi, rfl, Option.some.inj (hx.symm.trans hN)⟩
  refine ⟨fun {i r x} hb hu hx => ?_, fun hb hb' hu hu' => ?_, fun hb hb' hu hu' _ => ?_⟩
  · obtain ⟨-, -, rfl⟩ := hall hb hu
    rcases hkeeps with hg | ⟨-, hplaced⟩
    · exact absurd ((not_isGlobalRole hx).symm.trans hg) (by simp)
    · obtain ⟨i, r, x, ha, hu⟩ := (hplaced hx).1
      exact absurd hu (hnone _ _ _ ha)
  · rw [(hall hb hu).2.1, (hall hb' hu').2.1]
  · rw [(hall hb hu).1, (hall hb' hu').1]

/-- The first assignment with the new role, and the branch that `update` leaves it. -/
def RoleAssignment.withRole (r : RoleAssignment) (N : Id) (roleName : String) : RoleAssignment :=
  { r with roleId := N, branchId := if isGlobalRole roleName then none else r.branchId }

/-- The first assignment gets a role of branches, or another that is neither an owner's nor an admin's. -/
theorem wellAssigned_primary {p : Id} {r0 : RoleAssignment} {x0 : Role}
    (hN : a.get .role N = some role) (hp : Assigned a orgId p r0 x0) (hpu : r0.userId = userId)
    (hg : isGlobalRole role.name = false) (hkeeps : KeepsBranches a orgId userId N role)
    (hw : WellAssigned a orgId userId) :
    WellAssigned (a.set .roleAssignment p (r0.withRole N role.name)) orgId userId := by
  obtain ⟨hothers, hplaced⟩ := hkeeps.resolve_left (by simp [hg])
  have hall : ∀ {i r x}, Assigned (a.set .roleAssignment p (r0.withRole N role.name)) orgId i r x →
      r.userId = userId → i = p ∧ r = r0.withRole N role.name ∧ x = role ∨
        i ≠ p ∧ Assigned a orgId i r x := by
    intro i r x hb hu
    rcases (assigned_set (v := r0.withRole N role.name) hp.live.2).mp hb with h | ⟨hi, rfl, hx, -⟩
    · exact Or.inr h
    · exact Or.inl ⟨hi, rfl, Option.some.inj (hx.symm.trans hN)⟩
  have hother : ∀ {i r x}, i ≠ p → Assigned a orgId i r x → r.userId = userId → r.roleId = N :=
    fun hi ha hu => (hothers _ _ _ ha hu).resolve_right fun hone => hi (hone _ _ _ hp hpu).symm
  refine ⟨fun {i r x} hb hu hx => ?_, fun {i j r r' x x'} hb hb' hu hu' => ?_,
    fun {i j r r' x x'} hb hb' hu hu' hglobal => ?_⟩
  · rcases hall hb hu with ⟨rfl, rfl, rfl⟩ | ⟨-, ha⟩
    · have hbranch := (hplaced hx).2 _ _ _ hp hpu
      simpa [RoleAssignment.withRole, hg] using hbranch
    · exact hw.placed ha hu hx
  · rcases hall hb hu with ⟨rfl, rfl, rfl⟩ | ⟨hi, ha⟩
    · rcases hall hb' hu' with ⟨rfl, rfl, -⟩ | ⟨hj, ha'⟩
      · rfl
      · exact (hother hj ha' hu').symm
    · rcases hall hb' hu' with ⟨rfl, rfl, -⟩ | ⟨hj, ha'⟩
      · exact hother hi ha hu
      · exact hw.uniform ha ha' hu hu'
  · rcases hall hb hu with ⟨rfl, rfl, rfl⟩ | ⟨hi, ha⟩
    · exact absurd (hg.symm.trans hglobal) (by simp)
    · exact absurd (hw.single ha hp hu hpu hglobal) (Ne.symm hi)

/-- **The part of `update` for a role.** -/
theorem gives_changeRole (h : (changeRole orgId actorUserId userId N).gives a u b) :
    ∃ role, a.get .role N = some role ∧ role.orgId = orgId ∧ MayAssign a orgId actorUserId role ∧
      Reassigned orgId userId a b ∧ (WellAssigned a orgId userId →
        KeepsBranches a orgId userId N role → WellAssigned b orgId userId) := by
  obtain ⟨o, m, ho, h⟩ := h.seq
  obtain ⟨hm, hfind⟩ := gives_findRole ho
  rw [hm] at h
  cases o with
  | none => cases h
  | some role =>
    obtain ⟨hN, horg⟩ := (hfind role).mp rfl
    obtain ⟨_, m', hmay, h⟩ := h.seq
    obtain ⟨hm', hmay⟩ := gives_mayAssignRoleId hmay hN
    rw [hm'] at h
    refine ⟨role, hN, horg, hmay, ?_⟩
    obtain ⟨first, m2, hfirst, h⟩ := h.seq
    obtain ⟨rfl, hm2⟩ := Tx.gives_read.mp hfirst
    rw [hm2] at h
    cases hl : assignmentsOf orgId userId a with
    | nil =>
      rw [hl] at h
      obtain ⟨id, m3, hcreate, -, rfl⟩ := h.seq
      refine ⟨reassigned_create hN horg hcreate, fun _ hkeeps => ?_⟩
      obtain ⟨hid, -, rfl⟩ := gives_create.mp hcreate
      refine wellAssigned_first hN (fun i r x hx hu => ?_) hid hkeeps
      have hmem : (i, r) ∈ assignmentsOf orgId userId a := mem_assignmentsOf.mpr ⟨⟨x, hx⟩, hu⟩
      simp [hl] at hmem
    | cons y ys =>
      rw [hl] at h
      obtain ⟨p, r0⟩ := y
      obtain ⟨⟨x0, hp⟩, hpu⟩ := mem_assignmentsOf.mp (hl ▸ List.mem_cons_self : (p, r0) ∈ _)
      obtain ⟨r1, m3, hupdate, hrest⟩ := h.seq
      obtain ⟨r', hlive, -, rfl, -, rfl⟩ := gives_update.mp hupdate
      obtain rfl : r' = r0 := Option.some.inj (hlive.1.symm.trans hp.live.1)
      have hre : Reassigned orgId userId a
          (a.set .roleAssignment p (r'.withRole N role.name)) := by
        refine reassigned_set hp.live.2 hN horg hpu fun r hr _ => ?_
        obtain rfl := Option.some.inj (hr.symm.trans hp.live.1)
        exact ⟨hpu, x0, hp.found, hp.org⟩
      cases hg : isGlobalRole role.name with
      | false =>
        have hb : b = a.set .roleAssignment p (r'.withRole N role.name) := by
          rw [if_neg (by simp [hg])] at hrest
          exact hrest.2
        rw [hb]
        exact ⟨hre, fun hw hkeeps => wellAssigned_primary hN hp hpu hg hkeeps hw⟩
      | true =>
        rw [if_pos hg] at hrest
        obtain ⟨hre', hall⟩ := gives_deleteOtherAssignments hrest
        refine ⟨hre.trans hre', fun _ _ => ⟨fun {i r x} hb hu hx => ?_, fun hb hb' hu hu' => ?_,
          fun hb hb' hu hu' _ => ((hall hb').2 hu').trans ((hall hb).2 hu).symm⟩⟩
        · obtain ⟨hb, hi⟩ := hall hb
          obtain rfl := hi hu
          rcases (assigned_set (v := r'.withRole N role.name) hp.live.2).mp hb with
            ⟨hne, -⟩ | ⟨-, -, hx', -⟩
          · exact absurd rfl hne
          · obtain rfl := Option.some.inj (hx'.symm.trans hN)
            exact absurd ((not_isGlobalRole hx).symm.trans hg) (by simp)
        · obtain rfl := ((hall hb).2 hu).trans ((hall hb').2 hu').symm
          rw [Option.some.inj (hb.live.1.symm.trans hb'.live.1)]

end PatronLoyalty.Accounts
