import PatronLoyalty.Accounts.Assignments
import PatronLoyalty.Accounts.Tenants

/-!
# Roles that are confined to branches

Managers, staff and viewers work at branches, and their assignments name them; owners and admins have one
assignment, which names none. `invite` sees to it, and so does `update` where it is given branches. Where
it is given a role alone, it changes the role of the first assignment, keeps its branch, and leaves the
user's other assignments.

Headline: **`roles_confined`**. The roles of an organisation with branches stay confined as long as no
such `update` meets other assignments, or brings a role of branches to a user without any.
-/

namespace PatronLoyalty.Accounts

open Txn
open Auth (SystemRole)
open Loyalty (Id)

variable {s s' a b c m m' : Db} {d : Deployment} {orgId orgId' userId actorUserId : Id} {u : User}
  {role : Role}

/-! ## update -/

theorem gives_findUserOrThrow (h : (findUserOrThrow orgId userId).gives a u b) :
    b = a ∧ a.get .user userId = some u := by
  obtain ⟨hu, rfl⟩ := Tx.gives_readOrThrow.mp h
  exact ⟨rfl, (Option.filter_eq_some_iff.mp hu).1⟩

theorem gives_updateProfile {data : MemberUpdate} {u : Unit}
    (h : (updateProfile userId data).gives a u b) :
    (∀ k, k ≠ .user → b.tables k = a.tables k) ∧
      ∀ i, a.get .user i ≠ none → b.get .user i ≠ none := by
  unfold updateProfile at h
  split at h
  · obtain ⟨x, m, hx, -, rfl⟩ := h.seq
    obtain ⟨r, hr, -, rfl, -, rfl⟩ := gives_update.mp hx
    refine ⟨fun k hk => Function.update_of_ne hk _ _, fun i hi => ?_⟩
    by_cases he : i = userId
    · subst he
      rw [Rel.get_set_self]
      simp
    · rwa [Rel.get_set_ne (by simp [he])]
  · obtain ⟨-, rfl⟩ := h
    exact ⟨fun _ _ => rfl, fun _ h => h⟩

theorem get_congr {k : Kind} (h : b.tables k = a.tables k) (i : Id) : b.get k i = a.get k i :=
  congrArg (·.lookup i) h

theorem systemRoles_congr (hr : b.tables .role = a.tables .role)
    (ha : b.tables .roleAssignment = a.tables .roleAssignment) :
    systemRoles orgId userId b = systemRoles orgId userId a := by
  simp only [systemRoles, seen, Rel.rows, hr, ha]

theorem WellAssigned.same (h : WellAssigned a orgId userId)
    (hs : ∀ {i r x}, Assigned b orgId i r x → Assigned a orgId i r x) :
    WellAssigned b orgId userId :=
  ⟨fun hb => h.placed (hs hb), fun hb hb' => h.uniform (hs hb) (hs hb'),
    fun hb hb' => h.single (hs hb) (hs hb')⟩

/-- **When an `update` keeps a user well assigned**: it names branches, or no role, or a role that may be
given alone. -/
def Sound (s : Db) (orgId userId actorUserId : Id) (data : MemberUpdate) : Prop :=
  ∀ N role, data.roleId = some N → data.branchIds = none → s.get .role N = some role →
    role.orgId = orgId → MayAssign s orgId actorUserId role → KeepsBranches s orgId userId N role

theorem gives_whenGiven {α : Type} {o : Option α} {f : α → ATx Unit} {u : Unit}
    (h : (whenGiven o f).gives a u b) :
    o = none ∧ b = a ∨ ∃ x, o = some x ∧ (f x).gives a u b := by
  cases o with
  | none => exact Or.inl ⟨rfl, h.2⟩
  | some x => exact Or.inr ⟨x, rfl, h⟩

theorem WellAssigned.congr (hs : ∀ {i r x}, Assigned b orgId i r x ↔ Assigned a orgId i r x) :
    WellAssigned b orgId userId ↔ WellAssigned a orgId userId :=
  ⟨fun h => h.same hs.mpr, fun h => h.same hs.mp⟩

theorem keepsBranches_congr {N : Id}
    (hs : ∀ {i r x}, Assigned b orgId i r x ↔ Assigned a orgId i r x) :
    KeepsBranches b orgId userId N role ↔ KeepsBranches a orgId userId N role := by
  simp only [KeepsBranches, hs]

/-- **The transaction of `update`.** -/
theorem gives_updateTx {data : MemberUpdate}
    (h : (updateTx orgId userId actorUserId data).gives a u b) :
    Reassigned orgId userId a b ∧ b.get .user userId ≠ none ∧ (HasBranch a orgId →
      WellAssigned a orgId userId → Sound a orgId userId actorUserId data →
        WellAssigned b orgId userId) := by
  obtain ⟨_, m, hprofile, h⟩ := h.seq
  obtain ⟨htables, huser⟩ := gives_updateProfile hprofile
  have hr := htables .role (by simp)
  have ha := htables .roleAssignment (by simp)
  have hre : Reassigned orgId userId a m := reassigned_of_same (get_congr ha) (get_congr hr)
    (get_congr (htables .branch (by simp))) huser
  have hs : ∀ {i r x}, Assigned m orgId i r x ↔ Assigned a orgId i r x :=
    assigned_congr (get_congr ha) (get_congr hr)
  obtain ⟨_, n, hrole, h⟩ := h.seq
  obtain ⟨_, n', hbranches, h⟩ := h.seq
  obtain ⟨rfl, hu⟩ := gives_findUserOrThrow h
  have hn : Reassigned orgId userId m n ∧ (WellAssigned a orgId userId → data.branchIds = none →
      Sound a orgId userId actorUserId data → WellAssigned n orgId userId) := by
    rcases gives_whenGiven hrole with ⟨-, rfl⟩ | ⟨N, hN, hchange⟩
    · exact ⟨.refl _, fun hw _ _ => (WellAssigned.congr hs).mpr hw⟩
    · obtain ⟨role, hget, horg, hmay, hre', hwell⟩ := gives_changeRole hchange
      refine ⟨hre', fun hw hnone hsound => hwell ((WellAssigned.congr hs).mpr hw) ?_⟩
      rw [MayAssign, systemRoles_congr hr ha] at hmay
      exact (keepsBranches_congr hs).mpr (hsound N role hN hnone ((hre.role N).symm.trans hget) horg hmay)
  obtain ⟨hre', hwell⟩ := hn
  rcases gives_whenGiven hbranches with ⟨hnone, rfl⟩ | ⟨branchIds, -, hchange⟩
  · exact ⟨hre.trans hre', by rw [hu]; simp, fun _ hw hsound => hwell hw hnone hsound⟩
  · obtain ⟨hre'', hwell'⟩ := gives_changeBranches hchange
    refine ⟨(hre.trans hre').trans hre'', by rw [hu]; simp, fun ⟨i, x, hx, ho⟩ _ _ =>
      hwell' ⟨i, x, ?_, ho⟩⟩
    rw [hre'.branch, hre.branch, hx]

theorem gives_resolveUserHighestSystemRole {o : Option SystemRole}
    (h : (resolveUserHighestSystemRole orgId userId).gives a (.ok o) b) :
    o = highestRole (systemRoles orgId userId a) := by
  obtain ⟨l, m, hl, ho⟩ := h.seq
  obtain ⟨rfl, -⟩ := gives_systemRolesOf.mp (Call.gives_withTx_ok.mp hl)
  exact Except.ok.inj ho.1

theorem gives_assertActorMayManageTargetUser {u : Unit}
    (h : (assertActorMayManageTargetUser orgId actorUserId userId).gives a (.ok u) b) :
    MayManage a orgId actorUserId userId := by
  obtain ⟨actor, m, hactor, h1⟩ := h.seq
  have hm := (walks_resolveUserHighestSystemRole _ _).still hactor
  obtain ⟨target, m', htarget, h2⟩ := h1.seq
  have ha := gives_resolveUserHighestSystemRole hactor
  have ht := gives_resolveUserHighestSystemRole htarget
  rw [hm] at ht
  split at h2
  · rename_i hmay
    rwa [ha, ht] at hmay
  · exact absurd h2 Call.not_gives_throw

theorem gives_getById (h : (getById orgId userId).gives a (.ok u) b) :
    Live a .user userId u ∧ u.orgId = orgId := by
  obtain ⟨o, m, ho, h1⟩ := h.seq
  obtain ⟨rfl, -⟩ := gives_findById.mp (Call.gives_withTx_ok.mp ho)
  split at h1
  · rename_i x hx
    obtain rfl := Except.ok.inj h1.1
    exact ⟨(live_filter.mp hx).1, beq_iff_eq.mp (live_filter.mp hx).2⟩
  · exact absurd h1 Call.not_gives_throw

/-- The checks of `update` let the request pass. -/
structure Admits (s : Db) (orgId userId actorUserId : Id) (data : MemberUpdate) : Prop where
  member : ∃ u, Live s .user userId u ∧ u.orgId = orgId
  password : data.namesPassword = false
  profile : ¬ (actorUserId = userId ∧ data.hasScalarUpdates = true)
  manage : MayManage s orgId actorUserId userId

/-- **Every user of the organisation is well assigned**, and every assignment is somebody's. -/
structure Kept (orgId : Id) (s : Db) : Prop where
  branch : HasBranch s orgId
  user {i : Id} {r : RoleAssignment} {role : Role} : Assigned s orgId i r role →
    s.get .user r.userId ≠ none
  well (userId : Id) : WellAssigned s orgId userId

/-- **What a request leaves**: the store, or one in which one user of the organisation has other
assignments. They are as they should be under `P`. -/
def Reassigns (orgId : Id) (P : Prop) (s s' : Db) : Prop :=
  s' = s ∨ ∃ userId, Reassigned orgId userId s s' ∧ s'.get .user userId ≠ none ∧
    (P → WellAssigned s' orgId userId)

/-- **One request**, of the organisation or another. -/
theorem Kept.leaves {P : Prop} (h : Kept orgId s) (hl : Reassigns orgId' P s s')
    (hP : orgId' = orgId → P) : Kept orgId s' := by
  rcases hl with rfl | ⟨userId, hre, hget, hwell⟩
  · exact h
  obtain ⟨i, x, hx, ho⟩ := h.branch
  refine ⟨⟨i, x, (hre.branch i).trans hx, ho⟩, fun {i r role} hr => ?_, fun u => ?_⟩
  · by_cases hu : orgId = orgId' ∧ r.userId = userId
    · rwa [hu.2]
    · exact hre.user (h.user ((hre.others hu).mp hr))
  · by_cases hu : orgId' = orgId ∧ u = userId
    · obtain ⟨rfl, rfl⟩ := hu
      exact hwell (hP rfl)
    · have hsame : ∀ {i r x}, r.userId = u → Assigned s' orgId i r x → Assigned s orgId i r x :=
        fun hr => (hre.others fun ho => hu ⟨ho.1.symm, hr.symm.trans ho.2⟩).mp
      have hw := h.well u
      exact ⟨fun hb hu => hw.placed (hsame hu hb) hu,
        fun hb hb' hu hu' => hw.uniform (hsame hu hb) (hsame hu' hb') hu hu',
        fun hb hb' hu hu' => hw.single (hsame hu hb) (hsame hu' hb') hu hu'⟩

theorem keeps_updateMember (data : MemberUpdate) :
    (updateMember orgId userId actorUserId data).Keeps
      (Reassigns orgId (Kept orgId s ∧ (Admits s orgId userId actorUserId data →
        Sound s orgId userId actorUserId data)) s)
      (fun _ => Reassigns orgId (Kept orgId s ∧ (Admits s orgId userId actorUserId data →
        Sound s orgId userId actorUserId data)) s) s := by
  unfold updateMember
  refine .found_bind (Or.inl rfl) (walks_getById _ _) (fun u hu => ?_) fun _ => Or.inl rfl
  split
  · exact .throw (Or.inl rfl) (Or.inl rfl)
  rename_i hpassword
  split
  · exact .throw (Or.inl rfl) (Or.inl rfl)
  rename_i hprofile
  split
  · refine .found_bind (Or.inl rfl) (walks_assertActorMayManageTargetUser _ _ _) (fun _ hmay => ?_)
      fun _ => Or.inl rfl
    have hadmits : Admits s orgId userId actorUserId data :=
      ⟨⟨u, gives_getById hu⟩, Bool.eq_false_iff.mpr hpassword, hprofile,
        gives_assertActorMayManageTargetUser hmay⟩
    have hleaves : ∀ u s', (updateTx orgId userId actorUserId data).gives s u s' →
        Reassigns orgId (Kept orgId s ∧ (Admits s orgId userId actorUserId data →
          Sound s orgId userId actorUserId data)) s s' := by
      intro u s' h
      obtain ⟨hre, hget, hwell⟩ := gives_updateTx h
      exact Or.inr ⟨userId, hre, hget, fun ⟨hk, hs⟩ => hwell hk.branch (hk.well userId) (hs hadmits)⟩
    exact .tx (Or.inl rfl) (fun u s' h => ⟨hleaves u s' h, hleaves u s' h⟩) fun _ => Or.inl rfl
  · exact .read (e := .recordNotFound) (Or.inl rfl) (.readOrThrow _ _) (fun _ _ => Or.inl rfl)
      fun _ => Or.inl rfl

/-! ## invite -/

theorem gives_assertAssignedBranchesIfNeeded {name : String} {branchIds : List Id} {u : Unit}
    (h : (assertAssignedBranchesIfNeeded orgId name branchIds).gives a (.ok u) b) :
    HasBranch a orgId → name ∈ branchRoles → branchIds ≠ [] := by
  obtain ⟨branches, m, hbranches, h⟩ := h.seq
  obtain ⟨rfl, -⟩ := gives_findMany.mp (Call.gives_withTx_ok.mp hbranches)
  split at h
  · exact absurd h Call.not_gives_throw
  · rename_i hno
    refine fun ⟨i, x, hx, ho⟩ hname hnil => hno ⟨?_, requiresAssignedBranches hname, ?_⟩
    · have hm : (i, x) ∈ seen .branch (fun _ (b : Branch) => b.orgId == orgId) a :=
        mem_seen.mpr ⟨⟨hx, rfl⟩, beq_iff_eq.mpr ho⟩
      exact List.isEmpty_eq_false_iff.mpr (List.ne_nil_of_mem hm)
    · rw [hnil, List.isEmpty_nil]

theorem tables_accountForInvite {emailNorm : String} {hash : PasswordHash} {x : Id × PasswordHash}
    (h : (accountForInvite emailNorm hash).gives a x b) :
    ∀ k, k ≠ .account → b.tables k = a.tables k := by
  obtain ⟨o, m, ho, h⟩ := h.seq
  obtain ⟨-, rfl⟩ := gives_findUnique.mp ho
  cases o with
  | some r =>
    obtain ⟨-, rfl⟩ := h
    exact fun _ _ => rfl
  | none =>
    obtain ⟨id, n, hid, -, rfl⟩ := h.seq
    obtain ⟨-, -, rfl⟩ := gives_create.mp hid
    exact fun k hk => Function.update_of_ne hk _ _

theorem reassigned_newUser {uid : Id} (htables : ∀ k, k ≠ .account → b.tables k = a.tables k)
    (hfree : b.get .user uid = none) : Reassigned orgId uid a (b.set .user uid u) := by
  refine reassigned_of_same (fun i => ?_) (fun i => ?_) (fun i => ?_) fun i hi => ?_
  · exact (Rel.get_set_ne (by simp)).trans (get_congr (htables .roleAssignment (by simp)) i)
  · exact (Rel.get_set_ne (by simp)).trans (get_congr (htables .role (by simp)) i)
  · exact (Rel.get_set_ne (by simp)).trans (get_congr (htables .branch (by simp)) i)
  · have huser := get_congr (htables .user (by simp)) i
    have hne : i ≠ uid := by
      rintro rfl
      exact hi (huser.symm.trans hfree)
    rwa [Rel.get_set_ne (by simp [hne]), huser]

/-- **The transaction of an invitation.** -/
theorem gives_inviteTx_leaves {emailNorm : String} {hash : PasswordHash} {N uid : Id}
    {branchIds : List Id} (hN : a.get .role N = some role) (ho : role.orgId = orgId)
    (hb : HasBranch a orgId → role.name ∈ branchRoles → branchIds ≠ [])
    (h : (inviteTx orgId emailNorm hash N role.name branchIds).gives a uid b) :
    Reassigns orgId (Kept orgId a) a b := by
  obtain ⟨acc, m, hacc, h⟩ := h.seq
  have htables := tables_accountForInvite hacc
  obtain ⟨id, n, huser, h⟩ := h.seq
  obtain ⟨hfree, -, hn⟩ := gives_create.mp huser
  obtain ⟨_, n', hrole, rfl, rfl⟩ := h.seq
  have hre : Reassigned orgId uid a n := hn ▸ reassigned_newUser htables hfree
  obtain ⟨hre', hwell⟩ := gives_assignRole ((hre.role N).trans hN) ho hrole
  refine Or.inr ⟨uid, hre.trans hre', hre'.user (by rw [hn, Rel.get_set_self]; simp), fun hk => ?_⟩
  refine hwell (fun i r x hx hu => ?_) (hb hk.branch)
  have hxa : Assigned a orgId i r x := by
    refine ⟨⟨?_, hx.live.2⟩, (hre.role _).symm.trans hx.found, hx.org⟩
    rw [← get_congr (htables .roleAssignment (by simp)), ← hx.live.1, hn]
    exact (Rel.get_set_ne (by simp)).symm
  refine hk.user hxa ?_
  rw [hu, ← get_congr (htables .user (by simp)), hfree]

theorem keeps_invite_leaves (data : Invitation) :
    (invite orgId actorUserId data).Keeps (Reassigns orgId (Kept orgId s) s)
      (fun _ => Reassigns orgId (Kept orgId s) s) s := by
  have hI : Reassigns orgId (Kept orgId s) s s := Or.inl rfl
  unfold invite
  refine .still_bind hI (walks_assertActorMayAssignRoleId _ _ _) (fun _ => ?_) fun _ => hI
  refine .read_bind (e := .recordNotFound) hI (.findFirst _) (fun existing _ => ?_) fun _ => hI
  split
  · exact .throw hI hI
  refine .still_bind hI (walks_checkSeats _ _) (fun _ => ?_) fun _ => hI
  refine .ofExcept_bind hI (fun _ _ => ?_) fun _ => hI
  refine .read_bind (e := .recordNotFound) hI (.read _) (fun role hrole => ?_) fun _ => hI
  cases role with
  | none => exact .throw hI hI
  | some role =>
    obtain ⟨hN, ho⟩ := ((gives_findRole hrole).2 role).mp rfl
    refine .still_bind hI (walks_validateBranchIds _ _) (fun branchIds => ?_) fun _ => hI
    refine .found_bind hI (walks_assertAssignedBranchesIfNeeded _ _ _) (fun _ hb => ?_) fun _ => hI
    have hleaves : ∀ uid s', (inviteTx orgId data.email.toLower ⟨data.password⟩ data.roleId role.name
        branchIds).gives s uid s' → Reassigns orgId (Kept orgId s) s s' :=
      fun _ _ h => gives_inviteTx_leaves hN ho (gives_assertAssignedBranchesIfNeeded hb) h
    exact .tx hI (fun _ _ h => ⟨hleaves _ _ h, hleaves _ _ h⟩) fun _ => hI

/-! ## Runs -/

/-- An `invite` or an `update`. -/
def MemberRequest.assigns : MemberRequest → Prop
  | .account (.invite ..) | .update .. => True
  | _ => False

/-- **The condition on a step**: no `update` of the organisation that goes through gives a user a role
alone, unless it may be given alone. -/
def BranchSafe (orgId : Id) (s : Db) : MemberRequest → Prop
  | .update org userId actorUserId data => org = orgId →
    Admits s org userId actorUserId data → Sound s org userId actorUserId data
  | _ => True

/-- **One step.** -/
theorem Kept.turn {r : MemberRequest} {o : Option (Except Err Answer)} (h : Kept orgId s)
    (hr : r.assigns) (hsafe : BranchSafe orgId s r) (ht : (r.run d).turn s o s') : Kept orgId s' := by
  cases r with
  | account r =>
    cases r with
    | invite org actorUserId data =>
      exact h.leaves ((keeps_invite_leaves data).turn_map ht) fun ho => ho ▸ h
    | _ => exact hr.elim
  | update org userId actorUserId data =>
    exact h.leaves ((keeps_updateMember data).turn_map ht) fun ho => ⟨ho ▸ h, hsafe ho⟩
  | removeAssignment => exact hr.elim

/-- **Roles of branches are confined to branches**, in an organisation that has one, through every
sequence of invitations and updates in which no role is given alone that may not be: managers, staff and
viewers have branches, no user has two roles, and owners and admins have one assignment; and the guard
takes no assignment of a role of branches to apply to all of them. -/
theorem roles_confined {l : List (MemberRequest × Option (Except Err Answer))} (h : Kept orgId s)
    (hrun : InTurn (MemberRequest.run d) (fun _ m r _ => r.assigns ∧ BranchSafe orgId m r) s l s') :
    (∀ userId, WellAssigned s' orgId userId) ∧
      ∀ i r role, Assigned s' orgId i r role → role.name ∈ branchRoles →
        ¬ AppliesEverywhere r.branchId := by
  have hk : Kept orgId s' := hrun.keeps (I := fun _ m => Kept orgId m) h
    fun _ _ _ _ _ hk hr ht => hk.turn hr.1 hr.2 ht
  exact ⟨hk.well, fun i r role hr hname =>
    not_appliesEverywhere ((hk.well r.userId).placed hr rfl hname)⟩

/-! ## An admin who becomes a manager -/

/-- An organisation with a branch, an owner and an admin. -/
def branchOffice : Db where
  tables
    | .organization => table [(1, { slug := "acme" })]
    | .branch => table [(30, { orgId := 1 })]
    | .user => table [
        (7, { orgId := 1, email := "ada@example.org", passwordHash := ⟨"Admins11"⟩, status := .active }),
        (9, { orgId := 1, email := "owner@example.org", passwordHash := ⟨"Owners11"⟩
              status := .active })]
    | .role => table [(1, { orgId := 1, name := "owner" }), (2, { orgId := 1, name := "admin" }),
        (3, { orgId := 1, name := "manager" })]
    | .roleAssignment => table [(20, { userId := 9, roleId := 1 }), (21, { userId := 7, roleId := 2 })]
    | _ => ∅
  log := []

/-- The owner makes the admin a manager, of these branches. -/
def demotion (branchIds : Option (List Id)) : MemberRequest :=
  .update 1 7 9 { roleId := some 3, branchIds }

def demoted (branchIds : Option (List Id)) : Db :=
  ((demotion branchIds).run {}).eval (inputs 100) 0 branchOffice |>.db

theorem branchOffice_assigned {i : Id} {r : RoleAssignment} (h : Assigned branchOffice 1 i r role) :
    i = 20 ∧ r = { userId := 9, roleId := 1 } ∧ role.name = "owner" ∨
      i = 21 ∧ r = { userId := 7, roleId := 2 } ∧ role.name = "admin" := by
  have hm := AList.mem_lookup_iff.mp h.live.1
  have he : (branchOffice.tables .roleAssignment).entries =
      [⟨20, { userId := 9, roleId := 1 }⟩, ⟨21, { userId := 7, roleId := 2 }⟩] := rfl
  rw [he, List.mem_cons, List.mem_singleton] at hm
  have hrole := h.found
  rcases hm with hm | hm
  · cases hm
    exact Or.inl ⟨rfl, rfl, congrArg Role.name (Option.some.inj hrole).symm⟩
  · cases hm
    exact Or.inr ⟨rfl, rfl, congrArg Role.name (Option.some.inj hrole).symm⟩

theorem kept_branchOffice : Kept 1 branchOffice where
  branch := ⟨30, _, rfl, rfl⟩
  user {i r role} h := by
    rcases branchOffice_assigned h with ⟨-, rfl, -⟩ | ⟨-, rfl, -⟩ <;> decide
  well userId := by
    refine ⟨fun {i r x} h _ hx => ?_, fun {i j r r' x x'} h h' hu hu' => ?_,
      fun {i j r r' x x'} h h' hu hu' _ => ?_⟩
    · rcases branchOffice_assigned h with ⟨-, rfl, hn⟩ | ⟨-, rfl, hn⟩ <;>
        exact absurd hx (by rw [hn]; decide +kernel)
    · rcases branchOffice_assigned h with ⟨rfl, rfl, -⟩ | ⟨rfl, rfl, -⟩ <;>
        rcases branchOffice_assigned h' with ⟨rfl, rfl, -⟩ | ⟨rfl, rfl, -⟩ <;>
          first | rfl | exact absurd (hu.trans hu'.symm) (by decide)
    · rcases branchOffice_assigned h with ⟨rfl, rfl, -⟩ | ⟨rfl, rfl, -⟩ <;>
        rcases branchOffice_assigned h' with ⟨rfl, rfl, -⟩ | ⟨rfl, rfl, -⟩ <;>
          first | rfl | exact absurd (hu.trans hu'.symm) (by decide)

theorem roles_confined_demoted : ∃ i r role, Assigned (demoted (some [30])) 1 i r role ∧
    role.name ∈ branchRoles ∧ ¬ AppliesEverywhere r.branchId := by
  have hrun : InTurn (MemberRequest.run {}) (fun _ m r _ => r.assigns ∧ BranchSafe 1 m r) branchOffice
      _ (demoted (some [30])) :=
    InTurn.eval .nil (inputs 100) (demotion (some [30]))
      ⟨trivial, fun _ _ _ _ _ hnone => by cases hnone⟩
  have ha : Assigned (demoted (some [30])) 1 100 { userId := 7, roleId := 3, branchId := some 30 }
      { orgId := 1, name := "manager" } :=
    ⟨⟨by decide +kernel, rfl⟩, by decide +kernel, rfl⟩
  have hname : "manager" ∈ branchRoles := by decide +kernel
  exact ⟨_, _, _, ha, hname, (roles_confined kept_branchOffice hrun).2 _ _ _ ha hname⟩

/-- **Not every manager** is confined to a branch. -/
theorem exists_unconfined : ¬ ∀ (d : Deployment) (orgId : Id) (s s' : Db)
    (l : List (MemberRequest × Option (Except Err Answer))), Kept orgId s →
      InTurn (MemberRequest.run d) (fun _ _ r _ => r.assigns) s l s' →
      (∀ userId, WellAssigned s' orgId userId) ∧
        ∀ i r role, Assigned s' orgId i r role → role.name ∈ branchRoles →
          ¬ AppliesEverywhere r.branchId := by
  intro hall
  have hrun : InTurn (MemberRequest.run {}) (fun _ _ r _ => r.assigns) branchOffice _ (demoted none) :=
    InTurn.eval .nil (inputs 100) (demotion none) trivial
  have ha : Assigned (demoted none) 1 21 { userId := 7, roleId := 3 }
      { orgId := 1, name := "manager" } := ⟨⟨by decide +kernel, rfl⟩, by decide +kernel, rfl⟩
  have hname : "manager" ∈ branchRoles := by decide +kernel
  exact (hall {} 1 branchOffice (demoted none) _ kept_branchOffice hrun).2 _ _ _ ha hname
    fun _ _ => rfl

end PatronLoyalty.Accounts
