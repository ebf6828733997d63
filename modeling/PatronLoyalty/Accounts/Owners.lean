import PatronLoyalty.Accounts.Assignments

/-!
# The owners of an organisation

`update`, `deactivate`, `delete` and `removeAssignment` compare the actor with the member, and an owner
may do to himself and to another owner what they do to anybody. The last of them alone counts the owners
that are left, and it counts those who may not sign in. A commit of a request concerns one user
(`Concerns`), so that another owner remains one.

Headline: **`owner_remains`**. An organisation with an active owner has one after any run in which no
commit of these requests, other than one that makes its user an owner, concerns the only active owner.
-/

namespace PatronLoyalty.Accounts

open Txn
open Txn.Rel (Wrote)
open Loyalty (Id)

abbrev MemberRun := Config Db DbWrite Err Mark Answer

variable {d : Deployment} {s₀ a b c : Db} {orgId userId actorUserId : Id}
  {requests : List MemberRequest} {id : Id} {r : RoleAssignment}

/-! ## Active owners -/

/-- The user has an assignment of the owner's role of the organisation, among those of `K`. -/
def HasOwnerRole (K : Id → Prop) (s : Db) (orgId userId : Id) : Prop :=
  ∃ i r role, K i ∧ Assigned s orgId i r role ∧ r.userId = userId ∧ role.isOwner = true

/-- **The user is an active owner** of the organisation. -/
def ActiveOwner (s : Db) (orgId userId : Id) : Prop :=
  (∃ u, Live s .user userId u ∧ u.orgId = orgId ∧ u.status = .active) ∧
    HasOwnerRole (fun _ => True) s orgId userId

/-- If the user is an active owner, so is another. -/
def Replaceable (s : Db) (orgId userId : Id) : Prop :=
  ActiveOwner s orgId userId → ∃ other, other ≠ userId ∧ ActiveOwner s orgId other

/-! ## What a request may write -/

/-- **What concerns one user alone**: its row, and its assignments. An assignment stays, as a row, and
stays somebody's. -/
structure Concerns (userId : Id) (a b : Db) : Prop where
  role (id : Id) : b.get .role id = a.get .role id
  user {id : Id} : id ≠ userId → b.get .user id = a.get .user id
  other {id : Id} {r : RoleAssignment} : a.get .roleAssignment id = some r → r.userId ≠ userId →
    b.get .roleAssignment id = some r
  kept {id : Id} {r : RoleAssignment} : a.get .roleAssignment id = some r →
    ∃ r', b.get .roleAssignment id = some r' ∧ r'.userId = r.userId
  new {id : Id} {r : RoleAssignment} : a.get .roleAssignment id = none →
    b.get .roleAssignment id = some r → r.userId = userId

theorem Concerns.refl (a : Db) : Concerns userId a a where
  role _ := rfl
  user _ := rfl
  other h _ := h
  kept h := ⟨_, h, rfl⟩
  new h h' := by rw [h] at h'; cases h'

theorem Concerns.trans (h : Concerns userId a b) (h' : Concerns userId b c) : Concerns userId a c where
  role id := (h'.role id).trans (h.role id)
  user hid := (h'.user hid).trans (h.user hid)
  other hr hu := h'.other (h.other hr hu) hu
  kept hr := by
    obtain ⟨r1, hr1, hu1⟩ := h.kept hr
    obtain ⟨r2, hr2, hu2⟩ := h'.kept hr1
    exact ⟨r2, hr2, hu2.trans hu1⟩
  new {id r} hn hr := by
    cases hb : b.get .roleAssignment id with
    | none => exact h'.new hb hr
    | some r1 =>
      obtain ⟨r2, hr2, hu2⟩ := h'.kept hb
      obtain rfl := Option.some.inj (hr2.symm.trans hr)
      exact hu2.trans (h.new hn hb)

theorem Concerns.walk (h : Relation.ReflTransGen (Concerns userId) a b) : Concerns userId a b := by
  induction h with
  | refl => exact .refl a
  | tail _ h ih => exact ih.trans h

theorem concerns_set {k : Kind} {r : Row k} (hr : k ≠ .role) (ha : k ≠ .roleAssignment)
    (hu : k = .user → id = userId) : Concerns userId a (a.set k id r) where
  role i := Rel.get_set_ne fun he => hr (Prod.mk.inj he).1.symm
  user hid := Rel.get_set_ne fun he => hid ((Prod.mk.inj he).2.trans (hu (Prod.mk.inj he).1.symm))
  other h _ := (Rel.get_set_ne fun he => ha (Prod.mk.inj he).1.symm).trans h
  kept h := ⟨_, (Rel.get_set_ne fun he => ha (Prod.mk.inj he).1.symm).trans h, rfl⟩
  new h h' := by
    rw [Rel.get_set_ne fun he => ha (Prod.mk.inj he).1.symm, h] at h'
    cases h'

theorem concerns_assignment (hr : r.userId = userId)
    (hold : ∀ r0, a.get .roleAssignment id = some r0 → r0.userId = userId) :
    Concerns userId a (a.set .roleAssignment id r) where
  role i := Rel.get_set_ne (by simp)
  user _ := Rel.get_set_ne (by simp)
  other {i r'} h hu := by
    have hne : i ≠ id := by
      rintro rfl
      exact hu (hold r' h)
    rwa [Rel.get_set_ne (by simp [hne])]
  kept {i r'} h := by
    by_cases hi : i = id
    · subst hi
      exact ⟨r, Rel.get_set_self _ _ _ _, hr.trans (hold r' h).symm⟩
    · exact ⟨r', by rwa [Rel.get_set_ne (by simp [hi])], rfl⟩
  new {i r'} h h' := by
    by_cases hi : i = id
    · subst hi
      rw [Rel.get_set_self] at h'
      cases h'
      exact hr
    · rw [Rel.get_set_ne (by simp [hi]), h] at h'
      cases h'

/-- **Another owner** stays one. -/
theorem Concerns.spares {other : Id} (h : Concerns userId a b) (hne : other ≠ userId)
    (ho : ActiveOwner a orgId other) : ActiveOwner b orgId other := by
  obtain ⟨⟨u, hu, hstatus⟩, i, r, role, -, hr, hru, howner⟩ := ho
  refine ⟨⟨u, ⟨(h.user hne).trans hu.1, hu.2⟩, hstatus⟩, i, r, role, trivial, ?_, hru, howner⟩
  exact ⟨⟨h.other hr.live.1 (hru ▸ hne), hr.live.2⟩, (h.role _).trans hr.found, hr.org⟩

/-- Roles stay, and assignments stay somebody's. -/
structure Staffed (a b : Db) : Prop where
  role (id : Id) : b.get .role id = a.get .role id
  kept {id : Id} {r : RoleAssignment} : a.get .roleAssignment id = some r →
    ∃ r', b.get .roleAssignment id = some r' ∧ r'.userId = r.userId

/-- What the requests guarantee each other. -/
def staffed : Guarantee Db where
  rel := Staffed
  refl a := ⟨fun _ => rfl, fun h => ⟨_, h, rfl⟩⟩
  trans h h' := ⟨fun id => (h'.role id).trans (h.role id), fun hr => by
    obtain ⟨r₁, hr₁, hu₁⟩ := h.kept hr
    obtain ⟨r₂, hr₂, hu₂⟩ := h'.kept hr₁
    exact ⟨r₂, hr₂, hu₂.trans hu₁⟩⟩

theorem Concerns.staffed (h : Concerns userId a b) : Staffed a b := ⟨h.role, h.kept⟩

/-! ## Transactions -/

section Transactions

variable {C : DbWrite → Bool} {e : Err} {G : Guarantee Db} {E : Db → Db → Prop}

theorem confined_setStatus_concerns {status : UserStatus} :
    Confined C e G (Concerns userId) (setStatus orgId userId status) :=
  confined_update fun r a b _ _ hw => by
    rw [hw.2.2.2]
    exact concerns_set (by decide) (by decide) fun _ => rfl

/-- Rows of the user's are written. -/
theorem confined_mine {k : Kind} {p : Id → Row k → Bool} {f : Row k → Row k}
    (hr : k ≠ .role) (ha : k ≠ .roleAssignment) (hu : k ≠ .user)
    (hk : ∀ r, uniqueKeys k (f r) ⊆ uniqueKeys k r) :
    Confined C e G (Concerns userId) (updateMany k p f) :=
  confined_updateMany hk fun id r a b _ _ hw => by
    rw [hw.2.2.2]
    exact concerns_set hr ha fun h => absurd h hu

theorem confined_deleteMine (userId : Id) {p : Id → RoleAssignment → Bool}
    (hp : ∀ i r, p i r = true → r.userId = userId)
    (h : ∀ id (r : RoleAssignment) a, a.get .roleAssignment id = some r → r.userId = userId →
      p id r = true → E a (a.set .roleAssignment id { r with deleted := true })) :
    Confined C e G E (updateMany .roleAssignment p fun r => { r with deleted := true }) :=
  confined_updateMany (fun _ => List.nil_subset _) fun id r a b hl hpr hw => by
    rw [hw.2.2.2]
    exact h id r a hl.1 (hp id r hpr) hpr

theorem concerns_delete {id : Id} {r : RoleAssignment} (h : a.get .roleAssignment id = some r)
    (hu : r.userId = userId) :
    Concerns userId a (a.set .roleAssignment id { r with deleted := true }) :=
  concerns_assignment hu fun r0 hr0 => by
    obtain rfl := Option.some.inj (hr0.symm.trans h)
    exact hu

theorem confined_deleteTx_concerns : Confined C e G (Concerns userId) (deleteTx orgId userId) := by
  have hdel : ∀ {q : RoleAssignment → Bool}, Confined C e G (Concerns userId) (updateMany .roleAssignment
      (fun _ (r : RoleAssignment) => r.userId == userId && q r) fun r => { r with deleted := true }) :=
    fun {q} => confined_deleteMine userId (fun _ r hp => beq_iff_eq.mp (Bool.and_eq_true_iff.mp hp).1)
      fun _ _ _ h hu _ => concerns_delete h hu
  have hall : Confined C e G (Concerns userId) (updateMany .roleAssignment
      (fun _ (r : RoleAssignment) => r.userId == userId) fun r => { r with deleted := true }) :=
    confined_deleteMine userId (fun _ r hp => beq_iff_eq.mp hp) fun _ _ _ h hu _ => concerns_delete h hu
  have hsessions : Confined C e G (Concerns userId) (deleteSessions userId) :=
    confined_mine (by decide) (by decide) (by decide) fun _ => List.Subset.refl _
  refine .bind (.bind (.read _) fun _ => .bind hdel fun _ => .pure _) fun _ => .bind hsessions fun _ =>
    .bind .input fun _ => .ite (.throw _) (.bind (confined_update fun r a b _ _ hw => ?_) fun _ =>
      .bind hsessions fun _ => .bind (confined_mine (by decide) (by decide) (by decide)
        fun _ => List.Subset.refl _) fun _ => .bind hall fun _ => .pure _)
  rw [hw.2.2.2]
  exact concerns_set (by decide) (by decide) fun _ => rfl

end Transactions

/-- **What `update` writes** concerns the user alone, whose row stays. -/
structure Moves (userId : Id) (a b : Db) : Prop where
  concerns : Concerns userId a b
  user (id : Id) : b.get .user id = a.get .user id

theorem Moves.refl (a : Db) : Moves userId a a := ⟨.refl a, fun _ => rfl⟩

theorem Moves.trans (h : Moves userId a b) (h' : Moves userId b c) : Moves userId a c :=
  ⟨h.concerns.trans h'.concerns, fun id => (h'.user id).trans (h.user id)⟩

theorem Moves.walk (h : Relation.ReflTransGen (Moves userId) a b) : Moves userId a b := by
  induction h with
  | refl => exact .refl a
  | tail _ h ih => exact ih.trans h

theorem moves_assignment (hr : r.userId = userId)
    (hold : ∀ r0, a.get .roleAssignment id = some r0 → r0.userId = userId) :
    Moves userId a (a.set .roleAssignment id r) :=
  ⟨concerns_assignment hr hold, fun _ => Rel.get_set_ne (by simp)⟩

theorem moves_create (hr : r.userId = userId)
    (hid : a.get .roleAssignment id = none) : Moves userId a (a.set .roleAssignment id r) :=
  moves_assignment hr fun r0 hr0 => by simp [hid] at hr0

/-- Nothing but versions of rows changes, and those are what they were. -/
def SameStore (a b : Db) : Prop := ∀ k id, b.get k id = a.get k id

theorem SameStore.moves (h : SameStore a b) : Moves userId a b where
  concerns := ⟨h .role, fun _ => h .user _, fun hr _ => (h _ _).trans hr,
    fun hr => ⟨_, (h _ _).trans hr, rfl⟩, fun hn hr => by rw [h, hn] at hr; cases hr⟩
  user := h .user

def HasRole (userId N : Id) (s : Db) : Prop :=
  ∃ p r, Live s .roleAssignment p r ∧ r.userId = userId ∧ r.roleId = N

section Update

variable {C : DbWrite → Bool} {e : Err} {G : Guarantee Db} {E : Db → Db → Prop}

theorem triple_updateProfile {data : MemberUpdate} :
    Triple C e G Eq (updateProfile userId data) fun _ => SameStore := by
  unfold updateProfile
  split
  · refine .bind (triple_updateRow (Q := fun _ => SameStore) fun r a b hp hr _ => ?_) fun _ =>
      .pure fun _ _ h => h
    subst hp
    intro k id
    by_cases he : (k, id) = (Kind.user, userId)
    · cases he
      exact (Rel.get_set_self _ _ _ _).trans hr.1.symm
    · exact Rel.get_set_ne he
  · exact .pure fun a b hp k id => by rw [hp]

theorem confined_resolveHighestRole : Confined C e G E (resolveHighestRole orgId userId) :=
  .bind (.bind (.read _) fun _ => .bind (.read _) fun _ => .pure _) fun _ => .pure _

theorem confined_mayAssignRoleId {N : Id} :
    Confined C e G E (mayAssignRoleId orgId actorUserId N) :=
  .bind (.read _) fun o => by
    cases o with
    | none => exact .throw _
    | some role => exact .bind confined_resolveHighestRole fun _ => .ite (.pure _) (.throw _)

theorem confined_changeBranches {branchIds : List Id} :
    Confined C e G (Moves userId) (changeBranches orgId userId branchIds) := by
  have hvalid : Confined C e G (Moves userId) (validBranchIds orgId branchIds) :=
    .ite (.pure _) (.bind (.read _) fun _ => .ite (.throw _) (.pure _))
  have hassigned : ∀ {name l}, Confined C e G (Moves userId) (branchesAssigned orgId name l) :=
    fun {_ _} => .bind (.read _) fun _ => .ite (.throw _) (.pure _)
  have hdelete : Confined C e G (Moves userId) (deleteAssignments orgId userId) :=
    .bind (.read _) fun _ => .bind (confined_deleteMine userId
      (fun _ r hp => beq_iff_eq.mp (Bool.and_eq_true_iff.mp hp).1) fun id r a h hu _ =>
        ⟨concerns_delete h hu, fun _ => Rel.get_set_ne (by simp)⟩) fun _ => .pure _
  refine .bind hvalid fun _ => .bind (.read _) fun o => ?_
  rcases o with _ | ⟨N, role⟩
  · exact .pure _
  · refine .bind hassigned fun _ => .bind hdelete fun _ => confined_assignRole fun _ id a b hw => ?_
    rw [hw.2.2.2]
    exact moves_create rfl hw.2.1

/-- **The role of a user.** Whatever else there is, the user has the role then. -/
theorem triple_changeRole {N : Id} : Triple C e staffed SameStore
    (changeRole orgId actorUserId userId N) fun _ a b => Moves userId a b ∧ HasRole userId N b := by
  refine .bind (.read (Q := fun _ => SameStore) fun _ _ _ hp => hp) fun o => ?_
  cases o with
  | none => exact .throw
  | some role =>
    refine .bind confined_mayAssignRoleId.still fun _ => .bind (.readFact (F := fun o a =>
      ∀ x : Id × RoleAssignment, o = some x →
        ∃ r, a.get .roleAssignment x.1 = some r ∧ r.userId = userId) ?_ ?_) fun o => ?_
    · intro o a b hab h x hx
      obtain ⟨r, hr, hu⟩ := h x hx
      obtain ⟨r', hr', hu'⟩ := hab.kept hr
      exact ⟨r', hr', hu'.trans hu⟩
    · intro a b hp x hx
      obtain ⟨⟨y, hy⟩, hu⟩ := mem_assignmentsOf.mp (List.mem_of_mem_head? hx)
      exact ⟨x.2, (hp _ _).symm.trans hy.live.1, hu⟩
    cases o with
    | none =>
      refine .bind (triple_create (Q := fun _ a b => Moves userId a b ∧ HasRole userId N b)
        fun id a b hp hid => ⟨?_, id, _, ⟨Rel.get_set_self _ _ _ _, rfl⟩, rfl, rfl⟩) fun _ =>
          .pure fun _ _ h => h
      exact hp.2.moves.trans (moves_create rfl hid)
    | some x =>
      obtain ⟨p, r0⟩ := x
      refine .bind (triple_updateRow (Q := fun _ a b => Moves userId a b ∧ ∃ r, Live b .roleAssignment p r ∧
        r.userId = userId ∧ r.roleId = N) fun r a b hp hr _ => ?_) fun _ => ?_
      · obtain ⟨r1, hr1, hu⟩ := hp.1 _ rfl
        obtain rfl := Option.some.inj (hr.1.symm.trans ((hp.2 _ _).trans hr1))
        refine ⟨hp.2.moves.trans (moves_assignment hu fun r' hr' => ?_), _,
          ⟨Rel.get_set_self _ _ _ _, hr.2⟩, hu, rfl⟩
        obtain rfl := Option.some.inj (hr'.symm.trans hr.1)
        exact hu
      · have hkeep : Confined C e staffed (fun a b => Moves userId a b ∧
            b.get .roleAssignment p = a.get .roleAssignment p)
            (deleteOtherAssignments orgId userId p) := by
          refine .bind (.read _) fun _ => .bind (confined_deleteMine userId (fun i r hq => ?_)
            fun id r a h hu hq => ⟨⟨concerns_delete h hu, fun _ => Rel.get_set_ne (by simp)⟩, ?_⟩)
              fun _ => .pure _
          · exact beq_iff_eq.mp (Bool.and_eq_true_iff.mp (Bool.and_eq_true_iff.mp hq).1).1
          · have hne := bne_iff_ne.mp (Bool.and_eq_true_iff.mp (Bool.and_eq_true_iff.mp hq).1).2
            exact Rel.get_set_ne (by simp [Ne.symm hne])
        split
        · refine (hkeep.keeps fun a b c hbc hp => ?_).post fun _ a b hp => ⟨hp.1, p, hp.2⟩
          obtain ⟨hm, r, hr, hx⟩ := hp
          exact ⟨hm.trans hbc.1, r, ⟨hbc.2.trans hr.1, hr.2⟩, hx⟩
        · exact .pure fun _ _ hp => ⟨hp.1, p, hp.2⟩

/-- What `update` leaves when it is given no branches. -/
def Updates (userId : Id) (data : MemberUpdate) (a b : Db) : Prop :=
  Moves userId a b ∧ (data.branchIds = none → (data.roleId = none → SameStore a b) ∧
    ∀ N, data.roleId = some N → HasRole userId N b)

theorem triple_updateTx {data : MemberUpdate} :
    Triple C e staffed Eq (updateTx orgId userId actorUserId data) fun _ => Updates userId data := by
  refine .bind triple_updateProfile fun _ => .bind (Q := fun _ a b => Moves userId a b ∧
    (data.roleId = none → SameStore a b) ∧ ∀ N, data.roleId = some N → HasRole userId N b) ?_ fun _ =>
      .bind (Q := fun _ => Updates userId data) ?_ fun _ => .readOrThrow fun _ _ _ _ _ hp => hp
  · cases data.roleId with
    | none => exact .pure fun a b hp => ⟨hp.moves, fun _ => hp, nofun⟩
    | some N =>
      refine triple_changeRole.post fun _ a b hp => ⟨hp.1, nofun, fun M hM => ?_⟩
      cases hM
      exact hp.2
  · unfold Updates
    cases data.branchIds with
    | none => exact .pure fun a b hp => ⟨hp.1, fun _ => hp.2⟩
    | some branchIds =>
      refine confined_changeBranches.triple (P := fun a b => _) fun _ a b c hp hbc => ?_
      exact ⟨hp.1.trans (.walk hbc), nofun⟩

theorem triple_removeAssignmentTx {id : Id} :
    Triple C e G Eq (removeAssignmentTx orgId id actorUserId) fun _ a b =>
      ∃ r, Live a .roleAssignment id r ∧ b = a.set .roleAssignment id { r with deleted := true } := by
  refine .bind (.read (Q := fun _ => Eq) fun _ _ _ hp => hp) fun o => ?_
  rcases o with _ | ⟨assignment, role⟩
  · exact .throw
  · have hmanage : Confined C e G (fun _ _ => False)
        (mayManageTargetUser orgId actorUserId assignment.userId) :=
      .bind confined_resolveHighestRole fun _ => .bind confined_resolveHighestRole fun _ =>
        .ite (.pure _) (.throw _)
    have howner : Confined C e G (fun _ _ => False) (notLastOwner orgId role) :=
      .ite (.bind (.read _) fun _ => .ite (.throw _) (.pure _)) (.pure _)
    refine .bind hmanage.still fun _ => .bind howner.still fun _ => .bind
      (Q := fun _ a b => ∃ r, Live a .roleAssignment id r ∧
        b = a.set .roleAssignment id { r with deleted := true })
      (triple_updateRow fun r a b hp hr _ => ?_) fun _ => .pure fun _ _ h => h
    subst hp
    exact ⟨r, hr, rfl⟩

end Update

/-! ## Requests -/

/-- `update`, `deactivate`, `delete` and `removeAssignment`. -/
def MemberRequest.staffing : MemberRequest → Prop
  | .account (.deactivate ..) | .account (.delete ..) | .update .. | .removeAssignment .. => True
  | _ => False

/-- **What a commit of the request does.** -/
def Staffs (r : MemberRequest) (_ : List Line) (a b : Db) : Prop :=
  match r with
  | .account (.deactivate _ userId _) | .account (.delete _ userId _) => Concerns userId a b
  | .update _ userId _ data => b = a ∨ Updates userId data a b
  | .removeAssignment _ id _ =>
    ∃ r, Live a .roleAssignment id r ∧ b = a.set .roleAssignment id { r with deleted := true }
  | _ => True

abbrev StaffDescribed {β : Type} (D : List Line → Db → Db → Prop) (c : ACall β) : Prop :=
  Describes (fun _ => true) Err.recordNotFound staffed D (fun _ => True) c fun _ _ => True

/-- A request that commits in steps of `E` alone. -/
abbrev Minds (E : Db → Db → Prop) {β : Type} (c : ACall β) : Prop :=
  Steady (fun _ => true) Err.recordNotFound staffed E (fun _ => True) Answer c

section Checks

variable {E : Db → Db → Prop} (hE : ∀ a b, Relation.ReflTransGen E a b → Staffed a b) {id : Id}

include hE

theorem minds_tx {β : Type} {t : ATx β}
    (ht : Confined (fun _ => true) .recordNotFound staffed E t) : Minds E (withBypassRls t) :=
  .tx ht hE

theorem minds_getById : Minds E (getById orgId id) :=
  .bind (minds_tx hE (.read _)) fun o => by
    cases o with
    | none => exact .throw _
    | some u => exact .pure _

theorem minds_resolveUserHighestSystemRole :
    Minds E (resolveUserHighestSystemRole orgId id) :=
  .bind (minds_tx hE (.bind (.read _) fun _ => .bind (.read _) fun _ => .pure _)) fun _ => .pure _

theorem minds_assertActorMayManageTargetUser :
    Minds E (assertActorMayManageTargetUser orgId actorUserId id) :=
  .bind (minds_resolveUserHighestSystemRole hE) fun _ =>
    .bind (minds_resolveUserHighestSystemRole hE) fun _ => .ite (.pure _) (.throw _)

end Checks

theorem concerns_staffed (a b : Db) (h : Relation.ReflTransGen (Concerns userId) a b) :
    Staffed a b := (Concerns.walk h).staffed

theorem still_staffed (a b : Db) (h : Relation.ReflTransGen (fun _ _ => False) a b) :
    Staffed a b := eq_of_noSteps h ▸ staffed.refl a

theorem minds_invalidateAuthUserCache :
    Minds (Concerns userId) (invalidateAuthUserCache userId) :=
  .handle (minds_tx concerns_staffed (confined_setKey rfl fun old a b hw => by
    rw [hw.2.2.2]
    exact concerns_set (by decide) (by decide) nofun)) fun _ => .pure _

theorem minds_deactivate : Minds (Concerns userId) (deactivate orgId userId actorUserId) :=
  .bind (minds_getById concerns_staffed) fun _ =>
    .bind (minds_assertActorMayManageTargetUser concerns_staffed) fun _ =>
      .bind (minds_tx concerns_staffed confined_setStatus_concerns) fun _ =>
        .bind minds_invalidateAuthUserCache fun _ => .pure _

theorem minds_remove : Minds (Concerns userId) (remove orgId userId actorUserId) :=
  .bind (minds_getById concerns_staffed) fun _ =>
    .bind (minds_assertActorMayManageTargetUser concerns_staffed) fun _ =>
      .bind (minds_tx concerns_staffed confined_deleteTx_concerns) fun _ =>
        minds_invalidateAuthUserCache

/-- **A request whose commits concern one user.** -/
theorem describes_concerns {β : Type} {c : ACall β} {D : List Line → Db → Db → Prop}
    (hc : Minds (Concerns userId) c) (hD : ∀ h a b, Concerns userId a b → D h a b) :
    StaffDescribed D c :=
  (hc.describes (fun _ _ _ _ => trivial) fun h a b _ hs => hD h a b (.walk hs)).post
    fun _ _ _ => trivial

theorem describes_updateMember {data : MemberUpdate} :
    StaffDescribed (Staffs (.update orgId userId actorUserId data))
      (updateMember orgId userId actorUserId data) := by
  have hstill : ∀ {β : Type} {c : ACall β}, Minds (fun _ _ => False) c →
      StaffDescribed (Staffs (.update orgId userId actorUserId data)) c := fun hc =>
    (hc.describes (fun _ _ _ _ => trivial) fun _ _ _ _ hs => Or.inl (eq_of_noSteps hs)).post
      fun _ _ _ => trivial
  unfold updateMember
  refine .bind (hstill (minds_getById still_staffed)) fun _ => ?_
  split
  · exact .throw
  split
  · exact .throw
  split
  · refine .bind (hstill (minds_assertActorMayManageTargetUser still_staffed)) fun _ =>
      .tx (R := fun _ _ => Updates userId data) (fun h _ => triple_updateTx.pre fun _ _ hs => hs.2)
        fun h u a b _ hu => ⟨hu.1.concerns.staffed, Or.inr hu, trivial⟩
  · exact hstill (minds_tx still_staffed (.readOrThrow _ _))

theorem describes_removeAssignment :
    StaffDescribed (Staffs (.removeAssignment orgId id actorUserId))
      (removeAssignment orgId id actorUserId) :=
  .tx (R := fun _ _ a b => ∃ r, Live a .roleAssignment id r ∧
      b = a.set .roleAssignment id { r with deleted := true })
    (fun h _ => triple_removeAssignmentTx.pre fun _ _ hs => hs.2) fun h u a b _ hr => by
      obtain ⟨r, hlive, rfl⟩ := hr
      exact ⟨(concerns_delete hlive.1 rfl).staffed, ⟨r, hlive, rfl⟩, trivial⟩

/-- **Every request** of these is described. -/
theorem describes_staffing {r : MemberRequest} (hr : r.staffing) :
    StaffDescribed (Staffs r) (r.run d) := by
  cases r with
  | account r =>
    cases r with
    | deactivate orgId userId actorUserId =>
      exact .bind (describes_concerns minds_deactivate fun _ _ _ hc => hc) fun _ => .pure
        fun _ _ => trivial
    | delete orgId userId actorUserId =>
      exact .bind (describes_concerns minds_remove fun _ _ _ hc => hc) fun _ => .pure
        fun _ _ => trivial
    | _ => exact hr.elim
  | update orgId userId actorUserId data =>
    exact .bind describes_updateMember fun _ => .pure fun _ _ => trivial
  | removeAssignment orgId id actorUserId =>
    exact .bind describes_removeAssignment fun _ => .pure fun _ _ => trivial

/-! ## Runs -/

/-- **The condition on a commit**, of the store before it. A member that is deactivated or deleted, and
one that is given branches or another role than the owner's, is not the only active owner, and nor is the
user of an assignment that is removed, unless by another assignment. -/
def OwnerSafe (orgId : Id) (r : MemberRequest) (a : Db) : Prop :=
  match r with
  | .account (.deactivate _ userId _) | .account (.delete _ userId _) => Replaceable a orgId userId
  | .update _ userId _ data => (data.branchIds = none ∧ ∀ N, data.roleId = some N →
      ∃ role, a.get .role N = some role ∧ role.orgId = orgId ∧ role.isOwner = true) ∨
    Replaceable a orgId userId
  | .removeAssignment _ id _ => ∀ r, Live a .roleAssignment id r →
    HasOwnerRole (· ≠ id) a orgId r.userId ∨ Replaceable a orgId r.userId
  | _ => True

/-- A user of whom the commit is not, and one that may be replaced. -/
theorem Concerns.keepsOwner (h : Concerns userId a b) (hr : Replaceable a orgId userId)
    (ho : ∃ u, ActiveOwner a orgId u) : ∃ u, ActiveOwner b orgId u := by
  obtain ⟨u, hu⟩ := ho
  by_cases hne : u = userId
  · subst hne
    obtain ⟨other, hother, ha⟩ := hr hu
    exact ⟨other, h.spares hother ha⟩
  · exact ⟨u, h.spares hne hu⟩

theorem Moves.keepsOwner (h : Moves userId a b) (hb : HasOwnerRole (fun _ => True) b orgId userId)
    (ho : ∃ u, ActiveOwner a orgId u) : ∃ u, ActiveOwner b orgId u := by
  obtain ⟨u, hu⟩ := ho
  by_cases hne : u = userId
  · subst hne
    obtain ⟨v, hv, hstatus⟩ := hu.1
    exact ⟨u, ⟨v, ⟨(h.user u).trans hv.1, hv.2⟩, hstatus⟩, hb⟩
  · exact ⟨u, h.concerns.spares hne hu⟩

theorem SameStore.keepsOwner (h : SameStore a b) (ho : ∃ u, ActiveOwner a orgId u) :
    ∃ u, ActiveOwner b orgId u := by
  obtain ⟨u, ⟨v, hv, hstatus⟩, i, r, role, -, hr, hru, howner⟩ := ho
  exact ⟨u, ⟨v, ⟨(h _ _).trans hv.1, hv.2⟩, hstatus⟩, i, r, role, trivial,
    ⟨⟨(h _ _).trans hr.live.1, hr.live.2⟩, (h _ _).trans hr.found, hr.org⟩, hru, howner⟩

/-- **One commit.** -/
theorem keepsOwner_of_staffs {r : MemberRequest} {h : List Line} (hr : r.staffing)
    (hs : Staffs r h a b) (hsafe : OwnerSafe orgId r a) (ho : ∃ u, ActiveOwner a orgId u) :
    ∃ u, ActiveOwner b orgId u := by
  cases r with
  | account r =>
    cases r with
    | deactivate org userId actorUserId => exact Concerns.keepsOwner hs hsafe ho
    | delete org userId actorUserId => exact Concerns.keepsOwner hs hsafe ho
    | _ => exact hr.elim
  | update org userId actorUserId data =>
    rcases hs with rfl | ⟨hm, hsame⟩
    · exact ho
    rcases hsafe with ⟨hnone, hrole⟩ | hsafe
    · obtain ⟨hsame, hhas⟩ := hsame hnone
      cases hN : data.roleId with
      | none => exact (hsame hN).keepsOwner ho
      | some N =>
        obtain ⟨role, hget, horg, howner⟩ := hrole N hN
        obtain ⟨p, r, hr, hu, hrN⟩ := hhas N hN
        refine hm.keepsOwner ⟨p, r, role, trivial, ⟨hr, ?_, horg⟩, hu, howner⟩ ho
        rw [hrN, hm.concerns.role, hget]
    · exact hm.concerns.keepsOwner hsafe ho
  | removeAssignment org id actorUserId =>
    obtain ⟨r, hlive, rfl⟩ := hs
    have hc := concerns_delete hlive.1 rfl
    rcases hsafe r hlive with ⟨j, r', role, hj, hr', hu, howner⟩ | hsafe
    · have hm : Moves r.userId a (a.set .roleAssignment id { r with deleted := true }) :=
        ⟨hc, fun _ => Rel.get_set_ne (by simp)⟩
      refine hm.keepsOwner ⟨j, r', role, trivial, ⟨⟨?_, hr'.live.2⟩, ?_, hr'.org⟩, hu, howner⟩ ho
      · rw [Rel.get_set_ne (by simp [hj]), hr'.live.1]
      · rw [hc.role, hr'.found]
    · exact hc.keepsOwner hsafe ho

/-- **The run condition**: a commit is made where it may be. -/
def Sparing (orgId : Id) (requests : List MemberRequest) (c : MemberRun) (i : ℕ) : Prop :=
  c.AtCommit (fun a _ => ∀ r, requests[i]? = some r → OwnerSafe orgId r a) i

/-- **An organisation keeps an active owner** through every interleaving of changes of its members, by
whomever, in which no member that is deactivated, deleted, or given branches or another role, and no user
who loses an assignment, is the only active owner. -/
theorem owner_remains {c : MemberRun} (ho : ∃ u, ActiveOwner s₀ orgId u)
    (hr : ∀ r ∈ requests, r.staffing)
    (h : Reach (Sparing orgId requests) (serve (MemberRequest.run d) s₀ requests) c) :
    ∃ u, ActiveOwner c.db orgId u := by
  have hserved := reach_served Err.recordNotFound (D := Staffs) (Ψ := fun _ _ _ => True) trivial
    (fun r hmem => describes_staffing (hr r hmem)) h
  refine hserved.linear.carry (F := fun s => ∃ u, ActiveOwner s orgId u) (fun i a b hc ha => ?_) ho
  obtain ⟨p, hp⟩ := List.mem_iff_getElem?.mp hc
  obtain ⟨r, hget, -, hs⟩ := hserved.commit hp
  have hsafe := reach_atCommit (K := fun _ i a _ => ∀ r, requests[i]? = some r → OwnerSafe orgId r a)
    (fun _ _ hc => hc) h hp r hget
  exact keepsOwner_of_staffs (hr r (List.mem_of_getElem? hget)) hs hsafe ha

/-! ## Owners who leave -/

def ownerUser (id : Id) : User :=
  { orgId := 1, email := if id = 9 then "ada@example.org" else "bob@example.org"
    passwordHash := ⟨"Owners11"⟩, status := .active }

def ownedBy (owners : List Id) : Db where
  tables
    | .organization => table [(1, { slug := "acme" })]
    | .user => table (owners.map fun id => (id, ownerUser id))
    | .role => table [(1, { orgId := 1, name := "owner" })]
    | .roleAssignment => table (owners.map fun id => (20 + id, { userId := id, roleId := 1 }))
    | _ => ∅
  log := []

def leaving : MemberRequest := .account (.deactivate 1 9 9)

/-- The user is an active owner, by these rows. -/
def ownsBy (s : Db) (id : Id) : Bool :=
  decide (s.get .user id = some (ownerUser id)) &&
    decide (s.get .roleAssignment (20 + id) = some { userId := id, roleId := 1 }) &&
    decide (s.get .role 1 = some { orgId := 1, name := "owner" })

theorem activeOwner_of {s : Db} (h : ownsBy s id = true) : ActiveOwner s 1 id := by
  simp only [ownsBy, Bool.and_eq_true, decide_eq_true_eq] at h
  obtain ⟨⟨hu, ha⟩, hr⟩ := h
  exact ⟨⟨ownerUser id, ⟨hu, rfl⟩, rfl, rfl⟩, 20 + id, _, _, trivial, ⟨⟨ha, rfl⟩, hr, rfl⟩, rfl,
    by decide +kernel⟩

/-- Nobody is active. -/
def deserted (c : MemberRun) : Bool :=
  (seen .user (fun _ (u : User) => decide (u.status = .active)) c.db).isEmpty

theorem owner_remains_leaving : ∃ c : MemberRun,
    Reach (Sparing 1 [leaving]) (serve (MemberRequest.run {}) (ownedBy [8, 9]) [leaving]) c ∧
      ¬ ActiveOwner c.db 1 9 ∧ ∃ u, ActiveOwner c.db 1 u := by
  obtain ⟨c, hc, hp⟩ := exists_reach (o := fun c i => c.atCommit (fun a _ => ownsBy a 8) i)
    (P := Sparing 1 [leaving]) (fun c i h => Config.atCommit_of (fun a b ha r hr => by
      rcases i with _ | i
      · cases hr
        exact fun _ => ⟨8, by decide, activeOwner_of ha⟩
      · cases hr) h)
    (serve (MemberRequest.run {}) (ownedBy [8, 9]) [leaving]) (turns 0 19)
    (fun c => decide ((c.db.get .user 9).map (fun (u : User) => u.status) = some .inactive))
    (by decide +kernel)
  refine ⟨c, hc, ?_, owner_remains ⟨8, activeOwner_of (by decide +kernel)⟩ ?_ hc⟩
  · rintro ⟨⟨u, hu, -, hactive⟩, -⟩
    rw [decide_eq_true_eq, hu.1] at hp
    cases hactive.symm.trans (Option.some.inj hp)
  · intro r hr
    rw [List.mem_singleton.mp hr]
    trivial

/-- **An organisation may lose its last owner.** -/
theorem exists_without_owner : ¬ ∀ (d : Deployment) (orgId : Id) (s₀ : Db)
    (requests : List MemberRequest) (c : MemberRun), (∃ u, ActiveOwner s₀ orgId u) →
      (∀ r ∈ requests, r.staffing) →
      Reach (fun _ _ => True) (serve (MemberRequest.run d) s₀ requests) c →
      ∃ u, ActiveOwner c.db orgId u := by
  intro hall
  obtain ⟨c, hc, hp⟩ := exists_reach (o := anywhere) (P := fun _ _ => True) (fun _ _ _ => trivial)
    (serve (MemberRequest.run {}) (ownedBy [9]) [leaving]) (turns 0 19) deserted (by decide +kernel)
  obtain ⟨u, ⟨v, hv, -, hactive⟩, -⟩ := hall {} 1 (ownedBy [9]) [leaving] c
    ⟨9, activeOwner_of (by decide +kernel)⟩
    (fun r hr => by rw [List.mem_singleton.mp hr]; trivial) hc
  have hmem : (u, v) ∈ seen .user (fun _ (u : User) => decide (u.status = .active)) c.db :=
    mem_seen.mpr ⟨hv, decide_eq_true hactive⟩
  rw [List.isEmpty_iff.mp hp] at hmem
  cases hmem

end PatronLoyalty.Accounts
