import Mathlib.Data.List.Sort
import PatronLoyalty.Accounts.Users

/-!
# Roles of members

`UserService.update`, which gives a member another role and other branches, and
`RoleService.removeAssignment`. Under the tenant's policy a transaction sees the assignments of the
organisation's roles alone. A check of `role-assignment-authorization` that is made while a transaction is
open reads the committed store, and what it reads the transaction has not written.
-/

namespace PatronLoyalty.Accounts

open Txn
open Auth (SystemRole normalizeSystemRoleName)
open Loyalty (Id)

/-! ## Checks in a transaction -/

def resolveHighestRole (orgId userId : Id) : ATx (Option SystemRole) := do
  let roles ← systemRolesOf orgId userId
  pure (highestRole roles)

def mayAssignRoleId (orgId actorUserId targetRoleId : Id) : ATx Unit := do
  match ← findRole orgId targetRoleId with
  | none => Tx.throw (.forbidden "Role not found in this organization")
  | some role => do
    let actorRole ← resolveHighestRole orgId actorUserId
    let targetRole := normalizeSystemRoleName (some role.name)
    if canActorAssignRole actorRole targetRole then pure ()
    else Tx.throw (.forbidden (assignRoleForbiddenMessage actorRole targetRole))

def mayManageTargetUser (orgId actorUserId targetUserId : Id) : ATx Unit := do
  let actorRole ← resolveHighestRole orgId actorUserId
  let targetRole ← resolveHighestRole orgId targetUserId
  if canActorManageUserWithRole actorRole targetRole then pure ()
  else Tx.throw (.forbidden (manageUserForbiddenMessage actorRole targetRole))

/-! ## update -/

/-- The body of a change: `rest` are the fields that are given beside the role and the branches. -/
structure MemberUpdate where
  roleId : Option Id := none
  branchIds : Option (List Id) := none
  rest : List (String × String) := []

def allowedScalarKeys : List String :=
  ["firstName", "lastName", "phone", "description", "language", "timezone", "avatarUrl"]

@[irreducible] def MemberUpdate.hasScalarUpdates (data : MemberUpdate) : Bool :=
  data.rest.any fun e => allowedScalarKeys.contains e.1

/-- `raw.password !== undefined || raw.passwordHash !== undefined`. -/
@[irreducible] def MemberUpdate.namesPassword (data : MemberUpdate) : Bool :=
  data.rest.any fun e => e.1 == "password" || e.1 == "passwordHash"

def MemberUpdate.wantsRoleChange (data : MemberUpdate) : Bool := data.roleId.isSome

def MemberUpdate.wantsBranchReassignment (data : MemberUpdate) : Bool := data.branchIds.isSome

def ofOrg (s : Db) (orgId : Id) (r : RoleAssignment) : Bool :=
  (s.get .role r.roleId).any fun (role : Role) => role.orgId == orgId

/-- The assignments of the user, `orderBy: { id: 'asc' }`. -/
def assignmentsOf (orgId userId : Id) (s : Db) : List (Id × RoleAssignment) :=
  (seen .roleAssignment (fun _ (r : RoleAssignment) => r.userId == userId && ofOrg s orgId r)
    s).insertionSort fun a b => a.1 ≤ b.1

/-- `roleAssignment.deleteMany`, of all but one. -/
def deleteOtherAssignments (orgId userId keep : Id) : ATx Unit := do
  let roles ← findMany .role fun _ (r : Role) => r.orgId == orgId
  let _ ← updateMany .roleAssignment (fun id (r : RoleAssignment) => r.userId == userId &&
    id != keep && (roles.map (·.1)).contains r.roleId) fun r => { r with deleted := true }
  pure ()

/-- `SYSTEM_ROLES.OWNER` and `SYSTEM_ROLES.ADMIN`. -/
@[irreducible] def isGlobalRole (roleName : String) : Bool := roleName == "owner" || roleName == "admin"

/-- The part of `update` for a role. -/
def changeRole (orgId actorUserId userId nextRoleId : Id) : ATx Unit := do
  match ← findRole orgId nextRoleId with
  | none => Tx.throw (.badRequest "Role not found in this organization")
  | some role => do
    mayAssignRoleId orgId actorUserId nextRoleId
    match ← Tx.read fun s => (assignmentsOf orgId userId s).head? with
    | none => do
      let _ ← create .roleAssignment { userId, roleId := nextRoleId }
      pure ()
    | some (primary, _) => do
      let _ ← update .roleAssignment primary anyRow fun (r : RoleAssignment) =>
        { r with roleId := nextRoleId
                 branchId := if isGlobalRole role.name then none else r.branchId }
      if isGlobalRole role.name then deleteOtherAssignments orgId userId primary else pure ()

/-- `validateBranchIds`, in a transaction. -/
def validBranchIds (orgId : Id) (branchIds : List Id) : ATx (List Id) :=
  if branchIds.eraseDups.isEmpty then pure []
  else do
    let rows ← findMany .branch fun id (b : Branch) =>
      b.orgId == orgId && branchIds.eraseDups.contains id
    if rows.length ≠ branchIds.eraseDups.length then
      Tx.throw (.badRequest "One or more selected branches are invalid")
    else pure branchIds.eraseDups

/-- `assertAssignedBranchesIfNeeded`, in a transaction. -/
def branchesAssigned (orgId : Id) (roleName : String) (branchIds : List Id) : ATx Unit := do
  let branches ← findMany .branch fun _ (b : Branch) => b.orgId == orgId
  if branches.isEmpty = false ∧ roleRequiresAssignedBranches roleName = true ∧
      branchIds.isEmpty = true then
    Tx.throw (.badRequest "Select at least one branch. This organization has branch locations, so assigned branches are required for this role.")
  else pure ()

def currentRole (orgId userId : Id) (s : Db) : Option (Id × Role) :=
  (assignmentsOf orgId userId s).head?.bind fun a => (s.get .role a.2.roleId).map (a.2.roleId, ·)

/-- The part of `update` for branches. -/
def changeBranches (orgId userId : Id) (branchIds : List Id) : ATx Unit := do
  let normalizedBranchIds ← validBranchIds orgId branchIds
  match ← Tx.read (currentRole orgId userId) with
  | none => pure ()
  | some (currentRoleId, (role : Role)) => do
    branchesAssigned orgId role.name normalizedBranchIds
    deleteAssignments orgId userId
    assignRole userId currentRoleId role.name normalizedBranchIds

def whenGiven {α : Type} (o : Option α) (f : α → ATx Unit) : ATx Unit :=
  match o with
  | none => pure ()
  | some a => f a

/-- `user.update`, of the fields of the profile that are given. -/
def updateProfile (userId : Id) (data : MemberUpdate) : ATx Unit :=
  if data.hasScalarUpdates then do
    let _ ← update .user userId anyRow fun (u : User) => u
    pure ()
  else pure ()

def findUserOrThrow (orgId userId : Id) : ATx User :=
  Tx.readOrThrow .recordNotFound fun s =>
    (s.get .user userId).filter fun (u : User) => !gone .user u && u.orgId == orgId

def updateTx (orgId userId actorUserId : Id) (data : MemberUpdate) : ATx User := do
  updateProfile userId data
  whenGiven data.roleId (changeRole orgId actorUserId userId)
  whenGiven data.branchIds (changeBranches orgId userId)
  findUserOrThrow orgId userId

def updateMember (orgId userId actorUserId : Id) (data : MemberUpdate) : ACall User := do
  let _ ← getById orgId userId
  if data.namesPassword then
    throw (.badRequest "Passwords cannot be changed through the user profile API. Use the forgot-password link on the login page to reset access, or ask an administrator to invite a new account.")
  else if actorUserId = userId ∧ data.hasScalarUpdates = true then
    throw (.forbidden "Assigned users cannot modify their own core profile fields")
  else if data.wantsRoleChange || data.wantsBranchReassignment || data.hasScalarUpdates then do
    assertActorMayManageTargetUser orgId actorUserId userId
    withBypassRls (updateTx orgId userId actorUserId data)
  else withBypassRls (findUserOrThrow orgId userId)

/-! ## removeAssignment -/

def assignmentWithRole (orgId assignmentId : Id) (s : Db) : Option (RoleAssignment × Role) :=
  ((s.get .roleAssignment assignmentId).filter fun r => !gone .roleAssignment r).bind
    fun (a : RoleAssignment) =>
      ((s.get .role a.roleId).filter fun (r : Role) => r.orgId == orgId).map (a, ·)

@[irreducible] def Role.isOwner (r : Role) : Bool := r.isSystemRole && r.name == "owner"

/-- `roleAssignment.count`, of the organisation's owners. -/
def countOwners (orgId : Id) : ATx ℕ :=
  Tx.read fun s => (seen .roleAssignment (fun _ (r : RoleAssignment) =>
    (s.get .role r.roleId).any fun (role : Role) => role.orgId == orgId && role.isOwner) s).length

/-- An owner is removed only while there are others. -/
def notLastOwner (orgId : Id) (role : Role) : ATx Unit :=
  if role.isOwner then do
    let ownerCount ← countOwners orgId
    if ownerCount ≤ 1 then Tx.throw (.badRequest
      "Cannot remove the last organization owner. Transfer ownership first.")
    else pure ()
  else pure ()

def removeAssignmentTx (orgId assignmentId actorUserId : Id) : ATx Unit := do
  match ← Tx.read (assignmentWithRole orgId assignmentId) with
  | none => Tx.throw (.notFound "Role assignment not found")
  | some (assignment, (role : Role)) => do
    mayManageTargetUser orgId actorUserId assignment.userId
    notLastOwner orgId role
    let _ ← update .roleAssignment assignmentId anyRow fun (r : RoleAssignment) =>
      { r with deleted := true }
    pure ()

/-- `RoleService.removeAssignment`. -/
def removeAssignment (orgId assignmentId actorUserId : Id) : ACall Unit :=
  withBypassRls (removeAssignmentTx orgId assignmentId actorUserId)

/-! ## Requests -/

/-- A request to the account services, for a change of a member, or for the end of an assignment. -/
inductive MemberRequest
  | account (r : Request)
  | update (orgId userId actorUserId : Id) (data : MemberUpdate)
  | removeAssignment (orgId assignmentId actorUserId : Id)

def MemberRequest.run (d : Deployment) : MemberRequest → ACall Answer
  | .account r => r.run d
  | .update orgId userId actorUserId data =>
    (updateMember orgId userId actorUserId data).bind fun u => .pure (.user u)
  | .removeAssignment orgId assignmentId actorUserId =>
    (Accounts.removeAssignment orgId assignmentId actorUserId).bind fun _ => .pure .done

end PatronLoyalty.Accounts
