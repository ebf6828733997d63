import Mathlib.Algebra.Group.Nat.Defs
import PatronLoyalty.Accounts.Login

/-!
# Members of an organisation

`UserService`: inviting, passwords set by an administrator, deactivation and deletion; the role checks of
`role-assignment-authorization`; `AuthPasswordService.resetPassword` and
`TwoFactorService.regenerateBackupCodes`. The seats a plan allows are an input of the environment, and so
is whether rows elsewhere forbid a deletion.
-/

namespace PatronLoyalty.Accounts

open Txn
open Auth (SystemRole normalizeSystemRoleName)
open Loyalty (Id truthy)

/-! ## Who may manage whom -/

def systemRoleRank : SystemRole → ℕ
  | .owner => 5
  | .admin => 4
  | .manager => 3
  | .staff => 2
  | .viewer => 1

def actorMayAssignRoles : Option SystemRole → Bool
  | some .owner | some .admin | some .manager => true
  | _ => false

def canActorAssignRole (actor target : Option SystemRole) : Bool :=
  actorMayAssignRoles actor && match actor, target with
    | some actor, some target => decide (systemRoleRank target ≤ systemRoleRank actor)
    | _, _ => true

def canActorManageUserWithRole (actor target : Option SystemRole) : Bool :=
  actorMayAssignRoles actor && match actor, target with
    | _, none => true
    | some .owner, _ => true
    | some actor, some target => decide (systemRoleRank target < systemRoleRank actor)
    | none, _ => true

def assignRoleForbiddenMessage (actor target : Option SystemRole) : String :=
  if actorMayAssignRoles actor = false then "Your role cannot assign or change team member roles."
  else if target = some .owner ∧ actor ≠ some .owner then
    "Only an organization owner may assign the owner role."
  else if target = some .admin ∧ actor = some .manager then
    "Managers cannot assign the admin role."
  else "You cannot assign the " ++ (target.map SystemRole.name).getD "selected" ++
    " role with your current permissions."

def manageUserForbiddenMessage (actor target : Option SystemRole) : String :=
  if actorMayAssignRoles actor = false then "Your role cannot manage other team members."
  else if target = some .owner ∧ actor ≠ some .owner then
    "Only an organization owner may modify an owner account."
  else if target = some .admin ∧ actor = some .manager then
    "Managers cannot modify admin accounts."
  else match actor, target with
    | some a, some t =>
      if systemRoleRank t ≥ systemRoleRank a ∧ a ≠ .owner then
        "Your role (" ++ a.name ++
          ") does not have permission to manage team members with equal or higher roles."
      else "You cannot manage this team member with your current role."
    | _, _ => "You cannot manage this team member with your current role."

def systemRolesOf (orgId userId : Id) : ATx (List SystemRole) := do
  let assignments ← findMany .roleAssignment fun _ (r : RoleAssignment) => r.userId == userId
  let roles ← findMany .role fun id (r : Role) => r.orgId == orgId && r.isSystemRole &&
    assignments.any fun a => a.2.roleId == id
  pure (roles.filterMap fun r => normalizeSystemRoleName (some r.2.name))

def highestRole (roles : List SystemRole) : Option SystemRole :=
  roles.foldl (fun best role => match best with
    | none => some role
    | some b => if systemRoleRank b < systemRoleRank role then some role else some b) none

def resolveUserHighestSystemRole (orgId userId : Id) : ACall (Option SystemRole) := do
  let roles ← withBypassRls (systemRolesOf orgId userId)
  pure (highestRole roles)

def findRole (orgId roleId : Id) : ATx (Option Role) :=
  findById .role roleId fun (r : Role) => r.orgId == orgId

def assertActorMayAssignRoleId (orgId actorUserId targetRoleId : Id) : ACall Unit := do
  match ← withBypassRls (findRole orgId targetRoleId) with
  | none => throw (.forbidden "Role not found in this organization")
  | some role => do
    let actorRole ← resolveUserHighestSystemRole orgId actorUserId
    let targetRole := normalizeSystemRoleName (some role.name)
    if canActorAssignRole actorRole targetRole then pure ()
    else throw (.forbidden (assignRoleForbiddenMessage actorRole targetRole))

def assertActorMayManageTargetUser (orgId actorUserId targetUserId : Id) : ACall Unit := do
  let actorRole ← resolveUserHighestSystemRole orgId actorUserId
  let targetRole ← resolveUserHighestSystemRole orgId targetUserId
  if canActorManageUserWithRole actorRole targetRole then pure ()
  else throw (.forbidden (manageUserForbiddenMessage actorRole targetRole))

/-! ## Passwords -/

/-- The issues `passwordSchema` finds. -/
def passwordIssues (password : String) : List String :=
  let has := fun p => password.toList.any p
  (if password.length < 8 then ["Password must be at least 8 characters"] else []) ++
    (if 128 < password.length then ["Password must be at most 128 characters"] else []) ++
    if has Char.isLower && has Char.isUpper && has Char.isDigit then []
    else ["Password must contain at least one lowercase letter, one uppercase letter, and one digit"]

/-- `passwordSchema.parse`; the message of a `ZodError` lists its issues. -/
def parsePassword (password : String) : Except Err Unit :=
  if (passwordIssues password).isEmpty then .ok ()
  else .error (.badRequest (String.intercalate "\n" (passwordIssues password)))

/-! ## Seats -/

/-- `planLimits.checkLimit`: the plan's seats are an input, zero for a plan without a limit. -/
def checkSeats (orgId : Id) (message : ℕ → String) : ACall Unit := do
  let active ← withBypassRls (findMany .user fun _ (u : User) =>
    u.orgId == orgId && decide (u.status = .active))
  let limit ← Call.input
  if limit ≠ 0 ∧ limit ≤ active.length then throw (.forbidden (message limit))
  else pure ()

/-! ## Members -/

/-- `getById`. -/
def getById (orgId userId : Id) : ACall User := do
  match ← withBypassRls (findById .user userId fun (u : User) => u.orgId == orgId) with
  | some user => pure user
  | none => throw (.notFound "User not found")

structure Invitation where
  email : String
  roleId : Id
  password : String
  branchIds : List Id := []

def validateBranchIds (orgId : Id) (branchIds : List Id) : ACall (List Id) :=
  if branchIds.eraseDups.isEmpty then pure []
  else do
    let rows ← withBypassRls (findMany .branch fun id (b : Branch) =>
      b.orgId == orgId && branchIds.eraseDups.contains id)
    if rows.length ≠ branchIds.eraseDups.length then
      throw (.badRequest "One or more selected branches are invalid")
    else pure branchIds.eraseDups

def roleRequiresAssignedBranches (roleName : String) : Bool :=
  ["manager", "staff", "viewer"].contains roleName.toLower

def assertAssignedBranchesIfNeeded (orgId : Id) (roleName : String) (branchIds : List Id) :
    ACall Unit := do
  let branches ← withBypassRls (findMany .branch fun _ (b : Branch) => b.orgId == orgId)
  if branches.isEmpty = false ∧ roleRequiresAssignedBranches roleName = true ∧
      branchIds.isEmpty = true then
    throw (.badRequest "Select at least one branch. This organization has branch locations, so assigned branches are required for this role.")
  else pure ()

/-- `roleAssignment.createMany`. -/
def createAssignments (userId roleId : Id) : List Id → ATx Unit
  | [] => pure ()
  | branchId :: branchIds => do
    let _ ← create .roleAssignment { userId, roleId, branchId := some branchId }
    createAssignments userId roleId branchIds

def assignRole (userId roleId : Id) (roleName : String) (branchIds : List Id) : ATx Unit :=
  if roleName = "owner" ∨ roleName = "admin" ∨ branchIds = [] then do
    let _ ← create .roleAssignment { userId, roleId }
    pure ()
  else createAssignments userId roleId branchIds

def accountForInvite (emailNorm : String) (hashedPassword : PasswordHash) :
    ATx (Id × PasswordHash) := do
  match ← findUnique .account fun (a : Account) => a.email == emailNorm with
  | some (id, (existingAccount : Account)) => pure (id, existingAccount.passwordHash)
  | none => do
    let id ← create .account
      { email := emailNorm, passwordHash := hashedPassword, emailVerified := true }
    pure (id, hashedPassword)

def inviteTx (orgId : Id) (emailNorm : String) (hashedPassword : PasswordHash) (roleId : Id)
    (roleName : String) (branchIds : List Id) : ATx Id := do
  let account ← accountForInvite emailNorm hashedPassword
  let userId ← create .user
    { accountId := some account.1, orgId, email := emailNorm, passwordHash := account.2
      status := .active, emailVerified := true }
  assignRole userId roleId roleName branchIds
  pure userId

def invite (orgId actorUserId : Id) (data : Invitation) : ACall Id := do
  assertActorMayAssignRoleId orgId actorUserId data.roleId
  let existing ← withBypassRls (findFirst .user fun _ (u : User) =>
    u.email == data.email && u.orgId == orgId)
  if existing.isSome then
    throw (.conflict "User with this email already exists in this organization")
  else do
    checkSeats orgId fun limit => "Staff seat limit reached. Your plan allows " ++
      toString limit ++ " active users. Deactivate someone or upgrade to invite more."
    Call.ofExcept (parsePassword data.password)
    match ← withBypassRls (findRole orgId data.roleId) with
    | none => throw (.badRequest "Role not found in this organization")
    | some role => do
      let branchIds ← validateBranchIds orgId data.branchIds
      assertAssignedBranchesIfNeeded orgId role.name branchIds
      withBypassRls (inviteTx orgId data.email.toLower ⟨data.password⟩ data.roleId role.name
        branchIds)

def User.clearTwoFactor (u : User) : User :=
  { u with
    twoFactorEnabled := false
    twoFactorSecret := none
    twoFactorBackupHashes := none
    adminTwoFactorEnabled := false
    adminTwoFactorSecret := none
    adminTwoFactorBackupHashes := none }

/-- A new password, with all that comes with it. -/
def User.recover (passwordHash : PasswordHash) (u : User) : User :=
  { u.clearTwoFactor with passwordHash, status := .active, emailVerified := true }

/-- Change a member and revoke the sessions. -/
def recoverTx (orgId userId : Id) (f : User → User) (now : ℕ) : ATx Unit := do
  let _ ← update .user userId (fun (u : User) => u.orgId == orgId) f
  let _ ← revokeSessions [userId] now
  pure ()

/-- What `resetTwoFactorForUser` and `setPasswordForUser` begin with. -/
def recoverable (orgId targetUserId actorUserId : Id) (message : String)
    (parse : Except Err Unit) : ACall User := do
  if actorUserId = targetUserId then throw (.forbidden message)
  else do
    let _ ← getById orgId targetUserId
    assertActorMayManageTargetUser orgId actorUserId targetUserId
    Call.ofExcept parse
    getById orgId targetUserId

def resetTwoFactorForUser (orgId targetUserId actorUserId : Id) : ACall Unit := do
  let _ ← recoverable orgId targetUserId actorUserId "You cannot reset two-factor authentication for your own account from here. Use your authenticator and backup codes in Settings, ask another administrator, or use the email password reset flow if you are the organization owner."
    (.ok ())
  let now ← readClock
  withBypassRls (recoverTx orgId targetUserId User.clearTwoFactor now)

def setPasswordForUser (orgId targetUserId actorUserId : Id) (newPassword : String) :
    ACall Unit := do
  let _ ← recoverable orgId targetUserId actorUserId "You cannot set your own password here. Use account settings or the email password reset flow where applicable."
    (parsePassword newPassword)
  let now ← readClock
  withBypassRls (recoverTx orgId targetUserId (User.recover ⟨newPassword⟩) now)

/-- `user.update` of the status of a member. -/
def setStatus (orgId userId : Id) (status : UserStatus) : ATx User :=
  update .user userId (fun (u : User) => u.orgId == orgId) fun u => { u with status }

def deactivate (orgId userId actorUserId : Id) : ACall User := do
  let _ ← getById orgId userId
  assertActorMayManageTargetUser orgId actorUserId userId
  let updated ← withBypassRls (setStatus orgId userId .inactive)
  invalidateAuthUserCache userId
  pure updated

def activate (orgId userId actorUserId : Id) : ACall User := do
  let existing ← getById orgId userId
  assertActorMayManageTargetUser orgId actorUserId userId
  if existing.status ≠ .active then
    checkSeats orgId fun limit => "Staff seat limit reached. Your plan allows " ++
      toString limit ++ " active users. Deactivate someone or upgrade to reactivate this account."
  else pure ()
  let updated ← withBypassRls (setStatus orgId userId .active)
  invalidateAuthUserCache userId
  pure updated

/-- `roleAssignment.deleteMany`, for the roles of the organisation. -/
def deleteAssignments (orgId userId : Id) : ATx Unit := do
  let roles ← findMany .role fun _ (r : Role) => r.orgId == orgId
  let _ ← updateMany .roleAssignment (fun _ (r : RoleAssignment) =>
    r.userId == userId && (roles.map (·.1)).contains r.roleId) fun r => { r with deleted := true }
  pure ()

def deleteSessions (userId : Id) : ATx ℕ :=
  updateMany .session (fun _ (r : SessionRow) => r.userId == userId)
    fun r => { r with deleted := true }

/-- `user.delete`: the rows that belong to the user go with it. -/
def deleteUser (orgId userId : Id) : ATx Unit := do
  let referenced ← Tx.input
  if referenced % 2 = 1 then Tx.throw .foreignKeyViolation
  else do
    let _ ← update .user userId (fun (u : User) => u.orgId == orgId)
      fun u => { u with deleted := true }
    let _ ← deleteSessions userId
    let _ ← updateMany .passwordReset (fun _ (r : PasswordReset) => r.userId == userId)
      fun r => { r with deleted := true }
    let _ ← updateMany .roleAssignment (fun _ (r : RoleAssignment) => r.userId == userId)
      fun r => { r with deleted := true }
    pure ()

def deleteTx (orgId userId : Id) : ATx Unit := do
  deleteAssignments orgId userId
  let _ ← deleteSessions userId
  deleteUser orgId userId

/-- `delete`. -/
def remove (orgId userId actorUserId : Id) : ACall Unit := do
  let _ ← getById orgId userId
  assertActorMayManageTargetUser orgId actorUserId userId
  withBypassRls (deleteTx orgId userId)
  invalidateAuthUserCache userId

/-! ## resetPassword -/

def markUsed (id : Id) (now : ℕ) : ATx PasswordReset :=
  update .passwordReset id anyRow fun (r : PasswordReset) => { r with usedAt := some now }

/-- `user.updateMany`, one organisation after the other. -/
def recoverOrganizations (accountId : Id) (passwordHash : PasswordHash) : List Id → ATx Unit
  | [] => pure ()
  | orgId :: orgIds => do
    let _ ← updateMany .user (fun _ (u : User) => u.accountId == some accountId && u.orgId == orgId)
      (User.recover passwordHash)
    recoverOrganizations accountId passwordHash orgIds

def resetPasswordTx (resetId userId : Id) (target : User) (passwordHash : PasswordHash)
    (now : ℕ) : ATx Unit := do
  let _ ← markUsed resetId now
  match target.accountId with
  | some accountId => do
    let _ ← update .account accountId anyRow fun (a : Account) =>
      { a with passwordHash, emailVerified := true }
    let siblings ← findMany .user fun _ (u : User) => u.accountId == some accountId
    recoverOrganizations accountId passwordHash (siblings.map fun m => m.2.orgId).eraseDups
    let _ ← revokeSessions (siblings.map (·.1)) now
    pure ()
  | none => do
    let _ ← update .user userId (fun (u : User) => u.orgId == target.orgId)
      (User.recover passwordHash)
    let _ ← revokeSessions [userId] now
    pure ()

def resetPassword (token newPassword : String) : ACall Unit := do
  let now ← readClock
  match ← runWithTransientRetry (withBypassRls (findFirst .passwordReset
      fun _ (r : PasswordReset) => r.tokenHash == sha256 token && r.usedAt.isNone &&
        decide (now < r.expiresAt))) with
  | none => throw (.badRequest "Invalid or expired reset token")
  | some (resetId, (matched : PasswordReset)) => do
    Call.ofExcept (parsePassword newPassword)
    match ← withBypassRls (findById .user matched.userId anyRow) with
    | none => throw (.badRequest "Invalid or expired reset token")
    | some target => do
      let usedAt ← readClock
      withBypassRls (resetPasswordTx resetId matched.userId target ⟨newPassword⟩ usedAt)

/-! ## regenerateBackupCodes -/

def hexDigit (n : ℕ) : Char := ("0123456789ABCDEF".toList[n % 16]?).getD '0'

/-- `randomBytes(5).toString('hex').toUpperCase()` of a random number. -/
def backupCode (random : ℕ) : String :=
  String.ofList ((List.range 10).map fun i : ℕ => hexDigit (random / 16 ^ (9 - i)))

def generateBackupCodes : ℕ → ACall (List String)
  | 0 => pure []
  | count + 1 => do
    let out ← generateBackupCodes count
    let random ← Call.input
    pure (out ++ [backupCode random])

/-- `bcrypt.hash` of every code, each with a salt of its own. -/
def hashBackupCodes : List String → ACall (List BackupHash)
  | [] => pure []
  | code :: codes => do
    let salt ← Call.input
    let hashes ← hashBackupCodes codes
    pure (.bcrypt code salt :: hashes)

/-- `user.findUnique` and `loadAdminTwoFactorMemberships`. -/
def loadAdminTwoFactor (userId : Id) : ATx (Option (PasswordHash × ResolvedAdminTwoFactor)) := do
  match ← findById .user userId anyRow with
  | none => pure none
  | some (u : User) => do
    let admin ← loadAdminTwoFactorMemberships userId
    pure (admin.map fun admin => (u.passwordHash, admin))

/-- The password and the code of a change to the two-factor setup. -/
def checkFactors (d : Deployment) (passwordHash : PasswordHash) (secret : Option String)
    (password totpCode : String) (now : ℕ) : Except Err Unit :=
  if passwordHash.accepts password = false then .error (.badRequest "Invalid password")
  else if ((truthy secret).any fun s => verifyTotp d s (removeSpaces totpCode) now) = false then
    .error (.unauthorized "Invalid authenticator code")
  else .ok ()

def regenerateAdminCodes (d : Deployment) (userId : Id) (password totpCode : String) :
    ACall (List String) := do
  match ← withBypassRls (loadAdminTwoFactor userId) with
  | none => throw (.badRequest "User not found")
  | some (passwordHash, admin) =>
    if admin.enabled = false ∨ truthy admin.secret = none then
      throw (.badRequest "Two-factor authentication is not enabled")
    else do
      let now ← readClock
      Call.ofExcept (checkFactors d passwordHash admin.secret password totpCode now)
      let plainCodes ← generateBackupCodes 8
      let hashes ← hashBackupCodes plainCodes
      Call.fire (.regenerated .adminDashboard (admin.memberships.map (·.1)) hashes)
      withBypassRls (syncAdminTwoFactorToMemberships admin.memberships fun u =>
        { u with adminTwoFactorBackupHashes := some hashes })
      pure plainCodes

def regenerateUserCodes (d : Deployment) (userId : Id) (password totpCode : String) :
    ACall (List String) := do
  match ← withBypassRls (findById .user userId anyRow) with
  | none => throw (.badRequest "User not found")
  | some (u : User) =>
    if u.twoFactorEnabled = false ∨ truthy u.twoFactorSecret = none then
      throw (.badRequest "Two-factor authentication is not enabled")
    else do
      let now ← readClock
      Call.ofExcept (checkFactors d u.passwordHash u.twoFactorSecret password totpCode now)
      let plainCodes ← generateBackupCodes 8
      let hashes ← hashBackupCodes plainCodes
      Call.fire (.regenerated .organization [userId] hashes)
      let _ ← withBypassRls (writeBackupHashes u.orgId userId (some hashes))
      pure plainCodes

def regenerateBackupCodes (d : Deployment) (userId : Id) (password totpCode : String) :
    TotpChannel → ACall (List String)
  | .adminDashboard => regenerateAdminCodes d userId password totpCode
  | .organization => regenerateUserCodes d userId password totpCode

/-! ## Requests -/

inductive Request
  | login (email password : String) (orgId : Option Id) (platformAdmin : Bool)
  | completeTwoFactorLogin (twoFactorToken : Jwt) (code : String)
  | refreshTokens (refreshToken : Jwt)
  | authenticate (token : Jwt)
  | logout (userId : Id)
  | invite (orgId actorUserId : Id) (data : Invitation)
  | setPasswordForUser (orgId targetUserId actorUserId : Id) (newPassword : String)
  | resetTwoFactorForUser (orgId targetUserId actorUserId : Id)
  | deactivate (orgId userId actorUserId : Id)
  | activate (orgId userId actorUserId : Id)
  | delete (orgId userId actorUserId : Id)
  | resetPassword (token newPassword : String)
  | regenerateBackupCodes (userId : Id) (password totpCode : String) (channel : TotpChannel)

inductive Answer
  | login (r : LoginResult)
  | refreshed (userId : Id) (tokens : TokenPair) (platformOperator : Bool)
  | authenticated (user : AuthenticatedUser)
  | user (u : User)
  | invited (userId : Id)
  | backupCodes (plainCodes : List String)
  | done
  deriving DecidableEq, Repr

def Request.run (d : Deployment) : Request → ACall Answer
  | .login email password orgId platformAdmin =>
    (Accounts.login d email password orgId platformAdmin).bind fun r => .pure (.login r)
  | .completeTwoFactorLogin token code =>
    (Accounts.completeTwoFactorLogin d token code).bind fun r => .pure (.login r)
  | .refreshTokens token =>
    (Accounts.refreshTokens d token).bind fun r => .pure (.refreshed r.1 r.2.1 r.2.2)
  | .authenticate token => (Accounts.authenticate d token).bind fun u => .pure (.authenticated u)
  | .logout userId => (Accounts.logout userId).bind fun _ => .pure .done
  | .invite orgId actorUserId data =>
    (Accounts.invite orgId actorUserId data).bind fun id => .pure (.invited id)
  | .setPasswordForUser orgId targetUserId actorUserId newPassword =>
    (Accounts.setPasswordForUser orgId targetUserId actorUserId newPassword).bind
      fun _ => .pure .done
  | .resetTwoFactorForUser orgId targetUserId actorUserId =>
    (Accounts.resetTwoFactorForUser orgId targetUserId actorUserId).bind fun _ => .pure .done
  | .deactivate orgId userId actorUserId =>
    (Accounts.deactivate orgId userId actorUserId).bind fun u => .pure (.user u)
  | .activate orgId userId actorUserId =>
    (Accounts.activate orgId userId actorUserId).bind fun u => .pure (.user u)
  | .delete orgId userId actorUserId =>
    (remove orgId userId actorUserId).bind fun _ => .pure .done
  | .resetPassword token newPassword =>
    (Accounts.resetPassword token newPassword).bind fun _ => .pure .done
  | .regenerateBackupCodes userId password totpCode channel =>
    (Accounts.regenerateBackupCodes d userId password totpCode channel).bind
      fun plainCodes => .pure (.backupCodes plainCodes)

abbrev Run := Config Db DbWrite Err Mark Answer

abbrev Line := Entry Db Err Mark Answer

def start (d : Deployment) (s : Db) (requests : List Request) : Run :=
  serve (Request.run d) s requests

/-- `n` steps of request `i`. -/
def turns (i n : ℕ) : List (ℕ × Move Err) := List.replicate n (i, .go 0)

/-! ## Specimens -/

def table {k : Kind} (rows : List (Id × Row k)) : AList fun _ : ℕ => Row k :=
  rows.foldr (fun r t => t.insert r.1 r.2) ∅

end PatronLoyalty.Accounts
