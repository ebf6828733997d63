import PatronLoyalty.Accounts.Tokens

/-!
# Signing in

`AuthLoginService.login` and `completeTwoFactorLogin`, and the two-factor setup that the memberships of
one account share in the admin dashboard.
-/

namespace PatronLoyalty.Accounts

open Txn
open Loyalty (Id truthy)

/-! ## The shared two-factor setup -/

structure ResolvedAdminTwoFactor where
  memberships : List (Id × User)
  enabled : Bool
  secret : Option String
  backupHashes : Option (List BackupHash)

def hasSecret (u : User) : Bool := (truthy u.adminTwoFactorSecret).isSome

def pickAdminTwoFactorSource (memberships : List (Id × User)) : Option (Id × User) :=
  (memberships.find? fun m => m.2.adminTwoFactorEnabled && hasSecret m.2)
    |>.or (memberships.find? fun m => m.2.adminTwoFactorEnabled)
    |>.or (memberships.find? fun m => hasSecret m.2 && !m.2.adminTwoFactorEnabled)
    |>.or memberships.head?

/-- The memberships that share the setup with `anchor`: of its account, or else of its e-mail. -/
def sharesSetup (anchor : User) (u : User) : Bool :=
  match anchor.accountId with
  | some accountId => u.accountId == some accountId
  | none => u.email.toLower == anchor.email.toLower

def resolveAdminTwoFactor (memberships : List (Id × User)) : ResolvedAdminTwoFactor :=
  let source := pickAdminTwoFactorSource memberships
  { memberships
    enabled := memberships.any fun m => m.2.adminTwoFactorEnabled
    secret := source.bind fun m => m.2.adminTwoFactorSecret
    backupHashes := source.bind fun m => m.2.adminTwoFactorBackupHashes }

def loadAdminTwoFactorMemberships (userId : Id) : ATx (Option ResolvedAdminTwoFactor) := do
  match ← findById .user userId anyRow with
  | none => pure none
  | some (anchor : User) => do
    let memberships ← findMany .user fun _ (u : User) => sharesSetup anchor u
    pure (some (resolveAdminTwoFactor memberships))

/-- `updateMany`, one organisation after the other. -/
def syncOrganizations (userIds : List Id) (data : User → User) : List Id → ATx Unit
  | [] => pure ()
  | orgId :: orgIds => do
    let _ ← updateMany .user (fun id (u : User) => userIds.contains id && u.orgId == orgId) data
    syncOrganizations userIds data orgIds

def syncAdminTwoFactorToMemberships (memberships : List (Id × User)) (data : User → User) :
    ATx Unit :=
  syncOrganizations (memberships.map (·.1)) data (memberships.map fun m => m.2.orgId).eraseDups

/-- `remaining.length ? remaining : Prisma.DbNull`. -/
def orNull (remaining : List BackupHash) : Option (List BackupHash) :=
  if remaining.isEmpty then none else some remaining

/-! ## Credentials -/

/-- `usersWithEmail`: a membership with its organisation and its account. -/
structure Membership where
  id : Id
  user : User
  organization : Organization
  account : Option Account

def joinMembership (s : Db) (r : Id × User) : Option Membership :=
  (s.get .organization r.2.orgId).map fun organization =>
    { id := r.1, user := r.2, organization, account := r.2.accountId.bind (s.get .account) }

/-- `user.findMany` by e-mail, `mode: 'insensitive'`. -/
def usersWithEmail (emailNorm : String) : ATx (List Membership) :=
  Tx.readOrThrow (.database "Inconsistent query result") fun s =>
    (seen .user (fun _ (u : User) => u.email.toLower == emailNorm) s).mapM (joinMembership s)

def authenticatedAccount (account : Option (Id × Account)) (password : String) : Option Id :=
  (account.filter fun a => a.2.passwordHash.accepts password).map (·.1)

/-- The memberships whose own hash accepts the password, but for those of the authenticated account. -/
def legacyValidUserIds (authenticatedAccountId : Option Id) (password : String)
    (users : List Membership) : List Id :=
  (users.filter fun u => !(authenticatedAccountId.isSome &&
    u.user.accountId == authenticatedAccountId) && u.user.passwordHash.accepts password).map (·.id)

/-- **The pool**: an authenticated account opens every membership of the e-mail. -/
def poolOf (authenticatedAccountId : Option Id) (password : String) (users : List Membership) :
    List Membership :=
  users.filter fun u => authenticatedAccountId.isSome ||
    (legacyValidUserIds authenticatedAccountId password users).contains u.id

def finalPool (d : Deployment) (platformAdmin : Bool) (pool : List Membership) : List Membership :=
  if platformAdmin then
    pool.filter fun u => isPlatformOperator d u.id u.user.email u.organization.slug
  else pool

/-! ## Results -/

structure Profile where
  id : Id
  email : String
  orgId : Id
  emailVerified : Bool
  role : String
  twoFactorEnabled : Bool
  platformOperator : Bool
  deriving DecidableEq, Repr

structure OrganizationOption where
  id : Id
  slug : String
  deriving DecidableEq, Repr

inductive LoginResult
  | requiresOrgSelection (organizations : List OrganizationOption)
  | requiresTwoFactor (adminDashboardTwoFactor : Bool) (twoFactorToken : Jwt) (user : Profile)
      (organization : OrganizationOption)
  | signedIn (user : Profile) (organization : OrganizationOption) (tokens : TokenPair)
  deriving DecidableEq, Repr

def Membership.option (m : Membership) : OrganizationOption :=
  { id := m.user.orgId, slug := m.organization.slug }

def Membership.emailVerified (m : Membership) : Bool :=
  (m.account.map (·.emailVerified)).getD false || m.user.emailVerified

def Membership.profile (d : Deployment) (m : Membership) (role : String) : Profile :=
  { id := m.id
    email := m.user.email
    orgId := m.user.orgId
    emailVerified := m.emailVerified
    role
    twoFactorEnabled := m.user.twoFactorEnabled
    platformOperator := isPlatformOperator d m.id m.user.email m.organization.slug }

/-! ## login -/

def Membership.checkStatus (m : Membership) : Except Err Unit :=
  if m.user.status = .suspended then .error (.unauthorized
    "Your account has been suspended. Please contact your organization administrator.")
  else if m.organization.status = .suspended then .error (.unauthorized
    "Your organization has been suspended. Please contact QPlatform support.")
  else .ok ()

def Membership.checkEmailVerified (d : Deployment) (m : Membership) : Except Err Unit :=
  if !m.emailVerified && d.production then .error (.unauthorized
    "Your email address has not been verified. Please check your inbox for a verification link.")
  else .ok ()

def roleName (userId : Id) : ACall String := do
  let assignment ← withBypassRls (do
    match ← findFirst .roleAssignment fun _ (r : RoleAssignment) => r.userId == userId with
    | none => pure none
    | some (_, (r : RoleAssignment)) => findById .role r.roleId anyRow)
  pure ((assignment.map fun (r : Role) => r.name).getD "viewer")

def isE2E (email : String) : Bool := email.endsWith "@qms-e2e.test"

/-- Whether the login needs a second factor: of the admin dashboard's setup or of the user's own. -/
def requiresTwoFactor (platformAdmin : Bool) (m : Membership) : ACall Bool :=
  if platformAdmin then do
    let adminTwoFactor ← withBypassRls (loadAdminTwoFactorMemberships m.id)
    pure ((adminTwoFactor.any fun r => r.enabled) && !isE2E m.user.email)
  else pure (m.user.twoFactorEnabled && !isE2E m.user.email)

def pendingType (platformAdmin : Bool) : String :=
  if platformAdmin then "2fa_pending_admin" else "2fa_pending"

/-- `account.update`: the hash of the membership becomes the account's. -/
def syncPassword (accountId : Id) (hash : PasswordHash) : ATx Account :=
  update .account accountId anyRow fun (a : Account) => { a with passwordHash := hash }

def touchLastLogin (orgId userId now : ℕ) : ATx User :=
  update .user userId (fun (u : User) => u.orgId == orgId)
    fun u => { u with lastLoginAt := some now }

/-- The last part of both ways to sign in. -/
def issueTokens (d : Deployment) (m : Membership) : ACall TokenPair :=
  generateTokenPair d m.id m.user.orgId m.organization.slug m.user.email

def syncLegacyHash (password : String) (account : Option (Id × Account)) (users : List Membership)
    (m : Membership) : ACall Unit :=
  match account with
  | none => pure ()
  | some (accountId, _) =>
    let authenticatedAccountId := authenticatedAccount account password
    if authenticatedAccountId.isNone &&
        (legacyValidUserIds authenticatedAccountId password users).contains m.id then do
      let _ ← withBypassRls (syncPassword accountId m.user.passwordHash)
      pure ()
    else pure ()

/-- The membership is chosen, and its credentials are valid. -/
def signIn (d : Deployment) (platformAdmin : Bool) (password : String)
    (account : Option (Id × Account)) (users : List Membership) (m : Membership) :
    ACall LoginResult := do
  Call.ofExcept (m.checkEmailVerified d)
  Call.ofExcept m.checkStatus
  let role ← roleName m.id
  let secondFactor ← requiresTwoFactor platformAdmin m
  if secondFactor then do
    let now ← readClock
    pure (.requiresTwoFactor platformAdmin
      (sign d.jwtSecret { sub := m.id, typ := some (pendingType platformAdmin) } 300 now)
      (m.profile d role) m.option)
  else do
    syncLegacyHash password account users m
    let now ← readClock
    let _ ← withBypassRls (touchLastLogin m.user.orgId m.id now)
    let tokens ← issueTokens d m
    pure (.signedIn (m.profile d role) m.option tokens)

/-- One attempt of `login`. -/
def loginOnce (d : Deployment) (emailNorm password : String) (orgId : Option Id)
    (platformAdmin : Bool) : ACall LoginResult := do
  let account ← withBypassRls (findUnique .account fun (a : Account) => a.email == emailNorm)
  let users ← withBypassRls (usersWithEmail emailNorm)
  if users.isEmpty && account.isNone then throw (.unauthorized "Invalid email or password")
  else do
    let authenticatedAccountId := authenticatedAccount account password
    if authenticatedAccountId.isNone &&
        (legacyValidUserIds authenticatedAccountId password users).isEmpty then
      throw (.unauthorized "Invalid email or password")
    else do
      let pool := finalPool d platformAdmin (poolOf authenticatedAccountId password users)
      match pool, orgId with
      | [], _ => throw (.unauthorized (if platformAdmin
          then "This sign-in is only for platform operators." else "Invalid email or password"))
      | pool, some orgId =>
        match pool.find? fun u => u.user.orgId == orgId with
        | none => throw (.unauthorized
            "The selected organization is not available for this account.")
        | some user => signIn d platformAdmin password account users user
      | [user], none => signIn d platformAdmin password account users user
      | pool, none => pure (.requiresOrgSelection (pool.map Membership.option))

def login (d : Deployment) (email password : String) (orgId : Option Id) (platformAdmin : Bool) :
    ACall LoginResult :=
  if email = "" ∨ password = "" then throw (.badRequest "Email and password are required")
  else runWithTransientRetry (loginOnce d email.toLower password orgId platformAdmin)

/-! ## completeTwoFactorLogin -/

/-- `user.findUnique` with its organisation and account. -/
def findMembership (userId : Id) : ATx (Option Membership) :=
  Tx.readOrThrow (.database "Inconsistent query result") fun s =>
    match (s.get .user userId).filter fun u => !u.deleted with
    | none => some none
    | some u => (joinMembership s (userId, u)).map some

def matchingBackupCode (code : String) (hashes : List BackupHash) : Option ℕ :=
  hashes.findIdx? (compareBackupCode code)

def verifyAdminCode (d : Deployment) (userId : Id) (code : String) : ACall Bool := do
  let resolved ← withBypassRls (loadAdminTwoFactorMemberships userId)
  let now ← readClock
  match resolved with
  | none => pure false
  | some resolved =>
    if (truthy resolved.secret).any fun secret => verifyTotp d secret code now then pure true
    else
      match resolved.backupHashes with
      | none => pure false
      | some hashes =>
        match matchingBackupCode code hashes with
        | none => pure false
        | some i => do
          Call.fire (.matched .adminDashboard (resolved.memberships.map (·.1)) hashes i)
          withBypassRls (syncAdminTwoFactorToMemberships resolved.memberships fun u =>
            { u with adminTwoFactorBackupHashes := orNull (hashes.eraseIdx i) })
          pure true

/-- `user.update` of the backup codes of one membership. -/
def writeBackupHashes (orgId userId : Id) (hashes : Option (List BackupHash)) : ATx User :=
  update .user userId (fun (u : User) => u.orgId == orgId)
    fun u => { u with twoFactorBackupHashes := hashes }

def verifyUserCode (d : Deployment) (orgId userId : Id) (code : String) : ACall Bool := do
  let u2 ← withBypassRls (findById .user userId anyRow)
  let now ← readClock
  match u2 with
  | none => pure false
  | some (u2 : User) =>
    if (truthy u2.twoFactorSecret).any fun secret => verifyTotp d secret code now then pure true
    else
      match u2.twoFactorBackupHashes with
      | none => pure false
      | some hashes =>
        match matchingBackupCode code hashes with
        | none => pure false
        | some i => do
          Call.fire (.matched .organization [userId] hashes i)
          let _ ← withBypassRls (writeBackupHashes orgId userId (orNull (hashes.eraseIdx i)))
          pure true

def requireSecondFactor (isAdminTotp : Bool) (m : Membership) : ACall Unit :=
  if isAdminTotp then do
    let adminTwoFactor ← withBypassRls (loadAdminTwoFactorMemberships m.id)
    if adminTwoFactor.any fun r => r.enabled then pure ()
    else throw (.unauthorized
      "Admin Dashboard two-factor verification is not required for this account")
  else if m.user.twoFactorEnabled then pure ()
  else throw (.unauthorized "Two-factor verification is not required for this account")

def verifySecondFactor (d : Deployment) (isAdminTotp : Bool) (m : Membership) (code : String) :
    ACall Bool :=
  if isAdminTotp then verifyAdminCode d m.id code else verifyUserCode d m.user.orgId m.id code

def completeTwoFactorOnce (d : Deployment) (twoFactorToken : Jwt) (code : String) :
    ACall LoginResult := do
  let verifiedAt ← readClock
  match verify d.jwtSecret twoFactorToken verifiedAt with
  | none => throw (.unauthorized "Invalid or expired two-factor session")
  | some decoded => do
    let isAdminTotp := decoded.typ == some "2fa_pending_admin"
    if decoded.typ ≠ some "2fa_pending" ∧ isAdminTotp = false then
      throw (.unauthorized "Invalid two-factor session")
    else
      match ← withBypassRls (findMembership decoded.sub) with
      | none => throw (.unauthorized "Invalid two-factor session")
      | some user => do
        Call.ofExcept user.checkStatus
        requireSecondFactor isAdminTotp user
        let verified ← verifySecondFactor d isAdminTotp user (removeSpaces code)
        if verified = false then throw (.unauthorized "Invalid authenticator code")
        else do
          let now ← readClock
          let _ ← withBypassRls (touchLastLogin user.user.orgId user.id now)
          let role ← roleName user.id
          let tokens ← issueTokens d user
          pure (.signedIn (user.profile d role) user.option tokens)

def completeTwoFactorLogin (d : Deployment) (twoFactorToken : Jwt) (code : String) :
    ACall LoginResult :=
  runWithTransientRetry (completeTwoFactorOnce d twoFactorToken code)

end PatronLoyalty.Accounts
