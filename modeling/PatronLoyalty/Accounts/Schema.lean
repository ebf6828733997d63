import Mathlib.Data.PNat.Defs
import PatronLoyalty.Auth.RbacGuard
import PatronLoyalty.Txn.Bodies

/-!
# The schema of accounts and sessions

Rows and statements of the authentication and user services, over the relational store of
`Txn.Relational`. Redis keys are rows too: an entry of the auth-user cache is the row of its user. A row
that has been deleted stays as a row no statement sees (`deleted`).

Cryptography is symbolic. A bcrypt hash is the text it was made of, and `bcrypt.compare` accepts just
that text; a SHA-256 digest is its preimage; a token is its secret, claims and times, and verifying it
compares the secret. What the deployment configures is a parameter (`Deployment`). Audit entries, mails,
the sync of permission rows and the columns no modelled function reads are left out.
-/

namespace PatronLoyalty.Accounts

open Txn
open Auth (SystemRole normalizeSystemRoleName)
open Loyalty (Id truthy trim)

/-! ## Cryptography -/

/-- What `bcrypt.hash` makes of a password. -/
structure PasswordHash where
  plain : String
  deriving DecidableEq, Repr

/-- `bcrypt.compare`. -/
def PasswordHash.accepts (h : PasswordHash) (password : String) : Bool := password == h.plain

/-- What the database holds of a backup code: a bcrypt hash with its salt, or a digest. -/
inductive BackupHash
  | bcrypt (plain : String) (salt : ℕ)
  | sha256 (plain : String)
  deriving DecidableEq, Repr

def hashBackupCode (code : String) : BackupHash := .sha256 (trim code.toUpper)

def compareBackupCode (plain : String) (hash : BackupHash) : Bool :=
  let normalized := trim plain.toUpper
  match hash with
  | .bcrypt p _ => normalized == p
  | .sha256 _ => hashBackupCode normalized == hash

/-- The claims of a token. -/
structure JwtPayload where
  sub : Id
  typ : Option String := none
  userId : Option Id := none
  orgId : Option Id := none
  orgSlug : String := ""
  email : Option String := none
  imp : Bool := false
  actAsOrgId : Option Id := none
  actAsRole : Option String := none
  actAsBranchId : Option Id := none
  jti : Option Id := none
  deriving DecidableEq, Repr

/-- A signed token; times in seconds. -/
structure Jwt where
  secret : String
  payload : JwtPayload
  iat : ℕ
  exp : ℕ
  deriving DecidableEq, Repr

/-- `jwtService.sign`, at the time `now` in milliseconds. -/
def sign (secret : String) (payload : JwtPayload) (expiresIn now : ℕ) : Jwt :=
  { secret, payload, iat := now / 1000, exp := now / 1000 + expiresIn }

/-- `jwtService.verify`. -/
def verify (secret : String) (token : Jwt) (now : ℕ) : Option JwtPayload :=
  if token.secret = secret ∧ now / 1000 < token.exp then some token.payload else none

structure Sha256 (α : Type) where
  preimage : α
  deriving DecidableEq, Repr

def sha256 {α : Type} (v : α) : Sha256 α := ⟨v⟩

/-! ## Configuration -/

/-- A quarter of an hour, in seconds. -/
def defaultImpersonationTtl : ℕ+ := ⟨900, Nat.succ_pos 899⟩

structure Deployment where
  /-- `app.env` is `production`. -/
  production : Bool := true
  jwtSecret : String := "change-me"
  refreshSecret : String := "change-me-refresh"
  accessTtl : ℕ := 900
  refreshTtl : ℕ := 2592000
  /-- `JWT_IMPERSONATION_TTL`, in seconds. -/
  impersonationAccessTtl : ℕ+ := defaultImpersonationTtl
  /-- `AUTH_USER_CACHE_TTL_SECONDS` -/
  authUserCacheTtl : ℕ := 20
  /-- `PLATFORM_OPERATOR_USER_IDS` -/
  operatorUserIds : List Id := []
  /-- `PLATFORM_OPERATOR_EMAILS`, in lower case. -/
  operatorEmails : List String := []
  /-- `authenticator.verify` of a secret and a token, at a time. -/
  authenticator : String → String → ℕ → Bool := fun _ _ _ => false

def orDefault (value default : ℕ) : ℕ := if value = 0 then default else value

def isSpaceless (c : Char) : Bool := !Loyalty.isSpace c

/-- `code.replace(/\s/g, '')`. -/
def removeSpaces (code : String) : String := String.ofList (code.toList.filter isSpaceless)

def verifyTotp (d : Deployment) (secret token : String) (now : ℕ) : Bool :=
  let t := removeSpaces token
  decide (6 ≤ t.length) && d.authenticator secret t now

def isPlatformOperator (d : Deployment) (userId : Id) (email orgSlug : String) : Bool :=
  let em := (trim email).toLower
  orgSlug == "queueplatform-internal" || d.operatorUserIds.contains userId ||
    em != "" && d.operatorEmails.contains em

/-! ## Rows -/

inductive OrgStatus
  | active | suspended
  deriving DecidableEq, Repr

inductive UserStatus
  | active | inactive | suspended | pendingVerification
  deriving DecidableEq, Repr

structure Organization where
  slug : String
  status : OrgStatus := .active
  deriving DecidableEq, Repr

structure Account where
  email : String
  passwordHash : PasswordHash
  emailVerified : Bool := false
  deriving DecidableEq, Repr

/-- A membership of an organisation. -/
structure User where
  accountId : Option Id := none
  orgId : Id
  email : String
  passwordHash : PasswordHash
  status : UserStatus := .pendingVerification
  emailVerified : Bool := false
  lastLoginAt : Option ℕ := none
  twoFactorSecret : Option String := none
  twoFactorEnabled : Bool := false
  twoFactorBackupHashes : Option (List BackupHash) := none
  adminTwoFactorSecret : Option String := none
  adminTwoFactorEnabled : Bool := false
  adminTwoFactorBackupHashes : Option (List BackupHash) := none
  deleted : Bool := false
  deriving DecidableEq, Repr

structure SessionRow where
  userId : Id
  tokenHash : Sha256 Jwt
  expiresAt : ℕ
  revokedAt : Option ℕ := none
  deleted : Bool := false
  deriving DecidableEq, Repr

structure PasswordReset where
  userId : Id
  tokenHash : Sha256 String
  expiresAt : ℕ
  usedAt : Option ℕ := none
  deleted : Bool := false
  deriving DecidableEq, Repr

structure Role where
  orgId : Id
  name : String
  isSystemRole : Bool := true
  deriving DecidableEq, Repr

structure RoleAssignment where
  userId : Id
  roleId : Id
  branchId : Option Id := none
  deleted : Bool := false
  deriving DecidableEq, Repr

structure Branch where
  orgId : Id
  deriving DecidableEq, Repr

structure CachedAuthUser where
  orgId : Id
  email : String
  status : UserStatus
  organization : Option (OrgStatus × String)
  deriving DecidableEq, Repr

/-- The Redis key `auth:user:<id>`. -/
structure CacheEntry where
  /-- `none`: the key does not exist. -/
  user : Option CachedAuthUser
  expiresAt : ℕ
  deriving DecidableEq, Repr

/-- The Redis key `auth:blacklist:<jti>`. -/
structure BlacklistEntry where
  expiresAt : ℕ
  deriving DecidableEq, Repr

inductive Kind
  | organization | account | user | session | passwordReset | role | roleAssignment | branch
  | authUser | blacklist
  deriving DecidableEq, Repr

abbrev Row : Kind → Type
  | .organization => Organization
  | .account => Account
  | .user => User
  | .session => SessionRow
  | .passwordReset => PasswordReset
  | .role => Role
  | .roleAssignment => RoleAssignment
  | .branch => Branch
  | .authUser => CacheEntry
  | .blacklist => BlacklistEntry

instance : (k : Kind) → DecidableEq (Row k)
  | .organization => inferInstanceAs (DecidableEq Organization)
  | .account => inferInstanceAs (DecidableEq Account)
  | .user => inferInstanceAs (DecidableEq User)
  | .session => inferInstanceAs (DecidableEq SessionRow)
  | .passwordReset => inferInstanceAs (DecidableEq PasswordReset)
  | .role => inferInstanceAs (DecidableEq Role)
  | .roleAssignment => inferInstanceAs (DecidableEq RoleAssignment)
  | .branch => inferInstanceAs (DecidableEq Branch)
  | .authUser => inferInstanceAs (DecidableEq CacheEntry)
  | .blacklist => inferInstanceAs (DecidableEq BlacklistEntry)

def gone : (k : Kind) → Row k → Bool
  | .user, r => r.deleted
  | .session, r => r.deleted
  | .passwordReset, r => r.deleted
  | .roleAssignment, r => r.deleted
  | _, _ => false

inductive UniqueKey
  | account (email : String)
  | userEmail (orgId : Id) (email : String)
  | userAccount (accountId orgId : Id)
  | role (orgId : Id) (name : String)
  | roleAssignment (userId roleId branchId : Id)
  deriving DecidableEq, Repr

def uniqueKeys : (k : Kind) → Row k → List UniqueKey
  | .account, r => [.account r.email]
  | .user, r => if r.deleted then [] else
    .userEmail r.orgId r.email :: (r.accountId.map fun a => .userAccount a r.orgId).toList
  | .role, r => [.role r.orgId r.name]
  | .roleAssignment, r => if r.deleted then [] else
    (r.branchId.map fun b => .roleAssignment r.userId r.roleId b).toList
  | _, _ => []

instance : Keyed Row Empty UniqueKey where
  keys := uniqueKeys
  logKeys _ := []

/-! ## Errors -/

/-- What a service throws: an HTTP exception, a Prisma error, or a failure of the database. -/
inductive Err
  | badRequest (message : String)
  | unauthorized (message : String)
  | forbidden (message : String)
  | notFound (message : String)
  | conflict (message : String)
  /-- `P2002` -/
  | uniqueViolation
  /-- `P2003` -/
  | foreignKeyViolation
  /-- `P2025` -/
  | recordNotFound
  /-- What `jwtService.verify` throws. -/
  | jsonWebToken
  | database (message : String)
  deriving DecidableEq, Repr

instance : Faulty Err where
  fault
    | .database _ => true
    | _ => false

abbrev Db := Rel Row Empty
abbrev DbWrite := Rel.Write Row Empty

/-- A transaction of the account services. -/
abbrev ATx := Tx Db DbWrite Err

inductive TotpChannel
  | organization | adminDashboard
  deriving DecidableEq, Repr

/-- What a request leaves in its history, for the proofs alone. -/
inductive Mark
  | clock (now : ℕ)
  | matched (channel : TotpChannel) (userIds : List Id) (hashes : List BackupHash) (place : ℕ)
  | regenerated (channel : TotpChannel) (userIds : List Id) (hashes : List BackupHash)
  deriving DecidableEq, Repr

/-- A request to the account services. -/
abbrev ACall := Call Db DbWrite Err Mark

/-- `Date.now()`: the time is an input, and the history tells it. -/
def readClock : ACall ℕ := do
  let now ← Call.input
  Call.fire (.clock now)
  pure now

/-! ## Statements -/

/-- The rows a query sees. -/
def seen (k : Kind) (p : Id → Row k → Bool) (s : Db) : List (Id × Row k) :=
  s.rows k fun id r => !gone k r && p id r

def findFirst (k : Kind) (p : Id → Row k → Bool) : ATx (Option (Id × Row k)) :=
  Tx.findFirst (seen k p)

/-- An unordered query: in the order of the table. -/
def findMany (k : Kind) (p : Id → Row k → Bool) : ATx (List (Id × Row k)) := Tx.read (seen k p)

/-- `findUnique where id`, with the tenant's policy. -/
def findById (k : Kind) (id : Id) (p : Row k → Bool) : ATx (Option (Row k)) :=
  Tx.read fun s => (s.get k id).filter fun r => !gone k r && p r

/-- `findUnique` by a unique index. -/
def findUnique (k : Kind) (p : Row k → Bool) : ATx (Option (Id × Row k)) :=
  Tx.read fun s => (seen k (fun _ => p) s).head?

/-- `create`, under a generated identifier. -/
def create (k : Kind) (r : Row k) : ATx Id := do
  let id ← Tx.input
  Rel.insert Err.uniqueViolation k id r
  pure id

/-- `update where id`, within the tenant's policy `p`. -/
def update (k : Kind) (id : Id) (p : Row k → Bool) (f : Row k → Row k) : ATx (Row k) :=
  Rel.modify (k := k) Err.recordNotFound Err.uniqueViolation id fun r =>
    if !gone k r && p r then .ok (f r) else .error .recordNotFound

def updateMany (k : Kind) (p : Id → Row k → Bool) (f : Row k → Row k) : ATx ℕ :=
  Rel.modifyAll Err.uniqueViolation k (fun id r => !gone k r && p id r) f

/-- `redis.set` and `redis.del`, of the key that is row `id`. -/
def setKey (k : Kind) (id : Id) (r : Row k) : ATx Unit :=
  Tx.exec fun s => .ok ((), [.put k id (s.get k id) r])

/-- Every row is visible, and every write is made. -/
def anyRow {k : Kind} (_ : Row k) : Bool := true

/-- `prisma.withBypassRls`, `prisma.withTenant` and a single statement outside both. -/
def withBypassRls {α : Type} (t : ATx α) : ACall α := Call.withTx t

end PatronLoyalty.Accounts
