import Mathlib.Data.List.Infix
import PatronLoyalty.Accounts.Schema
import PatronLoyalty.Txn.Retry

/-!
# Tokens and sessions

`AuthTokenService`, `AuthSessionService.logout`, `AuthUserCacheService` and `JwtStrategy`. The clock is an
input of the environment wherever the source reads it. A Redis command that fails is caught, and the
service goes on without the cache.
-/

namespace PatronLoyalty.Accounts

open Txn
open Loyalty (Id truthy)

/-! ## Retries -/

/-- `isTransientDatabaseStartupError`. -/
def isTransientDatabaseStartupError : Err → Bool
  | .database message => ["the database system is starting up",
      "server closed the connection unexpectedly",
      "terminating connection due to administrator command", "can't reach database server",
      "connection error", "timed out fetching a new connection from the connection pool",
      "too many clients already"].any fun needle =>
        decide (needle.toList <:+: message.toLower.toList)
  | _ => false

/-- `runWithTransientRetry`: after the first attempt, one for each of four delays. -/
def runWithTransientRetry {α : Type} (operation : ACall α) : ACall α :=
  operation.retry isTransientDatabaseStartupError 4

/-! ## Token pairs -/

structure TokenPair where
  accessToken : Jwt
  refreshToken : Jwt
  expiresIn : ℕ
  deriving DecidableEq, Repr

/-- The claims of a token pair. -/
def sessionPayload (userId orgId : Id) (orgSlug email : String) : JwtPayload :=
  { sub := userId, userId := some userId, orgId := some orgId, orgSlug, email := some email }

/-- `session.create`. The foreign key is checked when the row is inserted. -/
def createSession (userId : Id) (tokenHash : Sha256 Jwt) (expiresAt : ℕ) : ATx Id := do
  match ← findById .user userId anyRow with
  | none => Tx.throw .foreignKeyViolation
  | some _ => create .session { userId, tokenHash, expiresAt }

def generateTokenPair (d : Deployment) (userId orgId : Id) (orgSlug email : String) :
    ACall TokenPair := do
  let payload := sessionPayload userId orgId orgSlug email
  let accessSignedAt ← readClock
  let accessToken := sign d.jwtSecret payload (orDefault d.accessTtl 900) accessSignedAt
  let refreshSignedAt ← readClock
  let refreshToken := sign d.refreshSecret payload (orDefault d.refreshTtl 2592000) refreshSignedAt
  let now ← readClock
  let _ ← withBypassRls (createSession userId (sha256 refreshToken)
    (now + orDefault d.refreshTtl 604800 * 1000))
  pure { accessToken, refreshToken, expiresIn := orDefault d.accessTtl 900 }

/-! ## Refreshing -/

/-- The session is live at the time `now`. -/
def SessionRow.active (r : SessionRow) (now : ℕ) : Bool :=
  r.revokedAt.isNone && decide (now < r.expiresAt)

def findMatchingSession (sessions : List (Id × SessionRow)) (refreshToken : Jwt) :
    Option (Id × SessionRow) :=
  sessions.find? fun r => r.2.tokenHash == sha256 refreshToken

/-- `session.findMany`: the live sessions of the user. -/
def activeSessions (userId : Id) (now : ℕ) : ATx (List (Id × SessionRow)) :=
  findMany .session fun _ (r : SessionRow) => r.userId == userId && r.active now

/-- `session.update`: revoke one session, whether it is live or not. -/
def revokeSession (id : Id) (now : ℕ) : ATx SessionRow :=
  update .session id anyRow fun (r : SessionRow) => { r with revokedAt := some now }

/-- What `refreshTokens` tries. -/
def exchange (d : Deployment) (refreshToken : Jwt) : ACall (Id × TokenPair × Bool) := do
  let verifiedAt ← readClock
  match verify d.refreshSecret refreshToken verifiedAt with
  | none => throw .jsonWebToken
  | some payload =>
    match ← withBypassRls (findById .user payload.sub anyRow) with
    | none => throw (.unauthorized "Invalid refresh token")
    | some user =>
      if user.status = .suspended then throw (.unauthorized "Invalid refresh token")
      else do
        let now ← readClock
        let sessions ← withBypassRls (activeSessions payload.sub now)
        match findMatchingSession sessions refreshToken with
        | none => throw (.unauthorized "Session expired or revoked — please log in again")
        | some matchedSession => do
          let revokedAt ← readClock
          let _ ← withBypassRls (revokeSession matchedSession.1 revokedAt)
          let org ← withBypassRls (findById .organization user.orgId anyRow)
          let orgSlug := (org.map fun (o : Organization) => o.slug).getD ""
          let tokens ← generateTokenPair d payload.sub user.orgId orgSlug user.email
          pure (payload.sub, tokens, isPlatformOperator d payload.sub user.email orgSlug)

/-- Answers with the user, the tokens and whether he is a platform operator. -/
def refreshTokens (d : Deployment) (refreshToken : Jwt) : ACall (Id × TokenPair × Bool) :=
  (exchange d refreshToken).handle fun err => match err with
    | .unauthorized message => throw (.unauthorized message)
    | _ => throw (.unauthorized "Invalid refresh token")

/-! ## Logging out -/

/-- `session.updateMany`: revoke the live sessions of the users. -/
def revokeSessions (userIds : List Id) (now : ℕ) : ATx ℕ :=
  updateMany .session (fun _ (r : SessionRow) => userIds.contains r.userId && r.revokedAt.isNone)
    fun r => { r with revokedAt := some now }

/-- The row that is read first is for the audit. -/
def logout (userId : Id) : ACall Unit := do
  let _ ← withBypassRls (findById .user userId anyRow)
  let now ← readClock
  let _ ← withBypassRls (revokeSessions [userId] now)
  pure ()

/-! ## The auth-user cache -/

/-- `AuthUserCacheService.get`. -/
def cachedUser (d : Deployment) (userId : Id) : ACall (Option CachedAuthUser) :=
  if d.authUserCacheTtl = 0 then pure none
  else Call.handle (do
    let now ← readClock
    let entry ← withBypassRls (findById .authUser userId fun (e : CacheEntry) =>
      decide (now < e.expiresAt))
    pure (entry.bind fun (e : CacheEntry) => e.user)) fun _ => pure none

/-- `AuthUserCacheService.set`. -/
def cacheUser (d : Deployment) (userId : Id) (user : CachedAuthUser) : ACall Unit :=
  if d.authUserCacheTtl = 0 then pure ()
  else Call.handle (do
    let now ← readClock
    withBypassRls (setKey .authUser userId
      { user := some user, expiresAt := now + d.authUserCacheTtl * 1000 })) fun _ => pure ()

def invalidateAuthUserCache (userId : Id) : ACall Unit :=
  Call.handle (withBypassRls (setKey .authUser userId { user := none, expiresAt := 0 }))
    fun _ => pure ()

/-! ## JwtStrategy -/

def loadAuthUser (userId : Id) : ATx (Option CachedAuthUser) := do
  match ← findById .user userId anyRow with
  | none => pure none
  | some user => do
    let organization ← findById .organization user.orgId anyRow
    pure (some { orgId := user.orgId, email := user.email, status := user.status
                 organization := organization.map fun (o : Organization) => (o.status, o.slug) })

def resolveUser (d : Deployment) (userId : Id) : ACall (Option CachedAuthUser) := do
  match ← cachedUser d userId with
  | some cached => pure (some cached)
  | none =>
    match ← runWithTransientRetry (withBypassRls (loadAuthUser userId)) with
    | none => pure none
    | some user => do
      cacheUser d userId user
      pure (some user)

structure AuthenticatedUser where
  userId : Id
  orgId : Id
  orgSlug : String
  email : String
  impersonation : Bool := false
  actAsRole : Option String := none
  actAsBranchId : Option Id := none
  jti : Option Id := none
  deriving DecidableEq, Repr

def CachedAuthUser.check (user : CachedAuthUser) : Except Err Unit :=
  if user.status = .suspended then .error (.unauthorized "Your account has been suspended.")
  else if user.organization.any fun o => decide (o.1 = .suspended) then
    .error (.unauthorized "Your organization has been suspended.")
  else .ok ()

/-- The impersonation session has been ended; `redis.get` answers `null` where Redis fails. -/
def isBlacklisted (jti : Option Id) : ACall Bool :=
  match jti with
  | none => pure false
  | some jti => Call.handle (do
      let now ← readClock
      let entry ← withBypassRls (findById .blacklist jti fun (e : BlacklistEntry) =>
        decide (now < e.expiresAt))
      pure entry.isSome) fun _ => pure false

def validate (d : Deployment) (payload : JwtPayload) : ACall AuthenticatedUser := do
  match ← resolveUser d payload.sub with
  | none => throw (.unauthorized "Your account has been suspended.")
  | some user =>
    Call.ofExcept user.check
    let orgSlugFromDb := (user.organization.map (·.2)).getD payload.orgSlug
    match payload.imp, payload.actAsOrgId with
    | true, some actAsOrgId => do
      let targetOrg ← withBypassRls (findById .organization actAsOrgId anyRow)
      if targetOrg.isNone then
        throw (.unauthorized "Impersonation target organization not found")
      else if isPlatformOperator d payload.sub user.email orgSlugFromDb = false then
        throw (.unauthorized "Impersonation is only for platform operators")
      else do
        let ended ← isBlacklisted payload.jti
        if ended then throw (.unauthorized "Impersonation session has ended")
        else pure { userId := payload.sub, orgId := actAsOrgId, orgSlug := orgSlugFromDb
                    email := user.email, impersonation := true, actAsRole := payload.actAsRole
                    actAsBranchId := payload.actAsBranchId, jti := payload.jti }
    | _, _ => pure { userId := payload.sub, orgId := user.orgId, orgSlug := orgSlugFromDb
                     email := user.email }

/-- The guard of every API request: the token is verified with the access secret, then `validate`. -/
def authenticate (d : Deployment) (token : Jwt) : ACall AuthenticatedUser := do
  let now ← readClock
  match verify d.jwtSecret token now with
  | none => throw (.unauthorized "Unauthorized")
  | some payload => validate d payload

end PatronLoyalty.Accounts
