import PatronLoyalty.Accounts.Platform
import PatronLoyalty.Auth.Simulation
import PatronLoyalty.Txn.Steady
import PatronLoyalty.Txn.Under

/-!
# Impersonation

`AuthImpersonationService` and its two endpoints. A platform operator is handed a token for a tenant, with
full access or with a simulated role; ending the session puts the id of the token on a blacklist in Redis,
which `JwtStrategy` consults on every request.
-/

namespace PatronLoyalty.Accounts

open Txn
open Auth (SystemRole normalizeSystemRoleName branchScopedRole)
open Loyalty (Id truthy)

/-! ## Starting a session -/

/-- `PlatformAuditService.log`: the row is in a table that nothing modelled reads. -/
def platformAuditLog : ACall Unit :=
  Call.handle (withBypassRls (.pure ())) fun _ => pure ()

structure ImpersonationStartOptions where
  role : Option String := none
  branchId : Option Id := none

structure ImpersonationStartResult where
  accessToken : Jwt
  expiresIn : ℕ
  targetOrganization : Id × String
  simulation : Option (SystemRole × Option Id)
  deriving DecidableEq, Repr

def resolveSimulatedBranch (targetOrgId : Id) (simulatedRole : Option SystemRole)
    (branchId : Option Id) : ACall (Option Id) :=
  if simulatedRole.any branchScopedRole then
    match branchId with
    | some branchId => do
      match ← withBypassRls (findById .branch branchId fun (b : Branch) => b.orgId == targetOrgId) with
      | some _ => pure (some branchId)
      | none => throw (.notFound "Branch not found in target organization")
    | none => do
      match ← withBypassRls (findFirst .branch fun _ (b : Branch) => b.orgId == targetOrgId) with
      | some branch => pure (some branch.1)
      | none => throw (.notFound
          "Target organization has no branches — required for branch-scoped role simulation")
  else pure none

def impersonationPayload (actorUserId : Id) (operator : User) (orgSlug : String) (targetOrgId : Id)
    (simulatedRole : Option SystemRole) (branchId : Option Id) (jti : Id) : JwtPayload :=
  { sub := actorUserId, userId := some actorUserId, orgId := some operator.orgId, orgSlug
    email := some operator.email, imp := true, actAsOrgId := some targetOrgId, jti := some jti
    actAsRole := simulatedRole.map SystemRole.name, actAsBranchId := branchId }

/-- `platformAudit.log`, and the token. -/
def issueImpersonation (d : Deployment) (actorUserId : Id) (operator : User) (orgSlug : String)
    (targetOrg : Id × Organization) (simulatedRole : Option SystemRole) (branchId : Option Id) :
    ACall ImpersonationStartResult := do
  platformAuditLog
  let jti ← Call.input
  let now ← readClock
  let ttl : ℕ := d.impersonationAccessTtl
  let payload := impersonationPayload actorUserId operator orgSlug targetOrg.1 simulatedRole branchId
    jti
  pure { accessToken := sign d.jwtSecret payload ttl now, expiresIn := ttl
         targetOrganization := (targetOrg.1, targetOrg.2.slug)
         simulation := simulatedRole.map fun role => (role, branchId) }

def startImpersonation (d : Deployment) (actorUserId : Id) (actorEmail : String) (targetOrgId : Id)
    (options : ImpersonationStartOptions) : ACall ImpersonationStartResult := do
  let operator ← withBypassRls (findOperator actorUserId)
  match operator.filter fun o => isPlatformOperator d actorUserId actorEmail (o.2.getD "") with
  | none => throw (.forbidden "Only platform operators can impersonate a tenant")
  | some (operator, slug) =>
    match ← withBypassRls (findById .organization targetOrgId anyRow) with
    | none => throw (.notFound "Organization not found")
    | some (org : Organization) =>
      let role := truthy options.role
      let simulatedRole := role.bind fun r => normalizeSystemRoleName (some r)
      if role.isSome ∧ simulatedRole.isNone then throw (.forbidden "Invalid impersonation role")
      else do
        let branchId ← resolveSimulatedBranch targetOrgId simulatedRole options.branchId
        issueImpersonation d actorUserId operator (slug.getD "") (targetOrgId, org) simulatedRole
          branchId

/-! ## Ending it -/

/-- `redis.set('auth:blacklist:<jti>', '1', ttl)`; that it fails is ignored. -/
def blacklistJti (d : Deployment) (jti : Id) : ACall Unit :=
  Call.handle (do
    let now ← readClock
    withBypassRls (setKey .blacklist jti
      { expiresAt := now + (d.impersonationAccessTtl : ℕ) * 1000 })) fun _ => pure ()

def endImpersonationAudit (d : Deployment) (jti : Option Id) : ACall Unit := do
  platformAuditLog
  match jti with
  | none => pure ()
  | some jti => blacklistJti d jti

/-! ## The endpoints -/

/-- `POST platform-admin/impersonation/start` -/
def startEndpoint (d : Deployment) (token : Jwt) (orgId : Id) (options : ImpersonationStartOptions) :
    ACall ImpersonationStartResult := do
  let user ← platformEndpoint d token false
  startImpersonation d user.userId user.email orgId options

/-- `POST platform-admin/impersonation/end` -/
def endEndpoint (d : Deployment) (token : Jwt) : ACall Unit := do
  let user ← platformEndpoint d token false
  if user.impersonation = false then throw (.badRequest "Not in an impersonation session")
  else endImpersonationAudit d user.jti

/-! ## Requests -/

def SameBlacklist (a b : Db) : Prop := ∀ jti, b.get .blacklist jti = a.get .blacklist jti

inductive ImpersonationAnswer
  | started (r : ImpersonationStartResult)
  | authenticated (user : AuthenticatedUser)
  | done
  deriving DecidableEq, Repr

/-- Whatever else the API serves: no other code writes the keys of the blacklist. -/
structure Handler where
  body : ACall Unit
  leaves : Steady (fun _ => true) Err.recordNotFound anything SameBlacklist (fun _ => True)
    ImpersonationAnswer body

/-- A request. `authenticate` is what every request with the token comes to first, and `handler n` is
the rest of one. -/
inductive ImpersonationRequest
  | startImpersonation (token : Jwt) (orgId : Id) (options : ImpersonationStartOptions)
  | authenticate (token : Jwt)
  | handler (n : ℕ)
  | endImpersonation (token : Jwt)

def ImpersonationRequest.run (d : Deployment) (handlers : ℕ → Handler) :
    ImpersonationRequest → ACall ImpersonationAnswer
  | .startImpersonation token orgId options =>
    (startEndpoint d token orgId options).bind fun r => .pure (.started r)
  | .authenticate token =>
    (Accounts.authenticate d token).bind fun u => .pure (.authenticated u)
  | .handler n => (handlers n).body.bind fun _ => .pure .done
  | .endImpersonation token => (endEndpoint d token).bind fun _ => .pure .done

/-! ## The permission guard -/

/-- An identifier in its written form: `RbacGuard` compares strings. -/
def idText (id : Id) : String := "id-" ++ toString id

theorem idText_ne_empty (id : Id) : idText id ≠ "" := by
  intro h
  have hl := congrArg String.length h
  simp [idText, String.length_append] at hl

/-- `request.user`. -/
def AuthenticatedUser.principal (u : AuthenticatedUser) : Auth.User where
  userId := some (idText u.userId)
  orgId := idText u.orgId
  orgSlug := some u.orgSlug
  impersonation := u.impersonation
  actAsRole := u.actAsRole
  actAsBranchId := u.actAsBranchId.map idText

end PatronLoyalty.Accounts
