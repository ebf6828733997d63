import PatronLoyalty.Loyalty.Schema

/-!
# The permission guard

`RbacGuard.canActivate`, with the decorator's permissions, the tables it looks up and the assignments
of a simulated role. The branch a request is authorised for is a field of the request when one is
given, and the branch of the resource it names only when none is. A `Directory` is what the guard
finds in the database: primary keys are UUIDs, so one id never names two rows.
-/

namespace PatronLoyalty.Auth

open Loyalty (truthy trim)

/-! ## Roles and permissions -/

inductive Resource
  | organization | branch | service | queue | ticket | appointment | desk | announcement | user
  | role | report | billing | display | notification | settings | review | customer
  | stationProfile
  deriving DecidableEq, Repr

inductive Action
  | create | read | update | delete | manage
  deriving DecidableEq, Repr

inductive PermissionScope
  | own | branch | org
  deriving DecidableEq, Repr

structure Permission where
  resource : Resource
  action : Action
  scope : PermissionScope
  deriving DecidableEq, Repr

structure RequiredPermission where
  resource : Resource
  action : Action
  deriving DecidableEq, Repr

/-- `SYSTEM_ROLES`, in the order of `ORDERED_ROLES`. -/
inductive SystemRole
  | owner | admin | manager | staff | viewer
  deriving DecidableEq, Repr

def SystemRole.name : SystemRole → String
  | .owner => "owner"
  | .admin => "admin"
  | .manager => "manager"
  | .staff => "staff"
  | .viewer => "viewer"

def orderedRoles : List SystemRole := [.owner, .admin, .manager, .staff, .viewer]

def normalizeSystemRoleName (name : Option String) : Option SystemRole :=
  let n := (trim (name.getD "")).toLower
  orderedRoles.find? (·.name == n)

def rows (scope : PermissionScope) (l : List (Resource × List Action)) : List Permission :=
  l.flatMap fun e => e.2.map fun a => ⟨e.1, a, scope⟩

def defaultRolePermissions : SystemRole → List Permission
  | .owner => rows .org
      [(.organization, [.manage]), (.branch, [.manage]), (.service, [.manage]), (.queue, [.manage]),
        (.ticket, [.manage]), (.appointment, [.manage]), (.desk, [.manage]),
        (.announcement, [.manage]), (.user, [.manage]), (.role, [.manage]), (.report, [.manage]),
        (.billing, [.manage]), (.display, [.manage]), (.notification, [.manage]),
        (.settings, [.manage]), (.review, [.manage]), (.customer, [.manage]),
        (.stationProfile, [.manage])]
  | .admin => rows .org
      [(.organization, [.read, .update]), (.branch, [.read, .create, .update]),
        (.service, [.manage]), (.queue, [.manage]), (.ticket, [.manage]), (.appointment, [.manage]),
        (.desk, [.manage]), (.announcement, [.manage]), (.user, [.read, .create, .update]),
        (.role, [.read, .create, .update]), (.report, [.read]), (.display, [.manage]),
        (.notification, [.manage]), (.settings, [.read, .update]), (.review, [.read, .update]),
        (.customer, [.read, .update]), (.stationProfile, [.manage])]
  | .manager => rows .branch
      [(.branch, [.read, .update]), (.service, [.read]), (.queue, [.manage]), (.ticket, [.manage]),
        (.appointment, [.manage]), (.desk, [.manage]), (.announcement, [.manage]),
        (.user, [.read, .update]), (.report, [.read]), (.display, [.manage]),
        (.review, [.read, .update]), (.customer, [.read, .update]), (.stationProfile, [.manage])]
  | .staff => rows .branch
      [(.branch, [.read]), (.service, [.read]), (.queue, [.read, .update]),
        (.ticket, [.create, .update, .read]), (.appointment, [.read, .update]),
        (.desk, [.read, .update]), (.display, [.read]), (.customer, [.read]),
        (.stationProfile, [.read])]
  | .viewer => rows .branch
      [(.branch, [.read]), (.service, [.read]), (.queue, [.read]), (.ticket, [.read]),
        (.appointment, [.read]), (.desk, [.read]), (.announcement, [.read]), (.report, [.read]),
        (.review, [.read]), (.display, [.read]), (.customer, [.read]), (.stationProfile, [.read])]

structure Assignment where
  branchId : Option String
  rolePermissions : List Permission
  deriving DecidableEq, Repr

/-! ## Users -/

/-- `request.user`: the session the token carries. -/
structure User where
  userId : Option String := none
  id : Option String := none
  orgId : String
  orgSlug : Option String := none
  impersonation : Bool := false
  actAsRole : Option String := none
  actAsBranchId : Option String := none

/-- A platform operator's session in a tenant. -/
def User.isOperator (user : User) : Bool :=
  user.impersonation && user.orgSlug == some "queueplatform-internal"

def isFullImpersonationBypass (user : User) : Bool :=
  user.isOperator && (truthy user.actAsRole).isNone

def isRoleSimulationImpersonation (user : User) : Bool :=
  user.isOperator && (truthy user.actAsRole).isSome

def branchScopedRole : SystemRole → Bool
  | .manager | .staff | .viewer => true
  | .owner | .admin => false

def buildSimulatedRoleAssignments (role : SystemRole) (branchId : Option String) :
    List Assignment :=
  [{ branchId := if branchScopedRole role then branchId else none
     rolePermissions := defaultRolePermissions role }]

/-! ## Rows -/

/-- A row of the organisation. -/
structure Owned where
  id : String
  orgId : String
  deriving DecidableEq, Repr

/-- A row of a branch. -/
structure Placed extends Owned where
  branchId : String
  deriving DecidableEq, Repr

/-- A row that may belong to a branch. -/
structure Placeable extends Owned where
  branchId : Option String
  deriving DecidableEq, Repr

/-- A row of `role_assignments`, with its role. -/
structure AssignmentRow extends Assignment where
  userId : String
  roleOrgId : String
  deriving DecidableEq, Repr

/-- A row of `branch_services`, with the organisation of its branch. -/
structure BranchService where
  serviceId : String
  branchId : String
  branchOrgId : String
  deriving DecidableEq, Repr

structure Tables where
  branches : List Owned := []
  queues : List Placed := []
  flowTemplates : List Placed := []
  tickets : List Placed := []
  appointments : List Placed := []
  desks : List Placed := []
  displayDevices : List Placeable := []
  announcements : List Placeable := []
  services : List Owned := []
  users : List Owned := []
  branchServices : List BranchService := []
  roleAssignments : List AssignmentRow := []

def Owned.asBranch (r : Owned) : Placeable := { r with branchId := some r.id }

def Placed.asPlaceable (r : Placed) : Placeable := { r with branchId := some r.branchId }

/-- The rows a resource id is looked up in, with the branch each belongs to. -/
def Tables.of (t : Tables) : Resource → List Placeable
  | .branch => t.branches.map (·.asBranch)
  | .queue => (t.queues ++ t.flowTemplates).map (·.asPlaceable)
  | .ticket => t.tickets.map (·.asPlaceable)
  | .appointment => t.appointments.map (·.asPlaceable)
  | .desk => t.desks.map (·.asPlaceable)
  | .display => t.displayDevices
  | .announcement => t.announcements
  | _ => []

def Tables.placeables (t : Tables) : List Placeable :=
  [Resource.branch, .queue, .ticket, .appointment, .desk, .display, .announcement].flatMap t.of

/-- The tables, with primary keys that no two rows share and no empty branch ids. -/
structure Directory extends Tables where
  unique : (toTables.placeables.map (·.id)).Nodup
  named : ∀ r ∈ toTables.placeables, r.branchId ≠ some ""

/-! ## Requests -/

/-- What a field of a request holds: a string, or anything else (`undefined` included). -/
inductive Field
  | str (s : String)
  | other
  deriving DecidableEq, Repr

abbrev Fields := List (String × Field)

def Fields.get (f : Fields) (key : String) : Field := (f.lookup key).getD .other

structure Request where
  params : Fields := []
  body : Fields := []
  query : Fields := []
  /-- `request.route.path` -/
  path : Option String := none

def readString (values : List Field) : Option String :=
  values.findSome? fun
    | .str s => if (trim s).length > 0 then some s else none
    | .other => none

/-! ## The guard -/

inductive Refusal
  | forbidden (message : String)
  | typeError
  deriving DecidableEq, Repr

structure AuthorizationContext where
  branchId : Option String
  resourceBranchIds : Option (List String)
  targetUserId : Option String
  deriving DecidableEq, Repr

def requires (requiredPermissions : List RequiredPermission) (r : Resource) : Bool :=
  requiredPermissions.any (·.resource == r)

/-- `findFirst({ where: { id, orgId } })`. -/
def findOwned (orgId id : String) (l : List Owned) : Option Owned :=
  l.find? fun r => r.id == id && r.orgId == orgId

def findPlaced (orgId id : String) (l : List Placed) : Option Placed :=
  l.find? fun r => r.id == id && r.orgId == orgId

def findPlaceable (orgId id : String) (l : List Placeable) : Option Placeable :=
  l.find? fun r => r.id == id && r.orgId == orgId

def loadUserBranchIds (t : Tables) (orgId targetUserId : String) : Option (List String) :=
  let rows := t.roleAssignments.filter fun r => r.userId == targetUserId && r.roleOrgId == orgId
  let ids := (rows.filterMap (truthy ·.branchId)).dedup
  if (findOwned orgId targetUserId t.users).isSome then some ids else none

def loadServiceBranchIds (t : Tables) (orgId serviceId : String) : Option (List String) :=
  let rows := t.branchServices.filter fun r => r.serviceId == serviceId && r.branchOrgId == orgId
  if rows.isEmpty then
    if (findOwned orgId serviceId t.services).isSome then some [] else none
  else some (rows.map (·.branchId))

def extractTargetUserId (request : Request) (requiredPermissions : List RequiredPermission)
    (userId : String) : Option String :=
  match readString [request.params.get "userId", request.body.get "userId",
      request.query.get "userId", request.body.get "assignedUserId",
      request.query.get "assignedUserId"] with
  | some explicitUserId => some explicitUserId
  | none =>
    if requires requiredPermissions .user || request.path == some "me" then
      (readString [request.params.get "id"]).or (some userId)
    else none

/-- One turn of the loop of `resolveBranchIdFromResource`: the branch it returns, if it returns. -/
def branchIdOfResource (t : Tables) (orgId resourceId : String) :
    Resource → Option (Option String)
  | .branch => (findOwned orgId resourceId t.branches).map fun r => some r.id
  | .queue =>
    match findPlaced orgId resourceId t.queues with
    | some queue => some (some queue.branchId)
    | none => (findPlaced orgId resourceId t.flowTemplates).map fun r => some r.branchId
  | .ticket => (findPlaced orgId resourceId t.tickets).map fun r => some r.branchId
  | .appointment => (findPlaced orgId resourceId t.appointments).map fun r => some r.branchId
  | .desk => (findPlaced orgId resourceId t.desks).map fun r => some r.branchId
  | .display => (findPlaceable orgId resourceId t.displayDevices).map (·.branchId)
  | .announcement => (findPlaceable orgId resourceId t.announcements).map (·.branchId)
  | _ => none

def resolveBranchIdFromResource (t : Tables) (orgId resourceId : String)
    (requiredPermissions : List RequiredPermission) : Option String :=
  (requiredPermissions.findSome? fun p => branchIdOfResource t orgId resourceId p.resource).join

def resourceIdOf (request : Request) : Option String :=
  readString [request.params.get "id", request.body.get "id", request.query.get "id"]

def explicitBranchIdOf (request : Request) : Option String :=
  readString [request.params.get "branchId", request.body.get "branchId",
    request.query.get "branchId"]

def resolveAuthorizationContext (t : Tables) (request : Request)
    (requiredPermissions : List RequiredPermission) (orgId userId : String) :
    AuthorizationContext :=
  let resourceId := resourceIdOf request
  let forService := if requires requiredPermissions .service then
    resourceId.bind (loadServiceBranchIds t orgId) else none
  let resourceBranchIds :=
    match resourceId with
    | some id => if requires requiredPermissions .user then loadUserBranchIds t orgId id
        else forService
    | none => forService
  let branchId := (explicitBranchIdOf request).or
    (resourceId.bind fun id => resolveBranchIdFromResource t orgId id requiredPermissions)
  let queueIdPayload := readString [request.body.get "queueId", request.query.get "queueId",
    request.params.get "queueId"]
  let branchId := (truthy branchId).or (if requires requiredPermissions .ticket then
    queueIdPayload.bind fun id => (findPlaced orgId id t.queues).map (·.branchId) else none)
  let ticketIdPayload := readString [request.body.get "ticketId", request.query.get "ticketId"]
  let branchId := (truthy branchId).or (if requires requiredPermissions .ticket then
    ticketIdPayload.bind fun id => (findPlaced orgId id t.tickets).map (·.branchId) else none)
  { branchId, resourceBranchIds
    targetUserId := extractTargetUserId request requiredPermissions userId }

def isAssignmentApplicable (assignmentBranchId requestBranchId : Option String)
    (resourceBranchIds : Option (List String)) : Bool :=
  match truthy assignmentBranchId with
  | none => true
  | some a =>
    match resourceBranchIds with
    | some (id :: ids) => (id :: ids).contains a
    | _ => (truthy requestBranchId).all (· == a)

def branchScopedResources : List Resource :=
  [.branch, .service, .queue, .ticket, .appointment, .desk, .announcement, .display, .review,
    .customer, .stationProfile]

def isPermissionScopeSatisfied (scope : PermissionScope) (context : AuthorizationContext)
    (currentUserId : String) (assignmentBranchId : Option String)
    (requiredPermission : RequiredPermission) (allowBranchScopedListRead : Bool) : Bool :=
  match scope with
  | .org => assignmentBranchId.isNone || branchScopedResources.contains requiredPermission.resource
  | .branch => (truthy context.branchId).isSome || context.resourceBranchIds.any (!·.isEmpty) ||
      (allowBranchScopedListRead && requiredPermission.action == .read &&
        assignmentBranchId.isSome)
  | .own => truthy context.targetUserId == some currentUserId

def actionMatches (permission : Permission) (requiredPermission : RequiredPermission) : Bool :=
  permission.resource == requiredPermission.resource &&
    (permission.action == requiredPermission.action || permission.action == .manage)

/-- `user?.userId ?? user?.id`, when it is not empty. -/
def userIdOf (user : User) : Option String := truthy (user.userId.or user.id)

/-- The role assignments of a user, `none` for a simulated role that does not exist. -/
def roleAssignmentsOf (t : Tables) (user : User) (userId : String) : Option (List Assignment) :=
  if isRoleSimulationImpersonation user then
    (normalizeSystemRoleName user.actAsRole).map fun role =>
      buildSimulatedRoleAssignments role user.actAsBranchId
  else
    some ((t.roleAssignments.filter fun r => r.userId == userId && r.roleOrgId == user.orgId).map
      (·.toAssignment))

def grantsRequired (context : AuthorizationContext) (userId : String) (listRead : Bool)
    (assignment : Assignment) (requiredPermission : RequiredPermission) : Bool :=
  isAssignmentApplicable assignment.branchId context.branchId context.resourceBranchIds &&
    assignment.rolePermissions.any fun permission =>
      actionMatches permission requiredPermission &&
        isPermissionScopeSatisfied permission.scope context userId assignment.branchId
          requiredPermission listRead

/-- `canActivate`: `listRead` is the route's `AllowBranchScopedListRead`. -/
def canActivate (t : Tables) (requiredPermissions : List RequiredPermission) (listRead : Bool)
    (user : Option User) (request : Request) : Except Refusal Bool :=
  if requiredPermissions.isEmpty then .ok true
  else
    match user.bind fun u => (userIdOf u).map (u, ·) with
    | none => .error (.forbidden "Authentication required")
    | some (user, userId) =>
      if isFullImpersonationBypass user then .ok true
      else
        let authContext :=
          resolveAuthorizationContext t request requiredPermissions user.orgId userId
        match roleAssignmentsOf t user userId with
        | none => .error .typeError
        | some roleAssignments =>
          if requiredPermissions.all fun requiredPermission =>
              roleAssignments.any (grantsRequired authContext userId listRead · requiredPermission)
          then .ok true
          else .error (.forbidden "You do not have sufficient permission for this action.")

end PatronLoyalty.Auth
