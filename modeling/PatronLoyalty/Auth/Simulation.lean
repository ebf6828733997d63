import PatronLoyalty.Auth.RbacGuard

/-!
# Simulated roles

The guard evaluates a platform operator's simulated role on a path of its own. Headline:
**`canActivate_simulated`**. Its answer is the one a member of the organisation gets whose only
assignment is that role at that branch: none of the default permissions asks whose request it is.
-/

namespace PatronLoyalty.Auth

open Loyalty (truthy truthy_some)

/-! ## Members -/

def OnlyAssignment (t : Tables) (userId orgId : String) (role : SystemRole)
    (branchId : Option String) : Prop :=
  (t.roleAssignments.filter fun r => r.userId == userId && r.roleOrgId == orgId).map
    (·.toAssignment) = [{ branchId, rolePermissions := defaultRolePermissions role }]

instance (t : Tables) (userId orgId : String) (role : SystemRole) (branchId : Option String) :
    Decidable (OnlyAssignment t userId orgId role branchId) := inferInstanceAs (Decidable (_ = _))

def simulatedBranch (role : SystemRole) (branchId : Option String) : Option String :=
  if branchScopedRole role then branchId else none

/-! ## Permissions -/

theorem scope_ne_own {permission : Permission}
    (h : permission ∈ defaultRolePermissions role) : permission.scope ≠ .own := by
  have hall : ∀ p ∈ defaultRolePermissions role, p.scope ≠ .own := by cases role <;> decide
  exact hall permission h

theorem isPermissionScopeSatisfied_user {scope : PermissionScope}
    {context context' : AuthorizationContext} {userId' : String} {required : RequiredPermission}
    (h : scope ≠ .own) (hb : context.branchId = context'.branchId)
    (hr : context.resourceBranchIds = context'.resourceBranchIds) :
    isPermissionScopeSatisfied scope context userId branchId required listRead =
      isPermissionScopeSatisfied scope context' userId' branchId required listRead := by
  cases scope with
  | own => exact absurd rfl h
  | branch => simp [isPermissionScopeSatisfied, hb, hr]
  | org => rfl

/-- **A default role** grants every user the same. -/
theorem grantsRequired_user {context context' : AuthorizationContext} (userId' : String)
    {required : RequiredPermission} (hb : context.branchId = context'.branchId)
    (hr : context.resourceBranchIds = context'.resourceBranchIds) :
    grantsRequired context userId listRead
        { branchId, rolePermissions := defaultRolePermissions role } required =
      grantsRequired context' userId' listRead
        { branchId, rolePermissions := defaultRolePermissions role } required := by
  have hany : ∀ p ∈ defaultRolePermissions role,
      (actionMatches p required &&
        isPermissionScopeSatisfied p.scope context userId branchId required listRead) =
      (actionMatches p required &&
        isPermissionScopeSatisfied p.scope context' userId' branchId required listRead) :=
    fun p hp => by rw [isPermissionScopeSatisfied_user (scope_ne_own hp) hb hr]
  simp only [grantsRequired, hb, hr]
  congr 1
  rw [Bool.eq_iff_iff, List.any_eq_true, List.any_eq_true]
  constructor
  · rintro ⟨p, hp, h⟩
    exact ⟨p, hp, hany p hp ▸ h⟩
  · rintro ⟨p, hp, h⟩
    exact ⟨p, hp, (hany p hp).symm ▸ h⟩

/-! ## The guard -/

theorem resolveAuthorizationContext_user (t : Tables) (request : Request)
    (required : List RequiredPermission) (orgId userId userId' : String) :
    (resolveAuthorizationContext t request required orgId userId).branchId =
        (resolveAuthorizationContext t request required orgId userId').branchId ∧
      (resolveAuthorizationContext t request required orgId userId).resourceBranchIds =
        (resolveAuthorizationContext t request required orgId userId').resourceBranchIds :=
  ⟨rfl, rfl⟩

variable {t : Tables} {required : List RequiredPermission} {listRead : Bool} {user member : User}
  {request : Request} {role : SystemRole} {branchId : Option String} {userId memberId : String}

theorem roleAssignmentsOf_simulated (hu : isRoleSimulationImpersonation user = true)
    (hr : normalizeSystemRoleName user.actAsRole = some role) :
    roleAssignmentsOf t user userId = some [{ branchId := simulatedBranch role user.actAsBranchId
                                              rolePermissions := defaultRolePermissions role }] := by
  rw [roleAssignmentsOf, if_pos hu, hr]
  rfl

theorem roleAssignmentsOf_member (hm : member.impersonation = false)
    (h : OnlyAssignment t memberId member.orgId role branchId) :
    roleAssignmentsOf t member memberId =
      some [{ branchId, rolePermissions := defaultRolePermissions role }] := by
  have hn : isRoleSimulationImpersonation member = false := by
    simp [isRoleSimulationImpersonation, User.isOperator, hm]
  rw [roleAssignmentsOf, hn, if_neg Bool.false_ne_true, h]

/-- **A simulated role** is let in exactly where a member with that role alone is. -/
theorem canActivate_simulated (hu : isRoleSimulationImpersonation user = true)
    (hr : normalizeSystemRoleName user.actAsRole = some role) (hid : userIdOf user = some userId)
    (hm : member.impersonation = false) (hmid : userIdOf member = some memberId)
    (ho : user.orgId = member.orgId)
    (h : OnlyAssignment t memberId member.orgId role (simulatedBranch role user.actAsBranchId)) :
    canActivate t required listRead (some user) request =
      canActivate t required listRead (some member) request := by
  have hfull : isFullImpersonationBypass user = false := by
    have hsome := (Bool.and_eq_true_iff.mp hu).2
    simp [isFullImpersonationBypass, hsome]
  have hfull' : isFullImpersonationBypass member = false := by
    simp [isFullImpersonationBypass, User.isOperator, hm]
  obtain ⟨hb, hres⟩ := resolveAuthorizationContext_user t request required user.orgId userId memberId
  simp only [canActivate, Option.bind_some, hid, hmid, Option.map_some, hfull, hfull',
    roleAssignmentsOf_simulated hu hr, roleAssignmentsOf_member hm h, List.any_cons, List.any_nil,
    Bool.or_false, ← ho, grantsRequired_user memberId hb hres]

end PatronLoyalty.Auth
