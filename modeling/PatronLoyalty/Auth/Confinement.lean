import PatronLoyalty.Auth.RbacGuard

/-!
# Branch confinement of the permission guard

What `canActivate` lets a user with branch-scoped assignments do to a resource of branch `b`. Without
a branch id of its own the request is authorised for `b`. With one it is authorised for that branch,
whatever the resource: an assignment there is enough, and one for `b` is not asked for.

Headlines:
* **`canActivate_iff`**: the guard's answer, by the branch the request is authorised for.
* **`confined_iff`**: the requests on which the guard confines the user to the branch of the resource.
-/

namespace PatronLoyalty.Auth

open Loyalty (truthy truthy_some)

/-! ## Statements -/

def Confinable (r : Resource) : Prop :=
  r ∈ [Resource.branch, .queue, .ticket, .appointment, .desk, .display]

instance (r : Resource) : Decidable (Confinable r) := inferInstanceAs (Decidable (_ ∈ _))

/-- The request's resource id names a row of branch `b`, of a kind a permission is required on. -/
def Names (d : Directory) (orgId : String) (required : List RequiredPermission) (request : Request)
    (b : String) : Prop :=
  ∃ p ∈ required, ∃ r ∈ d.of p.resource,
    resourceIdOf request = some r.id ∧ r.orgId = orgId ∧ r.branchId = some b

def assignmentsOf (d : Directory) (user : User) (userId : String) : List Assignment :=
  (roleAssignmentsOf d.toTables user userId).getD []

def BranchScoped (a : Assignment) : Prop := (truthy a.branchId).isSome

instance : DecidablePred BranchScoped := fun _ => inferInstanceAs (Decidable (_ = true))

def HasAssignment (l : List Assignment) (b : String) : Prop := ∃ a ∈ l, a.branchId = some b

instance (l : List Assignment) (b : String) : Decidable (HasAssignment l b) :=
  inferInstanceAs (Decidable (∃ a ∈ l, a.branchId = some b))

/-- The assignments for `b` hold a permission for everything required. -/
def Grants (l : List Assignment) (required : List RequiredPermission) (request : Request)
    (userId b : String) : Prop :=
  ∀ p ∈ required, ∃ a ∈ l, a.branchId = some b ∧ ∃ q ∈ a.rolePermissions, actionMatches q p ∧
    (q.scope = .own → extractTargetUserId request required userId = some userId)

def Allowed (d : Directory) (required : List RequiredPermission) (listRead : Bool) (user : User)
    (request : Request) : Prop :=
  canActivate d.toTables required listRead (some user) request = .ok true

instance (d : Directory) (required : List RequiredPermission) (listRead : Bool) (user : User)
    (request : Request) : Decidable (Allowed d required listRead user request) :=
  inferInstanceAs (Decidable (_ = Except.ok true))

def Request.withoutBranchId (request : Request) : Request :=
  { request with
    body := request.body.filter (·.1 != "branchId")
    query := request.query.filter (·.1 != "branchId") }

/-- An allowed request is one on a branch the user has an assignment for, and a branch id in its
query or body is not what makes it allowed. -/
def Confined (d : Directory) (required : List RequiredPermission) (listRead : Bool) (user : User)
    (userId : String) (request : Request) (b : String) : Prop :=
  Allowed d required listRead user request →
    HasAssignment (assignmentsOf d user userId) b ∧
      Allowed d required listRead user request.withoutBranchId

/-- The guard asks for nothing: no permission is required, or the session bypasses it. -/
def Unchecked (required : List RequiredPermission) (user : User) : Prop :=
  required = [] ∨ isFullImpersonationBypass user = true

/-- A branch id of the request other than `b` opens nothing that the assignments for `b` do not. -/
def NotOverridden (d : Directory) (required : List RequiredPermission) (user : User)
    (userId : String) (request : Request) (b : String) : Prop :=
  ∀ e, explicitBranchIdOf request = some e → e ≠ b →
    Grants (assignmentsOf d user userId) required request userId e →
      HasAssignment (assignmentsOf d user userId) b ∧
        (readString [request.params.get "branchId"] = none →
          Grants (assignmentsOf d user userId) required request userId b)

/-! ## The branch of a resource -/

variable {k : Resource} {r : Placeable}

theorem mem_placeables {t : Tables} (h : r ∈ t.of k) :
    r ∈ t.placeables := by
  refine List.mem_flatMap.mpr ⟨k, ?_, h⟩
  by_contra hk
  have : t.of k = [] := by
    cases k <;> first | rfl | simp at hk
  rw [this] at h
  exact List.not_mem_nil h

theorem find_map {α β : Type} {f : α → β} {p : β → Bool} {q : α → Bool} (h : ∀ a, p (f a) = q a)
    (l : List α) : (l.map f).find? p = (l.find? q).map f := by
  rw [List.find?_map]
  have : p ∘ f = q := funext h
  rw [this]

theorem branchIdOfResource_eq (t : Tables) (orgId id : String) (k : Resource) :
    branchIdOfResource t orgId id k = (findPlaceable orgId id (t.of k)).map (·.branchId) := by
  have placed : ∀ l : List Placed, findPlaceable orgId id (l.map (·.asPlaceable)) =
      (findPlaced orgId id l).map (·.asPlaceable) := fun l => find_map (fun _ => rfl) l
  have branches : ∀ l : List Owned, findPlaceable orgId id (l.map (·.asBranch)) =
      (findOwned orgId id l).map (·.asBranch) := fun l => find_map (fun _ => rfl) l
  cases k with
  | branch =>
    rw [Tables.of, branches, Option.map_map]
    rfl
  | queue =>
    rw [Tables.of, placed, Option.map_map, findPlaced, List.find?_append]
    unfold branchIdOfResource
    cases h : findPlaced orgId id t.queues with
    | none => rw [findPlaced] at h; rw [h]; rfl
    | some q => rw [findPlaced] at h; rw [h]; rfl
  | ticket | appointment | desk =>
    rw [Tables.of, placed, Option.map_map]
    rfl
  | display | announcement => rfl
  | _ => rfl

variable {d : Directory}

theorem eq_of_id {k' : Resource} {r' : Placeable} (h : r ∈ d.of k) (h' : r' ∈ d.of k')
    (hid : r.id = r'.id) : r = r' :=
  List.inj_on_of_nodup_map d.unique (mem_placeables h) (mem_placeables h') hid

variable {orgId : String}

theorem findPlaceable_some {id : String} {l : List Placeable}
    (h : findPlaceable orgId id l = some r) : r ∈ l ∧ r.id = id := by
  have hp := List.find?_some h
  simp only [Bool.and_eq_true, beq_iff_eq] at hp
  exact ⟨List.mem_of_find?_eq_some h, hp.1⟩

variable {p : RequiredPermission} {required : List RequiredPermission}

/-- **A named resource resolves to its branch.** -/
theorem resolveBranchIdFromResource_eq (hp : p ∈ required) (hr : r ∈ d.of p.resource) :
    resolveBranchIdFromResource d.toTables r.orgId r.id required = r.branchId := by
  have found : (required.findSome? fun p =>
      branchIdOfResource d.toTables r.orgId r.id p.resource) = some r.branchId := by
    cases h : required.findSome? fun p =>
        branchIdOfResource d.toTables r.orgId r.id p.resource with
    | none =>
      have hn := List.findSome?_eq_none_iff.mp h p hp
      rw [branchIdOfResource_eq, Option.map_eq_none_iff] at hn
      have := List.find?_eq_none.mp hn r hr
      simp at this
    | some x =>
      obtain ⟨q, -, hx⟩ := List.exists_of_findSome?_eq_some h
      rw [branchIdOfResource_eq] at hx
      obtain ⟨r', hf, rfl⟩ := Option.map_eq_some_iff.mp hx
      obtain ⟨hm, hid⟩ := findPlaceable_some hf
      rw [eq_of_id hm hr hid]
  rw [resolveBranchIdFromResource, found, Option.join_some]

theorem readString_ne_empty {l : List Field} {s : String} (h : readString l = some s) : s ≠ "" := by
  obtain ⟨f, -, hf⟩ := List.exists_of_findSome?_eq_some h
  cases f with
  | other => cases hf
  | str x =>
    simp only [Option.ite_none_right_eq_some, Option.some.injEq] at hf
    obtain ⟨hx, rfl⟩ := hf
    rintro rfl
    exact absurd hx (by decide)

/-! ## The branch of a request -/

/-- The branch a request on a resource of `b` is authorised for. -/
def authorised (request : Request) (b : String) : String := (explicitBranchIdOf request).getD b

theorem requires_eq_false (hk : ∀ p ∈ required, Confinable p.resource) (h : ¬ Confinable k) :
    requires required k = false := by
  refine List.any_eq_false.mpr fun p hp he => h ?_
  rw [← eq_of_beq he]
  exact hk p hp

variable {request : Request} {b : String}

theorem Names.ne_empty (h : Names d orgId required request b) : b ≠ "" := by
  obtain ⟨p, -, r, hr, -, -, hb⟩ := h
  rintro rfl
  exact d.named r (mem_placeables hr) hb

theorem authorised_ne_empty (h : b ≠ "") :
    authorised request b ≠ "" := by
  unfold authorised
  cases he : explicitBranchIdOf request with
  | none => exact h
  | some e => exact readString_ne_empty he

variable {userId : String}

theorem resolveAuthorizationContext_eq (hk : ∀ p ∈ required, Confinable p.resource)
    (hn : Names d orgId required request b) :
    resolveAuthorizationContext d.toTables request required orgId userId =
      { branchId := some (authorised request b)
        resourceBranchIds := none
        targetUserId := extractTargetUserId request required userId } := by
  have hne : authorised request b ≠ "" := authorised_ne_empty hn.ne_empty
  obtain ⟨p, hp, r, hr, hid, rfl, hb⟩ := hn
  have branch : (explicitBranchIdOf request).or ((some r.id).bind fun id =>
      resolveBranchIdFromResource d.toTables r.orgId id required) =
        some (authorised request b) := by
    rw [Option.bind_some, resolveBranchIdFromResource_eq hp hr, hb, authorised]
    cases explicitBranchIdOf request <;> rfl
  unfold resolveAuthorizationContext
  simp only [hid, requires_eq_false hk (k := .service) (by decide),
    requires_eq_false hk (k := .user) (by decide), Bool.false_eq_true, if_false]
  simp only [branch, truthy_some hne, Option.some_or]

/-! ## The guard's answer -/

variable {e : String}

theorem isAssignmentApplicable_iff {a : Assignment} (ha : BranchScoped a) (he : e ≠ "") :
    isAssignmentApplicable a.branchId (some e) none = true ↔ a.branchId = some e := by
  unfold BranchScoped at ha
  cases hb : a.branchId with
  | none => rw [hb] at ha; cases ha
  | some x =>
    have hx : x ≠ "" := by
      rintro rfl
      rw [hb] at ha
      cases ha
    simp only [isAssignmentApplicable, truthy_some hx, truthy_some he, Option.all_some, beq_iff_eq,
      Option.some.injEq]
    exact eq_comm

theorem truthy_beq {o : Option String} {u : String} (hu : u ≠ "") :
    (truthy o == some u) = true ↔ o = some u := by
  rw [beq_iff_eq]
  constructor
  · intro h
    unfold truthy at h
    split at h
    · cases h
    · exact h
  · rintro rfl
    exact truthy_some hu

theorem isPermissionScopeSatisfied_iff {q : PermissionScope} {target assigned : Option String}
    {listRead : Bool} (he : e ≠ "") (hu : userId ≠ "") (hp : Confinable p.resource) :
    isPermissionScopeSatisfied q ⟨some e, none, target⟩ userId assigned p listRead = true ↔
      (q = .own → target = some userId) := by
  cases q with
  | org =>
    have : p.resource ∈ branchScopedResources := by
      revert hp
      unfold Confinable
      cases p.resource <;> decide
    simp [isPermissionScopeSatisfied, this]
  | branch => simp [isPermissionScopeSatisfied, truthy_some he]
  | own =>
    simp only [isPermissionScopeSatisfied, forall_const]
    exact truthy_beq hu

theorem grantsRequired_iff {a : Assignment} {target : Option String} {listRead : Bool}
    (ha : BranchScoped a) (he : e ≠ "") (hu : userId ≠ "") (hp : Confinable p.resource) :
    grantsRequired ⟨some e, none, target⟩ userId listRead a p = true ↔
      a.branchId = some e ∧ ∃ q ∈ a.rolePermissions, actionMatches q p ∧
        (q.scope = .own → target = some userId) := by
  unfold grantsRequired
  rw [Bool.and_eq_true, isAssignmentApplicable_iff ha he, List.any_eq_true]
  refine and_congr_right fun _ => exists_congr fun q => and_congr_right fun _ => ?_
  rw [Bool.and_eq_true, isPermissionScopeSatisfied_iff he hu hp]

section
variable {d : Directory} {required : List RequiredPermission} {listRead : Bool} {user : User}
  {userId : String} {request : Request} {b : String}

theorem allowed_of_unchecked (hu : userIdOf user = some userId) (h : Unchecked required user) :
    Allowed d required listRead user request := by
  unfold Allowed canActivate
  split
  · rfl
  · rename_i hne
    rcases h with rfl | h
    · exact absurd rfl hne
    · simp only [Option.bind_some, hu, Option.map_some, h, if_true]

theorem allowed_of_checked (hu : userIdOf user = some userId) (h : ¬ Unchecked required user) :
    Allowed d required listRead user request ↔
      ∀ p ∈ required, ∃ a ∈ assignmentsOf d user userId,
        grantsRequired (resolveAuthorizationContext d.toTables request required user.orgId userId)
          userId listRead a p = true := by
  obtain ⟨hne, hb⟩ := not_or.mp h
  have hb : isFullImpersonationBypass user = false := by simpa using hb
  have hne' : required.isEmpty = false := by simpa using hne
  unfold Allowed canActivate assignmentsOf
  simp only [hne', Bool.false_eq_true, if_false, Option.bind_some, hu, Option.map_some, hb]
  cases roleAssignmentsOf d.toTables user userId with
  | none =>
    obtain ⟨p, ps, rfl⟩ := List.exists_cons_of_ne_nil hne
    simp only [reduceCtorEq, Option.getD_none, List.not_mem_nil, false_and, exists_false, imp_false,
      false_iff, not_forall, not_not]
    exact ⟨p, List.mem_cons_self⟩
  | some l => simp

/-- **The guard's answer**: a request on a resource of `b` is allowed when the assignments for the
branch it is authorised for grant everything required. -/
theorem canActivate_iff (hu : userIdOf user = some userId) (h : ¬ Unchecked required user)
    (hk : ∀ p ∈ required, Confinable p.resource)
    (hs : ∀ a ∈ assignmentsOf d user userId, BranchScoped a)
    (hn : Names d user.orgId required request b) :
    Allowed d required listRead user request ↔
      Grants (assignmentsOf d user userId) required request userId (authorised request b) := by
  have hid : userId ≠ "" := by
    rintro rfl
    exact absurd hu (by unfold userIdOf truthy; split <;> simp_all)
  rw [allowed_of_checked hu h, resolveAuthorizationContext_eq hk hn]
  refine forall_congr' fun p => forall_congr' fun hp => exists_congr fun a =>
    and_congr_right fun ha => ?_
  exact grantsRequired_iff (hs a ha) (authorised_ne_empty hn.ne_empty) hid (hk p hp)

end

/-! ## The branch ids of the query and the body -/

theorem lookup_filter_ne {l : Fields} {k k' : String} (h : k ≠ k') :
    (l.filter (·.1 != k')).lookup k = l.lookup k := by
  induction l with
  | nil => rfl
  | cons e l ih =>
    rw [List.filter_cons]
    by_cases he : e.1 = k'
    · have hk : (k == e.1) = false := by simpa [he] using h
      rw [if_neg (by simp [he]), ih, List.lookup_cons, hk]
    · rw [if_pos (by simp [he]), List.lookup_cons, List.lookup_cons, ih]

theorem lookup_filter_self (l : Fields) (k : String) : (l.filter (·.1 != k)).lookup k = none := by
  rw [List.lookup_eq_none_iff]
  intro e he
  have hne := (List.mem_filter.mp he).2
  rw [bne_iff_ne] at hne ⊢
  exact hne.symm

section
variable (request : Request)

theorem explicitBranchIdOf_without :
    explicitBranchIdOf request.withoutBranchId = readString [request.params.get "branchId"] := by
  have body : Fields.get request.withoutBranchId.body "branchId" = .other := by
    rw [Fields.get, Request.withoutBranchId, lookup_filter_self]
    rfl
  have query : Fields.get request.withoutBranchId.query "branchId" = .other := by
    rw [Fields.get, Request.withoutBranchId, lookup_filter_self]
    rfl
  rw [explicitBranchIdOf, body, query]
  unfold readString
  rw [List.findSome?_cons, List.findSome?_cons]
  rfl

theorem get_body_without {k : String} (h : k ≠ "branchId") :
    Fields.get request.withoutBranchId.body k = request.body.get k := by
  rw [Fields.get, Request.withoutBranchId, lookup_filter_ne h, Fields.get]

theorem get_query_without {k : String} (h : k ≠ "branchId") :
    Fields.get request.withoutBranchId.query k = request.query.get k := by
  rw [Fields.get, Request.withoutBranchId, lookup_filter_ne h, Fields.get]

theorem resourceIdOf_without : resourceIdOf request.withoutBranchId = resourceIdOf request := by
  unfold resourceIdOf
  rw [get_body_without request (by decide), get_query_without request (by decide)]
  rfl

theorem extractTargetUserId_without (required : List RequiredPermission) (userId : String) :
    extractTargetUserId request.withoutBranchId required userId =
      extractTargetUserId request required userId := by
  unfold extractTargetUserId
  rw [get_body_without request (by decide), get_query_without request (by decide),
    get_body_without request (by decide), get_query_without request (by decide)]
  rfl

theorem grants_without (l : List Assignment) (required : List RequiredPermission)
    (userId e : String) : Grants l required request.withoutBranchId userId e ↔
      Grants l required request userId e := by
  unfold Grants
  rw [extractTargetUserId_without]

theorem names_without {d : Directory} {orgId : String} {required : List RequiredPermission}
    {b : String} (h : Names d orgId required request b) :
    Names d orgId required request.withoutBranchId b := by
  unfold Names
  rw [resourceIdOf_without]
  exact h

end

/-! ## Confinement -/

theorem explicitBranchIdOf_params (h : readString [request.params.get "branchId"] = some e) :
    explicitBranchIdOf request = some e := by
  unfold readString at h
  unfold explicitBranchIdOf readString
  rw [List.findSome?_cons] at h ⊢
  split at h
  · exact h
  · cases h

theorem Grants.hasAssignment {l : List Assignment} (hne : required ≠ [])
    (h : Grants l required request userId b) : HasAssignment l b := by
  obtain ⟨p, ps, rfl⟩ := List.exists_cons_of_ne_nil hne
  obtain ⟨a, ha, hb, -⟩ := h p List.mem_cons_self
  exact ⟨a, ha, hb⟩

/-- **The requests on which the guard confines the user to the branch of the resource.** Those that
are checked and whose own branch id, when it is another one, opens nothing. -/
theorem confined_iff (d : Directory) (required : List RequiredPermission) (listRead : Bool)
    (user : User) (userId : String) (request : Request) (b : String)
    (hu : userIdOf user = some userId) (hk : ∀ p ∈ required, Confinable p.resource)
    (hs : ∀ a ∈ assignmentsOf d user userId, BranchScoped a)
    (hn : Names d user.orgId required request b) :
    Confined d required listRead user userId request b ↔
      (Unchecked required user → HasAssignment (assignmentsOf d user userId) b) ∧
        (¬ Unchecked required user → NotOverridden d required user userId request b) := by
  by_cases hc : Unchecked required user
  · have allowed : ∀ r, Allowed d required listRead user r := fun r => allowed_of_unchecked hu hc
    refine ⟨fun h => ⟨fun _ => (h (allowed _)).1, fun h' => absurd hc h'⟩, fun h _ => ?_⟩
    exact ⟨h.1 hc, allowed _⟩
  · unfold Confined
    rw [canActivate_iff hu hc hk hs hn, canActivate_iff hu hc hk hs (names_without request hn),
      grants_without]
    have hne : required ≠ [] := fun h => hc (.inl h)
    unfold authorised
    rw [explicitBranchIdOf_without]
    constructor
    · refine fun h => ⟨fun h' => absurd h' hc, fun _ e he _ hg => ?_⟩
      rw [he] at h
      obtain ⟨ha, hw⟩ := h hg
      refine ⟨ha, fun hp => ?_⟩
      rw [hp] at hw
      exact hw
    · rintro ⟨-, h⟩ hg
      cases he : explicitBranchIdOf request with
      | none =>
        rw [he] at hg
        have hp : readString [request.params.get "branchId"] = none := by
          cases hp : readString [request.params.get "branchId"] with
          | none => rfl
          | some e => rw [explicitBranchIdOf_params hp] at he; cases he
        rw [hp]
        exact ⟨hg.hasAssignment hne, hg⟩
      | some e =>
        rw [he] at hg
        cases hp : readString [request.params.get "branchId"] with
        | none =>
          by_cases hb : e = b
          · subst hb
            exact ⟨hg.hasAssignment hne, hg⟩
          · have := h hc e he hb hg
            exact ⟨this.1, this.2 hp⟩
        | some e' =>
          rw [explicitBranchIdOf_params hp] at he
          cases he
          by_cases hb : e = b
          · subst hb
            exact ⟨hg.hasAssignment hne, hg⟩
          · exact ⟨(h hc e (explicitBranchIdOf_params hp) hb hg).1, hg⟩

/-- An organisation with two branches, a ticket in the second and a manager of the first. -/
def twoBranches : Directory where
  branches := [⟨"b1", "org"⟩, ⟨"b2", "org"⟩]
  tickets := [⟨⟨"t", "org"⟩, "b2"⟩]
  users := [⟨"u", "org"⟩]
  roleAssignments := [⟨⟨some "b1", defaultRolePermissions .manager⟩, "u", "org"⟩]
  unique := by decide
  named := by decide

def manager : User := { userId := some "u", orgId := "org" }

def updateTicket : List RequiredPermission := [⟨.ticket, .update⟩]

/-- An update of the ticket of `b2`, with `b` in the query. -/
def updateOf (b : Field) : Request where
  params := [("id", .str "t")]
  query := [("branchId", b)]

theorem updateOf_names (b : Field) :
    Names twoBranches manager.orgId updateTicket (updateOf b) "b2" :=
  ⟨⟨.ticket, .update⟩, by decide, ⟨⟨"t", "org"⟩, some "b2"⟩, by decide, rfl, rfl, rfl⟩

/-- With the branch id of `b1` in the query the manager of `b1` acts on a ticket of `b2`. -/
theorem updateOf_not_confined :
    ¬ ∀ (d : Directory) (required : List RequiredPermission) (listRead : Bool) (user : User)
      (userId : String) (request : Request) (b : String), userIdOf user = some userId →
      ¬ Unchecked required user → (∀ p ∈ required, Confinable p.resource) →
      (∀ a ∈ assignmentsOf d user userId, BranchScoped a) →
      Names d user.orgId required request b → Confined d required listRead user userId request b := by
  intro h
  have := h twoBranches updateTicket false manager "u" (updateOf (.str "b1")) "b2" rfl
    (by simp [Unchecked, updateTicket, isFullImpersonationBypass, User.isOperator, manager])
    (by decide) (by decide) (updateOf_names _) (by decide)
  exact absurd this.1 (by decide)

/-- Without it the guard confines the manager, and refuses. -/
theorem updateOf_confined :
    Confined twoBranches updateTicket false manager "u" (updateOf .other) "b2" := by
  refine (confined_iff twoBranches updateTicket false manager "u" (updateOf .other) "b2" rfl
    (by decide) (by decide) (updateOf_names _)).mpr ⟨?_, fun _ e he => ?_⟩
  · rintro (h | h)
    · cases h
    · exact absurd h (by decide)
  · exact absurd he (by simp [show explicitBranchIdOf (updateOf .other) = none from rfl])

end PatronLoyalty.Auth
