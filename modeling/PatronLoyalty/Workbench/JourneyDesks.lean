import PatronLoyalty.Accounts.Users
import PatronLoyalty.Ticketing.Requests

/-!
# The desks of a journey

`JourneyDeskAssignmentGuard`: staff and viewers act on a queue of a multi-step journey at the desk of its
step alone, and only where they are assigned to that desk. The steps are those of one active template of
the branch, the first one the database comes upon, though a branch may have several; and a desk number is
normalised where a request gives it, and not where a step or an assignment does.

Headline: **`journeyDesks_iff`**, when the guard decides by the active journeys.
-/

namespace PatronLoyalty.Workbench

open Txn
open Auth (SystemRole normalizeSystemRoleName)
open Loyalty (Id trim isSpace truthy)
open Ticketing (BranchFlowStep BranchFlowTemplate)

/-! ## What the guard reads -/

structure Desk where
  orgId : Id
  branchId : Id
  number : String
  assignedUserIds : List Id := []
  deriving DecidableEq, Repr

structure RoleAssignment where
  userId : Id
  orgId : Id
  roleName : String
  isSystemRole : Bool := true
  deriving DecidableEq, Repr

structure Tables where
  flows : Ticketing.Db
  desks : List Desk := []
  roleAssignments : List RoleAssignment := []

inductive Err
  | badRequest (message : String)
  | forbidden (message : String)
  deriving DecidableEq, Repr

/-! ## Supervisors -/

/-- `isSupervisorSystemRole`. -/
def isSupervisorSystemRole : Option SystemRole → Bool
  | some .owner | some .admin | some .manager => true
  | _ => false

def Tables.assignmentsOf (t : Tables) (orgId userId : Id) : List RoleAssignment :=
  t.roleAssignments.filter fun a => a.userId == userId && a.orgId == orgId

def resolveUserHighestSystemRole (t : Tables) (orgId userId : Id) : Option SystemRole :=
  Accounts.highestRole <| ((t.assignmentsOf orgId userId).filter (·.isSystemRole)).filterMap
    fun a => normalizeSystemRoleName (some a.roleName)

def userIsOrganizationSupervisor (t : Tables) (orgId userId : Id) : Bool :=
  isSupervisorSystemRole (resolveUserHighestSystemRole t orgId userId) ||
    (t.assignmentsOf orgId userId).any fun a =>
      isSupervisorSystemRole (normalizeSystemRoleName (some a.roleName))

/-! ## Desk numbers -/

def digitsValue (digits : List Char) : ℕ := digits.foldl (fun n c => 10 * n + (c.toNat - 48)) 0

def normalizeWorkbenchDeskNumber (raw : String) : Except Err String :=
  let digitsOnly := raw.toList.filter Char.isDigit
  if digitsOnly.isEmpty then .error (.badRequest "Desk number is required")
  else if digitsValue digitsOnly < 1 ∨ 999 < digitsValue digitsOnly then
    .error (.badRequest "Desk number must be between 1 and 999")
  else .ok (toString (digitsValue digitsOnly))

/-- `Number.parseInt(text, 10)`; `none` for `NaN`. -/
def parseInt (text : String) : Option ℤ :=
  let digits (cs : List Char) : Option ℕ :=
    let ds := cs.takeWhile Char.isDigit
    if ds.isEmpty then none else some (digitsValue ds)
  match text.toList.dropWhile isSpace with
  | '-' :: cs => (digits cs).map fun n => -(n : ℤ)
  | '+' :: cs => (digits cs).map fun n => (n : ℤ)
  | cs => (digits cs).map fun n => (n : ℤ)

/-- The order of the sort by number; what is no number compares as equal. -/
def numberLe (a b : String) : Bool :=
  match parseInt a, parseInt b with
  | some x, some y => decide (x ≤ y)
  | _, _ => true

/-- The numbers of the desks, `orderBy: { number: 'asc' }`. -/
def deskNumbers (desks : List Desk) : List String :=
  (desks.map (·.number)).insertionSort fun a b => a ≤ b

def getAssignedDeskNumbers (t : Tables) (orgId userId branchId : Id) : List String :=
  deskNumbers (t.desks.filter fun d =>
    d.orgId == orgId && d.branchId == branchId && d.assignedUserIds.contains userId)

def getBranchDeskNumbers (t : Tables) (orgId branchId : Id) : List String :=
  deskNumbers (t.desks.filter fun d => d.orgId == orgId && d.branchId == branchId)

/-! ## Steps -/

structure JourneyFlowStepRef where
  stepIndex : ℤ
  deskNumber : String
  queueId : Id
  deriving DecidableEq, Repr

/-- The steps of a template that have queues, `orderBy: { stepIndex: 'asc' }`. -/
def stepsOf (t : Tables) (orgId templateId : Id) : List JourneyFlowStepRef :=
  (((t.flows.rows .flowStep fun _ s => s.orgId == orgId && s.templateId == templateId &&
    s.queueId.isSome).map (·.2)).insertionSort fun a b => a.stepIndex ≤ b.stepIndex).filterMap
      fun s => s.queueId.map fun queueId => ⟨s.stepIndex, s.deskNumber, queueId⟩

/-- `findFirst where isActive`, in the order of the table. -/
def activeTemplate (t : Tables) (orgId branchId : Id) : Option Id :=
  (t.flows.rows .flowTemplate fun _ f =>
    f.orgId == orgId && f.branchId == branchId && f.isActive).head?.map (·.1)

def linkedTemplate (t : Tables) (orgId branchId : Id) : Option Id :=
  ((t.flows.rows .queue fun _ q => q.orgId == orgId && q.branchId == branchId &&
    q.flowTemplateId.isSome).head?.bind (·.2.flowTemplateId)).filter fun id =>
      (t.flows.get .flowTemplate id).any fun f => f.orgId == orgId && f.branchId == branchId

def loadOrderedJourneySteps (t : Tables) (cached : Option (List JourneyFlowStepRef))
    (orgId branchId : Id) : List JourneyFlowStepRef :=
  match cached with
  | some steps => steps
  | none => (((activeTemplate t orgId branchId).or (linkedTemplate t orgId branchId)).map
      (stepsOf t orgId)).getD []

/-- The desk of a step without one: by its position among the numbers configured. -/
def legacyCounterNumber (steps : List JourneyFlowStepRef) (queueId : Id)
    (branchDeskNumbers : List String) (step : JourneyFlowStepRef) : String :=
  let position := steps.findIdx (·.queueId == queueId)
  let stepIndex : ℤ := if step.stepIndex = 0 then position + 1 else step.stepIndex
  let ideal := toString (max 1 stepIndex)
  let configured := branchDeskNumbers.insertionSort fun a b => numberLe a b = true
  if configured.isEmpty || configured.contains ideal then ideal
  else
    let fits (num : String) : Bool := (parseInt num).any fun n =>
      decide (1 ≤ n) && (steps[(n - 1).toNat]?).any (·.queueId == queueId)
    (configured.find? fits).getD (configured.getD (min position (configured.length - 1)) ideal)

def counterNumberForQueue (steps : List JourneyFlowStepRef) (queueId : Id)
    (branchDeskNumbers : List String) : Option String :=
  (steps.find? (·.queueId == queueId)).map fun step =>
    if trim step.deskNumber ≠ "" then trim step.deskNumber
    else legacyCounterNumber steps queueId branchDeskNumbers step

/-! ## The guard -/

def noDesks : Err := .forbidden
  "You do not have any desk assignments in this branch. Ask a manager to assign at least one desk before serving customers here."

/-- `You are not assigned to Desk …`. -/
def notAssigned (deskNumber : String) (assigned : List String) : Err :=
  .forbidden ("You are not assigned to Desk " ++ deskNumber ++ ". Your assigned desk(s): " ++
    String.intercalate ", " (assigned.map ("Desk " ++ ·)) ++ ".")

def assertMayUseJourneyDesk (t : Tables) (orgId userId branchId : Id) (deskNumberRaw : String) :
    Except Err String := do
  let deskNumber ← normalizeWorkbenchDeskNumber deskNumberRaw
  if userIsOrganizationSupervisor t orgId userId then pure deskNumber
  else
    let assigned := getAssignedDeskNumbers t orgId userId branchId
    if assigned.isEmpty then throw noDesks
    else if assigned.contains deskNumber then pure deskNumber
    else throw (notAssigned deskNumber assigned)

def assertMayActOnJourneyQueue (t : Tables) (cached : Option (List JourneyFlowStepRef))
    (orgId userId branchId queueId : Id) (deskNumberRaw : String) : Except Err Unit := do
  let deskNumber ← assertMayUseJourneyDesk t orgId userId branchId deskNumberRaw
  if userIsOrganizationSupervisor t orgId userId then pure ()
  else
    let assigned := getAssignedDeskNumbers t orgId userId branchId
    if assigned.isEmpty then throw noDesks
    else
      let steps := loadOrderedJourneySteps t cached orgId branchId
      match truthy (counterNumberForQueue steps queueId
          (getBranchDeskNumbers t orgId branchId)) with
      | none => throw (.forbidden "This queue is not part of the multi-step journey at this branch.")
      | some requiredDesk =>
        if deskNumber ≠ requiredDesk then
          throw (.forbidden ("Desk " ++ deskNumber ++ " cannot perform actions on this step. Use Desk " ++
            requiredDesk ++ " for this step."))
        else if assigned.contains deskNumber then pure ()
        else throw (notAssigned deskNumber assigned)

/-- `resolveDeskForJourneyQueue`; the steps are in the cache once they are loaded. -/
def resolveDeskForJourneyQueue (t : Tables) (cached : Option (List JourneyFlowStepRef))
    (orgId userId branchId queueId : Id) (requestedDeskRaw : String) : Except Err String := do
  let requested ← assertMayUseJourneyDesk t orgId userId branchId requestedDeskRaw
  let steps := loadOrderedJourneySteps t cached orgId branchId
  let forQueue := counterNumberForQueue steps queueId (getBranchDeskNumbers t orgId branchId)
  let effective := forQueue.getD requested
  if userIsOrganizationSupervisor t orgId userId then pure effective
  else
    let _ ← assertMayActOnJourneyQueue t (some steps) orgId userId branchId queueId effective
    pure effective

/-! ## The active journeys -/

variable {t : Tables} {orgId userId branchId queueId template : Id} {desk d : String}
  {cached : Option (List JourneyFlowStepRef)}

structure Active (t : Tables) (orgId branchId template : Id) : Prop where
  found : ∃ f, t.flows.get .flowTemplate template = some f ∧ f.orgId = orgId ∧
    f.branchId = branchId ∧ f.isActive = true

/-- Row `i` is the step of the template for the queue. -/
structure StepFor (t : Tables) (orgId template queueId i : Id) (s : BranchFlowStep) : Prop where
  found : t.flows.get .flowStep i = some s
  org : s.orgId = orgId
  template : s.templateId = template
  queue : s.queueId = some queueId

/-- **The active journeys of a branch**: there is one, no queue is at two steps, and every step has a
desk. -/
structure Journeys (t : Tables) (orgId branchId : Id) : Prop where
  active : ∃ template, Active t orgId branchId template
  disjoint {template template' queueId i j : Id} {s s' : BranchFlowStep} :
    Active t orgId branchId template → Active t orgId branchId template' →
    StepFor t orgId template queueId i s → StepFor t orgId template' queueId j s' → i = j
  named {template queueId i : Id} {s : BranchFlowStep} : Active t orgId branchId template →
    StepFor t orgId template queueId i s → trim s.deskNumber ≠ ""

def Bound (t : Tables) (orgId branchId queueId template : Id) (desk : String) : Prop :=
  Active t orgId branchId template ∧
    ∃ i s, StepFor t orgId template queueId i s ∧ desk = trim s.deskNumber

/-! ## The steps that are loaded -/

theorem activeTemplate_eq (h : Journeys t orgId branchId) :
    ∃ template, activeTemplate t orgId branchId = some template ∧
      Active t orgId branchId template := by
  obtain ⟨template, f, hf, ho, hb, ha⟩ := h.active
  have hmem : (template, f) ∈ t.flows.rows .flowTemplate fun _ f =>
      f.orgId == orgId && f.branchId == branchId && f.isActive :=
    Rel.mem_rows.mpr ⟨hf, by simp [ho, hb, ha]⟩
  obtain ⟨⟨first, r⟩, hr⟩ := Option.isSome_iff_exists.mp
    (List.isSome_head?.mpr (List.ne_nil_of_mem hmem))
  have hfound := Rel.mem_rows.mp (List.mem_of_head? hr)
  refine ⟨first, by rw [activeTemplate, hr]; rfl, ⟨r, hfound.1, ?_⟩⟩
  simpa [and_assoc] using hfound.2

theorem loadOrderedJourneySteps_fresh
    (h : ∀ steps, cached = some steps → steps = loadOrderedJourneySteps t none orgId branchId) :
    loadOrderedJourneySteps t cached orgId branchId =
      loadOrderedJourneySteps t none orgId branchId := by
  cases cached with
  | none => rfl
  | some steps => exact h steps rfl

theorem mem_stepsOf {ref : JourneyFlowStepRef} :
    ref ∈ stepsOf t orgId template ↔ ∃ i s, StepFor t orgId template ref.queueId i s ∧
      ref.stepIndex = s.stepIndex ∧ ref.deskNumber = s.deskNumber := by
  simp only [stepsOf, List.mem_filterMap, List.mem_insertionSort, List.mem_map, Prod.exists]
  constructor
  · rintro ⟨s, ⟨i, s', hmem, rfl⟩, href⟩
    obtain ⟨hget, hp⟩ := Rel.mem_rows.mp hmem
    simp only [Bool.and_eq_true, beq_iff_eq] at hp
    obtain ⟨queueId, hq, rfl⟩ := Option.map_eq_some_iff.mp href
    exact ⟨i, s', ⟨hget, hp.1.1, hp.1.2, hq⟩, rfl, rfl⟩
  · rintro ⟨i, s, hs, hindex, hdesk⟩
    refine ⟨s, ⟨i, s, Rel.mem_rows.mpr ⟨hs.found, ?_⟩, rfl⟩, ?_⟩
    · simp [hs.org, hs.template, hs.queue]
    · rw [hs.queue, Option.map_some, ← hindex, ← hdesk]

/-- **The desk the guard requires**: that of the step of the template that is loaded. -/
theorem counterNumberForQueue_eq_some (h : Journeys t orgId branchId)
    (ha : Active t orgId branchId template) {numbers : List String} :
    counterNumberForQueue (stepsOf t orgId template) queueId numbers = some desk ↔
      Bound t orgId branchId queueId template desk := by
  unfold counterNumberForQueue
  rw [Option.map_eq_some_iff]
  constructor
  · rintro ⟨ref, hfind, rfl⟩
    obtain ⟨i, s, hs, -, hdesk⟩ := mem_stepsOf.mp (List.mem_of_find?_eq_some hfind)
    obtain rfl : ref.queueId = queueId := by simpa using List.find?_some hfind
    rw [hdesk, if_pos (h.named ha hs)]
    exact ⟨ha, i, s, hs, rfl⟩
  · rintro ⟨-, i, s, hs, rfl⟩
    have hmem : (⟨s.stepIndex, s.deskNumber, queueId⟩ : JourneyFlowStepRef) ∈
        stepsOf t orgId template := mem_stepsOf.mpr ⟨i, s, hs, rfl, rfl⟩
    cases hfind : (stepsOf t orgId template).find? (·.queueId == queueId) with
    | none => exact absurd (List.find?_eq_none.mp hfind _ hmem) (by simp)
    | some ref =>
      obtain ⟨j, s', hs', -, hdesk⟩ := mem_stepsOf.mp (List.mem_of_find?_eq_some hfind)
      obtain rfl : ref.queueId = queueId := by simpa using List.find?_some hfind
      obtain rfl := h.disjoint ha ha hs hs'
      obtain rfl : s = s' := Option.some.inj (hs.found.symm.trans hs'.found)
      exact ⟨ref, rfl, by rw [hdesk, if_pos (h.named ha hs)]⟩

theorem loadOrderedJourneySteps_active (h : activeTemplate t orgId branchId = some template) :
    loadOrderedJourneySteps t none orgId branchId = stepsOf t orgId template := by
  simp [loadOrderedJourneySteps, h]

/-! ## The decisions -/

theorem assertMayUseJourneyDesk_iff (hsup : userIsOrganizationSupervisor t orgId userId = false) :
    assertMayUseJourneyDesk t orgId userId branchId d = .ok desk ↔
      normalizeWorkbenchDeskNumber d = .ok desk ∧
        desk ∈ getAssignedDeskNumbers t orgId userId branchId := by
  unfold assertMayUseJourneyDesk
  cases hnorm : normalizeWorkbenchDeskNumber d with
  | error e => exact ⟨fun h => (by cases h), fun h => (by cases h.1)⟩
  | ok number =>
    simp only [hsup, bind, Except.bind, Bool.false_eq_true, if_false, pure, Except.pure, throw,
      throwThe, MonadExceptOf.throw, Except.ok.injEq, List.isEmpty_iff, List.contains_eq_mem,
      decide_eq_true_eq]
    constructor
    · intro h
      split at h
      · cases h
      split at h
      · rename_i hmem
        cases h
        exact ⟨rfl, hmem⟩
      · cases h
    · rintro ⟨rfl, hmem⟩
      rw [if_neg (List.ne_nil_of_mem hmem), if_pos hmem]

/-- **Acting on a queue**, at the desk of the step that is loaded. -/
theorem assertMayAct_iff (h : Journeys t orgId branchId)
    (hsup : userIsOrganizationSupervisor t orgId userId = false)
    (hload : loadOrderedJourneySteps t cached orgId branchId = stepsOf t orgId template)
    (ha : Active t orgId branchId template) {u : Unit} :
    assertMayActOnJourneyQueue t cached orgId userId branchId queueId d = .ok u ↔
      ∃ number, normalizeWorkbenchDeskNumber d = .ok number ∧
        number ∈ getAssignedDeskNumbers t orgId userId branchId ∧
        Bound t orgId branchId queueId template number := by
  have htruthy : truthy (counterNumberForQueue (stepsOf t orgId template) queueId
      (getBranchDeskNumbers t orgId branchId)) = counterNumberForQueue (stepsOf t orgId template)
        queueId (getBranchDeskNumbers t orgId branchId) := by
    cases hstep : counterNumberForQueue (stepsOf t orgId template) queueId
        (getBranchDeskNumbers t orgId branchId) with
    | none => rfl
    | some desk =>
      obtain ⟨-, i, s, hs, rfl⟩ := (counterNumberForQueue_eq_some h ha).mp hstep
      exact Loyalty.truthy_some (h.named ha hs)
  have hbound : ∀ desk, counterNumberForQueue (stepsOf t orgId template) queueId
      (getBranchDeskNumbers t orgId branchId) = some desk ↔
        Bound t orgId branchId queueId template desk := fun desk => counterNumberForQueue_eq_some h ha
  unfold assertMayActOnJourneyQueue
  cases huse : assertMayUseJourneyDesk t orgId userId branchId d with
  | error e =>
    refine ⟨fun hok => (by cases hok), ?_⟩
    rintro ⟨number, hnorm, hmem, -⟩
    have hok := (assertMayUseJourneyDesk_iff hsup).mpr ⟨hnorm, hmem⟩
    rw [huse] at hok
    cases hok
  | ok number =>
    obtain ⟨hnorm, hmem⟩ := (assertMayUseJourneyDesk_iff hsup).mp huse
    simp only [hsup, hload, htruthy, bind, Except.bind, Bool.false_eq_true, if_false, pure,
      Except.pure, throw, throwThe, MonadExceptOf.throw, List.isEmpty_iff,
      if_neg (List.ne_nil_of_mem hmem)]
    cases hstep : counterNumberForQueue (stepsOf t orgId template) queueId
        (getBranchDeskNumbers t orgId branchId) with
    | none =>
      refine ⟨fun hok => (by cases hok), ?_⟩
      rintro ⟨number', -, -, hb⟩
      rw [(hbound _).mpr hb] at hstep
      cases hstep
    | some required =>
      constructor
      · intro hok
        dsimp only at hok
        split at hok
        · cases hok
        · rename_i heq
          rw [not_not] at heq
          exact ⟨number, hnorm, hmem, heq ▸ (hbound _).mp hstep⟩
      · rintro ⟨number', hnorm', -, hb⟩
        obtain rfl : number = number' := Except.ok.inj (hnorm.symm.trans hnorm')
        obtain rfl : required = number := Option.some.inj (hstep.symm.trans ((hbound _).mpr hb))
        simp [hmem]

/-- **Resolving a desk**, of the step that is loaded; the desk goes through the guard as a request
does. -/
theorem resolveDesk_iff (h : Journeys t orgId branchId)
    (hsup : userIsOrganizationSupervisor t orgId userId = false)
    (hload : loadOrderedJourneySteps t cached orgId branchId = stepsOf t orgId template)
    (ha : Active t orgId branchId template) :
    resolveDeskForJourneyQueue t cached orgId userId branchId queueId d = .ok desk ↔
      ∃ number, normalizeWorkbenchDeskNumber d = .ok number ∧
        number ∈ getAssignedDeskNumbers t orgId userId branchId ∧
        Bound t orgId branchId queueId template desk ∧
        desk ∈ getAssignedDeskNumbers t orgId userId branchId ∧
        normalizeWorkbenchDeskNumber desk = .ok desk := by
  unfold resolveDeskForJourneyQueue
  cases huse : assertMayUseJourneyDesk t orgId userId branchId d with
  | error e =>
    refine ⟨fun hok => (by cases hok), ?_⟩
    rintro ⟨number, hnorm, hmem, -⟩
    have hok := (assertMayUseJourneyDesk_iff hsup).mpr ⟨hnorm, hmem⟩
    rw [huse] at hok
    cases hok
  | ok requested =>
    obtain ⟨hnorm, hmem⟩ := (assertMayUseJourneyDesk_iff hsup).mp huse
    simp only [hsup, hload, bind, Except.bind, Bool.false_eq_true, if_false, pure, Except.pure]
    have hact : ∀ (e : String) (u : Unit),
        assertMayActOnJourneyQueue t (some (stepsOf t orgId template)) orgId userId branchId queueId
          e = .ok u ↔ _ := fun e u => assertMayAct_iff h hsup rfl ha
    cases hstep : counterNumberForQueue (stepsOf t orgId template) queueId
        (getBranchDeskNumbers t orgId branchId) with
    | none =>
      have hno : ∀ e, ¬ Bound t orgId branchId queueId template e := fun e hb => by
        rw [(counterNumberForQueue_eq_some h ha).mpr hb] at hstep
        cases hstep
      refine ⟨fun hok => ?_, fun ⟨_, _, _, hb, _⟩ => absurd hb (hno _)⟩
      dsimp only [Option.getD_none] at hok
      split at hok
      · cases hok
      · rename_i u hu
        obtain ⟨_, -, -, hb⟩ := (hact _ _).mp hu
        exact absurd hb (hno _)
    | some required =>
      have hrequired := (counterNumberForQueue_eq_some h ha).mp hstep
      have hone : ∀ e, Bound t orgId branchId queueId template e → e = required := fun e hb =>
        Option.some.inj (((counterNumberForQueue_eq_some h ha).mpr hb).symm.trans hstep)
      constructor
      · intro hok
        dsimp only [Option.getD_some] at hok
        split at hok
        · cases hok
        · rename_i u hu
          cases hok
          obtain ⟨number, hnorm', hmem', hb⟩ := (hact _ _).mp hu
          obtain rfl := hone _ hb
          exact ⟨requested, hnorm, hmem, hrequired, hmem', hnorm'⟩
      · rintro ⟨-, -, -, hb, hdesk, hcanonical⟩
        obtain rfl := hone _ hb
        have hu := (hact desk ()).mpr ⟨desk, hcanonical, hdesk, hb⟩
        dsimp only [Option.getD_some]
        rw [hu]

/-! ## The decisions and the active journeys -/

/-- **The guard lets a request act** exactly at an assigned desk that is the desk of the step. -/
def ActsByJourneys (t : Tables) (cached : Option (List JourneyFlowStepRef))
    (orgId userId branchId queueId : Id) (d : String) : Prop :=
  assertMayActOnJourneyQueue t cached orgId userId branchId queueId d = .ok () ↔
    ∃ number template, normalizeWorkbenchDeskNumber d = .ok number ∧
      number ∈ getAssignedDeskNumbers t orgId userId branchId ∧
      Bound t orgId branchId queueId template number

/-- **A desk is resolved** exactly where the requested desk and the desk of the step are assigned, and
it is the desk of the step. -/
def ResolvesByJourneys (t : Tables) (cached : Option (List JourneyFlowStepRef))
    (orgId userId branchId queueId : Id) (d : String) : Prop :=
  ∀ desk, resolveDeskForJourneyQueue t cached orgId userId branchId queueId d = .ok desk ↔
    ∃ number template, normalizeWorkbenchDeskNumber d = .ok number ∧
      number ∈ getAssignedDeskNumbers t orgId userId branchId ∧
      Bound t orgId branchId queueId template desk ∧
      desk ∈ getAssignedDeskNumbers t orgId userId branchId

/-- **The guard follows the active journeys** exactly when, where the requested desk and the desk of the
step are both assigned to the user, the step is of the template that is found first, and its desk number
is a number from 1 to 999 in its normal form. -/
theorem journeyDesks_iff (h : Journeys t orgId branchId)
    (hsup : userIsOrganizationSupervisor t orgId userId = false)
    (hfresh : ∀ steps, cached = some steps →
      steps = loadOrderedJourneySteps t none orgId branchId) (queueId : Id) (d : String) :
    (ActsByJourneys t cached orgId userId branchId queueId d ∧
      ResolvesByJourneys t cached orgId userId branchId queueId d) ↔
    ∀ number template desk, normalizeWorkbenchDeskNumber d = .ok number →
      number ∈ getAssignedDeskNumbers t orgId userId branchId →
      Bound t orgId branchId queueId template desk →
      desk ∈ getAssignedDeskNumbers t orgId userId branchId →
      activeTemplate t orgId branchId = some template ∧
        normalizeWorkbenchDeskNumber desk = .ok desk := by
  obtain ⟨first, hfirst, ha⟩ := activeTemplate_eq h
  have hload : loadOrderedJourneySteps t cached orgId branchId = stepsOf t orgId first :=
    (loadOrderedJourneySteps_fresh hfresh).trans (loadOrderedJourneySteps_active hfirst)
  have hsame : ∀ {template template' : Id} {desk desk' : String},
      Bound t orgId branchId queueId template desk → Bound t orgId branchId queueId template' desk' →
        template = template' ∧ desk = desk' := by
    rintro template template' desk desk' ⟨ha, i, s, hs, rfl⟩ ⟨ha', j, s', hs', rfl⟩
    obtain rfl := h.disjoint ha ha' hs hs'
    obtain rfl : s = s' := Option.some.inj (hs.found.symm.trans hs'.found)
    exact ⟨hs.template.symm.trans hs'.template, rfl⟩
  unfold ActsByJourneys ResolvesByJourneys
  simp only [assertMayAct_iff h hsup hload ha, resolveDesk_iff h hsup hload ha, hfirst,
    Option.some.injEq]
  constructor
  · rintro ⟨-, hres⟩ number template desk hnorm hmem hb hdesk
    obtain ⟨-, -, -, hb', -, hcanonical⟩ := (hres desk).mpr ⟨number, template, hnorm, hmem, hb, hdesk⟩
    exact ⟨(hsame hb' hb).1, hcanonical⟩
  · intro hcond
    refine ⟨⟨fun ⟨number, hnorm, hmem, hb⟩ => ⟨number, first, hnorm, hmem, hb⟩, ?_⟩,
      fun desk => ⟨fun ⟨number, hnorm, hmem, hb, hdesk, _⟩ =>
        ⟨number, first, hnorm, hmem, hb, hdesk⟩, ?_⟩⟩
    · rintro ⟨number, template, hnorm, hmem, hb⟩
      obtain ⟨rfl, -⟩ := hcond number template number hnorm hmem hb hmem
      exact ⟨number, hnorm, hmem, hb⟩
    · rintro ⟨number, template, hnorm, hmem, hb, hdesk⟩
      obtain ⟨rfl, hcanonical⟩ := hcond number template desk hnorm hmem hb hdesk
      exact ⟨number, hnorm, hmem, hb, hdesk, hcanonical⟩

/-! ## Two journeys -/

/-- A branch with two active journeys of one step each, and a member of staff at both desks. -/
def twoJourneys : Tables where
  flows :=
    { tables := fun
        | .flowTemplate => Ticketing.table [(1, { orgId := 1, branchId := 30, isActive := true }),
            (2, { orgId := 1, branchId := 30, isActive := true })]
        | .flowStep => Ticketing.table [
            (11, { orgId := 1, templateId := 1, stepIndex := 1, deskNumber := "1", serviceId := 5
                   queueId := some 21 }),
            (12, { orgId := 1, templateId := 2, stepIndex := 1, deskNumber := "2", serviceId := 5
                   queueId := some 22 })]
        | _ => ∅
      log := [] }
  desks := [{ orgId := 1, branchId := 30, number := "1", assignedUserIds := [7] },
    { orgId := 1, branchId := 30, number := "2", assignedUserIds := [7] }]
  roleAssignments := [{ userId := 7, orgId := 1, roleName := "staff" }]

theorem twoJourneys_step {template queueId i : Id} {s : BranchFlowStep}
    (h : StepFor twoJourneys 1 template queueId i s) :
    i = 11 ∧ template = 1 ∧ queueId = 21 ∧ s.deskNumber = "1" ∨
      i = 12 ∧ template = 2 ∧ queueId = 22 ∧ s.deskNumber = "2" := by
  have hm := AList.mem_lookup_iff.mp h.found
  change _ ∈ [(⟨11, _⟩ : Sigma fun _ : ℕ => BranchFlowStep), ⟨12, _⟩] at hm
  rw [List.mem_cons, List.mem_singleton] at hm
  have ht := h.template
  have hq := h.queue
  rcases hm with hm | hm
  · cases hm
    exact Or.inl ⟨rfl, ht.symm, (Option.some.inj hq).symm, rfl⟩
  · cases hm
    exact Or.inr ⟨rfl, ht.symm, (Option.some.inj hq).symm, rfl⟩

theorem journeys_twoJourneys : Journeys twoJourneys 1 30 where
  active := ⟨1, _, rfl, rfl, rfl, rfl⟩
  disjoint _ _ hs hs' := by
    rcases twoJourneys_step hs with ⟨rfl, -, rfl, -⟩ | ⟨rfl, -, rfl, -⟩ <;>
      rcases twoJourneys_step hs' with ⟨rfl, -, hq, -⟩ | ⟨rfl, -, hq, -⟩ <;>
        first | rfl | exact absurd hq (by decide)
  named _ hs := by
    rcases twoJourneys_step hs with ⟨-, -, -, hd⟩ | ⟨-, -, -, hd⟩ <;>
      (rw [hd]; decide +kernel)

theorem journeyDesks_first : ActsByJourneys twoJourneys none 1 7 30 21 "1" ∧
    ResolvesByJourneys twoJourneys none 1 7 30 21 "1" := by
  refine (journeyDesks_iff journeys_twoJourneys (by decide +kernel) (fun _ h => by cases h) 21 "1").mpr
    fun number template desk _ _ hb _ => ?_
  obtain ⟨-, i, s, hs, rfl⟩ := hb
  rcases twoJourneys_step hs with ⟨-, rfl, -, hd⟩ | ⟨-, -, hq, -⟩
  · rw [hd]
    exact ⟨rfl, by decide +kernel⟩
  · exact absurd hq (by decide)

/-- **The other journey is no journey to the guard.** -/
theorem exists_locked_out : ¬ ∀ (t : Tables) (cached : Option (List JourneyFlowStepRef))
    (orgId userId branchId queueId : Id) (d : String), Journeys t orgId branchId →
      userIsOrganizationSupervisor t orgId userId = false →
      (∀ steps, cached = some steps → steps = loadOrderedJourneySteps t none orgId branchId) →
      ActsByJourneys t cached orgId userId branchId queueId d ∧
        ResolvesByJourneys t cached orgId userId branchId queueId d := by
  intro hall
  obtain ⟨hacts, -⟩ := hall twoJourneys none 1 7 30 22 "2" journeys_twoJourneys (by decide +kernel)
    fun _ h => by cases h
  have hok := hacts.mpr ⟨"2", 2, by decide +kernel, by decide +kernel,
    ⟨_, rfl, rfl, rfl, rfl⟩, 12, _, ⟨rfl, rfl, rfl, rfl⟩, by decide +kernel⟩
  exact absurd hok (by decide +kernel)

end PatronLoyalty.Workbench
