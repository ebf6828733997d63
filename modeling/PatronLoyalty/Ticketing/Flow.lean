import PatronLoyalty.Ticketing.Schema

/-!
# Queues and journey flows

`TicketQueueContextService`, `TicketStaffGuardService`, `TicketActionSurfaceService`, `WorkflowService`
and `TicketJourneyFlowService`. A flow template is a list of steps by index; each step names the queue
and the service of the ticket that is issued for it. A step whose queue is gone is repaired when it is
resolved.

`getNextStep` opens a transaction of its own. Where a locked transaction calls it, it reads the
committed steps; no caller has a pending write of a step by then.
-/

namespace PatronLoyalty.Ticketing

open Txn
open Loyalty (Id Err truthy trim)

/-! ## Checks -/

def throwIf (b : Bool) (e : Err) : TTx Unit := if b then Tx.throw e else pure ()

/-- The same, before a request touches the store. -/
def rejectIf (b : Bool) (e : Err) : TCall Unit := if b then Call.throw e else pure ()

/-- `if (!o) throw e`. -/
def orThrow {α : Type} (e : Err) : Option α → TTx α
  | some a => pure a
  | none => Tx.throw e

/-! ## The queue context -/

/-- `padStart(3, '0')`. -/
def padSeq (seq : ℤ) : String :=
  String.ofList (List.replicate (3 - (toString seq).length) '0') ++ toString seq

def formatDisplayNumber (pre : String) (seq : ℤ) : String := pre ++ padSeq seq

def isReadyGatedPolicy (policy : QueueCallingPolicy) : Bool :=
  policy == .readyThenManual || policy == .readyThenFifo

/-- Midnight of the branch's day, by its time zone. -/
def liveQueueBookedAtFloor : TTx Time := Tx.input

def assertTicketInLiveQueue (bookedAt bookedAtFloor : Time) : TTx Unit :=
  throwIf (bookedAt < bookedAtFloor) (.badRequest
    "This ticket is from a prior queue session and is no longer in today's waiting line.")

def isVisitJourneysEnabledForOrg (orgId : Id) : TTx Bool := do
  let globallyDisabled ← flag
  let legacyGlobalOn ← flag
  let org ← Tx.read fun s : Db => s.get .organization orgId
  pure (!globallyDisabled && (legacyGlobalOn || org.any (·.visitJourneysEnabled)))

def resolveEffectiveJourneyMode (scope : Scope) (orgId branchId serviceId queueId : Id) :
    TTx JourneyMode := do
  let queue ← findFirst scope .queue fun id q => id == queueId && q.orgId == orgId
  let branchService ← findFirst scope .branchService fun _ b =>
    b.branchId == branchId && b.serviceId == serviceId
  let service ← findFirst scope .service fun id v => id == serviceId && v.orgId == orgId
  let branch ← findFirst scope .branch fun id b => id == branchId && b.orgId == orgId
  pure (((queue.bind (·.2.journeyModeOverride)).orElse fun _ =>
    (branchService.bind (·.2.journeyModeOverride)).orElse fun _ =>
    service.bind (·.2.journeyModeOverride)).getD
      ((branch.map (·.2.defaultJourneyMode)).getD .singleTicket))

/-- `resolveCallingPolicyForStep`: a pickup desk is never first in, first out. -/
def resolveCallingPolicyForStep (stepRole : Option QueueStepRole) (policy : QueueCallingPolicy) :
    QueueCallingPolicy :=
  if stepRole = some .pickup ∧ (policy = .fifo ∨ policy = .manualOnly) then .readyThenManual
  else policy

def resolveQueueCallingPolicy (orgId queueId : Id) : TTx QueueCallingPolicy := do
  let queue ← findById (.tenant orgId) .queue queueId
  match queue with
  | none => pure .fifo
  | some q =>
    let flowStep ← findFirst (.tenant orgId) .flowStep fun _ st =>
      some st.templateId == q.flowTemplateId && st.queueId == some queueId
    match flowStep with
    | some st => pure (resolveCallingPolicyForStep (some st.2.stepRole) st.2.callingPolicy)
    | none => pure (resolveCallingPolicyForStep q.stepRole q.callingPolicy)

def queueNotOpen (status : QueueStatus) : Err :=
  .badRequest (if status = .closed then "Queue is closed. Reopen the queue before issuing tickets."
    else "Queue is not open (status: " ++ status.text ++ ")")

/-- `getQueueSessionFallbackHours`. -/
def getQueueSessionFallbackHours (configured : ℕ) : ℕ := min 72 (max 24 configured)

def sessionExpired (q : Queue) (now : Time) : Bool :=
  q.sessionClosesAt.all (· ≤ now) || q.nextTicketSeq < 1

/-- `reserveQueueDisplayNumber` with `enforceOpenForNonStaff`. -/
def reserveQueueDisplayNumber (orgId queueId : Id) : TTx String := do
  let queue ← forUpdate orgId .queue queueId
  let queue ← orThrow (.notFound "Queue not found") queue
  throwIf (queue.status != .opened) (queueNotOpen queue.status)
  let now ← now
  let configured ← Tx.input
  let closesAt := now + getQueueSessionFallbackHours configured * 3600000
  let _ ← update orgId .queue queueId fun q =>
    if sessionExpired queue now then
      { q with nextTicketSeq := 2, sessionOpenedAt := some now, sessionClosesAt := some closesAt }
    else { q with nextTicketSeq := q.nextTicketSeq + 1 }
  pure (formatDisplayNumber queue.pre (if sessionExpired queue now then 1 else queue.nextTicketSeq))

/-! ## Staff guards -/

/-- What the opening hours say is an input. -/
def assertBranchAcceptsCustomerIntake (actionLabel : String) : TTx Unit :=
  mayRefuse (.badRequest ("This branch is outside operating hours. Operations are unavailable before "
    ++ actionLabel ++ "."))

inductive BranchOperationalGate
  | customerIntake | queueStatusOnly
  deriving DecidableEq, Repr

def assertStaffQueueActionAllowed (orgId queueId branchId : Id) (actionLabel : String)
    (gate : BranchOperationalGate) : TTx Unit := do
  let queue ← findById (.tenant orgId) .queue queueId
  let queue ← orThrow (.notFound "Queue not found") queue
  throwIf (queue.branchId != branchId) (.badRequest "Queue does not belong to the specified branch")
  throwIf (queue.status == .closed)
    (.badRequest ("Queue is closed. Reopen the queue before " ++ actionLabel ++ "."))
  match gate with
  | .customerIntake => assertBranchAcceptsCustomerIntake actionLabel
  | .queueStatusOnly => pure ()

def assertClassicDeskAssignmentForBranch (requiredDeskNumber : Option String) : TTx Unit := do
  mayRefuse (.forbidden ("You do not have any desk assignments in this branch. Ask a manager to " ++
    "assign at least one desk before serving customers here."))
  match trimmed requiredDeskNumber with
  | some deskNumber => mayRefuse (.forbidden ("You are not assigned to Desk " ++ deskNumber ++ "."))
  | none => pure ()

/-- The same, on the page it is for. -/
def assertClassicDesk (surface : ActionSurface) (requiredDeskNumber : Option String) : TTx Unit :=
  match surface with
  | .classic => assertClassicDeskAssignmentForBranch requiredDeskNumber
  | .workbench => pure ()

/-! ## Action surfaces -/

def isQueueJourneyManaged (scope : Scope) (orgId queueId : Id) : TTx Bool := do
  let queue ← findFirst scope .queue fun id q => id == queueId && q.orgId == orgId
  pure (queue.any fun q => q.2.journeyModeOverride == some .visitMultiStep || q.2.flowTemplateId.isSome)

def surfaceMismatch (surface : ActionSurface) (journeyManaged : Bool) : Bool :=
  (surface == .classic && journeyManaged) || (surface == .workbench && !journeyManaged)

def assertActionSurfaceForQueue (orgId queueId : Id) (surface : ActionSurface) : TTx Unit := do
  let journeyManaged ← isQueueJourneyManaged (.tenant orgId) orgId queueId
  let writeBlockEnabled ← flag
  throwIf (surfaceMismatch surface journeyManaged && writeBlockEnabled) (.badRequest
    (match surface with
    | .classic => "This queue is a multi-step journey service. Please switch to the Multi-Step " ++
        "Workbench to serve."
    | .workbench => "This queue is a single-step ticket service. Please switch to the Single-Step " ++
        "Console to serve."))

def assertActionSurfaceForTicket (orgId ticketId : Id) (surface : ActionSurface) : TTx Unit := do
  let ticket ← findById (.tenant orgId) .ticket ticketId
  let ticket ← orThrow (.notFound "Ticket not found") ticket
  let queueManaged ← isQueueJourneyManaged (.tenant orgId) orgId ticket.queueId
  let writeBlockEnabled ← flag
  throwIf (surfaceMismatch surface (ticket.visitId.isSome || queueManaged) && writeBlockEnabled)
    (.badRequest (match surface with
    | .classic => "This ticket belongs to a multi-step journey. Use Journey workbench actions."
    | .workbench => "This ticket is single-step. Use classic Agent actions."))

/-! ## Flow templates -/

def resolveFlowTemplateId (scope : Scope) (orgId branchId queueId : Id)
    (ticketTemplateId : Option Id) : TTx (Option Id) := do
  match ticketTemplateId with
  | some id => pure (some id)
  | none =>
    let queue ← findFirst scope .queue fun id q => id == queueId && q.orgId == orgId
    match queue.bind (·.2.flowTemplateId) with
    | some id => pure (some id)
    | none =>
      let active ← findFirst scope .flowTemplate fun _ t =>
        t.orgId == orgId && t.branchId == branchId && t.isActive
      pure (active.map (·.1))

/-- `orderBy: { stepIndex: 'asc' }`. -/
def byStepIndex (a b : BranchFlowStep) : Bool := a.stepIndex ≤ b.stepIndex

def firstStep (scope : Scope) (p : BranchFlowStep → Bool) : TTx (Option BranchFlowStep) := do
  let step ← findFirstBy scope .flowStep (fun _ st => p st) byStepIndex
  pure (step.map (·.2))

def maxStepIndex (tickets : List (Id × Ticket)) : Option ℤ :=
  (tickets.filterMap (·.2.stepIndex)).max?

def resolveFlowStepIndexForQueue (scope : Scope) (orgId branchId queueId : Id)
    (visitId : Option Id) : TTx (Option ℤ) := do
  let templateId ← resolveFlowTemplateId scope orgId branchId queueId none
  match templateId with
  | none => pure none
  | some templateId =>
    let tickets ← findMany scope .ticket fun _ t => t.orgId == orgId && t.visitId == visitId
    let minStepIndex := if visitId.isSome then (maxStepIndex tickets).getD 0 else 0
    let ofTemplate (st : BranchFlowStep) : Bool := st.orgId == orgId && st.templateId == templateId
    let step ← firstStep scope fun st =>
      ofTemplate st && st.queueId == some queueId && minStepIndex ≤ st.stepIndex
    let fallback ← firstStep scope fun st => ofTemplate st && st.queueId == some queueId
    let queue ← findFirst scope .queue fun id q =>
      id == queueId && q.orgId == orgId && q.branchId == branchId
    let stepByService ← firstStep scope fun st =>
      ofTemplate st && some st.serviceId == queue.map (·.2.serviceId) && minStepIndex ≤ st.stepIndex
    match step, fallback with
    | none, some fallback =>
      if 0 < minStepIndex then pure (some fallback.stepIndex)
      else pure (stepByService.map (·.stepIndex))
    | _, _ => pure ((stepByService.orElse fun _ => step).map (·.stepIndex))

def journeyStepAcceptsExternalRef (stepIndex : Option ℤ) (stepRole : Option QueueStepRole) : Bool :=
  stepRole.isSome || stepIndex.any (1 ≤ ·)

def persistVisitExternalRef (orgId visitId : Id) (externalRef : String) : TTx Unit := do
  let _ ← update orgId .visit visitId fun v => { v with externalRef := some externalRef }
  pure ()

/-- `orderBy: { bookedAt: 'desc' }`. -/
def byBookedAtDesc (a b : Ticket) : Bool := b.bookedAt ≤ a.bookedAt

def resolveVisitExternalRef (orgId visitId : Id) (externalRef : Option String) :
    TTx (Option String) := do
  match trimmed externalRef with
  | some ref =>
    persistVisitExternalRef orgId visitId ref
    pure (some ref)
  | none =>
    let visit ← findById (.tenant orgId) .visit visitId
    match trimmed (visit.bind (·.externalRef)) with
    | some ref => pure (some ref)
    | none =>
      let ticket ← findFirstBy (.tenant orgId) .ticket
        (fun _ t => t.visitId == some visitId && t.externalRef.isSome) byBookedAtDesc
      match trimmed (ticket.bind (·.2.externalRef)) with
      | some ref =>
        persistVisitExternalRef orgId visitId ref
        pure (some ref)
      | none => pure none

/-! ## The next step -/

structure JourneyTicketContext where
  visitId : Option Id
  stepIndex : Option ℤ
  branchId : Id
  queueId : Id
  flowTemplateId : Option Id
  deriving DecidableEq, Repr

def Ticket.context (t : Ticket) : JourneyTicketContext :=
  ⟨t.visitId, t.stepIndex, t.branchId, t.queueId, t.flowTemplateId⟩

structure JourneyNextStep where
  stepIndex : ℤ
  serviceId : Id
  queueId : Id
  deskNumber : String
  templateId : Id
  deriving DecidableEq, Repr

/-- `WorkflowService.getNextStep`. -/
def getNextStep (orgId templateId : Id) (currentStepIndex : ℤ) : TTx (Option BranchFlowStep) :=
  firstStep (.tenant orgId) fun st => st.templateId == templateId && currentStepIndex < st.stepIndex

/-- `mode: 'insensitive'`. -/
def containsInsensitive (s t : String) : Bool :=
  s.toLower.toList.tails.any fun r => t.toLower.toList.isPrefixOf r

/-- `orderBy: { createdAt: 'asc' }`. -/
def byCreatedAt (a b : Queue) : Bool := a.createdAt ≤ b.createdAt

def findQueueForFlowStepFallback (orgId branchId templateId : Id) (stepIndex : ℤ) (serviceId : Id) :
    TTx (Option (Id × Queue)) := do
  let stepMeta ← firstStep (.tenant orgId) fun st =>
    st.templateId == templateId && st.stepIndex == stepIndex
  let service ← findById (.tenant orgId) .service ((stepMeta.map (·.serviceId)).getD 0)
  let serviceName := trimmed (stepMeta.bind fun _ => service.map (·.name))
  let byName ← findFirstBy (.tenant orgId) .queue
    (fun _ q => q.branchId == branchId && serviceName.any (containsInsensitive q.name)) byCreatedAt
  let orderedSteps ← findManyBy (.tenant orgId) .flowStep
    (fun _ st => st.templateId == templateId) byStepIndex
  let templateQueues ← findManyBy (.tenant orgId) .queue
    (fun _ q => q.branchId == branchId && q.flowTemplateId == some templateId) byCreatedAt
  let byService ← findFirstBy (.tenant orgId) .queue
    (fun _ q => q.branchId == branchId && q.serviceId == serviceId && q.status != .closed) byCreatedAt
  match byName, orderedSteps.findIdx? (·.2.stepIndex == stepIndex) with
  | some q, _ => pure (some q)
  | none, none => pure none
  | none, some i => pure ((templateQueues[i]?).orElse fun _ => byService)

/-- A step, as `resolveQueueForFlowStep` takes it. -/
structure StepRef where
  stepIndex : ℤ
  serviceId : Id
  queueId : Option Id
  deriving DecidableEq, Repr

def BranchFlowStep.ref (st : BranchFlowStep) : StepRef := ⟨st.stepIndex, st.serviceId, st.queueId⟩

def repairFlowStep (orgId branchId templateId : Id) (step : StepRef) :
    TTx (Option (Id × Queue)) := do
  let ofService (q : Queue) : Bool := q.branchId == branchId && q.serviceId == step.serviceId
  let openQueue ← findFirst (.tenant orgId) .queue fun _ q => ofService q && q.status == .opened
  let anyQueue ← findFirstBy (.tenant orgId) .queue (fun _ q => ofService q) byCreatedAt
  let fallback ← findQueueForFlowStepFallback orgId branchId templateId step.stepIndex step.serviceId
  match openQueue.orElse fun _ => anyQueue.orElse fun _ => fallback with
  | none => pure none
  | some q =>
    if step.queueId = some q.1 ∧ step.serviceId = q.2.serviceId then pure (some q)
    else
      let _ ← updateMany orgId .flowStep
        (fun _ st => st.templateId == templateId && st.stepIndex == step.stepIndex)
        fun st => { st with queueId := some q.1, serviceId := q.2.serviceId }
      pure (some q)

def resolveQueueForFlowStep (orgId branchId templateId : Id) (step : StepRef) :
    TTx (Option (Id × Queue)) := do
  let byId ← findById (.tenant orgId) .queue (step.queueId.getD 0)
  match step.queueId, byId with
  | some queueId, some q => pure (some (queueId, q))
  | _, _ => repairFlowStep orgId branchId templateId step

/-- The template and the index the next step is looked up by. -/
def resolveStep (scope : Scope) (orgId : Id) (ticket : JourneyTicketContext) :
    TTx (Option (Id × ℤ)) := do
  match ticket.visitId with
  | none => pure none
  | some visitId =>
    let ofQueue ← resolveFlowStepIndexForQueue scope orgId ticket.branchId ticket.queueId visitId
    let templateId ← resolveFlowTemplateId scope orgId ticket.branchId ticket.queueId
      ticket.flowTemplateId
    match ticket.stepIndex.orElse fun _ => ofQueue, templateId with
    | some currentStepIndex, some templateId => pure (some (templateId, currentStepIndex))
    | _, _ => pure none

def resolveStepQueue (orgId branchId templateId : Id) (nextStep : BranchFlowStep) :
    TTx (Option JourneyNextStep) := do
  let queue ← resolveQueueForFlowStep orgId branchId templateId nextStep.ref
  pure (queue.map fun q =>
    { stepIndex := nextStep.stepIndex, serviceId := nextStep.serviceId, queueId := q.1,
      deskNumber := nextStep.deskNumber, templateId })

/-- `nextStep` is none on the last step, and where the queue of a later step cannot be resolved. -/
structure NextStepResolution where
  nextStep : Option JourneyNextStep
  hasLaterStep : Bool
  deriving DecidableEq, Repr

def resolveNextJourneyStepIn (scope : Scope) (orgId : Id) (ticket : JourneyTicketContext) :
    TTx NextStepResolution := do
  let step ← resolveStep scope orgId ticket
  match step with
  | none => pure ⟨none, false⟩
  | some (templateId, currentStepIndex) =>
    let nextStep ← getNextStep orgId templateId currentStepIndex
    match nextStep with
    | none => pure ⟨none, false⟩
    | some nextStep =>
      let resolved ← resolveStepQueue orgId ticket.branchId templateId nextStep
      pure ⟨resolved, true⟩

/-- `resolveNextJourneyStepTx`: on the connection of the caller. -/
def resolveNextJourneyStepTx (orgId : Id) (ticket : JourneyTicketContext) :
    TTx NextStepResolution := resolveNextJourneyStepIn (.tenant orgId) orgId ticket

/-- `resolveNextJourneyStep`: on connections of its own. -/
def resolveNextJourneyStep (orgId : Id) (ticket : JourneyTicketContext) :
    TCall (Option JourneyNextStep) := do
  let bypassRls ← Call.input
  let step ← Call.withTx (resolveStep (.bare (bypassRls % 2 == 1)) orgId ticket)
  match step with
  | none => pure none
  | some (templateId, currentStepIndex) =>
    let nextStep ← withTenant (getNextStep orgId templateId currentStepIndex)
    match nextStep with
    | none => pure none
    | some nextStep => withTenant (resolveStepQueue orgId ticket.branchId templateId nextStep)

/-- `getNextStepResolutionFailure`: there is a next step and no queue for it. The template is the
queue's or the branch's, whatever the ticket's. -/
def getNextStepResolutionFailure (orgId : Id) (ticket : JourneyTicketContext) :
    TCall (Option BranchFlowStep) := do
  let bypassRls ← Call.input
  let step ← Call.withTx (resolveStep (.bare (bypassRls % 2 == 1)) orgId
    { ticket with flowTemplateId := none })
  match step with
  | none => pure none
  | some (templateId, currentStepIndex) =>
    let nextStep ← withTenant (getNextStep orgId templateId currentStepIndex)
    match nextStep with
    | none => pure none
    | some nextStep =>
      let resolved ← withTenant (resolveStepQueue orgId ticket.branchId templateId nextStep)
      pure (match resolved with | some _ => none | none => some nextStep)

end PatronLoyalty.Ticketing
