import PatronLoyalty.Ticketing.Transitions

/-!
# Staff actions

`TicketStaffActionService`. Three ways of changing a ticket are to be told apart:

* `callNext`, `callSpecific`, `cancel`, and everything through `transitionTicketCore`, lock the ticket,
  check its status, then update it;
* `markReady`, `bringToFirst` and `changeDesk` check the status on an unlocked read, and update columns
  that are not the status;
* `transfer` reads the ticket without a lock, does not look at its status, and updates it by its
  identifier.

`SKIP LOCKED` passes over the rows that are locked by others: how many is an input, and the row it comes
to is locked at once or waited for. The refresh that `transfer` schedules with `setTimeout` runs beside
its transaction; it is a request of its own (`Requests`).
-/

namespace PatronLoyalty.Ticketing

open Txn
open Loyalty (Id Err truthy trim)

/-! ## Calling -/

/-- `ORDER BY` of `callNext`: the tickets of the desk first, if it filters by desk, then by position,
then by the time of booking. -/
def callRank (desk : Option String) (t : Ticket) : ℕ :=
  match desk with
  | some deskNumber => if t.deskNumber = some deskNumber then 0 else 1
  | none => 0

def callOrder (desk : Option String) (a b : Ticket) : Bool :=
  if callRank desk a ≠ callRank desk b then callRank desk a < callRank desk b
  else match a.position, b.position with
    | some i, some j => if i = j then a.bookedAt ≤ b.bookedAt else i < j
    | some _, none => true
    | none, some _ => false
    | none, none => a.bookedAt ≤ b.bookedAt

/-- The tickets `callNext` chooses from. -/
def callable (queueId : Id) (bookedAtFloor : Time) (policy : QueueCallingPolicy)
    (desk : Option String) (t : Ticket) : Bool :=
  t.queueId == queueId && t.status == .waiting && bookedAtFloor ≤ t.bookedAt &&
    (policy != .readyThenFifo || t.readyAt.isSome) &&
    desk.all fun d => t.deskNumber == some d || t.deskNumber.isNone

def callCandidates (orgId queueId : Id) (bookedAtFloor : Time) (policy : QueueCallingPolicy)
    (desk : Option String) (s : Db) : List (Id × Ticket) :=
  (seen (.tenant orgId) .ticket (fun _ t => callable queueId bookedAtFloor policy desk t) s)
    |>.insertionSort fun x y => callOrder desk x.2 y.2 = true

def calledTicket (deskNumber : String) (userId : Id) (now : Time) (t : Ticket) : Ticket :=
  { t with
    status := .called, calledAt := some now, servedByUserId := some userId,
    deskNumber := some deskNumber }

def assertDesk (surface : ActionSurface) (deskNumber action : String) : TTx Unit :=
  match surface with
  | .workbench => mayRefuse (.badRequest ("Cannot " ++ action ++ ": Sign in at desk " ++ deskNumber ++
      " on the multi-step page first (workbench session required)."))
  | .classic => do
    assertClassicDeskAssignmentForBranch (some deskNumber)
    mayRefuse (.badRequest ("Cannot " ++ action ++ ": Desk " ++ deskNumber ++ " is currently closed."))

def nothingToCall (orgId queueId : Id) (bookedAtFloor : Time) (policy : QueueCallingPolicy)
    (desk : Option String) : TTx (Id × Ticket) := do
  let waitingTotal ← count (.tenant orgId) .ticket fun _ t =>
    callable queueId bookedAtFloor .fifo desk t
  let readyTotal ← count (.tenant orgId) .ticket fun _ t =>
    callable queueId bookedAtFloor .readyThenFifo desk t
  throwIf (policy == .readyThenFifo && 0 < waitingTotal && readyTotal == 0) (.badRequest
    ("Customers are waiting, but none are marked Ready yet. Mark tickets as Ready before using Call " ++
      "Next."))
  Tx.throw (.notFound "No waiting tickets in this queue")

def lockNext (orgId queueId : Id) (bookedAtFloor : Time) (policy : QueueCallingPolicy)
    (desk : Option String) : TTx (Id × Ticket) := do
  let skipped ← Tx.input
  let result ← forUpdateSkipLocked .ticket (callCandidates orgId queueId bookedAtFloor policy desk) skipped
  match result with
  | some r => pure r
  | none => nothingToCall orgId queueId bookedAtFloor policy desk

/-- The transaction of `callNext`. -/
def callNextTx (orgId queueId : Id) (deskNumber : String) (userId : Id) (deskFilterActive : Bool)
    (surface : ActionSurface) (bookedAtFloor : Time) : TTx (Id × Ticket) := do
  assertActionSurfaceForQueue orgId queueId surface
  let queue ← findById (.tenant orgId) .queue queueId
  let queue ← orThrow (.notFound "Queue not found") queue
  assertStaffQueueActionAllowed orgId queueId queue.branchId "calling next" .customerIntake
  let policy ← resolveQueueCallingPolicy orgId queueId
  throwIf (policy == .manualOnly || policy == .readyThenManual)
    (.badRequest "This queue requires manual call. Use \"Call\" on a specific ticket.")
  assertDesk surface deskNumber "call next customer"
  let next ← lockNext orgId queueId bookedAtFloor policy
    (if deskFilterActive then some deskNumber else none)
  let now ← now
  let ticket ← update orgId .ticket next.1 fun t =>
    { calledTicket deskNumber userId now t with position := none }
  pure (next.1, ticket)

def callNext (orgId queueId : Id) (deskNumber : String) (userId : Id) (deskFilterActive : Bool)
    (surface : ActionSurface) : TCall (Id × Ticket) := do
  let bookedAtFloor ← Call.withTx liveQueueBookedAtFloor
  withTenant (callNextTx orgId queueId deskNumber userId deskFilterActive surface bookedAtFloor)

/-- The transaction of `callSpecific`: what it checks first, it reads without a lock. -/
def callSpecificTx (orgId ticketId : Id) (deskNumber : String) (userId : Id)
    (surface : ActionSurface) : TTx (Id × Ticket) := do
  assertActionSurfaceForTicket orgId ticketId surface
  let target ← findById (.tenant orgId) .ticket ticketId
  let target ← orThrow (.notFound "Ticket not found") target
  throwIf (target.status != .waiting) (.badRequest ("Cannot call ticket — current status is \"" ++
    target.status.text ++ "\" (must be \"waiting\")"))
  let bookedAtFloor ← liveQueueBookedAtFloor
  assertTicketInLiveQueue target.bookedAt bookedAtFloor
  let queue ← findById (.tenant orgId) .queue target.queueId
  let queue ← orThrow (.notFound "Queue not found") queue
  assertStaffQueueActionAllowed orgId target.queueId queue.branchId "calling tickets" .customerIntake
  let policy ← resolveQueueCallingPolicy orgId target.queueId
  let canFifoManualCall ← flag
  throwIf ((policy == .fifo || policy == .readyThenFifo) && !canFifoManualCall) (.badRequest
    "This step uses Call Next only. Use Call Next instead of calling a specific customer.")
  throwIf (policy == .readyThenManual && target.readyAt.isNone)
    (.badRequest "Ticket must be marked ready before calling")
  assertDesk surface deskNumber "call ticket"
  let locked ← forUpdateWhere orgId .ticket ticketId fun t =>
    t.status == .waiting && bookedAtFloor ≤ t.bookedAt
  let _ ← orThrow (.badRequest
    "Ticket is no longer available (it may have been called by another agent)") locked
  let now ← now
  let ticket ← update orgId .ticket ticketId (calledTicket deskNumber userId now)
  pure (ticketId, ticket)

def callSpecific (orgId ticketId : Id) (deskNumber : String) (userId : Id) (surface : ActionSurface) :
    TCall (Id × Ticket) := withTenant (callSpecificTx orgId ticketId deskNumber userId surface)

/-! ## The waiting line -/

/-- `orderBy: { position: 'asc' }`, of tickets that have a position. -/
def byPosition (a b : Ticket) : Bool := a.position.getD 0 ≤ b.position.getD 0

def bringToFirstTx (orgId ticketId : Id) (bookedAtFloor : Time) : TTx Ticket := do
  let target ← findById (.tenant orgId) .ticket ticketId
  let target ← orThrow (.notFound "Ticket not found") target
  throwIf (target.status != .waiting) (.badRequest "Only waiting tickets can be moved to first.")
  assertTicketInLiveQueue target.bookedAt bookedAtFloor
  let queue ← findById (.tenant orgId) .queue target.queueId
  let queue ← orThrow (.notFound "Queue not found") queue
  assertStaffQueueActionAllowed orgId target.queueId queue.branchId "reordering tickets"
    .customerIntake
  let firstPositioned ← findFirstBy (.tenant orgId) .ticket (fun id t =>
    t.queueId == target.queueId && t.status == .waiting && bookedAtFloor ≤ t.bookedAt &&
      t.position.isSome && id != ticketId) byPosition
  update orgId .ticket ticketId fun t =>
    { t with position := some ((firstPositioned.bind (·.2.position)).getD 0 - 1) }

def bringToFirst (orgId ticketId : Id) : TCall Ticket := do
  let bookedAtFloor ← Call.withTx liveQueueBookedAtFloor
  withTenant (bringToFirstTx orgId ticketId bookedAtFloor)

def markReadyTx (orgId ticketId : Id) (surface : ActionSurface) : TTx Ticket := do
  assertActionSurfaceForTicket orgId ticketId surface
  let current ← findById (.tenant orgId) .ticket ticketId
  let current ← orThrow (.notFound "Ticket not found") current
  throwIf (current.status != .waiting) (.badRequest "Only waiting tickets can be marked ready")
  let policy ← resolveQueueCallingPolicy orgId current.queueId
  let queue ← findById (.tenant orgId) .queue current.queueId
  let queue ← orThrow (.notFound "Queue not found") queue
  assertStaffQueueActionAllowed orgId current.queueId queue.branchId "marking tickets ready"
    .customerIntake
  throwIf (!isReadyGatedPolicy policy) (.badRequest "This queue does not use readiness gating")
  assertClassicDesk surface none
  let now ← now
  update orgId .ticket ticketId fun t => { t with readyAt := some (current.readyAt.getD now) }

def markReady (orgId ticketId : Id) (surface : ActionSurface) : TCall Ticket :=
  withTenant (markReadyTx orgId ticketId surface)

/-! ## At the desk -/

def assertDeskOfTicket (orgId ticketId : Id) (surface : ActionSurface) : TTx (Option Ticket) := do
  let ticket ← findById (.tenant orgId) .ticket ticketId
  assertClassicDesk surface (ticket.bind (·.deskNumber))
  pure ticket

def serve (orgId ticketId userId : Id) (surface : ActionSurface) : TCall Ticket := do
  let current ← withTenant do
    assertActionSurfaceForTicket orgId ticketId surface
    assertDeskOfTicket orgId ticketId surface
  match current with
  | none => Call.throw (.notFound "Ticket not found")
  | some current =>
    if current.status = .serving then pure current
    else
      let servedAt ← Call.withTx now
      transitionTicket orgId ticketId [.called] .serving
        { servedAt := some (some servedAt)
          servedByUserId := some (some userId)
          resummonSmsOnServe := if current.resummonSmsOnServe then some false else none }

def recallTicket (orgId ticketId : Id) (surface : ActionSurface) (notifyDeskNumber : Option String) :
    TCall Ticket := do
  withTenant (assertActionSurfaceForTicket orgId ticketId surface)
  let existing ← withTenant (assertDeskOfTicket orgId ticketId surface)
  let calledAt ← Call.withTx now
  let isUndo := existing.any (·.status == .serving)
  transitionTicket orgId ticketId [.called, .serving] .called
    { calledAt := some calledAt
      servedAt := if isUndo then some none else none
      servedByUserId := if isUndo then some none else none
      resummonSmsOnServe :=
        if isUndo then some true
        else if existing.any (·.resummonSmsOnServe) then some false else none
      deskNumber := truthy notifyDeskNumber }

def changeDeskTx (orgId ticketId : Id) (targetDeskNumber : String) (surface : ActionSurface) :
    TTx Ticket := do
  let ticket ← assertDeskOfTicket orgId ticketId surface
  let ticket ← orThrow (.notFound "Ticket not found") ticket
  assertStaffQueueActionAllowed orgId ticket.queueId ticket.branchId "changing desk assignments"
    .queueStatusOnly
  throwIf (ticket.status != .called && ticket.status != .serving) (.badRequest
    "Only active (called/serving) tickets can be reassigned to another desk")
  update orgId .ticket ticketId fun t => { t with deskNumber := some targetDeskNumber }

def changeDesk (orgId ticketId : Id) (targetDeskNumber : String) (surface : ActionSurface) :
    TCall Ticket := do
  withTenant (assertActionSurfaceForTicket orgId ticketId surface)
  withTenant (changeDeskTx orgId ticketId targetDeskNumber surface)

/-! ## Ends -/

def complete (orgId ticketId : Id) (externalRef : Option String) (surface : ActionSurface) :
    TCall Finalized := do
  withTenant (assertActionSurfaceForTicket orgId ticketId surface)
  withTenant do
    let ticket ← assertDeskOfTicket orgId ticketId surface
    let _ ← orThrow (.notFound "Ticket not found") ticket
    pure ()
  finalizeTicketWithJourneyAdvance orgId ticketId .completed externalRef

def completedMeanwhile (bypassRls : Bool) (orgId ticketId : Id) (current : Ticket) :
    TTx (Option Finalized) := do
  let ticket ← findById (.bare bypassRls) .ticket ticketId
  let nextTicket ← findActiveJourneyFollowUpTicket (.bare bypassRls) orgId ticketId current.visitId
    current.stepIndex
  pure (ticket.map fun t => ⟨t, nextTicket⟩)

/-- The transition of `noShow`. -/
def markNoShow (orgId ticketId : Id) : TTx Ticket := do
  let completedAt ← now
  transitionTicketCore orgId ticketId [.called, .serving] .noShow { completedAt := some completedAt }

def noShow (orgId ticketId : Id) (surface : ActionSurface) : TCall (Option Finalized) := do
  withTenant (assertActionSurfaceForTicket orgId ticketId surface)
  let current ← withTenant do
    let ticket ← assertDeskOfTicket orgId ticketId surface
    orThrow (.notFound "Ticket not found") ticket
  if current.status = .noShow ∨ current.status = .completed then
    let bypassRls ← Call.input
    Call.withTx (completedMeanwhile (bypassRls % 2 == 1) orgId ticketId current)
  else
    let ticket ← withTenant (markNoShow orgId ticketId)
    emitTransitionSideEffects ticket
    pure (some ⟨ticket, none⟩)

def cancelledTicket (reason : Option String) (now : Time) (t : Ticket) : Ticket :=
  let text := "Cancelled: " ++ reason.getD "undefined"
  { t with
    status := .cancelled, completedAt := some now
    note := some (match truthy t.note with | some note => note ++ " | " ++ text | none => text) }

def cancelTx (orgId ticketId : Id) (staff : Bool) (reason : Option String)
    (surface : ActionSurface) : TTx Ticket := do
  assertActionSurfaceForTicket orgId ticketId surface
  let current ← forUpdate orgId .ticket ticketId
  let current ← orThrow (.notFound "Ticket not found") current
  assertClassicDesk (if staff then surface else .workbench) current.deskNumber
  assertStaffQueueActionAllowed orgId current.queueId current.branchId "cancelling tickets"
    .queueStatusOnly
  throwIf (current.status != .waiting && current.status != .called)
    (.badRequest ("Cannot cancel ticket in status: " ++ current.status.text))
  let now ← now
  update orgId .ticket ticketId (cancelledTicket reason now)

def cancel (orgId ticketId : Id) (staff : Bool) (reason : Option String) (surface : ActionSurface) :
    TCall Ticket := do
  let ticket ← withTenant (cancelTx orgId ticketId staff reason surface)
  ignoreErrors (refreshVisitStatus orgId ticket.visitId)
  pure ticket

/-! ## Transfer -/

/-- The queue a transfer goes to, and the step. -/
structure TransferTarget where
  queueId : Id
  stepIndex : Option ℤ
  deriving DecidableEq, Repr

/-- The next step of a visit ticket by its queue's template or the active one of the branch. -/
def transferStep (orgId : Id) (ticket : Ticket) (queue : Option Queue) :
    TTx (Option BranchFlowStep) := do
  let active ← findFirst (.tenant orgId) .flowTemplate fun _ t =>
    t.branchId == ticket.branchId && t.isActive
  let flowTemplateId := (queue.bind (·.flowTemplateId)).orElse fun _ => active.map (·.1)
  let steps ← findManyBy (.tenant orgId) .flowStep
    (fun _ st => some st.templateId == flowTemplateId) byStepIndex
  let steps := steps.map (·.2)
  let ofQueue := (steps.find? fun st => st.queueId == some ticket.queueId).map (·.stepIndex)
  let currentStepIndex := (ticket.stepIndex.orElse fun _ => ofQueue).getD 0
  pure (if ticket.visitId.isSome then steps.find? fun st => currentStepIndex < st.stepIndex else none)

def transferTarget (orgId : Id) (ticket : Ticket) (queue : Option Queue) (targetQueueId : Option Id) :
    TTx TransferTarget := do
  let nextStep ← transferStep orgId ticket queue
  throwIf (nextStep.any fun st => targetQueueId.any fun q => some q != st.queueId)
    (.badRequest "Target queue must match the next step in the active flow template")
  let queueId ← orThrow (.badRequest "Target queue is required")
    (targetQueueId.orElse fun _ => nextStep.bind (·.queueId))
  pure ⟨queueId, nextStep.map (·.stepIndex)⟩

def transferRef (orgId : Id) (ticket : Ticket) (sourceAcceptsRef targetAcceptsRef : Bool)
    (externalRef : Option String) : TTx (Option String) := do
  let ref ← refOf ticket.visitId
  throwIf (ticket.visitId.isSome && sourceAcceptsRef && ref.isNone) emptyRef
  pure ref
where
  refOf : Option Id → TTx (Option String)
    | none => pure none
    | some visitId =>
      if targetAcceptsRef && (trimmed externalRef).isSome then
        resolveVisitExternalRef orgId visitId externalRef
      else if targetAcceptsRef && sourceAcceptsRef then
        resolveVisitExternalRef orgId visitId ticket.externalRef
      else pure none

/-- What a transfer has found out when it writes. -/
structure TransferPlan where
  target : TransferTarget
  serviceId : Id
  displayNumber : String
  deskNumber : Option String
  externalRef : Option String
  deriving DecidableEq, Repr

def transferredTicket (ticket : Ticket) (plan : TransferPlan) (now : Time) : Ticket :=
  { orgId := ticket.orgId
    branchId := ticket.branchId
    visitId := ticket.visitId
    queueId := plan.target.queueId
    serviceId := plan.serviceId
    customerId := ticket.customerId
    customerName := ticket.customerName
    customerPhone := ticket.customerPhone
    transactionalSmsAllowed := ticket.transactionalSmsAllowed
    displayNumber := plan.displayNumber
    status := if plan.deskNumber.isSome then .called else .waiting
    priority := ticket.priority
    source := ticket.source
    language := ticket.language
    note := ticket.note
    externalRef := plan.externalRef
    stepIndex := plan.target.stepIndex.orElse fun _ => ticket.stepIndex.map (· + 1)
    readyAt := none
    bookedAt := now
    createdAt := now
    calledAt := if plan.deskNumber.isSome then some now else none
    deskNumber := plan.deskNumber }

/-- The row a transfer within a visit leaves behind. -/
def transferredOut (plan : TransferPlan) (now : Time) (t : Ticket) : Ticket :=
  { t with
    status := .completed, completedAt := some now
    externalRef := plan.externalRef.orElse fun _ => t.externalRef }

def requeued (ticket : Ticket) (plan : TransferPlan) (now : Time) (t : Ticket) : Ticket :=
  { t with
    queueId := plan.target.queueId
    stepIndex := plan.target.stepIndex.orElse fun _ => ticket.stepIndex
    readyAt := none
    displayNumber := plan.displayNumber
    status := if plan.deskNumber.isSome then .called else .waiting
    calledAt := if plan.deskNumber.isSome then some now else none
    servedAt := none
    servedByUserId := none
    deskNumber := plan.deskNumber
    externalRef := plan.externalRef.orElse fun _ => t.externalRef }

def writeTransfer (orgId ticketId : Id) (ticket : Ticket) (plan : TransferPlan) :
    TTx (Id × Ticket) := do
  let now ← now
  if ticket.visitId.isSome then
    let _ ← update orgId .ticket ticketId (transferredOut plan now)
    let created := transferredTicket ticket plan now
    let id ← create .ticket created
    pure (id, created)
  else
    let updated ← update orgId .ticket ticketId (requeued ticket plan now)
    pure (ticketId, updated)

/-- What a transfer finds out before it writes. -/
def planTransfer (orgId : Id) (ticket : Ticket) (targetQueueId : Option Id)
    (targetDeskNumber externalRef : Option String) : TTx TransferPlan := do
  let queue ← findById (.tenant orgId) .queue ticket.queueId
  let target ← transferTarget orgId ticket queue targetQueueId
  let targetQueue ← findById (.tenant orgId) .queue target.queueId
  let targetQueue ← orThrow (.notFound "Target queue not found") targetQueue
  let _ ← resolveQueueCallingPolicy orgId target.queueId
  let displayNumber ← reserveQueueDisplayNumber orgId target.queueId
  let ref ← transferRef orgId ticket
    (journeyStepAcceptsExternalRef ticket.stepIndex (queue.bind (·.stepRole)))
    (journeyStepAcceptsExternalRef target.stepIndex targetQueue.stepRole) externalRef
  pure ⟨target, targetQueue.serviceId, displayNumber, truthy targetDeskNumber, ref⟩

def transferTx (orgId ticketId : Id) (targetQueueId : Option Id)
    (targetDeskNumber externalRef : Option String) (surface : ActionSurface) :
    TTx (Id × Ticket) := do
  assertActionSurfaceForTicket orgId ticketId surface
  let ticket ← findById (.tenant orgId) .ticket ticketId
  let ticket ← orThrow (.notFound "Ticket not found") ticket
  assertClassicDesk surface ticket.deskNumber
  assertStaffQueueActionAllowed orgId ticket.queueId ticket.branchId "transferring tickets"
    .customerIntake
  let plan ← planTransfer orgId ticket targetQueueId targetDeskNumber externalRef
  writeTransfer orgId ticketId ticket plan

def transfer (orgId ticketId : Id) (targetQueueId : Option Id)
    (targetDeskNumber externalRef : Option String) (surface : ActionSurface) :
    TCall (Id × Ticket) :=
  withTenant (transferTx orgId ticketId targetQueueId targetDeskNumber externalRef surface)

end PatronLoyalty.Ticketing
