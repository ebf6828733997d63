import PatronLoyalty.Ticketing.Issuance

/-!
# Status transitions

`TicketTransitionService` and `TicketJourneyTransitionService`. `transitionTicketCore` locks the ticket,
checks its status and updates it. `finalizeTicketWithJourneyAdvance` completes a ticket and issues the
one for the next step of its visit in one transaction, with the ticket locked throughout.

`refreshVisitStatus` recomputes the status of a visit from its tickets, in a transaction of its own
after the one that changed a ticket; nobody waits for it and its errors are dropped. It asks for the next
step on other connections; here that is part of its transaction, in the scope of the bare client.
-/

namespace PatronLoyalty.Ticketing

open Txn
open Loyalty (Id Err truthy trim)

/-! ## One transition -/

/-- `extraData`: `none` is a field that is not set. -/
structure TransitionData where
  calledAt : Option Time := none
  servedAt : Option (Option Time) := none
  servedByUserId : Option (Option Id) := none
  resummonSmsOnServe : Option Bool := none
  deskNumber : Option String := none
  completedAt : Option Time := none
  externalRef : Option String := none
  deriving DecidableEq, Repr

def TransitionData.apply (data : TransitionData) (t : Ticket) : Ticket :=
  { t with
    calledAt := data.calledAt.orElse fun _ => t.calledAt
    servedAt := data.servedAt.getD t.servedAt
    servedByUserId := data.servedByUserId.getD t.servedByUserId
    resummonSmsOnServe := data.resummonSmsOnServe.getD t.resummonSmsOnServe
    deskNumber := data.deskNumber.orElse fun _ => t.deskNumber
    completedAt := data.completedAt.orElse fun _ => t.completedAt
    externalRef := data.externalRef.orElse fun _ => t.externalRef }

/-- `Math.round(Math.max(0, (b - a) / 60000))`. -/
def roundMinutes (a b : Time) : ℤ := ((2 * (b - a) + 60000) / 120000 : ℕ)

def effectiveServedAt (data : TransitionData) (current : Ticket) (now : Time) : Time :=
  ((data.servedAt.bind id).orElse fun _ => current.servedAt.orElse fun _ => current.calledAt).getD now

/-- The row a transition writes over the row `t`; `current` is the row that was locked. -/
def transitioned (current : Ticket) (toStatus : TicketStatus) (data : TransitionData) (now : Time)
    (t : Ticket) : Ticket :=
  let t := data.apply { t with status := toStatus }
  let t := if current.status = .waiting ∧ toStatus ≠ .waiting then { t with position := none } else t
  if toStatus = .completed ∨ toStatus = .noShow then
    { t with
      waitMinutes := some (roundMinutes current.bookedAt (effectiveServedAt data current now))
      serviceMinutes := some (roundMinutes (effectiveServedAt data current now) now) }
  else t

@[simp] theorem transitioned_status (current : Ticket) (toStatus : TicketStatus)
    (data : TransitionData) (now : Time) (t : Ticket) :
    (transitioned current toStatus data now t).status = toStatus := by
  unfold transitioned
  dsimp only
  split <;> split <;> rfl

def branchHoursGateForTransition (fromStatus toStatus : TicketStatus) : BranchOperationalGate :=
  if toStatus = .called then .customerIntake
  else if toStatus = .serving ∧ fromStatus = .waiting then .customerIntake
  else .queueStatusOnly

def invalidTransition (current : TicketStatus) (allowed : List TicketStatus) : Err :=
  .badRequest ("Ticket is in " ++ current.text ++ " state, expected " ++
    " or ".intercalate (allowed.map TicketStatus.text))

def transitionTicketCore (orgId ticketId : Id) (allowed : List TicketStatus) (toStatus : TicketStatus)
    (data : TransitionData) : TTx Ticket := do
  let current ← forUpdate orgId .ticket ticketId
  let current ← orThrow (.notFound "Ticket not found") current
  assertStaffQueueActionAllowed orgId current.queueId current.branchId
    ("marking tickets as " ++ toStatus.text) (branchHoursGateForTransition current.status toStatus)
  throwIf (!allowed.contains current.status) (invalidTransition current.status allowed)
  let now ← now
  update orgId .ticket ticketId (transitioned current toStatus data now)

/-! ## The status of a visit -/

/-- `orderBy: { createdAt: 'desc' }`. -/
def byCreatedAtDesc (a b : Ticket) : Bool := b.createdAt ≤ a.createdAt

def isAbandoned (t : Ticket) : Bool := t.status == .noShow || t.status == .cancelled

def activateVisit (orgId visitId : Id) : TTx Unit := do
  let _ ← update orgId .visit visitId fun v => { v with status := .active, completedAt := none }
  pure ()

/-- A visit none of whose tickets is active: it goes on where its last ticket has a next step. -/
def settleVisit (bypassRls : Bool) (orgId visitId : Id) : TTx Unit := do
  let lastTicket ← findFirstBy (.tenant orgId) .ticket (fun _ t => t.visitId == some visitId)
    byCreatedAtDesc
  let nextStep ← nextStepOf lastTicket
  match nextStep with
  | some _ => activateVisit orgId visitId
  | none =>
    let externalRef ← externalRefOf lastTicket
    let now ← now
    let _ ← update orgId .visit visitId fun v =>
      { v with
        status := .completed, completedAt := some now
        externalRef := externalRef.orElse fun _ => v.externalRef }
    pure ()
where
  nextStepOf : Option (Id × Ticket) → TTx (Option JourneyNextStep)
    | some (_, t) =>
      if isAbandoned t then pure none
      else do
        let next ← resolveNextJourneyStepIn (.bare bypassRls) orgId t.context
        pure next.nextStep
    | none => pure none
  externalRefOf : Option (Id × Ticket) → TTx (Option String)
    | some (_, t) => resolveVisitExternalRef orgId visitId t.externalRef
    | none => pure none

/-- The transaction of `refreshVisitStatus`. -/
def refreshVisitTx (bypassRls : Bool) (orgId visitId : Id) : TTx Unit := do
  let lockedVisit ← forUpdate orgId .visit visitId
  match lockedVisit with
  | none => pure ()
  | some _ =>
    let activeCount ← count (.tenant orgId) .ticket fun _ t =>
      t.visitId == some visitId && t.status.active
    if 0 < activeCount then activateVisit orgId visitId else settleVisit bypassRls orgId visitId

def refreshVisitStatus (orgId : Id) : Option Id → TCall Unit
  | none => pure ()
  | some visitId => do
    let bypassRls ← Call.input
    withTenant (refreshVisitTx (bypassRls % 2 == 1) orgId visitId)

/-- Of `emitTransitionSideEffects`, what touches the store. -/
def emitTransitionSideEffects (ticket : Ticket) : TCall Unit :=
  ignoreErrors (refreshVisitStatus ticket.orgId ticket.visitId)

def emitLoyaltyEvents (orgId ticketId : Id) (toStatus : TicketStatus) (ticket : Ticket) : TCall Unit :=
  match toStatus with
  | .completed => Call.fire (.ticketCompleted orgId ticketId ticket.customerId ticket.branchId
      (some ticket.serviceId))
  | .noShow => Call.fire (.ticketNoShow orgId ticketId ticket.customerId ticket.branchId)
  | _ => pure ()

def transitionTicket (orgId ticketId : Id) (allowed : List TicketStatus) (toStatus : TicketStatus)
    (data : TransitionData) : TCall Ticket := do
  let ticket ← withTenant (transitionTicketCore orgId ticketId allowed toStatus data)
  emitTransitionSideEffects ticket
  emitLoyaltyEvents orgId ticketId toStatus ticket
  pure ticket

/-! ## The journey advance -/

def emptyRef : Err :=
  .badRequest ("Transaction number is required from the first step and must be carried through the " ++
    "journey.")

def nextQueueUnlinked : Err :=
  .badRequest ("The next journey step could not be linked to a queue at this branch. Open the Flows " ++
    "page, re-save your flow template, then complete this step again.")

def notConfigured : Err :=
  .badRequest ("Multi-step journey is not configured for this branch. Link queues to a flow template " ++
    "or activate one on the Flows page, then complete the step again.")

def advanceUnresolved : Err :=
  .badRequest ("Could not resolve the next journey step just now (the service may be briefly " ++
    "degraded). This step was kept active so nothing was lost — please try Complete again in a moment.")

def nextQueueNotFound : Err :=
  .badRequest ("The next journey step points to a queue that no longer exists. Update the flow on the " ++
    "Flows page, then complete this step again.")

def nextQueueClosed : Err :=
  .badRequest ("The next queue in the journey is currently closed. It must be open for tickets to " ++
    "transition into it.")

def nextQueueBranchMismatch : Err :=
  .badRequest ("The next journey step queue belongs to a different branch. Re-save your flow template " ++
    "for this branch.")

def queueNotFound : Err :=
  .badRequest ("A queue required for this journey step no longer exists. Re-save your flow on the " ++
    "Flows page, then complete this step again.")

/-- The error of an issuance that failed; a bad request stays one. -/
def issueNextError (terminalStatus : TicketStatus) : Err → Err
  | .badRequest m => .badRequest m
  | .notFound m => .badRequest ("Could not issue the next journey step (" ++ m ++ "). The ticket was " ++
      "not marked as " ++ (terminalStatus.text.replace "_" " ") ++ " so the visit stays active. Check " ++
      "the flow on the Flows page.")
  | .forbidden m => .badRequest m
  | .conflict m => .badRequest m
  | _ => .badRequest ("Could not issue the next step in this visit journey. The ticket was not marked " ++
      "as " ++ (terminalStatus.text.replace "_" " ") ++ " so the visit stays active.")

/-- `journeyContext`: the ticket with the role of its queue, read before the transaction. -/
structure JourneyContext where
  ticket : Ticket
  stepRole : Option QueueStepRole
  deriving DecidableEq, Repr

def JourneyContext.acceptsRef (jc : JourneyContext) : Bool :=
  journeyStepAcceptsExternalRef jc.ticket.stepIndex jc.stepRole

def findJourneyContext (orgId ticketId : Id) : TTx JourneyContext := do
  let ticket ← findById (.tenant orgId) .ticket ticketId
  let ticket ← orThrow (.notFound "Ticket not found") ticket
  let queue ← findById (.tenant orgId) .queue ticket.queueId
  pure ⟨ticket, queue.bind (·.stepRole)⟩

/-- `orderBy: [{ stepIndex: 'asc' }, { bookedAt: 'asc' }]`. -/
def byStepThenBooked (a b : Ticket) : Bool :=
  if a.stepIndex = b.stepIndex then a.bookedAt ≤ b.bookedAt else byTicketStepIndex a b

def findActiveJourneyFollowUpTicket (scope : Scope) (orgId currentTicketId : Id)
    (visitId : Option Id) (currentStepIndex : Option ℤ) : TTx (Option (Id × Ticket)) :=
  match visitId with
  | none => pure none
  | some visitId =>
    findFirstBy scope .ticket (fun id t =>
      t.orgId == orgId && t.visitId == some visitId && id != currentTicketId && t.status.active &&
        currentStepIndex.all fun i => t.stepIndex.any (i < ·)) byStepThenBooked

/-- The transaction number that goes with the journey; the step may ask for one. -/
def resolveJourneyRef (orgId : Id) (jc : JourneyContext) (externalRef : Option String) :
    TTx (Option String) := do
  let ref ← refOf jc.ticket.visitId
  throwIf (jc.ticket.visitId.isSome && jc.acceptsRef && ref.isNone) emptyRef
  pure ref
where
  refOf : Option Id → TTx (Option String)
    | none => pure none
    | some visitId =>
      if jc.acceptsRef then
        resolveVisitExternalRef orgId visitId (externalRef.orElse fun _ => jc.ticket.externalRef)
      else pure none

/-- The next ticket goes to the desk of its step, and is called at once where that is the desk of the
ticket before and not a pickup desk. -/
def autoCall (jc : JourneyContext) (nextStep : JourneyNextStep) (nextQueue : Queue) : Bool :=
  (truthy jc.ticket.deskNumber).isSome && (truthy (some nextStep.deskNumber)).isSome &&
    jc.ticket.deskNumber == some nextStep.deskNumber && nextQueue.stepRole != some .pickup

def advanceData (jc : JourneyContext) (nextStep : JourneyNextStep) (queueId : Id) (nextQueue : Queue)
    (refForNextStep : Option String) : IssueTicketData :=
  let called := autoCall jc nextStep nextQueue
  { branchId := jc.ticket.branchId
    queueId
    serviceId := nextQueue.serviceId
    visitId := jc.ticket.visitId
    stepIndex := some nextStep.stepIndex
    deskNumber := if called then some nextStep.deskNumber else none
    initialStatus := some (if called then .called else .waiting)
    customerId := jc.ticket.customerId
    customerName := jc.ticket.customerName
    customerPhone := jc.ticket.customerPhone
    language := jc.ticket.language
    source := "system"
    externalRef := refForNextStep }

def issueNext (orgId : Id) (jc : JourneyContext) (terminalStatus : TicketStatus)
    (nextStep : JourneyNextStep) (refForNextStep : Option String) : TTx (Id × Ticket) := do
  let nextQueue ← resolveQueueForFlowStep orgId jc.ticket.branchId nextStep.templateId
    ⟨nextStep.stepIndex, nextStep.serviceId, some nextStep.queueId⟩
  let nextQueue ← orThrow nextQueueNotFound nextQueue
  throwIf (nextQueue.2.status != .opened) nextQueueClosed
  throwIf (nextQueue.2.branchId != jc.ticket.branchId) nextQueueBranchMismatch
  (issueTicketCore orgId (advanceData jc nextStep nextQueue.1 nextQueue.2 refForNextStep)).mapError
    (issueNextError terminalStatus)

def issueNextIfAny (orgId : Id) (jc : JourneyContext) (terminalStatus : TicketStatus)
    (nextStep : Option JourneyNextStep) (resolvedExternalRef : Option String) :
    TTx (Option (Id × Ticket)) :=
  match nextStep with
  | none => pure none
  | some nextStep => do
    let next ← issueNext orgId jc terminalStatus nextStep
      (if journeyStepAcceptsExternalRef (some nextStep.stepIndex) none && jc.acceptsRef then
        resolvedExternalRef else none)
    pure (some next)

/-- What `complete` answers. -/
structure Finalized where
  ticket : Ticket
  nextTicket : Option (Id × Ticket)
  deriving DecidableEq, Repr

/-- The ticket is in its terminal status already: the answer of the request that put it there. -/
def finalizedAlready (orgId ticketId : Id) (locked : Ticket) : TTx Finalized := do
  let followUp ← findActiveJourneyFollowUpTicket (.tenant orgId) orgId ticketId locked.visitId
    locked.stepIndex
  pure ⟨locked, followUp⟩

def advanceTicket (orgId ticketId : Id) (terminalStatus : TicketStatus) (externalRef : Option String)
    (jc : JourneyContext) (locked : Ticket) : TTx Finalized := do
  let resolution ← resolveNextJourneyStepTx orgId
    { visitId := locked.visitId, stepIndex := locked.stepIndex, branchId := jc.ticket.branchId,
      queueId := jc.ticket.queueId, flowTemplateId := locked.flowTemplateId }
  throwIf (resolution.nextStep.isNone && resolution.hasLaterStep) advanceUnresolved
  let ref ← resolveJourneyRef orgId jc externalRef
  let issued ← issueNextIfAny orgId jc terminalStatus resolution.nextStep ref
  let completedAt ← now
  let terminal ← transitionTicketCore orgId ticketId [.called, .serving] terminalStatus
    { completedAt := some completedAt, externalRef := if jc.acceptsRef then ref else none }
  pure ⟨terminal, issued⟩

/-- The locked transaction of `finalizeTicketWithJourneyAdvance`. -/
def finalizeTx (orgId ticketId : Id) (terminalStatus : TicketStatus) (externalRef : Option String)
    (jc : JourneyContext) : TTx Finalized := do
  let locked ← forUpdate orgId .ticket ticketId
  let locked ← orThrow (.notFound "Ticket not found") locked
  if locked.status = terminalStatus then finalizedAlready orgId ticketId locked
  else advanceTicket orgId ticketId terminalStatus externalRef jc locked

/-- The early errors, on connections of their own. -/
def preCheck (orgId : Id) (jc : JourneyContext) : TCall Unit := do
  let nextStep ← resolveNextJourneyStep orgId jc.ticket.context
  if nextStep.isSome || jc.ticket.visitId.isNone then pure ()
  else
    let unresolvedNext ← getNextStepResolutionFailure orgId jc.ticket.context
    rejectIf unresolvedNext.isSome nextQueueUnlinked
    let bypassRls ← Call.input
    let scope := Scope.bare (bypassRls % 2 == 1)
    let journeyManaged ← Call.withTx (isQueueJourneyManaged scope orgId jc.ticket.queueId)
    let templateId ← Call.withTx (resolveFlowTemplateId scope orgId jc.ticket.branchId
      jc.ticket.queueId none)
    rejectIf (journeyManaged && templateId.isNone) notConfigured

/-- `isQueueNotFoundError` -/
def finalizeError : Err → Err
  | .notFound "Queue not found" => queueNotFound
  | e => e

def finalizeTicketWithJourneyAdvance (orgId ticketId : Id) (terminalStatus : TicketStatus)
    (externalRef : Option String) : TCall Finalized := do
  let jc ← withTenant (findJourneyContext orgId ticketId)
  preCheck orgId jc
  let done ← withTenant ((finalizeTx orgId ticketId terminalStatus externalRef jc).mapError
    finalizeError)
  emitTransitionSideEffects done.ticket
  pure done

end PatronLoyalty.Ticketing
