import PatronLoyalty.Ticketing.Staff

/-!
# Sweeps, history and queue updates

The background sweeps and the history of `TicketComplianceService`, and `QueueService.update`.

`expireStaleTickets` reads the stale tickets of all organisations, then updates each by its identifier
in a transaction of its own; it writes minutes as a quotient, which an `INTEGER` column accepts only when
it is whole. `closePriorSessionWaitingTickets` reads the waiting tickets of earlier days and updates them
by their identifiers in one transaction. Neither looks at the status again.
-/

namespace PatronLoyalty.Ticketing

open Txn
open Loyalty (Id Err truthy trim)

/-! ## Stale tickets -/

def stale (cutoff : Time) (t : Ticket) : Bool :=
  (t.status == .called || t.status == .serving) && t.calledAt.any (· < cutoff)

/-- `servedAt ?? calledAt ?? now`. -/
def staleServedAt (t : Ticket) (now : Time) : Time :=
  (t.servedAt.orElse fun _ => t.calledAt).getD now

def wholeMinutes (a b : Time) : Bool := (b - a) % 60000 == 0

/-- The row of a ticket that has expired; `t` is the row the sweep has read. -/
def expiredTicket (t : Ticket) (now : Time) (current : Ticket) : Ticket :=
  { current with
    status := .noShow
    completedAt := some now
    servedAt := some (staleServedAt t now)
    waitMinutes := some ((staleServedAt t now - t.bookedAt) / 60000 : ℕ)
    serviceMinutes := some ((now - staleServedAt t now) / 60000 : ℕ) }

def expireTicket (now : Time) (id : Id) (t : Ticket) : TTx Unit := do
  throwIf (!(wholeMinutes t.bookedAt (staleServedAt t now) && wholeMinutes (staleServedAt t now) now))
    .invalidQuery
  let _ ← update t.orgId .ticket id (expiredTicket t now)
  pure ()

def expireStaleTickets (thresholdMinutes : ℕ) : TCall ℕ := do
  let now ← Call.input
  let stale ← Call.withTx
    (findMany (.bare true) .ticket fun _ t => stale (now - thresholdMinutes * 60000) t)
  Call.forEach stale fun r => ignoreErrors (withTenant (expireTicket now r.1 r.2))
  pure stale.length

/-! ## Prior sessions -/

def priorSessionWaiting (branchId : Id) (floor : Time) (t : Ticket) : Bool :=
  t.branchId == branchId && t.status == .waiting && t.bookedAt < floor

def closedTicket (now : Time) (t : Ticket) : Ticket :=
  { t with status := .noShow, completedAt := some now }

def closeWaitingTickets (now : Time) (branchId : Id) (b : Branch) (floor : Time) :
    TTx (List (Id × Ticket)) := do
  let rows ← findMany (.tenant b.orgId) .ticket fun _ t => priorSessionWaiting branchId floor t
  let _ ← updateMany b.orgId .ticket (fun id _ => (rows.map (·.1)).contains id) (closedTicket now)
  pure rows

/-- One branch of the sweep; with `dryRun` the tickets are only counted. -/
def closeBranch (now : Time) (dryRun : Bool) (branchId : Id) (b : Branch) : TCall ℕ := do
  let floor ← Call.withTx liveQueueBookedAtFloor
  if dryRun then
    withTenant (count (.tenant b.orgId) .ticket fun _ t => priorSessionWaiting branchId floor t)
  else
    let rows ← withTenant (closeWaitingTickets now branchId b floor)
    Call.forEach ((rows.filterMap (·.2.visitId)).dedup) fun visitId =>
      ignoreErrors (refreshVisitStatus b.orgId (some visitId))
    pure rows.length

def closePriorSessionWaitingTickets (dryRun : Bool) (orgId branchId : Option Id) : TCall ℕ := do
  let now ← Call.input
  let branches ← Call.withTx (findMany (.bare true) .branch fun id b =>
    orgId.all (b.orgId == ·) && branchId.all (id == ·))
  Call.foldEach branches 0 fun closed b => do
    let n ← closeBranch now dryRun b.1 b.2
    pure (closed + n)

/-! ## The history -/

def assertTicketDeletableFromHistory (t : Ticket) : TTx Unit := do
  throwIf t.legalHold (.badRequest "This ticket is on legal hold and cannot be deleted.")
  throwIf t.status.active (.badRequest
    "Active queue tickets cannot be deleted from history. Cancel or complete the ticket first.")

/-- Whether the user owns the organisation is an input. -/
def assertOrgOwnerForHistoryDelete : TTx Unit :=
  mayRefuse (.forbidden "Only the organization owner may delete ticket history records.")

def deleteTicketTx (orgId ticketId : Id) : TTx Ticket := do
  let ticket ← findById (.tenant orgId) .ticket ticketId
  let ticket ← orThrow (.notFound "Ticket not found") ticket
  assertTicketDeletableFromHistory ticket
  let _ ← update orgId .ticket ticketId fun t => { t with deleted := true }
  pure ticket

def deleteHistoryTicket (orgId ticketId : Id) : TCall Unit := do
  Call.withTx assertOrgOwnerForHistoryDelete
  let ticket ← withTenant (deleteTicketTx orgId ticketId)
  ignoreErrors (refreshVisitStatus orgId ticket.visitId)

def deletable (t : Ticket) : Bool := !t.legalHold && !t.status.active

def deleteTicketsTx (orgId : Id) (ticketIds : List Id) : TTx (List (Id × Ticket)) := do
  let tickets ← findMany (.tenant orgId) .ticket fun id _ => ticketIds.contains id
  let rows := tickets.filter fun r => deletable r.2
  let _ ← updateMany orgId .ticket (fun id _ => (rows.map (·.1)).contains id)
    fun t => { t with deleted := true }
  pure rows

def deleteHistoryTicketsBulk (orgId : Id) (ticketIds : List Id) : TCall ℕ := do
  Call.withTx assertOrgOwnerForHistoryDelete
  rejectIf ticketIds.isEmpty (.badRequest "At least one ticket id is required.")
  rejectIf (200 < ticketIds.dedup.length)
    (.badRequest "Cannot delete more than 200 tickets at once.")
  let rows ← withTenant (deleteTicketsTx orgId ticketIds)
  Call.forEach rows fun r => ignoreErrors (refreshVisitStatus orgId r.2.visitId)
  pure rows.length

/-! ## Queues -/

/-- `QueueUpdateDto`: `none` is a field that is not set, `some none` one that is set to null. -/
structure QueueUpdateDto where
  /-- It names a field of `QUEUE_UPDATE_FORBIDDEN_FIELDS`. -/
  forbidden : Bool := false
  name : Option String := none
  pre : Option String := none
  maxCapacity : Option (Option ℤ) := none
  branchId : Option Id := none
  serviceId : Option Id := none
  journeyModeOverride : Option (Option JourneyMode) := none
  stepRole : Option (Option QueueStepRole) := none
  callingPolicy : Option QueueCallingPolicy := none
  flowTemplateId : Option (Option Id) := none
  deriving DecidableEq, Repr

structure QueuePolicy where
  journeyModeOverride : Option JourneyMode
  stepRole : Option QueueStepRole
  callingPolicy : QueueCallingPolicy
  deriving DecidableEq, Repr

def enforceQueuePolicyInvariants (p : QueuePolicy) : TCall QueuePolicy := do
  rejectIf (p.journeyModeOverride == some .visitMultiStep && p.stepRole.isNone)
    (.badRequest "Step role is required when queue journey mode is multi-step")
  rejectIf (p.stepRole == some .pickup && p.callingPolicy == .fifo)
    (.badRequest "Pickup queues cannot use fifo calling policy")
  pure { p with callingPolicy := resolveCallingPolicyForStep p.stepRole p.callingPolicy }

def validateFlowTemplateScope (orgId branchId : Id) : Option Id → TCall Unit
  | none => pure ()
  | some flowTemplateId => withTenant do
    let template ← findById (.tenant orgId) .flowTemplate flowTemplateId
    let template ← orThrow (.notFound "Flow template not found") template
    throwIf (template.branchId != branchId)
      (.badRequest "Flow template must belong to the same branch as the queue")

/-- A branch or a service the update names belongs to the organisation. -/
def assertOwned (orgId : Id) (k : Kind) (message : String) : Option Id → TCall Unit
  | none => pure ()
  | some id => withTenant do
    let row ← findById (.tenant orgId) k id
    let _ ← orThrow (.notFound message) row
    pure ()

def updatedQueue (data : QueueUpdateDto) (policy : QueuePolicy) (flowTemplateId : Option Id)
    (q : Queue) : Queue :=
  { q with
    journeyModeOverride := policy.journeyModeOverride
    stepRole := policy.stepRole
    callingPolicy := policy.callingPolicy
    flowTemplateId
    name := data.name.getD q.name
    pre := (data.pre.map String.toUpper).getD q.pre
    maxCapacity := data.maxCapacity.getD q.maxCapacity
    branchId := data.branchId.getD q.branchId
    serviceId := data.serviceId.getD q.serviceId }

def updateQueue (orgId queueId : Id) (data : QueueUpdateDto) : TCall Queue := do
  rejectIf data.forbidden (.badRequest "Queue lifecycle fields cannot be updated via PATCH")
  let queue ← withTenant do
    let queue ← findById (.tenant orgId) .queue queueId
    orThrow (.notFound "Queue not found") queue
  rejectIf (queue.flowTemplateId.isSome && data.flowTemplateId.isNone && (data.stepRole.isSome ||
      data.journeyModeOverride.isSome || data.callingPolicy.isSome)) (.badRequest
    ("This queue is managed by an active flow template. Update queue type and calling rule from Flows, " ++
      "or unlink the template first."))
  assertOwned orgId .branch "Branch not found" data.branchId
  assertOwned orgId .service "Service not found" data.serviceId
  let policy ← enforceQueuePolicyInvariants
    { journeyModeOverride := (data.journeyModeOverride.bind id).orElse fun _ => queue.journeyModeOverride
      stepRole := data.stepRole.getD queue.stepRole
      callingPolicy := data.callingPolicy.getD queue.callingPolicy }
  let flowTemplateId := data.flowTemplateId.getD queue.flowTemplateId
  validateFlowTemplateScope orgId (data.branchId.getD queue.branchId) flowTemplateId
  withTenant (update orgId .queue queueId (updatedQueue data policy flowTemplateId))

end PatronLoyalty.Ticketing
