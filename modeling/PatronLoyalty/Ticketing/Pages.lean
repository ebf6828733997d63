import PatronLoyalty.Ticketing.Flow
import PatronLoyalty.Txn.Ordered

/-!
# The public pages

`TicketPublicService`: the page a customer follows a ticket on, and the board on display in a branch.

* The start of the branch's day is an argument of both, and nothing is cached.
* Where the `orderBy` of a query leaves rows tied, the database chooses their arrangement
  (`findManyOrdered`).
* How many desks are open, and the estimates of the service, are inputs. Masked names, the branding and
  the exceptional notice are left out.
-/

namespace PatronLoyalty.Ticketing

open Txn
open Loyalty (Id Err)

/-- `findMany` with an `orderBy` that may leave rows tied. -/
def findManyOrdered (scope : Scope) (k : Kind) (p : Id → Row k → Bool) (le : Row k → Row k → Bool) :
    TTx (List (Id × Row k)) := do
  let rows ← Tx.findFirst fun s => orderings (fun x y => le x.2 y.2) (seen scope k p s)
  pure (rows.getD [])

/-! ## The page of a ticket -/

/-- `ticketWaitingOrderBy`: by position, the tickets without one last, then by the time of booking. -/
def ticketWaitingOrderBy (a b : Ticket) : Bool :=
  match a.position, b.position with
  | some i, some j => i < j || (i == j && a.bookedAt ≤ b.bookedAt)
  | some _, none => true
  | none, some _ => false
  | none, none => a.bookedAt ≤ b.bookedAt

def liveQueueWaitingTicketWhere (queueId : Id) (bookedAtFloor : Time) (t : Ticket) : Bool :=
  t.queueId == queueId && t.status == .waiting && bookedAtFloor ≤ t.bookedAt

structure LinePlace where
  position : Option ℕ := none
  waitingTotal : Option ℕ := none
  estimatedWait : Option (ℕ × ℕ) := none
  deriving DecidableEq, Repr

def estimateWait (cfgLow cfgHigh : Option ℕ) (position : Option ℕ) (openDesks : ℕ) :
    Option (ℕ × ℕ) :=
  let peopleAhead := position.getD 1 - 1
  let capacity := max 1 openDesks
  let rounds := (peopleAhead + capacity - 1) / capacity
  match cfgLow, cfgHigh with
  | some low, some high => if 1 ≤ low ∧ low ≤ high then some (rounds * low, rounds * high) else none
  | _, _ => none

/-- A number that may be missing. -/
def optionalInput : TTx (Option ℕ) := do
  let n ← Tx.input
  pure (if n = 0 then none else some (n - 1))

/-- `Array.indexOf`, and `undefined` for `-1`. -/
def placeOf (waitingIds : List Id) (ticketId : Id) : Option ℕ :=
  if ticketId ∈ waitingIds then some (waitingIds.idxOf ticketId + 1) else none

def linePlace (orgId ticketId : Id) (ticket : Ticket) (bookedAtFloor : Time) : TTx LinePlace := do
  let rows ← findManyOrdered (.tenant orgId) .ticket
    (fun _ t => liveQueueWaitingTicketWhere ticket.queueId bookedAtFloor t) ticketWaitingOrderBy
  let waitingIds := rows.map (·.1)
  let openDesks ← Tx.input
  let cfgLow ← optionalInput
  let cfgHigh ← optionalInput
  let position := placeOf waitingIds ticketId
  pure
    { position, waitingTotal := some waitingIds.length
      estimatedWait := estimateWait cfgLow cfgHigh position openDesks }

structure TicketPage where
  ticket : Ticket
  line : LinePlace
  isJourneyManaged : Bool
  configuredDeskNumber : Option String
  deriving DecidableEq, Repr

/-- A ticket of a visit is shown without a place in line. -/
def getTicketPublic (ticketId : Id) (bookedAtFloor : Time) : TCall TicketPage := do
  let resolved ← withTenant (findById (.bare true) .ticket ticketId)
  match resolved with
  | none => Call.throw (.notFound "Ticket not found")
  | some resolved =>
    let found ← withTenant do
      let ticket ← findById (.tenant resolved.orgId) .ticket ticketId
      let queue ← findById (.tenant resolved.orgId) .queue ((ticket.map (·.queueId)).getD 0)
      pure (ticket.map fun t => (t, queue))
    match found with
    | none => Call.throw (.notFound "Ticket not found")
    | some (ticket, queue) =>
      let skipWaitEstimates := ticket.visitId.isSome
      let line ← if ticket.status = .waiting ∧ !skipWaitEstimates then
          withTenant (linePlace resolved.orgId ticketId ticket bookedAtFloor)
        else Call.pure {}
      let isJourneyManaged := queue.any fun q =>
        q.journeyModeOverride == some .visitMultiStep || q.flowTemplateId.isSome
      let flowStep ← if isJourneyManaged then withTenant do
          let templates ← findMany (.tenant resolved.orgId) .flowTemplate fun _ t =>
            t.branchId == ticket.branchId && t.isActive
          findFirst (.tenant resolved.orgId) .flowStep fun _ st =>
            st.orgId == resolved.orgId && st.queueId == some ticket.queueId &&
              templates.any (·.1 == st.templateId)
        else Call.pure none
      pure
        { ticket, line, isJourneyManaged
          configuredDeskNumber := trimmed (flowStep.map (·.2.deskNumber)) }

/-! ## The display board -/

def branchWaitingCountWhere (branchId : Id) (bookedAtFloor : Time) (t : Ticket) : Bool :=
  t.branchId == branchId && t.status == .waiting && bookedAtFloor ≤ t.bookedAt

/-- `orderBy: { bookedAt: 'asc' }`. -/
def byBookedAt (a b : Ticket) : Bool := a.bookedAt ≤ b.bookedAt

/-- `orderBy: { calledAt: 'desc' }`: a missing time comes first. -/
def byCalledAtDesc (a b : Ticket) : Bool :=
  match a.calledAt, b.calledAt with
  | none, _ => true
  | some _, none => false
  | some i, some j => j ≤ i

/-- `orderBy: { completedAt: { sort: 'desc', nulls: 'last' } }`. -/
def byCompletedAtDesc (a b : Ticket) : Bool :=
  match a.completedAt, b.completedAt with
  | _, none => true
  | none, some _ => false
  | some i, some j => j ≤ i

/-- The comparison the called rows are sorted with. -/
def displayOrder (a b : Ticket) : Bool :=
  if (a.status == .serving) != (b.status == .serving) then a.status == .serving
  else if a.status == .serving then b.servedAt.getD 0 ≤ a.servedAt.getD 0
  else b.calledAt.getD 0 ≤ a.calledAt.getD 0

/-- The rows whose display number has not been seen before. -/
def unseen : List String → List (Id × Ticket) → List (Id × Ticket)
  | _, [] => []
  | seenDisplayNumbers, row :: rows =>
    if row.2.displayNumber ∈ seenDisplayNumbers then unseen seenDisplayNumbers rows
    else row :: unseen (row.2.displayNumber :: seenDisplayNumbers) rows

def displayNumbers (rows : List (Id × Ticket)) : List String := rows.map (·.2.displayNumber)

structure DisplayRow where
  id : Id
  displayNumber : String
  deskNumber : Option String
  status : TicketStatus
  isJourneyManaged : Bool
  queueName : Option String
  deriving DecidableEq, Repr

structure UpcomingRow where
  id : Id
  displayNumber : String
  status : TicketStatus
  deriving DecidableEq, Repr

structure DisplayBoard where
  data : List DisplayRow
  recentlyCompleted : List DisplayRow
  upcoming : List UpcomingRow
  total : ℕ
  openDesks : ℕ
  orgId : Id
  branchId : Id
  deriving DecidableEq, Repr

def displayRow (queues : List (Id × Queue)) (row : Id × Ticket) : DisplayRow :=
  let queue := (queues.find? (·.1 == row.2.queueId)).map (·.2)
  { id := row.1, displayNumber := row.2.displayNumber, deskNumber := row.2.deskNumber
    status := row.2.status, queueName := queue.map (·.name)
    isJourneyManaged := queue.any fun q =>
      q.journeyModeOverride == some .visitMultiStep || q.flowTemplateId.isSome }

def upcomingRow (row : Id × Ticket) : UpcomingRow :=
  { id := row.1, displayNumber := row.2.displayNumber, status := row.2.status }

def displayBoardTx (orgId branchId : Id) (dayStart : Time) : TTx DisplayBoard := do
  let calledRowsRaw ← findManyOrdered (.tenant orgId) .ticket (fun _ t =>
    t.branchId == branchId && (t.status == .called || t.status == .serving) && dayStart ≤ t.bookedAt)
    byCalledAtDesc
  let waitingTotal ← count (.tenant orgId) .ticket fun _ t => branchWaitingCountWhere branchId dayStart t
  let recentlyCompletedRows ← findManyOrdered (.tenant orgId) .ticket (fun _ t =>
    t.branchId == branchId && (t.status == .completed || t.status == .noShow) &&
      dayStart ≤ t.completedAt.getD t.bookedAt) byCompletedAtDesc
  let upcomingRows ← findManyOrdered (.tenant orgId) .ticket
    (fun _ t => branchWaitingCountWhere branchId dayStart t) byBookedAt
  let openDesks ← Tx.input
  let queues ← findMany (.tenant orgId) .queue fun _ _ => true
  let calledRows := ((calledRowsRaw.take 20).insertionSort fun a b => displayOrder a.2 b.2 = true).take 10
  let data := unseen [] calledRows
  let upcoming := unseen (displayNumbers data) (upcomingRows.take 5)
  let recentlyCompleted := unseen (displayNumbers (upcoming ++ data)) (recentlyCompletedRows.take 12)
  pure
    { data := data.map (displayRow queues), upcoming := upcoming.map upcomingRow
      recentlyCompleted := recentlyCompleted.map (displayRow queues)
      total := waitingTotal, openDesks, orgId, branchId }

def getPublicDisplayBoard (branchId : Id) (dayStart : Time) : TCall DisplayBoard := do
  let branch ← withTenant (findById (.bare true) .branch branchId)
  match branch with
  | none => Call.throw (.notFound "Branch not found")
  | some branch => withTenant (displayBoardTx branch.orgId branchId dayStart)

end PatronLoyalty.Ticketing
