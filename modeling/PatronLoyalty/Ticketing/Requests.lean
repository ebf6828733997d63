import PatronLoyalty.Ticketing.Sweeps

/-!
# Ticket requests

`Request` lists what the ticket controllers, the queue controller and the scheduled jobs can ask of the
services under study, and `Request.run` says what each of them does. A run is any interleaving of any
number of requests; a retry is one more request.

`refreshVisit` is the status refresh on its own: `transfer` schedules one beside its transaction.
-/

namespace PatronLoyalty.Ticketing

open Txn
open Loyalty (Id Err)

inductive Request
  | issueTicket (orgIdOrNull : Option Id) (data : IssueTicketData) (issuance : Issuance)
  | createVisitStep (orgId visitId : Id) (data : IssueTicketData)
  | callNext (orgId queueId : Id) (deskNumber : String) (userId : Id) (deskFilterActive : Bool)
      (surface : ActionSurface)
  | callSpecific (orgId ticketId : Id) (deskNumber : String) (userId : Id) (surface : ActionSurface)
  | bringToFirst (orgId ticketId : Id)
  | markReady (orgId ticketId : Id) (surface : ActionSurface)
  | serve (orgId ticketId userId : Id) (surface : ActionSurface)
  | recallTicket (orgId ticketId : Id) (surface : ActionSurface) (notifyDeskNumber : Option String)
  | changeDesk (orgId ticketId : Id) (targetDeskNumber : String) (surface : ActionSurface)
  | complete (orgId ticketId : Id) (externalRef : Option String) (surface : ActionSurface)
  | noShow (orgId ticketId : Id) (surface : ActionSurface)
  | cancel (orgId ticketId : Id) (staff : Bool) (reason : Option String) (surface : ActionSurface)
  | transfer (orgId ticketId : Id) (targetQueueId : Option Id)
      (targetDeskNumber externalRef : Option String) (surface : ActionSurface)
  | expireStaleTickets (thresholdMinutes : ℕ)
  | closePriorSessionWaitingTickets (dryRun : Bool) (orgId branchId : Option Id)
  | deleteHistoryTicket (orgId ticketId : Id)
  | deleteHistoryTicketsBulk (orgId : Id) (ticketIds : List Id)
  | updateQueue (orgId queueId : Id) (data : QueueUpdateDto)
  | refreshVisit (orgId visitId : Id)
  deriving DecidableEq, Repr

inductive Answer
  | ticket (id : Id) (t : Ticket)
  | finalized (f : Option Finalized)
  | queue (q : Queue)
  | count (n : ℕ)
  | done
  deriving DecidableEq, Repr

def Answer.ofTicket (r : Id × Ticket) : Answer := .ticket r.1 r.2

/-- What the services do for a request. -/
def Request.run : Request → TCall Answer
  | .issueTicket orgIdOrNull data issuance =>
    (Ticketing.issueTicket orgIdOrNull data issuance).bind fun r => .pure (.ofTicket r)
  | .createVisitStep orgId visitId data =>
    (Ticketing.createVisitStep orgId visitId data).bind fun r => .pure (.ofTicket r)
  | .callNext orgId queueId deskNumber userId deskFilterActive surface =>
    (Ticketing.callNext orgId queueId deskNumber userId deskFilterActive surface).bind
      fun r => .pure (.ofTicket r)
  | .callSpecific orgId ticketId deskNumber userId surface =>
    (Ticketing.callSpecific orgId ticketId deskNumber userId surface).bind
      fun r => .pure (.ofTicket r)
  | .bringToFirst orgId ticketId =>
    (Ticketing.bringToFirst orgId ticketId).bind fun t => .pure (.ticket ticketId t)
  | .markReady orgId ticketId surface =>
    (Ticketing.markReady orgId ticketId surface).bind fun t => .pure (.ticket ticketId t)
  | .serve orgId ticketId userId surface =>
    (Ticketing.serve orgId ticketId userId surface).bind fun t => .pure (.ticket ticketId t)
  | .recallTicket orgId ticketId surface notifyDeskNumber =>
    (Ticketing.recallTicket orgId ticketId surface notifyDeskNumber).bind
      fun t => .pure (.ticket ticketId t)
  | .changeDesk orgId ticketId targetDeskNumber surface =>
    (Ticketing.changeDesk orgId ticketId targetDeskNumber surface).bind
      fun t => .pure (.ticket ticketId t)
  | .complete orgId ticketId externalRef surface =>
    (Ticketing.complete orgId ticketId externalRef surface).bind fun f => .pure (.finalized (some f))
  | .noShow orgId ticketId surface =>
    (Ticketing.noShow orgId ticketId surface).bind fun f => .pure (.finalized f)
  | .cancel orgId ticketId staff reason surface =>
    (Ticketing.cancel orgId ticketId staff reason surface).bind fun t => .pure (.ticket ticketId t)
  | .transfer orgId ticketId targetQueueId targetDeskNumber externalRef surface =>
    (Ticketing.transfer orgId ticketId targetQueueId targetDeskNumber externalRef surface).bind
      fun r => .pure (.ofTicket r)
  | .expireStaleTickets thresholdMinutes =>
    (Ticketing.expireStaleTickets thresholdMinutes).bind fun n => .pure (.count n)
  | .closePriorSessionWaitingTickets dryRun orgId branchId =>
    (Ticketing.closePriorSessionWaitingTickets dryRun orgId branchId).bind fun n => .pure (.count n)
  | .deleteHistoryTicket orgId ticketId =>
    (Ticketing.deleteHistoryTicket orgId ticketId).bind fun _ => .pure .done
  | .deleteHistoryTicketsBulk orgId ticketIds =>
    (Ticketing.deleteHistoryTicketsBulk orgId ticketIds).bind fun n => .pure (.count n)
  | .updateQueue orgId queueId data =>
    (Ticketing.updateQueue orgId queueId data).bind fun q => .pure (.queue q)
  | .refreshVisit orgId visitId =>
    (refreshVisitStatus orgId (some visitId)).bind fun _ => .pure .done

def calls (requests : List Request) : List (TCall Answer) := requests.map Request.run

theorem getElem?_calls {requests : List Request} {i : ℕ} {c : TCall Answer}
    (h : (calls requests)[i]? = some c) : ∃ r, requests[i]? = some r ∧ c = r.run := by
  rw [calls, List.getElem?_map, Option.map_eq_some_iff] at h
  obtain ⟨r, hr, rfl⟩ := h
  exact ⟨r, hr, rfl⟩

abbrev Run := Config Db DbWrite Err Ev Answer

abbrev Line := ℕ × Entry Db Err Ev Answer

def start (s : Db) (requests : List Request) : Run := Config.init s (calls requests)

def answeredOk (i : ℕ) (c : Run) : Bool := (c.answersOf i).any Except.toBool

/-- `n` moments of request `i`, one after another. -/
def turns (i n : ℕ) : List (ℕ × Move Err) := List.replicate n (i, .go 0)

/-! ## Specimens -/

def table {k : Kind} (rows : List (Id × Row k)) : AList fun _ : ℕ => Row k :=
  rows.foldr (fun r t => t.insert r.1 r.2) ∅

/-- Two queues of a branch, open; the flow template, if it is linked to them, goes from the one to the
other. -/
def shop (linked : Bool) (visits : List (Id × Visit)) (tickets : List (Id × Ticket)) : Db where
  tables
    | .branch => table (k := .branch) [(1, { orgId := 1 })]
    | .service => table (k := .service)
        [(1, { orgId := 1, name := "Cut" }), (2, { orgId := 1, name := "Wash" })]
    | .queue => table (k := .queue)
        [(1, { orgId := 1, branchId := 1, serviceId := 1, name := "Cut", pre := "C", status := .opened
               flowTemplateId := if linked then some 1 else none }),
         (2, { orgId := 1, branchId := 1, serviceId := 2, name := "Wash", pre := "W"
               status := .opened, flowTemplateId := if linked then some 1 else none })]
    | .flowTemplate => table (k := .flowTemplate)
        [(1, { orgId := 1, branchId := 1, isActive := linked })]
    | .flowStep => table (k := .flowStep)
        [(1, { orgId := 1, templateId := 1, stepIndex := 0, deskNumber := "1", serviceId := 1
               queueId := some 1 }),
         (2, { orgId := 1, templateId := 1, stepIndex := 1, deskNumber := "2", serviceId := 2
               queueId := some 2 })]
    | .visit => table (k := .visit) visits
    | .ticket => table (k := .ticket) tickets
    | _ => ∅
  log := []

def beingServed : Ticket :=
  { orgId := 1, queueId := 1, branchId := 1, serviceId := 1, displayNumber := "C001"
    status := .serving, bookedAt := 0, createdAt := 0, calledAt := some 0, servedAt := some 0 }

def atFirstStep : Ticket :=
  { beingServed with visitId := some 1, stepIndex := some 0, flowTemplateId := some 1 }

def journeyShop : Db := shop true [(1, { orgId := 1, branchId := 1 })] [(1, atFirstStep)]

end PatronLoyalty.Ticketing
