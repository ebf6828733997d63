import Mathlib.Data.List.Sort
import PatronLoyalty.Loyalty.Schema
import PatronLoyalty.Txn.Bodies

/-!
# The ticket schema

Rows, unique indexes and events of the queue and ticket subsystem, and the Prisma statements its
services are written with, over the relational store of `Txn.Relational`.

* `Scope` is the row-level security a statement runs under. `withTenant orgId` sets the organisation;
  a query of the bare `PrismaService` sees every row or none, by whether its database role bypasses
  row-level security.
* A ticket that has been deleted from the history stays as a row no statement sees (`deleted`).
* What the opening hours, the desks and their sessions, the roles of a user, the plan and the feature
  flags say are inputs of the environment (`mayRefuse`, `flag`): no other service under study writes
  them.
* Columns no modelled function reads or writes are left out.
-/

namespace PatronLoyalty.Ticketing

open Txn
open Loyalty (Id Err truthy trim)

/-- A clock reading, in milliseconds. -/
abbrev Time := ℕ

/-! ## Enumerations -/

inductive TicketStatus
  | waiting | called | serving | completed | noShow | cancelled
  deriving DecidableEq, Repr

def TicketStatus.text : TicketStatus → String
  | .waiting => "waiting"
  | .called => "called"
  | .serving => "serving"
  | .completed => "completed"
  | .noShow => "no_show"
  | .cancelled => "cancelled"

/-- `ACTIVE_QUEUE_STATUSES`. -/
def TicketStatus.active : TicketStatus → Bool
  | .waiting | .called | .serving => true
  | _ => false

inductive QueueStatus
  | opened | paused | closed
  deriving DecidableEq, Repr

def QueueStatus.text : QueueStatus → String
  | .opened => "open"
  | .paused => "paused"
  | .closed => "closed"

inductive VisitStatus
  | active | completed
  deriving DecidableEq, Repr

inductive JourneyMode
  | singleTicket | visitMultiStep
  deriving DecidableEq, Repr

inductive QueueStepRole
  | service | pickup
  deriving DecidableEq, Repr

inductive QueueCallingPolicy
  | fifo | manualOnly | readyThenManual | readyThenFifo
  deriving DecidableEq, Repr

inductive ActionSurface
  | classic | workbench
  deriving DecidableEq, Repr

/-! ## Rows -/

structure Organization where
  visitJourneysEnabled : Bool := false
  deriving DecidableEq, Repr

structure Branch where
  orgId : Id
  defaultJourneyMode : JourneyMode := .singleTicket
  deriving DecidableEq, Repr

structure Service where
  orgId : Id
  name : String
  journeyModeOverride : Option JourneyMode := none
  deriving DecidableEq, Repr

/-- The pivot of a branch and a service; `orgId` is the branch's, by which its policy goes. -/
structure BranchService where
  orgId : Id
  branchId : Id
  serviceId : Id
  journeyModeOverride : Option JourneyMode := none
  deriving DecidableEq, Repr

structure BranchFlowTemplate where
  orgId : Id
  branchId : Id
  isActive : Bool := false
  deriving DecidableEq, Repr

structure BranchFlowStep where
  orgId : Id
  templateId : Id
  stepIndex : ℤ
  deskNumber : String
  serviceId : Id
  queueId : Option Id := none
  stepRole : QueueStepRole := .service
  callingPolicy : QueueCallingPolicy := .fifo
  deriving DecidableEq, Repr

structure Queue where
  orgId : Id
  branchId : Id
  serviceId : Id
  name : String
  pre : String
  journeyModeOverride : Option JourneyMode := none
  status : QueueStatus := .closed
  nextTicketSeq : ℤ := 1
  sessionOpenedAt : Option Time := none
  sessionClosesAt : Option Time := none
  maxCapacity : Option ℤ := none
  stepRole : Option QueueStepRole := none
  callingPolicy : QueueCallingPolicy := .fifo
  flowTemplateId : Option Id := none
  createdAt : Time := 0
  deriving DecidableEq, Repr

structure Visit where
  orgId : Id
  branchId : Id
  status : VisitStatus := .active
  source : String := "online"
  customerName : Option String := none
  customerPhone : Option String := none
  language : Option String := none
  externalRef : Option String := none
  completedAt : Option Time := none
  deriving DecidableEq, Repr

structure Customer where
  orgId : Id
  name : String
  phone : Option String := none
  transactionalSmsAllowed : Bool := false
  smsConsentSource : Option String := none
  smsConsentVersion : Option String := none
  marketingSmsConsent : String := "REVOKED"
  marketingEmailConsent : String := "REVOKED"
  marketingConsentSource : Option String := none
  marketingConsentVersion : Option String := none
  marketingConsentDate : Option Time := none
  deriving DecidableEq, Repr

/-- Of the JSON object `metadata`, the flag `METADATA_RESUMMON_SMS_ON_SERVE`. -/
structure Ticket where
  orgId : Id
  visitId : Option Id := none
  queueId : Id
  branchId : Id
  serviceId : Id
  displayNumber : String
  customerName : Option String := none
  customerPhone : Option String := none
  status : TicketStatus := .waiting
  priority : ℤ := 0
  position : Option ℤ := none
  deskNumber : Option String := none
  servedByUserId : Option Id := none
  source : String := "online"
  bookedAt : Time
  calledAt : Option Time := none
  servedAt : Option Time := none
  completedAt : Option Time := none
  createdAt : Time
  customerId : Option Id := none
  language : Option String := none
  resummonSmsOnServe : Bool := false
  note : Option String := none
  legalHold : Bool := false
  transactionalSmsAllowed : Bool := false
  externalRef : Option String := none
  serviceMinutes : Option ℤ := none
  waitMinutes : Option ℤ := none
  readyAt : Option Time := none
  stepIndex : Option ℤ := none
  flowTemplateId : Option Id := none
  deleted : Bool := false
  deriving DecidableEq, Repr

/-- The tables. -/
inductive Kind
  | organization | branch | service | branchService | flowTemplate | flowStep | queue | visit
  | customer | ticket
  deriving DecidableEq, Repr

abbrev Row : Kind → Type
  | .organization => Organization
  | .branch => Branch
  | .service => Service
  | .branchService => BranchService
  | .flowTemplate => BranchFlowTemplate
  | .flowStep => BranchFlowStep
  | .queue => Queue
  | .visit => Visit
  | .customer => Customer
  | .ticket => Ticket

instance : (k : Kind) → DecidableEq (Row k)
  | .organization => inferInstanceAs (DecidableEq Organization)
  | .branch => inferInstanceAs (DecidableEq Branch)
  | .service => inferInstanceAs (DecidableEq Service)
  | .branchService => inferInstanceAs (DecidableEq BranchService)
  | .flowTemplate => inferInstanceAs (DecidableEq BranchFlowTemplate)
  | .flowStep => inferInstanceAs (DecidableEq BranchFlowStep)
  | .queue => inferInstanceAs (DecidableEq Queue)
  | .visit => inferInstanceAs (DecidableEq Visit)
  | .customer => inferInstanceAs (DecidableEq Customer)
  | .ticket => inferInstanceAs (DecidableEq Ticket)

/-! ## Unique indexes -/

inductive UniqueKey
  | branchService (branchId serviceId : Id)
  | flowStep (templateId : Id) (stepIndex : ℤ)
  | queue (branchId : Id) (pre : String)
  deriving DecidableEq, Repr

def uniqueKeys : (k : Kind) → Row k → List UniqueKey
  | .branchService, r => [.branchService r.branchId r.serviceId]
  | .flowStep, r => [.flowStep r.templateId r.stepIndex]
  | .queue, r => [.queue r.branchId r.pre]
  | .organization, _ | .branch, _ | .service, _ | .flowTemplate, _ | .visit, _ | .customer, _
  | .ticket, _ => []

instance : Keyed Row Empty UniqueKey where
  keys := uniqueKeys
  logKeys := Empty.elim

/-! ## Events -/

/-- What a service emits beside the store: the `LOYALTY_EVENTS` of a ticket. -/
inductive Ev
  /-- `LoyaltyTicketCompletedEvent` -/
  | ticketCompleted (orgId ticketId : Id) (customerId : Option Id) (branchId : Id)
      (serviceId : Option Id)
  /-- `LoyaltyTicketNoShowEvent` -/
  | ticketNoShow (orgId ticketId : Id) (customerId : Option Id) (branchId : Id)
  deriving DecidableEq, Repr

abbrev Db := Rel Row Empty
abbrev DbWrite := Rel.Write Row Empty
abbrev DbLock := Rel.Lock Kind UniqueKey

/-- A transaction of the ticket services. -/
abbrev TTx := Tx Db DbWrite Err

/-- A request to the ticket services. -/
abbrev TCall := Call Db DbWrite Err Ev

/-! ## Statements -/

/-- The row-level security of a connection. -/
inductive Scope
  | tenant (orgId : Id)
  | bare (bypassRls : Bool)
  deriving DecidableEq, Repr

/-- The organisation of a row in a table with a tenant policy. -/
def orgOf : (k : Kind) → Row k → Option Id
  | .organization, _ => none
  | .branch, r => some r.orgId
  | .service, r => some r.orgId
  | .branchService, r => some r.orgId
  | .flowTemplate, r => some r.orgId
  | .flowStep, r => some r.orgId
  | .queue, r => some r.orgId
  | .visit, r => some r.orgId
  | .customer, r => some r.orgId
  | .ticket, r => some r.orgId

def gone : (k : Kind) → Row k → Bool
  | .ticket, r => r.deleted
  | _, _ => false

def visible (scope : Scope) (k : Kind) (r : Row k) : Bool :=
  !gone k r && match scope, orgOf k r with
    | _, none => true
    | .tenant orgId, some o => o == orgId
    | .bare bypassRls, some _ => bypassRls

/-- The rows a query sees. -/
def seen (scope : Scope) (k : Kind) (p : Id → Row k → Bool) (s : Db) : List (Id × Row k) :=
  s.rows k fun id r => visible scope k r && p id r

def findFirst (scope : Scope) (k : Kind) (p : Id → Row k → Bool) : TTx (Option (Id × Row k)) :=
  Tx.findFirst (seen scope k p)

/-- The rows of a list that come first in the order `le`. -/
def firsts {α : Type} (le : α → α → Bool) (xs : List α) : List α :=
  xs.filter fun x => xs.all fun y => le x y

/-- `findFirst` with an `orderBy`: a row that comes first in the order `le`. -/
def findFirstBy (scope : Scope) (k : Kind) (p : Id → Row k → Bool) (le : Row k → Row k → Bool) :
    TTx (Option (Id × Row k)) :=
  Tx.findFirst fun s => firsts (fun x y => le x.2 y.2) (seen scope k p s)

/-- An unordered query: in the order of the table. -/
def findMany (scope : Scope) (k : Kind) (p : Id → Row k → Bool) : TTx (List (Id × Row k)) :=
  Tx.read (seen scope k p)

/-- `findMany` with an `orderBy`. -/
def findManyBy (scope : Scope) (k : Kind) (p : Id → Row k → Bool) (le : Row k → Row k → Bool) :
    TTx (List (Id × Row k)) :=
  Tx.read fun s => (seen scope k p s).insertionSort fun x y => le x.2 y.2 = true

def count (scope : Scope) (k : Kind) (p : Id → Row k → Bool) : TTx ℕ :=
  Tx.read fun s => (seen scope k p s).length

/-- `findUnique where id`. -/
def findById (scope : Scope) (k : Kind) (id : Id) : TTx (Option (Row k)) :=
  Tx.read fun s => (s.get k id).filter (visible scope k)

/-- `SELECT … WHERE id … FOR UPDATE`. -/
def forUpdate (orgId : Id) (k : Kind) (id : Id) : TTx (Option (Row k)) :=
  Rel.lock k id (visible (.tenant orgId) k)

/-- `SELECT … WHERE id … AND p FOR UPDATE`. -/
def forUpdateWhere (orgId : Id) (k : Kind) (id : Id) (p : Row k → Bool) : TTx (Option (Row k)) :=
  Rel.lock k id fun r => visible (.tenant orgId) k r && p r

/-- `SELECT … LIMIT 1 FOR UPDATE SKIP LOCKED`, past the rows that others have locked. -/
def forUpdateSkipLocked (k : Kind) (rows : Db → List (Id × Row k)) (skipped : ℕ) :
    TTx (Option (Id × Row k)) := Rel.lockNth k rows skipped

/-- `create`, under a generated identifier. -/
def create (k : Kind) (r : Row k) : TTx Id := do
  let id ← Tx.input
  Rel.insert Err.uniqueViolation k id r
  pure id

/-- `update where id`. -/
def update (orgId : Id) (k : Kind) (id : Id) (f : Row k → Row k) : TTx (Row k) :=
  Rel.modify Err.recordNotFound Err.uniqueViolation k id fun r =>
    if visible (.tenant orgId) k r then .ok (f r) else .error .recordNotFound

def updateMany (orgId : Id) (k : Kind) (p : Id → Row k → Bool) (f : Row k → Row k) : TTx ℕ :=
  Rel.modifyAll Err.uniqueViolation k (fun id r => visible (.tenant orgId) k r && p id r) f

/-- `prisma.withTenant`, and `prisma.withBypassRls`. -/
def withTenant {α : Type} (t : TTx α) : TCall α := Call.withTx t

/-- `new Date()`. -/
def now : TTx Time := Tx.now

/-- A feature flag, a role or a setting of the deployment. -/
def flag : TTx Bool := do
  let n ← Tx.input
  pure (n % 2 == 1)

/-- A check against what is not modelled: it may refuse with `e`. -/
def mayRefuse (e : Err) : TTx Unit := do
  if ← flag then Tx.throw e

/-- `promise.catch(() => {})`. -/
def ignoreErrors {α : Type} (c : TCall α) : TCall Unit :=
  (c.bind fun _ => .pure ()).handle fun _ => .pure ()

/-- `s?.trim()`, where an empty result counts as none. -/
def trimmed (s : Option String) : Option String := truthy (s.map trim)

end PatronLoyalty.Ticketing
