import Mathlib.Data.PNat.Basic
import PatronLoyalty.Appointments.Hours
import PatronLoyalty.Loyalty.Schema
import PatronLoyalty.Txn.Bodies

/-!
# The appointment schema

Rows, events and statements of the appointment services, over the relational store of
`Txn.Relational`. Consent ledger entries are its log. An appointment that has been deleted stays as a
row no statement sees (`deleted`). The zone of the server, the zone database and the database role of
the server are parameters (`Environment`). Audit entries and messages to the customer are
best effort and left out, and so are columns no modelled function reads or writes.
-/

namespace PatronLoyalty.Appointments

open Txn
open Loyalty (Id Err truthy trim)

structure Environment where
  /-- The database role bypasses row-level security where no tenant is set. -/
  bypassRls : Bool
  /-- `setHours(0, 0, 0, 0)` -/
  dayStart : Instant → Instant
  /-- `setHours(23, 59, 59, 999)` -/
  dayEnd : Instant → Instant
  /-- `Intl.DateTimeFormat`, which throws for a name it does not know -/
  zone : String → Option Zone

def normalizeTimeZone (E : Environment) (timeZone : String) : Zone :=
  match truthy (some (trim timeZone)) with
  | none => utc
  | some normalized => (E.zone normalized).getD utc

/-! ## Statuses -/

/-- What the column holds: a status of the lifecycle, or the empty string. -/
inductive AppointmentStatus
  | pending | confirmed | cancelled | completed | noShow | blank
  deriving DecidableEq, Repr

def AppointmentStatus.text : AppointmentStatus → String
  | .pending => "pending"
  | .confirmed => "confirmed"
  | .cancelled => "cancelled"
  | .completed => "completed"
  | .noShow => "no_show"
  | .blank => ""

def appointmentStatusTransitions : AppointmentStatus → List AppointmentStatus
  | .pending => [.confirmed, .cancelled, .completed, .noShow]
  | .confirmed => [.pending, .cancelled, .completed, .noShow]
  | .cancelled => [.pending, .confirmed]
  | .completed => [.confirmed]
  | .noShow => [.pending, .confirmed, .cancelled]
  | .blank => []

/-- The keys of `APPOINTMENT_STATUS_TRANSITIONS`. -/
def lifecycleStatuses : List AppointmentStatus :=
  [.pending, .confirmed, .cancelled, .completed, .noShow]

/-- Neither `cancelled` nor `no_show`. -/
def AppointmentStatus.occupies : AppointmentStatus → Bool
  | .cancelled | .noShow => false
  | _ => true

/-! ## Rows -/

structure Branch where
  orgId : Id
  timezone : String := ""
  deriving DecidableEq, Repr

structure Service where
  orgId : Id
  isActive : Bool := true
  durationMinutes : ℤ
  queueEnabled : Bool := true
  serviceEstimateLowMinutes : ℤ := 5
  serviceEstimateHighMinutes : ℤ := 15
  appointmentEnabled : Bool := false
  appointmentSlotInterval : Option ℕ+ := none
  appointmentLeadTimeMinutes : ℤ := 60
  appointmentMaxAdvanceDays : ℤ := 30
  appointmentBufferMinutes : ℤ := 0
  deriving DecidableEq, Repr

structure BranchService where
  branchId : Id
  serviceId : Id
  isActive : Bool := true
  customServiceEstimateLowMinutes : Option ℤ := none
  customServiceEstimateHighMinutes : Option ℤ := none
  deriving DecidableEq, Repr

structure SubService where
  serviceId : Id
  isActive : Bool := true
  durationMinutes : Option ℤ := none
  deriving DecidableEq, Repr

structure WorkingHours where
  branchId : Id
  dayOfWeek : ℤ
  window : BranchHoursWindow
  deriving DecidableEq, Repr

structure BranchDateOverride where
  branchId : Id
  date : LocalDate
  openTime : Option TimeOfDay := none
  closeTime : Option TimeOfDay := none
  isClosed : Bool := false
  breakStart : Option TimeOfDay := none
  breakEnd : Option TimeOfDay := none
  deriving DecidableEq, Repr

structure Customer where
  orgId : Id
  name : String
  email : Option String := none
  phone : Option String := none
  transactionalSmsAllowed : Bool := false
  smsConsentSource : Option String := none
  smsConsentVersion : Option String := none
  marketingSmsConsent : String := "REVOKED"
  marketingEmailConsent : String := "REVOKED"
  marketingConsentSource : Option String := none
  marketingConsentVersion : Option String := none
  marketingConsentDate : Option Instant := none
  deriving DecidableEq, Repr

structure Appointment where
  orgId : Id
  branchId : Id
  serviceId : Id
  subServiceId : Option Id := none
  customerName : String
  customerEmail : Option String := none
  customerPhone : Option String := none
  scheduledAt : Instant
  durationMinutes : ℤ
  status : AppointmentStatus := .pending
  notes : Option String := none
  assignedUserId : Option Id := none
  deleted : Bool := false
  deriving DecidableEq, Repr

structure ConsentLedgerEntry where
  orgId : Id
  customerId : Id
  channel : String
  purpose : String
  action : String
  source : String
  ipAddress : Option String
  userAgent : Option String
  legalVersion : String
  deriving DecidableEq, Repr

inductive Kind
  | branch | service | branchService | subService | workingHours | dateOverride | customer
  | appointment
  deriving DecidableEq, Repr

abbrev Row : Kind → Type
  | .branch => Branch
  | .service => Service
  | .branchService => BranchService
  | .subService => SubService
  | .workingHours => WorkingHours
  | .dateOverride => BranchDateOverride
  | .customer => Customer
  | .appointment => Appointment

instance : (k : Kind) → DecidableEq (Row k)
  | .branch => inferInstanceAs (DecidableEq Branch)
  | .service => inferInstanceAs (DecidableEq Service)
  | .branchService => inferInstanceAs (DecidableEq BranchService)
  | .subService => inferInstanceAs (DecidableEq SubService)
  | .workingHours => inferInstanceAs (DecidableEq WorkingHours)
  | .dateOverride => inferInstanceAs (DecidableEq BranchDateOverride)
  | .customer => inferInstanceAs (DecidableEq Customer)
  | .appointment => inferInstanceAs (DecidableEq Appointment)

inductive UniqueKey
  | branchService (branchId serviceId : Id)
  | workingHours (branchId : Id) (dayOfWeek : ℤ)
  | dateOverride (branchId : Id) (date : LocalDate)
  deriving DecidableEq, Repr

def uniqueKeys : (k : Kind) → Row k → List UniqueKey
  | .branchService, r => [.branchService r.branchId r.serviceId]
  | .workingHours, r => [.workingHours r.branchId r.dayOfWeek]
  | .dateOverride, r => [.dateOverride r.branchId r.date]
  | .branch, _ | .service, _ | .subService, _ | .customer, _ | .appointment, _ => []

instance : Keyed Row ConsentLedgerEntry UniqueKey where
  keys := uniqueKeys
  logKeys _ := []

/-! ## Events -/

/-- The `LOYALTY_EVENTS` of an appointment. -/
inductive Ev
  /-- `LoyaltyAppointmentCompletedEvent` -/
  | appointmentCompleted (orgId appointmentId : Id) (customerId : Option Id) (branchId : Id)
      (customerPhone customerEmail : Option String)
  /-- `LoyaltyAppointmentNoShowEvent` -/
  | appointmentNoShow (orgId appointmentId : Id) (customerId : Option Id) (branchId : Id)
      (customerPhone customerEmail : Option String)
  deriving DecidableEq, Repr

abbrev Db := Rel Row ConsentLedgerEntry
abbrev DbWrite := Rel.Write Row ConsentLedgerEntry

/-- A transaction of the appointment services. -/
abbrev ATx := Tx Db DbWrite Err

/-- A request to the appointment services. -/
abbrev ACall := Call Db DbWrite Err Ev

/-! ## Statements -/

/-- The row-level security of a connection. `withBypassRls` is `bare true`. -/
inductive Scope
  | tenant (orgId : Id)
  | bare (bypassRls : Bool)
  deriving DecidableEq, Repr

/-- The row is the organisation's, by its own column or by that of its branch or service. -/
def orgOf (s : Db) : (k : Kind) → Row k → Option Id
  | .branch, r => some r.orgId
  | .service, r => some r.orgId
  | .branchService, r => (s.get .branch r.branchId).map (·.orgId)
  | .subService, r => (s.get .service r.serviceId).map (·.orgId)
  | .workingHours, r => (s.get .branch r.branchId).map (·.orgId)
  | .dateOverride, r => (s.get .branch r.branchId).map (·.orgId)
  | .customer, r => some r.orgId
  | .appointment, r => some r.orgId

def gone : (k : Kind) → Row k → Bool
  | .appointment, r => r.deleted
  | _, _ => false

def visible (scope : Scope) (s : Db) (k : Kind) (r : Row k) : Bool :=
  !gone k r && match scope with
    | .tenant orgId => orgOf s k r == some orgId
    | .bare bypassRls => bypassRls

def Scope.writes : Scope → Bool
  | .tenant _ => true
  | .bare bypassRls => bypassRls

/-- The rows a query sees. -/
def seen (scope : Scope) (k : Kind) (p : Id → Row k → Bool) (s : Db) : List (Id × Row k) :=
  s.rows k fun id r => visible scope s k r && p id r

def findFirst (scope : Scope) (k : Kind) (p : Id → Row k → Bool) : ATx (Option (Id × Row k)) :=
  Tx.findFirst (seen scope k p)

/-- An unordered query: in the order of the table. -/
def findMany (scope : Scope) (k : Kind) (p : Id → Row k → Bool) : ATx (List (Id × Row k)) :=
  Tx.read (seen scope k p)

/-- `findUnique where id`, with the other conditions of the query. -/
def findById (scope : Scope) (k : Kind) (id : Id) (p : Row k → Bool) : ATx (Option (Row k)) :=
  Tx.read fun s => (s.get k id).filter fun r => visible scope s k r && p r

/-- `findUnique` by a unique index. -/
def findUnique (scope : Scope) (k : Kind) (p : Row k → Bool) : ATx (Option (Row k)) :=
  Tx.read fun s => (seen scope k (fun _ => p) s).head?.map (·.2)

/-- A write outside any tenant's policy. -/
def checkPolicy (scope : Scope) : ATx Unit :=
  if scope.writes then pure ()
  else Tx.throw (.database "new row violates row-level security policy")

/-- `create`, under a generated identifier. -/
def create (scope : Scope) (k : Kind) (r : Row k) : ATx Id := do
  checkPolicy scope
  let id ← Tx.input
  Rel.insert Err.uniqueViolation k id r
  pure id

/-- `update where id` of a customer that has been read. -/
def updateCustomer (id : Id) (f : Customer → Customer) : ATx Customer :=
  Rel.modify (k := Kind.customer) Err.recordNotFound Err.uniqueViolation id fun r => .ok (f r)

/-- `update where id` of an appointment, and `delete`. -/
def updateAppointment (orgId id : Id) (f : Appointment → Appointment) : ATx Appointment :=
  Rel.modify (k := Kind.appointment) Err.recordNotFound Err.uniqueViolation id fun r =>
    if r.orgId = orgId ∧ r.deleted = false then .ok (f r) else .error .recordNotFound

/-- `prisma.withTenant`, `prisma.withBypassRls` and `prisma.$transaction`. -/
def withTenant {α : Type} (t : ATx α) : ACall α := Call.withTx t

end PatronLoyalty.Appointments
