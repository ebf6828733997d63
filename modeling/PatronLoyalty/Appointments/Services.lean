import PatronLoyalty.Appointments.Schema
import PatronLoyalty.Crm.Phone

/-!
# The appointment services

`AppointmentSlotService`, `AppointmentBookingService.book`, `AppointmentLifecycleService.update` and
`delete`, and `AppointmentPublicService.cancelPublic`. What a request reads before its last transaction
it reads in transactions of its own. `now` is an input of the environment.
-/

namespace PatronLoyalty.Appointments

open Txn
open Loyalty (Id Err truthy)
open Crm (normalizeSmsRecipient)

/-! ## Slots -/

/-- `Math.round((low + high) / 2)`. -/
def meanRounded (low high : ℤ) : ℤ := (low + high + 1) / 2

def resolveAppointmentDurationMinutes (service : Service) (branchEstimateLow : Option ℤ)
    (branchEstimateHigh : Option ℤ) (subServiceDuration : Option ℤ) : ℤ :=
  match subServiceDuration.filter (1 ≤ ·) with
  | some d => d
  | none =>
    let low := branchEstimateLow.getD service.serviceEstimateLowMinutes
    let high := branchEstimateHigh.getD service.serviceEstimateHighMinutes
    if service.queueEnabled ∧ 1 ≤ low ∧ low ≤ high then meanRounded low high
    else if 1 ≤ service.durationMinutes then service.durationMinutes
    else 30

def earliestAllowed (now : Instant) (leadTimeMinutes : ℤ) : Instant :=
  now + leadTimeMinutes * minuteMs

def latestAllowed (now : Instant) (maxAdvanceDays : ℤ) : Instant := now + maxAdvanceDays * dayMs

def validateAdvanceWindow (now scheduledAt : Instant) (leadTimeMinutes maxAdvanceDays : ℤ) :
    Except Err Unit :=
  if scheduledAt < earliestAllowed now leadTimeMinutes then
    .error (.badRequest "This appointment time is too soon to book")
  else if scheduledAt > latestAllowed now maxAdvanceDays then
    .error (.badRequest "This appointment time is outside the advance booking window")
  else .ok ()

def validateAdvanceSearchWindow (now dayEnd : Instant) (maxAdvanceDays : ℤ) : Except Err Unit :=
  if dayEnd > latestAllowed now maxAdvanceDays then
    .error (.badRequest "This appointment date is outside the advance booking window")
  else .ok ()

def getBookableService (orgId serviceId : Id) : ACall Service := do
  match ← withTenant (findById (.tenant orgId) .service serviceId fun (r : Service) =>
      r.orgId == orgId && r.isActive && r.appointmentEnabled) with
  | some service => pure service
  | none => throw (.notFound "Appointment service not found")

def getBranchService (orgId branchId serviceId : Id) : ACall BranchService := do
  match ← withTenant (findUnique (.tenant orgId) .branchService fun (r : BranchService) =>
      r.branchId == branchId && r.serviceId == serviceId) with
  | some branchService =>
    if branchService.isActive then pure branchService
    else throw (.badRequest "This appointment service is not available at the selected branch")
  | none => throw (.badRequest "This appointment service is not available at the selected branch")

def getSubService (orgId serviceId : Id) : Option Id → ACall (Option SubService)
  | none => pure none
  | some subServiceId => do
    match ← withTenant (findById (.tenant orgId) .subService subServiceId fun (r : SubService) =>
        r.serviceId == serviceId && r.isActive) with
    | some subService => pure (some subService)
    | none => throw (.notFound "Sub-service not found")

def getBranch (branchId : Id) : ACall Branch := do
  match ← withTenant (findById (.bare true) .branch branchId fun _ => true) with
  | some branch => pure branch
  | none => throw (.notFound "Branch not found")

/-- The window of a date override, `none` when the branch is closed. -/
def BranchDateOverride.window (o : BranchDateOverride) : Option BranchHoursWindow :=
  match o.isClosed, o.openTime, o.closeTime with
  | false, some openTime, some closeTime =>
    some { openTime, closeTime, isClosed := o.isClosed, breakStart := o.breakStart
           breakEnd := o.breakEnd }
  | _, _, _ => none

def getWorkingHoursWindowForLocalDate (orgId branchId : Id) (localDate : LocalDate) :
    ATx (Option BranchHoursWindow) := do
  match ← findUnique (.tenant orgId) .dateOverride fun (r : BranchDateOverride) =>
      r.branchId == branchId && r.date == localDate with
  | some dateOverride => pure dateOverride.window
  | none =>
    let hours ← findUnique (.tenant orgId) .workingHours fun (r : WorkingHours) =>
      r.branchId == branchId && r.dayOfWeek == toSchemaDayOfWeekFromIsoDate localDate
    pure ((hours.map (·.window)).filter fun w => !w.isClosed)

def slotMessage : BranchAvailabilityReason → Option String
  | .opened => none
  | .closedDay => some "The selected branch is closed on that day"
  | .outsideHours => some "The selected appointment time is outside branch working hours"
  | .duringBreak => some "The selected appointment time overlaps the branch break window"
  | .noSchedule => some "No operating schedule is configured for this branch on that day"

def assertAppointmentSlotWithinWorkingHours (orgId branchId : Id) (zone : Zone)
    (scheduledAt : Instant) (durationMinutes : ℤ) : ACall Unit := do
  let localDate := getDateKeyInTimeZone scheduledAt zone
  let window ← withTenant (getWorkingHoursWindowForLocalDate orgId branchId localDate)
  match slotMessage
    (evaluateAppointmentSlotAgainstWindow scheduledAt durationMinutes zone window localDate) with
  | none => pure ()
  | some message => throw (.badRequest message)

def appointmentEnd (a : Appointment) (bufferMinutes : ℤ) : Instant :=
  a.scheduledAt + (a.durationMinutes + bufferMinutes) * minuteMs

def occupying (branchId serviceId : Id) (a : Appointment) : Bool :=
  a.branchId == branchId && a.serviceId == serviceId && a.status.occupies

/-- `findOverlappingAppointment`: among the appointments of the server's calendar day. -/
def findOverlappingAppointment (E : Environment) (branchId serviceId : Id) (scheduledAt : Instant)
    (durationMinutes bufferMinutes : ℤ) : ATx (Option (Id × Appointment)) := do
  let appointments ← findMany (.bare E.bypassRls) .appointment fun _ (a : Appointment) =>
    occupying branchId serviceId a && decide (E.dayStart scheduledAt ≤ a.scheduledAt) &&
      decide (a.scheduledAt ≤ E.dayEnd scheduledAt)
  pure (appointments.find? fun a => intervalsOverlap scheduledAt
    (scheduledAt + (durationMinutes + bufferMinutes) * minuteMs) a.2.scheduledAt
    (appointmentEnd a.2 bufferMinutes))

/-! ## The slots of a date -/

def cursors (openAt closeAt step : ℤ) : List Instant :=
  (List.range ((closeAt - openAt + (step - 1)) / step).toNat).map fun k : ℕ => openAt + k * step

/-- The slot at the cursor is offered: it ends in time, is not too soon, not in the break, and in
conflict with none of `existing`. -/
def offers (bounds : WindowBounds) (durationMinutes bufferMinutes : ℤ) (earliest : Instant)
    (existing : List Appointment) (cursor : Instant) : Bool :=
  let slotEnd := cursor + durationMinutes * minuteMs
  !decide (slotEnd > bounds.closeAtUtc) && !decide (cursor < earliest) &&
    !overlapsBreak bounds cursor slotEnd &&
    !existing.any fun a => intervalsOverlap cursor (slotEnd + bufferMinutes * minuteMs)
      a.scheduledAt (a.scheduledAt + a.durationMinutes * minuteMs + bufferMinutes * minuteMs)

/-- `normalizeIsoDate` accepts the date: `none` is a string that is no date. -/
def requireDate : Option LocalDate → ACall LocalDate
  | some date => pure date
  | none => throw (.badRequest "Invalid appointment date")

def getAvailableSlots (E : Environment) (branchId serviceId : Id) (date : Option LocalDate)
    (subServiceId : Option Id) : ACall (List Instant) := do
  let branch ← getBranch branchId
  let zone := normalizeTimeZone E branch.timezone
  let service ← getBookableService branch.orgId serviceId
  let branchService ← getBranchService branch.orgId branchId serviceId
  let subService ← getSubService branch.orgId serviceId subServiceId
  let durationMinutes := resolveAppointmentDurationMinutes service
    branchService.customServiceEstimateLowMinutes branchService.customServiceEstimateHighMinutes
    (subService.bind (·.durationMinutes))
  let slotIntervalMinutes : ℤ := (service.appointmentSlotInterval.map fun n : ℕ+ => (n : ℤ)).getD
    durationMinutes
  let localDate ← requireDate date
  let (dayStart, dayEnd) := getUtcRangeForZonedDate localDate zone
  let searchedAt ← Call.input
  Call.ofExcept (validateAdvanceSearchWindow searchedAt dayEnd service.appointmentMaxAdvanceDays)
  match ← withTenant (getWorkingHoursWindowForLocalDate branch.orgId branchId localDate) with
  | none => pure []
  | some workingHours =>
    let existing ← withTenant (findMany (.tenant branch.orgId) .appointment
      fun _ (a : Appointment) => occupying branchId serviceId a &&
        decide (dayStart ≤ a.scheduledAt) && decide (a.scheduledAt ≤ dayEnd))
    let bounds := resolveWindowUtcBounds localDate workingHours zone
    let now ← Call.input
    pure ((cursors bounds.openAtUtc bounds.closeAtUtc (slotIntervalMinutes * minuteMs)).filter
      (offers bounds durationMinutes service.appointmentBufferMinutes
        (earliestAllowed now service.appointmentLeadTimeMinutes) (existing.map (·.2))))

/-! ## Booking -/

structure AppointmentBookingInput where
  branchId : Id
  serviceId : Id
  subServiceId : Option Id := none
  customerName : String
  customerEmail : Option String := none
  customerPhone : Option String := none
  /-- `new Date(data.scheduledAt)`, `none` for an invalid date -/
  scheduledAt : Option Instant
  notes : Option String := none
  transactionalSmsAllowed : Option Bool := none
  marketingSmsConsent : Option Bool := none
  marketingEmailConsent : Option Bool := none
  /-- The request context. -/
  ip : Option String := none
  userAgent : Option String := none

def currentPrivacyVersion : String := "2026-06-04"

def AppointmentBookingInput.consents (data : AppointmentBookingInput) (now : Instant)
    (c : Customer) : Customer :=
  let sms := data.marketingSmsConsent == some true
  let email := data.marketingEmailConsent == some true
  let c := if sms then { c with marketingSmsConsent := "GRANTED" } else c
  let c := if email then { c with marketingEmailConsent := "GRANTED" } else c
  if sms || email then
    { c with
      marketingConsentSource := some "appointment_booking"
      marketingConsentVersion := some currentPrivacyVersion
      marketingConsentDate := some now }
  else c

/-- The customer of the booking: found by phone, or by e-mail when there is no phone number. -/
def upsertBookingCustomer (E : Environment) (orgId : Id) (data : AppointmentBookingInput)
    (email : String) (normalizedCustomerPhone : Option String) : ATx Id := do
  let transactionalSmsAllowed := data.transactionalSmsAllowed.getD false
  let found ← match normalizedCustomerPhone with
    | some phone => findFirst (.bare E.bypassRls) .customer fun _ (c : Customer) =>
        c.orgId == orgId && c.phone == some phone
    | none => findFirst (.bare E.bypassRls) .customer fun _ (c : Customer) =>
        c.orgId == orgId && c.email == some email
  let now ← Tx.now
  match found with
  | some (id, _) =>
    let _ ← updateCustomer id fun c => data.consents now
      { c with
        name := data.customerName
        email := if normalizedCustomerPhone.isSome then some email else c.email
        transactionalSmsAllowed }
    pure id
  | none =>
    create (.bare E.bypassRls) .customer (data.consents now
      { orgId
        name := data.customerName
        phone := normalizedCustomerPhone
        email := some email
        transactionalSmsAllowed
        smsConsentSource := some "appointment_booking"
        smsConsentVersion := some currentPrivacyVersion })

def consentLedgerEntry (orgId customerId : Id) (data : AppointmentBookingInput) (channel : String) :
    ConsentLedgerEntry :=
  { orgId, customerId, channel
    purpose := "marketing"
    action := "GRANTED"
    source := "appointment_booking"
    legalVersion := currentPrivacyVersion
    ipAddress := data.ip
    userAgent := data.userAgent }

/-- `if (consent) await tx.consentLedgerEntry.create(…)`. -/
def recordConsent (consent : Option Bool) (entry : ConsentLedgerEntry) : ATx Unit :=
  if consent == some true then Rel.insertLog Err.uniqueViolation entry else pure ()

/-- The transaction of `book`. -/
def bookTx (E : Environment) (branch : Branch) (service : Service) (data : AppointmentBookingInput)
    (email : String) (normalizedCustomerPhone : Option String) (scheduledAt : Instant)
    (durationMinutes : ℤ) : ATx (Id × Appointment) := do
  let overlapping ← findOverlappingAppointment E data.branchId data.serviceId scheduledAt
    durationMinutes service.appointmentBufferMinutes
  if overlapping.isSome then Tx.throw (.conflict "Selected time slot is no longer available")
  else
    let customerId ← upsertBookingCustomer E branch.orgId data email normalizedCustomerPhone
    recordConsent data.marketingSmsConsent (consentLedgerEntry branch.orgId customerId data "sms")
    recordConsent data.marketingEmailConsent
      (consentLedgerEntry branch.orgId customerId data "email")
    let appointment : Appointment :=
      { orgId := branch.orgId
        branchId := data.branchId
        serviceId := data.serviceId
        subServiceId := data.subServiceId
        customerName := data.customerName
        customerEmail := some email
        customerPhone := normalizedCustomerPhone
        scheduledAt, durationMinutes
        notes := data.notes
        status := .confirmed }
    let id ← create (.bare E.bypassRls) .appointment appointment
    pure (id, appointment)

/-- `if (!value) throw new BadRequestException(message)`. -/
def requireText (value : Option String) (message : String) : ACall String :=
  match truthy value with
  | some s => pure s
  | none => throw (.badRequest message)

def requireInstant (scheduledAt : Option Instant) : ACall Instant :=
  match scheduledAt with
  | some t => pure t
  | none => throw (.badRequest "Invalid appointment date/time")

def book (E : Environment) (data : AppointmentBookingInput) : ACall (Id × Appointment) := do
  let branch ← getBranch data.branchId
  let zone := normalizeTimeZone E branch.timezone
  let service ← getBookableService branch.orgId data.serviceId
  let branchService ← getBranchService branch.orgId data.branchId data.serviceId
  let email ← requireText data.customerEmail "Email is required for appointments"
  let phone ← requireText data.customerPhone "Phone number is required for appointments"
  let subService ← getSubService branch.orgId data.serviceId data.subServiceId
  let durationMinutes := resolveAppointmentDurationMinutes service
    branchService.customServiceEstimateLowMinutes branchService.customServiceEstimateHighMinutes
    (subService.bind (·.durationMinutes))
  let scheduledAt ← requireInstant data.scheduledAt
  let now ← Call.input
  Call.ofExcept (validateAdvanceWindow now scheduledAt service.appointmentLeadTimeMinutes
    service.appointmentMaxAdvanceDays)
  assertAppointmentSlotWithinWorkingHours branch.orgId data.branchId zone scheduledAt
    durationMinutes
  let normalizedCustomerPhone := normalizeSmsRecipient phone
  if data.transactionalSmsAllowed == some true && normalizedCustomerPhone.isNone then
    throw (.badRequest "SMS notifications require a valid mobile number in international format (e.g. +15550001234)")
  else
    withTenant (bookTx E branch service data email normalizedCustomerPhone scheduledAt
      durationMinutes)

/-! ## The lifecycle -/

structure UpdateAppointment where
  status : Option String := none
  assignedUserId : Option Id := none
  notes : Option String := none

/-- The key of `APPOINTMENT_STATUS_TRANSITIONS` with this text. -/
def statusOfText (text : String) : Option AppointmentStatus :=
  lifecycleStatuses.find? (·.text == text)

/-- The other keys `in` finds on an object literal. -/
def inheritedKeys : List String :=
  ["constructor", "__defineGetter__", "__defineSetter__", "hasOwnProperty", "__lookupGetter__",
    "__lookupSetter__", "isPrototypeOf", "propertyIsEnumerable", "toString", "valueOf",
    "__proto__", "toLocaleString"]

def validateStatusTransition (currentStatus : AppointmentStatus) (nextStatus : String) :
    Except Err AppointmentStatus :=
  let refused : Except Err AppointmentStatus := .error (.badRequest
    ("Cannot change appointment status from " ++ currentStatus.text ++ " to " ++ nextStatus))
  match statusOfText nextStatus with
  | none =>
    if inheritedKeys.contains nextStatus then refused
    else .error (.badRequest "Invalid appointment status")
  | some next =>
    if currentStatus = next then .ok next
    else if (appointmentStatusTransitions currentStatus).contains next then .ok next
    else refused

/-- The status the update names, once it is validated against the status that was read. -/
def normalizedStatus (existing : Appointment) (data : UpdateAppointment) :
    Except Err (Option AppointmentStatus) :=
  match truthy data.status with
  | none => .ok none
  | some text => (validateStatusTransition existing.status text).map some

/-- `update({ where: { id }, data })`: the empty string is written as it is. -/
def UpdateAppointment.apply (data : UpdateAppointment) (a : Appointment) : Appointment :=
  { a with
    status := match data.status with
      | none => a.status
      | some text => (statusOfText text).getD .blank
    assignedUserId := data.assignedUserId.or a.assignedUserId
    notes := data.notes.or a.notes }

def getById (orgId id : Id) : ACall Appointment := do
  match ← withTenant (findById (.tenant orgId) .appointment id fun (a : Appointment) =>
      a.orgId == orgId) with
  | some existing => pure existing
  | none => throw (.notFound "Appointment not found")

def statusEvents (orgId id : Id) (existing : Appointment) : Option AppointmentStatus → List Ev
  | some .completed => [.appointmentCompleted orgId id none existing.branchId
      existing.customerPhone existing.customerEmail]
  | some .noShow => [.appointmentNoShow orgId id none existing.branchId existing.customerPhone
      existing.customerEmail]
  | _ => []

/-- The user of the update exists: an input of the environment. -/
def checkAssignedUser (assignedUserId : Option Id) : ATx Unit :=
  match assignedUserId with
  | none => pure ()
  | some _ => do
    let n ← Tx.input
    if n % 2 == 1 then Tx.throw .foreignKeyViolation else pure ()

def updateTx (orgId id : Id) (data : UpdateAppointment) : ATx Appointment := do
  checkAssignedUser data.assignedUserId
  updateAppointment orgId id data.apply

def lifecycleUpdate (orgId id : Id) (data : UpdateAppointment) : ACall Appointment := do
  let existing ← getById orgId id
  let status ← Call.ofExcept (normalizedStatus existing data)
  let updated ← withTenant (updateTx orgId id data)
  Call.fireAll (statusEvents orgId id existing status)
  pure updated

def lifecycleDelete (orgId id : Id) : ACall Unit := do
  let _ ← getById orgId id
  let _ ← withTenant (updateAppointment orgId id fun a => { a with deleted := true })
  pure ()

def cancelPublic (id : Id) : ACall Appointment := do
  match ← withTenant (findById (.bare true) .appointment id fun (_ : Appointment) => true) with
  | none => throw (.notFound "Appointment not found")
  | some appt =>
    if appt.status = .pending ∨ appt.status = .confirmed then
      withTenant (updateAppointment appt.orgId id fun a => { a with status := .cancelled })
    else throw (.badRequest "This appointment cannot be cancelled")

/-! ## Requests -/

inductive Request
  | book (data : AppointmentBookingInput)
  | update (orgId id : Id) (data : UpdateAppointment)
  | delete (orgId id : Id)
  | cancelPublic (id : Id)
  | getAvailableSlots (branchId serviceId : Id) (date : Option LocalDate) (subServiceId : Option Id)

inductive Answer
  | appointment (id : Id) (a : Appointment)
  | slots (l : List Instant)
  | done

def Request.run (E : Environment) : Request → ACall Answer
  | .book data => (Appointments.book E data).bind fun r => .pure (.appointment r.1 r.2)
  | .update orgId id data => (lifecycleUpdate orgId id data).bind fun a => .pure (.appointment id a)
  | .delete orgId id => (lifecycleDelete orgId id).bind fun _ => .pure .done
  | .cancelPublic id => (Appointments.cancelPublic id).bind fun a => .pure (.appointment id a)
  | .getAvailableSlots branchId serviceId date subServiceId =>
    (Appointments.getAvailableSlots E branchId serviceId date subServiceId).bind
      fun l => .pure (.slots l)

def calls (E : Environment) (requests : List Request) : List (ACall Answer) :=
  requests.map (Request.run E)

theorem getElem?_calls {E : Environment} {requests : List Request} {i : ℕ} {c : ACall Answer}
    (h : (calls E requests)[i]? = some c) : ∃ r, requests[i]? = some r ∧ c = r.run E := by
  rw [calls, List.getElem?_map, Option.map_eq_some_iff] at h
  obtain ⟨r, hr, rfl⟩ := h
  exact ⟨r, hr, rfl⟩

abbrev Run := Config Db DbWrite Err Ev Answer

abbrev Line := Entry Db Err Ev Answer

def start (E : Environment) (s : Db) (requests : List Request) : Run :=
  Config.init s (calls E requests)

/-- `n` steps of request `i`. -/
def turns (i n : ℕ) : List (ℕ × Move Err) := List.replicate n (i, .go 0)

/-! ## Specimens -/

def table {k : Kind} (rows : List (Id × Row k)) : AList fun _ : ℕ => Row k :=
  rows.foldr (fun r t => t.insert r.1 r.2) ∅

/-- It has no others. -/
theorem lookup_table_eq_none {k : Kind} {rows : List (Id × Row k)} {id : Id}
    (h : id ∉ rows.map (·.1)) : (table rows).lookup id = none := by
  induction rows with
  | nil => rfl
  | cons r rows ih =>
    rw [List.map_cons, List.mem_cons, not_or] at h
    exact (AList.lookup_insert_ne h.1).trans (ih h.2)

/-- A branch in UTC, open all day on the day of the epoch, with an hour's service. -/
def clinic (appointments : List (Id × Appointment)) : Db where
  tables
    | .branch => table (k := .branch) [(1, { orgId := 1 })]
    | .service => table (k := .service)
        [(1, { orgId := 1, durationMinutes := 60, queueEnabled := false, appointmentEnabled := true
               appointmentLeadTimeMinutes := 0 })]
    | .branchService => table (k := .branchService) [(1, { branchId := 1, serviceId := 1 })]
    | .workingHours => table (k := .workingHours)
        [(1, { branchId := 1, dayOfWeek := 3, window := { openTime := 0, closeTime := 1440 } })]
    | .appointment => table (k := .appointment) appointments
    | _ => ∅
  log := []

def server : Environment where
  bypassRls := true
  dayStart t := t / dayMs * dayMs
  dayEnd t := t / dayMs * dayMs + (dayMs - 1)
  zone _ := none

def anHour (status : AppointmentStatus) (scheduledAt : Instant) : Appointment :=
  { orgId := 1, branchId := 1, serviceId := 1, customerName := "Ada", scheduledAt
    durationMinutes := 60, status }

end PatronLoyalty.Appointments
