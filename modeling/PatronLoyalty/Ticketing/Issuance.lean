import PatronLoyalty.Crm.Phone
import PatronLoyalty.Ticketing.Entry

/-!
# Issuing tickets

`TicketIssuanceService`. `issueTicketCore` is the transaction: the branch, the service and the queue are
checked against each other, the visit is found or created, the display number is the visit's or the next
of the queue, and the customer is found or created by phone. `issueTicket` is the request, public or
authenticated; a journey advance calls `issueTicketCore` from its own transaction.
-/

namespace PatronLoyalty.Ticketing

open Txn
open Loyalty (Id Err truthy trim)
open Crm (normalizeSmsRecipient)

structure IssueTicketData where
  queueId : Id
  branchId : Id
  serviceId : Id
  visitId : Option Id := none
  stepIndex : Option ℤ := none
  deskNumber : Option String := none
  initialStatus : Option TicketStatus := none
  customerId : Option Id := none
  customerName : Option String := none
  customerPhone : Option String := none
  transactionalSmsAllowed : Option Bool := none
  marketingSmsConsent : Bool := false
  marketingEmailConsent : Bool := false
  source : String
  priority : Option ℤ := none
  language : Option String := none
  note : Option String := none
  externalRef : Option String := none
  deriving DecidableEq, Repr

def currentPrivacyVersion : String := "2026-06-04"

/-! ## The visit and the display number -/

/-- `orderBy: { stepIndex: 'asc' }`: null comes last. -/
def byTicketStepIndex (a b : Ticket) : Bool :=
  match a.stepIndex, b.stepIndex with
  | some i, some j => i ≤ j
  | none, some _ => false
  | _, none => true

def visitForIssue (orgId : Id) (data : IssueTicketData) (effectiveJourneyMode : JourneyMode) :
    TTx (Option Id × Option String) := do
  match data.visitId with
  | some visitId =>
    let visit ← findFirst (.tenant orgId) .visit fun id v => id == visitId && v.branchId == data.branchId
    let visit ← orThrow (.notFound "Visit not found") visit
    let _ ← reopenVisit orgId visitId visit.2.status
    let firstTicket ← findFirstBy (.tenant orgId) .ticket (fun _ t => t.visitId == some visitId)
      byTicketStepIndex
    pure (some visitId, truthy (firstTicket.map (·.2.displayNumber)))
  | none =>
    match effectiveJourneyMode with
    | .singleTicket => pure (none, none)
    | .visitMultiStep =>
      let visitId ← create .visit
        { orgId, branchId := data.branchId, source := data.source, customerName := data.customerName,
          customerPhone := data.customerPhone, language := data.language, status := .active }
      pure (some visitId, none)
where
  /-- A completed visit is active again. -/
  reopenVisit (orgId visitId : Id) : VisitStatus → TTx Unit
    | .completed => do
      let _ ← update orgId .visit visitId fun v => { v with status := .active, completedAt := none }
      pure ()
    | .active => pure ()

def queueForReuse (orgId : Id) (data : IssueTicketData) : TTx Unit := do
  let queue ← findById (.tenant orgId) .queue data.queueId
  let queue ← orThrow (.notFound "Queue not found") queue
  throwIf (data.source != "staff" && data.source != "system" && queue.status != .opened)
    (queueNotOpen queue.status)

def displayNumberForIssue (orgId : Id) (data : IssueTicketData) (reusedDisplayNumber : Option String) :
    TTx String :=
  match reusedDisplayNumber with
  | none => reserveQueueDisplayNumber orgId data.queueId
  | some displayNumber => do
    queueForReuse orgId data
    pure displayNumber

/-! ## The customer -/

def withMarketing (data : IssueTicketData) (now : Time) (c : Customer) : Customer :=
  let c := if data.marketingSmsConsent then { c with marketingSmsConsent := "GRANTED" } else c
  let c := if data.marketingEmailConsent then { c with marketingEmailConsent := "GRANTED" } else c
  if data.marketingSmsConsent || data.marketingEmailConsent then
    { c with
      marketingConsentSource := some data.source
      marketingConsentVersion := some currentPrivacyVersion
      marketingConsentDate := some now }
  else c

def orText (a : Option String) (b : String) : String := (truthy a).getD b

/-- The customer of the new ticket, with its name and phone. -/
structure IssueCustomer where
  customerId : Option Id
  name : Option String
  phone : Option String
  deriving DecidableEq, Repr

/-- The customer with the request's phone, found or created. -/
def customerByPhone (orgId : Id) (data : IssueTicketData) (phone : String) : TTx IssueCustomer := do
  let customer ← findFirst (.tenant orgId) .customer fun _ c => c.phone == some phone
  let now ← now
  match customer with
  | some (id, c) =>
    let name := orText data.customerName c.name
    let _ ← update orgId .customer id fun c' => withMarketing data now
      { c' with
        name
        transactionalSmsAllowed := data.transactionalSmsAllowed.getD c.transactionalSmsAllowed }
    pure ⟨some id, some name, some phone⟩
  | none =>
    let name := orText data.customerName "Anonymous"
    let id ← create .customer (withMarketing data now
      { orgId, name, phone := some phone
        transactionalSmsAllowed := data.transactionalSmsAllowed.getD false
        smsConsentSource := some data.source, smsConsentVersion := some currentPrivacyVersion })
    pure ⟨some id, some name, some phone⟩

def customerByName (orgId : Id) (data : IssueTicketData) (name : String) : TTx IssueCustomer := do
  let now ← now
  let id ← create .customer (withMarketing data now
    { orgId, name, transactionalSmsAllowed := data.transactionalSmsAllowed.getD false
      smsConsentSource := some data.source })
  pure ⟨some id, some name, data.customerPhone⟩

def updateMarketing (orgId : Id) (data : IssueTicketData) (customerId : Id) : TTx Unit := do
  if data.marketingSmsConsent || data.marketingEmailConsent then
    let now ← now
    let _ ← update orgId .customer customerId (withMarketing data now)
    pure ()

def customerById (orgId : Id) (data : IssueTicketData) (customerId : Id) : TTx IssueCustomer := do
  let customer ← findById (.tenant orgId) .customer customerId
  match customer with
  | none => pure ⟨some customerId, data.customerName, data.customerPhone⟩
  | some c =>
    updateMarketing orgId data customerId
    pure ⟨some customerId, some (orText data.customerName c.name),
      (truthy data.customerPhone).orElse fun _ => truthy c.phone⟩

def customerForIssue (orgId : Id) (data : IssueTicketData) : TTx IssueCustomer :=
  match data.customerId, truthy data.customerPhone, truthy data.customerName with
  | some customerId, _, _ => customerById orgId data customerId
  | none, some phone, _ => customerByPhone orgId data phone
  | none, none, some name => customerByName orgId data name
  | none, none, none => pure ⟨none, data.customerName, data.customerPhone⟩

/-! ## The ticket -/

def stepIndexForIssue (orgId : Id) (data : IssueTicketData) (visitId : Option Id) :
    TTx (Option ℤ) :=
  match data.stepIndex, visitId with
  | some stepIndex, _ => pure (some stepIndex)
  | none, none => pure none
  | none, some visitId =>
    resolveFlowStepIndexForQueue (.tenant orgId) orgId data.branchId data.queueId (some visitId)

def inheritedExternalRef (orgId : Id) (data : IssueTicketData) (visitId : Option Id)
    (stepIndex : Option ℤ) (stepRole : Option QueueStepRole) : TTx (Option String) :=
  match visitId with
  | none => pure none
  | some visitId =>
    if journeyStepAcceptsExternalRef stepIndex stepRole then
      match trimmed data.externalRef with
      | some ref => pure (some ref)
      | none =>
        if data.source = "system" then pure none else resolveVisitExternalRef orgId visitId none
    else pure none

def issuedTicket (orgId : Id) (data : IssueTicketData) (queue : Queue) (visitId : Option Id)
    (displayNumber : String) (customer : IssueCustomer) (stepIndex : Option ℤ)
    (externalRef : Option String) (now : Time) : Ticket :=
  { orgId
    queueId := data.queueId
    branchId := data.branchId
    serviceId := data.serviceId
    visitId
    flowTemplateId := queue.flowTemplateId
    deskNumber := data.deskNumber
    customerId := customer.customerId
    customerName := some (orText customer.name "Anonymous")
    customerPhone := customer.phone
    displayNumber
    status := data.initialStatus.getD .waiting
    priority := data.priority.getD 0
    source := data.source
    language := some (data.language.getD "en")
    note := data.note
    transactionalSmsAllowed := data.transactionalSmsAllowed.getD false
    stepIndex
    readyAt := none
    bookedAt := now
    createdAt := now
    calledAt :=
      if data.initialStatus = some .called ∨ data.initialStatus = some .serving then some now else none
    servedAt := if data.initialStatus = some .serving then some now else none
    externalRef }

/-- The branch, the service and the queue of the request, checked against each other. -/
def queueForIssue (orgId : Id) (data : IssueTicketData) : TTx Queue := do
  let branch ← findById (.tenant orgId) .branch data.branchId
  let _ ← orThrow (.notFound "Branch not found") branch
  assertBranchAcceptsCustomerIntake "issuing tickets"
  let service ← findById (.tenant orgId) .service data.serviceId
  let _ ← orThrow (.notFound "Service not found") service
  let queue ← findById (.tenant orgId) .queue data.queueId
  let queue ← orThrow (.notFound "Queue not found") queue
  throwIf (queue.branchId != data.branchId || queue.serviceId != data.serviceId)
    (.badRequest "branchId and serviceId must match the selected queue")
  pure queue

def effectiveJourneyMode (orgId : Id) (data : IssueTicketData) : TTx JourneyMode := do
  let journeyMode ← resolveEffectiveJourneyMode (.tenant orgId) orgId data.branchId data.serviceId
    data.queueId
  let journeysEnabled ← isVisitJourneysEnabledForOrg orgId
  pure (if journeysEnabled then journeyMode else .singleTicket)

def issueTicketCore (orgId : Id) (data : IssueTicketData) : TTx (Id × Ticket) := do
  let queue ← queueForIssue orgId data
  let mode ← effectiveJourneyMode orgId data
  let visit ← visitForIssue orgId data mode
  let displayNumber ← displayNumberForIssue orgId data visit.2
  let _ ← resolveQueueCallingPolicy orgId data.queueId
  let customer ← customerForIssue orgId data
  let stepIndex ← stepIndexForIssue orgId data visit.1
  let queueForRef ← findById (.tenant orgId) .queue data.queueId
  let externalRef ← inheritedExternalRef orgId data visit.1 stepIndex (queueForRef.bind (·.stepRole))
  let now ← now
  let ticket := issuedTicket orgId data queue visit.1 displayNumber customer stepIndex externalRef now
  let id ← create .ticket ticket
  pure (id, ticket)

/-! ## The request -/

inductive Issuance
  | publicIssue | authenticated
  deriving DecidableEq, Repr

/-- The phone of a request, as a text message would be sent to it. -/
def normalizedPhone (data : IssueTicketData) : Option String :=
  (truthy data.customerPhone).bind normalizeSmsRecipient

def sourceIs (data : IssueTicketData) (source : String) : Bool :=
  (trim data.source).toLower == source

/-- The checks of a request before it touches the store. -/
def validateIssue (data : IssueTicketData) (issuance : Issuance) : TCall Unit := do
  rejectIf (data.transactionalSmsAllowed == some true && (normalizedPhone data).isNone) (.badRequest
    "SMS notifications require a valid mobile number in international format (e.g. +15550001234)")
  rejectIf (issuance == .publicIssue && sourceIs data "staff")
    (.forbidden "Staff-issued tickets require an authenticated staff session")
  rejectIf (issuance == .publicIssue && sourceIs data "kiosk" &&
      data.transactionalSmsAllowed == some true && (truthy data.customerPhone).isNone) (.badRequest
    "Kiosk SMS notifications require a valid mobile number in international format (e.g. +15550001234)")

/-- A customer who walks in starts at an entry of the flow. -/
def checkEntry (scope : Scope) (orgId : Id) (data : IssueTicketData) (issuance : Issuance) :
    TTx Unit :=
  if issuance = .publicIssue ∧ data.visitId = none then
    assertPublicQueueEntryAllowed scope orgId data.branchId data.queueId
  else pure ()

/-- The organisation of a public request is its branch's. -/
def orgForIssue (orgIdOrNull : Option Id) (data : IssueTicketData) : TTx Id :=
  match orgIdOrNull with
  | some orgId => pure orgId
  | none => do
    let branch ← findById (.bare true) .branch data.branchId
    let branch ← orThrow (.notFound "Branch not found") branch
    pure branch.orgId

/-- `prepareIssueTicketPayload`: the step the queue has in its flow. -/
def prepareIssueTicketPayload (scope : Scope) (orgId : Id) (data : IssueTicketData) :
    TTx IssueTicketData := do
  let journeysEnabled ← isVisitJourneysEnabledForOrg orgId
  let journeyMode ← resolveEffectiveJourneyMode scope orgId data.branchId data.serviceId data.queueId
  let stepIndex ← resolveFlowStepIndexForQueue scope orgId data.branchId data.queueId data.visitId
  pure (if data.stepIndex.isNone ∧ journeysEnabled ∧
      (journeyMode = .visitMultiStep ∨ data.visitId.isSome) then { data with stepIndex } else data)

def planLimit : TTx Unit :=
  mayRefuse (.forbidden "Monthly ticket limit reached. Please upgrade to issue more.")

def issueTicket (orgIdOrNull : Option Id) (data : IssueTicketData) (issuance : Issuance) :
    TCall (Id × Ticket) := do
  validateIssue data issuance
  let data := { data with
    customerPhone := (normalizedPhone data).orElse fun _ => truthy data.customerPhone }
  let orgId ← Call.withTx (orgForIssue orgIdOrNull data)
  let bypassRls ← Call.input
  Call.withTx (checkEntry (.bare (bypassRls % 2 == 1)) orgId data issuance)
  Call.withTx planLimit
  let payload ← Call.withTx (prepareIssueTicketPayload (.bare (bypassRls % 2 == 1)) orgId data)
  withTenant (issueTicketCore orgId payload)

/-- `TicketVisitStepService`: the visit of a further step is active again. -/
def visitForStep (orgId visitId : Id) : TTx Visit := do
  let visit ← findById (.tenant orgId) .visit visitId
  let visit ← orThrow (.notFound "Visit not found") visit
  let _ ← visitForIssue.reopenVisit orgId visitId visit.status
  pure visit

def createVisitStep (orgId visitId : Id) (data : IssueTicketData) : TCall (Id × Ticket) := do
  let visit ← withTenant (visitForStep orgId visitId)
  issueTicket (some orgId)
    { queueId := data.queueId
      branchId := visit.branchId
      serviceId := data.serviceId
      visitId := some visitId
      deskNumber := data.deskNumber
      customerName := data.customerName.orElse fun _ => visit.customerName
      customerPhone := data.customerPhone.orElse fun _ => visit.customerPhone
      language := data.language.orElse fun _ => visit.language
      note := data.note
      source := data.source
      priority := data.priority
      transactionalSmsAllowed := data.transactionalSmsAllowed }
    .authenticated

end PatronLoyalty.Ticketing
