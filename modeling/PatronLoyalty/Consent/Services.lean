import PatronLoyalty.Crm.Phone
import PatronLoyalty.Loyalty.Referral
import PatronLoyalty.Txn.InTurn

/-!
# Who writes marketing consent

The operations that create and update customers, as far as they write customers and the consent ledger:
`CustomerService.create`, a row of a CSV import, the transactions of a booking and of a ticket, and the
webhooks of marketing providers. The ledger is the log of the store, in the order in which entries are
made. What else a transaction does is an input that may make it fail (`theRest`). Under the tenant's
policy a transaction sees the customers of its organisation alone; a foreign key is checked without it.
-/

namespace PatronLoyalty.Consent

open Txn
open Crm (normalizeSmsRecipient)
open Loyalty (Id truthy trim digits lastChars containsText)

/-! ## Rows -/

/-- What the consent columns hold, and the `action` of a ledger entry. -/
inductive ConsentAction
  | granted | revoked
  deriving DecidableEq, Repr

/-- The `channel` of a ledger entry about marketing. -/
inductive Channel
  | sms | email
  deriving DecidableEq, Repr

def Channel.text : Channel → String
  | .sms => "sms"
  | .email => "email"

structure Customer where
  orgId : Id
  name : String
  email : Option String := none
  phone : Option String := none
  externalId : Option String := none
  transactionalSmsAllowed : Bool := false
  marketingSmsConsent : ConsentAction := .revoked
  marketingEmailConsent : ConsentAction := .revoked
  marketingConsentSource : Option String := none
  deriving DecidableEq, Repr

def Customer.consent (c : Customer) : Channel → ConsentAction
  | .sms => c.marketingSmsConsent
  | .email => c.marketingEmailConsent

/-- A connection of an organisation to a marketing provider, with what authenticates its requests. -/
structure MarketingConnection where
  orgId : Id
  provider : String
  secret : String
  deriving DecidableEq, Repr

structure ConsentLedgerEntry where
  orgId : Id
  customerId : Id
  channel : String
  purpose : String
  action : ConsentAction
  source : String
  deriving DecidableEq, Repr

inductive Kind
  | customer | connection
  deriving DecidableEq, Repr

abbrev Row : Kind → Type
  | .customer => Customer
  | .connection => MarketingConnection

instance : (k : Kind) → DecidableEq (Row k)
  | .customer => inferInstanceAs (DecidableEq Customer)
  | .connection => inferInstanceAs (DecidableEq MarketingConnection)

/-- `@@unique([orgId, externalId])` -/
def uniqueKeys : (k : Kind) → Row k → List (Id × String)
  | .customer, c => (c.externalId.map fun e => (c.orgId, e)).toList
  | .connection, _ => []

instance : Keyed Row ConsentLedgerEntry (Id × String) where
  keys := uniqueKeys
  logKeys _ := []

inductive Err
  | badRequest (message : String)
  | forbidden (message : String)
  | notFound (message : String)
  | conflict (message : String)
  /-- `P2002` -/
  | uniqueViolation
  /-- `P2003` -/
  | foreignKeyViolation
  /-- `P2025` -/
  | recordNotFound
  /-- What makes the rest of a transaction fail. -/
  | other
  deriving DecidableEq, Repr

abbrev Db := Rel Row ConsentLedgerEntry
abbrev DbWrite := Rel.Write Row ConsentLedgerEntry

/-- A transaction of the customer services. -/
abbrev CTx := Tx Db DbWrite Err

/-- A request to the customer services. -/
abbrev CCall := Call Db DbWrite Err Empty

/-! ## Statements -/

def customersWhere (orgId : Id) (p : Customer → Bool) (s : Db) : List (Id × Customer) :=
  s.rows .customer fun _ (c : Customer) => c.orgId == orgId && p c

def findFirst (orgId : Id) (p : Customer → Bool) : CTx (Option (Id × Customer)) :=
  Tx.findFirst (customersWhere orgId p)

def findCustomer (orgId id : Id) : CTx (Option Customer) :=
  Tx.read fun s => (s.get .customer id).filter fun (c : Customer) => c.orgId == orgId

def createCustomer (c : Customer) : CTx Id := do
  let id ← Tx.input
  Rel.insert Err.uniqueViolation .customer id c
  pure id

def updateCustomer (orgId id : Id) (f : Customer → Customer) : CTx Customer :=
  Rel.modify (k := Kind.customer) Err.recordNotFound Err.uniqueViolation id fun (c : Customer) =>
    if c.orgId = orgId then .ok (f c) else .error .recordNotFound

/-- `consentLedgerEntry.create`, of a customer that exists. -/
def createEntry (entry : ConsentLedgerEntry) : CTx Unit := do
  let _ ← Tx.readOrThrow .foreignKeyViolation fun s => s.get .customer entry.customerId
  Rel.insertLog Err.uniqueViolation entry

/-- The statements of a transaction that write no customer and no consent. -/
def theRest : CTx Unit := do
  let failed ← Tx.input
  if failed = 0 then pure () else Tx.throw .other

/-- `prisma.withTenant`. -/
def withTenant {α : Type} (t : CTx α) : CCall α := Call.withTx t

def mayRefuse : CCall Unit := do
  let refused ← Call.input
  if refused = 0 then pure () else throw .other

/-! ## CustomerService -/

def grantedIf (given : Bool) : ConsentAction := if given then .granted else .revoked

structure CreateCustomerData where
  name : String
  email : Option String := none
  phone : Option String := none
  marketingSmsConsent : Option Bool := none
  marketingEmailConsent : Option Bool := none

def trimmedOrNull (value : Option String) : Option String := truthy (value.map trim)

/-- A customer with the e-mail or the phone number of the request. -/
def CreateCustomerData.duplicates (data : CreateCustomerData) (c : Customer) : Bool :=
  (trimmedOrNull data.email).any (c.email == some ·) ||
    (trimmedOrNull data.phone).any (c.phone == some ·)

def CreateCustomerData.customer (orgId : Id) (data : CreateCustomerData) : Customer :=
  { orgId
    name := trim data.name
    email := trimmedOrNull data.email
    phone := trimmedOrNull data.phone
    marketingSmsConsent := grantedIf (data.marketingSmsConsent == some true)
    marketingEmailConsent := grantedIf (data.marketingEmailConsent == some true)
    marketingConsentSource := some "staff_crm" }

def CustomerService.create (orgId : Id) (data : CreateCustomerData) : CCall Id := do
  mayRefuse
  let duplicate ← withTenant (findFirst orgId data.duplicates)
  match duplicate with
  | some _ => throw (.conflict "A patron with this email or phone already exists")
  | none => withTenant (createCustomer (data.customer orgId))

/-! ## CustomerImportService -/

structure CustomerImportRow where
  name : String
  email : Option String := none
  phone : Option String := none
  externalId : Option String := none
  marketingSmsConsent : Option Bool := none
  marketingEmailConsent : Option Bool := none

def CustomerImportRow.consent (data : CustomerImportRow) : Channel → Option Bool
  | .sms => data.marketingSmsConsent
  | .email => data.marketingEmailConsent

/-- What becomes of a row: its status, and the customer or the error. -/
inductive RowResult
  | created (customerId : Id)
  | updated (customerId : Id)
  | error (message : String)
  deriving DecidableEq, Repr

def fileDupKey (data : CustomerImportRow) : List String :=
  ((truthy data.externalId).map fun e => "ext:" ++ e.toLower).toList ++
    ((truthy data.email).map ("email:" ++ ·)).toList ++
    ((truthy data.phone).map ("phone:" ++ ·)).toList

/-- `customerPhoneOr`: exact, or containing the last ten digits. -/
def phoneMatches (phone : String) (c : Customer) : Bool :=
  trim phone != "" && (c.phone == some (trim phone) ||
    (decide (10 ≤ (digits (trim phone)).length) &&
      c.phone.any fun p => containsText p (lastChars 10 (digits (trim phone)))))

/-- `findFirst` by a field of the row, if the row has it. -/
def findBy (orgId : Id) (value : Option String) (p : String → Customer → Bool) :
    CTx (Option (Id × Customer)) :=
  match truthy value with
  | none => pure none
  | some v => findFirst orgId (p v)

def resolveMatch (orgId : Id) (data : CustomerImportRow) : CTx (Option (Id × Customer)) := do
  match ← findBy orgId data.externalId fun e c => c.externalId == some e with
  | some byExt => pure (some byExt)
  | none =>
    match ← findBy orgId data.email fun e c => c.email == some e with
    | some byEmail => pure (some byEmail)
    | none => findBy orgId data.phone phoneMatches

def createPatron (orgId : Id) (data : CustomerImportRow) : CTx Id :=
  createCustomer
    { orgId
      name := data.name
      email := data.email
      phone := data.phone
      externalId := data.externalId
      marketingSmsConsent := grantedIf (data.marketingSmsConsent == some true)
      marketingEmailConsent := grantedIf (data.marketingEmailConsent == some true)
      marketingConsentSource := some "csv_import" }

/-- `consentPatch`, and the other fields of the row. -/
def CustomerImportRow.patch (data : CustomerImportRow) (c : Customer) : Customer :=
  { c with
    name := data.name
    email := data.email.or c.email
    phone := data.phone.or c.phone
    externalId := data.externalId.or c.externalId
    marketingSmsConsent := (data.marketingSmsConsent.map grantedIf).getD c.marketingSmsConsent
    marketingEmailConsent :=
      (data.marketingEmailConsent.map grantedIf).getD c.marketingEmailConsent
    marketingConsentSource :=
      if data.marketingSmsConsent.isSome || data.marketingEmailConsent.isSome then some "csv_import"
      else c.marketingConsentSource }

def applyUpdate (orgId customerId : Id) (data : CustomerImportRow) : CTx Unit := do
  let _ ← updateCustomer orgId customerId data.patch
  pure ()

def importPatron (orgId : Id) (data : CustomerImportRow) : CCall RowResult := do
  match ← withTenant (resolveMatch orgId data) with
  | some (id, _) => do
    withTenant (applyUpdate orgId id data)
    mayRefuse
    pure (.updated id)
  | none => do
    let id ← withTenant (createPatron orgId data)
    mayRefuse
    pure (.created id)

def importErrorMessage : Err → String
  | .uniqueViolation => "A patron with this email, phone, or external_id already exists"
  | .badRequest m | .forbidden m | .notFound m | .conflict m => m
  | _ => "Import failed"

/-- `importOneRow`, of a row that has been parsed; `seenKeys` are those of the rows before. -/
def importOneRow (orgId : Id) (seenKeys : List String) (data : CustomerImportRow) :
    CCall RowResult :=
  if (fileDupKey data).any seenKeys.contains then
    pure (.error "Duplicate identity within this CSV file")
  else (importPatron orgId data).handle fun e => pure (.error (importErrorMessage e))

/-! ## Bookings and tickets -/

structure Consents where
  sms : Bool := false
  email : Bool := false
  deriving DecidableEq, Repr

def Consents.given (g : Consents) : Channel → Bool
  | .sms => g.sms
  | .email => g.email

def withMarketing (g : Consents) (source : Option String) (c : Customer) : Customer :=
  { c with
    marketingSmsConsent := if g.sms then .granted else c.marketingSmsConsent
    marketingEmailConsent := if g.email then .granted else c.marketingEmailConsent
    marketingConsentSource := if g.sms || g.email then source else c.marketingConsentSource }

def marketingEntry (orgId customerId : Id) (channel : Channel) (action : ConsentAction)
    (source : String) : ConsentLedgerEntry :=
  { orgId, customerId, channel := channel.text, purpose := "marketing", action, source }

/-- `logMarketingConsent`, for a consent that is given. -/
def logConsent (given : Bool) (entry : ConsentLedgerEntry) : CTx Unit :=
  if given then createEntry entry else pure ()

def logConsents (orgId customerId : Id) (g : Consents) (source : String) : CTx Unit := do
  logConsent g.sms (marketingEntry orgId customerId .sms .granted source)
  logConsent g.email (marketingEntry orgId customerId .email .granted source)

structure AppointmentBookingInput where
  customerName : String
  customerEmail : Option String := none
  transactionalSmsAllowed : Option Bool := none
  consents : Consents := {}

/-- `findFirst`, and then `update` of what is found or `create`. `update` is told what has been found. -/
def upsertCustomer (orgId : Id) (p : Customer → Bool) (g : Consents) (source : Option String)
    (update : Customer → Customer → Customer) (new : Customer) : CTx (Option Id) := do
  match ← findFirst orgId p with
  | some (id, found) => do
    let _ ← updateCustomer orgId id fun c => withMarketing g source (update found c)
    pure (some id)
  | none => do
    let id ← createCustomer (withMarketing g source new)
    pure (some id)

/-- The customer of a booking, found by phone, or by e-mail when there is no phone number; `none` when
there is neither. -/
def customerForBooking (orgId : Id) (data : AppointmentBookingInput)
    (normalizedCustomerPhone : Option String) : CTx (Option Id) :=
  let transactionalSmsAllowed := data.transactionalSmsAllowed.getD false
  match normalizedCustomerPhone, truthy data.customerEmail with
  | some phone, email =>
    upsertCustomer orgId (·.phone == some phone) data.consents (some "appointment_booking")
      (fun _ c => { c with
        name := data.customerName, email := email.or c.email, transactionalSmsAllowed })
      { orgId, name := data.customerName, phone := some phone, email, transactionalSmsAllowed }
  | none, some email =>
    upsertCustomer orgId (·.email == some email) data.consents (some "appointment_booking")
      (fun _ c => { c with name := data.customerName, transactionalSmsAllowed })
      { orgId, name := data.customerName, email := some email, transactionalSmsAllowed }
  | none, none => pure none

def logConsentsOf (orgId : Id) (customerId : Option Id) (g : Consents) (source : String) : CTx Unit :=
  match customerId with
  | some id => logConsents orgId id g source
  | none => pure ()

/-- The transaction of `book`, between the checks of the slot and the appointment. -/
def bookTx (orgId : Id) (data : AppointmentBookingInput) (normalizedCustomerPhone : Option String) :
    CTx Unit := do
  theRest
  let customerId ← customerForBooking orgId data normalizedCustomerPhone
  logConsentsOf orgId customerId data.consents "appointment_booking"
  theRest

def AppointmentBookingService.book (orgId : Id) (data : AppointmentBookingInput)
    (customerPhone : Option String) : CCall Unit := do
  mayRefuse
  let normalizedCustomerPhone := (truthy customerPhone).bind normalizeSmsRecipient
  if data.transactionalSmsAllowed = some true ∧ normalizedCustomerPhone.isNone then
    throw (.badRequest "SMS notifications require a valid mobile number in international format (e.g. +15550001234)")
  else withTenant (bookTx orgId data normalizedCustomerPhone)

structure IssueTicketData where
  customerId : Option Id := none
  customerName : Option String := none
  customerPhone : Option String := none
  transactionalSmsAllowed : Option Bool := none
  source : Option String := none
  consents : Consents := {}

/-- The customer with the request's phone, found or created. -/
def customerByPhone (orgId : Id) (data : IssueTicketData) (phone : String) : CTx (Option Id) :=
  upsertCustomer orgId (·.phone == some phone) data.consents data.source
    (fun found c => { c with
      name := (truthy data.customerName).getD found.name
      transactionalSmsAllowed :=
        data.transactionalSmsAllowed.getD found.transactionalSmsAllowed })
    { orgId, name := (truthy data.customerName).getD "Anonymous", phone := some phone
      transactionalSmsAllowed := data.transactionalSmsAllowed.getD false }

def customerByName (orgId : Id) (data : IssueTicketData) (name : String) : CTx (Option Id) := do
  let id ← createCustomer (withMarketing data.consents data.source
    { orgId, name, transactionalSmsAllowed := data.transactionalSmsAllowed.getD false })
  pure (some id)

/-- The customer a request names, if the organisation has it; its id is taken in any case. -/
def customerById (orgId : Id) (data : IssueTicketData) (customerId : Id) : CTx (Option Id) := do
  match ← findCustomer orgId customerId with
  | some _ =>
    if data.consents.sms || data.consents.email then do
      let _ ← updateCustomer orgId customerId (withMarketing data.consents data.source)
      pure (some customerId)
    else pure (some customerId)
  | none => pure (some customerId)

def customerForIssue (orgId : Id) (data : IssueTicketData) (customerPhone : Option String) :
    CTx (Option Id) :=
  match data.customerId, truthy customerPhone, truthy data.customerName with
  | some customerId, _, _ => customerById orgId data customerId
  | none, some phone, _ => customerByPhone orgId data phone
  | none, none, some name => customerByName orgId data name
  | none, none, none => pure none

/-- `issueTicketCore`, between the checks of the queue and the ticket. -/
def issueTicketCore (orgId : Id) (data : IssueTicketData) (customerPhone : Option String) :
    CTx Unit := do
  theRest
  let customerId ← customerForIssue orgId data customerPhone
  logConsentsOf orgId customerId data.consents (data.source.getD "api")
  theRest

def TicketIssuanceService.issueTicket (orgId : Id) (data : IssueTicketData) : CCall Unit := do
  let normalizedPhone := (truthy data.customerPhone).bind normalizeSmsRecipient
  if data.transactionalSmsAllowed = some true ∧ normalizedPhone.isNone then
    throw (.badRequest "SMS notifications require a valid mobile number in international format (e.g. +15550001234)")
  else do
    mayRefuse
    withTenant (issueTicketCore orgId data (normalizedPhone.or (truthy data.customerPhone)))

/-! ## Webhooks of marketing providers -/

/-- `payload.data?.email`: a string, or a value the query takes for a filter, with what it matches, or
one that it refuses. -/
inductive EmailField
  | absent
  | text (email : String)
  | filter (admits : String → Bool)
  | invalid

/-- The body of a request, with the secrets it presents, which nothing reads. -/
structure WebhookRequest where
  provider : String
  type : Option String
  email : EmailField
  secrets : List String := []

/-- `LOYALTY_MARKETING_PROVIDERS`. -/
def marketingProviders : List String := ["klaviyo", "mailchimp"]

def WebhookRequest.unsubscribes (r : WebhookRequest) : Bool :=
  marketingProviders.contains r.provider && r.type == some "unsubscribe"

/-- The e-mails the query asks for, if it is made. -/
def WebhookRequest.asksFor (r : WebhookRequest) : Option (String → Bool) :=
  match r.email with
  | .text email => if email = "" then none else some (· == email)
  | .filter admits => some admits
  | .absent | .invalid => none

/-- The customers of all organisations that the query finds. -/
def customersWithEmail (admits : String → Bool) (s : Db) : List (Id × Customer) :=
  s.rows .customer fun _ (c : Customer) => c.email.any admits

def revokeTx (provider : String) (orgId customerId : Id) : CTx Unit := do
  let _ ← updateCustomer orgId customerId fun c =>
    { c with marketingEmailConsent := .revoked, marketingConsentSource := some provider }
  createEntry (marketingEntry orgId customerId .email .revoked provider)

def revokeAll (provider : String) : List (Id × Customer) → CCall Unit
  | [] => pure ()
  | (id, customer) :: customers => do
    withTenant (revokeTx provider customer.orgId id)
    revokeAll provider customers

/-- `processWebhook`; errors are logged. -/
def processWebhook (r : WebhookRequest) : CCall Unit :=
  if r.unsubscribes then
    match r.asksFor with
    | none => pure ()
    | some admits => Call.handle (do
        let customers ← withTenant (Tx.read (customersWithEmail admits))
        revokeAll r.provider customers) fun _ => pure ()
  else pure ()

end PatronLoyalty.Consent
