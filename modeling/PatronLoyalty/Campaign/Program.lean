import PatronLoyalty.Crm.Segments

/-!
# Campaigns

`LoyaltyCampaignService`, `LoyaltyCampaignDispatchService`, `LoyaltyCampaignAutomationService` and the
notifications worker. A launch creates one send row for each account it selects and dispatches them; a
dispatcher claims a queued row, checks consent and contact, and hands the message to
`notifications.send`; the worker writes the outcome back.
-/

namespace PatronLoyalty.Campaign

open Txn Loyalty Crm

/-! ## The send rows of a launch -/

/-- The accounts of an organisation, those of `customerIds` if there is such a list. -/
def targets (orgId : Id) (customerIds : Option (List Id)) (s : Db) : List Id :=
  (s.rows .account fun _ a => visible orgId .account a &&
    customerIds.all fun ids => ids.contains a.customerId).map (·.1)

/-- `take: 500` of an unordered query: of any order of the rows the first `limit`. -/
def takeAny {α : Type} (limit n : ℕ) (rows : List α) : List α :=
  ((rows.permutations'[n % rows.permutations'.length]?).getD []).take limit

def sendRows (orgId campaignId : Id) (accounts : List Id) : List LoyaltyCampaignSend :=
  accounts.map fun accountId => { orgId, campaignId, accountId }

/-- The customers of a campaign's segment: `none` when it has no preset. -/
def segmentIds (orgId : Id) (campaign : LoyaltyCampaign) (today : Time) (s : Db) :
    Except Err (Option (List Id)) :=
  match truthy campaign.segmentPreset with
  | none => .ok none
  | some text =>
    match presetOf text with
    | some preset => .ok (resolvePresetCustomerIds orgId preset today s)
    | none => .error .invalidQuery

/-- `resolvePresetCustomerIds` of a launch. -/
def resolveSegment (orgId : Id) (campaign : LoyaltyCampaign) : LTx (Option (List Id)) := do
  let today ← now
  Tx.exec fun s => (segmentIds orgId campaign today s).map fun ids => (ids, [])

def selectAccounts (orgId : Id) (customerIds : Option (List Id)) : LTx (List Id) := do
  let n ← Tx.input
  Tx.read fun s => takeAny 500 n (targets orgId customerIds s)

/-- Whom a launch sends to. -/
def selectTargets (orgId : Id) (campaign : LoyaltyCampaign) : LCall (List Id) := do
  let customerIds ← withTenant (resolveSegment orgId campaign)
  withTenant (selectAccounts orgId customerIds)

/-- The transaction of a launch that creates the send rows and makes the campaign active. -/
def openSends (orgId campaignId : Id) (accounts : List Id) : LTx Unit := do
  createMany .campaignSend (sendRows orgId campaignId accounts)
  let _ ← update orgId .campaign campaignId fun c => { c with status := .active, sentCount := 0 }
  pure ()

/-! ## One message -/

/-- What the dispatcher reads of a customer. -/
structure Contact where
  customerId : Id
  name : String
  phone : Option String
  email : Option String
  marketingSmsConsent : String
  marketingEmailConsent : String
  deriving DecidableEq, Repr

def Contact.of (customerId : Id) (c : Customer) : Contact where
  customerId := customerId
  name := c.name
  phone := c.phone
  email := c.email
  marketingSmsConsent := c.marketingSmsConsent
  marketingEmailConsent := c.marketingEmailConsent

inductive DispatchResult
  | sent | skipped | queued
  deriving DecidableEq, Repr

def errorMessage : Err → String
  | .badRequest m | .notFound m | .forbidden m | .conflict m | .database m => m
  | .uniqueViolation => "Unique constraint failed"
  | .foreignKeyViolation => "Foreign key constraint violated"
  | .recordNotFound => "Record not found"
  | .invalidQuery => "Invalid query"

/-- Claim a queued row: `queued → sending`. -/
def claimSend (orgId sendId : Id) : LCall Bool := do
  let n ← withTenant (updateMany orgId .campaignSend sendId (fun r => r.status == .queued)
    fun r => { r with status := .sending })
  pure (n != 0)

def marked (status : CampaignSendStatus) (error : Option String) (today : Time)
    (r : LoyaltyCampaignSend) : LoyaltyCampaignSend :=
  { r with status, sentAt := if status = .sent then some today else r.sentAt, error }

def markTx (orgId sendId : Id) (status : CampaignSendStatus) (error : Option String) : LTx Unit := do
  let today ← now
  let _ ← update orgId .campaignSend sendId (marked status error today)
  pure ()

def markSend (orgId sendId : Id) (status : CampaignSendStatus) (error : Option String) :
    LCall Unit := withTenant (markTx orgId sendId status error)

def sendFailed : Err := .badRequest "Send failed"

/-- `notifications.send`: it may refuse the message for reasons of its own. -/
def sendNotification (v : Ev) : LCall Unit := do
  Call.fire v
  let refusal ← Call.input
  if refusal = 0 then pure () else throw sendFailed

/-- A provider channel: its name, the consent and the contact it needs, and the messages of the rows it
skips. -/
structure Provider where
  name : String
  consent : Contact → String
  address : Contact → Option String
  noConsent : String
  noAddress : String

def whatsapp : Provider where
  name := "whatsapp"
  consent := (·.marketingSmsConsent)
  address := (·.phone)
  noConsent := "Marketing WhatsApp/SMS not consented"
  noAddress := "No phone on file"

def sms : Provider where
  name := "sms"
  consent := (·.marketingSmsConsent)
  address := (·.phone)
  noConsent := "Marketing SMS not consented"
  noAddress := "No phone on file"

def email : Provider where
  name := "email"
  consent := (·.marketingEmailConsent)
  address := (·.email)
  noConsent := "Marketing email not consented"
  noAddress := "No email on file"

/-- `channel.toUpperCase()` against `LOYALTY_CAMPAIGN_CHANNELS`. -/
def providerOf (channel : String) : Option Provider :=
  match channel.toUpper with
  | "WHATSAPP" => some whatsapp
  | "SMS" => some sms
  | "EMAIL" => some email
  | _ => none

def bodyOf (campaign : LoyaltyCampaign) : String :=
  (trimmed campaign.body).getD "Message from your loyalty program."

def subjectOf (campaign : LoyaltyCampaign) : String := (trimmed campaign.subject).getD campaign.name

def skip (orgId sendId : Id) (error : String) : LCall DispatchResult := do
  markSend orgId sendId .skipped error
  pure .skipped

/-- A claimed row on a provider channel. -/
def deliver (orgId campaignId : Id) (campaign : LoyaltyCampaign) (sendId : Id) (customer : Contact)
    (p : Provider) : LCall DispatchResult :=
  if p.consent customer ≠ "GRANTED" then skip orgId sendId p.noConsent
  else
    match trimmed (p.address customer), p.address customer with
    | some _, some recipient => do
      sendNotification (.notify orgId campaignId sendId customer.customerId p.name recipient
        (subjectOf campaign) (bodyOf campaign))
      pure .queued
    | _, _ => skip orgId sendId p.noAddress

def dispatchClaimed (orgId campaignId : Id) (campaign : LoyaltyCampaign) (sendId : Id)
    (customer : Contact) : LCall DispatchResult :=
  match campaign.channel.toUpper with
  | "IN_APP" => do
    markSend orgId sendId .sent none
    pure .sent
  | "PUSH" => skip orgId sendId "Push provider not configured — use IN_APP, SMS, or EMAIL"
  | channel =>
    match providerOf channel with
    | some p => deliver orgId campaignId campaign sendId customer p
    | none => skip orgId sendId s!"Unsupported channel: {channel}"

def dispatchOne (orgId campaignId : Id) (campaign : LoyaltyCampaign) (sendId : Id)
    (customer : Contact) : LCall DispatchResult := do
  if ← claimSend orgId sendId then dispatchClaimed orgId campaignId campaign sendId customer
  else pure .skipped

/-! ## A campaign -/

/-- The tally of a dispatch. -/
structure Delivery where
  sent : ℤ := 0
  skipped : ℤ := 0
  failed : ℤ := 0
  deriving DecidableEq, Repr

def Delivery.count (d : Delivery) : DispatchResult → Delivery
  | .sent => { d with sent := d.sent + 1 }
  | .skipped => { d with skipped := d.skipped + 1 }
  | .queued => d

/-- The contact of an account's customer (`include: { customer }`). -/
def contactOf (orgId accountId : Id) (s : Db) : Option Contact := do
  let account ← (s.get .account accountId).filter (visible orgId .account)
  let customer ← (s.get .customer account.customerId).filter (visible orgId .customer)
  pure (.of account.customerId customer)

def queuedSends (orgId campaignId : Id) (s : Db) : Option (List (Id × Contact)) :=
  (s.rows .campaignSend fun _ r => visible orgId .campaignSend r && r.campaignId == campaignId &&
    r.status == .queued).mapM fun r => (contactOf orgId r.2.accountId s).map (r.1, ·)

/-- The rows of a campaign that are queued or being sent. -/
def outstanding (orgId campaignId : Id) (s : Db) : ℕ :=
  (s.rows .campaignSend fun _ r => visible orgId .campaignSend r && r.campaignId == campaignId &&
    (r.status == .queued || r.status == .sending)).length

def dispatchNext (orgId campaignId : Id) (campaign : LoyaltyCampaign) (d : Delivery)
    (send : Id × Contact) : LCall Delivery :=
  try
    let result ← dispatchOne orgId campaignId campaign send.1 send.2
    pure (d.count result)
  catch err =>
    markSend orgId send.1 .failed (errorMessage err)
    pure { d with failed := d.failed + 1 }

def completeCampaign (orgId campaignId : Id) : LCall Unit := do
  let remaining ← withTenant (Tx.read (outstanding orgId campaignId))
  if remaining = 0 then
    let _ ← withTenant (update orgId .campaign campaignId fun c => { c with status := .completed })
    pure ()
  else pure ()

def dispatchCampaign (orgId campaignId : Id) : LCall Delivery := do
  match ← withTenant (findById orgId .campaign campaignId) with
  | none => pure {}
  | some campaign =>
    let sends ← withTenant (Tx.readOrThrow .invalidQuery (queuedSends orgId campaignId))
    let delivery ← Call.foldEach sends {} (dispatchNext orgId campaignId campaign)
    completeCampaign orgId campaignId
    pure delivery

structure LaunchResult where
  queued : ℕ
  campaignId : Id
  delivery : Delivery
  deriving DecidableEq, Repr

def launch (orgId campaignId : Id) : LCall LaunchResult := do
  requireEnabled orgId
  match ← withTenant (findById orgId .campaign campaignId) with
  | none => throw (.notFound "Campaign not found")
  | some campaign =>
    if campaign.status = .completed then throw (.badRequest "Campaign already completed")
    else
      let accounts ← selectTargets orgId campaign
      withTenant (openSends orgId campaignId accounts)
      let delivery ← dispatchCampaign orgId campaignId
      let _ ← withTenant (update orgId .campaign campaignId
        fun c => { c with sentCount := delivery.sent })
      pure { queued := accounts.length, campaignId, delivery }

/-! ## Automation -/

inductive SendOutcome
  | sent | skipped | failed | queued
  deriving DecidableEq, Repr

def DispatchResult.outcome : DispatchResult → SendOutcome
  | .sent => .sent
  | .skipped => .skipped
  | .queued => .queued

def incrementSent (orgId campaignId : Id) : LTx Unit := do
  let _ ← update orgId .campaign campaignId fun c => { c with sentCount := c.sentCount + 1 }
  pure ()

def sendOne (orgId campaignId : Id) (campaign : LoyaltyCampaign) (sendId : Id) (customer : Contact) :
    LCall SendOutcome :=
  try
    let result ← dispatchOne orgId campaignId campaign sendId customer
    if result = .sent then withTenant (incrementSent orgId campaignId) else pure ()
    pure result.outcome
  catch err =>
    markSend orgId sendId .failed (errorMessage err)
    pure .failed

/-- The account with its customer; an account whose customer is hidden makes the query fail. -/
def readContact (orgId accountId : Id) : LTx (Option Contact) := do
  match ← findById orgId .account accountId with
  | none => pure none
  | some _ =>
    let customer ← Tx.readOrThrow .invalidQuery (contactOf orgId accountId)
    pure (some customer)

def sendToAccount (orgId campaignId accountId : Id) : LCall SendOutcome := do
  match ← withTenant (findById orgId .campaign campaignId) with
  | none => pure .skipped
  | some campaign =>
    if campaign.status = .active then
      match ← withTenant (readContact orgId accountId) with
      | none => pure .skipped
      | some customer =>
        let sendId ← withTenant (create .campaignSend { orgId, campaignId, accountId })
        sendOne orgId campaignId campaign sendId customer
    else pure .skipped

/-- The sends of one account that stop an automated campaign from being sent again. `since` is the
start of the year for a birthday and thirty days ago otherwise. -/
def isDuplicate (trigger : CampaignTrigger) (since : Time) (r : LoyaltyCampaignSend) : Bool :=
  match trigger with
  | .welcome | .tierUpgrade => r.status == .sent || r.status == .queued
  | _ => r.status == .sent && r.sentAt.any fun t => decide (since ≤ t)

def isDuplicateSend (orgId campaignId accountId : Id) (trigger : CampaignTrigger) : LCall Bool := do
  let since ← Call.input
  let existing ← withTenant (findFirst orgId .campaignSend fun _ r =>
    r.campaignId == campaignId && r.accountId == accountId && isDuplicate trigger since r)
  pure existing.isSome

def fireCampaign (orgId accountId : Id) (trigger : CampaignTrigger) (sent : ℕ)
    (campaign : Id × LoyaltyCampaign) : LCall ℕ := do
  if ← isDuplicateSend orgId campaign.1 accountId trigger then pure sent
  else
    let result ← sendToAccount orgId campaign.1 accountId
    pure (if result = .sent then sent + 1 else sent)

def fireTrigger (orgId : Id) (trigger : CampaignTrigger) (customerId : Id) : LCall ℕ := do
  if ← isEnabled orgId then
    match ← ensureAccount orgId customerId with
    | none => pure 0
    | some account =>
      let campaigns ← withTenant (findMany orgId .campaign fun _ c =>
        c.trigger == trigger && c.status == .active)
      Call.foldEach campaigns 0 (fireCampaign orgId account.id trigger)
  else pure 0

/-! ## The worker -/

/-- The row may still take the outcome of its message. -/
def unsettled (r : LoyaltyCampaignSend) : Bool := r.status == .sending || r.status == .queued

def outcomeStatus (success : Bool) : CampaignSendStatus := if success then .sent else .failed

def finalizeSend (orgId sendId : Id) (success : Bool) (error : Option String) : LCall Unit := do
  let claimed ← withTenant do
    let today ← now
    updateMany orgId .campaignSend sendId unsettled
      (marked (outcomeStatus success) error today)
  if claimed = 0 then pure ()
  else if success then
    match ← withTenant (findById orgId .campaignSend sendId) with
    | some send => withTenant (incrementSent orgId send.campaignId)
    | none => pure ()
  else pure ()

/-- The transaction of the worker: it counts a success whether or not the row has taken it. -/
def workerTx (orgId sendId : Id) (success : Bool) (error : Option String) : LTx Unit := do
  let today ← now
  let _ ← updateMany orgId .campaignSend sendId unsettled
    (marked (outcomeStatus success) error today)
  if success then
    match ← findById orgId .campaignSend sendId with
    | some send => incrementSent orgId send.campaignId
    | none => pure ()
  else pure ()

def workerFinalize (orgId sendId : Id) (success : Bool) (error : Option String) : LCall Unit :=
  withTenant (workerTx orgId sendId success error)

/-! ## Requests -/

inductive Request
  | launch (orgId campaignId : Id)
  | dispatchCampaign (orgId campaignId : Id)
  | sendToAccount (orgId campaignId accountId : Id)
  | fireTrigger (orgId : Id) (trigger : CampaignTrigger) (customerId : Id)
  | finalizeSend (orgId sendId : Id) (success : Bool) (error : Option String)
  | workerFinalize (orgId sendId : Id) (success : Bool) (error : Option String)

/-- The service call of a request, its answer left out. -/
def Request.call : Request → LCall Unit
  | launch orgId campaignId => do
    let _ ← Campaign.launch orgId campaignId
    pure ()
  | dispatchCampaign orgId campaignId => do
    let _ ← Campaign.dispatchCampaign orgId campaignId
    pure ()
  | sendToAccount orgId campaignId accountId => do
    let _ ← Campaign.sendToAccount orgId campaignId accountId
    pure ()
  | fireTrigger orgId trigger customerId => do
    let _ ← Campaign.fireTrigger orgId trigger customerId
    pure ()
  | finalizeSend orgId sendId success error => Campaign.finalizeSend orgId sendId success error
  | workerFinalize orgId sendId success error => Campaign.workerFinalize orgId sendId success error

abbrev Run := Config Db DbWrite Err Ev Unit

abbrev Hist := List (Entry Db Err Ev Unit)

def start (db : Db) (reqs : List Request) : Run := Config.init db (reqs.map Request.call)

end PatronLoyalty.Campaign
