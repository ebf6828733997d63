import PatronLoyalty.Loyalty.Referral

/-!
# Earning

`LoyaltyAccountEarnService` and `LoyaltyIntegrationService.earnPoints`: purchases at the staff
counter, queue events, the integration API and the POS webhooks behind it, manual adjustments and
expiry. Every path builds its own `EarnContext`.
-/

namespace PatronLoyalty.Loyalty

open Txn

/-! ## After an earn -/

/-- Advance challenges / badges after a real earn. Failures are logged only — points already
committed. -/
def afterEarnActivity (orgId customerId : Id) (pointsAwarded : ℤ) (incrementVisit : Bool) :
    LCall Unit :=
  try
    (if incrementVisit then incrementChallengeProgress orgId customerId .visits 1 else pure ())
    (if 0 < pointsAwarded then
      incrementChallengeProgress orgId customerId .pointsEarned pointsAwarded else pure ())
    let _ ← evaluateBadgesForAccount orgId customerId
    pure ()
  catch _ => pure ()

/-- First purchase completes any pending referral and awards advocate/friend bonuses. -/
def completeReferralOf (orgId customerId : Id) (purchase : Bool) : LCall Unit :=
  if purchase then do
    let _ ← completePendingForCustomer orgId customerId
    pure ()
  else pure ()

/-! ## The staff counter -/

def counterContext (account : AccountWithTier) (purchaseAmountCents : ℤ) : EarnContext where
  tierSlug := account.tierSlug
  lifetimePointsEarned := some account.row.lifetimePointsEarned
  purchaseAmountCents := some purchaseAmountCents
  totalVisits := some account.row.totalVisits
  accountId := some account.id

structure PurchaseResult where
  account : AccountView
  idempotent : Bool
  pointsAwarded : ℤ
  purchaseAmountCents : ℤ
  deriving DecidableEq, Repr

def noPointsAwarded : Err := .badRequest ("No points awarded for this purchase. Check Program " ++
  "→ earn rules (PURCHASE) or default earn amount.")

/-- `(cents / 100).toFixed(2)`, of an amount that is not negative. -/
def dollars (cents : ℤ) : String :=
  let fraction := if cents % 100 < 10 then "0" ++ toString (cents % 100) else toString (cents % 100)
  s!"{cents / 100}.{fraction}"

/-- `description?.trim() || …`. -/
def purchaseDescription (description : Option String) (purchaseAmountCents : ℤ) : String :=
  (trimmed description).getD s!"Purchase ${dollars purchaseAmountCents}"

def earnFromPurchase (orgId customerId : Id) (purchaseAmountCents : ℤ)
    (description : Option String) : LCall PurchaseResult := do
  requireEnabled orgId
  let account ← ensureAccountOrThrow orgId customerId
  let pointsAwarded ← resolveEarnPoints orgId .purchase (counterContext account purchaseAmountCents)
  if pointsAwarded ≤ 0 then throw noPointsAwarded
  else
    let purchaseId ← Call.input
    let result ← applyPoints orgId account.id pointsAwarded .earn {
      sourceType := "manual_purchase"
      sourceId := s!"staff-purchase-{purchaseId}"
      description := purchaseDescription description purchaseAmountCents
      incrementVisit := true }
    completeReferralOf orgId customerId true
    afterEarnActivity orgId customerId pointsAwarded true
    pure {
      account := result.account, idempotent := result.idempotent
      pointsAwarded, purchaseAmountCents }

def previewEarnFromPurchase (orgId customerId : Id) (purchaseAmountCents : ℤ) : LCall ℤ := do
  requireEnabled orgId
  let account ← ensureAccountOrThrow orgId customerId
  resolveEarnPoints orgId .purchase (counterContext account purchaseAmountCents)

/-! ## Queue events -/

/-- The context of `earnFromEvent`. -/
def eventContext (account : AccountWithTier) (branchId : Option String)
    (purchaseAmountCents : Option ℤ) : EarnContext where
  branchId := branchId
  tierSlug := account.tierSlug
  lifetimePointsEarned := some account.row.lifetimePointsEarned
  purchaseAmountCents := purchaseAmountCents
  totalVisits := some account.row.totalVisits
  accountId := some account.id

structure EventSource where
  sourceType : String
  sourceId : String
  description : Option String := none
  branchId : Option String := none
  purchaseAmountCents : Option ℤ := none
  incrementVisit : Bool := false
  deriving DecidableEq, Repr

def earnFromEvent (orgId : Id) (customerId : Option Id) (eventType : EarnEventType)
    (source : EventSource) : LCall (Option ApplyPointsResult) :=
  match customerId with
  | none => pure none
  | some customerId => do
    if ← isEnabled orgId then
      match ← ensureAccount orgId customerId with
      | none => pure none
      | some account =>
        let points ← resolveEarnPoints orgId eventType
          (eventContext account source.branchId source.purchaseAmountCents)
        if points ≤ 0 then pure none
        else
          let result ← applyPoints orgId account.id points .earn {
            sourceType := source.sourceType
            sourceId := source.sourceId
            description := source.description
            incrementVisit := source.incrementVisit }
          if result.idempotent then pure (some result)
          else
            completeReferralOf orgId customerId (eventType == .purchase)
            afterEarnActivity orgId customerId points source.incrementVisit
            pure (some result)
    else pure none

/-! ## The integration API -/

def earnIntegrationPoints (orgId accountId : Id) (points : ℤ) (sourceId : String)
    (description : String) (incrementVisit : Bool) : LCall AccountView := do
  let result ← applyPoints orgId accountId points .earn
    { sourceType := "integration", sourceId, description, incrementVisit }
  if result.idempotent then pure result.account
  else
    completeReferralOf orgId result.account.2.customerId incrementVisit
    afterEarnActivity orgId result.account.2.customerId points incrementVisit
    pure result.account

structure EarnRequest where
  customer : CustomerRef
  points : Option ℤ := none
  purchaseAmountCents : Option ℤ := none
  lineItems : List LineItem := []
  eventType : EarnEventType := .purchase
  externalTxnId : String
  description : Option String := none
  deriving DecidableEq, Repr

def integrationContext (account : AccountWithTier) (data : EarnRequest) : EarnContext where
  purchaseAmountCents := data.purchaseAmountCents
  tierSlug := account.tierSlug
  lifetimePointsEarned := some account.row.lifetimePointsEarned
  lineItems := data.lineItems

/-- A number option that JavaScript takes for true. -/
def nonzero : Option ℤ → Option ℤ
  | some 0 => none
  | n => n

def integrationPoints (orgId : Id) (account : AccountWithTier) (data : EarnRequest) :
    LCall ℤ := do
  let points ←
    match nonzero data.points, nonzero data.purchaseAmountCents with
    | some points, _ => pure points
    | none, some _ => resolveEarnPoints orgId data.eventType (integrationContext account data)
    | none, none => pure 0
  if points ≤ 0 then throw (.badRequest "Could not resolve points for transaction")
  else pure points

inductive EarnAnswer
  | duplicate (accountId : Id) (points : ℤ)
  | earned (accountId customerId : Id) (pointsBalance pointsEarned : ℤ)
  deriving DecidableEq, Repr

/-- The `idempotent` field of the answer. -/
def EarnAnswer.idempotent : EarnAnswer → Bool
  | .duplicate .. => true
  | .earned .. => false

/-- The duplicate check of `earnPoints`: over the whole organisation, in a transaction of its
own. -/
def findIntegrationEarn (orgId : Id) (externalTxnId : String) :
    LTx (Option LoyaltyPointLedger) :=
  findLedger orgId fun l => l.sourceType == some "integration" &&
    l.sourceId == some externalTxnId && l.type == .earn

def EarnEventType.text : EarnEventType → String
  | .ticketCompleted => "TICKET_COMPLETED"
  | .appointmentCompleted => "APPOINTMENT_COMPLETED"
  | .reviewSubmitted => "REVIEW_SUBMITTED"
  | .referralCompleted => "REFERRAL_COMPLETED"
  | .purchase => "PURCHASE"
  | .manual => "MANUAL"

/-- `earnPoints` past its duplicate check. -/
def earnNew (orgId : Id) (data : EarnRequest) : LCall EarnAnswer := do
  let customer ← resolveCustomerOrThrow orgId data.customer
  let account ← ensureAccountOrThrow orgId customer.1
  let points ← integrationPoints orgId account data
  let updated ← earnIntegrationPoints orgId account.id points data.externalTxnId
    (data.description.getD s!"Integration earn ({data.eventType.text})")
    (data.eventType == .purchase)
  pure (.earned updated.1 customer.1 updated.2.pointsBalance points)

/-- `LoyaltyIntegrationService.earnPoints`. -/
def earnPoints (orgId : Id) (data : EarnRequest) : LCall EarnAnswer := do
  requireEnabled orgId
  match ← withTenant (findIntegrationEarn orgId data.externalTxnId) with
  | some duplicate => pure (.duplicate duplicate.accountId duplicate.points.natAbs)
  | none => earnNew orgId data

/-! ## Adjustments, expiry, no-shows -/

def adjustPoints (orgId customerId : Id) (points : ℤ) (description : Option String) :
    LCall AccountView := do
  requireEnabled orgId
  let account ← ensureAccountOrThrow orgId customerId
  let result ← applyPoints orgId account.id points.natAbs (adjustmentType points)
    { sourceType := "manual", description := description.getD "Manual adjustment" }
  pure result.account

def lastActivity (orgId accountId : Id) : LTx (Option LoyaltyPointLedger) :=
  Tx.findFirst fun s =>
    let rows := ledgerWhere orgId (fun l => l.accountId == accountId) s
    rows.filter fun l => rows.all fun l' => decide (l'.createdAt ≤ l.createdAt)

def expireAccount (orgId : Id) (pointsExpiryDays : ℕ) (today : Time) (expired : ℕ)
    (account : AccountView) : LCall ℕ := do
  match ← withTenant (lastActivity orgId account.1) with
  | none => pure expired
  | some l =>
    if today < l.createdAt + pointsExpiryDays * daySeconds then pure expired
    else
      let _ ← applyPoints orgId account.1 account.2.pointsBalance .expire {
        sourceType := "expiry"
        description := s!"Points expired after {pointsExpiryDays} days of inactivity" }
      pure (expired + 1)

def expireInactivePoints (orgId : Id) (pointsExpiryDays : ℕ) : LCall ℕ := do
  if ← isEnabled orgId then
    if pointsExpiryDays < 1 then pure 0
    else
      let today ← Call.input
      let accounts ← withTenant
        (findMany orgId .account fun _ a => decide (0 < a.pointsBalance))
      Call.foldEach accounts 0 (expireAccount orgId pointsExpiryDays today)
  else pure 0

def LoyaltyAccount.missed (healthScore : ℤ) (r : LoyaltyAccount) : LoyaltyAccount :=
  r.withHealth (max 0 (healthScore - 20), .high)

def handleNoShow (orgId : Id) (customerId : Option Id) (sourceType sourceId : String) :
    LCall (Option AccountWithTier) :=
  match customerId with
  | none => pure none
  | some customerId => do
    if ← isEnabled orgId then
      match ← ensureAccount orgId customerId with
      | none => pure none
      | some account =>
        let _ ← withTenant
          (update orgId .account account.id (LoyaltyAccount.missed account.row.healthScore))
        Call.fire (.visitNoShow orgId customerId account.id sourceType sourceId)
        pure (some account)
    else pure none

end PatronLoyalty.Loyalty
