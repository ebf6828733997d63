import PatronLoyalty.Loyalty.Gamification

/-!
# Referrals

`LoyaltyReferralService`, and the customer lookup of `LoyaltyIntegrationService` that the public
referral page joins through. A referral starts pending; the first qualifying purchase of the
referred customer completes it, in several transactions: both bonuses, the challenge progress of
the referrer, then the status.
-/

namespace PatronLoyalty.Loyalty

open Txn

/-! ## Customers -/

structure CustomerRef where
  customerId : Option Id := none
  email : Option String := none
  phone : Option String := none
  externalId : Option String := none
  deriving DecidableEq, Repr

def digits (s : String) : String := String.ofList (s.toList.filter Char.isDigit)

/-- `slice(-n)`. -/
def lastChars (n : ℕ) (s : String) : String := String.ofList (s.toList.drop (s.length - n))

def containsText (s t : String) : Bool := (s.toList.tails).any fun r => t.toList.isPrefixOf r

/-- `customerPhoneOr`: exact, or containing the last ten digits. -/
def phoneMatches (phone : String) (c : Customer) : Bool :=
  let trimmed := trim phone
  let normalized := digits trimmed
  trimmed != "" && (c.phone == some trimmed ||
    (decide (10 ≤ normalized.length) &&
      c.phone.any fun p => containsText p (lastChars 10 normalized)))

def resolveByEmail (orgId : Id) (ref : CustomerRef) : LTx (Option (Id × Customer)) :=
  match truthy ref.email with
  | none => pure none
  | some email => findFirst orgId .customer fun _ c => c.email == some (trim email)

def resolveByPhone (orgId : Id) (ref : CustomerRef) : LTx (Option (Id × Customer)) :=
  match truthy ref.phone with
  | none => pure none
  | some phone => findFirst orgId .customer fun _ c => phoneMatches phone c

/-- By the indexed column, then by the legacy `metadata->>'externalId'`, whose column is filled
in. -/
def resolveByExternalId (orgId : Id) (legacyMetadataLookup : Bool) (ref : CustomerRef) :
    LTx (Option (Id × Customer)) :=
  match truthy ref.externalId with
  | none => pure none
  | some externalId => do
    match ← findFirst orgId .customer fun _ c => c.externalId == some (trim externalId) with
    | some found => pure (some found)
    | none =>
      if !legacyMetadataLookup then pure none
      else
        match ← findFirst orgId .customer fun _ c =>
          c.metadata.any fun m => m.externalId == some (trim externalId) with
        | none => pure none
        | some (id, legacy) =>
          if truthy legacy.externalId = none then do
            let _ ← update orgId .customer id fun c => { c with externalId := trim externalId }
            pure (some (id, legacy))
          else pure (some (id, legacy))

/-- The transaction of `resolveCustomer`. -/
def resolveCustomerTx (orgId : Id) (legacyMetadataLookup : Bool) (ref : CustomerRef) :
    LTx (Option (Id × Customer)) :=
  match ref.customerId with
  | some customerId => do
    let found ← findById orgId .customer customerId
    pure (found.map fun c => (customerId, c))
  | none => do
    match ← resolveByEmail orgId ref with
    | some found => pure (some found)
    | none =>
      match ← resolveByPhone orgId ref with
      | some found => pure (some found)
      | none => resolveByExternalId orgId legacyMetadataLookup ref

/-- `resolveCustomer`; the legacy lookup is switched by the process environment. -/
def resolveCustomer (orgId : Id) (ref : CustomerRef) : LCall (Option (Id × Customer)) := do
  let legacy ← Call.input
  withTenant (resolveCustomerTx orgId (legacy != 0) ref)

def resolveCustomerOrThrow (orgId : Id) (ref : CustomerRef) : LCall (Id × Customer) := do
  match ← resolveCustomer orgId ref with
  | some customer => pure customer
  | none => throw (.notFound "Patron not found")

structure CustomerData where
  name : String
  email : Option String := none
  phone : Option String := none
  deriving DecidableEq, Repr

/-- `value?.trim() || null`. -/
def trimmed (s : Option String) : Option String := truthy (s.map trim)

def createCustomer (orgId : Id) (data : CustomerData) : LCall Id := do
  requireEnabled orgId
  let email := trimmed data.email
  let phone := trimmed data.phone
  let duplicate ← withTenant (findFirst orgId .customer fun _ c =>
    (email.isSome && c.email == email) || (phone.isSome && c.phone == phone))
  match duplicate with
  | some _ => throw (.conflict "A patron with this email or phone already exists")
  | none =>
    let id ← withTenant (create .customer { orgId, name := trim data.name, email, phone })
    Call.fire (.customerCreated orgId id)
    pure id

/-- `parseCustomerMetadata` and `mergeCustomerMetadata`: blank tags go, the rest stays. -/
def mergedMetadata (existing : Option CustomerMetadata) (externalId : String) : CustomerMetadata :=
  match existing with
  | none => { externalId }
  | some m => { m with tags := m.tags.filter fun t => trim t != "", externalId }

/-- `upsertCustomer`: the customer a connector or the public referral page speaks of. -/
def upsertCustomer (orgId : Id) (externalId : Option String) (data : CustomerData) : LCall Id := do
  requireEnabled orgId
  let externalId := externalId.map trim
  match ← resolveCustomer orgId
      { email := trimmed data.email, phone := trimmed data.phone, externalId } with
  | some (id, existing) =>
    let rename (c : Customer) : Customer :=
      match truthy externalId with
      | some ext => { c with
          externalId := ext, metadata := mergedMetadata existing.metadata ext, name := trim data.name }
      | none => { c with name := trim data.name }
    let _ ← withTenant (update orgId .customer id rename)
    let _ ← ensureAccount orgId id
    pure id
  | none =>
    let id ← createCustomer orgId
      { name := data.name, email := trimmed data.email, phone := trimmed data.phone }
    match truthy externalId with
    | some ext =>
      let _ ← withTenant (update orgId .customer id fun c =>
        { c with externalId := ext, metadata := mergedMetadata none ext })
      let _ ← ensureAccount orgId id
      pure id
    | none =>
      let _ ← ensureAccount orgId id
      pure id

/-! ## Applying a referral -/

abbrev ReferralView := Id × LoyaltyReferral

/-- Attach a referrer code to a customer. Starts as pending until first purchase completes the
referral and awards program bonus amounts. -/
def applyReferral (orgId : Id) (referralCode : String) (referredCustomerId : Id) :
    LCall ReferralView := do
  requireEnabled orgId
  let program ← getOrCreateProgram orgId
  let referrer ← withTenant
    (findFirst orgId .account fun _ a => a.referralCode == referralCode.toUpper)
  match referrer with
  | none => throw (.notFound "Referral code not found")
  | some referrer =>
    if referrer.2.customerId = referredCustomerId then throw (.badRequest "Cannot refer yourself")
    else
      match ← ensureAccount orgId referredCustomerId with
      | none => throw (.badRequest "Could not create loyalty account")
      | some referredAccount =>
        let existing ← withTenant
          (findFirst orgId .referral fun _ r => r.referredCustomerId == referredCustomerId)
        match existing with
        | some (_, r) =>
          if r.status = .completed then
            throw (.badRequest "Customer already has a completed referral")
          else throw (.badRequest "Customer already has a pending referral")
        | none =>
          let referral : LoyaltyReferral := {
            orgId, referredCustomerId
            referrerAccountId := referrer.1
            referredAccountId := some referredAccount.id
            referrerBonusPoints := program.referralBonusPoints
            referredBonusPoints := program.referredBonusPoints }
          let id ← withTenant (create .referral referral)
          pure (id, referral)

/-! ## Completing a referral -/

def advocateKey (referralId : Id) : String := s!"{referralId}:advocate"

def welcomeKey (referralId : Id) : String := s!"{referralId}:welcome"

/-- A bonus of a referral, when the row has one. -/
def payBonus (orgId accountId : Id) (points : ℤ) (sourceId description : String) : LCall Unit :=
  if 0 < points then do
    let _ ← applyPoints orgId accountId points .bonus
      { sourceType := "referral", sourceId, description }
    pure ()
  else pure ()

/-- Challenge progress is best-effort; referral bonuses already applied. -/
def advanceReferrals (orgId : Id) (referrer : Option LoyaltyAccount) : LCall Unit :=
  match referrer with
  | none => pure ()
  | some referrer =>
    try incrementChallengeProgress orgId referrer.customerId .referrals 1
    catch _ => pure ()

def LoyaltyReferral.complete (referredAccountId : Id) (today : Time) (r : LoyaltyReferral) :
    LoyaltyReferral :=
  { r with status := .completed, completedAt := some today, referredAccountId }

def completeTx (orgId referralId referredAccountId : Id) : LTx LoyaltyReferral := do
  let today ← now
  update orgId .referral referralId (LoyaltyReferral.complete referredAccountId today)

def findPendingReferral (orgId referredCustomerId : Id) :
    LTx (Option (ReferralView × Option LoyaltyAccount)) := do
  match ← findFirst orgId .referral
      fun _ r => r.referredCustomerId == referredCustomerId && r.status == .pending with
  | none => pure none
  | some pending =>
    let referrer ← findById orgId .account pending.2.referrerAccountId
    pure (some (pending, referrer))

def referredAccount (orgId : Id) (pending : LoyaltyReferral) : LCall (Option Id) :=
  match pending.referredAccountId with
  | some accountId => pure (some accountId)
  | none => do
    let account ← ensureAccount orgId pending.referredCustomerId
    pure (account.map (·.id))

/-- The steps past the lookup: both bonuses, the challenge, the status. -/
def completeReferral (orgId : Id) (pending : ReferralView) (referrer : Option LoyaltyAccount)
    (referredAccountId : Id) : LCall LoyaltyReferral := do
  payBonus orgId pending.2.referrerAccountId pending.2.referrerBonusPoints
    (advocateKey pending.1) "Referral bonus (advocate)"
  payBonus orgId referredAccountId pending.2.referredBonusPoints
    (welcomeKey pending.1) "Welcome referral bonus"
  advanceReferrals orgId referrer
  withTenant (completeTx orgId pending.1 referredAccountId)

def completePendingForCustomer (orgId referredCustomerId : Id) :
    LCall (Option LoyaltyReferral) := do
  if ← isEnabled orgId then
    match ← withTenant (findPendingReferral orgId referredCustomerId) with
    | none => pure none
    | some (pending, referrer) =>
      match ← referredAccount orgId pending.2 with
      | none => pure none
      | some referredAccountId =>
        let completed ← completeReferral orgId pending referrer referredAccountId
        pure (some completed)
  else pure none

/-! ## The public referral page -/

/-- The account of a referral code in any organisation (`withBypassRls`). -/
def findReferrer (referralCode : String) : LTx (Option AccountView) :=
  Tx.findFirst fun s => s.rows .account fun _ a => a.referralCode == referralCode.toUpper

structure JoinResult where
  referralApplied : Bool
  referralStatus : ReferralStatus
  portalCode : Option String
  pointsBalance : ℤ
  referredBonusPoints : ℤ
  deriving DecidableEq, Repr

/-- `getPublicReferralLanding`: the organisation of the code and the bonus it offers. -/
def getPublicReferralLanding (referralCode : String) : LCall (Option ℤ) := do
  let referrer ← Call.withTx do
    match ← findReferrer referralCode with
    | none => pure none
    | some referrer =>
      let program ← Tx.read fun s =>
        (s.rows .program fun _ p => p.orgId == referrer.2.orgId).head?
      pure (some (referrer, program))
  match referrer with
  | none => pure none
  | some (referrer, program) =>
    if ← isEnabled referrer.2.orgId then
      pure (some (((program.map fun p => p.2.referredBonusPoints)).getD 25))
    else pure none

def joinViaPublicReferral (referralCode : String) (data : CustomerData) : LCall JoinResult := do
  match ← getPublicReferralLanding referralCode with
  | none => throw (.notFound "Referral code not found")
  | some referredBonusPoints =>
    match ← Call.withTx (findReferrer referralCode) with
    | none => throw (.notFound "Referral code not found")
    | some (_, referrer) =>
      let customerId ← upsertCustomer referrer.orgId none
        { name := trim data.name, email := trimmed data.email, phone := trimmed data.phone }
      if customerId = referrer.customerId then
        throw (.badRequest "Cannot join using your own referral code")
      else
        let existingReferral ← withTenant
          (findFirst referrer.orgId .referral fun _ r => r.referredCustomerId == customerId)
        match existingReferral with
        | some _ => pure ()
        | none =>
          let _ ← applyReferral referrer.orgId referralCode customerId
        let account ← withTenant
          (findFirst referrer.orgId .account fun _ a => a.customerId == customerId)
        pure {
          referralApplied := existingReferral.isNone
          referralStatus := (existingReferral.map (·.2.status)).getD .pending
          portalCode := account.map (·.2.referralCode)
          pointsBalance := (account.map (·.2.pointsBalance)).getD 0
          referredBonusPoints }

end PatronLoyalty.Loyalty
