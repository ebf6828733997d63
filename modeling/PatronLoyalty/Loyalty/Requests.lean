import PatronLoyalty.Loyalty.Wallet

/-!
# Requests

The entry points of the loyalty subsystem as one type, so that a run is a list of requests. A
listener, a webhook or a controller that calls one of these services is such a request; a retry is
another one.
-/

namespace PatronLoyalty.Loyalty

open Txn

inductive Request
  | ensureAccount (orgId customerId : Id)
  | upsertCustomer (orgId : Id) (externalId : Option String) (data : CustomerData)
  | applyPoints (orgId accountId : Id) (points : ℤ) (type : LedgerType) (opts : PointsOpts)
  | burnPoints (orgId accountId : Id) (points : ℤ) (source : PointsOpts)
  | adjustPoints (orgId customerId : Id) (points : ℤ) (description : Option String)
  | redeemReward (orgId customerId rewardId : Id)
  | fulfillRedemption (orgId redemptionId : Id)
  | cancelRedemption (orgId redemptionId : Id)
  | incrementChallengeProgress (orgId customerId : Id) (targetType : ChallengeTargetType)
      (amount : ℤ)
  | evaluateBadges (orgId customerId : Id)
  | playPatronGame (orgId accountId : Id) (gameType : PatronGameType)
  | applyReferral (orgId : Id) (referralCode : String) (referredCustomerId : Id)
  | joinViaPublicReferral (referralCode : String) (data : CustomerData)
  | completePending (orgId referredCustomerId : Id)
  | earnFromPurchase (orgId customerId : Id) (purchaseAmountCents : ℤ)
      (description : Option String)
  | previewEarnFromPurchase (orgId customerId : Id) (purchaseAmountCents : ℤ)
  | earnFromEvent (orgId : Id) (customerId : Option Id) (eventType : EarnEventType)
      (source : EventSource)
  | earnPoints (orgId : Id) (data : EarnRequest)
  | expireInactivePoints (orgId : Id) (pointsExpiryDays : ℕ)
  | handleNoShow (orgId : Id) (customerId : Option Id) (sourceType sourceId : String)
  | getWallet (orgId customerId : Id)
  | adjustWallet (orgId customerId : Id) (data : WalletAdjust)
  | integrationAdjustWallet (orgId : Id) (customer : CustomerRef) (data : WalletAdjust)

inductive Answer
  | unit
  | account (a : Option AccountWithTier)
  | customer (id : Id)
  | balance (a : AccountView)
  | points (r : ApplyPointsResult)
  | redemption (r : RedemptionView)
  | badges (awarded : List String)
  | outcome (o : Outcome)
  | referral (r : ReferralView)
  | joined (r : JoinResult)
  | completed (r : Option LoyaltyReferral)
  | purchase (r : PurchaseResult)
  | preview (pointsAwarded : ℤ)
  | event (r : Option ApplyPointsResult)
  | earn (r : EarnAnswer)
  | expired (accounts : ℕ)
  | statement (s : WalletStatement)
  | wallet (w : WalletView)

def Request.call : Request → LCall Answer
  | ensureAccount orgId customerId => do
    let a ← Loyalty.ensureAccount orgId customerId
    pure (.account a)
  | upsertCustomer orgId externalId data => do
    let id ← Loyalty.upsertCustomer orgId externalId data
    pure (.customer id)
  | applyPoints orgId accountId points type opts => do
    let r ← Loyalty.applyPoints orgId accountId points type opts
    pure (.points r)
  | burnPoints orgId accountId points source => do
    let a ← Loyalty.burnPoints orgId accountId points source
    pure (.balance a)
  | adjustPoints orgId customerId points description => do
    let a ← Loyalty.adjustPoints orgId customerId points description
    pure (.balance a)
  | redeemReward orgId customerId rewardId => do
    let r ← Loyalty.redeemReward orgId customerId rewardId
    pure (.redemption r)
  | fulfillRedemption orgId redemptionId => do
    let r ← Loyalty.fulfillRedemption orgId redemptionId
    pure (.redemption r)
  | cancelRedemption orgId redemptionId => do
    let r ← Loyalty.cancelRedemption orgId redemptionId
    pure (.redemption r)
  | incrementChallengeProgress orgId customerId targetType amount => do
    Loyalty.incrementChallengeProgress orgId customerId targetType amount
    pure .unit
  | evaluateBadges orgId customerId => do
    let awarded ← evaluateBadgesForAccount orgId customerId
    pure (.badges awarded)
  | playPatronGame orgId accountId gameType => do
    let o ← Loyalty.playPatronGame orgId accountId gameType
    pure (.outcome o)
  | applyReferral orgId referralCode referredCustomerId => do
    let r ← Loyalty.applyReferral orgId referralCode referredCustomerId
    pure (.referral r)
  | joinViaPublicReferral referralCode data => do
    let r ← Loyalty.joinViaPublicReferral referralCode data
    pure (.joined r)
  | completePending orgId referredCustomerId => do
    let r ← completePendingForCustomer orgId referredCustomerId
    pure (.completed r)
  | earnFromPurchase orgId customerId purchaseAmountCents description => do
    let r ← Loyalty.earnFromPurchase orgId customerId purchaseAmountCents description
    pure (.purchase r)
  | previewEarnFromPurchase orgId customerId purchaseAmountCents => do
    let points ← Loyalty.previewEarnFromPurchase orgId customerId purchaseAmountCents
    pure (.preview points)
  | earnFromEvent orgId customerId eventType source => do
    let r ← Loyalty.earnFromEvent orgId customerId eventType source
    pure (.event r)
  | earnPoints orgId data => do
    let r ← Loyalty.earnPoints orgId data
    pure (.earn r)
  | expireInactivePoints orgId pointsExpiryDays => do
    let n ← Loyalty.expireInactivePoints orgId pointsExpiryDays
    pure (.expired n)
  | handleNoShow orgId customerId sourceType sourceId => do
    let a ← Loyalty.handleNoShow orgId customerId sourceType sourceId
    pure (.account a)
  | getWallet orgId customerId => do
    let s ← Loyalty.getWallet orgId customerId
    pure (.statement s)
  | adjustWallet orgId customerId data => do
    let w ← Loyalty.adjustWallet orgId customerId data
    pure (.wallet w)
  | integrationAdjustWallet orgId customer data => do
    let w ← Loyalty.integrationAdjustWallet orgId customer data
    pure (.wallet w)

abbrev Run := Config Db DbWrite Err Ev Answer

abbrev Hist := List (Entry Db Err Ev Answer)

/-- The requests `reqs` over the store `db`, none of them started. -/
def start (db : Db) (reqs : List Request) : Run := Config.init db (reqs.map Request.call)

/-- The request has committed a transaction, be it a read. -/
def checked (h : Hist) : Bool := h.any fun
  | .commit _ _ => true
  | _ => false

theorem checked_snoc {h : Hist} {e : Entry Db Err Ev Answer} :
    checked (h ++ [e]) = (checked h || checked [e]) := List.any_append

end PatronLoyalty.Loyalty
