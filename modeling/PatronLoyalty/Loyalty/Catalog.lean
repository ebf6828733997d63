import PatronLoyalty.Loyalty.Program

/-!
# The reward catalog

`LoyaltyCatalogService`: a redemption burns the cost, takes one from the stock and is created
pending, in one transaction; it is then fulfilled, or cancelled with its points and its stock
restored.
-/

namespace PatronLoyalty.Loyalty

open Txn

/-- `LoyaltyAccountEarnService.adjustPoints` inside the caller's transaction. -/
def adjustCustomerPoints (orgId customerId : Id) (points : ℤ) (description : String) :
    LTx ApplyPointsTxResult := do
  match ← findFirst orgId .account fun _ a => a.customerId == customerId with
  | none => Tx.throw accountNotFound
  | some (accountId, _) => adjustPointsInTransaction orgId accountId points description

abbrev RedemptionView := Id × LoyaltyRedemption

def RedemptionStatus.text : RedemptionStatus → String
  | .pending => "pending"
  | .fulfilled => "fulfilled"
  | .cancelled => "cancelled"

def LoyaltyReward.inStock (r : LoyaltyReward) : Bool := r.stock.any fun n => decide (0 < n)

def LoyaltyReward.addStock (n : ℤ) (r : LoyaltyReward) : LoyaltyReward :=
  { r with stock := r.stock.map (· + n) }

/-- `updateLoyaltyRewardSchema`: what is given is written, `null` included. -/
structure UpdateLoyaltyReward where
  name : Option String := none
  pointsCost : Option ℤ := none
  stock : Option (Option ℤ) := none
  active : Option Bool := none
  validFrom : Option (Option Time) := none
  validUntil : Option (Option Time) := none
  deriving DecidableEq, Repr

def LoyaltyReward.updated (data : UpdateLoyaltyReward) (r : LoyaltyReward) : LoyaltyReward :=
  { r with
    name := data.name.getD r.name
    pointsCost := data.pointsCost.getD r.pointsCost
    stock := data.stock.getD r.stock
    active := data.active.getD r.active
    validFrom := data.validFrom.getD r.validFrom
    validUntil := data.validUntil.getD r.validUntil }

def updateReward (orgId id : Id) (data : UpdateLoyaltyReward) : LCall LoyaltyReward := do
  requireEnabled orgId
  withTenant (update orgId .reward id (LoyaltyReward.updated data))

def checkAvailable (reward : LoyaltyReward) (today : Time) : LTx Unit :=
  if reward.validFrom.any fun t => decide (today < t) then
    Tx.throw (.badRequest "Reward is not yet available")
  else if reward.validUntil.any fun t => decide (t < today) then
    Tx.throw (.badRequest "Reward has expired")
  else pure ()

def takeStock (orgId rewardId : Id) (reward : LoyaltyReward) : LTx Unit :=
  if reward.stock.isSome then do
    let stockDec ← updateMany orgId .reward rewardId LoyaltyReward.inStock
      (LoyaltyReward.addStock (-1))
    if stockDec = 0 then Tx.throw (.badRequest "Reward is out of stock") else pure ()
  else pure ()

/-- The transaction of `redeemReward`. -/
def redeemTx (orgId accountId rewardId : Id) : LTx (RedemptionView × ApplyPointsTxResult) := do
  match (← findById orgId .reward rewardId).filter (·.active) with
  | none => Tx.throw (.notFound "Reward not found")
  | some reward =>
    let today ← now
    checkAvailable reward today
    let burnResult ← burnPointsInTransaction orgId accountId reward.pointsCost
      { sourceType := "reward", sourceId := toString rewardId,
        description := s!"Redeemed: {reward.name}" }
    takeStock orgId rewardId reward
    let redemption : LoyaltyRedemption :=
      { orgId, accountId, rewardId, pointsSpent := reward.pointsCost }
    let redemptionId ← create .redemption redemption
    pure ((redemptionId, redemption), burnResult)

def redeemReward (orgId customerId rewardId : Id) : LCall RedemptionView := do
  requireEnabled orgId
  let account ← getAccountByCustomerId orgId customerId
  let (redemption, burnResult) ← withTenant (redeemTx orgId account.id rewardId)
  dispatchApplyPointsSideEffects orgId account.id burnResult
    { sourceType := "reward", sourceId := toString rewardId }
  Call.fire (.rewardRedeemed orgId customerId account.id rewardId redemption.1
    redemption.2.pointsSpent)
  pure redemption

def findPending (orgId redemptionId : Id) : LTx LoyaltyRedemption := do
  match ← findById orgId .redemption redemptionId with
  | none => Tx.throw (.notFound "Redemption not found")
  | some existing =>
    if existing.status = .pending then pure existing
    else Tx.throw (.badRequest s!"Redemption is already {existing.status.text}")

/-- The conditional update that leaves `pending`. -/
def claimPending (orgId redemptionId : Id) (f : LoyaltyRedemption → LoyaltyRedemption) :
    LTx Unit := do
  let claimed ← updateMany orgId .redemption redemptionId
    (fun r => decide (r.status = .pending)) f
  if claimed = 0 then Tx.throw (.badRequest "Redemption is already fulfilled or cancelled")
  else pure ()

def LoyaltyRedemption.fulfil (today : Time) (r : LoyaltyRedemption) : LoyaltyRedemption :=
  { r with status := .fulfilled, fulfilledAt := some today }

def LoyaltyRedemption.cancel (r : LoyaltyRedemption) : LoyaltyRedemption :=
  { r with status := .cancelled }

/-- The transaction of `fulfillRedemption`. -/
def fulfillTx (orgId redemptionId : Id) : LTx RedemptionView := do
  let _ ← findPending orgId redemptionId
  let today ← now
  claimPending orgId redemptionId (LoyaltyRedemption.fulfil today)
  let redemption ← findByIdOrThrow orgId .redemption redemptionId
  pure (redemptionId, redemption)

def fulfillRedemption (orgId redemptionId : Id) : LCall RedemptionView := do
  requireEnabled orgId
  withTenant (fulfillTx orgId redemptionId)

def returnStock (orgId rewardId : Id) (reward : LoyaltyReward) : LTx Unit :=
  if reward.stock.isSome then do
    let _ ← updateMany orgId .reward rewardId (fun _ => true) (LoyaltyReward.addStock 1)
    pure ()
  else pure ()

/-- The transaction of `cancelRedemption`. -/
def cancelTx (orgId redemptionId : Id) : LTx RedemptionView := do
  let existing ← findPending orgId redemptionId
  let reward ← findByIdOrThrow orgId .reward existing.rewardId
  let account ← findByIdOrThrow orgId .account existing.accountId
  claimPending orgId redemptionId LoyaltyRedemption.cancel
  -- Restore points and stock when cancelling a pending redemption.
  let _ ← adjustCustomerPoints orgId account.customerId existing.pointsSpent
    s!"Cancelled redemption: {reward.name}"
  returnStock orgId existing.rewardId reward
  let redemption ← findByIdOrThrow orgId .redemption redemptionId
  pure (redemptionId, redemption)

def cancelRedemption (orgId redemptionId : Id) : LCall RedemptionView := do
  requireEnabled orgId
  withTenant (cancelTx orgId redemptionId)

end PatronLoyalty.Loyalty
