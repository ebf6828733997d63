import PatronLoyalty.Loyalty.Schema

/-!
# Points

`LoyaltyPointsMetricsService`, `LoyaltyPointsLedgerService` and `LoyaltyPointsService`: one
transaction moves the balance of an account, appends the ledger row and refreshes the tier and the
health score; `applyPoints` runs it and turns a duplicate earn into an idempotent answer.
-/

namespace PatronLoyalty.Loyalty

open Txn

structure PointsOpts where
  sourceType : Option String := none
  sourceId : Option String := none
  description : Option String := none
  incrementVisit : Bool := false
  deriving DecidableEq, Repr

/-- An account with its identifier, as the services hand it on. -/
abbrev AccountView := Id × LoyaltyAccount

structure ApplyPointsTxResult where
  finalAccount : AccountView
  type : LedgerType
  points : ℤ
  delta : ℤ
  customerId : Id
  idempotent : Bool
  tierUpgradeSlug : Option String := none

structure ApplyPointsResult where
  account : AccountView
  idempotent : Bool
  deriving DecidableEq, Repr

/-- Debits that must atomically decrement balance (never credit). -/
def isDebitLedgerType (type : LedgerType) : Bool := type == .burn || type == .expire

def isLifetimeEarnType (type : LedgerType) : Bool := type == .earn || type == .bonus

/-! ## Metrics -/

def resolveTierForPoints (orgId : Id) (lifetimePoints : ℤ) : LTx (Option (Id × LoyaltyTier)) :=
  findLast orgId .tier (fun _ t => decide (t.minLifetimePoints ≤ lifetimePoints))
    fun t t' => decide (t.minLifetimePoints ≤ t'.minLifetimePoints)

/-- `completedAt desc`, where `NULL` comes first. -/
def completedNoLaterThan (t t' : Ticket) : Bool :=
  match t.completedAt, t'.completedAt with
  | _, none => true
  | none, some _ => false
  | some a, some b => decide (a ≤ b)

def healthOf (account : LoyaltyAccount) (lastVisit : Option Time) (now : Time) : ℤ × ChurnRisk :=
  let visits : ℤ :=
    if account.totalVisits ≥ 10 then 20 else if account.totalVisits ≥ 3 then 10 else 0
  let earned : ℤ := if account.lifetimePointsEarned ≥ 500 then 15 else 0
  let (recency, churnRisk) : ℤ × ChurnRisk :=
    match lastVisit with
    | some completedAt =>
      if now ≤ completedAt + 30 * daySeconds then (15, .low)
      else if now ≤ completedAt + 90 * daySeconds then (0, .medium)
      else (-20, .high)
    | none => (-10, .high)
  (max 0 (min 100 (50 + visits + earned + recency)), churnRisk)

def LoyaltyAccount.withHealth (account : LoyaltyAccount) (h : ℤ × ChurnRisk) : LoyaltyAccount :=
  { account with healthScore := h.1, churnRisk := h.2 }

def refreshHealthScore (orgId accountId : Id) : LTx Unit := do
  match ← findById orgId .account accountId with
  | none => pure ()
  | some account =>
    let customer ← findById orgId .customer account.customerId
    let phone := truthy (customer.bind (·.phone))
    let recentVisit ← findLast orgId .ticket
      (fun _ t => t.completed && (t.customerId == some account.customerId ||
        (phone.isSome && t.customerPhone == phone)))
      completedNoLaterThan
    let today ← now
    let _ ← update orgId .account accountId fun r =>
      r.withHealth (healthOf account (recentVisit.bind (·.2.completedAt)) today)
    pure ()

/-! ## The ledger transaction -/

def LoyaltyAccount.debited (points : ℤ) (type : LedgerType) (r : LoyaltyAccount) :
    LoyaltyAccount :=
  { r with
    pointsBalance := r.pointsBalance - points
    lifetimePointsBurned := r.lifetimePointsBurned + if type == .burn then points else 0 }

def LoyaltyAccount.credited (points : ℤ) (type : LedgerType) (incrementVisit : Bool)
    (r : LoyaltyAccount) : LoyaltyAccount :=
  { r with
    pointsBalance := r.pointsBalance + points
    lifetimePointsEarned := r.lifetimePointsEarned + if isLifetimeEarnType type then points else 0
    totalVisits := r.totalVisits + if incrementVisit then 1 else 0 }

/-- BURN and EXPIRE both remove balance atomically. Only BURN counts toward lifetime burned. -/
def debitAccount (orgId accountId : Id) (points : ℤ) (type : LedgerType) : LTx LoyaltyAccount := do
  let burned ← updateMany orgId .account accountId (fun r => decide (points ≤ r.pointsBalance))
    (LoyaltyAccount.debited points type)
  if burned = 0 then
    match ← findById orgId .account accountId with
    | none => Tx.throw (.notFound "Loyalty account not found")
    | some _ => Tx.throw (.badRequest (if type = .expire then
        "Insufficient points balance to expire" else "Insufficient points balance"))
  else findByIdOrThrow orgId .account accountId

/-- EARN / BONUS / ADJUST: atomic increment avoids lost updates under concurrent earns. -/
def creditAccount (orgId accountId : Id) (points : ℤ) (type : LedgerType)
    (incrementVisit : Bool) : LTx LoyaltyAccount := do
  let credited ← updateMany orgId .account accountId (fun _ => true)
    (LoyaltyAccount.credited points type incrementVisit)
  if credited = 0 then Tx.throw (.notFound "Loyalty account not found")
  else findByIdOrThrow orgId .account accountId

def moveBalance (orgId accountId : Id) (points : ℤ) (type : LedgerType) (incrementVisit : Bool) :
    LTx LoyaltyAccount :=
  if isDebitLedgerType type then debitAccount orgId accountId points type
  else creditAccount orgId accountId points type incrementVisit

def upgradeTier (orgId accountId : Id) (accountAfter : LoyaltyAccount) :
    LTx (Option String) := do
  match ← resolveTierForPoints orgId accountAfter.lifetimePointsEarned with
  | none => pure none
  | some (tierId, tier) =>
    if accountAfter.tierId = some tierId then pure none
    else do
      let _ ← update orgId .account accountId fun r => { r with tierId := some tierId }
      pure (some tier.slug)

/-- `applyPointsInTransaction` past its idempotency lookup. -/
def postPoints (orgId accountId : Id) (points : ℤ) (type : LedgerType) (opts : PointsOpts) :
    LTx ApplyPointsTxResult := do
  let accountAfter ← moveBalance orgId accountId points type opts.incrementVisit
  let delta := if isDebitLedgerType type then -points else points
  let createdAt ← now
  createLedger {
    orgId, accountId, type
    points := delta
    balanceAfter := accountAfter.pointsBalance
    sourceType := opts.sourceType
    sourceId := opts.sourceId
    description := opts.description
    createdAt }
  let tierUpgradeSlug ← upgradeTier orgId accountId accountAfter
  refreshHealthScore orgId accountId
  let finalAccount ← findByIdOrThrow orgId .account accountId
  pure {
    finalAccount := (accountId, finalAccount)
    type, points, delta
    customerId := accountAfter.customerId
    idempotent := false
    tierUpgradeSlug }

def findExistingEarnLedger (orgId accountId : Id) (type : LedgerType)
    (sourceType sourceId : String) : LTx (Option LoyaltyPointLedger) :=
  findLedger orgId fun l => l.accountId == accountId && l.sourceType == some sourceType &&
    l.sourceId == some sourceId && l.type == type

def earnSource (type : LedgerType) (opts : PointsOpts) : Option (String × String) :=
  if isEarnSourceIdempotentType type then
    match truthy opts.sourceType, truthy opts.sourceId with
    | some sourceType, some sourceId => some (sourceType, sourceId)
    | _, _ => none
  else none

def applyPointsInTransaction (orgId accountId : Id) (points : ℤ) (type : LedgerType)
    (opts : PointsOpts) : LTx ApplyPointsTxResult := do
  if points ≤ 0 then Tx.throw (.badRequest "Points amount must be positive")
  else
    match earnSource type opts with
    | none => postPoints orgId accountId points type opts
    | some (sourceType, sourceId) =>
      match ← findExistingEarnLedger orgId accountId type sourceType sourceId with
      | none => postPoints orgId accountId points type opts
      | some existing =>
        let finalAccount ← findByIdOrThrow orgId .account accountId
        pure {
          finalAccount := (accountId, finalAccount)
          type
          points := existing.points.natAbs
          delta := 0
          customerId := finalAccount.customerId
          idempotent := true }

/-! ## Requests -/

def runApplyPoints (orgId accountId : Id) (points : ℤ) (type : LedgerType) (opts : PointsOpts) :
    LCall ApplyPointsTxResult :=
  withTenant (applyPointsInTransaction orgId accountId points type opts)

def isDuplicateEarnError (err : Err) (type : LedgerType) (opts : PointsOpts) : Bool :=
  err == .uniqueViolation && (earnSource type opts).isSome

def loadIdempotentEarnResult (orgId accountId : Id) (type : LedgerType)
    (sourceType sourceId : String) : LCall ApplyPointsResult :=
  withTenant do
    match ← findExistingEarnLedger orgId accountId type sourceType sourceId with
    | none => Tx.throw (.badRequest "Duplicate earn source could not be resolved")
    | some _ =>
      let account ← findByIdOrThrow orgId .account accountId
      pure { account := (accountId, account), idempotent := true }

/-- Webhook and marketing sync of a movement that was committed. -/
def sideEffects (orgId accountId : Id) (result : ApplyPointsTxResult) (opts : PointsOpts) :
    List Ev :=
  if result.idempotent then []
  else
    (match truthy result.tierUpgradeSlug with
      | some slug => [.tierUpgraded orgId accountId slug]
      | none => []) ++
    (if result.type = .earn ∨ result.type = .bonus ∨ result.type = .adjust ∧ 0 < result.delta then
      [.pointsEarned orgId result.customerId result.finalAccount.1 result.points
        result.finalAccount.2.pointsBalance opts.sourceType opts.sourceId,
       .syncProfile orgId result.customerId]
    else []) ++
    (if result.type = .burn then
      [.pointsRedeemed orgId result.customerId result.finalAccount.1 result.points
        result.finalAccount.2.pointsBalance opts.sourceType opts.sourceId]
    else [])

def dispatchApplyPointsSideEffects (orgId accountId : Id) (result : ApplyPointsTxResult)
    (opts : PointsOpts) : LCall Unit :=
  Call.fireAll (sideEffects orgId accountId result opts)

def applyPoints (orgId accountId : Id) (points : ℤ) (type : LedgerType) (opts : PointsOpts) :
    LCall ApplyPointsResult :=
  try
    let result ← runApplyPoints orgId accountId points type opts
    if result.idempotent then pure { account := result.finalAccount, idempotent := true }
    else
      dispatchApplyPointsSideEffects orgId accountId result opts
      pure { account := result.finalAccount, idempotent := false }
  catch err =>
    if isDuplicateEarnError err type opts then
      loadIdempotentEarnResult orgId accountId type (opts.sourceType.getD "")
        (opts.sourceId.getD "")
    else throw err

def burnPoints (orgId accountId : Id) (points : ℤ) (source : PointsOpts) : LCall AccountView := do
  let result ← applyPoints orgId accountId points .burn source
  pure result.account

/-- `burnPoints` inside the caller's transaction. -/
def burnPointsInTransaction (orgId accountId : Id) (points : ℤ) (source : PointsOpts) :
    LTx ApplyPointsTxResult :=
  applyPointsInTransaction orgId accountId points .burn source

def adjustmentType (points : ℤ) : LedgerType := if 0 < points then .adjust else .burn

def adjustPointsInTransaction (orgId accountId : Id) (points : ℤ) (description : Option String) :
    LTx ApplyPointsTxResult :=
  applyPointsInTransaction orgId accountId points.natAbs (adjustmentType points)
    { sourceType := "manual", description := description.getD "Manual adjustment" }

end PatronLoyalty.Loyalty
