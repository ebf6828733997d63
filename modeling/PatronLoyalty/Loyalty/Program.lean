import Mathlib.Data.List.Sort
import PatronLoyalty.Loyalty.Points

/-!
# The loyalty program

The feature gate, `LoyaltyProgramService` and `LoyaltyAccountLifecycleService.ensureAccount`: the
program of an organisation and its earn rules, the points an event earns, and the account of a
customer, created on first use.
-/

namespace PatronLoyalty.Loyalty

open Txn

/-! ## The feature gate -/

/-- `PatronCrmFeatureService.isEnabled`: answered from a cache outside the database. -/
def isEnabled (_orgId : Id) : LCall Bool := do
  let flag ← Call.input
  pure (flag != 0)

def patronCrmDisabled : Err := .forbidden
  "Patron CRM is not enabled for this organization. Contact your platform administrator to enable it."

def requireEnabled (orgId : Id) : LCall Unit := do
  if ← isEnabled orgId then pure () else throw patronCrmDisabled

/-! ## The program of an organisation -/

def defaultTiers (orgId programId : Id) : List LoyaltyTier :=
  [⟨orgId, programId, "Bronze", "bronze", 0, 0⟩,
   ⟨orgId, programId, "Silver", "silver", 500, 1⟩,
   ⟨orgId, programId, "Gold", "gold", 1500, 2⟩,
   ⟨orgId, programId, "Platinum", "platinum", 5000, 3⟩,
   ⟨orgId, programId, "Diamond", "diamond", 10000, 4⟩]

def defaultEarnRules (orgId programId : Id) (createdAt : Time) : List LoyaltyEarnRule :=
  [{ orgId, programId, name := "Visit completed", eventType := .ticketCompleted, points := 10,
     createdAt },
   { orgId, programId, name := "Appointment completed", eventType := .appointmentCompleted,
     points := 15, createdAt },
   { orgId, programId, name := "Review submitted", eventType := .reviewSubmitted, points := 5,
     createdAt },
   { orgId, programId, name := "Purchase (1 pt per dollar)", eventType := .purchase, points := 1,
     createdAt },
   { orgId, programId, name := "Manual / POS", eventType := .manual, points := 0, createdAt }]

def createMany (k : Kind) : List (Row k) → LTx Unit
  | [] => pure ()
  | r :: rs => do
    let _ ← create k r
    createMany k rs

/-- The transaction of `getOrCreateProgram`. -/
def programTx (orgId : Id) : LTx LoyaltyProgram := do
  match ← findFirst orgId .program fun _ _ => true with
  | some (_, existing) => pure existing
  | none =>
    let programId ← create .program { orgId }
    createMany .tier (defaultTiers orgId programId)
    let createdAt ← now
    createMany .earnRule (defaultEarnRules orgId programId createdAt)
    findByIdOrThrow orgId .program programId

def getOrCreateProgram (orgId : Id) : LCall LoyaltyProgram := do
  requireEnabled orgId
  withTenant (programTx orgId)

/-- `createLoyaltyTierSchema`: what a caller may ask for. -/
structure TierData where
  name : String
  slug : String
  minLifetimePoints : ℤ
  sortOrder : Option ℤ := none
  named : name ≠ ""
  slugged : slug ≠ "" ∧ slug.toList.all fun c => c.isLower || c.isDigit || c == '-'
  valid : 0 ≤ minLifetimePoints

/-- The transaction of `createTier`; the program is read again for its identifier. -/
def createTierTx (orgId : Id) (data : TierData) : LTx Id := do
  let program ← findFirstOrThrow orgId .program fun _ _ => true
  create .tier ⟨orgId, program.1, data.name, data.slug, data.minLifetimePoints,
    data.sortOrder.getD 0⟩

def createTier (orgId : Id) (data : TierData) : LCall Id := do
  let _ ← getOrCreateProgram orgId
  withTenant (createTierTx orgId data)

/-! ## Earn rules -/

structure LineItem where
  id : String
  categoryId : Option String := none
  sku : Option String := none
  priceCents : ℤ
  quantity : ℤ
  deriving DecidableEq, Repr

/-- The context a rule is evaluated in; a field the caller leaves out is `none`. -/
structure EarnContext where
  purchaseAmountCents : Option ℤ := none
  branchId : Option String := none
  tierSlug : Option String := none
  lifetimePointsEarned : Option ℤ := none
  totalVisits : Option ℤ := none
  accountId : Option Id := none
  lineItems : List LineItem := []
  deriving DecidableEq, Repr

def RuleConditions.allow (conditions : RuleConditions) (ctx : EarnContext) : Bool :=
  (match conditions.minPurchaseCents with
    | some minPurchase => decide (minPurchase ≤ ctx.purchaseAmountCents.getD 0)
    | none => true) &&
  (match truthy conditions.branchId with
    | some branchId => ctx.branchId == some branchId
    | none => true) &&
  (if conditions.tierSlugs.isEmpty then true else
    match truthy ctx.tierSlug with
    | some tierSlug => conditions.tierSlugs.contains tierSlug
    | none => false) &&
  (match conditions.minLifetimePoints with
    | some minLifetime => decide (minLifetime ≤ ctx.lifetimePointsEarned.getD 0)
    | none => true) &&
  (!conditions.isFirstVisit || ctx.totalVisits == some 0)

def recentVisits (orgId accountId : Id) (today : Time) (s : Db) : ℕ :=
  (ledgerWhere orgId (fun l => l.accountId == accountId && l.type == .earn &&
    decide (today ≤ l.createdAt + 30 * daySeconds) &&
    (l.sourceType == some "ticket" || l.sourceType == some "appointment")) s).length

def ruleMatchesConditions (orgId : Id) (conditions : RuleConditions) (ctx : EarnContext) :
    LCall Bool :=
  if !conditions.allow ctx then pure false
  else
    match conditions.minVisits30Days with
    | some minVisits =>
      if minVisits ≤ 0 then pure true
      else
        match ctx.accountId with
        | none => pure false
        | some accountId => do
          let visits ← withTenant do
            let today ← now
            Tx.read (recentVisits orgId accountId today)
          pure (decide (minVisits ≤ (visits : ℤ)))
    | none => pure true

/-- An item counts when its category and sku pass the filters the rule has. -/
def RuleConditions.eligible (c : RuleConditions) (item : LineItem) : Bool :=
  let included (wanted : Option (List String)) (x : Option String) : Bool :=
    match wanted with
    | some (w :: ws) => (truthy x).any ((w :: ws).contains ·)
    | _ => true
  let excluded (unwanted : Option (List String)) (x : Option String) : Bool :=
    match unwanted with
    | some (w :: ws) => (truthy x).any ((w :: ws).contains ·)
    | _ => false
  included c.includedCategories item.categoryId && !excluded c.excludedCategories item.categoryId &&
    included c.includedSkus item.sku && !excluded c.excludedSkus item.sku

def RuleConditions.filtersItems (c : RuleConditions) : Bool :=
  c.includedCategories.isSome || c.excludedCategories.isSome || c.includedSkus.isSome ||
    c.excludedSkus.isSome

def eligibleAmountCents (c : RuleConditions) (ctx : EarnContext) : ℤ :=
  if !ctx.lineItems.isEmpty && c.filtersItems then
    (ctx.lineItems.filter c.eligible).foldl (fun sum i => sum + i.priceCents * i.quantity) 0
  else ctx.purchaseAmountCents.getD 0

/-- What a matching rule awards; `none` when a purchase has nothing eligible under it. -/
def LoyaltyEarnRule.award (rule : LoyaltyEarnRule) (eventType : EarnEventType)
    (ctx : EarnContext) : Option ℤ :=
  let eligible := eligibleAmountCents rule.conditions ctx
  if eventType = .purchase ∧ rule.points = 1 ∧ 0 < eligible then some (eligible / 100)
  else if eventType = .purchase ∧ eligible = 0 ∧ 0 < ctx.purchaseAmountCents.getD 0 then none
  else some rule.points

def firstAward (orgId : Id) (eventType : EarnEventType) (ctx : EarnContext) :
    List LoyaltyEarnRule → LCall (Option ℤ)
  | [] => pure none
  | rule :: rules => do
    if ← ruleMatchesConditions orgId rule.conditions ctx then
      match rule.award eventType ctx with
      | some points => pure (some points)
      | none => firstAward orgId eventType ctx rules
    else firstAward orgId eventType ctx rules

def LoyaltyProgram.fallback (program : LoyaltyProgram) (eventType : EarnEventType)
    (ctx : EarnContext) : ℤ :=
  if eventType = .purchase ∧ 0 < ctx.purchaseAmountCents.getD 0 then
    ctx.purchaseAmountCents.getD 0 / 100
  else program.defaultEarnPoints

/-- The active rules of a program for an event, by `createdAt`. -/
def activeRules (orgId programId : Id) (eventType : EarnEventType) (s : Db) :
    List LoyaltyEarnRule :=
  ((s.rows .earnRule fun _ r => r.orgId == orgId && r.programId == programId &&
    r.eventType == eventType && r.active).map (·.2)).insertionSort
      fun r r' => r.createdAt ≤ r'.createdAt

def resolveEarnPoints (orgId : Id) (eventType : EarnEventType) (ctx : EarnContext) :
    LCall ℤ := do
  if ← isEnabled orgId then
    let found ← withTenant do
      match ← findFirst orgId .program fun _ _ => true with
      | none => pure none
      | some (programId, program) =>
        let rules ← Tx.read (activeRules orgId programId eventType)
        pure (some (program, rules))
    match found with
    | none => pure 0
    | some (program, rules) =>
      if program.enabled then
        let award ← firstAward orgId eventType ctx rules
        pure (award.getD (program.fallback eventType ctx))
      else pure 0
  else pure 0

/-! ## Accounts -/

def codeAlphabet : List Char := "ABCDEFGHJKLMNPQRSTUVWXYZ23456789".toList

def generateReferralCode : ℕ → LCall (List Char)
  | 0 => pure []
  | length + 1 => do
    let byte ← Call.input
    let rest ← generateReferralCode length
    pure (codeAlphabet.getD (byte % codeAlphabet.length) 'A' :: rest)

/-- `generateUniqueReferralCode`: up to `attempts` codes of eight characters, else one of twelve. -/
def generateUniqueReferralCode (orgId : Id) : ℕ → LCall String
  | 0 => do
    let code ← generateReferralCode 12
    pure (String.ofList code)
  | attempts + 1 => do
    let code := String.ofList (← generateReferralCode 8)
    let taken ← withTenant (findFirst orgId .account fun _ a => a.referralCode == code)
    match taken with
    | none => pure code
    | some _ => generateUniqueReferralCode orgId attempts

/-- An account with what comes with it (`include: { tier: true, wallet: true }`). -/
structure AccountWithTier where
  id : Id
  row : LoyaltyAccount
  tierSlug : Option String
  wallet : Option (Id × LoyaltyWallet)
  deriving DecidableEq, Repr

def withTier (orgId : Id) (account : AccountView) : LTx AccountWithTier := do
  let wallet ← findFirst orgId .wallet fun _ w => w.accountId == account.1
  match account.2.tierId with
  | none => pure ⟨account.1, account.2, none, wallet⟩
  | some tierId =>
    let tier ← findById orgId .tier tierId
    pure ⟨account.1, account.2, tier.map (·.slug), wallet⟩

/-- `upsert where customerId`: the account of a customer, created with its wallet when there is
none. -/
def upsertAccount (orgId customerId : Id) (referralCode : String) : LTx AccountWithTier := do
  let bronzeTier ← findFirst orgId .tier fun _ t => t.slug == "bronze"
  match ← findFirst orgId .account fun _ a => a.customerId == customerId with
  | some account => withTier orgId account
  | none =>
    let account : LoyaltyAccount :=
      { orgId, customerId, tierId := bronzeTier.map (·.1), referralCode }
    checkForeignKey .customer customerId
    let id ← create .account account
    let _ ← create .wallet { orgId, accountId := id }
    withTier orgId (id, account)

/-- The account another request has created in the meantime. -/
def findAccountOrThrow (orgId customerId : Id) : LTx AccountWithTier := do
  let account ← findFirstOrThrow orgId .account fun _ a => a.customerId == customerId
  withTier orgId account

def ensureAccount (orgId customerId : Id) : LCall (Option AccountWithTier) := do
  if ← isEnabled orgId then
    let _ ← getOrCreateProgram orgId
    let referralCode ← generateUniqueReferralCode orgId 8
    let account ←
      try
        withTenant (upsertAccount orgId customerId referralCode)
      catch err =>
        -- two concurrent requests may both try to create the account
        if err == .uniqueViolation then withTenant (findAccountOrThrow orgId customerId)
        else throw err
    pure (some account)
  else pure none

def accountNotFound : Err := .notFound "Loyalty account not found"

def ensureAccountOrThrow (orgId customerId : Id) : LCall AccountWithTier := do
  match ← ensureAccount orgId customerId with
  | some account => pure account
  | none => throw accountNotFound

def getAccountByCustomerId (orgId customerId : Id) : LCall AccountWithTier := do
  requireEnabled orgId
  ensureAccountOrThrow orgId customerId

end PatronLoyalty.Loyalty
