import PatronLoyalty.Txn.Relational

/-!
# The loyalty schema

Rows, unique indexes, errors and events of the loyalty subsystem, and the Prisma statements its
services are written with, over the relational store of `Txn.Relational`.

* Primary keys are generated identifiers (`Id`); a generated identifier, a clock reading and a
  cached feature flag are inputs of the environment.
* The point ledger is the log of the store: ledger rows are only ever appended, in commit order.
* Row-level security: a statement under `withTenant orgId` sees and updates only the rows of that
  organisation (`visible`), in every table that carries a tenant policy.
* Columns no modelled function reads are left out. An `INTEGER` column is an integer; a statement
  that would overflow it fails, which is one of the database failures a run may contain anyway.
-/

namespace PatronLoyalty.Loyalty

open Txn

/-- A generated identifier. -/
abbrev Id := ℕ

/-- A clock reading, in seconds. -/
abbrev Time := ℕ

def daySeconds : ℕ := 86400

/-! ## Enumerations -/

/-- `LOYALTY_POINT_LEDGER_TYPES`. -/
inductive LedgerType
  | earn | burn | expire | bonus | adjust
  deriving DecidableEq, Repr

/-- `LOYALTY_EARN_EVENT_TYPES`. -/
inductive EarnEventType
  | ticketCompleted | appointmentCompleted | reviewSubmitted | referralCompleted | purchase | manual
  deriving DecidableEq, Repr

/-- `LOYALTY_REDEMPTION_STATUSES`. -/
inductive RedemptionStatus
  | pending | fulfilled | cancelled
  deriving DecidableEq, Repr

inductive ReferralStatus
  | pending | completed
  deriving DecidableEq, Repr

/-- `LOYALTY_CHALLENGE_TARGET_TYPES`. -/
inductive ChallengeTargetType
  | visits | pointsEarned | referrals
  deriving DecidableEq, Repr

/-- `LOYALTY_PATRON_GAME_TYPES`. -/
inductive PatronGameType
  | spinWheel | scratchCard
  deriving DecidableEq, Repr

/-- `LOYALTY_WALLET_TX_TYPES`. -/
inductive WalletTxType
  | credit | debit | refund | cashback | bonus | gift
  deriving DecidableEq, Repr

/-- `LOYALTY_CAMPAIGN_STATUSES`. -/
inductive CampaignStatus
  | draft | scheduled | active | paused | completed
  deriving DecidableEq, Repr

/-- `LOYALTY_CAMPAIGN_SEND_STATUSES`. -/
inductive CampaignSendStatus
  | queued | sending | sent | failed | skipped
  deriving DecidableEq, Repr

/-- `LOYALTY_CAMPAIGN_TRIGGERS`. -/
inductive CampaignTrigger
  | welcome | birthday | winBack | tierUpgrade | abandoned | manual
  deriving DecidableEq, Repr

inductive ChurnRisk
  | low | medium | high
  deriving DecidableEq, Repr

inductive CustomerSegmentPreset
  | repeatVisitors90d | appointmentNoShowLast | lowRatingReview | marketingSmsOptedIn | loyaltyVip
  | loyaltyInactive90d | loyaltyHighLtv | loyaltyRfmChampions | loyaltyAtRisk
  deriving DecidableEq, Repr

/-! ## Rows -/

structure LoyaltyProgram where
  orgId : Id
  enabled : Bool := true
  defaultEarnPoints : ℤ := 10
  referralBonusPoints : ℤ := 50
  referredBonusPoints : ℤ := 25
  deriving DecidableEq, Repr

structure LoyaltyTier where
  orgId : Id
  programId : Id
  name : String
  slug : String
  minLifetimePoints : ℤ
  sortOrder : ℤ
  deriving DecidableEq, Repr

/-- The JSON object `conditions` of an earn rule. A key that is absent, or whose value the reader
ignores by its `typeof`, is `none`. -/
structure RuleConditions where
  minPurchaseCents : Option ℤ := none
  branchId : Option String := none
  tierSlugs : List String := []
  minLifetimePoints : Option ℤ := none
  isFirstVisit : Bool := false
  minVisits30Days : Option ℤ := none
  includedCategories : Option (List String) := none
  excludedCategories : Option (List String) := none
  includedSkus : Option (List String) := none
  excludedSkus : Option (List String) := none
  deriving DecidableEq, Repr

structure LoyaltyEarnRule where
  orgId : Id
  programId : Id
  name : String
  eventType : EarnEventType
  points : ℤ
  active : Bool := true
  conditions : RuleConditions := {}
  createdAt : Time
  deriving DecidableEq, Repr

structure LoyaltyAccount where
  orgId : Id
  customerId : Id
  tierId : Option Id
  pointsBalance : ℤ := 0
  lifetimePointsEarned : ℤ := 0
  lifetimePointsBurned : ℤ := 0
  referralCode : String
  totalVisits : ℤ := 0
  healthScore : ℤ := 50
  churnRisk : ChurnRisk := .low
  lifetimeValueCents : ℤ := 0
  deriving DecidableEq, Repr

structure LoyaltyPointLedger where
  orgId : Id
  accountId : Id
  type : LedgerType
  points : ℤ
  balanceAfter : ℤ
  sourceType : Option String
  sourceId : Option String
  description : Option String
  createdAt : Time
  deriving DecidableEq, Repr

structure LoyaltyWallet where
  orgId : Id
  accountId : Id
  balanceCents : ℤ := 0
  deriving DecidableEq, Repr

/-- A row of a wallet's statement. -/
structure LoyaltyWalletTransaction where
  orgId : Id
  walletId : Id
  type : WalletTxType
  amountCents : ℤ
  balanceAfter : ℤ
  description : Option String := none
  sourceType : Option String := none
  createdAt : Time
  deriving DecidableEq, Repr

structure LoyaltyReward where
  orgId : Id
  name : String
  pointsCost : ℤ
  stock : Option ℤ
  active : Bool := true
  validFrom : Option Time := none
  validUntil : Option Time := none
  deriving DecidableEq, Repr

structure LoyaltyRedemption where
  orgId : Id
  accountId : Id
  rewardId : Id
  pointsSpent : ℤ
  status : RedemptionStatus := .pending
  fulfilledAt : Option Time := none
  deriving DecidableEq, Repr

structure LoyaltyCoupon where
  orgId : Id
  code : String
  maxUses : Option ℤ := none
  usedCount : ℤ := 0
  active : Bool := true
  validFrom : Option Time := none
  validUntil : Option Time := none
  tierSlugs : List String := []
  deriving DecidableEq, Repr

structure LoyaltyCouponRedemption where
  orgId : Id
  couponId : Id
  accountId : Id
  deriving DecidableEq, Repr

structure LoyaltyReferral where
  orgId : Id
  referrerAccountId : Id
  referredCustomerId : Id
  referredAccountId : Option Id
  status : ReferralStatus := .pending
  referrerBonusPoints : ℤ := 0
  referredBonusPoints : ℤ := 0
  completedAt : Option Time := none
  deriving DecidableEq, Repr

structure LoyaltyChallenge where
  orgId : Id
  name : String
  targetType : ChallengeTargetType
  targetValue : ℤ
  rewardPoints : ℤ := 0
  startAt : Option Time := none
  endAt : Option Time := none
  active : Bool := true
  deriving DecidableEq, Repr

structure CustomerChallengeProgress where
  orgId : Id
  accountId : Id
  challengeId : Id
  progress : ℤ := 0
  completedAt : Option Time := none
  deriving DecidableEq, Repr

structure LoyaltyBadge where
  orgId : Id
  name : String
  minVisits : Option ℤ := none
  minPoints : Option ℤ := none
  active : Bool := true
  deriving DecidableEq, Repr

structure CustomerBadge where
  orgId : Id
  accountId : Id
  badgeId : Id
  deriving DecidableEq, Repr

structure LoyaltyPatronGamePlay where
  orgId : Id
  accountId : Id
  gameType : PatronGameType
  resultLabel : String
  pointsAwarded : ℤ := 0
  playedAt : Time
  deriving DecidableEq, Repr

/-- The JSON object `metadata` of a customer. -/
structure CustomerMetadata where
  tags : List String := []
  notes : String := ""
  externalId : Option String := none
  deriving DecidableEq, Repr

/-- The columns of a customer the loyalty app collects. -/
structure CustomerProfile where
  birthday : Option String := none
  gender : Option String := none
  addressLine1 : Option String := none
  city : Option String := none
  region : Option String := none
  postalCode : Option String := none
  country : Option String := none
  deriving DecidableEq, Repr

structure Customer where
  orgId : Id
  name : String
  email : Option String := none
  phone : Option String := none
  externalId : Option String := none
  metadata : Option CustomerMetadata := none
  marketingSmsConsent : String := "REVOKED"
  marketingEmailConsent : String := "REVOKED"
  marketingConsentSource : Option String := none
  profile : CustomerProfile := {}
  deriving DecidableEq, Repr

structure LoyaltyCampaign where
  orgId : Id
  name : String
  channel : String
  trigger : CampaignTrigger := .manual
  status : CampaignStatus := .draft
  subject : Option String := none
  body : Option String := none
  segmentPreset : Option String := none
  sentCount : ℤ := 0
  deriving DecidableEq, Repr

structure LoyaltyCampaignSend where
  orgId : Id
  campaignId : Id
  accountId : Id
  status : CampaignSendStatus := .queued
  sentAt : Option Time := none
  error : Option String := none
  deriving DecidableEq, Repr

/-- The columns of a queue ticket the health score, the segments and the directory read. -/
structure Ticket where
  orgId : Id
  customerId : Option Id
  customerPhone : Option String
  completed : Bool
  completedAt : Option Time
  served : Bool := false
  customerEmail : Option String := none
  branchId : Id := 0
  bookedAt : Time := 0
  deriving DecidableEq, Repr

structure Visit where
  orgId : Id
  customerPhone : Option String
  customerEmail : Option String
  startedAt : Time
  deriving DecidableEq, Repr

structure Appointment where
  orgId : Id
  branchId : Id
  customerPhone : Option String
  customerEmail : Option String
  scheduledAt : Time
  status : String
  deriving DecidableEq, Repr

structure Review where
  orgId : Id
  customerName : String
  customerEmail : Option String
  rating : ℤ
  deriving DecidableEq, Repr

/-- The JSON object `filters` of a saved segment. -/
structure CustomerSegmentFilters where
  preset : Option CustomerSegmentPreset := none
  branchId : Option Id := none
  search : Option String := none
  deriving DecidableEq, Repr

/-- A saved segment; `filters` is `none` when the column holds no object. -/
structure CustomerSegment where
  orgId : Id
  filters : Option CustomerSegmentFilters
  deriving DecidableEq, Repr

/-- The assignment of a role of the organisation `orgId` to a user. -/
structure RoleAssignment where
  orgId : Id
  userId : Id
  branchId : Option Id
  roleName : String
  deriving DecidableEq, Repr

/-- The tables. -/
inductive Kind
  | program | tier | earnRule | account | wallet | walletTransaction | reward | redemption
  | referral | challenge | progress | badge | customerBadge | gamePlay | customer | ticket
  | campaign | campaignSend | visit | appointment | review | customerSegment | roleAssignment
  | coupon | couponRedemption
  deriving DecidableEq, Repr

abbrev Row : Kind → Type
  | .program => LoyaltyProgram
  | .tier => LoyaltyTier
  | .earnRule => LoyaltyEarnRule
  | .account => LoyaltyAccount
  | .wallet => LoyaltyWallet
  | .walletTransaction => LoyaltyWalletTransaction
  | .reward => LoyaltyReward
  | .redemption => LoyaltyRedemption
  | .referral => LoyaltyReferral
  | .challenge => LoyaltyChallenge
  | .progress => CustomerChallengeProgress
  | .badge => LoyaltyBadge
  | .customerBadge => CustomerBadge
  | .gamePlay => LoyaltyPatronGamePlay
  | .customer => Customer
  | .ticket => Ticket
  | .campaign => LoyaltyCampaign
  | .campaignSend => LoyaltyCampaignSend
  | .visit => Visit
  | .appointment => Appointment
  | .review => Review
  | .customerSegment => CustomerSegment
  | .roleAssignment => RoleAssignment
  | .coupon => LoyaltyCoupon
  | .couponRedemption => LoyaltyCouponRedemption

instance : (k : Kind) → DecidableEq (Row k)
  | .program => inferInstanceAs (DecidableEq LoyaltyProgram)
  | .tier => inferInstanceAs (DecidableEq LoyaltyTier)
  | .earnRule => inferInstanceAs (DecidableEq LoyaltyEarnRule)
  | .account => inferInstanceAs (DecidableEq LoyaltyAccount)
  | .wallet => inferInstanceAs (DecidableEq LoyaltyWallet)
  | .walletTransaction => inferInstanceAs (DecidableEq LoyaltyWalletTransaction)
  | .reward => inferInstanceAs (DecidableEq LoyaltyReward)
  | .redemption => inferInstanceAs (DecidableEq LoyaltyRedemption)
  | .referral => inferInstanceAs (DecidableEq LoyaltyReferral)
  | .challenge => inferInstanceAs (DecidableEq LoyaltyChallenge)
  | .progress => inferInstanceAs (DecidableEq CustomerChallengeProgress)
  | .badge => inferInstanceAs (DecidableEq LoyaltyBadge)
  | .customerBadge => inferInstanceAs (DecidableEq CustomerBadge)
  | .gamePlay => inferInstanceAs (DecidableEq LoyaltyPatronGamePlay)
  | .customer => inferInstanceAs (DecidableEq Customer)
  | .ticket => inferInstanceAs (DecidableEq Ticket)
  | .campaign => inferInstanceAs (DecidableEq LoyaltyCampaign)
  | .campaignSend => inferInstanceAs (DecidableEq LoyaltyCampaignSend)
  | .visit => inferInstanceAs (DecidableEq Visit)
  | .appointment => inferInstanceAs (DecidableEq Appointment)
  | .review => inferInstanceAs (DecidableEq Review)
  | .customerSegment => inferInstanceAs (DecidableEq CustomerSegment)
  | .roleAssignment => inferInstanceAs (DecidableEq RoleAssignment)
  | .coupon => inferInstanceAs (DecidableEq LoyaltyCoupon)
  | .couponRedemption => inferInstanceAs (DecidableEq LoyaltyCouponRedemption)

def orgOf : (k : Kind) → Row k → Id
  | .program, r => r.orgId
  | .tier, r => r.orgId
  | .earnRule, r => r.orgId
  | .account, r => r.orgId
  | .wallet, r => r.orgId
  | .walletTransaction, r => r.orgId
  | .reward, r => r.orgId
  | .redemption, r => r.orgId
  | .referral, r => r.orgId
  | .challenge, r => r.orgId
  | .progress, r => r.orgId
  | .badge, r => r.orgId
  | .customerBadge, r => r.orgId
  | .gamePlay, r => r.orgId
  | .customer, r => r.orgId
  | .ticket, r => r.orgId
  | .campaign, r => r.orgId
  | .campaignSend, r => r.orgId
  | .visit, r => r.orgId
  | .appointment, r => r.orgId
  | .review, r => r.orgId
  | .customerSegment, r => r.orgId
  | .roleAssignment, r => r.orgId
  | .coupon, r => r.orgId
  | .couponRedemption, r => r.orgId

/-! ## Unique indexes -/

inductive UniqueKey
  | program (orgId : Id)
  | tierSlug (orgId : Id) (slug : String)
  | accountCustomer (customerId : Id)
  | accountCode (orgId : Id) (referralCode : String)
  | wallet (accountId : Id)
  | referred (accountId : Id)
  | progress (accountId challengeId : Id)
  | customerBadge (accountId badgeId : Id)
  | customerExternal (orgId : Id) (externalId : String)
  | couponCode (orgId : Id) (code : String)
  | earnSource (orgId accountId : Id) (sourceType sourceId : String)
  deriving DecidableEq, Repr

def uniqueKeys : (k : Kind) → Row k → List UniqueKey
  | .program, r => [.program r.orgId]
  | .tier, r => [.tierSlug r.orgId r.slug]
  | .account, r => [.accountCustomer r.customerId, .accountCode r.orgId r.referralCode]
  | .wallet, r => [.wallet r.accountId]
  | .referral, r => (r.referredAccountId.map UniqueKey.referred).toList
  | .progress, r => [.progress r.accountId r.challengeId]
  | .customerBadge, r => [.customerBadge r.accountId r.badgeId]
  | .customer, r => (r.externalId.map (UniqueKey.customerExternal r.orgId)).toList
  | .coupon, r => [.couponCode r.orgId r.code]
  | .earnRule, _ | .reward, _ | .redemption, _ | .challenge, _ | .badge, _ | .gamePlay, _
  | .ticket, _ | .walletTransaction, _ | .campaign, _ | .campaignSend, _ | .visit, _
  | .appointment, _ | .review, _ | .customerSegment, _ | .roleAssignment, _
  | .couponRedemption, _ => []

def isEarnSourceIdempotentType (type : LedgerType) : Bool := type == .earn || type == .bonus

/-- `loyalty_point_ledger_earn_source_idempotent_idx`: partial, over the EARN and BONUS rows with
a source; the type is not part of the key. -/
def ledgerKeys (l : LoyaltyPointLedger) : List UniqueKey :=
  match isEarnSourceIdempotentType l.type, l.sourceType, l.sourceId with
  | true, some st, some sid => [.earnSource l.orgId l.accountId st sid]
  | _, _, _ => []

instance : Keyed Row LoyaltyPointLedger UniqueKey where
  keys := uniqueKeys
  logKeys := ledgerKeys

/-! ## Errors and events -/

/-- What a service throws: an HTTP exception, a Prisma error, or a failure of the database. -/
inductive Err
  | badRequest (message : String)
  | notFound (message : String)
  | forbidden (message : String)
  | conflict (message : String)
  /-- `P2002` -/
  | uniqueViolation
  /-- `P2003` -/
  | foreignKeyViolation
  /-- `P2025` -/
  | recordNotFound
  /-- A query Prisma does not accept. -/
  | invalidQuery
  | database (message : String)
  deriving DecidableEq, Repr

instance : Faulty Err where
  fault
    | .database _ => true
    | _ => false

/-- What a service emits beside the store. -/
inductive Ev
  | tierUpgraded (orgId accountId : Id) (slug : String)
  | pointsEarned (orgId customerId accountId : Id) (points balanceAfter : ℤ)
      (sourceType sourceId : Option String)
  | pointsRedeemed (orgId customerId accountId : Id) (points balanceAfter : ℤ)
      (sourceType sourceId : Option String)
  | rewardRedeemed (orgId customerId accountId rewardId redemptionId : Id) (pointsSpent : ℤ)
  | visitNoShow (orgId customerId accountId : Id) (sourceType sourceId : String)
  | syncProfile (orgId customerId : Id)
  | customerCreated (orgId customerId : Id)
  /-- `notifications.send` of a campaign message -/
  | notify (orgId campaignId sendId customerId : Id) (channel recipient subject body : String)
  deriving DecidableEq, Repr

abbrev Db := Rel Row LoyaltyPointLedger
abbrev DbWrite := Rel.Write Row LoyaltyPointLedger
abbrev DbLock := Rel.Lock Kind UniqueKey

/-- A transaction of the loyalty services. -/
abbrev LTx := Tx Db DbWrite Err

/-- A request to the loyalty services. -/
abbrev LCall := Call Db DbWrite Err Ev

/-! ## Statements -/

def tenantPolicy : Kind → Bool
  | .progress | .customerBadge => false
  | _ => true

/-- Row-level security under `withTenant orgId`. -/
def visible (orgId : Id) (k : Kind) (r : Row k) : Bool := !tenantPolicy k || orgOf k r == orgId

def findFirst (orgId : Id) (k : Kind) (p : Id → Row k → Bool) : LTx (Option (Id × Row k)) :=
  Tx.findFirst fun s => s.rows k fun id r => visible orgId k r && p id r

def findFirstOrThrow (orgId : Id) (k : Kind) (p : Id → Row k → Bool) : LTx (Id × Row k) := do
  match ← findFirst orgId k p with
  | some r => pure r
  | none => Tx.throw .recordNotFound

/-- `findFirst` with an `orderBy`: a row that is last in the order `le`. -/
def findLast (orgId : Id) (k : Kind) (p : Id → Row k → Bool) (le : Row k → Row k → Bool) :
    LTx (Option (Id × Row k)) :=
  Tx.findFirst fun s =>
    let rows := s.rows k fun id r => visible orgId k r && p id r
    rows.filter fun r => rows.all fun r' => le r'.2 r.2

/-- An unordered query: in the order of the table. -/
def findMany (orgId : Id) (k : Kind) (p : Id → Row k → Bool) : LTx (List (Id × Row k)) :=
  Tx.read fun s => s.rows k fun id r => visible orgId k r && p id r

def findById (orgId : Id) (k : Kind) (id : Id) : LTx (Option (Row k)) :=
  Tx.read fun s => (s.get k id).filter (visible orgId k)

def findByIdOrThrow (orgId : Id) (k : Kind) (id : Id) : LTx (Row k) :=
  Tx.readOrThrow .recordNotFound fun s => (s.get k id).filter (visible orgId k)

/-- `create`, under a generated identifier. -/
def create (k : Kind) (r : Row k) : LTx Id := do
  let id ← Tx.input
  Rel.insert Err.uniqueViolation k id r
  pure id

/-- The foreign key of a row that is inserted: the row it names exists, in whatever organisation. -/
def checkForeignKey (k : Kind) (id : Id) : LTx Unit :=
  Tx.readOrThrow .foreignKeyViolation fun s => (s.get k id).map fun _ => ()

/-- `update where id`. -/
def update (orgId : Id) (k : Kind) (id : Id) (f : Row k → Row k) : LTx (Row k) :=
  Rel.modify Err.recordNotFound Err.uniqueViolation k id fun r =>
    if visible orgId k r then .ok (f r) else .error .recordNotFound

/-- `updateMany where id and p`: the number of rows changed. -/
def updateMany (orgId : Id) (k : Kind) (id : Id) (p : Row k → Bool) (f : Row k → Row k) : LTx ℕ :=
  Rel.modifyIf Err.uniqueViolation k id (fun r => visible orgId k r && p r) fun r => .ok (f r)

def createLedger (l : LoyaltyPointLedger) : LTx Unit := Rel.insertLog Err.uniqueViolation l

/-- The ledger rows of the organisation that satisfy `p`, oldest first. -/
def ledgerWhere (orgId : Id) (p : LoyaltyPointLedger → Bool) (s : Db) : List LoyaltyPointLedger :=
  s.log.filter fun l => l.orgId == orgId && p l

def findLedger (orgId : Id) (p : LoyaltyPointLedger → Bool) : LTx (Option LoyaltyPointLedger) :=
  Tx.findFirst (ledgerWhere orgId p)

/-- `prisma.withTenant`. -/
def withTenant {α : Type} (t : LTx α) : LCall α := Call.withTx t

/-- `new Date()`. -/
def now : LTx Time := Tx.now

def truthy : Option String → Option String
  | some "" => none
  | s => s

theorem truthy_some {x : String} (h : x ≠ "") : truthy (some x) = some x := by
  unfold truthy
  split
  · rename_i he
    exact absurd (Option.some.inj he) h
  · rfl

/-- ECMAScript `WhiteSpace` and `LineTerminator`. -/
def isSpace (c : Char) : Bool :=
  (9 ≤ c.toNat && c.toNat ≤ 13) || (0x2000 ≤ c.toNat && c.toNat ≤ 0x200A) ||
    [0x20, 0xA0, 0x1680, 0x2028, 0x2029, 0x202F, 0x205F, 0x3000, 0xFEFF].contains c.toNat

/-- `trim`, of the characters of a string. -/
def trimChars (cs : List Char) : List Char :=
  (((cs.dropWhile isSpace).reverse).dropWhile isSpace).reverse

def trim (s : String) : String := String.ofList (trimChars s.toList)

end PatronLoyalty.Loyalty
