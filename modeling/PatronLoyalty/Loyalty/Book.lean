import PatronLoyalty.Loyalty.Statements

/-!
# The loyalty book

What the services are for, without their code: a book of accounts, ledger rows, redemptions and
referrals that changes in a few kinds of steps. `Step P` is that abstract machine; `P` is the policy
the ledger rows obey. A step is guarded by what makes it legitimate: a debit by the balance, a
redemption by its burn and the stock, a completed referral by its bonuses.

Results: **`Step.grows`**, no step takes anything off the record (ledger rows are appended, rows
keep what is not theirs to change); **`Step.wellKept`**, every step keeps the unique indexes and the
referred account of a referral.
-/

namespace PatronLoyalty.Loyalty

open Txn Relation

/-! ## What may change in a row -/

/-- What later versions of a row keep. -/
def Evolves : (k : Kind) → Row k → Row k → Prop
  | .account, r, r' => r'.orgId = r.orgId ∧ r'.customerId = r.customerId
  | .reward, r, r' => ∃ stock : Option ℤ, r' = { r with stock } ∧ stock.isSome = r.stock.isSome
  | .redemption, r, r' => r'.orgId = r.orgId ∧ r'.accountId = r.accountId ∧
      r'.rewardId = r.rewardId ∧ r'.pointsSpent = r.pointsSpent ∧
      (r.status ≠ .pending → r'.status = r.status)
  | .referral, r, r' => r'.orgId = r.orgId ∧ r'.referrerAccountId = r.referrerAccountId ∧
      r'.referredCustomerId = r.referredCustomerId ∧
      r'.referrerBonusPoints = r.referrerBonusPoints ∧
      r'.referredBonusPoints = r.referredBonusPoints ∧
      (r.status = .completed → r'.status = .completed) ∧
      ∀ x, r.referredAccountId = some x → r'.referredAccountId = some x
  | .progress, r, r' => r'.accountId = r.accountId ∧ r'.challengeId = r.challengeId
  | .customer, r, r' => r'.orgId = r.orgId
  | .wallet, r, r' => r'.orgId = r.orgId ∧ r'.accountId = r.accountId
  | _, r, r' => r' = r

theorem Evolves.refl (k : Kind) (r : Row k) : Evolves k r r := by
  cases k
  case reward => exact ⟨r.stock, rfl, rfl⟩
  all_goals simp [Evolves]

theorem Evolves.trans {k : Kind} {r r' r'' : Row k} (h : Evolves k r r') (h' : Evolves k r' r'') :
    Evolves k r r'' := by
  cases k
  case reward =>
    obtain ⟨n, rfl, hn⟩ := h
    obtain ⟨m, rfl, hm⟩ := h'
    exact ⟨m, rfl, hm.trans hn⟩
  case redemption =>
    obtain ⟨h1, h2, h3, h4, h5⟩ := h
    obtain ⟨g1, g2, g3, g4, g5⟩ := h'
    exact ⟨g1.trans h1, g2.trans h2, g3.trans h3, g4.trans h4, fun hs =>
      (g5 (by rw [h5 hs]; exact hs)).trans (h5 hs)⟩
  case referral =>
    obtain ⟨h1, h2, h3, h4, h5, h6, h7⟩ := h
    obtain ⟨g1, g2, g3, g4, g5, g6, g7⟩ := h'
    exact ⟨g1.trans h1, g2.trans h2, g3.trans h3, g4.trans h4, g5.trans h5,
      fun hs => g6 (h6 hs), fun x hx => g7 x (h7 x hx)⟩
  case account => exact ⟨h'.1.trans h.1, h'.2.trans h.2⟩
  case progress => exact ⟨h'.1.trans h.1, h'.2.trans h.2⟩
  case wallet => exact ⟨h'.1.trans h.1, h'.2.trans h.2⟩
  all_goals exact Eq.trans h' h

/-- Nothing is taken off the record. -/
structure Grows (a b : Db) : Prop where
  log : a.log <+: b.log
  row {k : Kind} {id : Id} {r : Row k} :
    a.get k id = some r → ∃ r', b.get k id = some r' ∧ Evolves k r r'

theorem Grows.refl (a : Db) : Grows a a := ⟨List.prefix_rfl, fun h => ⟨_, h, Evolves.refl _ _⟩⟩

theorem Grows.trans {c : Db} (h : Grows a b) (h' : Grows b c) : Grows a c where
  log := h.log.trans h'.log
  row hr := by
    obtain ⟨r', hr', he⟩ := h.row hr
    obtain ⟨r'', hr'', he'⟩ := h'.row hr'
    exact ⟨r'', hr'', he.trans he'⟩

theorem Grows.mem_log (h : Grows a b) {l : LoyaltyPointLedger} (hl : l ∈ a.log) :
    l ∈ b.log := h.log.subset hl

theorem grows_of_replaced {k : Kind} {id : Id} {old : Option (Row k)} {new : Row k}
    (h : Rel.Replaced k id old new a b) (he : ∀ r, old = some r → Evolves k r new) :
    Grows a b where
  log := by simp [h.log]
  row {k' id' r} hr := by
    by_cases hid : (k', id') = (k, id)
    · cases hid
      exact ⟨new, h.get_self, he r (h.get_old.symm.trans hr)⟩
    · exact ⟨r, by rw [h.get_ne hid]; exact hr, Evolves.refl _ _⟩

theorem grows_of_pushed {l : LoyaltyPointLedger} (h : Rel.Pushed l a b) : Grows a b where
  log := by rw [h.log]; exact List.prefix_append _ _
  row hr := ⟨_, by rw [h.get]; exact hr, Evolves.refl _ _⟩

/-! ## Movements of points -/

/-- An account up to its standing: tier, health score and churn risk. -/
def LoyaltyAccount.core (r : LoyaltyAccount) : LoyaltyAccount :=
  { r with tierId := none, healthScore := 0, churnRisk := .low }

structure Movement where
  orgId : Id
  accountId : Id
  points : ℤ
  type : LedgerType
  opts : PointsOpts
  createdAt : Time

namespace Movement

/-- The `points` column of its ledger row. -/
def delta (m : Movement) : ℤ := if isDebitLedgerType m.type then -m.points else m.points

def row (m : Movement) (balanceAfter : ℤ) : LoyaltyPointLedger where
  orgId := m.orgId
  accountId := m.accountId
  type := m.type
  points := m.delta
  balanceAfter := balanceAfter
  sourceType := m.opts.sourceType
  sourceId := m.opts.sourceId
  description := m.opts.description
  createdAt := m.createdAt

def move (m : Movement) (r : LoyaltyAccount) : LoyaltyAccount :=
  if isDebitLedgerType m.type then r.debited m.points m.type
  else r.credited m.points m.type m.opts.incrementVisit

theorem move_balance (m : Movement) (r : LoyaltyAccount) :
    (m.move r).pointsBalance = r.pointsBalance + m.delta := by
  unfold move delta
  split
  · exact Int.sub_eq_add_neg
  · rfl

end Movement

/-- **A movement**: the account `r` becomes `r'` and the ledger row is appended. -/
structure Posts (m : Movement) (r r' : LoyaltyAccount) (a b : Db) : Prop where
  positive : 0 < m.points
  found : a.get .account m.accountId = some r
  org : r.orgId = m.orgId
  funds : isDebitLedgerType m.type = true → m.points ≤ r.pointsBalance
  moved : r'.core = (m.move r).core
  free : ∀ u ∈ ledgerKeys (m.row (m.move r).pointsBalance), a.logAt u = []
  result : b = (a.set .account m.accountId r').push (m.row (m.move r).pointsBalance)

theorem move_identity (m : Movement) (r : LoyaltyAccount) :
    (m.move r).orgId = r.orgId ∧ (m.move r).customerId = r.customerId ∧
      (m.move r).referralCode = r.referralCode := by
  unfold Movement.move
  split <;> exact ⟨rfl, rfl, rfl⟩

theorem core_eq {r r' : LoyaltyAccount} (h : r'.core = r.core) :
    r'.orgId = r.orgId ∧ r'.customerId = r.customerId ∧ r'.referralCode = r.referralCode ∧
      r'.pointsBalance = r.pointsBalance ∧ r'.lifetimePointsEarned = r.lifetimePointsEarned ∧
      r'.lifetimePointsBurned = r.lifetimePointsBurned ∧ r'.totalVisits = r.totalVisits := by
  cases r
  cases r'
  simp only [LoyaltyAccount.core, LoyaltyAccount.mk.injEq] at h
  obtain ⟨h1, h2, -, h3, h4, h5, h6, h7, -, -⟩ := h
  exact ⟨h1, h2, h6, h3, h4, h5, h7⟩

namespace Posts

variable {m : Movement} {r r' : LoyaltyAccount} {a b : Db}

theorem identity (h : Posts m r r' a b) :
    r'.orgId = r.orgId ∧ r'.customerId = r.customerId ∧ r'.referralCode = r.referralCode := by
  obtain ⟨h1, h2, h3, -⟩ := core_eq h.moved
  obtain ⟨g1, g2, g3⟩ := move_identity m r
  exact ⟨h1.trans g1, h2.trans g2, h3.trans g3⟩

/-- The account update of a movement. -/
theorem replaced (h : Posts m r r' a b) :
    Rel.Replaced .account m.accountId (some r) r' a (a.set .account m.accountId r') := by
  obtain ⟨h1, h2, h3⟩ := h.identity
  refine ⟨h.found, Rel.clashes_of_keys_eq ?_, rfl⟩
  show uniqueKeys .account r' = uniqueKeys .account r
  simp only [uniqueKeys, h1, h2, h3]

/-- The ledger row of a movement. -/
theorem pushed (h : Posts m r r' a b) :
    Rel.Pushed (m.row (m.move r).pointsBalance) (a.set .account m.accountId r') b :=
  ⟨fun u hu => by
    show (a.set .account m.accountId r').log.filter _ = []
    rw [Rel.log_set]
    exact h.free u hu, h.result⟩

theorem get_self (h : Posts m r r' a b) : b.get .account m.accountId = some r' := by
  rw [h.pushed.get]
  exact h.replaced.get_self

theorem get_ne (h : Posts m r r' a b) {k : Kind} {id : Id}
    (hne : (k, id) ≠ (.account, m.accountId)) : b.get k id = a.get k id := by
  rw [h.pushed.get, h.replaced.get_ne hne]

theorem log (h : Posts m r r' a b) : b.log = a.log ++ [m.row (m.move r).pointsBalance] := by
  rw [h.pushed.log, h.replaced.log]

theorem balance (h : Posts m r r' a b) : r'.pointsBalance = r.pointsBalance + m.delta := by
  obtain ⟨-, -, -, hb, -⟩ := core_eq h.moved
  rw [hb, m.move_balance]

theorem grows (h : Posts m r r' a b) : Grows a b :=
  (grows_of_replaced h.replaced fun q hq => by
    cases hq
    exact ⟨h.identity.1, h.identity.2.1⟩).trans (grows_of_pushed h.pushed)

theorem unique (h : Posts m r r' a b) (ha : Rel.Unique a) : Rel.Unique b :=
  h.pushed.unique (h.replaced.unique ha)

end Posts

/-! ## Rewards and redemptions -/

def TakesStock (rewardId : Id) (counted : Bool) (a b : Db) : Prop :=
  if counted then ∃ w : LoyaltyReward, w.inStock = true ∧
    Rel.Replaced .reward rewardId (some w) (w.addStock (-1)) a b
  else b = a

def ReturnsStock (rewardId : Id) (counted : Bool) (a b : Db) : Prop :=
  if counted then ∃ w : LoyaltyReward, Rel.Replaced .reward rewardId (some w) (w.addStock 1) a b
  else b = a

theorem addStock_evolves (n : ℤ) (w : LoyaltyReward) : Evolves .reward w (w.addStock n) :=
  ⟨_, rfl, by simp⟩

/-- **A redemption**: burn, stock, row. -/
structure Redeems (m : Movement) (r r' : LoyaltyAccount) (reward : LoyaltyReward)
    (rewardId redemptionId : Id) (a b : Db) : Prop where
  offered : a.get .reward rewardId = some reward
  burn : m.type = .burn
  cost : m.points = reward.pointsCost
  steps : ∃ a₁ a₂, Posts m r r' a a₁ ∧ TakesStock rewardId reward.stock.isSome a₁ a₂ ∧
    Rel.Replaced .redemption redemptionId none
      { orgId := m.orgId, accountId := m.accountId, rewardId, pointsSpent := reward.pointsCost } a₂ b

/-- **A cancellation**: status, refund, stock. -/
structure Cancels (x : LoyaltyRedemption) (redemptionId : Id) (m : Movement)
    (r r' : LoyaltyAccount) (reward : LoyaltyReward) (a b : Db) : Prop where
  pending : x.status = .pending
  offered : a.get .reward x.rewardId = some reward
  type : m.type = adjustmentType x.pointsSpent
  points : m.points = x.pointsSpent.natAbs
  holder : ∃ q : LoyaltyAccount, a.get .account x.accountId = some q ∧ q.customerId = r.customerId
  steps : ∃ a₁ a₂, Rel.Replaced .redemption redemptionId (some x) x.cancel a a₁ ∧
    Posts m r r' a₁ a₂ ∧ ReturnsStock x.rewardId reward.stock.isSome a₂ b

/-! ## Challenges and games -/

structure Bumps (accountId challengeId : Id) (amount : ℤ) (id : Id)
    (old : Option CustomerChallengeProgress) (p : CustomerChallengeProgress) (a b : Db) : Prop where
  account : p.accountId = accountId
  challenge : p.challengeId = challengeId
  progress : p.progress = (old.elim 0 (·.progress)) + amount
  completedAt : p.completedAt = old.bind (·.completedAt)
  kept : ∀ q, old = some q → Evolves .progress q p
  result : Rel.Replaced .progress id old p a b

/-- A manual movement, if any. -/
def Rewards (a b : Db) : Prop :=
  b = a ∨ ∃ m r r', m.opts.sourceType = some "manual" ∧ Posts m r r' a b

/-- **A challenge advances**: the event is counted, and a challenge that reaches its target is
completed and pays its reward. -/
def Advances (accountId challengeId : Id) (amount targetValue : ℤ) (a b : Db) : Prop :=
  ∃ id old p a₁, Bumps accountId challengeId amount id old p a a₁ ∧
    (b = a₁ ∨ ∃ today a₂, p.completedAt = none ∧ targetValue ≤ p.progress ∧
      Rel.Replaced .progress id (some p) (p.complete targetValue today) a₁ a₂ ∧ Rewards a₂ b)

def PaysReward (customerId : Id) (rewardPoints : ℤ) (a b : Db) : Prop :=
  if 0 < rewardPoints then ∃ (m : Movement) (r r' : LoyaltyAccount),
    m.opts.sourceType = some "manual" ∧ r.customerId = customerId ∧ m.delta = rewardPoints ∧
      Posts m r r' a b
  else b = a

/-- **A challenge progresses** for a customer: the call is counted, and a challenge that is open and
reaches its target is completed, with its reward. -/
def Progresses (customerId accountId challengeId : Id) (amount : ℤ) (w : LoyaltyChallenge)
    (a b : Db) : Prop :=
  ∃ id old p a₁, Bumps accountId challengeId amount id old p a a₁ ∧
    if p.completedAt = none ∧ w.targetValue ≤ p.progress then
      ∃ today a₂, Rel.Replaced .progress id (some p) (p.complete w.targetValue today) a₁ a₂ ∧
        PaysReward customerId w.rewardPoints a₂ b
    else b = a₁

theorem PaysReward.rewards {customerId : Id} {rewardPoints : ℤ}
    (h : PaysReward customerId rewardPoints a b) : Rewards a b := by
  unfold PaysReward at h
  split at h
  · obtain ⟨m, r, r', hsrc, -, -, hp⟩ := h
    exact Or.inr ⟨m, r, r', hsrc, hp⟩
  · exact Or.inl h

theorem Progresses.advances {customerId accountId challengeId : Id} {amount : ℤ}
    {w : LoyaltyChallenge} (h : Progresses customerId accountId challengeId amount w a b) :
    Advances accountId challengeId amount w.targetValue a b := by
  obtain ⟨id, old, p, a1, hb, hrest⟩ := h
  refine ⟨id, old, p, a1, hb, ?_⟩
  split at hrest
  · rename_i hdone
    obtain ⟨today, a2, hr, hp⟩ := hrest
    exact Or.inr ⟨today, a2, hdone.1, hdone.2, hr, hp.rewards⟩
  · exact Or.inl hrest

/-! ## Referrals -/

/-- A bonus of a referral that is on the ledger. -/
def Credited (orgId accountId : Id) (sourceId : String) (s : Db) : Prop :=
  ∃ l ∈ s.log, l.orgId = orgId ∧ l.accountId = accountId ∧ l.type = .bonus ∧
    l.sourceType = some "referral" ∧ l.sourceId = some sourceId

/-- **A new referral** is pending, between two accounts of different customers. -/
structure Refers (id : Id) (r : LoyaltyReferral) (a b : Db) : Prop where
  pending : r.status = .pending
  referrer : ∃ q : LoyaltyAccount, a.get .account r.referrerAccountId = some q ∧
    q.customerId ≠ r.referredCustomerId
  referred : ∃ (x : Id) (q : LoyaltyAccount), r.referredAccountId = some x ∧
    a.get .account x = some q ∧ q.customerId = r.referredCustomerId
  result : Rel.Replaced .referral id none r a b

/-- **A completed referral** has its bonuses on the ledger. -/
structure Completes (id : Id) (r : LoyaltyReferral) (x : Id) (today : Time) (a b : Db) : Prop where
  referred : r.referredAccountId = none ∨ r.referredAccountId = some x
  account : ∃ q : LoyaltyAccount, a.get .account x = some q ∧ q.customerId = r.referredCustomerId
  advocate : 0 < r.referrerBonusPoints → Credited r.orgId r.referrerAccountId (advocateKey id) a
  welcome : 0 < r.referredBonusPoints → Credited r.orgId x (welcomeKey id) a
  result : Rel.Replaced .referral id (some r) (r.complete x today) a b

/-! ## Wallets -/

/-- **An adjustment**: the balance changes, never below zero by a debit, and the transaction row
records what it left behind. -/
structure Adjusts (id transactionId : Id) (w : LoyaltyWallet) (data : WalletAdjust)
    (createdAt : Time) (a b : Db) : Prop where
  funds : data.type = .debit → data.amountCents ≤ w.balanceCents
  steps : ∃ a₁, Rel.Replaced .wallet id (some w) (w.add data.delta) a a₁ ∧
    Rel.Replaced .walletTransaction transactionId none
      (data.row w.orgId id (w.balanceCents + data.delta) createdAt) a₁ b

/-! ## Steps -/

/-- The tables no invariant of the book speaks of. -/
def offBook : Kind → Bool
  | .program | .tier | .earnRule | .customerBadge | .gamePlay | .customer => true
  | _ => false

/-- **Provision**: a row elsewhere, or a new account or wallet with nothing on it. -/
inductive Provision (a b : Db) : Prop
  | elsewhere {k : Kind} {id : Id} {old : Option (Row k)} {new : Row k} (hk : offBook k = true)
      (he : ∀ r, old = some r → Evolves k r new) (h : Rel.Replaced k id old new a b)
  | openAccount {id : Id} {orgId customerId : Id} {tierId : Option Id} {referralCode : String}
      (hc : ∃ c : Customer, a.get .customer customerId = some c)
      (h : Rel.Replaced .account id none { orgId, customerId, tierId, referralCode } a b)
  | openWallet {id : Id} {orgId accountId : Id}
      (hc : ∃ q : LoyaltyAccount, a.get .account accountId = some q ∧ q.orgId = orgId)
      (h : Rel.Replaced .wallet id none { orgId, accountId } a b)

/-- **A step of the book**, whose ledger row obeys `P`. -/
inductive Step (P : Db → LoyaltyPointLedger → Prop) (a b : Db) : Prop
  | provision (h : Provision a b)
  | standing {id : Id} {r r' : LoyaltyAccount} (hc : r'.core = r.core)
      (h : Rel.Replaced .account id (some r) r' a b)
  | post {m : Movement} {r r' : LoyaltyAccount} (hP : P a (m.row (m.move r).pointsBalance))
      (h : Posts m r r' a b)
  | progress {id : Id} {old : Option CustomerChallengeProgress} {new : CustomerChallengeProgress}
      (he : ∀ r, old = some r → Evolves .progress r new) (h : Rel.Replaced .progress id old new a b)
  | redeem {m : Movement} {r r' : LoyaltyAccount} {reward : LoyaltyReward}
      {rewardId redemptionId : Id} (hP : P a (m.row (m.move r).pointsBalance))
      (h : Redeems m r r' reward rewardId redemptionId a b)
  | fulfil {id : Id} {x : LoyaltyRedemption} {today : Time} (hx : x.status = .pending)
      (h : Rel.Replaced .redemption id (some x) (x.fulfil today) a b)
  | cancel {x : LoyaltyRedemption} {id : Id} {m : Movement} {r r' : LoyaltyAccount}
      {reward : LoyaltyReward} (hP : P a (m.row (m.move r).pointsBalance))
      (h : Cancels x id m r r' reward a b)
  | refer {id : Id} {r : LoyaltyReferral} (h : Refers id r a b)
  | complete {id : Id} {r : LoyaltyReferral} {x : Id} {today : Time}
      (h : Completes id r x today a b)
  | adjust {id transactionId : Id} {w : LoyaltyWallet} {data : WalletAdjust} {createdAt : Time}
      (h : Adjusts id transactionId w data createdAt a b)

/-- A game is recorded and pays its prize. -/
def Plays (a b : Db) : Prop := ∃ a₁, Provision a a₁ ∧ Rewards a₁ b

abbrev Provisions : Db → Db → Prop := ReflTransGen Provision

abbrev Steps (P : Db → LoyaltyPointLedger → Prop) : Db → Db → Prop := ReflTransGen (Step P)

/-! ## What every step keeps -/

section

variable {a b : Db} {id rewardId : Id} {counted : Bool} {k : Kind}

theorem TakesStock.grows (h : TakesStock rewardId counted a b) :
    Grows a b := by
  unfold TakesStock at h
  split at h
  · obtain ⟨w, -, hw⟩ := h
    exact grows_of_replaced hw fun q hq => by cases hq; exact addStock_evolves _ _
  · rw [h]
    exact Grows.refl a

theorem TakesStock.unique (h : TakesStock rewardId counted a b)
    (ha : Rel.Unique a) : Rel.Unique b := by
  unfold TakesStock at h
  split at h
  · obtain ⟨w, -, hw⟩ := h
    exact hw.unique ha
  · rw [h]
    exact ha

theorem ReturnsStock.grows (h : ReturnsStock rewardId counted a b) :
    Grows a b := by
  unfold ReturnsStock at h
  split at h
  · obtain ⟨w, hw⟩ := h
    exact grows_of_replaced hw fun q hq => by cases hq; exact addStock_evolves _ _
  · rw [h]
    exact Grows.refl a

theorem ReturnsStock.unique (h : ReturnsStock rewardId counted a b)
    (ha : Rel.Unique a) : Rel.Unique b := by
  unfold ReturnsStock at h
  split at h
  · obtain ⟨w, hw⟩ := h
    exact hw.unique ha
  · rw [h]
    exact ha

theorem Completes.evolves {r : LoyaltyReferral} {x : Id} {today : Time}
    (h : Completes id r x today a b) : Evolves .referral r (r.complete x today) := by
  refine ⟨rfl, rfl, rfl, rfl, rfl, fun _ => rfl, fun y hy => ?_⟩
  rcases h.referred with hn | hx
  · rw [hn] at hy
    cases hy
  · rw [hx] at hy
    exact hy

theorem Provision.grows (h : Provision a b) : Grows a b := by
  cases h with
  | elsewhere _ he h => exact grows_of_replaced h he
  | openAccount _ h => exact grows_of_replaced h fun r hr => by cases hr
  | openWallet _ h => exact grows_of_replaced h fun r hr => by cases hr

theorem Provision.unique (h : Provision a b) (ha : Rel.Unique a) : Rel.Unique b := by
  cases h with
  | elsewhere _ _ h => exact h.unique ha
  | openAccount _ h => exact h.unique ha
  | openWallet _ h => exact h.unique ha

theorem Provision.log (h : Provision a b) : b.log = a.log := by
  cases h with
  | elsewhere _ _ h => exact h.log
  | openAccount _ h => exact h.log
  | openWallet _ h => exact h.log

theorem Provisions.log (h : Provisions a b) : b.log = a.log := by
  induction h with
  | refl => rfl
  | tail _ hs ih => exact hs.log.trans ih

theorem Provision.get_eq (h : Provision a b) (hk : offBook k = false) (ha : k ≠ .account)
    (hw : k ≠ .wallet) (id : Id) : b.get k id = a.get k id := by
  cases h with
  | elsewhere hk' _ h => exact h.get_ne fun he => by cases he; rw [hk'] at hk; cases hk
  | openAccount _ h => exact h.get_ne fun he => ha (congrArg Prod.fst he)
  | openWallet _ h => exact h.get_ne fun he => hw (congrArg Prod.fst he)

variable {P : Db → LoyaltyPointLedger → Prop}

/-- **No step takes anything off the record.** -/
theorem Step.grows (h : Step P a b) : Grows a b := by
  cases h with
  | provision h => exact h.grows
  | standing hc h =>
    refine grows_of_replaced h fun q hq => ?_
    cases hq
    exact ⟨(core_eq hc).1, (core_eq hc).2.1⟩
  | post _ h => exact h.grows
  | progress he h => exact grows_of_replaced h he
  | redeem _ h =>
    obtain ⟨a1, a2, hp, hs, hr⟩ := h.steps
    exact hp.grows.trans (hs.grows.trans (grows_of_replaced hr fun q hq => by cases hq))
  | fulfil hx h =>
    refine grows_of_replaced h fun q hq => ?_
    cases hq
    exact ⟨rfl, rfl, rfl, rfl, fun hn => absurd hx hn⟩
  | cancel _ h =>
    obtain ⟨a1, a2, hr, hp, hs⟩ := h.steps
    refine (grows_of_replaced hr fun q hq => ?_).trans (hp.grows.trans hs.grows)
    cases hq
    exact ⟨rfl, rfl, rfl, rfl, fun hn => absurd h.pending hn⟩
  | refer h => exact grows_of_replaced h.result fun q hq => by cases hq
  | complete h => exact grows_of_replaced h.result fun q hq => by cases hq; exact h.evolves
  | adjust h =>
    obtain ⟨a1, hw, ht⟩ := h.steps
    refine (grows_of_replaced hw fun q hq => ?_).trans (grows_of_replaced ht fun q hq => by cases hq)
    cases hq
    exact ⟨rfl, rfl⟩

theorem Step.unique (h : Step P a b) (ha : Rel.Unique a) : Rel.Unique b := by
  cases h with
  | provision h => exact h.unique ha
  | standing _ h => exact h.unique ha
  | post _ h => exact h.unique ha
  | progress _ h => exact h.unique ha
  | redeem _ h =>
    obtain ⟨a1, a2, hp, hs, hr⟩ := h.steps
    exact hr.unique (hs.unique (hp.unique ha))
  | fulfil _ h => exact h.unique ha
  | cancel _ h =>
    obtain ⟨a1, a2, hr, hp, hs⟩ := h.steps
    exact hs.unique (hp.unique (hr.unique ha))
  | refer h => exact h.result.unique ha
  | complete h => exact h.result.unique ha
  | adjust h =>
    obtain ⟨a1, hw, ht⟩ := h.steps
    exact ht.unique (hw.unique ha)

/-- The unique indexes hold, and the referred account of a referral is the referred customer's. -/
structure WellKept (s : Db) : Prop where
  unique : Rel.Unique s
  referred {id : Id} {r : LoyaltyReferral} {x : Id} : s.get .referral id = some r →
    r.referredAccountId = some x →
    ∃ q : LoyaltyAccount, s.get .account x = some q ∧ q.customerId = r.referredCustomerId

theorem WellKept.holder {x y : Id} {q r : LoyaltyAccount} (ha : WellKept a)
    (hx : a.get .account x = some q) (hy : a.get .account y = some r)
    (hc : q.customerId = r.customerId) : x = y :=
  ha.unique.row (u := .accountCustomer r.customerId) (k := .account)
    ⟨q, hx, by show _ ∈ uniqueKeys .account q; simp [uniqueKeys, hc]⟩
    ⟨r, hy, by show _ ∈ uniqueKeys .account r; simp [uniqueKeys]⟩

/-- A step that leaves the referrals alone. -/
theorem WellKept.of_grows (ha : WellKept a) (hg : Grows a b) (hu : Rel.Unique b)
    (hr : ∀ id, b.get .referral id = a.get .referral id) : WellKept b where
  unique := hu
  referred h hx := by
    rw [hr] at h
    obtain ⟨q, hq, hc⟩ := ha.referred h hx
    obtain ⟨q', hq', he⟩ := hg.row hq
    exact ⟨q', hq', he.2.trans hc⟩

theorem WellKept.of_referral (ha : WellKept a) (hg : Grows a b) (hu : Rel.Unique b)
    {old : Option LoyaltyReferral} {new : LoyaltyReferral}
    (h : Rel.Replaced .referral id old new a b) (hx : ∀ x, new.referredAccountId = some x →
      ∃ q : LoyaltyAccount, a.get .account x = some q ∧ q.customerId = new.referredCustomerId) :
    WellKept b where
  unique := hu
  referred {id' r x} hr hrx := by
    by_cases hid : id' = id
    · subst hid
      rw [h.get_self] at hr
      cases hr
      obtain ⟨q, hq, hc⟩ := hx x hrx
      exact ⟨q, by rw [h.get_ne (by simp)]; exact hq, hc⟩
    · rw [h.get_ne (by simpa using hid)] at hr
      obtain ⟨q, hq, hc⟩ := ha.referred hr hrx
      obtain ⟨q', hq', he⟩ := hg.row hq
      exact ⟨q', hq', he.2.trans hc⟩

theorem wellKept_empty : WellKept Rel.empty := ⟨Rel.unique_empty, fun h => by cases h⟩

/-- A row that was not there, under index entries nobody has. -/
theorem WellKept.insert {r : Row k} (ha : WellKept a) (hk : k ≠ .referral) (hg : a.get k id = none)
    (hc : a.clashes k none r = false) : WellKept (a.set k id r) :=
  have h : Rel.Replaced k id none r a (a.set k id r) := ⟨hg, hc, rfl⟩
  ha.of_grows (grows_of_replaced h fun _ hq => by cases hq) (h.unique ha.unique) fun _ =>
    h.get_ne fun he => hk (congrArg Prod.fst he).symm

theorem WellKept.insertReferral {r : LoyaltyReferral} (ha : WellKept a)
    (hg : a.get .referral id = none) (hc : a.clashes .referral none r = false)
    (hx : ∀ x, r.referredAccountId = some x →
      ∃ q : LoyaltyAccount, a.get .account x = some q ∧ q.customerId = r.referredCustomerId) :
    WellKept (a.set .referral id r) :=
  have h : Rel.Replaced .referral id none r a (a.set .referral id r) := ⟨hg, hc, rfl⟩
  ha.of_referral (grows_of_replaced h fun _ hq => by cases hq) (h.unique ha.unique) h hx

theorem TakesStock.get_ne (h : TakesStock rewardId counted a b) (hk : k ≠ .reward)
    (id : Id) : b.get k id = a.get k id := by
  unfold TakesStock at h
  split at h
  · obtain ⟨w, -, hw⟩ := h
    exact hw.get_ne fun he => hk (congrArg Prod.fst he)
  · rw [h]

theorem ReturnsStock.get_ne (h : ReturnsStock rewardId counted a b) (hk : k ≠ .reward) (id : Id) :
    b.get k id = a.get k id := by
  unfold ReturnsStock at h
  split at h
  · obtain ⟨w, hw⟩ := h
    exact hw.get_ne fun he => hk (congrArg Prod.fst he)
  · rw [h]

/-- **Every step keeps the book well kept.** -/
theorem Step.wellKept (h : Step P a b) (ha : WellKept a) : WellKept b := by
  have hg := h.grows
  have hu := h.unique ha.unique
  cases h with
  | provision h => exact ha.of_grows hg hu fun id => h.get_eq rfl (by simp) (by simp) id
  | standing _ h => exact ha.of_grows hg hu fun id => h.get_ne (by simp)
  | post _ h => exact ha.of_grows hg hu fun id => h.get_ne (by simp)
  | progress _ h => exact ha.of_grows hg hu fun id => h.get_ne (by simp)
  | redeem _ h =>
    obtain ⟨a1, a2, hp, hs, hr⟩ := h.steps
    exact ha.of_grows hg hu fun id =>
      (hr.get_ne (by simp)).trans ((hs.get_ne (by simp) id).trans (hp.get_ne (by simp)))
  | fulfil _ h => exact ha.of_grows hg hu fun id => h.get_ne (by simp)
  | cancel _ h =>
    obtain ⟨a1, a2, hr, hp, hs⟩ := h.steps
    exact ha.of_grows hg hu fun id =>
      (hs.get_ne (by simp) id).trans ((hp.get_ne (by simp)).trans (hr.get_ne (by simp)))
  | refer h =>
    refine ha.of_referral hg hu h.result fun x hx => ?_
    obtain ⟨y, q, hy, hq, hc⟩ := h.referred
    rw [hy] at hx
    cases hx
    exact ⟨q, hq, hc⟩
  | complete h =>
    refine ha.of_referral hg hu h.result fun x hx => ?_
    cases hx
    exact h.account
  | adjust h =>
    obtain ⟨a1, hw, ht⟩ := h.steps
    exact ha.of_grows hg hu fun id => (ht.get_ne (by simp)).trans (hw.get_ne (by simp))

end

/-! ## What a step does to accounts and ledger -/

/-- The accounts and the ledger are left alone. -/
structure SameBooks (a b : Db) : Prop where
  log : b.log = a.log
  account (id : Id) : b.get .account id = a.get .account id

section

variable {a b c : Db}

theorem SameBooks.refl (a : Db) : SameBooks a a := ⟨rfl, fun _ => rfl⟩

theorem SameBooks.trans (h : SameBooks a b) (h' : SameBooks b c) : SameBooks a c :=
  ⟨h'.log.trans h.log, fun id => (h'.account id).trans (h.account id)⟩

theorem sameBooks_of_replaced {k : Kind} {id : Id} {old : Option (Row k)} {new : Row k}
    (hk : k ≠ .account) (h : Rel.Replaced k id old new a b) : SameBooks a b :=
  ⟨h.log, fun _ => h.get_ne fun he => hk (congrArg Prod.fst he).symm⟩

theorem TakesStock.sameBooks {rewardId : Id} {counted : Bool} (h : TakesStock rewardId counted a b) :
    SameBooks a b := by
  unfold TakesStock at h
  split at h
  · obtain ⟨w, -, hw⟩ := h
    exact sameBooks_of_replaced (by decide) hw
  · rw [h]
    exact .refl a

theorem ReturnsStock.sameBooks {rewardId : Id} {counted : Bool}
    (h : ReturnsStock rewardId counted a b) : SameBooks a b := by
  unfold ReturnsStock at h
  split at h
  · obtain ⟨w, hw⟩ := h
    exact sameBooks_of_replaced (by decide) hw
  · rw [h]
    exact .refl a

/-- What a step does to the accounts and the ledger: nothing, a new account with nothing on it, a
new standing, or one movement. -/
inductive OnBooks (P : Db → LoyaltyPointLedger → Prop) (a b : Db) : Prop
  | same (h : SameBooks a b)
  | opened {id : Id} {orgId customerId : Id} {tierId : Option Id} {referralCode : String}
      (h : Rel.Replaced .account id none { orgId, customerId, tierId, referralCode } a b)
  | standing {id : Id} {r r' : LoyaltyAccount} (hc : r'.core = r.core)
      (h : Rel.Replaced .account id (some r) r' a b)
  | moved {m : Movement} {r r' : LoyaltyAccount} {a' b' : Db}
      (hP : P a (m.row (m.move r).pointsBalance)) (before : SameBooks a a')
      (h : Posts m r r' a' b') (after : SameBooks b' b)

/-- **Every step moves at most one account's points**, with one ledger row. -/
theorem Step.onBooks (h : Step P a b) : OnBooks P a b := by
  cases h with
  | provision h =>
    cases h with
    | elsewhere hk _ h =>
      exact .same (sameBooks_of_replaced (fun he => by subst he; cases hk) h)
    | openAccount _ h => exact .opened h
    | openWallet _ h => exact .same (sameBooks_of_replaced (by decide) h)
  | standing hc h => exact .standing hc h
  | post hP h => exact .moved hP (.refl _) h (.refl _)
  | progress _ h => exact .same (sameBooks_of_replaced (by decide) h)
  | redeem hP h =>
    obtain ⟨a1, a2, hp, hs, hr⟩ := h.steps
    exact .moved hP (.refl _) hp (hs.sameBooks.trans (sameBooks_of_replaced (by decide) hr))
  | fulfil _ h => exact .same (sameBooks_of_replaced (by decide) h)
  | cancel hP h =>
    obtain ⟨a1, a2, hr, hp, hs⟩ := h.steps
    exact .moved hP (sameBooks_of_replaced (by decide) hr) hp hs.sameBooks
  | refer h => exact .same (sameBooks_of_replaced (by decide) h.result)
  | complete h => exact .same (sameBooks_of_replaced (by decide) h.result)
  | adjust h =>
    obtain ⟨a1, hw, ht⟩ := h.steps
    exact .same ((sameBooks_of_replaced (by decide) hw).trans (sameBooks_of_replaced (by decide) ht))

/-- **A step appends at most one ledger row**, which obeys the policy. -/
theorem Step.log (h : Step P a b) :
    b.log = a.log ∨ ∃ l, P a l ∧ b.log = a.log ++ [l] := by
  cases h.onBooks with
  | same h => exact Or.inl h.log
  | opened h => exact Or.inl h.log
  | standing _ h => exact Or.inl h.log
  | moved hP before h after =>
    exact Or.inr ⟨_, hP, by rw [after.log, h.log, before.log]⟩

end

variable {P : Db → LoyaltyPointLedger → Prop} {a b : Db}

theorem Steps.induct {F : Db → Prop} (hF : ∀ a b, Step P a b → F a → F b) (h : Steps P a b)
    (ha : F a) : F b := by
  induction h with
  | refl => exact ha
  | tail _ hs ih => exact hF _ _ hs ih

theorem Steps.grows (h : Steps P a b) : Grows a b := by
  induction h with
  | refl => exact Grows.refl a
  | tail _ hs ih => exact ih.trans hs.grows

theorem Steps.wellKept (h : Steps P a b) (ha : WellKept a) : WellKept b :=
  h.induct (fun _ _ hs => hs.wellKept) ha

end PatronLoyalty.Loyalty
