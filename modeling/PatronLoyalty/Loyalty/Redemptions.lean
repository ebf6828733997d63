import PatronLoyalty.Loyalty.Accounting
import PatronLoyalty.Txn.Counting
import PatronLoyalty.Txn.OneShot

/-!
# Redemptions

A redemption is an exchange: points of one account against one unit of a reward, with a row that
says so. `Exchange` is that change of the store. Redeeming makes one, cancelling makes the reverse
one, fulfilling only closes the row.

Results: **`reach_redemptions`**, in every interleaving of the three requests, with any failures,
a request that succeeds has made its exchange once and one that is refused has made none; a
redemption leaves `pending` once and is refunded once; and what is in stock and what is redeemed of
a reward add up to what there was.
-/

namespace PatronLoyalty.Loyalty

open Txn Relation

/-! ## Exchanges -/

/-- Points, rewards and redemptions are left alone. -/
structure Untouched (a b : Db) : Prop where
  log : b.log = a.log
  account {id : Id} {r : LoyaltyAccount} : a.get .account id = some r → b.get .account id = some r
  reward (id : Id) : b.get .reward id = a.get .reward id
  redemption (id : Id) : b.get .redemption id = a.get .redemption id

/-- **An exchange**: `points` on one account, `units` on the stock of one reward, and one
redemption, whose version `old` becomes `new`. -/
structure Exchange (accountId : Id) (points : ℤ) (rewardId : Id) (units : ℤ) (redemptionId : Id)
    (old : Option LoyaltyRedemption) (new : LoyaltyRedemption) (a b : Db) : Prop where
  account : ∃ r r' : LoyaltyAccount, a.get .account accountId = some r ∧
    b.get .account accountId = some r' ∧ r'.pointsBalance = r.pointsBalance + points
  accounts {id : Id} : id ≠ accountId → b.get .account id = a.get .account id
  entry : ∃ l : LoyaltyPointLedger, l.accountId = accountId ∧ l.points = points ∧
    b.log = a.log ++ [l]
  reward : ∃ w : LoyaltyReward, a.get .reward rewardId = some w ∧
    b.get .reward rewardId = some (w.addStock units) ∧
    ∀ n, w.stock = some n → 0 ≤ n → 0 ≤ n + units
  rewards {id : Id} : id ≠ rewardId → b.get .reward id = a.get .reward id
  before : a.get .redemption redemptionId = old
  after : b.get .redemption redemptionId = some new
  redemptions {id : Id} : id ≠ redemptionId → b.get .redemption id = a.get .redemption id

/-- A redemption: the cost of the reward, one of its stock, and a pending row for the patron. -/
def RedeemEffect (orgId customerId rewardId : Id) (v : RedemptionView) (a b : Db) : Prop :=
  ∃ (accountId : Id) (q : LoyaltyAccount) (w : LoyaltyReward),
    a.get .account accountId = some q ∧ q.orgId = orgId ∧ q.customerId = customerId ∧
    a.get .reward rewardId = some w ∧ 0 < w.pointsCost ∧
    v.2 = { orgId, accountId, rewardId, pointsSpent := w.pointsCost } ∧
    Exchange accountId (-w.pointsCost) rewardId (-1) v.1 none v.2 a b

/-- A fulfilment: the row is closed, and nothing else. -/
def FulfilEffect (id : Id) (a b : Db) : Prop :=
  ∃ (x : LoyaltyRedemption) (today : Time), x.status = .pending ∧
    Rel.Replaced .redemption id (some x) (x.fulfil today) a b

/-- A cancellation: the points it spent and the unit it took go back, and the row is closed. -/
def CancelEffect (id : Id) (a b : Db) : Prop :=
  ∃ x : LoyaltyRedemption, x.status = .pending ∧
    Exchange x.accountId x.pointsSpent x.rewardId 1 id (some x) x.cancel a b

def Request.trades : Request → Bool
  | .redeemReward .. | .fulfillRedemption .. | .cancelRedemption .. => true
  | _ => false

def Request.effect (req : Request) (ans : Answer) : Db → Db → Prop :=
  match req, ans with
  | .redeemReward orgId customerId rewardId, .redemption v => RedeemEffect orgId customerId rewardId v
  | .fulfillRedemption _ id, .redemption _ => FulfilEffect id
  | .cancelRedemption _ id, .redemption _ => CancelEffect id
  | _, _ => fun _ _ => False

inductive Traded (a b : Db) : Prop
  | untouched (h : Untouched a b)
  | redeemed {orgId customerId rewardId : Id} {v : RedemptionView}
      (h : RedeemEffect orgId customerId rewardId v a b)
  | fulfilled {id : Id} (h : FulfilEffect id a b)
  | cancelled {id : Id} (h : CancelEffect id a b)

/-! ## The transactions are exchanges -/

section

variable {a b c : Db} {orgId accountId : Id} {w : LoyaltyReward} {rewardId : Id}

theorem Untouched.refl (a : Db) : Untouched a a := ⟨rfl, fun h => h, fun _ => rfl, fun _ => rfl⟩

theorem Untouched.trans (h : Untouched a b) (h' : Untouched b c) : Untouched a c where
  log := h'.log.trans h.log
  account hr := h'.account (h.account hr)
  reward id := (h'.reward id).trans (h.reward id)
  redemption id := (h'.redemption id).trans (h.redemption id)

theorem Provision.untouched (h : Provision a b) : Untouched a b where
  log := h.log
  account {id r} hr := by
    cases h with
    | elsewhere hk _ h =>
      rw [h.get_ne fun he => by cases he; cases hk]
      exact hr
    | openAccount _ h =>
      rw [h.get_ne fun he => ?_]
      · exact hr
      · cases he
        rw [h.get_old] at hr
        cases hr
    | openWallet _ h =>
      rw [h.get_ne (by simp)]
      exact hr
  reward := h.get_eq rfl (by decide) (by decide)
  redemption := h.get_eq rfl (by decide) (by decide)

theorem Provisions.untouched (h : Provisions a b) : Untouched a b := by
  induction h with
  | refl => exact .refl a
  | tail _ hs ih => exact ih.trans hs.untouched

theorem addStock_of_none (h : w.stock = none) (n : ℤ) : w.addStock n = w := by
  cases w
  cases h
  rfl

theorem TakesStock.reward (h : TakesStock rewardId w.stock.isSome a b)
    (hw : a.get .reward rewardId = some w) :
    b.get .reward rewardId = some (w.addStock (-1)) ∧
      (∀ n, w.stock = some n → 0 ≤ n → 0 ≤ n + -1) ∧
      ∀ id, id ≠ rewardId → b.get .reward id = a.get .reward id := by
  unfold TakesStock at h
  cases hs : w.stock with
  | none =>
    rw [hs, if_neg (by simp)] at h
    subst h
    rw [addStock_of_none hs]
    refine ⟨hw, fun n hn => ?_, fun _ _ => rfl⟩
    cases hn
  | some k =>
    rw [hs, if_pos (show (some k).isSome = true from rfl)] at h
    obtain ⟨w', hin, hr⟩ := h
    have hww : w' = w := Option.some.inj (hr.get_old.symm.trans hw)
    subst hww
    refine ⟨hr.get_self, fun n hn _ => ?_, fun id hid => hr.get_ne (by simpa using hid)⟩
    cases hn
    have hpos : 0 < k := by simpa [LoyaltyReward.inStock, hs] using hin
    omega

theorem ReturnsStock.reward (h : ReturnsStock rewardId w.stock.isSome a b)
    (hw : a.get .reward rewardId = some w) :
    b.get .reward rewardId = some (w.addStock 1) ∧
      ∀ id, id ≠ rewardId → b.get .reward id = a.get .reward id := by
  unfold ReturnsStock at h
  cases hs : w.stock with
  | none =>
    rw [hs, if_neg (by simp)] at h
    subst h
    rw [addStock_of_none hs]
    exact ⟨hw, fun _ _ => rfl⟩
  | some k =>
    rw [hs, if_pos (show (some k).isSome = true from rfl)] at h
    obtain ⟨w', hr⟩ := h
    have hww : w' = w := Option.some.inj (hr.get_old.symm.trans hw)
    subst hww
    exact ⟨hr.get_self, fun id hid => hr.get_ne (by simpa using hid)⟩

/-- **Redeeming is an exchange.** -/
theorem Redeemed.effect {customerId : Id} {res : RedemptionView × ApplyPointsTxResult}
    (h : Redeemed orgId accountId rewardId res a b) (hq : AccountOf orgId customerId accountId a) :
    RedeemEffect orgId customerId rewardId res.1 a b := by
  obtain ⟨m, r, r', w, slug, rfl, rfl, -, hr, hres, -⟩ := h
  obtain ⟨q, hq, ho, hc⟩ := hq
  obtain ⟨a1, a2, hp, hs, hx⟩ := hr.steps
  have hw1 : a1.get .reward rewardId = some w := (hp.get_ne (by simp)).trans hr.offered
  obtain ⟨hw2, hstock, hothers⟩ := hs.reward hw1
  have hdelta : m.delta = -w.pointsCost := by
    unfold Movement.delta
    rw [hr.burn, hr.cost]
    rfl
  rw [hr.cost] at hres
  refine ⟨m.accountId, q, w, hq, ho, hc, hr.offered, hr.cost ▸ hp.positive, hres, ?_⟩
  rw [hres]
  exact {
    account := ⟨r, r', hp.found,
      (hx.get_ne (by simp)).trans ((hs.get_ne (by decide) _).trans hp.get_self),
      by rw [hp.balance, hdelta]⟩
    accounts := fun hid => (hx.get_ne (by simp)).trans ((hs.get_ne (by decide) _).trans
      (hp.get_ne (by simpa using hid)))
    entry := ⟨_, rfl, hdelta, by rw [hx.log, hs.sameBooks.log, hp.log]⟩
    reward := ⟨w, hr.offered, (hx.get_ne (by simp)).trans hw2, hstock⟩
    rewards := fun hid => (hx.get_ne (by simp)).trans ((hothers _ hid).trans (hp.get_ne (by simp)))
    before := by
      rw [← hp.get_ne (by simp), ← hs.get_ne (by decide)]
      exact hx.get_old
    after := hx.get_self
    redemptions := fun hid => (hx.get_ne (by simpa using hid)).trans
      ((hs.get_ne (by decide) _).trans (hp.get_ne (by simp))) }

/-- **Cancelling is the reverse exchange.** -/
theorem Cancelled.effect {redemptionId : Id} (ha : WellKept a)
    (h : Cancelled orgId redemptionId a b) : CancelEffect redemptionId a b := by
  obtain ⟨x, m, r, r', w, -, -, -, hc⟩ := h
  obtain ⟨a1, a2, hx, hp, hs⟩ := hc.steps
  obtain ⟨q, hq, hqc⟩ := hc.holder
  have hr : a.get .account m.accountId = some r := (hx.get_ne (by simp)).symm.trans hp.found
  have hacc : m.accountId = x.accountId := ha.holder hr hq hqc.symm
  have hdelta : m.delta = x.pointsSpent := adjustment_delta hc.type hc.points
  have hw2 : a2.get .reward x.rewardId = some w :=
    (hp.get_ne (by simp)).trans ((hx.get_ne (by simp)).trans hc.offered)
  obtain ⟨hw, hothers⟩ := hs.reward hw2
  refine ⟨x, hc.pending, ?_⟩
  rw [← hacc]
  exact {
    account := ⟨r, r', hr, (hs.get_ne (by decide) _).trans hp.get_self, by rw [hp.balance, hdelta]⟩
    accounts := fun hid => (hs.get_ne (by decide) _).trans
      ((hp.get_ne (by simpa using hid)).trans (hx.get_ne (by simp)))
    entry := ⟨_, rfl, hdelta, by rw [hs.sameBooks.log, hp.log, hx.log]⟩
    reward := ⟨w, hc.offered, hw, fun n _ hn => by omega⟩
    rewards := fun hid => (hothers _ hid).trans
      ((hp.get_ne (by simp)).trans (hx.get_ne (by simp)))
    before := hx.get_old
    after := (hs.get_ne (by decide) _).trans ((hp.get_ne (by simp)).trans hx.get_self)
    redemptions := fun hid => (hs.get_ne (by decide) _).trans
      ((hp.get_ne (by simp)).trans (hx.get_ne (by simpa using hid))) }

theorem Fulfilled.effect {redemptionId : Id} (h : Fulfilled orgId redemptionId a b) :
    FulfilEffect redemptionId a b := by
  obtain ⟨x, today, hx, -, hr⟩ := h
  exact ⟨x, today, hx, hr⟩

theorem Request.effect.traded {req : Request} {ans : Answer} (h : req.effect ans a b) :
    Traded a b := by
  cases req
  case redeemReward =>
    cases ans
    case redemption v => exact .redeemed h
    all_goals exact h.elim
  case fulfillRedemption =>
    cases ans
    case redemption v => exact .fulfilled h
    all_goals exact h.elim
  case cancelRedemption =>
    cases ans
    case redemption v => exact .cancelled h
    all_goals exact h.elim
  all_goals exact h.elim

end

/-! ## One request -/

section

variable {req : Request} {orgId : Id} {s : Db}

/-- What a trade relies on. -/
abbrev inBook (_ : Hist) (s : Db) : Prop := WellKept s

/-- Before the exchange: reads, and what a patron is provided with. -/
abbrev clearTrade : Protocol Db Err Ev Answer anyStep := .ofHistory _ inBook (Clear Untouched)

/-- **The protocol of a trade.** -/
abbrev Request.trade (req : Request) : Protocol Db Err Ev Answer anyStep :=
  .ofHistory _ inBook (OneShot Untouched req.effect)

theorem clearTrade_quiet : clearTrade.Quiet := clear_quiet Untouched.refl

theorem clearTrade_provisions : clearTrade.Admits Provisions :=
  clear_admits fun _ _ h => ⟨h.steps, h.untouched⟩

theorem fulfill_safe (redemptionId : Id) :
    Safe (Request.fulfillRedemption orgId redemptionId).trade
      (Request.fulfillRedemption orgId redemptionId).call s := by
  refine oneShot_safe_of_bind (f := Answer.redemption) fun s' _ _ => ?_
  refine wp_clear_bind requireEnabled_tame clear_start trivial (fun _ h s1 _ _ hc => ?_)
    fun _ _ _ hc => hc
  refine Call.wp_mono (fun r _ _ hr => ?_) (wp_act (s := s1) (f := Answer.redemption) hc
    (fun s2 _ => wp_fulfillTx (fun _ _ h => Steps.grows h)) fun v a b _ hR =>
      ⟨hR.1.steps, hR.1.effect⟩)
  cases r <;> exact hr

theorem cancel_safe (redemptionId : Id) :
    Safe (Request.cancelRedemption orgId redemptionId).trade
      (Request.cancelRedemption orgId redemptionId).call s := by
  refine oneShot_safe_of_bind (f := Answer.redemption) fun s' _ _ => ?_
  refine wp_clear_bind requireEnabled_tame clear_start trivial (fun _ h s1 _ _ hc => ?_)
    fun _ _ _ hc => hc
  refine Call.wp_mono (fun r _ _ hr => ?_) (wp_act (s := s1) (f := Answer.redemption) hc
    (fun s2 _ => wp_cancelTx (fun _ _ h => Steps.grows h)) fun v a b ha hR =>
      ⟨hR.steps policy_true, hR.effect ha⟩)
  cases r <;> exact hr

theorem wp_redeemTx_of_account {customerId accountId rewardId : Id} {A : Db → Prop}
    (h : AccountOf orgId customerId accountId s) :
    Tx.wp anyStep A (fun res => Did anyStep fun a b => AccountOf orgId customerId accountId a ∧
      Redeemed orgId accountId rewardId res a b) AnyErr (redeemTx orgId accountId rewardId) [] s := by
  have hgrows : ∀ a b, anyStep.rel a b → Grows a b := fun _ _ h => Steps.grows h
  have hkeeps : anyStep.Keeps (AccountOf orgId customerId accountId) :=
    accountOf_keeps hgrows customerId accountId
  refine Tx.wp_mono (fun res ws s1 hd => ?_) (fun _ _ _ => trivial)
    (Tx.wp_from (anyStep.refl s) (wp_redeemTx hgrows))
  exact hd.2.note hkeeps (hkeeps _ _ hd.1 h)

theorem redeem_safe (customerId rewardId : Id) :
    Safe (Request.redeemReward orgId customerId rewardId).trade
      (Request.redeemReward orgId customerId rewardId).call s := by
  refine oneShot_safe_of_bind (f := Answer.redemption) fun s' _ _ => ?_
  refine wp_clear_bind requireEnabled_tame clear_start trivial (fun _ h1 s1 _ _ hc1 => ?_)
    fun _ _ _ hc => hc
  refine wp_clear_bind (getAccountByCustomerId_ensures (fun _ _ h => Steps.grows h)
    clearTrade_quiet clearTrade_provisions customerId) hc1 trivial
    (fun account h2 s2 _ hacc hc2 => ?_) fun _ _ _ hc => hc
  refine Call.wp_bind (Call.wp_mono (fun r h3 s3 hr => ?_) (wp_act (s := s2)
    (t := redeemTx orgId account.id rewardId) (f := fun res => Answer.redemption res.1) hc2
    (fun s3 hG => wp_redeemTx_of_account (accountOf_keeps (fun _ _ h => Steps.grows h)
      customerId account.id _ _ hG hacc))
    fun res a b _ hR => ⟨hR.2.steps policy_true, hR.2.effect hR.1⟩))
  cases r with
  | error e => exact hr
  | ok res =>
    obtain ⟨redemption, burnResult⟩ := res
    have hquiet : (Protocol.ofHistory anyStep inBook (Acted Untouched
        ((Request.redeemReward orgId customerId rewardId).effect (.redemption redemption)))).Quiet :=
      acted_quiet Untouched.refl _
    refine wp_acted_bind (r := Answer.redemption redemption) ?_ hr fun _ h4 s4 hacted => ?_
    · exact Ensures.fireAll hquiet (fun _ _ _ _ => trivial) (fun _ _ => trivial) _
    · refine wp_acted_bind (r := Answer.redemption redemption) ?_ hacted fun _ h5 s5 hacted => ?_
      · exact Ensures.fire hquiet fun _ _ _ _ => trivial
      · exact hacted

/-- **A trade** commits nothing but its exchange, and answers for it. -/
theorem Request.trade_safe (h : req.trades = true) (s : Db) :
    Safe req.trade req.call s := by
  cases req
  case redeemReward => exact redeem_safe _ _
  case fulfillRedemption => exact fulfill_safe _
  case cancelRedemption => exact cancel_safe _
  all_goals cases h

end

/-! ## The stock -/

def LoyaltyRedemption.holds (rewardId : Id) (r : LoyaltyRedemption) : Bool :=
  r.rewardId == rewardId && r.status != .cancelled

def redeemed (rewardId : Id) (s : Db) : ℕ := s.count .redemption fun _ r => r.holds rewardId

def InStock (rewardId : Id) (n : ℤ) (s : Db) : Prop :=
  ∃ w : LoyaltyReward, s.get .reward rewardId = some w ∧ w.stock = some n

/-- From a stock of `n`: what is in stock and what is redeemed add up to `total`, and the stock is
not overdrawn. -/
def Conserved (rewardId : Id) (n total : ℤ) (s : Db) : Prop :=
  ∃ k, InStock rewardId k s ∧ k + redeemed rewardId s = total ∧ (0 ≤ n → 0 ≤ k)

section

variable {a b : Db} {rewardId : Id} {n : ℤ}

theorem InStock.untouched (h : InStock rewardId n a) (hu : b.get .reward rewardId =
    a.get .reward rewardId) : InStock rewardId n b := by
  obtain ⟨w, hw, hn⟩ := h
  exact ⟨w, hu.trans hw, hn⟩

variable {accountId redemptionId rewardId' : Id} {points units : ℤ}
  {old : Option LoyaltyRedemption} {new : LoyaltyRedemption}

/-- **An exchange moves units between the stock and the redemptions.** -/
theorem Exchange.inStock (h : Exchange accountId points rewardId' units redemptionId old new a b)
    (hn : InStock rewardId n a) :
    InStock rewardId (n + if rewardId' = rewardId then units else 0) b ∧
      (0 ≤ n → 0 ≤ n + if rewardId' = rewardId then units else 0) := by
  obtain ⟨w, hw, hs⟩ := hn
  by_cases hid : rewardId' = rewardId
  · subst hid
    obtain ⟨w', hw', hb, hpos⟩ := h.reward
    have hww : w' = w := Option.some.inj (hw'.symm.trans hw)
    subst hww
    rw [if_pos rfl]
    refine ⟨⟨_, hb, ?_⟩, hpos n hs⟩
    rw [LoyaltyReward.addStock, hs]
    rfl
  · rw [if_neg hid, Int.add_zero]
    exact ⟨⟨w, (h.rewards (Ne.symm hid)).trans hw, hs⟩, id⟩

theorem redeemed_of_row (rewardId : Id)
    (h : ∀ {id : Id}, id ≠ redemptionId → b.get .redemption id = a.get .redemption id)
    (hb : b.get .redemption redemptionId = some new) (ha : a.get .redemption redemptionId = old) :
    redeemed rewardId b + (old.elim 0 fun x => if x.holds rewardId then 1 else 0) =
      redeemed rewardId a + if new.holds rewardId then 1 else 0 := by
  have hcount := Rel.count_of_get (k := Kind.redemption) (fun _ hid => h hid) hb
    fun _ r => LoyaltyRedemption.holds rewardId r
  rw [ha] at hcount
  cases old with
  | none => exact hcount
  | some x => exact hcount

theorem holds_new (orgId accountId rewardId' : Id) (pointsSpent : ℤ) (rewardId : Id) :
    LoyaltyRedemption.holds rewardId { orgId, accountId, rewardId := rewardId', pointsSpent } =
      decide (rewardId' = rewardId) := by
  unfold LoyaltyRedemption.holds
  exact (Bool.and_true _)

theorem redeemed_of_same (h : ∀ id, b.get .redemption id = a.get .redemption id) :
    redeemed rewardId b = redeemed rewardId a := Rel.count_eq_of_get h _

/-- **Every commit of a trade conserves the reward.** -/
theorem Traded.conserved {total : ℤ} (h : Traded a b) (ha : Conserved rewardId n total a) :
    Conserved rewardId n total b := by
  obtain ⟨k, hk, hsum, hpos⟩ := ha
  cases h with
  | untouched h =>
    exact ⟨k, hk.untouched (h.reward _), by rw [redeemed_of_same h.redemption]; exact hsum, hpos⟩
  | redeemed h =>
    obtain ⟨accountId, q, w, -, -, -, -, -, hv, hx⟩ := h
    obtain ⟨hstock, hover⟩ := hx.inStock hk
    refine ⟨_, hstock, ?_, fun hn => hover (hpos hn)⟩
    have hcount := redeemed_of_row rewardId hx.redemptions hx.after hx.before
    rw [hv, holds_new, Option.elim_none] at hcount
    split
    · rename_i hid
      rw [if_pos (by simpa using hid)] at hcount
      omega
    · rename_i hid
      rw [if_neg (by simpa using hid)] at hcount
      omega
  | fulfilled h =>
    obtain ⟨x, today, hx, hr⟩ := h
    refine ⟨k, hk.untouched (hr.get_ne (by simp)), ?_, hpos⟩
    have hcount := redeemed_of_row rewardId
      (fun hid => hr.get_ne (by simpa using hid)) hr.get_self hr.get_old
    have hholds : (x.fulfil today).holds rewardId = x.holds rewardId := by
      unfold LoyaltyRedemption.holds LoyaltyRedemption.fulfil
      rw [hx]
      rfl
    rw [hholds, Option.elim_some] at hcount
    omega
  | cancelled h =>
    obtain ⟨x, hp, hx⟩ := h
    obtain ⟨hstock, hover⟩ := hx.inStock hk
    refine ⟨_, hstock, ?_, fun hn => hover (hpos hn)⟩
    have hcount := redeemed_of_row rewardId hx.redemptions hx.after hx.before
    have hafter : x.cancel.holds rewardId = false := by
      simp [LoyaltyRedemption.holds, LoyaltyRedemption.cancel]
    rw [hafter, Option.elim_some, if_neg Bool.false_ne_true] at hcount
    by_cases hid : x.rewardId = rewardId
    · have hbefore : x.holds rewardId = true := by simp [LoyaltyRedemption.holds, hid, hp]
      rw [hbefore, if_pos rfl] at hcount
      rw [if_pos hid]
      omega
    · have hbefore : x.holds rewardId = false := by simp [LoyaltyRedemption.holds, hid]
      rw [hbefore, if_neg Bool.false_ne_true] at hcount
      rw [if_neg hid]
      omega

end

/-! ## A run -/

/-- The redemption has left `pending`. -/
def Settled (id : Id) (s : Db) : Prop :=
  ∃ x : LoyaltyRedemption, s.get .redemption id = some x ∧ x.status ≠ .pending

/-- The change takes the redemption out of `pending`. -/
def Settles (id : Id) (a b : Db) : Prop := ¬ Settled id a ∧ Settled id b

def IsCancelled (id : Id) (s : Db) : Prop :=
  ∃ x : LoyaltyRedemption, s.get .redemption id = some x ∧ x.status = .cancelled

section

variable {a b : Db} {id : Id}

theorem Grows.status (h : Grows a b) {x : LoyaltyRedemption} (hx : a.get .redemption id = some x)
    (hs : x.status ≠ .pending) :
    ∃ y : LoyaltyRedemption, b.get .redemption id = some y ∧ y.status = x.status := by
  obtain ⟨y, hy, he⟩ := h.row hx
  exact ⟨y, hy, he.2.2.2.2 hs⟩

theorem Grows.settled (h : Grows a b) (ha : Settled id a) : Settled id b := by
  obtain ⟨x, hx, hs⟩ := ha
  obtain ⟨y, hy, he⟩ := h.status hx hs
  exact ⟨y, hy, by rw [he]; exact hs⟩

theorem CancelEffect.settles (h : CancelEffect id a b) : Settles id a b := by
  obtain ⟨x, hp, hx⟩ := h
  refine ⟨?_, x.cancel, hx.after, by simp [LoyaltyRedemption.cancel]⟩
  rintro ⟨y, hy, hs⟩
  rw [hx.before] at hy
  cases hy
  exact hs hp

theorem Traded.notCancelled (h : Traded a b) (hno : ¬ CancelEffect id a b)
    (ha : ¬ IsCancelled id a) : ¬ IsCancelled id b := by
  rintro ⟨y, hy, hs⟩
  refine ha ?_
  cases h with
  | untouched h => exact ⟨y, (h.redemption id).symm.trans hy, hs⟩
  | @redeemed _ _ _ v h =>
    obtain ⟨accountId, q, w, -, -, -, -, -, hv, hx⟩ := h
    by_cases hid : id = v.1
    · subst hid
      rw [hx.after] at hy
      cases hy
      rw [hv] at hs
      cases hs
    · exact ⟨y, (hx.redemptions hid).symm.trans hy, hs⟩
  | @fulfilled id' h =>
    obtain ⟨x, today, hx, hr⟩ := h
    by_cases hid : id = id'
    · subst hid
      rw [hr.get_self] at hy
      cases hy
      cases hs
    · exact ⟨y, (hr.get_ne (by simpa using hid)).symm.trans hy, hs⟩
  | @cancelled id' h =>
    by_cases hid : id = id'
    · subst hid
      exact absurd h hno
    · obtain ⟨x, hp, hx⟩ := h
      exact ⟨y, (hx.redemptions hid).symm.trans hy, hs⟩

end

/-- **What a redemption promises**, of a run from `db` to `c`. -/
structure RedemptionsKept (db : Db) (reqs : List Request) (c : Run) : Prop where
  /-- A request that succeeds has made its exchange exactly once, a refused one has made none. -/
  exchanged (i : ℕ) (req : Request) : reqs[i]? = some req →
    OneShot Untouched req.effect (c.histOf i)
  /-- A redemption leaves `pending` at most once. -/
  settled_once (id : Id) (p q : ℕ) (a b a' b' : Db) : CommitAt c.trace p a b →
    CommitAt c.trace q a' b' → Settles id a b → Settles id a' b' → p = q
  /-- It keeps the status it then has. -/
  settled_stays (i : ℕ) (a b : Db) : Commit c.trace i a b → ∀ (id : Id) (x : LoyaltyRedemption),
    a.get .redemption id = some x → x.status ≠ .pending →
      ∃ y : LoyaltyRedemption, b.get .redemption id = some y ∧ y.status = x.status
  /-- A redemption that was cancelled was refunded by exactly one commit. -/
  refunded_once (id : Id) : ¬ IsCancelled id db → IsCancelled id c.db →
    ∃ p a b, CommitAt c.trace p a b ∧ CancelEffect id a b ∧
      ∀ q a' b', CommitAt c.trace q a' b' → CancelEffect id a' b' → q = p
  /-- Stock and redemptions of a counted reward add up to what they were, and the stock is never
  overdrawn. -/
  conserved (rewardId : Id) (n : ℤ) : InStock rewardId n db →
    Conserved rewardId n (n + redeemed rewardId db) c.db

section

variable {reqs : List Request} {db : Db} {c : Run} {i : ℕ} {a b : Db}

/-- What request `i` of a run is verified against. -/
def tradeProtocols (reqs : List Request) (i : ℕ) : Protocol Db Err Ev Answer anyStep :=
  match reqs[i]? with
  | some req => req.trade
  | none => clearTrade

theorem tradeProtocols_safe (hreqs : ∀ req ∈ reqs, req.trades = true) (i : ℕ) (call : LCall Answer)
    (hi : (reqs.map Request.call)[i]? = some call) : Safe (tradeProtocols reqs i) call db := by
  rw [List.getElem?_map] at hi
  cases hr : reqs[i]? with
  | none => simp [hr] at hi
  | some req =>
    rw [hr] at hi
    cases hi
    unfold tradeProtocols
    rw [hr]
    exact Request.trade_safe (hreqs req (List.mem_of_getElem? hr)) db

theorem tradeProtocols_cond (hdb : WellKept db) (d : Run) (i : ℕ)
    (hd : d.Ok (tradeProtocols reqs) db) : (tradeProtocols reqs i).cond (d.histOf i) d.db := by
  have hkept : WellKept d.db := Steps.wellKept hd.rel hdb
  unfold tradeProtocols
  cases reqs[i]? with
  | none => exact hkept
  | some req => exact hkept

variable (hdb : WellKept db) (hreqs : ∀ req ∈ reqs, req.trades = true)
  (h : Reach Always (start db reqs) c)

include hdb hreqs h

/-- Every request of the run has made its exchange at most once, and answers for it. -/
theorem reach_oneShot {req : Request} (hi : reqs[i]? = some req) :
    OneShot Untouched req.effect (c.histOf i) := by
  have hlt : i < (reqs.map Request.call).length := by
    rw [List.length_map]
    exact (List.getElem?_eq_some_iff.mp hi).1
  have hkeep := reach_keeps (tradeProtocols_safe hreqs)
    (fun d j hd _ _ => tradeProtocols_cond hdb d j hd) h hlt
  unfold tradeProtocols at hkeep
  rw [hi] at hkeep
  exact hkeep

theorem reach_traded (hc : Commit c.trace i a b) : Traded a b := by
  have hmem : Entry.commit a b ∈ c.histOf i := Config.mem_histOf.mpr hc
  cases hi : reqs[i]? with
  | none =>
    have hlt : i < (reqs.map Request.call).length := reach_owned h hc
    rw [List.length_map] at hlt
    rw [List.getElem?_eq_getElem hlt] at hi
    cases hi
  | some req =>
    rcases (reach_oneShot hdb hreqs h hi).commits a b hmem with hU | ⟨ans, hE⟩
    · exact .untouched hU
    · exact Request.effect.traded hE

omit hreqs in
/-- No commit takes anything off the record. -/
theorem reach_grows (hc : Commit c.trace i a b) : Grows a b := by
  have hsafe : ∀ (i : ℕ) (call : LCall Answer), (reqs.map Request.call)[i]? = some call →
      Safe (bookProtocol fun _ _ => True) call db := by
    intro i call hi
    rw [List.getElem?_map] at hi
    obtain ⟨req, -, rfl⟩ := Option.map_eq_some_iff.mp hi
    exact Request.safe policy_true (allowed_true req) db
  exact Steps.grows (reach_commits hsafe (fun d _ hd _ _ => Steps.wellKept hd.rel hdb) h hc)

omit hreqs in
/-- **A redemption leaves `pending` once.** -/
theorem reach_settles_once {id : Id} {p q : ℕ} {a' b' : Db} (hp : CommitAt c.trace p a b)
    (hq : CommitAt c.trace q a' b') (hs : Settles id a b) (hs' : Settles id a' b') : p = q := by
  obtain ⟨i, hp⟩ := hp
  obtain ⟨j, hq⟩ := hq
  exact (reach_linear h).once (F := Settled id)
    (fun _ _ _ hc => (reach_grows hdb h hc).settled) hp hq hs.2 hs.1 hs'.2 hs'.1

/-- **A redemption that was cancelled was refunded**, once. -/
theorem reach_refunded {id : Id} (hdbc : ¬ IsCancelled id db) (hcc : IsCancelled id c.db) :
    ∃ p a b, CommitAt c.trace p a b ∧ CancelEffect id a b ∧
      ∀ q a' b', CommitAt c.trace q a' b' → CancelEffect id a' b' → q = p := by
  by_contra hno
  have hnone : ∀ i a b, Commit c.trace i a b → ¬ CancelEffect id a b := by
    intro i a b hc hE
    obtain ⟨p, hp⟩ := commitAt_of_commit hc
    refine hno ⟨p, a, b, hp, hE, fun q a' b' hq hE' => ?_⟩
    exact reach_settles_once hdb h hq hp hE'.settles hE.settles
  exact (reach_linear h).carry (F := fun s => ¬ IsCancelled id s)
    (fun i a b hc => (reach_traded hdb hreqs h hc).notCancelled (hnone i a b hc)) hdbc hcc

/-- **Redemptions.** In every interleaving of redeem, fulfil and cancel requests, with any failures,
the run keeps what a redemption promises. -/
theorem reach_redemptions : RedemptionsKept db reqs c where
  exchanged _ _ hi := reach_oneShot hdb hreqs h hi
  settled_once _ _ _ _ _ _ _ hp hq hs hs' := reach_settles_once hdb h hp hq hs hs'
  settled_stays _ _ _ hc _ _ hx hs := (reach_grows hdb h hc).status hx hs
  refunded_once _ h0 h1 := reach_refunded hdb hreqs h h0 h1
  conserved rewardId n hn :=
    (reach_linear h).carry (F := Conserved rewardId n (n + redeemed rewardId db))
      (fun _ _ _ hc => (reach_traded hdb hreqs h hc).conserved) ⟨n, hn, rfl, id⟩

end

/-- A patron with twenty points. -/
def ada : LoyaltyAccount :=
  { orgId := 1, customerId := 10, tierId := none, referralCode := "AAAA2222", pointsBalance := 20 }

def voucher : LoyaltyReward := { orgId := 1, name := "Voucher", pointsCost := 10, stock := some 1 }

def shop : Db :=
  (((Rel.empty.set .program 1 { orgId := 1 }).set .customer 10 { orgId := 1, name := "Ada" }).set
    .account 20 ada).set .reward 30 voucher

theorem shop_wellKept : WellKept shop :=
  (((wellKept_empty.insert (by decide) (by decide +kernel) (by decide +kernel)).insert
    (by decide) (by decide +kernel) (by decide +kernel)).insert
    (by decide) (by decide +kernel) (by decide +kernel)).insert
    (by decide) (by decide +kernel) (by decide +kernel)

def cancelOrFulfil : List Request :=
  [.redeemReward 1 10 30, .cancelRedemption 1 1, .fulfillRedemption 1 1]

def bothFindPending : List (ℕ × Move Err) :=
  List.replicate 50 (0, .go 1) ++ List.replicate 4 (1, .go 1) ++ List.replicate 4 (2, .go 1) ++
    List.replicate 22 (1, .go 1) ++ List.replicate 4 (2, .go 1)

set_option maxRecDepth 100000 in
theorem reach_redemptions_bothFindPending : ∃ c : Run,
    Reach Always (start shop cancelOrFulfil) c ∧
      (c.db.get .account 20).map (·.pointsBalance) = some 20 ∧
      (c.db.get .reward 30).map (·.stock) = some (some 1) ∧
      (c.answersOf 2).any (refused (.badRequest "Redemption is already fulfilled or cancelled")) =
        true ∧
      RedemptionsKept shop cancelOrFulfil c := by
  obtain ⟨c, hc, hp⟩ := exists_reach_anywhere
    (start shop cancelOrFulfil) bothFindPending
    (fun c => decide ((c.db.get .account 20).map (·.pointsBalance) = some 20 ∧
      (c.db.get .reward 30).map (·.stock) = some (some 1) ∧
      (c.answersOf 2).any (refused (.badRequest "Redemption is already fulfilled or cancelled")) =
        true)) (by decide +kernel)
  obtain ⟨hb, hs, hr⟩ := of_decide_eq_true hp
  exact ⟨c, hc, hb, hs, hr, reach_redemptions shop_wellKept (by decide) hc⟩

end PatronLoyalty.Loyalty
