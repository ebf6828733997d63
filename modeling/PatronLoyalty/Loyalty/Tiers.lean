import Mathlib
import PatronLoyalty.Loyalty.Transactions
import PatronLoyalty.Txn.Sequential

/-!
# The tier law

Tiers are looked up after every movement of an account: one with the greatest threshold the lifetime
points reach, and of several with one threshold any. An upgrade is told apart by the identifier of the
tier, not by its threshold. So the law is proved for the runs in which an account that already has
the greatest threshold is in the only tier that has it (`Unambiguous`), and in which a cancelled
redemption, whose refund is posted without its events, does not lift the account (`TierSettled`).

Headline: **`tierRun_lawful`**.
-/

namespace PatronLoyalty.Loyalty

open Txn Relation

/-! ## Operations -/

/-- What moves the points of an account, with the events its service emits for it, and the creation
of tiers in between. -/
inductive TierAct
  | createTier (data : TierData)
  | applyPoints (accountId : Id) (points : ℤ) (type : LedgerType) (opts : PointsOpts)
  | redeem (accountId rewardId : Id)
  | cancel (redemptionId : Id)
  | advance (customerId accountId : Id) (amount : ℤ) (challenge : Id × LoyaltyChallenge)
  | play (accountId : Id) (gameType : PatronGameType)

/-- The ledger transaction of `redeemReward` and the events that follow it. -/
def redeemPoints (orgId accountId rewardId : Id) : LCall Unit := do
  let (_, burnResult) ← withTenant (redeemTx orgId accountId rewardId)
  dispatchApplyPointsSideEffects orgId accountId burnResult
    { sourceType := "reward", sourceId := toString rewardId }

/-- One turn of the loop of `incrementChallengeProgress`. -/
def challengePoints (orgId customerId accountId : Id) (amount : ℤ)
    (challenge : Id × LoyaltyChallenge) : LCall Unit := do
  let pointsResult ← withTenant (advanceChallenge orgId customerId accountId amount challenge)
  dispatchIfAny orgId accountId pointsResult { sourceType := "manual" }

def TierAct.call (orgId : Id) : TierAct → LCall Unit
  | createTier data => do
    let _ ← Loyalty.createTier orgId data
    pure ()
  | applyPoints accountId points type opts => do
    let _ ← Loyalty.applyPoints orgId accountId points type opts
    pure ()
  | redeem accountId rewardId => redeemPoints orgId accountId rewardId
  | cancel redemptionId => do
    let _ ← cancelRedemption orgId redemptionId
    pure ()
  | advance customerId accountId amount challenge =>
    challengePoints orgId customerId accountId amount challenge
  | play accountId gameType => do
    let _ ← playPatronGame orgId accountId gameType
    pure ()

/-- A tier upgrade is among the events. -/
def upgraded (es : List Ev) : Bool := es.any fun
  | .tierUpgraded .. => true
  | _ => false

/-! ## Thresholds -/

/-- The threshold of an account's tier; `⊥` where it has none. -/
def thresholdOf (accountId : Id) (s : Db) : WithBot ℤ :=
  (((s.get .account accountId).bind (·.tierId)).bind (s.get .tier)).map (·.minLifetimePoints)

/-- The account is in a tier with the greatest threshold its lifetime points reach, and in none
where they reach none. -/
def TopTier (orgId accountId : Id) (s : Db) : Prop :=
  ∃ r : LoyaltyAccount, s.get .account accountId = some r ∧
    ((r.tierId = none ∧ ReachesNone orgId r.lifetimePointsEarned s) ∨
      ∃ id t, r.tierId = some id ∧ Reaches orgId r.lifetimePointsEarned id t s)

/-- The account's tier, if any, is one its lifetime points reach, as `bronze` with its threshold of
zero is for a new account; tiers have slugs. -/
structure Standing (orgId accountId : Id) (s : Db) : Prop where
  reached {r : LoyaltyAccount} {id : Id} : s.get .account accountId = some r →
    r.tierId = some id → ∃ t : LoyaltyTier, s.get .tier id = some t ∧ t.orgId = orgId ∧
      t.minLifetimePoints ≤ r.lifetimePointsEarned
  slug {id : Id} {t : LoyaltyTier} : s.get .tier id = some t → t.slug ≠ ""

/-- Once `gain` is earned, the account's tier is the only one with the greatest threshold reached,
if it has the greatest threshold at all. -/
def Unambiguous (orgId accountId : Id) (gain : ℤ) (s : Db) : Prop :=
  ∀ (r : LoyaltyAccount) (id id' : Id) (t t' : LoyaltyTier),
    s.get .account accountId = some r → r.tierId = some id →
    Reaches orgId (r.lifetimePointsEarned + gain) id t s →
    Reaches orgId (r.lifetimePointsEarned + gain) id' t' s → id' = id

def TierSettled (orgId accountId : Id) (s : Db) : Prop :=
  ∀ (r : LoyaltyAccount) (id : Id) (t : LoyaltyTier), s.get .account accountId = some r →
    s.get .tier id = some t → t.orgId = orgId → t.minLifetimePoints ≤ r.lifetimePointsEarned →
    (t.minLifetimePoints : WithBot ℤ) ≤ thresholdOf accountId s

def lifetimeGain (type : LedgerType) (points : ℤ) : ℤ := if isLifetimeEarnType type then points else 0

def TierAct.gain : TierAct → ℤ
  | applyPoints _ points type _ => lifetimeGain type points
  | _ => 0

/-- **The condition on an operation**, in the state before it. -/
def TierAct.Clear (orgId accountId : Id) (s : Db) : TierAct → Prop
  | createTier _ => True
  | cancel _ => TierSettled orgId accountId s
  | act => Unambiguous orgId accountId act.gain s

/-! ## Runs -/

/-- One operation of a run. -/
structure Stage where
  before : Db
  events : List Ev
  after : Db

def Stage.Moved (accountId : Id) (g : Stage) : Prop :=
  ∃ l : LoyaltyPointLedger, g.after.log = g.before.log ++ [l] ∧ l.accountId = accountId

/-- **The tier law** of one operation. -/
structure Stage.Lawful (orgId accountId : Id) (g : Stage) : Prop where
  monotone : thresholdOf accountId g.before ≤ thresholdOf accountId g.after
  top : g.Moved accountId → TopTier orgId accountId g.after
  told : g.Moved accountId →
    (upgraded g.events = true ↔ thresholdOf accountId g.before < thresholdOf accountId g.after)

/-- The operation on the store `s`, with the inputs of `env`. -/
def TierAct.stage (orgId : Id) (act : TierAct) (env : Env) (s : Db) : Stage :=
  let r := (act.call orgId).eval env 0 s
  ⟨s, r.events, r.db⟩

/-- The operations of an organisation one after the other, each with inputs of its own and each
under its condition. -/
inductive TierRun (orgId accountId : Id) (db : Db) : List Stage → Db → Prop
  | start : TierRun orgId accountId db [] db
  | act {h : List Stage} {s : Db} (act : TierAct) (env : Env) :
      TierRun orgId accountId db h s → act.Clear orgId accountId s →
      TierRun orgId accountId db (h ++ [act.stage orgId env s]) (act.stage orgId env s).after

/-! ## A movement and its tier -/

/-- Accounts, tiers and the ledger are left alone. -/
structure Aside (a b : Db) : Prop extends SameBooks a b where
  tier (id : Id) : b.get .tier id = a.get .tier id

/-- A transaction that makes one movement and leaves other accounts and the tiers alone. -/
structure Ledgered (m : Movement) (r r' : LoyaltyAccount) (slug : Option String) (a b : Db) :
    Prop where
  steps : ∃ a₁ b₁, Aside a a₁ ∧ Posts m r r' a₁ b₁ ∧ Aside b₁ b
  tier : Promotes m.orgId (m.move r) r'.tierId slug a

section

variable {a b c : Db} {orgId accountId : Id} {id : Id} {r : LoyaltyAccount}

theorem Aside.refl (a : Db) : Aside a a := ⟨.refl a, fun _ => rfl⟩

theorem Aside.trans (h : Aside a b) (h' : Aside b c) : Aside a c :=
  ⟨h.toSameBooks.trans h'.toSameBooks, fun id => (h'.tier id).trans (h.tier id)⟩

theorem aside_of_replaced {k : Kind} {old : Option (Row k)} {new : Row k} (hk : k ≠ .account)
    (ht : k ≠ .tier) (h : Rel.Replaced k id old new a b) : Aside a b :=
  ⟨sameBooks_of_replaced hk h, fun _ => h.get_ne fun he => ht (congrArg Prod.fst he).symm⟩

theorem TakesStock.aside {rewardId : Id} {counted : Bool} (h : TakesStock rewardId counted a b) :
    Aside a b := ⟨h.sameBooks, fun id => h.get_ne (by simp) id⟩

theorem Reaches.of_tier {points : ℤ} {t : LoyaltyTier} (h : Reaches orgId points id t a)
    (hab : ∀ id, b.get .tier id = a.get .tier id) : Reaches orgId points id t b :=
  ⟨by rw [hab]; exact h.found, h.org, h.reached, fun hg => h.greatest (by rw [← hab]; exact hg)⟩

theorem ReachesNone.of_tier {points : ℤ} (h : ReachesNone orgId points a)
    (hab : ∀ id, b.get .tier id = a.get .tier id) : ReachesNone orgId points b :=
  fun id t hg => h id t (by rw [← hab]; exact hg)

theorem thresholdOf_congr (ha : b.get .account accountId = a.get .account accountId)
    (ht : ∀ id, b.get .tier id = a.get .tier id) :
    thresholdOf accountId b = thresholdOf accountId a := by
  unfold thresholdOf
  rw [ha, show b.get .tier = a.get .tier from funext ht]

theorem thresholdOf_some {t : LoyaltyTier} (hr : a.get .account accountId = some r)
    (hid : r.tierId = some id)
    (ht : a.get .tier id = some t) : thresholdOf accountId a = (t.minLifetimePoints : WithBot ℤ) := by
  unfold thresholdOf
  rw [hr, Option.bind_some, hid, Option.bind_some, ht]
  rfl

theorem thresholdOf_none (hr : a.get .account accountId = some r)
    (hid : r.tierId = none) : thresholdOf accountId a = ⊥ := by
  unfold thresholdOf
  rw [hr, Option.bind_some, hid]
  rfl

def Movement.gain (m : Movement) : ℤ := lifetimeGain m.type m.points

theorem Movement.move_lifetime (m : Movement) (r : LoyaltyAccount) :
    (m.move r).lifetimePointsEarned = r.lifetimePointsEarned + m.gain := by
  unfold Movement.move Movement.gain lifetimeGain
  cases m.type <;> simp [isDebitLedgerType, isLifetimeEarnType, LoyaltyAccount.debited,
    LoyaltyAccount.credited]

theorem Movement.move_tierId (m : Movement) (r : LoyaltyAccount) : (m.move r).tierId = r.tierId := by
  unfold Movement.move
  split <;> rfl

theorem Promotes.of_tier {tierId : Option Id} {slug : Option String}
    (h : Promotes orgId r tierId slug a) (hab : ∀ id, b.get .tier id = a.get .tier id) :
    Promotes orgId r tierId slug b := by
  cases h with
  | none h ht hs => exact .none (h.of_tier hab) ht hs
  | kept h hr ht hs => exact .kept (h.of_tier hab) hr ht hs
  | raised h hr ht hs => exact .raised (h.of_tier hab) hr ht hs

namespace Ledgered

variable {m : Movement} {r r' : LoyaltyAccount} {slug : Option String}

theorem before (h : Ledgered m r r' slug a b) : a.get .account m.accountId = some r := by
  obtain ⟨⟨a1, b1, ha, hp, -⟩, -⟩ := h
  rw [← ha.account]
  exact hp.found

theorem after (h : Ledgered m r r' slug a b) : b.get .account m.accountId = some r' := by
  obtain ⟨⟨a1, b1, -, hp, hb⟩, -⟩ := h
  rw [hb.account]
  exact hp.get_self

theorem tiers (h : Ledgered m r r' slug a b) (id : Id) : b.get .tier id = a.get .tier id := by
  obtain ⟨⟨a1, b1, ha, hp, hb⟩, -⟩ := h
  rw [hb.tier, hp.get_ne (by simp), ha.tier]

theorem others (h : Ledgered m r r' slug a b) (hne : accountId ≠ m.accountId) :
    b.get .account accountId = a.get .account accountId := by
  obtain ⟨⟨a1, b1, ha, hp, hb⟩, -⟩ := h
  rw [hb.account, hp.get_ne (by simpa using hne), ha.account]

theorem log (h : Ledgered m r r' slug a b) :
    b.log = a.log ++ [m.row (m.move r).pointsBalance] := by
  obtain ⟨⟨a1, b1, ha, hp, hb⟩, -⟩ := h
  rw [hb.log, hp.log, ha.log]

theorem positive (h : Ledgered m r r' slug a b) : 0 < m.points := by
  obtain ⟨⟨a1, b1, -, hp, -⟩, -⟩ := h
  exact hp.positive

theorem lifetime (h : Ledgered m r r' slug a b) :
    r'.lifetimePointsEarned = r.lifetimePointsEarned + m.gain := by
  obtain ⟨⟨a1, b1, -, hp, -⟩, -⟩ := h
  rw [(core_eq hp.moved).2.2.2.2.1, m.move_lifetime]

theorem gain_nonneg (h : Ledgered m r r' slug a b) : 0 ≤ m.gain := by
  unfold Movement.gain lifetimeGain
  split
  · exact h.positive.le
  · exact le_refl 0

/-- **The tier after a movement.** -/
theorem topTier (h : Ledgered m r r' slug a b) (hs : Standing m.orgId m.accountId a) :
    TopTier m.orgId m.accountId b := by
  have hlife : (m.move r).lifetimePointsEarned = r'.lifetimePointsEarned := by
    rw [m.move_lifetime, h.lifetime]
  refine ⟨r', h.after, ?_⟩
  cases h.tier with
  | none hn ht _ =>
    refine Or.inl ⟨?_, fun id t hg ho => ?_⟩
    · -- a tier the account had before was reached, and would still be
      rw [ht, m.move_tierId]
      cases hid : r.tierId with
      | none => rfl
      | some id =>
        obtain ⟨t, ht, ho, hle⟩ := hs.reached h.before hid
        have := hn id t ht ho
        have := h.gain_nonneg
        rw [m.move_lifetime] at *
        omega
    · rw [← hlife]
      exact hn id t (by rw [← h.tiers]; exact hg) ho
  | @kept id t hr hid ht _ =>
    refine Or.inr ⟨id, t, ht.trans hid, ?_⟩
    rw [← hlife]
    exact hr.of_tier h.tiers
  | @raised id t hr _ ht _ =>
    refine Or.inr ⟨id, t, ht, ?_⟩
    rw [← hlife]
    exact hr.of_tier h.tiers

theorem standing (h : Ledgered m r r' slug a b) (hs : Standing m.orgId accountId a) :
    Standing m.orgId accountId b where
  reached {q id} hq hid := by
    by_cases hne : accountId = m.accountId
    · subst hne
      obtain ⟨q', hq', htop⟩ := h.topTier hs
      rw [hq] at hq'
      cases hq'
      rcases htop with ⟨hnone, -⟩ | ⟨id', t, hid', hr⟩
      · rw [hid] at hnone
        cases hnone
      · rw [hid] at hid'
        cases hid'
        exact ⟨t, hr.found, hr.org, hr.reached⟩
    · rw [h.others hne] at hq
      obtain ⟨t, ht, hrest⟩ := hs.reached hq hid
      exact ⟨t, by rw [h.tiers]; exact ht, hrest⟩
  slug ht := hs.slug (by rw [← h.tiers]; exact ht)

theorem threshold_le (h : Ledgered m r r' slug a b) (hs : Standing m.orgId m.accountId a) {id : Id}
    {t : LoyaltyTier} (hr : Reaches m.orgId (m.move r).lifetimePointsEarned id t a) :
    thresholdOf m.accountId a ≤ (t.minLifetimePoints : WithBot ℤ) := by
  cases hid : r.tierId with
  | none =>
    rw [thresholdOf_none h.before hid]
    exact bot_le
  | some id0 =>
    obtain ⟨t0, ht0, ho, hle⟩ := hs.reached h.before hid
    rw [thresholdOf_some h.before hid ht0, WithBot.coe_le_coe]
    refine hr.greatest ht0 ho ?_
    have := h.gain_nonneg
    rw [m.move_lifetime]
    omega

theorem threshold_of_tierId (h : Ledgered m r r' slug a b) (hid : r'.tierId = r.tierId) :
    thresholdOf m.accountId b = thresholdOf m.accountId a := by
  unfold thresholdOf
  rw [h.before, h.after, Option.bind_some, Option.bind_some, hid,
    show b.get .tier = a.get .tier from funext h.tiers]

/-- **The threshold of an account never falls.** -/
theorem monotone (h : Ledgered m r r' slug a b) (hs : Standing m.orgId m.accountId a) :
    thresholdOf m.accountId a ≤ thresholdOf m.accountId b := by
  cases h.tier with
  | none _ ht _ => exact (h.threshold_of_tierId (ht.trans (m.move_tierId r))).ge
  | kept hr hid ht _ =>
    rw [thresholdOf_some h.after (ht.trans hid) (by rw [h.tiers]; exact hr.found)]
    exact h.threshold_le hs hr
  | raised hr _ ht _ =>
    rw [thresholdOf_some h.after ht (by rw [h.tiers]; exact hr.found)]
    exact h.threshold_le hs hr

/-- **A new tier is a higher one**, when the account was not in another tier with its threshold. -/
theorem slug_iff (h : Ledgered m r r' slug a b) (hs : Standing m.orgId m.accountId a)
    (hu : Unambiguous m.orgId m.accountId m.gain a) :
    (truthy slug).isSome = true ↔ thresholdOf m.accountId a < thresholdOf m.accountId b := by
  cases h.tier with
  | none _ ht hslug =>
    rw [h.threshold_of_tierId (ht.trans (m.move_tierId r)), hslug]
    simp [truthy]
  | kept _ _ ht hslug =>
    rw [h.threshold_of_tierId (ht.trans (m.move_tierId r)), hslug]
    simp [truthy]
  | @raised id t hr hne ht hslug =>
    have hset : (truthy slug).isSome = true := by
      rw [hslug]
      unfold truthy
      split
      · rename_i heq
        exact absurd (Option.some.inj heq) (hs.slug hr.found)
      · rfl
    refine iff_of_true hset ?_
    rw [thresholdOf_some h.after ht (by rw [h.tiers]; exact hr.found)]
    refine lt_of_le_of_ne (h.threshold_le hs hr) fun heq => hne ?_
    rw [m.move_tierId]
    cases hid : r.tierId with
    | none =>
      rw [thresholdOf_none h.before hid] at heq
      exact absurd heq.symm WithBot.coe_ne_bot
    | some id0 =>
      obtain ⟨t0, ht0, ho, hle⟩ := hs.reached h.before hid
      rw [thresholdOf_some h.before hid ht0, WithBot.coe_inj] at heq
      rw [m.move_lifetime] at hr
      have := h.gain_nonneg
      have hr0 : Reaches m.orgId (r.lifetimePointsEarned + m.gain) id0 t0 a :=
        ⟨ht0, ho, by omega, fun hg ho' hle' => heq ▸ hr.greatest hg ho' hle'⟩
      rw [hu r id0 id t0 t h.before hid hr0 hr]

theorem threshold_eq (h : Ledgered m r r' slug a b) (hs : Standing m.orgId m.accountId a)
    (hset : TierSettled m.orgId m.accountId a) (hgain : m.gain = 0) :
    thresholdOf m.accountId b = thresholdOf m.accountId a := by
  refine le_antisymm ?_ (h.monotone hs)
  obtain ⟨q, hq, htop⟩ := h.topTier hs
  rw [h.after] at hq
  cases hq
  rcases htop with ⟨hnone, -⟩ | ⟨id, t, hid, hr⟩
  · rw [thresholdOf_none h.after hnone]
    exact bot_le
  · rw [thresholdOf_some h.after hid hr.found]
    have hle := hr.reached
    rw [h.lifetime, hgain, Int.add_zero] at hle
    exact hset r id t h.before (by rw [← h.tiers]; exact hr.found) hr.org hle

end Ledgered

theorem Ledgered.aside {m : Movement} {r' : LoyaltyAccount} {slug : Option String}
    (h : Ledgered m r r' slug a b) (hb : Aside b c) : Ledgered m r r' slug a c := by
  obtain ⟨⟨a1, b1, ha, hp, hb1⟩, ht⟩ := h
  exact ⟨⟨a1, b1, ha, hp, hb1.trans hb⟩, ht⟩

/-- **What an operation came to**: no movement, or one that earned `gain` and found the tier
`slug` to be new. -/
def ActedFor (orgId : Id) (gain : ℤ) (slug : Option String) (a b : Db) : Prop :=
  slug = none ∧ Aside a b ∨
    ∃ m r r', m.orgId = orgId ∧ m.gain = gain ∧ Ledgered m r r' slug a b

end

/-! ## The transactions -/

section

variable {A : Db → Prop} {exc : Err → Db → Prop} {R : Db → Db → Prop} {ws : List DbWrite}
  {s : Db} {orgId accountId : Id} {amount points : ℤ} {opts : PointsOpts} {customerId rewardId : Id}
  {a b : Db} {es : List Ev}

theorem grows_alone (a b : Db) (h : (alone : Guarantee Db).rel a b) : Grows a b := by
  rw [alone_rel] at h
  subst h
  exact .refl a

/-- What a transaction has done when it has posted points: one movement. -/
theorem did_ledgered {m : Movement} {r r' : LoyaltyAccount} {slug : Option String} {s0 : Db}
    (hR : ∀ a b, R a b → Aside a b) (hd : Did alone (Comp R (Posts m r r')) ws s)
    (ht : Told alone R m r r' slug s0 s) : Did alone (Ledgered m r r' slug) ws s := by
  refine did_alone ?_
  obtain ⟨s1, b, -, h1, ⟨n, hn, hp⟩, hpr⟩ := ht
  rw [alone_rel] at h1
  subst h1
  obtain ⟨n', hn', hp'⟩ := hd.here
  refine ⟨⟨n', _, hR _ _ hn', hp', .refl _⟩, hpr.of_tier fun id => ?_⟩
  rw [hp.get_ne (by simp), (hR _ _ hn).tier]

theorem gain_of_adjustment {t : Time} :
    (⟨orgId, accountId, points, adjustmentType amount, opts, t⟩ : Movement).gain = 0 := by
  unfold Movement.gain lifetimeGain adjustmentType
  split <;> simp_all [isLifetimeEarnType]

/-- A ledger transaction, as its answer says: idempotent, or a movement. -/
def Answered (orgId : Id) (gain : ℤ) (res : ApplyPointsTxResult) (a b : Db) : Prop :=
  (res.idempotent = true ∧ b = a) ∨
    (res.idempotent = false ∧ ActedFor orgId gain res.tierUpgradeSlug a b)

theorem wp_applyPoints_acted {type : LedgerType} :
    Tx.wp alone A (fun res ws s => Answered orgId (lifetimeGain type points) res s (view ws s))
      AnyErr (applyPointsInTransaction orgId accountId points type opts) [] s := by
  have posting : 0 < points → ∀ s0, Tx.wp alone A
      (fun res ws s => Answered orgId (lifetimeGain type points) res s (view ws s))
      AnyErr (postPoints orgId accountId points type opts) [] s0 := by
    intro hpos s0
    refine wp_postPoints did_start hpos (fun s' ws' t r r' slug _ _ hd ht => ?_)
      (fun _ _ _ _ _ _ _ _ => trivial) (fun _ _ _ _ _ _ _ _ _ _ => trivial)
    have hl := did_ledgered (fun a b hab => by rw [hab]; exact .refl b) hd ht
    exact Or.inr ⟨rfl, Or.inr ⟨_, r, r', rfl, rfl, hl.here⟩⟩
  rw [applyPointsInTransaction]
  split
  · trivial
  · rename_i hle
    split
    · exact posting (not_le.mp hle) s
    · rename_i hsrc
      rw [Tx.wp_do]
      refine wp_findExistingEarnLedger hsrc (did_start (s := s)) (fun s1 l _ _ hd1 _ => ?_)
        (fun s1 _ _ _ _ => posting (not_le.mp hle) s1)
      dsimp only
      rw [Tx.wp_do]
      refine wp_findByIdOrThrow hd1 (fun s2 q _ _ hd2 _ _ => ?_) (fun _ _ _ _ _ => trivial)
      exact Or.inl ⟨rfl, hd2.here.symm⟩

theorem wp_redeemTx_acted :
    Tx.wp alone A (fun res ws s => Answered orgId 0 res.2 s (view ws s)) AnyErr
      (redeemTx orgId accountId rewardId) [] s := by
  rw [redeemTx, Tx.wp_do]
  refine wp_findById (k := .reward) did_start (fun s1 w _ _ hd1 _ _ => ?_) (fun _ _ _ _ _ => trivial)
  cases (some w : Option LoyaltyReward).filter (·.active) with
  | none => trivial
  | some w =>
    dsimp only
    rw [Tx.wp_do]
    intro today
    show Tx.wp alone A _ AnyErr (Tx.bind (checkAvailable w today) _) [] s1
    rw [Tx.wp_bind]
    refine wp_checkAvailable ?_ (fun _ _ => trivial)
    rw [Tx.wp_do]
    refine wp_applyPointsUnchecked hd1 (earnSource_eq_none _ rfl)
      (fun s2 ws2 t r r' slug _ _ hd2 ht => ?_) (fun _ _ => trivial)
    have hl := did_ledgered (fun a b hab => by rw [hab]; exact .refl b) hd2 ht
    rw [Tx.wp_do]
    refine wp_takeStock hl (fun s3 ws3 hd3 => ?_) (fun _ _ => trivial)
    rw [Tx.wp_do]
    refine wp_create (k := .redemption) hd3 (fun s4 ws4 redemptionId _ _ hd4 => ?_)
      (fun _ _ _ => trivial)
    obtain ⟨n2, ⟨n1, hl, hstock⟩, hr⟩ := hd4.here
    exact Or.inr ⟨rfl, Or.inr ⟨_, r, r', rfl, rfl,
      (hl.aside hstock.aside).aside (aside_of_replaced (by decide) (by decide) hr)⟩⟩

theorem wp_adjustCustomerPoints_ledgered {description : String}
    {post : ApplyPointsTxResult → List DbWrite → Db → Prop} (h : Did alone R ws s)
    (hR : ∀ a b, R a b → Aside a b) (hpost : ∀ s' ws' m r r' slug, m.orgId = orgId → m.gain = 0 →
      Did alone (Ledgered m r r' slug) ws' s' → post (m.result r' slug) ws' s')
    (hexc : ∀ e s', exc e s') :
    Tx.wp alone A post exc (adjustCustomerPoints orgId customerId points description) ws s :=
  wp_adjustCustomerPoints grows_alone h (fun s' ws' _ _ r r' slug _ _ _ hd ht =>
    hpost s' ws' _ r r' slug rfl gain_of_adjustment (did_ledgered hR hd ht)) hexc

theorem wp_returnStock_aside {reward : LoyaltyReward} {post : Unit → List DbWrite → Db → Prop}
    (h : Did alone R ws s) (hpost : ∀ s' ws', Did alone (Comp R Aside) ws' s' → post () ws' s') :
    Tx.wp alone A post exc (returnStock orgId rewardId reward) ws s := by
  have unchanged : ∀ {s'}, Did alone R ws s' → Did alone (Comp R Aside) ws s' :=
    fun hd => hd.mono fun a b hR => ⟨b, hR, .refl b⟩
  rw [returnStock]
  split
  · rw [Tx.wp_do]
    refine wp_updateMany (k := .reward) h (fun r => rfl) (fun s1 ws1 w _ _ _ _ hd => ?_)
      (fun s1 _ _ hd _ => hpost s1 ws (unchanged hd))
    refine hpost s1 ws1 (hd.mono ?_)
    rintro a b ⟨n, hR, hr⟩
    exact ⟨n, hR, aside_of_replaced (by decide) (by decide) hr⟩
  · exact hpost s ws (unchanged h)

theorem wp_cancelTx_acted {redemptionId : Id} :
    Tx.wp alone A (fun _ ws s => ∃ slug, ActedFor orgId 0 slug s (view ws s)) AnyErr
      (cancelTx orgId redemptionId) [] s := by
  rw [cancelTx, Tx.wp_do]
  refine wp_findPending did_start (fun s1 x0 hd1 _ _ _ => ?_) (fun _ _ => trivial)
  rw [Tx.wp_do]
  refine wp_findByIdOrThrow hd1 (fun s2 w _ _ hd2 hw hwo => ?_) (fun _ _ _ _ _ => trivial)
  rw [Tx.wp_do]
  refine wp_findByIdOrThrow hd2 (fun s3 q _ _ hd3 _ _ => ?_) (fun _ _ _ _ _ => trivial)
  rw [Tx.wp_do]
  refine wp_claimPending hd3 (fun s4 ws4 x _ hd4 => ?_) (fun _ _ => trivial)
  rw [Tx.wp_do]
  refine wp_adjustCustomerPoints_ledgered hd4 (fun a b hab => ?_)
    (fun s5 ws5 m r r' slug ho hg hd5 => ?_) (fun _ _ => trivial)
  · obtain ⟨n, rfl, hr⟩ := hab
    exact aside_of_replaced (by decide) (by decide) hr
  rw [Tx.wp_do]
  refine wp_returnStock_aside hd5 fun s6 ws6 hd6 => ?_
  rw [Tx.wp_do]
  refine wp_findByIdOrThrow hd6 (fun s7 y _ _ hd7 _ _ => ?_) (fun _ _ _ _ _ => trivial)
  obtain ⟨n, hl, hb⟩ := hd7.here
  exact ⟨slug, Or.inr ⟨m, r, r', ho, hg, hl.aside hb⟩⟩

/-- A transaction that may have moved points, as its answer says. -/
def ActedIfAny (orgId : Id) (res : Option ApplyPointsTxResult) (a b : Db) : Prop :=
  (res = none ∧ Aside a b) ∨
    ∃ x, res = some x ∧ Answered orgId 0 x a b

theorem wp_advanceChallenge_acted {challenge : Id × LoyaltyChallenge} :
    Tx.wp alone A (fun res ws s => ActedIfAny orgId res s (view ws s)) AnyErr
      (advanceChallenge orgId customerId accountId amount challenge) [] s := by
  rw [advanceChallenge, Tx.wp_do]
  refine wp_upsertProgress did_start (fun s1 ws1 id old p hd1 => ?_) (fun _ _ => trivial)
  have hd1' : Did alone Aside ws1 s1 := hd1.mono <| by
    rintro a b ⟨n, rfl, hb⟩
    exact aside_of_replaced (by decide) (by decide) hb.result
  dsimp only
  split
  · rw [Tx.wp_do]
    intro today
    show Tx.wp alone A _ AnyErr (Tx.bind (update orgId .progress id _) _) ws1 s1
    rw [Tx.wp_bind]
    refine wp_update (k := .progress) hd1' (fun r => rfl) (fun s2 ws2 q _ _ _ hd2 => ?_)
      (fun _ _ _ _ _ => trivial)
    have hd2' : Did alone Aside ws2 s2 := hd2.mono <| by
      rintro a b ⟨n, hn, hr⟩
      exact hn.trans (aside_of_replaced (by decide) (by decide) hr)
    split
    · rw [Tx.wp_do]
      refine wp_adjustCustomerPoints_ledgered hd2' (fun _ _ h => h)
        (fun s3 ws3 m r r' slug ho hg hd3 => ?_) (fun _ _ => trivial)
      exact Or.inr ⟨_, rfl, Or.inr ⟨rfl, Or.inr ⟨m, r, r', ho, hg, hd3.here⟩⟩⟩
    · exact Or.inl ⟨rfl, hd2'.here⟩
  · exact Or.inl ⟨rfl, hd1'.here⟩

theorem wp_playTx_acted {gameType : PatronGameType} {outcome : Outcome} :
    Tx.wp alone A (fun res ws s => ActedIfAny orgId res s (view ws s)) AnyErr
      (playTx orgId accountId customerId gameType outcome) [] s := by
  rw [playTx, Tx.wp_do]
  refine wp_findLast (k := .gamePlay) did_start fun s1 last _ _ hd1 _ => ?_
  rw [Tx.wp_do]
  intro today
  rw [Tx.wp_pure]
  split
  · trivial
  · rw [Tx.wp_do]
    refine wp_create (k := .gamePlay) hd1 (fun s2 ws2 id _ _ hd2 => ?_) (fun _ _ _ => trivial)
    have hd2' : Did alone Aside ws2 s2 := hd2.mono <| by
      rintro a b ⟨n, rfl, hr⟩
      exact aside_of_replaced (by decide) (by decide) hr
    split
    · rw [Tx.wp_do]
      refine wp_adjustCustomerPoints_ledgered hd2' (fun _ _ h => h)
        (fun s3 ws3 m r r' slug ho hg hd3 => ?_) (fun _ _ => trivial)
      exact Or.inr ⟨_, rfl, Or.inr ⟨rfl, Or.inr ⟨m, r, r', ho, hg, hd3.here⟩⟩⟩
    · exact Or.inl ⟨rfl, hd2'.here⟩

/-! ## Tiers are only added -/

/-- Accounts and the ledger are left alone, and tiers, with slugs, are added. -/
structure Furnished (a b : Db) : Prop extends SameBooks a b where
  kept {id : Id} {t : LoyaltyTier} : a.get .tier id = some t → b.get .tier id = some t
  added {id : Id} {t : LoyaltyTier} : b.get .tier id = some t → a.get .tier id = some t ∨ t.slug ≠ ""

theorem Furnished.refl (a : Db) : Furnished a a := ⟨.refl a, id, Or.inl⟩

theorem Furnished.trans {c : Db} (h : Furnished a b) (h' : Furnished b c) : Furnished a c where
  toSameBooks := h.toSameBooks.trans h'.toSameBooks
  kept ht := h'.kept (h.kept ht)
  added ht := (h'.added ht).elim h.added Or.inr

/-- A new row of another table. -/
theorem furnished_of_replaced {k : Kind} {id : Id} {r : Row k} (hk : k ≠ .account) (ht : k ≠ .tier)
    (h : Rel.Replaced k id none r a b) : Furnished a b :=
  have ha := aside_of_replaced hk ht h
  ⟨ha.toSameBooks, fun hg => by rw [ha.tier]; exact hg, fun hg => Or.inl (by rw [← ha.tier]; exact hg)⟩

theorem furnished_of_tier {id : Id} {t : LoyaltyTier} (ht : t.slug ≠ "")
    (h : Rel.Replaced .tier id none t a b) : Furnished a b where
  toSameBooks := sameBooks_of_replaced (by decide) h
  kept {id' t'} hg := by
    by_cases hid : id' = id
    · subst hid
      rw [h.get_old] at hg
      cases hg
    · rw [h.get_ne (by simpa using hid)]
      exact hg
  added {id' t'} hg := by
    by_cases hid : id' = id
    · subst hid
      rw [h.get_self] at hg
      cases hg
      exact Or.inr ht
    · rw [h.get_ne (by simpa using hid)] at hg
      exact Or.inl hg

theorem wp_createMany_furnished {k : Kind} {rs : List (Row k)}
    {post : Unit → List DbWrite → Db → Prop} (h : Did alone Furnished ws s)
    (hrow : ∀ r ∈ rs, ∀ a b id, Rel.Replaced k id none r a b → Furnished a b)
    (hpost : ∀ s' ws', Did alone Furnished ws' s' → post () ws' s') (hexc : ∀ e s', exc e s') :
    Tx.wp alone A post exc (createMany k rs) ws s := by
  induction rs generalizing ws s with
  | nil => exact hpost s ws h
  | cons r rs ih =>
    rw [createMany, Tx.wp_do]
    refine wp_create h (fun s1 ws1 id _ _ hd => ?_) (fun _ _ _ => hexc _ _)
    refine ih (hd.mono ?_) fun q hq => hrow q (List.mem_cons_of_mem _ hq)
    rintro a b ⟨n, hn, hr⟩
    exact hn.trans (hrow r List.mem_cons_self _ _ _ hr)

theorem slug_of_defaultTiers {programId : Id} {t : LoyaltyTier} (h : t ∈ defaultTiers orgId programId) :
    t.slug ≠ "" := by
  simp only [defaultTiers, List.mem_cons, List.not_mem_nil, or_false] at h
  rcases h with rfl | rfl | rfl | rfl | rfl <;> simp

theorem wp_programTx_furnished :
    Tx.wp alone A (fun _ => Did alone Furnished) AnyErr (programTx orgId) [] s := by
  have hstart : ∀ {s' : Db}, Did alone Eq ([] : List DbWrite) s' → Did alone Furnished [] s' :=
    fun hd => hd.mono fun a b hab => by rw [hab]; exact .refl b
  rw [programTx, Tx.wp_do]
  refine wp_findFirst (k := .program) did_start (fun s1 id r _ _ hd _ _ _ => hstart hd)
    (fun s1 _ _ hd _ => ?_)
  dsimp only
  rw [Tx.wp_do]
  refine wp_create (hstart hd) (fun s2 ws2 programId _ _ hd2 => ?_) (fun _ _ _ => trivial)
  have hd2' : Did alone Furnished ws2 s2 := hd2.mono <| by
    rintro a b ⟨n, hn, hr⟩
    exact hn.trans (furnished_of_replaced (by decide) (by decide) hr)
  rw [Tx.wp_do]
  refine wp_createMany_furnished hd2'
    (fun t ht a b id hr => furnished_of_tier (slug_of_defaultTiers ht) hr) (fun s3 ws3 hd3 => ?_)
    (fun _ _ => trivial)
  rw [Tx.wp_do]
  intro createdAt
  show Tx.wp alone A _ _ (Tx.bind (createMany .earnRule _) _) ws3 s3
  rw [Tx.wp_bind]
  refine wp_createMany_furnished hd3
    (fun _ _ a b id hr => furnished_of_replaced (by decide) (by decide) hr) (fun s4 ws4 hd4 => ?_)
    (fun _ _ => trivial)
  exact wp_findByIdOrThrow hd4 (fun s5 q _ _ hd5 _ _ => hd5) (fun _ _ _ _ _ => trivial)

theorem wp_createTierTx_furnished {data : TierData} :
    Tx.wp alone A (fun _ => Did alone Furnished) AnyErr (createTierTx orgId data) [] s := by
  rw [createTierTx, Tx.wp_do]
  refine wp_findFirstOrThrow (k := .program) did_start (fun s1 id r _ _ hd _ _ _ => ?_)
    (fun _ _ _ => trivial)
  refine wp_create hd (fun s2 ws2 tierId _ _ hd2 => hd2.mono ?_) (fun _ _ _ => trivial)
  rintro a b ⟨n, rfl, hr⟩
  exact furnished_of_tier data.slugged.1 hr

/-! ## The calls -/

theorem upgraded_append (es es' : List Ev) : upgraded (es ++ es') = (upgraded es || upgraded es') :=
  List.any_append

theorem upgraded_ite {p : Prop} [Decidable p] (h : upgraded es = false) :
    upgraded (if p then es else []) = false := by
  split
  · exact h
  · rfl

/-- **The events of a movement** tell of an upgrade exactly when the lookup named a new tier. -/
theorem upgraded_sideEffects {res : ApplyPointsTxResult} (h : res.idempotent = false)
    (opts : PointsOpts) :
    upgraded (sideEffects orgId accountId res opts) = (truthy res.tierUpgradeSlug).isSome := by
  unfold sideEffects
  rw [h, if_neg Bool.false_ne_true, upgraded_append, upgraded_append, upgraded_ite rfl,
    upgraded_ite rfl, Bool.or_false, Bool.or_false]
  split
  · rename_i heq
    rw [heq]
    rfl
  · rename_i heq
    rw [heq]
    rfl

def Called (orgId : Id) (gain : ℤ) (tells : Bool) (s : Db) (es : List Ev) (s' : Db) : Prop :=
  ∃ slug, ActedFor orgId gain slug s s' ∧ upgraded es = (tells && (truthy slug).isSome)

theorem called_none {gain : ℤ} {tells : Bool} : Called orgId gain tells s [] s :=
  ⟨none, Or.inl ⟨rfl, .refl s⟩, by cases tells <;> rfl⟩

theorem leads_requireEnabled (orgId : Id) {α : Type} {f : Unit → LCall α}
    {Q : Except Err α → List Ev → Db → Prop} (h : Call.leads Q (f ()) es s)
    (herr : ∀ e, Q (.error e) es s) :
    Call.leads Q ((requireEnabled orgId).bind f) es s := by
  refine Call.leads_bind ?_
  intro n
  show Call.leads _ (if (n != 0) = true then _ else _) es s
  split
  · exact h
  · exact herr _

theorem leads_dispatch {res : ApplyPointsTxResult} {gain : ℤ} {s' : Db}
    {Q : Except Err Unit → List Ev → Db → Prop} (h : Answered orgId gain res s s')
    (hQ : ∀ es, Called orgId gain true s es s' → Q (.ok ()) es s') :
    Call.leads Q (dispatchApplyPointsSideEffects orgId accountId res opts) [] s' := by
  refine Call.leads_fireAll (hQ _ ?_)
  rw [List.nil_append]
  rcases h with ⟨hid, rfl⟩ | ⟨hid, ha⟩
  · rw [sideEffects, if_pos hid]
    exact called_none
  · exact ⟨_, ha, by rw [upgraded_sideEffects hid]; rfl⟩

theorem leads_applyPoints {type : LedgerType} :
    Call.leads (fun _ es s' => Called orgId (lifetimeGain type points) true s es s')
      (applyPoints orgId accountId points type opts) [] s := by
  refine Call.leads_handle (Call.leads_bind ?_)
  refine Call.leads_withTx (K := Answered orgId (lifetimeGain type points)) wp_applyPoints_acted
    (fun res s' hres => ?_) (fun e => ?_)
  · show Call.leads _ (if res.idempotent then _ else _) [] s'
    rcases hres with ⟨hid, rfl⟩ | ⟨hid, ha⟩
    · rw [hid]
      exact called_none
    · rw [hid]
      exact Call.leads_bind (leads_dispatch (Or.inr ⟨hid, ha⟩) fun es hc => hc)
  · show Call.leads _ (if _ then _ else _) [] s
    split
    · refine Call.leads_withTx (K := fun _ a b => b = a) ?_ (fun b s' hb => ?_) (fun _ => called_none)
      · rw [Tx.wp_do]
        refine wp_findLedger did_start (fun s1 l _ _ hd _ _ _ => ?_) (fun _ _ _ _ _ => trivial)
        dsimp only
        rw [Tx.wp_do]
        exact wp_findByIdOrThrow hd (fun s2 q _ _ hd2 _ _ => hd2.here.symm)
          (fun _ _ _ _ _ => trivial)
      · rw [hb]
        exact called_none
    · exact called_none

theorem leads_redeemPoints :
    Call.leads (fun _ es s' => Called orgId 0 true s es s') (redeemPoints orgId accountId rewardId)
      [] s := by
  refine Call.leads_bind (Call.leads_withTx (K := fun res => Answered orgId 0 res.2) wp_redeemTx_acted
    (fun res s' hres => ?_) (fun _ => called_none))
  exact leads_dispatch hres fun es hc => hc

theorem leads_cancelRedemption {redemptionId : Id} :
    Call.leads (fun _ es s' => Called orgId 0 false s es s') (cancelRedemption orgId redemptionId)
      [] s := by
  refine leads_requireEnabled orgId ?_ (fun _ => called_none)
  refine Call.leads_withTx (K := fun _ a b => ∃ slug, ActedFor orgId 0 slug a b) wp_cancelTx_acted
    (fun res s' hres => ?_) (fun _ => called_none)
  obtain ⟨slug, ha⟩ := hres
  exact ⟨slug, ha, rfl⟩

theorem leads_dispatchIfAny {res : Option ApplyPointsTxResult} {s' : Db}
    {Q : Except Err Unit → List Ev → Db → Prop} (ha : ActedIfAny orgId res s s')
    (hQ : ∀ es, Called orgId 0 true s es s' → Q (.ok ()) es s') :
    Call.leads Q (dispatchIfAny orgId accountId res opts) [] s' := by
  rcases ha with ⟨rfl, ha⟩ | ⟨x, rfl, ha⟩
  · exact hQ [] ⟨none, Or.inl ⟨rfl, ha⟩, rfl⟩
  · exact leads_dispatch ha hQ

theorem leads_challengePoints {challenge : Id × LoyaltyChallenge} :
    Call.leads (fun _ es s' => Called orgId 0 true s es s')
      (challengePoints orgId customerId accountId amount challenge) [] s :=
  Call.leads_bind (Call.leads_withTx (K := ActedIfAny orgId) wp_advanceChallenge_acted
    (fun _ _ hres => leads_dispatchIfAny hres fun _ hc => hc) (fun _ => called_none))

theorem leads_playPatronGame {gameType : PatronGameType} :
    Call.leads (fun _ es s' => Called orgId 0 true s es s') (playPatronGame orgId accountId gameType)
      [] s := by
  refine leads_requireEnabled orgId ?_ (fun _ => called_none)
  refine Call.leads_bind (Call.leads_withTx (K := fun _ a b => b = a)
    (wp_findByIdAny did_start fun s1 x _ _ hd => hd.here.symm) (fun account s' hs => ?_)
    (fun _ => called_none))
  subst hs
  cases account with
  | none => exact called_none
  | some account =>
    refine Call.leads_bind (Call.leads_input fun draw => ?_)
    refine Call.leads_bind (Call.leads_withTx (K := ActedIfAny orgId) wp_playTx_acted (fun res s' hres => ?_)
      (fun _ => called_none))
    exact Call.leads_bind (leads_dispatchIfAny hres fun es hc => hc)

theorem leads_createTier {data : TierData} :
    Call.leads (fun _ es s' => Furnished s s' ∧ upgraded es = false) (createTier orgId data) [] s := by
  have hnone : Furnished s s ∧ upgraded [] = false := ⟨.refl s, rfl⟩
  refine Call.leads_bind (leads_requireEnabled orgId ?_ (fun _ => hnone))
  refine Call.leads_withTx (K := fun _ => Furnished) (Tx.wp_mono (fun _ ws s hd => hd.here) (fun _ _ h => h)
    wp_programTx_furnished) (fun _ s1 h1 => ?_) (fun _ => hnone)
  exact Call.leads_withTx (K := fun _ => Furnished) (Tx.wp_mono (fun _ ws s hd => hd.here) (fun _ _ h => h)
    wp_createTierTx_furnished) (fun _ s2 h2 => ⟨h1.trans h2, rfl⟩) (fun _ => ⟨h1, rfl⟩)

/-- The service of the operation emits the events of its movement. -/
def TierAct.tells : TierAct → Bool
  | cancel _ => false
  | _ => true

/-- What an operation may come to. -/
def TierAct.Outcome (orgId : Id) (act : TierAct) (s : Db) (es : List Ev) (s' : Db) : Prop :=
  match act with
  | createTier _ => Furnished s s' ∧ upgraded es = false
  | act => Called orgId act.gain act.tells s es s'

/-- **Every operation is one of three things**: new tiers, nothing, or one movement. -/
theorem TierAct.outcome (act : TierAct) (env : Env) :
    act.Outcome orgId s (act.stage orgId env s).events (act.stage orgId env s).after := by
  have answered : ∀ {α : Type} {c : LCall α} {Q : List Ev → Db → Prop},
      Call.leads (fun _ => Q) c [] s →
      Q ((c.bind fun _ => Call.pure ()).eval env 0 s).events
        ((c.bind fun _ => Call.pure ()).eval env 0 s).db := by
    intro α c Q h
    refine Call.eval_leads (Q := fun _ => Q) (Call.leads_bind (Call.leads_mono ?_ h)) 0
    rintro (e | b) es s' hQ
    · exact hQ
    · exact hQ
  cases act with
  | createTier data => exact answered leads_createTier
  | applyPoints accountId points type opts => exact answered leads_applyPoints
  | redeem accountId rewardId => exact Call.eval_leads leads_redeemPoints 0
  | cancel redemptionId => exact answered leads_cancelRedemption
  | advance customerId accountId amount challenge => exact Call.eval_leads leads_challengePoints 0
  | play accountId gameType => exact answered leads_playPatronGame

/-! ## The law -/

theorem Stage.not_moved (h : b.log = a.log) :
    ¬ (⟨a, es, b⟩ : Stage).Moved accountId := by
  rintro ⟨l, hl, -⟩
  have hlen := congrArg List.length (h.symm.trans hl)
  simp at hlen

/-- An operation that leaves the account and its tier alone. -/
theorem Stage.lawful_of_still (ht : thresholdOf accountId b = thresholdOf accountId a)
    (hm : ¬ (⟨a, es, b⟩ : Stage).Moved accountId) : Stage.Lawful orgId accountId ⟨a, es, b⟩ where
  monotone := ht.ge
  top h := absurd h hm
  told h := absurd h hm

theorem Standing.of_same (hs : Standing orgId accountId a)
    (ha : b.get .account accountId = a.get .account accountId)
    (ht : ∀ id, b.get .tier id = a.get .tier id) : Standing orgId accountId b where
  reached hr hid := by
    rw [ha] at hr
    obtain ⟨t, hg, h⟩ := hs.reached hr hid
    exact ⟨t, by rw [ht]; exact hg, h⟩
  slug hg := hs.slug (by rw [← ht]; exact hg)

theorem Furnished.lawful (h : Furnished a b) (hs : Standing orgId accountId a) :
    Standing orgId accountId b ∧ Stage.Lawful orgId accountId ⟨a, es, b⟩ := by
  refine ⟨⟨fun hr hid => ?_, fun hg => ?_⟩, Stage.lawful_of_still ?_ (Stage.not_moved h.log)⟩
  · rw [h.account] at hr
    obtain ⟨t, ht, hrest⟩ := hs.reached hr hid
    exact ⟨t, h.kept ht, hrest⟩
  · exact (h.added hg).elim hs.slug id
  · cases hr : a.get .account accountId with
    | none =>
      unfold thresholdOf
      rw [h.account, hr]
      rfl
    | some r =>
      have hr' : b.get .account accountId = some r := by rw [h.account, hr]
      cases hid : r.tierId with
      | none => rw [thresholdOf_none hr hid, thresholdOf_none hr' hid]
      | some id =>
        obtain ⟨t, ht, -⟩ := hs.reached hr hid
        rw [thresholdOf_some hr hid ht, thresholdOf_some hr' hid (h.kept ht)]

theorem Ledgered.not_moved {m : Movement} {r r' : LoyaltyAccount} {slug : Option String}
    (h : Ledgered m r r' slug a b) (hne : accountId ≠ m.accountId) :
    ¬ (⟨a, es, b⟩ : Stage).Moved accountId := by
  rintro ⟨l, hl, hid⟩
  have hrow : l = m.row (m.move r).pointsBalance := by
    have := h.log.symm.trans hl
    simpa using this.symm
  subst hrow
  exact hne hid.symm

/-- **One operation keeps the law**, under its condition. -/
theorem TierAct.lawful {act : TierAct} (h : act.Outcome orgId a es b)
    (hs : Standing orgId accountId a) (hc : act.Clear orgId accountId a) :
    Standing orgId accountId b ∧ Stage.Lawful orgId accountId ⟨a, es, b⟩ := by
  have moved : Called orgId act.gain act.tells a es b →
      (act.tells = true → Unambiguous orgId accountId act.gain a) →
      (act.tells = false → act.gain = 0 ∧ TierSettled orgId accountId a) →
      Standing orgId accountId b ∧ Stage.Lawful orgId accountId ⟨a, es, b⟩ := by
    rintro ⟨slug, ha, hup⟩ hu hset
    rcases ha with ⟨-, ha⟩ | ⟨m, r, r', rfl, hgain, hl⟩
    · exact ⟨hs.of_same (ha.account _) ha.tier,
        Stage.lawful_of_still (thresholdOf_congr (ha.account _) ha.tier) (Stage.not_moved ha.log)⟩
    · refine ⟨hl.standing hs, ?_⟩
      by_cases hid : accountId = m.accountId
      · subst hid
        refine ⟨hl.monotone hs, fun _ => hl.topTier hs, fun _ => ?_⟩
        show upgraded es = true ↔ _
        rw [hup]
        cases htells : act.tells with
        | true =>
          rw [Bool.true_and]
          exact hl.slug_iff hs (hgain ▸ hu htells)
        | false =>
          obtain ⟨hzero, hsettled⟩ := hset htells
          have := hl.threshold_eq hs hsettled (hgain.trans hzero)
          simp [this]
      · exact Stage.lawful_of_still (thresholdOf_congr (hl.others hid) hl.tiers) (hl.not_moved hid)
  cases act with
  | createTier data => exact h.1.lawful hs
  | cancel redemptionId => exact moved h (fun ht => by cases ht) (fun _ => ⟨rfl, hc⟩)
  | applyPoints accountId points type opts => exact moved h (fun _ => hc) (fun ht => by cases ht)
  | redeem accountId rewardId => exact moved h (fun _ => hc) (fun ht => by cases ht)
  | advance customerId accountId amount challenge =>
    exact moved h (fun _ => hc) (fun ht => by cases ht)
  | play accountId gameType => exact moved h (fun _ => hc) (fun ht => by cases ht)

end

/-- **The tier law** holds of every operation of every run that meets the condition: for every
tier table that grows in between, with whatever ties, and every order in which they are found. -/
theorem tierRun_lawful {orgId accountId : Id} {db s : Db} {h : List Stage}
    (hdb : Standing orgId accountId db) (hrun : TierRun orgId accountId db h s) :
    Standing orgId accountId s ∧ ∀ g ∈ h, g.Lawful orgId accountId := by
  induction hrun with
  | start => exact ⟨hdb, by simp⟩
  | act act env _ hc ih =>
    obtain ⟨hs, hlaw⟩ := ih
    obtain ⟨hs', hg⟩ := TierAct.lawful (act.outcome env) hs hc
    refine ⟨hs', fun g hmem => ?_⟩
    rcases List.mem_append.mp hmem with hold | hnew
    · exact hlaw g hold
    · cases List.mem_singleton.mp hnew
      exact hg

/-! ## Two tiers -/

def tierOf (slug : String) (minLifetimePoints : ℤ) : LoyaltyTier :=
  ⟨1, 1, slug, slug, minLifetimePoints, 0⟩

/-- An account in `bronze` and a second tier with the threshold `minLifetimePoints`. -/
def withSecondTier (minLifetimePoints : ℤ) : Db :=
  ((Rel.empty.set .tier 5 (tierOf "bronze" 0)).set .tier 6 (tierOf "club" minLifetimePoints)).set
    .account 20 { orgId := 1, customerId := 10, tierId := some 5, referralCode := "AAAA2222" }

/-- Ten points, and the newest row wherever there is a choice. -/
def earnTen : TierAct := .applyPoints 20 10 .earn {}

def newest : Env := ⟨fun _ => 0, 0⟩

theorem tier_of_withSecondTier {minLifetimePoints : ℤ} {id : Id} {t : LoyaltyTier}
    (h : (withSecondTier minLifetimePoints).get .tier id = some t) :
    (id = 5 ∧ t = tierOf "bronze" 0) ∨ (id = 6 ∧ t = tierOf "club" minLifetimePoints) := by
  unfold withSecondTier at h
  rw [Rel.get_set_ne (by simp)] at h
  by_cases h6 : id = 6
  · subst h6
    rw [Rel.get_set_self] at h
    exact Or.inr ⟨rfl, (Option.some.inj h).symm⟩
  · rw [Rel.get_set_ne (by simpa using h6)] at h
    by_cases h5 : id = 5
    · subst h5
      rw [Rel.get_set_self] at h
      exact Or.inl ⟨rfl, (Option.some.inj h).symm⟩
    · rw [Rel.get_set_ne (by simpa using h5)] at h
      cases h

/-- **An upgrade to a tier with the threshold the account already has.** -/
theorem tier_upgraded_sideways :
    (earnTen.stage 1 newest (withSecondTier 0)).Moved 20 ∧
      upgraded (earnTen.stage 1 newest (withSecondTier 0)).events = true ∧
      ¬ thresholdOf 20 (withSecondTier 0) <
        thresholdOf 20 (earnTen.stage 1 newest (withSecondTier 0)).after :=
  ⟨⟨_, rfl, rfl⟩, by decide +kernel, by decide +kernel⟩

theorem tierRun_lawful_earnTen :
    (earnTen.stage 1 newest (withSecondTier 10)).Lawful 1 20 := by
  have hdb : Standing 1 20 (withSecondTier 10) := by
    refine ⟨fun {r id} hr hid => ?_, fun {id t} ht => ?_⟩
    · cases hr
      cases hid
      exact ⟨tierOf "bronze" 0, rfl, rfl, by decide⟩
    · rcases tier_of_withSecondTier ht with ⟨-, rfl⟩ | ⟨-, rfl⟩ <;> simp [tierOf]
  have hclear : earnTen.Clear 1 20 (withSecondTier 10) := by
    intro r id id' t t' hr hid hbronze _
    cases hr
    cases hid
    cases hbronze.found
    have hclub : (withSecondTier 10).get .tier 6 = some (tierOf "club" 10) := rfl
    have := hbronze.greatest hclub rfl (by decide)
    simp [tierOf] at this
  exact (tierRun_lawful hdb (.act earnTen newest .start hclear)).2 _ List.mem_cons_self

end PatronLoyalty.Loyalty
