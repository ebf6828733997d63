import PatronLoyalty.Loyalty.Specs
import PatronLoyalty.Txn.Counting
import PatronLoyalty.Txn.Tally

/-!
# Coupons

`assertCouponValid`, `validateCoupon` and `redeemCoupon` of `LoyaltyCatalogService`. A redemption
looks the coupon up, checks it, counts one use by a conditional update and writes a row.

Headline: **`reach_coupons`**. In every interleaving of redemptions, with any failures, a use is
counted with its row or not at all, a coupon is not used more often than its limit, and its limit is
used up when enough valid requests come.
-/

namespace PatronLoyalty.Loyalty

open Txn Relation

/-! ## The service -/

def couponNotFound : Err := .notFound "Coupon not found"

def couponLimitReached : Err := .badRequest "Coupon usage limit reached"

/-- What `assertCouponValid` throws at `today`; `tierSlug` is that of the account's tier, when there
is an account and it has one. -/
def couponError (coupon : LoyaltyCoupon) (tierSlug : Option String) (today : Time) : Option Err :=
  if coupon.validFrom.any (today < ·) then some (.badRequest "Coupon is not yet valid")
  else if coupon.validUntil.any (· < today) then some (.badRequest "Coupon has expired")
  else if coupon.maxUses.any (· ≤ coupon.usedCount) then some couponLimitReached
  else if !coupon.tierSlugs.isEmpty && tierSlug.any (!coupon.tierSlugs.contains ·) then
    some (.badRequest "Coupon not valid for patron tier")
  else none

def assertCouponValid (coupon : LoyaltyCoupon) (tierSlug : Option String) : LTx Unit := do
  let today ← now
  match couponError coupon tierSlug today with
  | some e => Tx.throw e
  | none => pure ()

def findCoupon (orgId : Id) (code : String) : LTx (Option (Id × LoyaltyCoupon)) :=
  findFirst orgId .coupon fun _ c => c.code == code.toUpper && c.active

/-- The tier of an account (`include: { tier: true }`), by its slug. -/
def accountTierSlug (orgId : Id) (account : LoyaltyAccount) : LTx (Option String) :=
  match account.tierId with
  | none => pure none
  | some tierId => do
    let tier ← findById orgId .tier tierId
    pure (tier.map (·.slug))

def previewTierSlug (orgId : Id) (accountId : Id) : LTx (Option String) := do
  match ← findById orgId .account accountId with
  | some account => accountTierSlug orgId account
  | none => pure none

def previewTier (orgId : Id) : Option Id → LCall (Option String)
  | some accountId => withTenant (previewTierSlug orgId accountId)
  | none => pure none

/-- The check is outside of any transaction; it reads the clock alone. -/
def validateCoupon (orgId : Id) (code : String) (accountId : Option Id) :
    LCall (Id × LoyaltyCoupon) := do
  requireEnabled orgId
  match ← withTenant (findCoupon orgId code) with
  | none => throw couponNotFound
  | some coupon =>
    let tierSlug ← previewTier orgId accountId
    withTenant (assertCouponValid coupon.2 tierSlug)
    pure coupon

def LoyaltyCoupon.used (c : LoyaltyCoupon) (n : ℕ) : LoyaltyCoupon :=
  { c with usedCount := c.usedCount + n }

/-- The conditional increment, under the limit the check has read. -/
def reserveUse (orgId couponId : Id) (maxUses : Option ℤ) : LTx Unit := do
  let reserved ← updateMany orgId .coupon couponId
    (fun c => c.active && maxUses.all (c.usedCount < ·)) (·.used 1)
  if reserved = 0 then Tx.throw couponLimitReached else pure ()

structure CouponRedemptionView where
  id : Id
  row : LoyaltyCouponRedemption
  coupon : LoyaltyCoupon
  deriving DecidableEq, Repr

/-- The transaction of `redeemCoupon`. -/
def redeemCouponTx (orgId : Id) (code : String) (accountId : Id) : LTx CouponRedemptionView := do
  match ← findCoupon orgId code with
  | none => Tx.throw couponNotFound
  | some (couponId, coupon) =>
    match ← findById orgId .account accountId with
    | none => Tx.throw accountNotFound
    | some account =>
      let tierSlug ← accountTierSlug orgId account
      assertCouponValid coupon tierSlug
      reserveUse orgId couponId coupon.maxUses
      let redemption : LoyaltyCouponRedemption := { orgId, couponId, accountId }
      let id ← create .couponRedemption redemption
      let coupon ← findByIdOrThrow orgId .coupon couponId
      pure ⟨id, redemption, coupon⟩

def redeemCoupon (orgId : Id) (code : String) (accountId : Id) : LCall CouponRedemptionView := do
  requireEnabled orgId
  withTenant (redeemCouponTx orgId code accountId)

structure CouponRequest where
  orgId : Id
  code : String
  accountId : Id

def CouponRequest.call (q : CouponRequest) : LCall CouponRedemptionView :=
  redeemCoupon q.orgId q.code q.accountId

/-! ## What a redemption does -/

def uses (couponId : Id) (s : Db) : ℕ := s.count .couponRedemption fun _ r => r.couponId == couponId

def tierSlugOf (orgId : Id) (account : LoyaltyAccount) (s : Db) : Option String :=
  account.tierId.bind fun tierId =>
    ((s.get .tier tierId).filter (visible orgId .tier)).map (·.slug)

structure CouponRequest.Names (q : CouponRequest) (couponId : Id) (w : LoyaltyCoupon) (s : Db) :
    Prop where
  orgId : w.orgId = q.orgId
  code : w.code = q.code.toUpper
  active : w.active = true
  account : ∃ r : LoyaltyAccount, s.get .account q.accountId = some r ∧ r.orgId = q.orgId ∧
    ∀ slug, tierSlugOf q.orgId r s = some slug → w.tierSlugs = [] ∨ slug ∈ w.tierSlugs

/-- **A redemption**: one use of the coupon below its limit, and one row that says so. -/
def CouponRequest.Redeems (q : CouponRequest) (v : CouponRedemptionView) (a b : Db) : Prop :=
  ∃ (couponId : Id) (w : LoyaltyCoupon) (m : Db), a.get .coupon couponId = some w ∧
    q.Names couponId w a ∧ (∀ n, w.maxUses = some n → w.usedCount < n) ∧
    v.row = ⟨q.orgId, couponId, q.accountId⟩ ∧
    Rel.Replaced .coupon couponId (some w) (w.used 1) a m ∧
    Rel.Replaced .couponRedemption v.id none v.row m b

/-- **What redemptions do**, any number of them: each coupon is used as often as rows are added for
it, within its limit, and nothing else changes. -/
structure Used (a b : Db) : Prop where
  other {k : Kind} (h₁ : k ≠ .coupon) (h₂ : k ≠ .couponRedemption) (id : Id) :
    b.get k id = a.get k id
  coupon (id : Id) : ∃ n : ℕ, b.get .coupon id = (a.get .coupon id).map (·.used n) ∧
    uses id b = uses id a + n ∧ ∀ w m, a.get .coupon id = some w → w.maxUses = some m →
      w.usedCount ≤ m → w.usedCount + n ≤ m

section

variable {a b c s : Db} {q : CouponRequest} {couponId : Id} {w : LoyaltyCoupon}

@[simp] theorem used_zero (w : LoyaltyCoupon) : w.used 0 = w := by
  simp [LoyaltyCoupon.used]

@[simp] theorem used_used (w : LoyaltyCoupon) (n m : ℕ) : (w.used n).used m = w.used (n + m) := by
  simp [LoyaltyCoupon.used, Int.add_assoc]

@[simp] theorem used_orgId (w : LoyaltyCoupon) (n : ℕ) : (w.used n).orgId = w.orgId := rfl

@[simp] theorem used_code (w : LoyaltyCoupon) (n : ℕ) : (w.used n).code = w.code := rfl

@[simp] theorem used_maxUses (w : LoyaltyCoupon) (n : ℕ) : (w.used n).maxUses = w.maxUses := rfl

@[simp] theorem used_usedCount (w : LoyaltyCoupon) (n : ℕ) :
    (w.used n).usedCount = w.usedCount + n := rfl

theorem Used.refl (a : Db) : Used a a where
  other _ _ _ := rfl
  coupon id := ⟨0, by simp, rfl, fun w m _ _ h => by simpa using h⟩

theorem Used.trans (h : Used a b) (h' : Used b c) : Used a c where
  other h1 h2 id := (h'.other h1 h2 id).trans (h.other h1 h2 id)
  coupon id := by
    obtain ⟨n, hb, hu, hn⟩ := h.coupon id
    obtain ⟨n', hc, hu', hn'⟩ := h'.coupon id
    refine ⟨n + n', ?_, by rw [hu', hu, Nat.add_assoc], fun w m hw hm hle => ?_⟩
    · rw [hc, hb, Option.map_map]
      exact congrArg (fun f => Option.map f (a.get .coupon id)) (funext fun w => used_used w n n')
    · have h1 := hn w m hw hm hle
      have h2 := hn' (w.used n) m (by rw [hb, hw]; rfl) hm h1
      simp only [used_usedCount, Nat.cast_add] at h2 ⊢
      omega

/-- Redemptions of coupons, and nothing else. -/
def couponStep : Guarantee Db where
  rel := Used
  refl := Used.refl
  trans := Used.trans

theorem Used.of_some (h : Used a b) (hw : a.get .coupon couponId = some w) :
    ∃ n : ℕ, b.get .coupon couponId = some (w.used n) := by
  obtain ⟨n, hb, -, -⟩ := h.coupon couponId
  exact ⟨n, by rw [hb, hw]; rfl⟩

/-- A coupon was there before. -/
theorem Used.of_get (h : Used a b) (hw : b.get .coupon couponId = some w) :
    ∃ (n : ℕ) (w0 : LoyaltyCoupon), a.get .coupon couponId = some w0 ∧ w = w0.used n := by
  obtain ⟨n, hb, -, -⟩ := h.coupon couponId
  cases ha : a.get .coupon couponId with
  | none => rw [hb, ha] at hw; cases hw
  | some w0 =>
    rw [hb, ha] at hw
    exact ⟨n, w0, rfl, (Option.some.inj hw).symm⟩

theorem Used.account (h : Used a b) (id : Id) : b.get .account id = a.get .account id :=
  h.other (by decide) (by decide) id

theorem Used.tierSlug (h : Used a b) (orgId : Id) (r : LoyaltyAccount) :
    tierSlugOf orgId r b = tierSlugOf orgId r a := by
  unfold tierSlugOf
  exact congrArg r.tierId.bind (funext fun t => by
    rw [show b.get .tier t = a.get .tier t from h.other (by decide) (by decide) t])

/-- Whom a coupon is for does not change with its uses. -/
theorem Used.names_iff (h : Used a b) (n : ℕ) :
    q.Names couponId (w.used n) b ↔ q.Names couponId w a := by
  have hacc : ∀ r, tierSlugOf q.orgId r b = tierSlugOf q.orgId r a := h.tierSlug q.orgId
  constructor
  · rintro ⟨ho, hc, ha, r, hr, hro, ht⟩
    exact ⟨ho, hc, ha, r, (h.account _).symm.trans hr, hro, fun slug hs => ht slug ((hacc r).trans hs)⟩
  · rintro ⟨ho, hc, ha, r, hr, hro, ht⟩
    exact ⟨ho, hc, ha, r, (h.account _).trans hr, hro, fun slug hs => ht slug ((hacc r).symm.trans hs)⟩

theorem CouponRequest.Redeems.uses {v : CouponRedemptionView} (h : q.Redeems v a b) (id : Id) :
    uses id b = uses id a + if v.row.couponId = id then 1 else 0 := by
  obtain ⟨couponId, w, m, -, -, -, -, hu, hr⟩ := h
  have hm : Loyalty.uses id m = Loyalty.uses id a :=
    Rel.count_eq_of_get (fun j => hu.get_ne (by simp)) _
  have hb := Rel.count_of_get (a := m) (b := b) (fun j hj => hr.get_ne (by simpa using hj)) hr.get_self
    fun _ r => r.couponId == id
  rw [hr.get_old] at hb
  simp only [Rel.weight, beq_iff_eq, Nat.add_zero] at hb
  rw [← hm]
  exact hb

/-- **A redemption is a use.** -/
theorem CouponRequest.Redeems.used {v : CouponRedemptionView} (h : q.Redeems v a b) : Used a b where
  other := by
    obtain ⟨couponId, w, m, -, -, -, -, hu, hr⟩ := h
    intro k h1 h2 id
    rw [hr.get_ne (by simp [h2]), hu.get_ne (by simp [h1])]
  coupon id := by
    have huses := h.uses id
    obtain ⟨couponId, w, m, hw, -, hmax, hv, hu, hr⟩ := h
    rw [hv] at huses
    have hb : b.get .coupon id = m.get .coupon id := hr.get_ne (by simp)
    by_cases hid : couponId = id
    · subst hid
      refine ⟨1, by rw [hb, hu.get_self, hw]; rfl, by simpa using huses, fun w' n hw' hn _ => ?_⟩
      cases hw.symm.trans hw'
      have := hmax n hn
      push_cast
      omega
    · refine ⟨0, ?_, by simpa [hid] using huses, fun w' n _ _ hle => by simpa using hle⟩
      rw [hb, hu.get_ne (by simpa using fun h => hid h.symm)]
      simp

end

/-! ## One request -/

/-- The coupon under this code is used up. -/
def Exhausted (q : CouponRequest) (s : Db) : Prop :=
  ∃ (couponId : Id) (w : LoyaltyCoupon) (m : ℤ), s.get .coupon couponId = some w ∧
    w.orgId = q.orgId ∧ w.code = q.code.toUpper ∧ w.maxUses = some m ∧ m ≤ w.usedCount

def LimitTold (q : CouponRequest) (e : Err) (s : Db) : Prop := e = couponLimitReached → Exhausted q s

section

variable {a b s : Db} {q : CouponRequest} {couponId : Id} {w : LoyaltyCoupon} {A : Db → Prop}
  {R : Db → Db → Prop} {ws : List DbWrite} {exc : Err → Db → Prop} {tierSlug : Option String}

theorem Exhausted.stable (h : Exhausted q a) (hu : Used a b) : Exhausted q b := by
  obtain ⟨couponId, w, m, hw, ho, hc, hm, hle⟩ := h
  obtain ⟨n, hb⟩ := hu.of_some hw
  exact ⟨couponId, w.used n, m, hb, ho, hc, hm, by simp only [used_usedCount]; omega⟩

theorem wp_accountTierSlug {orgId : Id} {r : LoyaltyAccount}
    {post : Option String → List DbWrite → Db → Prop} (h : Did couponStep R [] s)
    (hpost : ∀ s', couponStep.rel s s' → Did couponStep R [] s' → post (tierSlugOf orgId r s') [] s') :
    Tx.wp couponStep A post exc (accountTierSlug orgId r) [] s := by
  rw [accountTierSlug]
  unfold tierSlugOf at hpost
  cases ht : r.tierId with
  | none =>
    rw [ht] at hpost
    exact hpost s (Used.refl s) h
  | some t =>
    rw [ht] at hpost
    simp only [Option.bind_some] at hpost
    dsimp only
    rw [Tx.wp_do]
    refine wp_findById h (fun s1 tier hG _ hd hg hv => ?_) (fun s1 hG _ hd hg => ?_)
    · have := hpost s1 hG hd
      rw [show s1.get .tier t = some tier from hg, Option.filter_some_pos hv] at this
      exact this
    · have := hpost s1 hG hd
      rw [Option.filter_eq_none_iff.mpr fun r hr hv => by
        rw [hg r hr] at hv; exact Bool.false_ne_true hv] at this
      exact this

theorem wp_assertCouponValid {post : Unit → List DbWrite → Db → Prop}
    (hpost : ∀ today, couponError w tierSlug today = none → post () ws s)
    (herr : ∀ today e, couponError w tierSlug today = some e → exc e s) :
    Tx.wp couponStep A post exc (assertCouponValid w tierSlug) ws s := by
  intro today
  show Tx.wp couponStep A post exc (match couponError w tierSlug today with
    | some e => Tx.throw e
    | none => pure ()) ws s
  cases h : couponError w tierSlug today with
  | some e => exact herr today e h
  | none => exact hpost today h

theorem wp_reserveUse {orgId : Id} {maxUses : Option ℤ} {post : Unit → List DbWrite → Db → Prop}
    (h : Did couponStep R ws s)
    (hpost : ∀ s' ws' r, r.active = true → maxUses.all (r.usedCount < ·) = true →
      Did couponStep (Comp R (Rel.Replaced .coupon couponId (some r) (r.used 1))) ws' s' →
      post () ws' s')
    (hexc : ∀ s', Did couponStep R ws s' → (∀ r, (view ws s').get .coupon couponId = some r →
      r.orgId = orgId → r.active = true → maxUses.all (r.usedCount < ·) = false) →
      exc couponLimitReached s') :
    Tx.wp couponStep A post exc (reserveUse orgId couponId maxUses) ws s := by
  rw [reserveUse, Tx.wp_do]
  refine wp_updateMany h (fun _ => rfl) (fun s1 ws1 r _ _ _ hp hd => ?_) (fun s1 _ _ hd hno => ?_)
  · rw [if_neg (by decide)]
    have hp : r.active = true ∧ maxUses.all (r.usedCount < ·) = true := by simpa using hp
    exact hpost s1 ws1 r hp.1 hp.2 hd
  · rw [if_pos rfl]
    refine hexc s1 hd fun r hr ho hact => ?_
    have := hno r hr (by simpa [visible, tenantPolicy, orgOf] using ho)
    rwa [hact, Bool.true_and] at this

/-- What passes the check. -/
theorem couponError_eq_none {today : Time} :
    couponError w tierSlug today = none ↔
      (∀ t, w.validFrom = some t → t ≤ today) ∧ (∀ t, w.validUntil = some t → today ≤ t) ∧
        (∀ m, w.maxUses = some m → w.usedCount < m) ∧
          ∀ slug, tierSlug = some slug → w.tierSlugs = [] ∨ slug ∈ w.tierSlugs := by
  constructor
  · intro h
    unfold couponError at h
    split_ifs at h with h1 h2 h3 h4
    refine ⟨fun t ht => by simpa [ht] using h1, fun t ht => by simpa [ht] using h2,
      fun m hm => by simpa [hm] using h3, fun slug hs => ?_⟩
    by_cases ht : w.tierSlugs = []
    · exact Or.inl ht
    · exact Or.inr (by simpa [hs, ht] using h4)
  · rintro ⟨h1, h2, h3, h4⟩
    rw [couponError, if_neg, if_neg, if_neg, if_neg]
    · intro h
      simp only [Bool.and_eq_true, Option.any_eq_true] at h
      obtain ⟨hne, slug, hs, hnot⟩ := h
      rcases h4 slug hs with ht | ht
      · simp [ht] at hne
      · simp [ht] at hnot
    · intro h
      obtain ⟨m, hm, hle⟩ := (Option.any_eq_true _ _).mp h
      exact absurd (h3 m hm) (not_lt.mpr (of_decide_eq_true hle))
    · intro h
      obtain ⟨t, ht, hlt⟩ := (Option.any_eq_true _ _).mp h
      exact absurd (h2 t ht) (not_le.mpr (of_decide_eq_true hlt))
    · intro h
      obtain ⟨t, ht, hlt⟩ := (Option.any_eq_true _ _).mp h
      exact absurd (h1 t ht) (not_le.mpr (of_decide_eq_true hlt))

theorem of_couponError_limit {today : Time}
    (h : couponError w tierSlug today = some couponLimitReached) :
    ∃ m, w.maxUses = some m ∧ m ≤ w.usedCount := by
  unfold couponError at h
  split_ifs at h with h1 h2 h3 h4
  · exact absurd (Err.badRequest.inj (Option.some.inj h)) (by decide)
  · exact absurd (Err.badRequest.inj (Option.some.inj h)) (by decide)
  · obtain ⟨m, hm, hle⟩ := (Option.any_eq_true _ _).mp h3
    exact ⟨m, hm, of_decide_eq_true hle⟩
  · exact absurd (Err.badRequest.inj (Option.some.inj h)) (by decide)

theorem limitTold_of_ne {e : Err} (h : e ≠ couponLimitReached) : LimitTold q e s :=
  fun he => absurd he h

/-- **A redemption**, or an error; a refusal for the limit finds the coupon used up. -/
theorem wp_redeemCouponTx :
    Tx.wp couponStep A (fun v => Did couponStep (q.Redeems v)) (LimitTold q)
      (redeemCouponTx q.orgId q.code q.accountId) [] s := by
  rw [redeemCouponTx, Tx.wp_do, findCoupon]
  refine wp_findFirst (k := .coupon) did_start (fun s1 couponId w _ _ hd hw hv hp => ?_)
    (fun s1 _ _ _ _ => ?_)
  swap
  · exact limitTold_of_ne (e := couponNotFound) (by decide)
  have ho : w.orgId = q.orgId := by simpa [visible, tenantPolicy, orgOf] using hv
  obtain ⟨hc, hact⟩ : w.code = q.code.toUpper ∧ w.active = true := by simpa using hp
  -- the coupon keeps all but its uses
  have hd : Did couponStep (fun a b => (∃ n : ℕ, a.get .coupon couponId = some (w.used n)) ∧ a = b)
      [] s1 :=
    hd.note (fun a b hab h => by
      obtain ⟨n, hn⟩ := h
      obtain ⟨n', hn'⟩ := hab.of_some hn
      exact ⟨n + n', by rw [hn', used_used]⟩) ⟨0, by rw [used_zero]; exact hw⟩
  dsimp only
  rw [Tx.wp_do]
  refine wp_findById hd (fun s2 r _ _ hd hr hv => ?_) fun s2 _ _ _ _ => ?_
  swap
  · exact limitTold_of_ne (e := accountNotFound) (by decide)
  have hro : r.orgId = q.orgId := by simpa [visible, tenantPolicy, orgOf] using hv
  have hd := hd.note (F := fun a => a.get .account q.accountId = some r)
    (fun a b hab h => (hab.account _).trans h) hr
  dsimp only
  rw [Tx.wp_do]
  refine wp_accountTierSlug hd fun s3 _ hd => ?_
  have hd := hd.note (F := fun a => tierSlugOf q.orgId r a = tierSlugOf q.orgId r s3)
    (fun a b hab h => (hab.tierSlug _ _).trans h) rfl
  obtain ⟨-, -, ⟨n, hn⟩, -⟩ := hd.here
  rw [Tx.wp_do]
  refine wp_assertCouponValid (fun today hcheck => ?_) fun today e hcheck he => ?_
  swap
  · subst he
    obtain ⟨m, hm, hle⟩ := of_couponError_limit hcheck
    exact ⟨couponId, w.used n, m, hn, ho, hc, hm, by simp only [used_usedCount]; omega⟩
  obtain ⟨-, -, -, htier⟩ := couponError_eq_none.mp hcheck
  rw [Tx.wp_do]
  refine wp_reserveUse hd (fun s4 ws4 w' _ hmax hd => ?_) fun s4 hd hno _ => ?_
  · rw [Tx.wp_do]
    refine wp_create hd (fun s5 ws5 id _ _ hd => ?_) fun s5 _ _ => ?_
    swap
    · exact limitTold_of_ne (e := .uniqueViolation) (by decide)
    rw [Tx.wp_do]
    refine wp_findByIdOrThrow hd (fun s6 y _ _ hd _ _ => hd.mono ?_) fun s6 _ _ _ _ => ?_
    swap
    · exact limitTold_of_ne (e := .recordNotFound) (by decide)
    rintro a b ⟨m, ⟨a', ⟨hslug, hr', ⟨k, hk⟩, rfl⟩, hu⟩, hcr⟩
    have hw' : w' = w.used k := Option.some.inj (hu.get_old.symm.trans hk)
    subst hw'
    refine ⟨couponId, w.used k, m, hk, ⟨ho, hc, hact, r, hr', hro, fun slug hs => ?_⟩,
      fun n hn => ?_, rfl, hu, hcr⟩
    · exact htier slug (hslug.symm.trans hs)
    · rw [used_maxUses] at hn
      rw [hn] at hmax
      exact of_decide_eq_true hmax
  · obtain ⟨-, -, ⟨k, hk⟩, -⟩ := hd.here
    have hfull := hno (w.used k) hk ho hact
    cases hm : w.maxUses with
    | none =>
      rw [hm] at hfull
      cases hfull
    | some m =>
      rw [hm] at hfull
      exact ⟨couponId, w.used k, m, hk, ho, hc, hm, not_lt.mp (of_decide_eq_false hfull)⟩

abbrev CouponRequest.oneUse (q : CouponRequest) :
    Protocol Db Err Ev CouponRedemptionView couponStep :=
  .ofHistory _ (fun _ _ => True) (OneShot Eq q.Redeems)

theorem redeemCoupon_safe (q : CouponRequest) (s : Db) : Safe q.oneUse q.call s := by
  refine oneShot_safe fun s' _ _ => ?_
  refine wp_clear_bind requireEnabled_tame clear_start trivial (fun _ h1 s1 _ _ hc1 => ?_)
    fun _ _ _ hc => hc
  exact wp_act (f := id) hc1 (fun s2 _ => Tx.wp_mono (fun _ _ _ hd => hd) (fun _ _ _ => trivial)
    wp_redeemCouponTx) fun v a b _ hR => ⟨hR.used, hR⟩

def CouponRequest.told (q : CouponRequest) :
    Protocol Db Err Ev CouponRedemptionView couponStep where
  cond _ _ := True
  keeps h s := .answer (.error couponLimitReached) ∈ h → Exhausted q s
  keeps_stable hG hk hm := (hk hm).stable hG

theorem told_snoc {h : List (Entry Db Err Ev CouponRedemptionView)}
    {e : Entry Db Err Ev CouponRedemptionView} (hk : q.told.keeps h s)
    (he : e = .answer (.error couponLimitReached) → Exhausted q s) :
    q.told.keeps (h ++ [e]) s := by
  intro hm
  rcases mem_snoc.mp hm with hm | hm
  · exact hk hm
  · exact he hm.symm

theorem told_silent : q.told.Silent where
  read _ _ hk := told_snoc hk nofun
  rollback _ _ _ hk := told_snoc hk nofun

theorem requireEnabled_told (orgId : Id) : Ensures q.told (fun _ => True)
    (requireEnabled orgId) (onResult (fun _ _ => True) (LimitTold q)) := by
  refine Ensures.bind (M := fun _ _ => True) ?_ fun b => ?_
  · exact Ensures.bind (M := fun _ _ => True) (Ensures.input fun _ _ _ => trivial)
      fun _ => Ensures.pure fun _ _ => trivial
  · cases b with
    | true => exact Ensures.pure fun _ _ => trivial
    | false => exact Ensures.throw fun _ _ => limitTold_of_ne (by decide)

theorem redeemCoupon_told (q : CouponRequest) (s : Db) : Safe q.told q.call s := by
  refine ⟨fun h => (List.not_mem_nil h).elim, fun s' _ _ => ⟨fun h => by simp at h, ?_⟩⟩
  have hcall : Ensures q.told (fun _ => True) q.call
      (onResult (fun _ _ => True) (LimitTold q)) := by
    refine Ensures.bind (M := fun _ _ => True) (requireEnabled_told q.orgId) fun _ => ?_
    refine Ensures.tx (E := Used) (F := fun _ _ _ => True) (X := LimitTold q) ?_ told_silent
      (fun h s s' _ _ _ => ?_) (fun _ _ _ _ _ _ _ _ => trivial) ?_
    · exact fun h a b _ hk hu => ⟨hu, told_snoc (fun hm => (hk hm).stable hu) nofun⟩
    · exact Tx.wp_mono (fun v ws s hd => hd.mono fun a b hr => ⟨hr.used, trivial⟩)
        (fun _ _ he => he) wp_redeemCouponTx
    · rintro e s0 s1 s2 _ _ hG hx rfl
      exact (hx rfl rfl).stable hG
  refine Call.wp_mono ?_ (hcall [.start] s' (fun h => by simp at h) trivial)
  rintro r h s1 ⟨hk, -, hΦ⟩ s2 hG
  refine told_snoc (fun hm => (hk hm).stable hG) fun he => ?_
  cases he
  exact (hΦ rfl).stable hG

end

/-! ## A run -/

abbrev CouponRun := Config Db DbWrite Err Ev CouponRedemptionView

/-- The requests `reqs` over the store `db`, none of them started. -/
def startCoupons (db : Db) (reqs : List CouponRequest) : CouponRun :=
  Config.init db (reqs.map CouponRequest.call)

/-- Request `i` has been answered with a redemption of the coupon. -/
def CouponRun.succeeded (c : CouponRun) (couponId : Id) (i : ℕ) : Prop :=
  ∃ v : CouponRedemptionView, .ok v ∈ c.answersOf i ∧ v.row.couponId = couponId

/-- Request `i` is valid but for the limit, and nothing else has ended it. -/
def CouponRun.contends (c : CouponRun) (db : Db) (reqs : List CouponRequest) (couponId : Id)
    (w : LoyaltyCoupon) (i : ℕ) : Prop :=
  (∃ q : CouponRequest, reqs[i]? = some q ∧ q.Names couponId w db) ∧
    ∀ e, .error e ∈ c.answersOf i → e = couponLimitReached

/-- A coupon as it is created: not used, and with a limit that is not negative, if any. -/
structure NewCoupon (couponId : Id) (w : LoyaltyCoupon) (db : Db) : Prop where
  get : db.get .coupon couponId = some w
  usedCount : w.usedCount = 0
  uses : uses couponId db = 0
  maxUses (m : ℤ) : w.maxUses = some m → 0 ≤ m

open Classical in
/-- **What redemptions keep**, in a run from `db` to `c`. -/
structure CouponsKept (db : Db) (reqs : List CouponRequest) (c : CouponRun) : Prop where
  /-- A request that succeeds has made its redemption once, one that fails has changed nothing. -/
  redeemed (i : ℕ) (q : CouponRequest) : reqs[i]? = some q → OneShot Eq q.Redeems (c.histOf i)
  /-- The uses of a coupon are its rows, and within its limit. -/
  counted (couponId : Id) (w : LoyaltyCoupon) : NewCoupon couponId w db → ∃ n : ℕ,
    c.db.get .coupon couponId = some (w.used n) ∧ (w.used n).usedCount = n ∧
      uses couponId c.db = n ∧ ∀ m, w.maxUses = some m → n ≤ m
  /-- When the valid requests have been answered, as many have succeeded as there are, up to the
  limit. -/
  exact (couponId : Id) (w : LoyaltyCoupon) : NewCoupon couponId w db →
    (∀ i q, reqs[i]? = some q → q.Names couponId w db → c.answersOf i ≠ []) →
    ((Finset.range reqs.length).filter (c.succeeded couponId)).card =
      w.maxUses.elim id (fun m n => min m.toNat n)
        ((Finset.range reqs.length).filter (c.contends db reqs couponId w)).card

section

variable {db : Db} {reqs : List CouponRequest} {c : CouponRun} {q : CouponRequest} {i : ℕ}
  {couponId : Id} {w : LoyaltyCoupon} {a b : Db}

theorem NewCoupon.unique (hw : NewCoupon couponId w db) (hdb : Rel.Unique db)
    (hq : q.Names couponId w db) {s : Db} (hu : Used db s) {j : Id} {w' : LoyaltyCoupon}
    (hj : s.get .coupon j = some w') (ho : w'.orgId = q.orgId) (hc : w'.code = q.code.toUpper) :
    j = couponId := by
  obtain ⟨n, w0, hw0, rfl⟩ := hu.of_get hj
  refine hdb.row (k := .coupon) (u := .couponCode q.orgId q.code.toUpper)
    ⟨w0, hw0, ?_⟩ ⟨w, hw.get, ?_⟩
  · simp only [used_orgId, used_code] at ho hc
    simp [Keyed.keys, uniqueKeys, ho, hc]
  · simp [Keyed.keys, uniqueKeys, hq.orgId, hq.code]

variable (h : Reach Always (startCoupons db reqs) c)

include h

theorem reach_used : Used db c.db :=
  reach_each_rel (fun q _ => redeemCoupon_safe q db) (fun _ _ _ _ => trivial) h

theorem reach_oneUse (hi : reqs[i]? = some q) : OneShot Eq q.Redeems (c.histOf i) :=
  reach_each (fun q _ => redeemCoupon_safe q db) (fun _ _ _ _ => trivial) h hi

theorem reach_exhausted (hi : reqs[i]? = some q)
    (he : .error couponLimitReached ∈ c.answersOf i) : Exhausted q c.db :=
  reach_each (fun q _ => redeemCoupon_told q db) (fun _ _ _ _ => trivial) h hi
    (Config.mem_answersOf.mp he)

theorem reach_used_commit (hc : Commit c.trace i a b) : Used db a := by
  obtain ⟨p, hp⟩ := List.mem_iff_getElem?.mp hc
  refine ((reach_linear h).before hp).carry (F := Used db) (fun j x y hxy hx => ?_) (Used.refl db)
  exact hx.trans (reach_each_commits (fun q _ => redeemCoupon_safe q db) (fun _ _ _ _ => trivial) h
    ((List.take_subset _ _) hxy))

theorem reach_names (hw : db.get .coupon couponId = some w) {v : CouponRedemptionView}
    (hc : Commit c.trace i a b) (hr : q.Redeems v a b) (hv : v.row.couponId = couponId) :
    q.Names couponId w db := by
  obtain ⟨couponId', w', m, hw', hn, -, hrow, -, -⟩ := hr
  rw [hrow] at hv
  cases hv
  obtain ⟨n, hget⟩ := (reach_used_commit h hc).of_some hw
  cases hget.symm.trans hw'
  exact ((reach_used_commit h hc).names_iff n).mp hn

theorem reach_redeems (hc : Commit c.trace i a b) :
    a = b ∨ ∃ (q : CouponRequest) (v : CouponRedemptionView), reqs[i]? = some q ∧ q.Redeems v a b := by
  have hlt : i < reqs.length := by
    have hi := reach_owned h hc
    rwa [List.length_map] at hi
  have hi : reqs[i]? = some reqs[i] := List.getElem?_eq_getElem hlt
  rcases (reach_oneUse h hi).commits a b (Config.mem_histOf.mpr hc) with he | ⟨v, hv⟩
  · exact Or.inl he
  · exact Or.inr ⟨_, v, hi, hv⟩

/-- A coupon's uses and its rows go together. -/
theorem reach_counted (hw : NewCoupon couponId w db) : ∃ n : ℕ,
    c.db.get .coupon couponId = some (w.used n) ∧ (w.used n).usedCount = n ∧
      uses couponId c.db = n ∧ ∀ m, w.maxUses = some m → n ≤ m := by
  obtain ⟨n, hget, huses, hmax⟩ := (reach_used h).coupon couponId
  refine ⟨n, by rw [hget, hw.get]; rfl, ?_, by rw [huses, hw.uses, Nat.zero_add], fun m hm => ?_⟩
  · rw [used_usedCount, hw.usedCount, Int.zero_add]
  · have := hmax w m hw.get hm (by rw [hw.usedCount]; exact hw.maxUses m hm)
    rwa [hw.usedCount, Int.zero_add] at this

theorem reach_succeeded_unanswered (hi : reqs[i]? = some q)
    (hs : c.succeeded couponId i) (e : Err) : .error e ∉ c.answersOf i := by
  intro he
  obtain ⟨v, hv, -⟩ := hs
  have hone := reach_oneUse h hi
  obtain ⟨h1, a, b, h2, heq, hred, -⟩ := hone.answered v (Config.mem_answersOf.mp hv)
  have hab : a = b := hone.refused e (Config.mem_answersOf.mp he) a b (by rw [heq]; simp)
  have hu := hred.uses v.row.couponId
  rw [hab, if_pos rfl] at hu
  omega

open Classical in
/-- **A request raises the uses of a coupon once** when it succeeds, and else not at all. -/
theorem reach_raises (hw : NewCoupon couponId w db)
    (hans : ∀ i q, reqs[i]? = some q → q.Names couponId w db → c.answersOf i ≠ [])
    (hi : reqs[i]? = some q) : (c.histOf i).countP (Entry.raises (uses couponId)) =
      if c.succeeded couponId i then 1 else 0 := by
  have hone := reach_oneUse h hi
  have hsame : ∀ a b : Db, a = b → ¬ uses couponId a < uses couponId b := by
    rintro a b rfl
    exact lt_irrefl _
  have hok : ∀ v, .ok v ∈ c.answersOf i → (c.histOf i).countP (Entry.raises (uses couponId)) =
      if v.row.couponId = couponId then 1 else 0 := fun v hv =>
    (hone.answered v (Config.mem_answersOf.mp hv)).countP_raises hsame fun a b hab => by
      rw [hab.uses couponId]
      split <;> simp_all
  by_cases hs : c.succeeded couponId i
  · obtain ⟨v, hv, hid⟩ := hs
    rw [hok v hv, if_pos hid, if_pos ⟨v, hv, hid⟩]
  · rw [if_neg hs]
    by_cases hn : q.Names couponId w db
    · obtain ⟨r, hr⟩ := List.exists_mem_of_ne_nil _ (hans i q hi hn)
      cases r with
      | ok v => rw [hok v hr, if_neg fun hid => hs ⟨v, hr, hid⟩]
      | error e => exact (hone.refused e (Config.mem_answersOf.mp hr)).countP_raises hsame
    · -- whatever it has committed was about another coupon
      have hother : Within (fun a b => uses couponId a = uses couponId b) (c.histOf i) := by
        intro a b hm
        rcases hone.commits a b hm with rfl | ⟨v, hv⟩
        · rfl
        · rw [hv.uses couponId, if_neg fun hid =>
            hn (reach_names h hw.get (Config.mem_histOf.mp hm) hv hid)]
          rfl
      exact hother.countP_raises fun a b hab => by rw [hab]; exact lt_irrefl _

open Classical in
theorem reach_card_succeeded (hw : NewCoupon couponId w db)
    (hans : ∀ i q, reqs[i]? = some q → q.Names couponId w db → c.answersOf i ≠ []) :
    uses couponId c.db = ((Finset.range reqs.length).filter (c.succeeded couponId)).card := by
  have htally := reach_tally (f := uses couponId) (q := c.succeeded couponId) h
    (fun i a b hc => by
      rcases reach_redeems h hc with rfl | ⟨q, v, -, hv⟩
      · exact Or.inl rfl
      · rw [hv.uses couponId]
        split <;> simp)
    fun i hi => by
      rw [List.length_map] at hi
      exact reach_raises h hw hans (List.getElem?_eq_getElem hi)
  rwa [hw.uses, Nat.zero_add, List.length_map] at htally

open Classical in
/-- **The limit is used up exactly** when enough valid requests come. -/
theorem reach_exact (hdb : Rel.Unique db) (hw : NewCoupon couponId w db)
    (hans : ∀ i q, reqs[i]? = some q → q.Names couponId w db → c.answersOf i ≠ []) :
    ((Finset.range reqs.length).filter (c.succeeded couponId)).card =
      w.maxUses.elim id (fun m n => min m.toNat n)
        ((Finset.range reqs.length).filter (c.contends db reqs couponId w)).card := by
  obtain ⟨n, hget, hcount, huses, hmax⟩ := reach_counted h hw
  have hcard := reach_card_succeeded h hw hans
  have hsub : (Finset.range reqs.length).filter (c.succeeded couponId) ⊆
      (Finset.range reqs.length).filter (c.contends db reqs couponId w) := by
    intro i hi
    obtain ⟨hi, hs⟩ := Finset.mem_filter.mp hi
    have hq := List.getElem?_eq_getElem (Finset.mem_range.mp hi)
    refine Finset.mem_filter.mpr ⟨hi, ⟨_, hq, ?_⟩, fun e he =>
      absurd he (reach_succeeded_unanswered h hq hs e)⟩
    obtain ⟨v, hv, hid⟩ := hs
    obtain ⟨h1, a, b, h2, heq, hred, -⟩ := (reach_oneUse h hq).answered v (Config.mem_answersOf.mp hv)
    exact reach_names h hw.get (Config.mem_histOf.mp (by rw [heq]; simp)) hred hid
  by_cases hlim : ∃ i, c.contends db reqs couponId w i ∧ .error couponLimitReached ∈ c.answersOf i
  · -- one was refused: the coupon is used up
    obtain ⟨i, ⟨⟨q, hi, hn⟩, -⟩, he⟩ := hlim
    obtain ⟨j, w', m, hj, ho, hc, hm, hle⟩ := reach_exhausted h hi he
    cases hw.unique hdb hn (reach_used h) hj ho hc
    cases hget.symm.trans hj
    rw [used_maxUses] at hm
    have hnm : n = m.toNat := by
      have := hmax m hm
      omega
    rw [hm]
    exact (by rw [← hcard, huses, hnm] : _ = m.toNat).trans
      (Nat.min_eq_left (by rw [← hnm, ← huses, hcard]; exact Finset.card_le_card hsub)).symm
  · have heq : (Finset.range reqs.length).filter (c.succeeded couponId) =
        (Finset.range reqs.length).filter (c.contends db reqs couponId w) := by
      refine Finset.Subset.antisymm hsub fun i hi => ?_
      obtain ⟨hi, hcont⟩ := Finset.mem_filter.mp hi
      obtain ⟨⟨q, hq, hn⟩, herr⟩ := hcont
      refine Finset.mem_filter.mpr ⟨hi, ?_⟩
      obtain ⟨r, hr⟩ := List.exists_mem_of_ne_nil _ (hans i q hq hn)
      cases r with
      | error e =>
        rw [herr e hr] at hr
        exact absurd ⟨i, ⟨⟨q, hq, hn⟩, herr⟩, hr⟩ hlim
      | ok v =>
        refine ⟨v, hr, ?_⟩
        obtain ⟨h1, a, b, h2, heq, ⟨j, w', m, hw', hn', -, hrow, -, -⟩, -⟩ :=
          (reach_oneUse h hq).answered v (Config.mem_answersOf.mp hr)
        have hc : Commit c.trace i a b := Config.mem_histOf.mp (by rw [heq]; simp)
        rw [hrow]
        exact hw.unique hdb hn (reach_used_commit h hc) hw' hn'.orgId hn'.code
    rw [heq]
    cases hm : w.maxUses with
    | none => rfl
    | some m =>
      refine (Nat.min_eq_right ?_).symm
      have := hmax m hm
      rw [← heq, ← hcard, huses]
      omega

omit h in
/-- **Coupons.** In every interleaving of redemptions, with any failures, uses and rows go together,
a failed request has changed nothing, the limit is kept, and it is used up by enough valid
requests. -/
theorem reach_coupons (hdb : Rel.Unique db) (h : Reach Always (startCoupons db reqs) c) :
    CouponsKept db reqs c where
  redeemed _ _ hi := reach_oneUse h hi
  counted _ _ hw := reach_counted h hw
  exact _ _ hw hans := reach_exact h hdb hw hans

end

/-- A coupon for one use, and two patrons. -/
def couponShop : Db :=
  ((Rel.empty.set .coupon 30 { orgId := 1, code := "WELCOME", maxUses := some 1 }).set .account 20
    { orgId := 1, customerId := 10, tierId := none, referralCode := "AAAA2222" }).set .account 21
    { orgId := 1, customerId := 11, tierId := none, referralCode := "BBBB3333" }

theorem couponShop_unique : Rel.Unique couponShop :=
  Rel.unique_of_entries (fun k => by cases k <;> decide +kernel) rfl

def limitRefused : Except Err CouponRedemptionView → Bool
  | .ok _ => false
  | .error e => e == couponLimitReached

def bothRedeem : List CouponRequest := [⟨1, "welcome", 20⟩, ⟨1, "welcome", 21⟩]

/-- Both find the coupon unused; the first commits its use before the second counts its own. -/
def bothFindUnused : List (ℕ × Move Err) :=
  List.replicate 8 (0, .go 1) ++ List.replicate 7 (1, .go 1) ++ List.replicate 5 (0, .go 1) ++
    List.replicate 3 (1, .go 1)

theorem reach_coupons_bothFindUnused : ∃ c : CouponRun,
    Reach Always (startCoupons couponShop bothRedeem) c ∧ uses 30 c.db = 1 ∧
      (c.db.get .coupon 30).map (·.usedCount) = some 1 ∧
      (c.answersOf 1).any limitRefused = true ∧
      CouponsKept couponShop bothRedeem c := by
  obtain ⟨c, h, hc⟩ := exists_reach_anywhere
    (startCoupons couponShop bothRedeem) bothFindUnused
    (fun c => decide (uses 30 c.db = 1 ∧ (c.db.get .coupon 30).map (·.usedCount) = some 1 ∧
      (c.answersOf 1).any limitRefused = true)) (by decide +kernel)
  obtain ⟨h1, h2, h3⟩ := of_decide_eq_true hc
  exact ⟨c, h, h1, h2, h3, reach_coupons couponShop_unique h⟩

end PatronLoyalty.Loyalty
