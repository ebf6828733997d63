import PatronLoyalty.Loyalty.Alone
import PatronLoyalty.Loyalty.Coupons

/-!
# Preview and redemption of a coupon

What `validateCoupon` and `redeemCoupon` answer when they run alone at one instant on one store. They
share `assertCouponValid`, but not the account: a preview takes an unknown account for none, and
neither asks an account without a tier for one.

Headline: **`couponChecks_iff`**, when the preview tells what the redemption does and the redemption
keeps to the window and the tiers of the coupon.
-/

namespace PatronLoyalty.Loyalty

open Txn

variable {env : Env} {s : Db} {orgId accountId : Id} {code : String} {n : ℕ} {couponId : Id}
  {w : LoyaltyCoupon}

/-! ## What the services answer -/

def couponUnder (env : Env) (n : ℕ) (orgId : Id) (code : String) (s : Db) :
    Option (Id × LoyaltyCoupon) :=
  let rows := s.rows .coupon fun _ c => visible orgId .coupon c && (c.code == code.toUpper && c.active)
  rows[env.pick n % rows.length]?

def previewSlug (orgId : Id) (accountId : Option Id) (s : Db) : Option String :=
  accountId.bind fun id => (accountIn orgId id s).bind (tierSlugOf orgId · s)

/-- What `validateCoupon` answers. -/
def previewAnswer (env : Env) (orgId : Id) (code : String) (accountId : Option Id) (s : Db) :
    Except Err (Id × LoyaltyCoupon) :=
  if env.pick 0 = 0 then .error patronCrmDisabled
  else
    match couponUnder env 1 orgId code s with
    | none => .error couponNotFound
    | some coupon =>
      match couponError coupon.2 (previewSlug orgId accountId s) env.today with
      | some e => .error e
      | none => .ok coupon

def redeemAnswer (env : Env) (orgId : Id) (code : String) (accountId : Id) (s : Db) :
    Except Err CouponRedemptionView :=
  if env.pick 0 = 0 then .error patronCrmDisabled
  else
    match couponUnder env 1 orgId code s with
    | none => .error couponNotFound
    | some coupon =>
      match accountIn orgId accountId s with
      | none => .error accountNotFound
      | some account =>
        match couponError coupon.2 (tierSlugOf orgId account s) env.today with
        | some e => .error e
        | none => .ok ⟨env.pick 2, ⟨orgId, coupon.1, accountId⟩, coupon.2.used 1⟩

theorem of_couponUnder (h : couponUnder env n orgId code s = some (couponId, w)) :
    s.get .coupon couponId = some w ∧ w.orgId = orgId ∧ w.code = code.toUpper ∧ w.active = true := by
  obtain ⟨hw, hp⟩ := Rel.mem_rows.mp (List.mem_of_getElem? h)
  simp only [visible, tenantPolicy, orgOf, Bool.and_eq_true, beq_iff_eq] at hp
  exact ⟨hw, by simpa using hp.1, hp.2.1, hp.2.2⟩

theorem eval_findCoupon : (findCoupon orgId code).eval env n [] s =
    (.ok (couponUnder env n orgId code s, []), n + 1) := by
  rw [findCoupon, findFirst, Tx.eval_findFirst, view_nil]
  rfl

theorem eval_accountTierSlug (account : LoyaltyAccount) :
    (accountTierSlug orgId account).eval env n [] s = (.ok (tierSlugOf orgId account s, []), n) := by
  unfold accountTierSlug tierSlugOf
  cases account.tierId with
  | none => rfl
  | some tierId => rfl

theorem eval_previewTierSlug : (previewTierSlug orgId accountId).eval env n [] s =
    (.ok ((accountIn orgId accountId s).bind (tierSlugOf orgId · s), []), n) := by
  have hfind : (findById orgId .account accountId).eval env n [] s =
      (.ok (accountIn orgId accountId s, []), n) := rfl
  rw [previewTierSlug, Tx.bind_eq, Tx.eval_bind_ok hfind]
  cases accountIn orgId accountId s with
  | none => rfl
  | some account => exact eval_accountTierSlug account

theorem eval_assertCouponValid (w : LoyaltyCoupon) (tierSlug : Option String) :
    (assertCouponValid w tierSlug).eval env n [] s =
      (match couponError w tierSlug env.today with
        | some e => .error e
        | none => .ok ((), []), n) := by
  show (match couponError w tierSlug env.today with
    | some e => Tx.throw e
    | none => pure () : LTx Unit).eval env n [] s = _
  cases couponError w tierSlug env.today with
  | some e => rfl
  | none => rfl

theorem eval_previewTier (accountId : Option Id) : (previewTier orgId accountId).eval env n s =
    ⟨.ok (previewSlug orgId accountId s), s, [], n⟩ := by
  cases accountId with
  | none => rfl
  | some id => exact Call.eval_readTx eval_previewTierSlug

/-- **The preview.** -/
theorem eval_validateCoupon (accountId : Option Id) :
    ((validateCoupon orgId code accountId).eval env 0 s).answer =
      previewAnswer env orgId code accountId s := by
  have hfind : (withTenant (findCoupon orgId code)).eval env 1 s =
      ⟨.ok (couponUnder env 1 orgId code s), s, [], 2⟩ := Call.eval_readTx eval_findCoupon
  unfold validateCoupon previewAnswer
  rw [Call.bind_eq, Call.eval_bind, eval_requireEnabled]
  by_cases hoff : env.pick 0 = 0
  · simp [hoff, Ran.andThen]
  simp only [hoff, if_false, Ran.andThen]
  rw [Call.bind_eq, Call.eval_bind_ok hfind]
  cases couponUnder env 1 orgId code s with
  | none => rfl
  | some coupon =>
    have hvalid : (assertCouponValid coupon.2 (previewSlug orgId accountId s)).eval env 2 [] s = _ :=
      eval_assertCouponValid coupon.2 (previewSlug orgId accountId s)
    dsimp only
    rw [Call.bind_eq, Call.eval_bind_ok (eval_previewTier accountId), Call.bind_eq]
    cases hcheck : couponError coupon.2 (previewSlug orgId accountId s) env.today with
    | none =>
      rw [hcheck] at hvalid
      exact congrArg Ran.answer (Call.eval_bind_ok (Call.eval_readTx hvalid))
    | some e =>
      rw [hcheck] at hvalid
      simp [withTenant, Call.withTx, Call.bind, Call.eval, hvalid]

/-- The conditional increment of a coupon below its limit. -/
theorem eval_reserveUse (hw : s.get .coupon couponId = some w) (ho : w.orgId = orgId)
    (hact : w.active = true) (hmax : ∀ m, w.maxUses = some m → w.usedCount < m) :
    (reserveUse orgId couponId w.maxUses).eval env n [] s =
      (.ok ((), [.put .coupon couponId (some w) (w.used 1)]), n) := by
  have hcond : (visible orgId .coupon w && (w.active && w.maxUses.all (w.usedCount < ·))) = true := by
    cases hm : w.maxUses with
    | none => simp [visible, tenantPolicy, orgOf, ho, hact]
    | some m => simp [visible, tenantPolicy, orgOf, ho, hact, hmax m hm]
  have hclash : s.clashes .coupon (some w) (w.used 1) = false := Rel.clashes_of_keys_eq rfl
  have hone : (updateMany orgId .coupon couponId
      (fun c => c.active && w.maxUses.all (c.usedCount < ·)) (·.used 1)).eval env n [] s =
      (.ok (1, [] ++ [.put .coupon couponId (some w) (w.used 1)]), n) := by
    refine Tx.eval_exec ?_
    rw [view_nil, hw]
    simp only [hcond, if_true, hclash, Bool.false_eq_true, if_false]
  rw [reserveUse, Tx.bind_eq, Tx.eval_bind_ok hone]
  rfl

theorem eval_couponAgain {ws : List DbWrite} (ho : w.orgId = orgId)
    (hw : (view ws s).get .coupon couponId = some w) :
    (findByIdOrThrow orgId .coupon couponId).eval env n ws s = (.ok (w, ws ++ []), n) := by
  refine Tx.eval_exec ?_
  dsimp only
  rw [hw, Option.filter_some_pos (by simp [visible, tenantPolicy, orgOf, ho])]

/-- **The redemption.** -/
theorem eval_redeemCouponTx (hid : s.get .couponRedemption (env.pick 2) = none) :
    ((redeemCouponTx orgId code accountId).eval env 1 [] s).1.map (·.1) =
      match couponUnder env 1 orgId code s with
      | none => .error couponNotFound
      | some coupon =>
        match accountIn orgId accountId s with
        | none => .error accountNotFound
        | some account =>
          match couponError coupon.2 (tierSlugOf orgId account s) env.today with
          | some e => .error e
          | none => .ok ⟨env.pick 2, ⟨orgId, coupon.1, accountId⟩, coupon.2.used 1⟩ := by
  rw [redeemCouponTx, Tx.bind_eq, Tx.eval_bind_ok eval_findCoupon]
  cases hfound : couponUnder env 1 orgId code s with
  | none => rfl
  | some coupon =>
    obtain ⟨couponId, w⟩ := coupon
    obtain ⟨hw, ho, -, hact⟩ := of_couponUnder hfound
    have hfind : (findById orgId .account accountId).eval env 2 [] s =
        (.ok (accountIn orgId accountId s, []), 2) := rfl
    dsimp only
    rw [Tx.bind_eq, Tx.eval_bind_ok hfind]
    cases accountIn orgId accountId s with
    | none => rfl
    | some account =>
      dsimp only
      rw [Tx.bind_eq, Tx.eval_bind_ok (eval_accountTierSlug account), Tx.bind_eq, Tx.eval_bind,
        eval_assertCouponValid]
      cases hcheck : couponError w (tierSlugOf orgId account s) env.today with
      | some e => rfl
      | none =>
        obtain ⟨-, -, hmax, -⟩ := couponError_eq_none.mp hcheck
        dsimp only
        have hview : view [Rel.Write.put .coupon couponId (some w) (w.used 1)] s =
            s.set .coupon couponId (w.used 1) := Rel.put_eq hw
        have hfresh : (view [Rel.Write.put .coupon couponId (some w) (w.used 1)] s).get
            .couponRedemption (env.pick 2) = none := by
          rw [hview, Rel.get_set_ne (by simp), hid]
        rw [Tx.bind_eq, Tx.eval_bind_ok (eval_reserveUse hw ho hact hmax), Tx.bind_eq,
          Tx.eval_bind_ok (eval_create hfresh rfl), Tx.bind_eq,
          Tx.eval_bind_ok (eval_couponAgain (w := w.used 1) ho ?_)]
        · rfl
        · rw [view_append, hview, view_cons, view_nil, Rel.apply_put, Rel.get_put_ne (by simp),
            Rel.get_set_self]

theorem eval_redeemCoupon (hid : s.get .couponRedemption (env.pick 2) = none) :
    ((redeemCoupon orgId code accountId).eval env 0 s).answer =
      redeemAnswer env orgId code accountId s := by
  unfold redeemCoupon redeemAnswer
  rw [Call.bind_eq, Call.eval_bind, eval_requireEnabled]
  by_cases hoff : env.pick 0 = 0
  · simp [hoff, Ran.andThen]
  simp only [hoff, if_false, Ran.andThen]
  rw [← eval_redeemCouponTx hid, withTenant, Call.answer_withTx]

/-! ## Preview and redemption -/

/-- **The coupon checks** of one instant on one store: a redemption keeps to the window and the tiers
of the coupon, and the preview tells whether it would succeed. -/
structure CouponChecked (env : Env) (orgId : Id) (code : String) (accountId : Id) (s : Db) : Prop where
  eligible (v : CouponRedemptionView) :
    ((redeemCoupon orgId code accountId).eval env 0 s).answer = .ok v →
    ∃ (w : LoyaltyCoupon) (account : LoyaltyAccount), s.get .coupon v.row.couponId = some w ∧
      accountIn orgId accountId s = some account ∧
      (∀ t, w.validFrom = some t → t ≤ env.today) ∧ (∀ t, w.validUntil = some t → env.today ≤ t) ∧
      (w.tierSlugs ≠ [] → ∃ slug ∈ w.tierSlugs, tierSlugOf orgId account s = some slug)
  preview : (∃ c, ((validateCoupon orgId code (some accountId)).eval env 0 s).answer = .ok c) ↔
    ∃ v, ((redeemCoupon orgId code accountId).eval env 0 s).answer = .ok v

theorem validateCoupon_ok {accountId : Option Id} :
    (∃ c, ((validateCoupon orgId code accountId).eval env 0 s).answer = .ok c) ↔
      env.pick 0 ≠ 0 ∧ ∃ couponId w, couponUnder env 1 orgId code s = some (couponId, w) ∧
        couponError w (previewSlug orgId accountId s) env.today = none := by
  rw [eval_validateCoupon]
  unfold previewAnswer
  by_cases hon : env.pick 0 = 0
  · simp [hon]
  cases couponUnder env 1 orgId code s with
  | none => simp [hon]
  | some coupon =>
    obtain ⟨couponId, w⟩ := coupon
    cases hcheck : couponError w (previewSlug orgId accountId s) env.today with
    | some e => simp [hon, hcheck]
    | none => simp [hon, hcheck]

theorem redeemCoupon_ok (hid : s.get .couponRedemption (env.pick 2) = none)
    {v : CouponRedemptionView} :
    ((redeemCoupon orgId code accountId).eval env 0 s).answer = .ok v ↔
      env.pick 0 ≠ 0 ∧ ∃ couponId w account, couponUnder env 1 orgId code s = some (couponId, w) ∧
        accountIn orgId accountId s = some account ∧
        couponError w (tierSlugOf orgId account s) env.today = none ∧
        v = ⟨env.pick 2, ⟨orgId, couponId, accountId⟩, w.used 1⟩ := by
  rw [eval_redeemCoupon hid]
  unfold redeemAnswer
  by_cases hon : env.pick 0 = 0
  · simp [hon]
  cases couponUnder env 1 orgId code s with
  | none => simp [hon]
  | some coupon =>
    obtain ⟨couponId, w⟩ := coupon
    cases accountIn orgId accountId s with
    | none => simp [hon]
    | some account =>
      cases hcheck : couponError w (tierSlugOf orgId account s) env.today with
      | some e => simp [hon, hcheck]
      | none => simp [hon, hcheck, eq_comm]

theorem previewSlug_of_accountIn {account : LoyaltyAccount}
    (h : accountIn orgId accountId s = some account) :
    previewSlug orgId (some accountId) s = tierSlugOf orgId account s := by
  rw [previewSlug, Option.bind_some, h, Option.bind_some]

/-- **When the coupon checks hold**: a coupon that passes `assertCouponValid` meets an account of the
organisation, and one with a tier if the coupon is for tiers. -/
theorem couponChecks_iff (hid : s.get .couponRedemption (env.pick 2) = none) :
    CouponChecked env orgId code accountId s ↔
      (env.pick 0 ≠ 0 → ∀ couponId w, couponUnder env 1 orgId code s = some (couponId, w) →
        couponError w (previewSlug orgId (some accountId) s) env.today = none →
        ∃ account, accountIn orgId accountId s = some account ∧
          (w.tierSlugs ≠ [] → (tierSlugOf orgId account s).isSome)) := by
  constructor
  · intro h hon couponId w hfound hcheck
    -- the preview succeeds, so the redemption does
    obtain ⟨v, hv⟩ := h.preview.mp (validateCoupon_ok.mpr ⟨hon, couponId, w, hfound, hcheck⟩)
    obtain ⟨-, couponId', w', account, hfound', hacc, -, rfl⟩ := (redeemCoupon_ok hid).mp hv
    cases hfound.symm.trans hfound'
    obtain ⟨w', account', hw', hacc', -, -, htier⟩ := h.eligible _ hv
    cases hacc.symm.trans hacc'
    cases (of_couponUnder hfound).1.symm.trans hw'
    refine ⟨account, hacc, fun ht => ?_⟩
    obtain ⟨slug, -, hs⟩ := htier ht
    rw [hs]
    rfl
  · intro h
    refine ⟨fun v hv => ?_, ⟨fun hp => ?_, fun hr => ?_⟩⟩
    · obtain ⟨hon, couponId, w, account, hfound, hacc, hcheck, rfl⟩ := (redeemCoupon_ok hid).mp hv
      obtain ⟨account', hacc', hsome⟩ := h hon couponId w hfound
        (by rw [previewSlug_of_accountIn hacc]; exact hcheck)
      cases hacc.symm.trans hacc'
      obtain ⟨hfrom, huntil, -, htier⟩ := couponError_eq_none.mp hcheck
      refine ⟨w, account, (of_couponUnder hfound).1, hacc, hfrom, huntil, fun ht => ?_⟩
      obtain ⟨slug, hs⟩ := Option.isSome_iff_exists.mp (hsome ht)
      exact ⟨slug, (htier slug hs).resolve_left ht, hs⟩
    · obtain ⟨hon, couponId, w, hfound, hcheck⟩ := validateCoupon_ok.mp hp
      obtain ⟨account, hacc, -⟩ := h hon couponId w hfound hcheck
      rw [previewSlug_of_accountIn hacc] at hcheck
      exact ⟨_, (redeemCoupon_ok hid).mpr ⟨hon, couponId, w, account, hfound, hacc, hcheck, rfl⟩⟩
    · obtain ⟨v, hv⟩ := hr
      obtain ⟨hon, couponId, w, account, hfound, hacc, hcheck, -⟩ := (redeemCoupon_ok hid).mp hv
      rw [← previewSlug_of_accountIn hacc] at hcheck
      exact validateCoupon_ok.mpr ⟨hon, couponId, w, hfound, hcheck⟩

def goldCoupon : LoyaltyCoupon := { orgId := 1, code := "GOLDEN", tierSlugs := ["gold"] }

def goldShop : Db :=
  (Rel.empty.set .coupon 30 goldCoupon).set .account 20
    { orgId := 1, customerId := 10, tierId := none, referralCode := "AAAA2222" }

def firstUse : Env := ⟨fun _ => 1, 100⟩

/-- **The checks fail**: the account without a tier redeems the coupon, and one that does not exist
passes the preview. -/
theorem exists_uncheckedCoupon : ¬ CouponChecked firstUse 1 "GOLDEN" 20 goldShop ∧
    ¬ CouponChecked firstUse 1 "GOLDEN" 21 goldShop := by
  refine ⟨fun h => ?_, fun h => ?_⟩
  · obtain ⟨w, account, hw, hacc, -, -, htier⟩ := h.eligible
      ⟨1, ⟨1, 30, 20⟩, goldCoupon.used 1⟩ (by decide +kernel)
    have hcoupon : goldShop.get .coupon 30 = some goldCoupon := by decide +kernel
    cases hcoupon.symm.trans hw
    have hnone : (accountIn 1 20 goldShop).bind (tierSlugOf 1 · goldShop) = none := by decide +kernel
    rw [hacc] at hnone
    obtain ⟨slug, -, hs⟩ := htier (by decide)
    rw [Option.bind_some, hs] at hnone
    cases hnone
  · obtain ⟨v, hv⟩ := h.preview.mp ⟨(30, goldCoupon), by decide +kernel⟩
    have hmissing : accountIn 1 21 goldShop = none := by decide +kernel
    obtain ⟨-, couponId, w, account, -, hacc, -⟩ := (redeemCoupon_ok (by decide +kernel)).mp hv
    rw [hmissing] at hacc
    cases hacc

def goldPatrons : Db :=
  ((Rel.empty.set .coupon 30 goldCoupon).set .tier 5 ⟨1, 1, "Gold", "gold", 1500, 2⟩).set .account 20
    { orgId := 1, customerId := 10, tierId := some 5, referralCode := "AAAA2222" }

theorem couponChecks_goldPatrons : CouponChecked firstUse 1 "GOLDEN" 20 goldPatrons :=
  (couponChecks_iff (by decide +kernel)).mpr fun _ couponId w _ _ =>
    ⟨{ orgId := 1, customerId := 10, tierId := some 5, referralCode := "AAAA2222" }, by decide +kernel,
      fun _ => by decide +kernel⟩

end PatronLoyalty.Loyalty
