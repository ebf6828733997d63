import PatronLoyalty.Loyalty.Postings

/-!
# The other transactions refine the book

One specification for each transaction of the services: what it did at its commit, whatever the
others committed between its statements.
-/

namespace PatronLoyalty.Loyalty

open Txn Relation

variable {G : Guarantee Db} {A : Db → Prop} {exc : Err → Db → Prop} {R : Db → Db → Prop}
  {ws : List DbWrite} {s : Db} {orgId accountId : Id} {post : Unit → List DbWrite → Db → Prop}
  {customerId id redemptionId rewardId walletId x : Id} {reward : LoyaltyReward} {amount : ℤ}
  {ref : CustomerRef}

/-- Any error is as good as another. -/
abbrev AnyErr (_ : Err) (_ : Db) : Prop := True

/-! ## Provision -/

theorem wp_createMany {k : Kind} (hk : offBook k = true) {rs : List (Row k)} (h : Did G R ws s)
    (hpost : ∀ s' ws', Did G (Comp R Provisions) ws' s' → post () ws' s')
    (hexc : ∀ e s', exc e s') : Tx.wp G A post exc (createMany k rs) ws s := by
  induction rs generalizing R ws s with
  | nil => exact hpost s ws (h.mono fun a b hR => ⟨b, hR, .refl⟩)
  | cons r rs ih =>
    rw [createMany, Tx.wp_do]
    refine wp_create h (fun s1 ws1 id _ _ hd => ?_) (fun _ _ _ => hexc _ _)
    refine ih hd fun s2 ws2 hd2 => hpost s2 ws2 (hd2.mono ?_)
    rintro a b ⟨n, ⟨n', hR, hr⟩, hp⟩
    exact ⟨n', hR, .head (.elsewhere hk (fun _ hq => by cases hq) hr) hp⟩

theorem wp_programTx :
    Tx.wp G A (fun _ => Did G Provisions) AnyErr (programTx orgId) [] s := by
  rw [programTx, Tx.wp_do]
  refine wp_findFirst did_start (fun s1 id r _ _ hd _ _ _ => hd.mono fun a b hab => by rw [hab])
    (fun s1 _ _ hd _ => ?_)
  dsimp only
  rw [Tx.wp_do]
  refine wp_create hd (fun s2 ws2 programId _ _ hd2 => ?_) (fun _ _ _ => trivial)
  rw [Tx.wp_do]
  refine wp_createMany rfl hd2 (fun s3 ws3 hd3 => ?_) (fun _ _ => trivial)
  rw [Tx.wp_do]
  intro createdAt
  show Tx.wp G A _ _ (Tx.bind (createMany .earnRule _) _) ws3 s3
  rw [Tx.wp_bind]
  refine wp_createMany rfl hd3 (fun s4 ws4 hd4 => ?_) (fun _ _ => trivial)
  refine wp_findByIdOrThrow hd4 (fun s5 q _ _ hd5 _ _ => hd5.mono ?_) (fun _ _ _ _ _ => trivial)
  rintro a b ⟨n2, ⟨n1, ⟨n, rfl, hr⟩, hp1⟩, hp2⟩
  exact .head (.elsewhere rfl (fun _ hq => by cases hq) hr) (hp1.trans hp2)

/-- The account `id` of a customer in an organisation. -/
def AccountOf (orgId customerId id : Id) (s : Db) : Prop :=
  ∃ r : LoyaltyAccount, s.get .account id = some r ∧ r.orgId = orgId ∧ r.customerId = customerId

theorem accountOf_keeps (hG : ∀ a b, G.rel a b → Grows a b) (customerId id : Id) :
    G.Keeps (AccountOf orgId customerId id) := by
  rintro a b hab ⟨r, hr, ho, hc⟩
  obtain ⟨r', hr', he⟩ := (hG a b hab).row hr
  exact ⟨r', hr', he.1.trans ho, he.2.trans hc⟩

theorem wp_withTier {account : AccountView} {post : AccountWithTier → List DbWrite → Db → Prop}
    (h : Did G R ws s) (hpost : ∀ s' slug wallet, Did G R ws s' →
      post ⟨account.1, account.2, slug, wallet⟩ ws s') :
    Tx.wp G A post exc (withTier orgId account) ws s := by
  rw [withTier, Tx.wp_do]
  refine wp_findAny h fun s1 wallet _ _ hd1 => ?_
  split
  · exact hpost s1 none wallet hd1
  · rw [Tx.wp_do]
    exact wp_findById hd1 (fun s2 t _ _ hd _ _ => hpost s2 _ wallet hd)
      (fun s2 _ _ hd _ => hpost s2 _ wallet hd)

theorem customer_keeps (hG : ∀ a b, G.rel a b → Grows a b) (customerId : Id) :
    G.Keeps fun s => ∃ c : Customer, s.get .customer customerId = some c := by
  rintro a b hab ⟨c, hc⟩
  obtain ⟨c', hc', -⟩ := (hG a b hab).row hc
  exact ⟨c', hc'⟩

theorem wp_upsertAccount (hG : ∀ a b, G.rel a b → Grows a b) {code : String} :
    Tx.wp G A (fun res => Did G fun a b => Provisions a b ∧ AccountOf orgId customerId res.id b)
      AnyErr (upsertAccount orgId customerId code) [] s := by
  rw [upsertAccount, Tx.wp_do]
  refine wp_findAny did_start fun s1 bronze _ _ hd1 => ?_
  dsimp only
  rw [Tx.wp_do]
  refine wp_findFirst hd1 (fun s2 id r _ _ hd2 hr hv hc => ?_) (fun s2 _ _ hd2 _ => ?_)
  · have hacc : AccountOf orgId customerId id s2 :=
      ⟨r, hr, visible_account.mp hv, by simpa using hc⟩
    refine wp_withTier (hd2.note (accountOf_keeps hG customerId id) hacc) fun s3 slug wallet hd3 =>
      hd3.mono ?_
    rintro a b ⟨ha, rfl⟩
    exact ⟨.refl, ha⟩
  · dsimp only
    rw [Tx.wp_do]
    refine wp_checkForeignKey hd2 (fun s3 c _ hd3 hc => ?_) (fun _ _ => trivial)
    rw [Tx.wp_do]
    refine wp_create (hd3.note (customer_keeps hG customerId) ⟨c, hc⟩)
      (fun s4 ws4 id _ _ hd4 => ?_) (fun _ _ _ => trivial)
    rw [Tx.wp_do]
    refine wp_create hd4 (fun s5 ws5 walletId _ _ hd5 => ?_) (fun _ _ _ => trivial)
    refine wp_withTier hd5 fun s6 slug wallet hd6 => hd6.mono ?_
    rintro a b ⟨n, ⟨n', ⟨hc, rfl⟩, hr⟩, hw⟩
    exact ⟨.tail (.single (.openAccount hc hr)) (.openWallet ⟨_, hr.get_self, rfl⟩ hw),
      _, (hw.get_ne (by simp)).trans hr.get_self, rfl, rfl⟩

theorem wp_findAccountOrThrow (hG : ∀ a b, G.rel a b → Grows a b) :
    Tx.wp G A (fun res => Did G fun a b => b = a ∧ AccountOf orgId customerId res.id a)
      AnyErr (findAccountOrThrow orgId customerId) [] s := by
  rw [findAccountOrThrow, Tx.wp_do]
  refine wp_findFirstOrThrow did_start (fun s2 id r _ _ hd2 hr hv hc => ?_)
    (fun _ _ _ => trivial)
  have hacc : AccountOf orgId customerId id s2 :=
    ⟨r, hr, visible_account.mp hv, by simpa using hc⟩
  refine wp_withTier (hd2.note (accountOf_keeps hG customerId id) hacc) fun s3 slug wallet hd3 =>
    hd3.mono ?_
  rintro a b ⟨ha, rfl⟩
  exact ⟨rfl, ha⟩

/-! ## Redemptions -/

theorem wp_takeStock (h : Did G R ws s)
    (hpost : ∀ s' ws', Did G (Comp R (TakesStock rewardId reward.stock.isSome)) ws' s' →
      post () ws' s') (hexc : ∀ e s', exc e s') :
    Tx.wp G A post exc (takeStock orgId rewardId reward) ws s := by
  rw [takeStock]
  split
  · rename_i hs
    rw [Tx.wp_do]
    refine wp_updateMany h (fun r => rfl) (fun s1 ws1 w _ _ _ hw hd => ?_)
      (fun _ _ _ _ _ => hexc _ _)
    refine hpost s1 ws1 (hd.mono ?_)
    rintro a b ⟨n, hR, hr⟩
    refine ⟨n, hR, ?_⟩
    rw [TakesStock, if_pos hs]
    exact ⟨w, hw, hr⟩
  · rename_i hs
    refine hpost s ws (h.mono fun a b hR => ⟨b, hR, ?_⟩)
    rw [TakesStock, if_neg hs]

theorem wp_returnStock (h : Did G R ws s)
    (hrow : ∀ a b, R a b → ∃ w : LoyaltyReward, b.get .reward rewardId = some w ∧
      w.orgId = orgId)
    (hpost : ∀ s' ws', Did G (Comp R (ReturnsStock rewardId reward.stock.isSome)) ws' s' →
      post () ws' s') :
    Tx.wp G A post exc (returnStock orgId rewardId reward) ws s := by
  rw [returnStock]
  split
  · rename_i hs
    rw [Tx.wp_do]
    refine wp_updateMany h (fun r => rfl) (fun s1 ws1 w _ _ _ _ hd => ?_)
      (fun s1 _ _ hd hn => ?_)
    · refine hpost s1 ws1 (hd.mono ?_)
      rintro a b ⟨n, hR, hr⟩
      refine ⟨n, hR, ?_⟩
      rw [ReturnsStock, if_pos hs]
      exact ⟨w, hr⟩
    · obtain ⟨w, hw, ho⟩ := hrow _ _ hd.here
      have := hn w hw (by simp [visible, tenantPolicy, orgOf, ho])
      cases this
  · rename_i hs
    refine hpost s ws (h.mono fun a b hR => ⟨b, hR, ?_⟩)
    rw [ReturnsStock, if_neg hs]

/-- The start of a transaction, with rows it has read. -/
theorem did_saw (hG : ∀ a b, G.rel a b → Grows a b) {F : Db → Prop}
    (h : Did G (fun a b => b = a ∧ F a) ([] : List DbWrite) s) {k : Kind} {r : Row k}
    (hr : s.get k id = some r) :
    Did G (fun a b => b = a ∧ F a ∧ ∃ r', a.get k id = some r' ∧ Evolves k r r') [] s :=
  (did_row hG h hr).mono fun _ _ ⟨⟨hb, hF⟩, r', hr', he⟩ => ⟨hb, hF, r', hb ▸ hr', he⟩

theorem did_fresh : Did G (fun a b => b = a ∧ True) ([] : List DbWrite) s :=
  did_start.mono fun _ _ h => And.intro h.symm trivial

theorem wp_checkAvailable {today : Time} (hpost : post () ws s) (hexc : ∀ e s', exc e s') :
    Tx.wp G A post exc (checkAvailable reward today) ws s := by
  rw [checkAvailable]
  split
  · exact hexc _ _
  · split
    · exact hexc _ _
    · exact hpost

def Redeemed (orgId accountId rewardId : Id) (res : RedemptionView × ApplyPointsTxResult)
    (a b : Db) : Prop :=
  ∃ m r r' reward slug, m.orgId = orgId ∧ m.accountId = accountId ∧
    m.opts.sourceType = some "reward" ∧ Redeems m r r' reward rewardId res.1.1 a b ∧
    res.1.2 = { orgId, accountId, rewardId, pointsSpent := m.points } ∧ res.2 = m.result r' slug

/-- **Redeeming** burns the cost, takes from the stock and creates the redemption, or nothing. -/
theorem wp_redeemTx (hG : ∀ a b, G.rel a b → Grows a b) :
    Tx.wp G A (fun res => Did G (Redeemed orgId accountId rewardId res)) AnyErr
      (redeemTx orgId accountId rewardId) [] s := by
  rw [redeemTx, Tx.wp_do]
  refine wp_findById did_fresh (fun s1 w _ _ hd1 hw _ => ?_) (fun _ _ _ _ _ => trivial)
  cases ha : w.active with
  | false =>
    rw [show (some w).filter (·.active) = none from
      if_neg (show ¬ w.active = true by rw [ha]; exact Bool.false_ne_true)]
    trivial
  | true =>
    rw [show (some w).filter (·.active) = some w from if_pos ha]
    dsimp only
    rw [Tx.wp_do]
    intro today
    show Tx.wp G A _ AnyErr (Tx.bind (checkAvailable w today) _) [] s1
    rw [Tx.wp_bind]
    refine wp_checkAvailable ?_ (fun _ _ => trivial)
    rw [Tx.wp_do]
    refine wp_applyPointsUnchecked (did_saw hG hd1 hw) (earnSource_eq_none _ rfl)
      (fun s2 ws2 t r r' slug _ _ hd2 _ => ?_) (fun _ _ => trivial)
    rw [Tx.wp_do]
    refine wp_takeStock hd2 (fun s3 ws3 hd3 => ?_) (fun _ _ => trivial)
    rw [Tx.wp_do]
    refine wp_create hd3 (fun s4 ws4 redemptionId _ _ hd4 => hd4.mono ?_) (fun _ _ _ => trivial)
    rintro a b ⟨n2, ⟨n1, ⟨n, ⟨rfl, -, q, hq, stock, rfl, hs⟩, hp⟩, ht⟩, hr⟩
    exact ⟨_, r, r', _, slug, rfl, rfl, rfl, ⟨hq, rfl, rfl, n1, n2, hp, hs ▸ ht, hr⟩, rfl, rfl⟩

theorem wp_findPending {post : LoyaltyRedemption → List DbWrite → Db → Prop} (h : Did G R ws s)
    (hpost : ∀ s' x, Did G R ws s' → (view ws s').get .redemption redemptionId = some x →
      x.orgId = orgId → x.status = .pending → post x ws s') (hexc : ∀ e s', exc e s') :
    Tx.wp G A post exc (findPending orgId redemptionId) ws s := by
  rw [findPending, Tx.wp_do]
  refine wp_findById h (fun s1 x _ _ hd hx hv => ?_) (fun _ _ _ _ _ => hexc _ _)
  dsimp only
  split
  · rename_i hp
    exact hpost s1 x hd hx (by simpa [visible, tenantPolicy, orgOf] using hv) hp
  · exact hexc _ _

theorem wp_claimPending {f : LoyaltyRedemption → LoyaltyRedemption} (h : Did G R ws s)
    (hpost : ∀ s' ws' x, x.status = .pending →
      Did G (Comp R (Rel.Replaced .redemption redemptionId (some x) (f x))) ws' s' →
      post () ws' s') (hexc : ∀ e s', exc e s') :
    Tx.wp G A post exc (claimPending orgId redemptionId f) ws s := by
  rw [claimPending, Tx.wp_do]
  exact wp_updateMany (k := .redemption) h (fun r => rfl)
    (fun s1 ws1 x _ _ _ hx hd => hpost s1 ws1 x (of_decide_eq_true hx) hd)
    (fun _ _ _ _ _ => hexc _ _)

def Fulfilled (orgId redemptionId : Id) (a b : Db) : Prop :=
  ∃ x today, x.status = .pending ∧ x.orgId = orgId ∧
    Rel.Replaced .redemption redemptionId (some x) (x.fulfil today) a b

theorem wp_fulfillTx (hG : ∀ a b, G.rel a b → Grows a b) :
    Tx.wp G A (fun res => Did G fun a b => Fulfilled orgId redemptionId a b ∧ res.1 = redemptionId ∧
      b.get .redemption redemptionId = some res.2) AnyErr
      (fulfillTx orgId redemptionId) [] s := by
  rw [fulfillTx, Tx.wp_do]
  refine wp_findPending did_fresh (fun s1 x0 hd1 hx0 ho _ => ?_) (fun _ _ => trivial)
  rw [Tx.wp_do]
  intro today
  show Tx.wp G A _ AnyErr (Tx.bind (claimPending orgId redemptionId _) _) [] s1
  rw [Tx.wp_bind]
  refine wp_claimPending (did_saw hG hd1 hx0) (fun s2 ws2 x hx hd2 => ?_) (fun _ _ => trivial)
  rw [Tx.wp_do]
  refine wp_findByIdOrThrow hd2 (fun s3 y _ _ hd3 hy _ => ?_) (fun _ _ _ _ _ => trivial)
  have hyx : y = x.fulfil today := by
    obtain ⟨n, -, hr⟩ := hd3.here
    exact Option.some.inj (hy.symm.trans hr.get_self)
  rw [Tx.pure_eq, Tx.wp_pure]
  refine hd3.mono ?_
  rintro a b ⟨n, ⟨rfl, -, q, hq, he⟩, hr⟩
  have hqx : q = x := Option.some.inj (hq.symm.trans hr.get_old)
  subst hqx
  exact ⟨⟨q, today, hx, he.1.trans ho, hr⟩, rfl, hyx ▸ hr.get_self⟩

def Cancelled (orgId redemptionId : Id) (a b : Db) : Prop :=
  ∃ x m r r' reward, x.orgId = orgId ∧ m.orgId = orgId ∧ m.opts.sourceType = some "manual" ∧
    Cancels x redemptionId m r r' reward a b

/-- **Cancelling** refunds the points and the stock with the status, or nothing. -/
theorem wp_cancelTx (hG : ∀ a b, G.rel a b → Grows a b) :
    Tx.wp G A (fun _ => Did G (Cancelled orgId redemptionId)) AnyErr
      (cancelTx orgId redemptionId) [] s := by
  rw [cancelTx, Tx.wp_do]
  refine wp_findPending did_fresh (fun s1 x0 hd1 hx0 ho _ => ?_) (fun _ _ => trivial)
  have hd1' := did_saw hG hd1 hx0
  rw [Tx.wp_do]
  refine wp_findByIdOrThrow hd1' (fun s2 w _ _ hd2 hw hwo => ?_) (fun _ _ _ _ _ => trivial)
  have hd2' := did_saw hG hd2 hw
  rw [Tx.wp_do]
  refine wp_findByIdOrThrow hd2' (fun s3 q _ _ hd3 hq _ => ?_) (fun _ _ _ _ _ => trivial)
  have hd3' := did_saw hG hd3 hq
  rw [Tx.wp_do]
  refine wp_claimPending hd3' (fun s4 ws4 x hx hd4 => ?_) (fun _ _ => trivial)
  rw [Tx.wp_do]
  refine wp_adjustCustomerPoints hG hd4 (fun s5 ws5 accountId t r r' slug _ _ hr hd5 _ => ?_)
    (fun _ _ => trivial)
  -- the reward is still there
  have hwo' : w.orgId = orgId := by simpa [visible, tenantPolicy, orgOf] using hwo
  rw [Tx.wp_do]
  refine wp_returnStock hd5 ?_ (fun s6 ws6 hd6 => ?_)
  · rintro a b ⟨n1, ⟨n, ⟨rfl, ⟨-, w', hw', stock, rfl, -⟩, -⟩, hc⟩, hp⟩
    exact ⟨_, (hp.get_ne (by simp)).trans ((hc.get_ne (by simp)).trans hw'), hwo'⟩
  · rw [Tx.wp_do]
    refine wp_findByIdOrThrow hd6 (fun s7 y _ _ hd7 _ _ => hd7.mono ?_) (fun _ _ _ _ _ => trivial)
    rintro a b ⟨n2, ⟨n1, ⟨n, ⟨rfl, ⟨⟨-, x', hx', he⟩, w', hw', stock, rfl, hs⟩, q', hq', heq⟩, hc⟩,
      hp⟩, ht⟩
    have hxx : x' = x := Option.some.inj (hx'.symm.trans hc.get_old)
    subst hxx
    obtain ⟨he1, he2, he3, he4, -⟩ := he
    refine ⟨x', _, r, r', _, he1.trans ho, rfl, rfl, hx, he3 ▸ hw', he4 ▸ rfl, he4 ▸ rfl,
      ⟨q', he2 ▸ hq', heq.2.trans hr.symm⟩, n1, n2, hc, hp, ?_⟩
    rw [he3, show ({ w with stock } : LoyaltyReward).stock.isSome = w.stock.isSome from hs]
    exact ht

/-! ## Challenges and games -/

theorem wp_upsertProgress {challengeId : Id}
    {post : Id × CustomerChallengeProgress → List DbWrite → Db → Prop} (h : Did G R ws s)
    (hpost : ∀ s' ws' id old p,
      Did G (Comp R (Bumps accountId challengeId amount id old p)) ws' s' → post (id, p) ws' s')
    (hexc : ∀ e s', exc e s') :
    Tx.wp G A post exc (upsertProgress orgId accountId challengeId amount) ws s := by
  rw [upsertProgress, Tx.wp_do]
  intro freshId
  rw [Tx.wp_pure, Tx.wp_exec]
  intro s1 hs _
  have hd := h.stable hs
  generalize hrows : ((view ws s1).rows .progress fun _ p =>
    p.accountId == accountId && p.challengeId == challengeId).head? = found
  cases found with
  | some e =>
    obtain ⟨id, p⟩ := e
    refine ⟨fun b ws' hb => ?_, fun e he => hexc e s1⟩
    simp only [Except.ok.injEq, Prod.mk.injEq] at hb
    obtain ⟨rfl, rfl⟩ := hb
    obtain ⟨hg, hp⟩ := Rel.mem_rows.mp (List.mem_of_head? hrows)
    simp only [Bool.and_eq_true, beq_iff_eq] at hp
    have hkeys : uniqueKeys .progress (p.bump amount) = uniqueKeys .progress p := rfl
    refine hpost s1 _ id (some p) (p.bump amount)
      ((hd.put hg (Rel.clashes_of_keys_eq hkeys)).mono ?_)
    rintro a b ⟨n, hR, hr⟩
    refine ⟨n, hR, hp.1, hp.2, rfl, rfl, fun q hq => ?_, hr⟩
    cases hq
    exact ⟨rfl, rfl⟩
  | none =>
    refine ⟨fun b ws' hb => ?_, fun e he => hexc e s1⟩
    dsimp only at hb
    split at hb
    · cases hb
    · rename_i hfresh
      simp only [Except.ok.injEq, Prod.mk.injEq] at hb
      obtain ⟨rfl, rfl⟩ := hb
      have hclash : (view ws s1).clashes .progress none
          ({ orgId, accountId, challengeId, progress := amount } : CustomerChallengeProgress) =
          false := by
        rw [Rel.clashes, List.any_eq_false]
        intro u hu hc
        obtain ⟨-, ht⟩ := Bool.and_eq_true_iff.mp hc
        obtain ⟨id, q, hq, hk⟩ := Rel.taken_iff.mp ht
        have hu' : u = .progress accountId challengeId := List.mem_singleton.mp hu
        have hk' : u = .progress q.accountId q.challengeId := List.mem_singleton.mp hk
        rw [hu', UniqueKey.progress.injEq] at hk'
        have hm := Rel.mem_rows (p := fun _ (p : CustomerChallengeProgress) =>
          p.accountId == accountId && p.challengeId == challengeId).mpr
            ⟨hq, by simp [hk'.1, hk'.2]⟩
        rw [List.head?_eq_none_iff] at hrows
        rw [hrows] at hm
        cases hm
      refine hpost s1 _ freshId none _ ((hd.put (by simpa using hfresh) hclash).mono ?_)
      rintro a b ⟨n, hR, hr⟩
      exact ⟨n, hR, rfl, rfl, (Int.zero_add _).symm, rfl, (fun q hq => by cases hq), hr⟩

/-- **One challenge progresses**, in its own transaction. -/
theorem wp_progressChallenge (hG : ∀ a b, G.rel a b → Grows a b)
    {challenge : Id × LoyaltyChallenge} :
    Tx.wp G A (fun _ => Did G (Progresses customerId accountId challenge.1 amount challenge.2))
      AnyErr (advanceChallenge orgId customerId accountId amount challenge) [] s := by
  rw [advanceChallenge, Tx.wp_do]
  refine wp_upsertProgress did_start (fun s1 ws1 id old p hd1 => ?_) (fun _ _ => trivial)
  dsimp only
  split
  · rename_i hdone
    rw [Option.isNone_iff_eq_none] at hdone
    rw [Tx.wp_do]
    intro today
    show Tx.wp G A _ AnyErr (Tx.bind (update orgId .progress id _) _) ws1 s1
    rw [Tx.wp_bind]
    refine wp_update (k := .progress) hd1 (fun r => rfl) (fun s2 ws2 q _ _ _ hd2 => ?_)
      (fun _ _ _ _ _ => trivial)
    have hqp : q = p := by
      obtain ⟨n, ⟨n', -, hb⟩, hr⟩ := hd2.here
      exact Option.some.inj (hr.get_old.symm.trans hb.result.get_self)
    subst hqp
    split
    · rename_i hpos
      rw [Tx.wp_do]
      refine wp_adjustCustomerPoints hG hd2 (fun s3 ws3 acct t r r' slug _ _ hc hd3 _ =>
        hd3.mono ?_) (fun _ _ => trivial)
      rintro a b ⟨n2, ⟨n1, ⟨n, rfl, hb⟩, hr⟩, hp⟩
      refine ⟨id, old, q, n1, hb, ?_⟩
      rw [if_pos hdone]
      refine ⟨today, n2, hr, ?_⟩
      rw [PaysReward, if_pos hpos]
      exact ⟨_, r, r', rfl, hc, adjustment_delta rfl rfl, hp⟩
    · rename_i hpos
      rw [Tx.pure_eq, Tx.wp_pure]
      refine hd2.mono ?_
      rintro a b ⟨n1, ⟨n, rfl, hb⟩, hr⟩
      refine ⟨id, old, q, n1, hb, ?_⟩
      rw [if_pos hdone]
      refine ⟨today, b, hr, ?_⟩
      rw [PaysReward, if_neg hpos]
  · rename_i hopen
    rw [Option.isNone_iff_eq_none] at hopen
    rw [Tx.pure_eq, Tx.wp_pure]
    refine hd1.mono ?_
    rintro a b ⟨n, rfl, hb⟩
    refine ⟨id, old, p, b, hb, ?_⟩
    rw [if_neg hopen]

theorem wp_advanceChallenge (hG : ∀ a b, G.rel a b → Grows a b)
    {challenge : Id × LoyaltyChallenge} :
    Tx.wp G A (fun _ => Did G (Advances accountId challenge.1 amount challenge.2.targetValue)) AnyErr
      (advanceChallenge orgId customerId accountId amount challenge) [] s :=
  Tx.wp_mono (fun _ _ _ hd => hd.mono fun _ _ h => h.advances) (fun _ _ _ => trivial)
    (wp_progressChallenge hG)

theorem wp_playTx (hG : ∀ a b, G.rel a b → Grows a b) {gameType : PatronGameType}
    {outcome : Outcome} :
    Tx.wp G A (fun _ => Did G Plays) AnyErr (playTx orgId accountId customerId gameType outcome)
      [] s := by
  rw [playTx, Tx.wp_do]
  refine wp_findLast (k := .gamePlay) did_start fun s1 last _ _ hd1 _ => ?_
  rw [Tx.wp_do]
  intro today
  rw [Tx.wp_pure]
  split
  · trivial
  · rw [Tx.wp_do]
    refine wp_create hd1 (fun s2 ws2 id _ _ hd2 => ?_) (fun _ _ _ => trivial)
    split
    · rw [Tx.wp_do]
      refine wp_adjustCustomerPoints hG hd2 (fun s3 ws3 acct t r r' slug _ _ _ hd3 _ =>
        hd3.mono ?_) (fun _ _ => trivial)
      rintro a b ⟨n1, ⟨n, rfl, hr⟩, hp⟩
      exact ⟨n1, .elsewhere rfl (fun _ hq => by cases hq) hr, Or.inr ⟨_, r, r', rfl, hp⟩⟩
    · rw [Tx.pure_eq, Tx.wp_pure]
      refine hd2.mono ?_
      rintro a b ⟨n, rfl, hr⟩
      exact ⟨b, .elsewhere rfl (fun _ hq => by cases hq) hr, Or.inl rfl⟩

/-! ## Wallets -/

def Adjusted (orgId walletId : Id) (data : WalletAdjust) (a b : Db) : Prop :=
  ∃ transactionId w createdAt, w.orgId = orgId ∧ Adjusts walletId transactionId w data createdAt a b

theorem wp_debitWallet {amountCents : ℤ} {post : ℤ → List DbWrite → Db → Prop} (h : Did G R ws s)
    (hpost : ∀ s' ws' w, w.orgId = orgId → amountCents ≤ w.balanceCents →
      Did G (Comp R (Rel.Replaced .wallet walletId (some w) (w.add (-amountCents)))) ws' s' →
      post (w.balanceCents + -amountCents) ws' s') (hexc : ∀ e s', exc e s') :
    Tx.wp G A post exc (debitWallet orgId walletId amountCents) ws s := by
  rw [debitWallet, Tx.wp_do]
  refine wp_updateMany (k := .wallet) h (fun w => rfl) (fun s1 ws1 w _ _ _ hw hd => ?_)
    (fun _ _ _ _ _ => hexc _ _)
  rw [Bool.and_eq_true, beq_iff_eq, decide_eq_true_eq] at hw
  rw [if_neg Nat.one_ne_zero, Tx.wp_do]
  refine wp_findByIdOrThrow hd (fun s2 q _ _ hd2 hq _ => ?_) (fun _ _ _ _ _ => hexc _ _)
  -- the transaction reads its own update
  obtain ⟨n, -, hr⟩ := hd2.here
  have hqw : q = w.add (-amountCents) := Option.some.inj (hq.symm.trans hr.get_self)
  rw [hqw]
  exact hpost s2 ws1 w hw.1 hw.2 hd2

theorem wp_creditWallet {amountCents : ℤ} {post : ℤ → List DbWrite → Db → Prop} (h : Did G R ws s)
    (hpost : ∀ s' ws' w, w.orgId = orgId →
      Did G (Comp R (Rel.Replaced .wallet walletId (some w) (w.add amountCents))) ws' s' →
      post (w.balanceCents + amountCents) ws' s') (hexc : ∀ e s', exc e s') :
    Tx.wp G A post exc (creditWallet orgId walletId amountCents) ws s := by
  rw [creditWallet, Tx.wp_do]
  refine wp_update (k := .wallet) h (fun w => rfl) (fun s1 ws1 w _ _ hw hd => ?_)
    (fun _ _ _ _ _ => hexc _ _)
  exact hpost s1 ws1 w (by simpa [visible, tenantPolicy, orgOf] using hw) hd

theorem wp_changeBalance {data : WalletAdjust} {post : ℤ → List DbWrite → Db → Prop}
    (h : Did G R ws s) (hpost : ∀ s' ws' w, w.orgId = orgId →
      (data.type = .debit → data.amountCents ≤ w.balanceCents) →
      Did G (Comp R (Rel.Replaced .wallet walletId (some w) (w.add data.delta))) ws' s' →
      post (w.balanceCents + data.delta) ws' s') (hexc : ∀ e s', exc e s') :
    Tx.wp G A post exc (changeBalance orgId walletId data) ws s := by
  rw [changeBalance]
  by_cases hdebit : data.type = .debit
  · have hdelta : data.delta = -data.amountCents := if_pos hdebit
    rw [if_pos hdebit]
    refine wp_debitWallet h (fun s1 ws1 w ho hle hd => ?_) hexc
    rw [← hdelta] at hd ⊢
    exact hpost s1 ws1 w ho (fun _ => hle) hd
  · have hdelta : data.delta = data.amountCents := if_neg hdebit
    rw [if_neg hdebit]
    refine wp_creditWallet h (fun s1 ws1 w ho hd => ?_) hexc
    rw [← hdelta] at hd ⊢
    exact hpost s1 ws1 w ho (fun hd => absurd hd hdebit) hd

/-- **Adjusting a wallet** changes its balance and records the transaction, or does nothing. -/
theorem wp_adjustWalletTx {data : WalletAdjust} :
    Tx.wp G A (fun _ => Did G (Adjusted orgId walletId data)) AnyErr
      (adjustWalletTx orgId walletId data) [] s := by
  rw [adjustWalletTx, Tx.wp_do]
  refine wp_changeBalance did_start (fun s1 ws1 w ho hfunds hd => ?_) (fun _ _ => trivial)
  rw [Tx.wp_do]
  intro createdAt
  show Tx.wp G A _ AnyErr (Tx.bind (create .walletTransaction _) _) ws1 s1
  rw [Tx.wp_bind]
  refine wp_create hd (fun s2 ws2 transactionId _ _ hd2 => ?_) (fun _ _ _ => trivial)
  refine wp_findByIdOrThrow hd2 (fun s3 q _ _ hd3 _ _ => hd3.mono ?_) (fun _ _ _ _ _ => trivial)
  rintro a b ⟨n1, ⟨n, rfl, hw⟩, ht⟩
  exact ⟨transactionId, w, createdAt, ho, hfunds, n1, hw, by rw [ho]; exact ht⟩

/-! ## Customers and referrals -/

theorem wp_resolveByEmail {post : Option (Id × Customer) → List DbWrite → Db → Prop}
    (h : Did G R ws s) (hpost : ∀ s' x, Did G R ws s' → post x ws s') :
    Tx.wp G A post exc (resolveByEmail orgId ref) ws s := by
  rw [resolveByEmail]
  split
  · exact hpost s none h
  · exact wp_findAny h fun s1 x _ _ hd => hpost s1 x hd

theorem wp_resolveByPhone {post : Option (Id × Customer) → List DbWrite → Db → Prop}
    (h : Did G R ws s) (hpost : ∀ s' x, Did G R ws s' → post x ws s') :
    Tx.wp G A post exc (resolveByPhone orgId ref) ws s := by
  rw [resolveByPhone]
  split
  · exact hpost s none h
  · exact wp_findAny h fun s1 x _ _ hd => hpost s1 x hd

theorem did_provisions (h : Did G Eq ([] : List DbWrite) s) :
    Did G Provisions ([] : List DbWrite) s :=
  h.mono fun a b hab => by rw [hab]

theorem wp_updateCustomer {f : Customer → Customer} (hf : ∀ c, (f c).orgId = c.orgId)
    {post : Customer → List DbWrite → Db → Prop} (h : Did G Eq ([] : List DbWrite) s)
    (hpost : ∀ s' ws' c, Did G Provisions ws' s' → post c ws' s') (hexc : ∀ e s', exc e s') :
    Tx.wp G A post exc (update orgId .customer id f) [] s := by
  refine wp_updateKeyed (k := .customer) h (fun s1 ws1 c _ _ _ hd => ?_) (fun _ _ _ => hexc _ _)
    (fun _ _ _ => hexc _ _)
  refine hpost s1 ws1 (f c) (hd.mono ?_)
  rintro a b ⟨n, rfl, hr⟩
  exact .single (.elsewhere rfl (fun q hq => by cases hq; exact hf c) hr)

theorem wp_resolveByExternalId {legacy : Bool} (h : Did G Eq ([] : List DbWrite) s) :
    Tx.wp G A (fun _ => Did G Provisions) AnyErr (resolveByExternalId orgId legacy ref) [] s := by
  rw [resolveByExternalId]
  split
  · exact did_provisions h
  · rw [Tx.wp_do]
    refine wp_findAny h fun s1 found _ _ hd1 => ?_
    cases found with
    | some c => exact did_provisions hd1
    | none =>
      dsimp only
      split
      · exact did_provisions hd1
      · rw [Tx.wp_do]
        refine wp_findAny hd1 fun s2 byMetadata _ _ hd2 => ?_
        cases byMetadata with
        | none => exact did_provisions hd2
        | some c =>
          dsimp only
          split
          · rw [Tx.wp_do]
            refine wp_updateCustomer ?_ hd2 (fun _ _ _ hd => hd) (fun _ _ => trivial)
            exact fun _ => rfl
          · exact did_provisions hd2

theorem wp_resolveCustomerTx {legacy : Bool} :
    Tx.wp G A (fun _ => Did G Provisions) AnyErr (resolveCustomerTx orgId legacy ref) [] s := by
  rw [resolveCustomerTx]
  split
  · rw [Tx.wp_do]
    exact wp_findByIdAny did_start fun s1 c _ _ hd => did_provisions hd
  · rw [Tx.wp_do]
    refine wp_resolveByEmail did_start fun s1 x hd1 => ?_
    cases x with
    | some c => exact did_provisions hd1
    | none =>
      dsimp only
      rw [Tx.wp_do]
      refine wp_resolveByPhone hd1 fun s2 y hd2 => ?_
      cases y with
      | some c => exact did_provisions hd2
      | none => exact wp_resolveByExternalId hd2

def HeldBy (customerId id : Id) (s : Db) : Prop :=
  ∃ q : LoyaltyAccount, s.get .account id = some q ∧ q.customerId = customerId

theorem heldBy_keeps (hG : ∀ a b, G.rel a b → Grows a b) (customerId id : Id) :
    G.Keeps (HeldBy customerId id) := by
  rintro a b hab ⟨q, hq, hc⟩
  obtain ⟨q', hq', he⟩ := (hG a b hab).row hq
  exact ⟨q', hq', he.2.trans hc⟩

theorem AccountOf.heldBy (h : AccountOf orgId customerId id s) :
    HeldBy customerId id s := by
  obtain ⟨q, hq, -, hc⟩ := h
  exact ⟨q, hq, hc⟩

def OtherAccount (id customerId : Id) (s : Db) : Prop :=
  ∃ q : LoyaltyAccount, s.get .account id = some q ∧ q.customerId ≠ customerId

theorem otherAccount_keeps (hG : ∀ a b, G.rel a b → Grows a b) (id customerId : Id) :
    G.Keeps (OtherAccount id customerId) := by
  rintro a b hab ⟨q, hq, hc⟩
  obtain ⟨q', hq', he⟩ := (hG a b hab).row hq
  exact ⟨q', hq', fun h => hc (he.2.symm.trans h)⟩

/-- **A referral is created** between the accounts that were looked up before. -/
theorem wp_createReferral (hG : ∀ a b, G.rel a b → Grows a b) {r : LoyaltyReferral}
    (hp : r.status = .pending) (hx : r.referredAccountId = some x)
    (hother : OtherAccount r.referrerAccountId r.referredCustomerId s)
    (hacc : HeldBy r.referredCustomerId x s) :
    Tx.wp G A (fun id => Did G (Refers id r)) AnyErr (create .referral r) [] s := by
  refine wp_create (((did_start (s := s)).note (heldBy_keeps hG _ _) hacc).note
    (otherAccount_keeps hG _ _) hother) (fun s1 ws1 id _ _ hd => hd.mono ?_) (fun _ _ _ => trivial)
  rintro a b ⟨n, ⟨ho, ⟨q, hq, hc⟩, rfl⟩, hr⟩
  exact ⟨hp, ho, ⟨x, q, hx, hq, hc⟩, hr⟩

/-- The referral `id` is a version of `p`. -/
def ReferralIs (id : Id) (p : LoyaltyReferral) (s : Db) : Prop :=
  ∃ r : LoyaltyReferral, s.get .referral id = some r ∧ Evolves .referral p r

theorem referralIs_keeps (hG : ∀ a b, G.rel a b → Grows a b) (id : Id) (p : LoyaltyReferral) :
    G.Keeps (ReferralIs id p) := by
  rintro a b hab ⟨r, hr, he⟩
  obtain ⟨r', hr', he'⟩ := (hG a b hab).row hr
  exact ⟨r', hr', he.trans he'⟩

theorem credited_keeps (hG : ∀ a b, G.rel a b → Grows a b) (orgId accountId : Id)
    (sourceId : String) : G.Keeps (Credited orgId accountId sourceId) := by
  rintro a b hab ⟨l, hl, h⟩
  exact ⟨l, (hG a b hab).mem_log hl, h⟩

/-- What a completion knows before its last transaction. -/
structure ReadyToComplete (orgId : Id) (id : Id) (p : LoyaltyReferral) (x : Id) (s : Db) : Prop where
  row : ReferralIs id p s
  org : p.orgId = orgId
  account : HeldBy p.referredCustomerId x s
  advocate : 0 < p.referrerBonusPoints → Credited orgId p.referrerAccountId (advocateKey id) s
  welcome : 0 < p.referredBonusPoints → Credited orgId x (welcomeKey id) s

theorem readyToComplete_keeps (hG : ∀ a b, G.rel a b → Grows a b) (id : Id) (p : LoyaltyReferral)
    (x : Id) : G.Keeps (ReadyToComplete orgId id p x) := fun a b hab h =>
  ⟨referralIs_keeps hG _ _ a b hab h.row, h.org, heldBy_keeps hG _ _ a b hab h.account,
    fun hp => credited_keeps hG _ _ _ a b hab (h.advocate hp),
    fun hp => credited_keeps hG _ _ _ a b hab (h.welcome hp)⟩

theorem ReadyToComplete.referred {p r : LoyaltyReferral} {a : Db}
    (h : ReadyToComplete orgId id p x a) (ha : WellKept a) (hr : a.get .referral id = some r) :
    r.referredAccountId = none ∨ r.referredAccountId = some x := by
  cases hy : r.referredAccountId with
  | none => exact Or.inl rfl
  | some y =>
    obtain ⟨q, hq, hc⟩ := ha.referred hr hy
    obtain ⟨r', hr', he⟩ := h.row
    rw [hr] at hr'
    cases hr'
    obtain ⟨q', hq', hc'⟩ := h.account
    have hyx : y = x := ha.unique.row (u := .accountCustomer p.referredCustomerId) (k := .account)
      ⟨q, hq, by
        show _ ∈ uniqueKeys .account q
        simp [uniqueKeys, hc, he.2.2.1]⟩
      ⟨q', hq', by
        show _ ∈ uniqueKeys .account q'
        simp [uniqueKeys, hc']⟩
    exact Or.inr (hyx ▸ rfl)

/-- **A referral is completed** with both bonuses on the ledger. -/
theorem wp_completeTx (hG : ∀ a b, G.rel a b → Grows a b) {p : LoyaltyReferral}
    (h : ReadyToComplete orgId id p x s) :
    Tx.wp G A (fun _ => Did G fun a b => WellKept a → ∃ r today, Completes id r x today a b) AnyErr
      (completeTx orgId id x) [] s := by
  rw [completeTx, Tx.wp_do]
  intro today
  rw [Tx.wp_pure]
  refine wp_updateKeyed ((did_start (s := s)).note (readyToComplete_keeps hG _ _ _) h)
    (fun s1 ws1 r _ _ _ hd => hd.mono ?_) (fun _ _ _ => trivial) (fun _ _ _ => trivial)
  rintro a b ⟨n, ⟨hready, rfl⟩, hr⟩ ha
  obtain ⟨r', hr', he⟩ := hready.row
  have hrr : r' = r := Option.some.inj (hr'.symm.trans hr.get_old)
  subst hrr
  obtain ⟨h1, h2, h3, h4, h5, -, -⟩ := he
  obtain ⟨q, hq, hc⟩ := hready.account
  refine ⟨r', today, hready.referred ha hr', ⟨q, hq, hc.trans h3.symm⟩, fun hpos => ?_,
    fun hpos => ?_, hr⟩
  · rw [h1, hready.org, h2]
    exact hready.advocate (h4 ▸ hpos)
  · rw [h1, hready.org]
    exact hready.welcome (h5 ▸ hpos)

end PatronLoyalty.Loyalty
