import Mathlib.Data.List.MinMax
import PatronLoyalty.Loyalty.Book

/-!
# Point movements refine the book

The ledger transaction, statement by statement, as a movement of the book. `wp_postPoints` is the
specification of `applyPointsInTransaction` past its lookup, inside any caller's transaction;
`wp_applyPointsInTransaction` is the specification of the whole when it is the transaction.
-/

namespace PatronLoyalty.Loyalty

open Txn Relation

variable {G : Guarantee Db} {A : Db → Prop} {exc : Err → Db → Prop} {R : Db → Db → Prop}
  {ws : List DbWrite} {s : Db} {orgId accountId : Id} {q r : LoyaltyAccount}
  {post : ApplyPointsTxResult → List DbWrite → Db → Prop} {points : ℤ} {type : LedgerType}
  {opts : PointsOpts} {m : Movement}

/-- A refresh of an account's standing, if any. -/
def Touches (accountId : Id) (q q' : LoyaltyAccount) (a b : Db) : Prop :=
  q' = q ∧ b = a ∨ q'.core = q.core ∧ Rel.Replaced .account accountId (some q) q' a b

theorem visible_account :
    visible orgId .account r = true ↔ r.orgId = orgId := by
  simp [visible, tenantPolicy, orgOf]

/-- What the transaction has done leaves it the account `q`. -/
def HasAccount (accountId : Id) (q : LoyaltyAccount) (R : Db → Db → Prop) : Prop :=
  ∀ a b, R a b → b.get .account accountId = some q

theorem HasAccount.visible (h : HasAccount accountId q R) (ho : q.orgId = orgId) (hd : Did G R ws s)
    (hn : ∀ r, (view ws s).get .account accountId = some r → visible orgId .account r = false) :
    False := by
  have := hn q (h _ _ hd.here)
  rw [visible_account.mpr ho] at this
  cases this

/-- The tier `lifetimePoints` reach: none has a greater threshold among those they are not below. -/
structure Reaches (orgId : Id) (lifetimePoints : ℤ) (id : Id) (t : LoyaltyTier) (s : Db) :
    Prop where
  found : s.get .tier id = some t
  org : t.orgId = orgId
  reached : t.minLifetimePoints ≤ lifetimePoints
  greatest {id' : Id} {t' : LoyaltyTier} : s.get .tier id' = some t' → t'.orgId = orgId →
    t'.minLifetimePoints ≤ lifetimePoints → t'.minLifetimePoints ≤ t.minLifetimePoints

def ReachesNone (orgId : Id) (lifetimePoints : ℤ) (s : Db) : Prop :=
  ∀ (id : Id) (t : LoyaltyTier), s.get .tier id = some t → t.orgId = orgId →
    lifetimePoints < t.minLifetimePoints

theorem wp_resolveTierForPoints {lifetimePoints : ℤ}
    {post : Option (Id × LoyaltyTier) → List DbWrite → Db → Prop} (h : Did G R ws s)
    (hsome : ∀ s' id t, G.rel s s' → A s' → Did G R ws s' →
      Reaches orgId lifetimePoints id t (view ws s') → post (some (id, t)) ws s')
    (hnone : ∀ s', G.rel s s' → A s' → Did G R ws s' →
      ReachesNone orgId lifetimePoints (view ws s') → post none ws s') :
    Tx.wp G A post exc (resolveTierForPoints orgId lifetimePoints) ws s := by
  refine Did.wp_findFirst h fun s' n hG hA hd => ?_
  dsimp only
  generalize hrows : ((view ws s').rows .tier fun id r => visible orgId .tier r &&
    decide (r.minLifetimePoints ≤ lifetimePoints)) = rows
  have hmem : ∀ id (t : LoyaltyTier), (id, t) ∈ rows ↔ (view ws s').get .tier id = some t ∧
      t.orgId = orgId ∧ t.minLifetimePoints ≤ lifetimePoints := by
    intro id t
    rw [← hrows, Rel.mem_rows]
    simp [visible, tenantPolicy, orgOf]
  generalize hx : (rows.filter fun r => rows.all fun r' =>
    decide (r'.2.minLifetimePoints ≤ r.2.minLifetimePoints))[n % _]? = x
  cases x with
  | some e =>
    obtain ⟨hin, hall⟩ := List.mem_filter.mp (List.mem_of_getElem? hx)
    obtain ⟨hg, ho, hle⟩ := (hmem e.1 e.2).mp hin
    refine hsome s' e.1 e.2 hG hA hd ⟨hg, ho, hle, fun {id' t'} hg' ho' hle' => ?_⟩
    have := List.all_eq_true.mp hall (id', t') ((hmem id' t').mpr ⟨hg', ho', hle'⟩)
    exact of_decide_eq_true this
  | none =>
    refine hnone s' hG hA hd fun id t hg ho => ?_
    by_contra hlt
    have hin := (hmem id t).mpr ⟨hg, ho, not_lt.mp hlt⟩
    obtain ⟨y, hy⟩ := Option.ne_none_iff_exists'.mp
      (mt (List.argmax_eq_none (f := fun e : Id × LoyaltyTier => e.2.minLifetimePoints)).mp
        (List.ne_nil_of_mem hin))
    have hmax : ∀ z ∈ rows, z.2.minLifetimePoints ≤ y.2.minLifetimePoints :=
      fun z hz => List.le_of_mem_argmax (f := fun e : Id × LoyaltyTier => e.2.minLifetimePoints)
        hz hy
    have hin' : y ∈ rows.filter fun r => rows.all fun r' =>
        decide (r'.2.minLifetimePoints ≤ r.2.minLifetimePoints) :=
      List.mem_filter.mpr
        ⟨List.argmax_mem hy, List.all_eq_true.mpr fun z hz => decide_eq_true (hmax z hz)⟩
    rw [List.getElem?_eq_none_iff] at hx
    exact absurd (Nat.mod_lt n (List.length_pos_of_mem hin')) (Nat.not_lt.mpr hx)

inductive Promotes (orgId : Id) (r : LoyaltyAccount) (tierId : Option Id) (slug : Option String)
    (s : Db) : Prop
  | none (h : ReachesNone orgId r.lifetimePointsEarned s) (ht : tierId = r.tierId)
      (hs : slug = none)
  | kept {id : Id} {t : LoyaltyTier} (h : Reaches orgId r.lifetimePointsEarned id t s)
      (hr : r.tierId = some id) (ht : tierId = r.tierId) (hs : slug = none)
  | raised {id : Id} {t : LoyaltyTier} (h : Reaches orgId r.lifetimePointsEarned id t s)
      (hr : r.tierId ≠ some id) (ht : tierId = some id) (hs : slug = some t.slug)

theorem wp_upgradeTier {post : Option String → List DbWrite → Db → Prop} (h : Did G R ws s)
    (hacc : HasAccount accountId q R) (ho : q.orgId = orgId)
    (hpost : ∀ s1 s' ws' slug q', G.rel s s1 → G.rel s1 s' → A s' → R s1 (view ws s1) →
      Promotes orgId q q'.tierId slug (view ws s1) →
      Did G (Comp R (Touches accountId q q')) ws' s' → q'.core = q.core → post slug ws' s') :
    Tx.wp G A post exc (upgradeTier orgId accountId q) ws s := by
  have unchanged : ∀ {s'}, Did G R ws s' → Did G (Comp R (Touches accountId q q)) ws s' :=
    fun hd => hd.mono fun a b hR => ⟨b, hR, Or.inl ⟨rfl, rfl⟩⟩
  rw [upgradeTier, Tx.wp_do]
  refine wp_resolveTierForPoints h (fun s1 tierId tier hG hA hd ht => ?_) (fun s1 hG hA hd hn => ?_)
  · dsimp only
    split
    · rename_i hsame
      exact hpost s1 s1 ws none q hG (G.refl s1) hA hd.here (.kept ht hsame rfl rfl) (unchanged hd) rfl
    · rename_i hne
      rw [Tx.wp_do]
      refine wp_update hd (fun r => rfl) (fun s2 ws' r hG' hA' _ hd' => ?_)
        (fun s2 _ _ hd' hn => (hacc.visible ho hd' hn).elim)
      refine hpost s1 s2 ws' (some tier.slug) { q with tierId := tierId } hG hG' hA' hd.here
        (.raised ht hne rfl rfl) (hd'.mono fun a b hab => ?_) rfl
      obtain ⟨n, hR, hr⟩ := hab
      have hqr : q = r := Option.some.inj ((hacc _ _ hR).symm.trans hr.get_old)
      subst hqr
      exact ⟨n, hR, Or.inr ⟨rfl, hr⟩⟩
  · exact hpost s1 s1 ws none q hG (G.refl s1) hA hd.here (.none hn rfl rfl) (unchanged hd) rfl

theorem wp_refreshHealthScore {post : Unit → List DbWrite → Db → Prop} (h : Did G R ws s)
    (hacc : HasAccount accountId q R) (ho : q.orgId = orgId)
    (hpost : ∀ s' ws' q', G.rel s s' → A s' → Did G (Comp R (Touches accountId q q')) ws' s' →
      q'.core = q.core → q'.tierId = q.tierId → post () ws' s') :
    Tx.wp G A post exc (refreshHealthScore orgId accountId) ws s := by
  rw [refreshHealthScore, Tx.wp_do]
  refine wp_findById h (fun s1 account hG1 _ hd1 _ _ => ?_)
    (fun s1 _ _ hd1 hn => (hacc.visible ho hd1 hn).elim)
  dsimp only
  rw [Tx.wp_do]
  refine wp_findByIdAny hd1 fun s2 customer hG2 _ hd2 => ?_
  rw [Tx.wp_do]
  refine wp_findLast hd2 fun s3 visit hG3 _ hd3 _ => ?_
  rw [Tx.wp_do]
  intro today
  show Tx.wp G A post exc ((update orgId .account accountId _).bind _) ws s3
  rw [Tx.wp_bind]
  refine wp_update hd3 (fun r => rfl) (fun s4 ws' r hG4 hA4 _ hd4 => ?_)
    (fun s4 _ _ hd4 hn => (hacc.visible ho hd4 hn).elim)
  refine hpost s4 ws' (q.withHealth (healthOf account (visit.bind (·.2.completedAt)) today))
    (G.trans hG1 (G.trans hG2 (G.trans hG3 hG4))) hA4 (hd4.mono fun a b hab => ?_) rfl rfl
  obtain ⟨n, hR, hr⟩ := hab
  have hqr : q = r := Option.some.inj ((hacc _ _ hR).symm.trans hr.get_old)
  subst hqr
  exact ⟨n, hR, Or.inr ⟨rfl, hr⟩⟩

def CannotMove (orgId accountId : Id) (points : ℤ) (type : LedgerType) (s : Db) : Prop :=
  ∀ r : LoyaltyAccount, s.get .account accountId = some r → r.orgId = orgId →
    isDebitLedgerType type = true ∧ r.pointsBalance < points

theorem wp_moveBalance {post : LoyaltyAccount → List DbWrite → Db → Prop} (h : Did G R ws s)
    (hpost : ∀ s' ws' r, G.rel s s' → A s' → r.orgId = m.orgId →
      (isDebitLedgerType m.type = true → m.points ≤ r.pointsBalance) →
      Did G (Comp R (Rel.Replaced .account m.accountId (some r) (m.move r))) ws' s' →
      post (m.move r) ws' s') (hmiss : ∀ s1 s' e, G.rel s s1 → A s1 → Did G R ws s1 →
      CannotMove m.orgId m.accountId m.points m.type (view ws s1) → G.rel s1 s' → exc e s') :
    Tx.wp G A post exc
      (moveBalance m.orgId m.accountId m.points m.type m.opts.incrementVisit) ws s := by
  -- after the update the transaction reads its own row back
  have readBack : ∀ {s1 ws1 r}, G.rel s s1 → r.orgId = m.orgId →
      (isDebitLedgerType m.type = true → m.points ≤ r.pointsBalance) →
      Did G (Comp R (Rel.Replaced .account m.accountId (some r) (m.move r))) ws1 s1 →
      Tx.wp G A post exc (findByIdOrThrow m.orgId .account m.accountId) ws1 s1 := by
    intro s1 ws1 r hG ho hf hd
    refine wp_findByIdOrThrow hd (fun s2 q hG2 hA2 hd2 hq _ => ?_) (fun s2 _ _ hd2 hn => ?_)
    · obtain ⟨n, -, hr⟩ := hd2.here
      rw [hr.get_self] at hq
      cases hq
      exact hpost s2 ws1 r (G.trans hG hG2) hA2 ho hf hd2
    · obtain ⟨n, -, hr⟩ := hd2.here
      have := hn _ hr.get_self
      rw [visible_account.mpr ((move_identity m r).1.trans ho)] at this
      cases this
  unfold moveBalance
  split
  · rename_i hdebit
    rw [debitAccount, Tx.wp_do]
    refine wp_updateMany h (fun r => rfl) (fun s1 ws1 r hG hA hv hp hd => ?_)
      (fun s1 hG hA hd hn => ?_)
    · have hm : r.debited m.points m.type = m.move r := by
        unfold Movement.move
        rw [if_pos hdebit]
      rw [hm] at hd
      exact readBack hG (visible_account.mp hv) (fun _ => by simpa using hp) hd
    · have hc : CannotMove m.orgId m.accountId m.points m.type (view ws s1) := fun r hr ho =>
        ⟨hdebit, by simpa using hn r hr (visible_account.mpr ho)⟩
      show Tx.wp G A post exc (Tx.bind (findById m.orgId .account m.accountId) _) ws s1
      rw [Tx.wp_bind]
      exact wp_findById hd (fun s2 _ hG2 _ _ _ _ => hmiss s1 s2 _ hG hA hd hc hG2)
        (fun s2 hG2 _ _ _ => hmiss s1 s2 _ hG hA hd hc hG2)
  · rename_i hdebit
    rw [creditAccount, Tx.wp_do]
    refine wp_updateMany h (fun r => rfl) (fun s1 ws1 r hG hA hv _ hd => ?_)
      (fun s1 hG hA hd hn => ?_)
    · have hm : r.credited m.points m.type m.opts.incrementVisit = m.move r := by
        unfold Movement.move
        rw [if_neg hdebit]
      rw [hm] at hd
      exact readBack hG (visible_account.mp hv) (fun hd => absurd hd hdebit) hd
    · refine hmiss s1 s1 _ hG hA hd (fun r hr ho => ?_) (G.refl s1)
      have := hn r hr (visible_account.mpr ho)
      cases this

/-- The movement's account, refreshed. -/
theorem Posts.touched {r' r'' : LoyaltyAccount} {a b c : Db} (h : Posts m r r' a b)
    (ht : Touches m.accountId r' r'' b c) : Posts m r r'' a c := by
  rcases ht with ⟨rfl, rfl⟩ | ⟨hc, hq⟩
  · exact h
  · refine ⟨h.positive, h.found, h.org, h.funds, hc.trans h.moved, h.free, ?_⟩
    rw [hq.2.2, h.result]
    exact Rel.set_push_set _ _ _ _ _ _

/-- What `applyPointsInTransaction` answers of a movement. -/
def Movement.result (m : Movement) (r' : LoyaltyAccount) (slug : Option String) :
    ApplyPointsTxResult where
  finalAccount := (m.accountId, r')
  type := m.type
  points := m.points
  delta := m.delta
  customerId := r'.customerId
  idempotent := false
  tierUpgradeSlug := slug

/-- The tier lookup of a movement, at some moment between `s` and `s'`. -/
def Told (G : Guarantee Db) (R : Db → Db → Prop) (m : Movement) (r r' : LoyaltyAccount)
    (slug : Option String) (s s' : Db) : Prop :=
  ∃ s₁ b, G.rel s s₁ ∧ G.rel s₁ s' ∧ Comp R (Posts m r (m.move r)) s₁ b ∧
    Promotes m.orgId (m.move r) r'.tierId slug b

theorem Told.mono {R' : Db → Db → Prop} {r' : LoyaltyAccount} {slug : Option String} {s0 s' : Db}
    (h : Told G R' m r r' slug s s') (hR : ∀ a b, R' a b → R a b)
    (hG : G.rel s0 s) : Told G R m r r' slug s0 s' := by
  obtain ⟨s1, b, h1, h2, ⟨n, hn, hp⟩, ht⟩ := h
  exact ⟨s1, b, G.trans hG h1, h2, ⟨n, hR _ _ hn, hp⟩, ht⟩

/-- **Posting points is a movement.** It fails where the account cannot be moved and where the
ledger already has a row under the source. -/
theorem wp_postPoints (h : Did G R ws s) (hpos : 0 < points)
    (hpost : ∀ s' ws' t r r' slug, G.rel s s' → A s' →
      Did G (Comp R (Posts ⟨orgId, accountId, points, type, opts, t⟩ r r')) ws' s' →
      Told G R ⟨orgId, accountId, points, type, opts, t⟩ r r' slug s s' →
      post ((⟨orgId, accountId, points, type, opts, t⟩ : Movement).result r' slug) ws' s')
    (hmiss : ∀ s1 s' e, G.rel s s1 → A s1 → Did G R ws s1 →
      CannotMove orgId accountId points type (view ws s1) → G.rel s1 s' → exc e s')
    (hdup : ∀ s' n u t b, G.rel s s' → A s' → R s' n →
      u ∈ ledgerKeys ((⟨orgId, accountId, points, type, opts, t⟩ : Movement).row b) →
      n.logAt u ≠ [] → exc .uniqueViolation s') :
    Tx.wp G A post exc (postPoints orgId accountId points type opts) ws s := by
  rw [postPoints, Tx.wp_do]
  refine wp_moveBalance (m := ⟨orgId, accountId, points, type, opts, 0⟩) h
    (fun s1 ws1 r hG1 hA1 ho hf hd1 => ?_) hmiss
  rw [Tx.wp_do]
  intro t
  let m : Movement := ⟨orgId, accountId, points, type, opts, t⟩
  show Tx.wp G A post exc (Tx.bind (createLedger (m.row (m.move r).pointsBalance)) _) ws1 s1
  rw [Tx.wp_bind]
  refine wp_createLedger hd1 (fun s2 ws2 hG2 hA2 hd2 => ?_) (fun s2 u hG2 hA2 hd2 hu hne => ?_)
  · -- the update and the ledger row together are the movement
    have hd : Did G (Comp R (Posts m r (m.move r))) ws2 s2 := hd2.mono <| by
      rintro a b ⟨n', ⟨n, hR, hr⟩, hl⟩
      refine ⟨n, hR, hpos, hr.get_old, ho, hf, rfl, fun u hu => ?_, ?_⟩
      · have := hl.1 u hu
        unfold Rel.logAt at this ⊢
        rw [hr.log] at this
        exact this
      · rw [hl.2, hr.2.2]
        rfl
    have hacc : ∀ r', HasAccount accountId r' (Comp R (Posts m r r')) := by
      rintro r' a b ⟨n, -, hp⟩
      exact hp.get_self
    have absorb : ∀ {r' r'' a b}, Comp (Comp R (Posts m r r')) (Touches accountId r' r'') a b →
        Comp R (Posts m r r'') a b := by
      rintro r' r'' a b ⟨n', ⟨n, hR, hp⟩, ht⟩
      exact ⟨n, hR, hp.touched ht⟩
    have horg : ∀ {r' : LoyaltyAccount}, r'.core = (m.move r).core → r'.orgId = orgId :=
      fun hc => (core_eq hc).1.trans ((move_identity m r).1.trans ho)
    show Tx.wp G A post exc (Tx.bind (upgradeTier orgId accountId (m.move r)) _) ws2 s2
    rw [Tx.wp_bind]
    refine wp_upgradeTier hd (hacc _) (horg rfl)
      fun s0 s3 ws3 slug r1 hG0 hG3 hA3 hat hpr hd3 hc1 => ?_
    rw [Tx.wp_do]
    refine wp_refreshHealthScore (hd3.mono fun a b => absorb) (hacc _) (horg hc1)
      fun s4 ws4 r2 hG4 hA4 hd4 hc2 htier => ?_
    have hd4' := hd4.mono fun a b => absorb
    rw [Tx.wp_do]
    refine wp_findByIdOrThrow hd4' (fun s5 q hG5 hA5 hd5 hq _ => ?_)
      (fun s5 _ _ hd5 hn => ((hacc r2).visible (horg (hc2.trans hc1)) hd5 hn).elim)
    have hqr : q = r2 := Option.some.inj (hq.symm.trans (hacc r2 _ _ hd5.here))
    subst hqr
    have hcust : (m.move r).customerId = q.customerId := (core_eq (hc2.trans hc1)).2.1.symm
    have hafter : G.rel s0 s5 := G.trans hG3 (G.trans hG4 hG5)
    have hbefore : G.rel s s0 := G.trans hG1 (G.trans hG2 hG0)
    have := hpost s5 ws4 t r q slug (G.trans hbefore hafter) hA5 hd5
      ⟨s0, _, hbefore, hafter, hat, htier ▸ hpr⟩
    rw [Movement.result, ← hcust] at this
    exact this
  · obtain ⟨n, hR, hr⟩ := hd2.here
    refine hdup s2 n u t _ (G.trans hG1 hG2) hA2 hR hu fun h0 => hne ?_
    unfold Rel.logAt at h0 ⊢
    rw [hr.log]
    exact h0

/-! ## Rows that were read -/

theorem row_of_stable (hG : ∀ a b, G.rel a b → Grows a b) {s' : Db} (h : Stable G ws s s')
    {k : Kind} {id : Id} {r : Row k} (hr : (view ws s).get k id = some r) :
    ∃ r', (view ws s').get k id = some r' ∧ Evolves k r r' := by
  by_cases hl : (.row k id : DbLock) ∈ held (σ := Db) ws
  · have hs : (view ws s).get k id = (view ws s').get k id := same_view h.2 (h.2 _ hl)
    exact ⟨r, hs ▸ hr, Evolves.refl k r⟩
  · have hs : s.get k id = (view ws s).get k id := frame_view s hl
    have hs' : s'.get k id = (view ws s').get k id := frame_view s' hl
    rw [← hs] at hr
    rw [← hs']
    exact (hG s s' h.1).row hr

theorem did_row (hG : ∀ a b, G.rel a b → Grows a b) (h : Did G R ws s) {k : Kind} {id : Id}
    {r : Row k} (hr : (view ws s).get k id = some r) :
    Did G (fun a b => R a b ∧ ∃ r', b.get k id = some r' ∧ Evolves k r r') ws s :=
  fun s' hs => ⟨h s' hs, row_of_stable hG hs hr⟩

/-! ## The ledger transaction -/

/-- Debits and adjustments have no idempotency lookup. -/
theorem earnSource_eq_none (opts : PointsOpts)
    (h : isEarnSourceIdempotentType type = false) : earnSource type opts = none := by
  unfold earnSource
  rw [h]
  rfl

theorem truthy_eq_some {x : Option String} {y : String} (h : truthy x = some y) : x = some y := by
  unfold truthy at h
  split at h
  · cases h
  · exact h

theorem earnSource_eq_some {sourceType sourceId : String}
    (h : earnSource type opts = some (sourceType, sourceId)) :
    opts.sourceType = some sourceType ∧ opts.sourceId = some sourceId := by
  unfold earnSource at h
  split at h
  · split at h
    · rename_i st sid hst hsid
      cases h
      exact ⟨truthy_eq_some hst, truthy_eq_some hsid⟩
    · cases h
  · cases h

/-- Inside the caller's transaction, without a lookup. -/
theorem wp_applyPointsUnchecked (h : Did G R ws s) (hsrc : earnSource type opts = none)
    (hpost : ∀ s' ws' t r r' slug, G.rel s s' → A s' →
      Did G (Comp R (Posts ⟨orgId, accountId, points, type, opts, t⟩ r r')) ws' s' →
      Told G R ⟨orgId, accountId, points, type, opts, t⟩ r r' slug s s' →
      post ((⟨orgId, accountId, points, type, opts, t⟩ : Movement).result r' slug) ws' s')
    (hexc : ∀ e s', exc e s') :
    Tx.wp G A post exc (applyPointsInTransaction orgId accountId points type opts) ws s := by
  rw [applyPointsInTransaction]
  split
  · exact hexc _ _
  · rename_i hpos
    rw [hsrc]
    exact wp_postPoints h (not_le.mp hpos) hpost (fun _ _ e _ _ _ _ _ => hexc e _)
      fun _ _ _ _ _ _ _ _ _ _ => hexc _ _

/-- The options of an adjustment. -/
def manualOpts (description : String) : PointsOpts :=
  { sourceType := "manual", description := description }

theorem adjustmentType_unchecked (points : ℤ) (opts : PointsOpts) :
    earnSource (adjustmentType points) opts = none := by
  refine earnSource_eq_none opts ?_
  unfold adjustmentType
  split <;> rfl

theorem adjustment_delta (ht : m.type = adjustmentType points)
    (hp : m.points = points.natAbs) : m.delta = points := by
  unfold Movement.delta
  rw [ht, hp, adjustmentType]
  by_cases h : 0 < points
  · rw [if_pos h]
    show (points.natAbs : ℤ) = points
    omega
  · rw [if_neg h]
    show -(points.natAbs : ℤ) = points
    omega

/-- **An adjustment of a customer's points** inside the caller's transaction. -/
theorem wp_adjustCustomerPoints (hG : ∀ a b, G.rel a b → Grows a b) {customerId : Id}
    {description : String} (h : Did G R ws s)
    (hpost : ∀ s' ws' accountId t r r' slug, G.rel s s' → A s' → r.customerId = customerId →
      Did G (Comp R (Posts ⟨orgId, accountId, points.natAbs, adjustmentType points,
        manualOpts description, t⟩ r r')) ws' s' →
      Told G R ⟨orgId, accountId, points.natAbs, adjustmentType points, manualOpts description, t⟩
        r r' slug s s' →
      post ((⟨orgId, accountId, points.natAbs, adjustmentType points, manualOpts description, t⟩ :
        Movement).result r' slug) ws' s') (hexc : ∀ e s', exc e s') :
    Tx.wp G A post exc (adjustCustomerPoints orgId customerId points description) ws s := by
  rw [adjustCustomerPoints, Tx.wp_do]
  refine wp_findFirst h (fun s1 accountId q hG1 hA1 hd1 hq _ hc => ?_) (fun _ _ _ _ _ => hexc _ _)
  have hq' : q.customerId = customerId := by simpa using hc
  refine wp_applyPointsUnchecked (did_row hG hd1 hq) (adjustmentType_unchecked _ _)
    (fun s2 ws2 t r r' slug hG2 hA2 hd2 ht => ?_) hexc
  obtain ⟨n, ⟨-, q', hq2, he⟩, hp⟩ := hd2.here
  have hqr : q' = r := Option.some.inj (hq2.symm.trans hp.found)
  subst hqr
  exact hpost s2 ws2 accountId t q' r' slug (G.trans hG1 hG2) hA2 (he.2.trans hq')
    (hd2.mono fun a b ⟨n, hn, hp⟩ => ⟨n, hn.1, hp⟩) (ht.mono (fun _ _ hR => hR.1) hG1)

def EarnedBefore (orgId accountId : Id) (type : LedgerType) (opts : PointsOpts) (s : Db) : Prop :=
  ∃ sourceType sourceId, earnSource type opts = some (sourceType, sourceId) ∧ ∃ l ∈ s.log,
    l.orgId = orgId ∧ l.accountId = accountId ∧ l.type = type ∧
    l.sourceType = some sourceType ∧ l.sourceId = some sourceId

/-- What a committed ledger transaction did: a movement, or nothing beside an earlier one. -/
def Applied (orgId accountId : Id) (points : ℤ) (type : LedgerType) (opts : PointsOpts)
    (res : ApplyPointsTxResult) (a b : Db) : Prop :=
  (res.idempotent = false ∧ ∃ t r r' slug,
    res = (⟨orgId, accountId, points, type, opts, t⟩ : Movement).result r' slug ∧
    Posts ⟨orgId, accountId, points, type, opts, t⟩ r r' a b) ∨
  (res.idempotent = true ∧ b = a ∧ EarnedBefore orgId accountId type opts a)

theorem wp_findExistingEarnLedger {sourceType sourceId : String}
    (hsrc : earnSource type opts = some (sourceType, sourceId))
    {post : Option LoyaltyPointLedger → List DbWrite → Db → Prop} (h : Did G R ws s)
    (hsome : ∀ s' l, G.rel s s' → A s' → Did G R ws s' →
      EarnedBefore orgId accountId type opts (view ws s') → post (some l) ws s')
    (hnone : ∀ s', G.rel s s' → A s' → Did G R ws s' →
      ¬ EarnedBefore orgId accountId type opts (view ws s') → post none ws s') :
    Tx.wp G A post exc (findExistingEarnLedger orgId accountId type sourceType sourceId) ws s := by
  rw [findExistingEarnLedger]
  refine wp_findLedger h (fun s' l hG hA hd hl ho hp => ?_) (fun s' hG hA hd hn => ?_)
  · simp only [Bool.and_eq_true, beq_iff_eq] at hp
    exact hsome s' l hG hA hd
      ⟨sourceType, sourceId, hsrc, l, hl, ho, hp.1.1.1, hp.2, hp.1.1.2, hp.1.2⟩
  · refine hnone s' hG hA hd ?_
    rintro ⟨st, sid, hs, l, hl, ho, ha, ht, hst, hsid⟩
    rw [hsrc] at hs
    cases hs
    have := hn l hl ho
    simp [ha, hst, hsid, ht] at this

/-- Past transactions leave the ledger row there. -/
theorem earnedBefore_keeps (hG : ∀ a b, G.rel a b → Grows a b) (type : LedgerType)
    (opts : PointsOpts) : G.Keeps (EarnedBefore orgId accountId type opts) := by
  rintro a b hab ⟨st, sid, hs, l, hl, hrest⟩
  exact ⟨st, sid, hs, l, (hG a b hab).mem_log hl, hrest⟩

/-- **The ledger transaction** of `applyPoints`, with what each failure means: no account or no
funds, or a ledger row under the source that the lookup did not see. -/
theorem wp_applyPointsInTransaction (hG : ∀ a b, G.rel a b → Grows a b)
    (hpos : points ≤ 0 → ∀ e, exc e s)
    (hmiss : ∀ s1 s' e, G.rel s s1 → A s1 → CannotMove orgId accountId points type s1 →
      G.rel s1 s' → exc e s') (hnone : ∀ s1 s', EarnedBefore orgId accountId type opts s1 →
      (∀ r : LoyaltyAccount, s'.get .account accountId = some r → r.orgId ≠ orgId) →
      G.rel s s1 → G.rel s1 s' → A s' → exc .recordNotFound s')
    (hdup : ∀ s' u t b, G.rel s s' → A s' →
      u ∈ ledgerKeys ((⟨orgId, accountId, points, type, opts, t⟩ : Movement).row b) →
      s'.logAt u ≠ [] → exc .uniqueViolation s') :
    Tx.wp G A (fun res => Did G (Applied orgId accountId points type opts res)) exc
      (applyPointsInTransaction orgId accountId points type opts) [] s := by
  have posting : 0 < points → ∀ s0, G.rel s s0 →
      Tx.wp G A (fun res => Did G (Applied orgId accountId points type opts res)) exc
        (postPoints orgId accountId points type opts) [] s0 := by
    intro hpos s0 hG0
    refine wp_postPoints did_start hpos (fun s' ws' t r r' slug _ _ hd _ => ?_)
      (fun s1 s' e hG1 hA1 _ hc hG' => hmiss s1 s' e (G.trans hG0 hG1) hA1 hc hG')
      (fun s' n u t b hG1 hA1 hn hu hne => ?_)
    · exact hd.mono fun a b ⟨n, hn, hp⟩ => Or.inl ⟨rfl, t, r, r', slug, rfl, hn ▸ hp⟩
    · subst hn
      exact hdup s' u t b (G.trans hG0 hG1) hA1 hu hne
  rw [applyPointsInTransaction]
  split
  · rename_i hle
    exact hpos hle _
  · rename_i hle
    have hlt : 0 < points := not_le.mp hle
    cases hsrc : earnSource type opts with
    | none => exact posting hlt s (G.refl s)
    | some src =>
      obtain ⟨sourceType, sourceId⟩ := src
      dsimp only
      rw [Tx.wp_do]
      refine wp_findExistingEarnLedger hsrc (did_start (s := s))
        (fun s1 l hG1 hA1 hd1 he => ?_) (fun s1 hG1 _ _ _ => posting hlt s1 hG1)
      have hd1' := hd1.note (earnedBefore_keeps hG type opts) he
      dsimp only
      rw [Tx.wp_do]
      refine wp_findByIdOrThrow hd1' (fun s2 q hG2 hA2 hd2 _ _ => ?_)
        (fun s2 hG2 hA2 _ hn => ?_)
      · exact hd2.mono fun a b hab => Or.inr ⟨rfl, hab.2.symm, hab.1⟩
      · refine hnone s1 s2 he (fun r hr ho => ?_) hG1 hG2 hA2
        have := hn r hr
        rw [visible_account.mpr ho] at this
        cases this

end PatronLoyalty.Loyalty
