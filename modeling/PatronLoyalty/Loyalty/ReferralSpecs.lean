import PatronLoyalty.Loyalty.Specs

/-!
# Specifications of the referral service

What each part of a referral leaves for the next: the pending row with its two accounts, both
bonuses on the ledger, then the completed row. Every bonus that is posted is one a referral row
promises (`IsBonus`).

Results: **`applyReferral_tame`** commits only a legitimate new referral;
**`completeReferral_ensures`** completes one only with its bonuses on the ledger.
-/

namespace PatronLoyalty.Loyalty

open Txn Relation

/-- A ledger row that a referral row promises: the account, the amount and the source. -/
def IsBonus (s : Db) (l : LoyaltyPointLedger) : Prop :=
  ∃ id r, s.get .referral id = some r ∧ l.orgId = r.orgId ∧ l.type = .bonus ∧
    l.sourceType = some "referral" ∧
    (l.accountId = r.referrerAccountId ∧ l.sourceId = some (advocateKey id) ∧
        l.points = r.referrerBonusPoints ∨
      HeldBy r.referredCustomerId l.accountId s ∧ l.sourceId = some (welcomeKey id) ∧
        l.points = r.referredBonusPoints)

variable {α : Type} {G : Guarantee Db} {pr : Protocol Db Err Ev α G} {orgId : Id}

section

variable (hG : ∀ a b, G.rel a b → Grows a b) (hq : pr.Quiet) (hprov : pr.Admits Provisions)

/-! ## Customers -/

include hq hprov

theorem resolveCustomer_tame (ref : CustomerRef) : Tame pr (resolveCustomer orgId ref) :=
  Tame.bind Tame.input fun _ => Tame.tx hprov hq fun _ _ => wp_resolveCustomerTx

theorem resolveCustomerOrThrow_tame (ref : CustomerRef) :
    Tame pr (resolveCustomerOrThrow orgId ref) :=
  Tame.bind (resolveCustomer_tame hq hprov ref) fun c => by
    cases c with
    | none => exact Tame.throw _
    | some c => exact Tame.pure _

theorem createCustomer_tame (data : CustomerData) : Tame pr (createCustomer orgId data) := by
  refine Tame.bind requireEnabled_tame fun _ => ?_
  refine Tame.bind (Tame.readTx hq findAny_did) fun duplicate => ?_
  cases duplicate with
  | some _ => exact Tame.throw _
  | none =>
    refine Tame.bind (Tame.tx hprov hq fun A s => ?_) fun _ =>
      Tame.bind (Tame.fire hq _) fun _ => Tame.pure _
    refine wp_create (k := .customer) did_start (fun s1 ws1 id _ _ hd => hd.mono ?_)
      fun _ _ _ => trivial
    rintro a b ⟨n, rfl, hr⟩
    exact .single (.elsewhere rfl (fun _ h => by cases h) hr)

theorem updateCustomer_tame {id : Id} {f : Customer → Customer} (hf : ∀ c, (f c).orgId = c.orgId) :
    Tame pr (withTenant (update orgId .customer id f)) :=
  Tame.tx hprov hq fun _ _ =>
    wp_updateCustomer hf did_start (fun _ _ _ hd => hd) fun _ _ => trivial

include hG

theorem upsertCustomer_tame (externalId : Option String) (data : CustomerData) :
    Tame pr (upsertCustomer orgId externalId data) := by
  have account : ∀ customerId, Tame pr (do
      let _ ← ensureAccount orgId customerId
      pure customerId : LCall Id) := fun customerId =>
    Tame.bind (ensureAccount_tame hG hq hprov customerId) fun _ => Tame.pure _
  refine Tame.bind requireEnabled_tame fun _ => ?_
  refine Tame.bind (resolveCustomer_tame hq hprov _) fun found => ?_
  cases found with
  | some c =>
    refine Tame.bind (updateCustomer_tame hq hprov fun c => ?_) fun _ => account _
    split <;> rfl
  | none =>
    refine Tame.bind (createCustomer_tame hq hprov _) fun id => ?_
    cases truthy (externalId.map trim) with
    | none => exact account id
    | some ext =>
      exact Tame.bind (updateCustomer_tame hq hprov fun _ => rfl) fun _ => account id

/-! ## Applying a referral -/

/-- **A referral is applied** between accounts of different customers. -/
theorem applyReferral_tame {referralCode : String} {referredCustomerId : Id}
    (hE : ∀ id r, pr.Admits (Refers id r)) :
    Tame pr (applyReferral orgId referralCode referredCustomerId) := by
  refine Tame.bind requireEnabled_tame fun _ => ?_
  refine Tame.bind (getOrCreateProgram_tame hq hprov) fun program => ?_
  refine Ensures.bind (M := fun (res : Option AccountView) s => ∀ v : AccountView, res = some v →
    v.2.customerId ≠ referredCustomerId → OtherAccount v.1 referredCustomerId s)
    (Ensures.readTx hq.toSilent (X := AnyErr) (F := fun (res : Option AccountView) s => ∀ v : AccountView,
      res = some v → v.2.customerId ≠ referredCustomerId → OtherAccount v.1 referredCustomerId s)
      (fun _ _ s _ _ _ => ?_) (fun _ _ _ _ _ hF => hF) fun _ _ _ _ _ _ _ _ => trivial)
    fun referrer => ?_
  · refine wp_findFirst did_start (fun s1 id r _ _ hd hr _ _ => ?_) (fun s1 _ _ hd _ => ?_)
    · by_cases hc : r.customerId = referredCustomerId
      · exact hd.mono fun a b hab => ⟨hab.symm, fun v hv hne => by cases hv; exact absurd hc hne⟩
      · refine (hd.note (otherAccount_keeps hG id _) ⟨r, hr, hc⟩).mono fun a b hab =>
          ⟨hab.2.symm, fun v hv _ => ?_⟩
        cases hv
        exact hab.1
    · exact hd.mono fun a b hab => ⟨hab.symm, fun v hv => by cases hv⟩
  · cases referrer with
    | none => exact Ensures.throw fun _ _ => trivial
    | some referrer =>
      dsimp only
      split
      · exact Ensures.throw fun _ _ => trivial
      rename_i hne
      -- the referrer's account is known, the referred one is looked up or created
      have hother := otherAccount_keeps hG referrer.1 referredCustomerId
      refine Ensures.bind (M := fun (account : Option AccountWithTier) s =>
          OtherAccount referrer.1 referredCustomerId s ∧
          ∀ a, account = some a → AccountOf orgId referredCustomerId a.id s)
        (((ensureAccount_ensures hG hq hprov referredCustomerId).frame hother).mono
          (fun s hs => ⟨hs referrer rfl hne, trivial⟩) fun r s hr => ?_) fun account => ?_
      · cases r with
        | ok _ => exact hr
        | error _ => trivial
      · cases account with
        | none => exact Ensures.throw fun _ _ => trivial
        | some account =>
          let F : Db → Prop := fun s => OtherAccount referrer.1 referredCustomerId s ∧
            HeldBy referredCustomerId account.id s
          have hF : G.Keeps F := fun a b hab h =>
            ⟨hother a b hab h.1, heldBy_keeps hG _ _ a b hab h.2⟩
          refine Ensures.mono (P := F) ?_ (fun s hs => ⟨hs.1, (hs.2 account rfl).heldBy⟩)
            fun _ _ h => h
          refine Ensures.after (Tame.readTx hq findAny_did) hF (fun existing => ?_)
            fun _ _ _ => trivial
          cases existing with
          | some e =>
            dsimp only
            split
            · exact Ensures.throw fun _ _ => trivial
            · exact Ensures.throw fun _ _ => trivial
          | none =>
            refine Ensures.bind (M := fun _ _ => True) ?_ fun _ => Ensures.pure fun _ _ => trivial
            refine Ensures.commit (F := fun _ _ _ => True)
              (E := fun a b => ∃ id r, Refers id r a b) hF ?_ hq.toSilent
              (fun A s hs => Tx.wp_mono (fun id _ _ hd => hd.mono fun _ _ h => ⟨⟨id, _, h⟩, trivial⟩)
                (fun _ _ _ => trivial) (wp_createReferral hG rfl rfl hs.1 hs.2))
              (fun _ _ _ _ _ _ => trivial) fun _ _ _ => trivial
            rintro h s s' hc hk ⟨-, id, r, hr⟩
            exact hE id r h s s' hc hk hr

end

/-! ## Completing a referral -/

def bonusOpts (sourceId description : String) : PointsOpts :=
  { sourceType := "referral", sourceId, description }

theorem bonusSource {sourceId : String} (h : sourceId ≠ "") (description : String) :
    earnSource .bonus (bonusOpts sourceId description) = some ("referral", sourceId) := by
  unfold earnSource bonusOpts
  rw [if_pos (by decide), truthy_some h, truthy_some (by decide)]

theorem advocateKey_ne (id : Id) : advocateKey id ≠ "" := by
  intro h
  have := congrArg String.length h
  simp [advocateKey, String.length_append] at this

theorem welcomeKey_ne (id : Id) : welcomeKey id ≠ "" := by
  intro h
  have := congrArg String.length h
  simp [welcomeKey, String.length_append] at this

/-- The pending referral a completion has read. -/
structure Found (orgId customerId : Id) (v : ReferralView) (s : Db) : Prop where
  row : ReferralIs v.1 v.2 s
  org : v.2.orgId = orgId
  customer : v.2.referredCustomerId = customerId
  account : ∀ x, v.2.referredAccountId = some x → HeldBy customerId x s

section

variable (hG : ∀ a b, G.rel a b → Grows a b) (hq : pr.Quiet) {customerId x : Id} {v : ReferralView}

include hG

theorem found_keeps (customerId : Id) (v : ReferralView) : G.Keeps (Found orgId customerId v) :=
  fun a b hab h => ⟨referralIs_keeps hG _ _ a b hab h.row, h.org, h.customer,
    fun x hx => heldBy_keeps hG _ _ a b hab (h.account x hx)⟩

theorem wp_findPendingReferral {A : Db → Prop} (hA : ∀ s, A s → WellKept s)
    {X : ReferralView → Prop} (hX : ∀ s id r, A s → s.get .referral id = some r →
      r.status = .pending → X (id, r)) {s : Db} :
    Tx.wp G A (fun res => Did G fun a b => b = a ∧ ∀ v : ReferralView × Option LoyaltyAccount,
      res = some v → X v.1 ∧ Found orgId customerId v.1 a ∧ ∀ q, v.2 = some q →
        HeldBy q.customerId v.1.2.referrerAccountId a) AnyErr
      (findPendingReferral orgId customerId) [] s := by
  rw [findPendingReferral, Tx.wp_do]
  refine wp_findFirst did_start (fun s1 id r _ hA1 hd1 hr hv hp => ?_) (fun s1 _ _ hd1 _ => ?_)
  · simp only [Bool.and_eq_true, beq_iff_eq] at hp
    have hx : X (id, r) := hX s1 id r hA1 hr hp.2
    have hfound : Found orgId customerId (id, r) s1 :=
      ⟨⟨r, hr, Evolves.refl _ _⟩, by simpa [visible, tenantPolicy, orgOf] using hv, hp.1,
        fun x hx => hp.1 ▸ (hA s1 hA1).referred hr hx⟩
    have hd := hd1.note (found_keeps hG customerId (id, r)) hfound
    dsimp only
    rw [Tx.wp_do]
    refine wp_findById hd (fun s2 q _ _ hd2 hq _ => ?_) (fun s2 _ _ hd2 _ => ?_)
    · rw [Tx.pure_eq, Tx.wp_pure]
      refine (hd2.note (heldBy_keeps hG q.customerId r.referrerAccountId) ⟨q, hq, rfl⟩).mono ?_
      intro a b hab
      refine ⟨hab.2.2.symm, fun v hv => ?_⟩
      cases hv
      exact ⟨hx, hab.2.1, fun q' hq' => by cases hq'; exact hab.1⟩
    · rw [Tx.pure_eq, Tx.wp_pure]
      refine hd2.mono fun a b hab => ⟨hab.2.symm, fun v hv => ?_⟩
      cases hv
      exact ⟨hx, hab.1, fun q' hq' => by cases hq'⟩
  · dsimp only
    rw [Tx.pure_eq, Tx.wp_pure]
    exact hd1.mono fun a b hab => ⟨hab.symm, fun v hv => by cases hv⟩

include hq

theorem payBonus_ensures {accountId : Id} {points : ℤ} {sourceId description : String}
    {F : Db → Prop} (hF : G.Keeps F) (hs : sourceId ≠ "")
    (hE : pr.Admits fun a b => F a ∧ Moves orgId accountId points .bonus
      (bonusOpts sourceId description) a b) :
    Ensures pr F (payBonus orgId accountId points sourceId description)
      (onResult (fun _ s => F s ∧ (0 < points → Credited orgId accountId sourceId s))
        fun _ => F) := by
  have hsrc := bonusSource hs description
  unfold payBonus
  split
  · refine Ensures.bind (applyPoints_ensures hG hq hF hE) fun _ => Ensures.pure fun s hs => ?_
    refine ⟨hs.1, fun _ => ?_⟩
    obtain ⟨st, sid, h1, l, hl, ho, ha, ht, hst, hsid⟩ := hs.2 (hsrc ▸ rfl)
    cases hsrc.symm.trans h1
    exact ⟨l, hl, ho, ha, ht, hst, hsid⟩
  · rename_i hpos
    exact Ensures.pure fun s hs => ⟨hs, fun h => absurd h hpos⟩

theorem referredAccount_ensures (hprov : pr.Admits Provisions) :
    Ensures pr (Found orgId customerId v) (referredAccount orgId v.2)
      (onResult (fun x s => Found orgId customerId v s ∧ ∀ y, x = some y → HeldBy customerId y s)
        fun _ _ => True) := by
  unfold referredAccount
  cases hx : v.2.referredAccountId with
  | some x => exact Ensures.pure fun s hs => ⟨hs, fun y hy => by cases hy; exact hs.account x hx⟩
  | none =>
    refine Ensures.bind (M := fun account s => (Found orgId customerId v s ∧
        ∀ a, account = some a → AccountOf orgId v.2.referredCustomerId a.id s))
      (((ensureAccount_ensures hG hq hprov v.2.referredCustomerId).frame
        (found_keeps hG customerId v)).mono (fun s hs => ⟨hs, trivial⟩) fun r s hr => ?_)
      fun account => Ensures.pure fun s hs => ⟨hs.1, fun y hy => ?_⟩
    · cases r with
      | ok _ => exact hr
      | error _ => trivial
    · cases account with
      | none => cases hy
      | some a =>
        cases hy
        rw [← hs.1.customer]
        exact (hs.2 a rfl).heldBy

/-- What a completion may commit: its two bonuses, and the row once they are there. -/
structure AdmitsCompletion (pr : Protocol Db Err Ev α G) (orgId : Id) : Prop where
  bonus (accountId : Id) (points : ℤ) (opts : PointsOpts) : pr.Admits fun a b =>
    (∀ t r, IsBonus a ((⟨orgId, accountId, points, .bonus, opts, t⟩ : Movement).row r)) ∧
      Moves orgId accountId points .bonus opts a b
  complete : pr.Admits fun a b => ∃ id r x today, Completes id r x today a b

def payBonuses (orgId : Id) (v : ReferralView) (referredAccountId : Id) : LCall Unit :=
  (payBonus orgId v.2.referrerAccountId v.2.referrerBonusPoints (advocateKey v.1)
    "Referral bonus (advocate)").bind fun _ =>
      payBonus orgId referredAccountId v.2.referredBonusPoints (welcomeKey v.1)
        "Welcome referral bonus"

omit hG hq in
theorem completeReferral_eq (v : ReferralView) (referrer : Option LoyaltyAccount) (x : Id) :
    completeReferral orgId v referrer x = (payBonuses orgId v x).bind fun _ =>
      (advanceReferrals orgId referrer).bind fun _ => withTenant (completeTx orgId v.1 x) := by
  unfold payBonuses
  rw [Call.bind_assoc]
  rfl

/-- **The bonuses of a completion.** -/
theorem payBonuses_ensures (hE : AdmitsCompletion pr orgId) :
    Ensures pr (fun s => Found orgId customerId v s ∧ HeldBy customerId x s)
      (payBonuses orgId v x)
      (onResult (fun _ => ReadyToComplete orgId v.1 v.2 x) fun _ _ => True) := by
  let F : Db → Prop := fun s => Found orgId customerId v s ∧ HeldBy customerId x s
  have hF : G.Keeps F := fun a b hab h =>
    ⟨found_keeps hG customerId v a b hab h.1, heldBy_keeps hG _ _ a b hab h.2⟩
  let F1 : Db → Prop := fun s => F s ∧ (0 < v.2.referrerBonusPoints →
    Credited orgId v.2.referrerAccountId (advocateKey v.1) s)
  have hF1 : G.Keeps F1 := fun a b hab h =>
    ⟨hF a b hab h.1, fun hp => credited_keeps hG _ _ _ a b hab (h.2 hp)⟩
  refine Ensures.bind (M := fun _ => F1) ((payBonus_ensures hG hq hF (advocateKey_ne v.1)
    ((hE.bonus v.2.referrerAccountId v.2.referrerBonusPoints
      (bonusOpts (advocateKey v.1) "Referral bonus (advocate)")).mono ?_)).post fun r s hr => ?_)
    fun _ => ?_
  · rintro a b ⟨hf, hm⟩
    obtain ⟨r, hr, he⟩ := hf.1.row
    refine ⟨fun t bal => ⟨v.1, r, hr, ?_, rfl, rfl, Or.inl ⟨he.2.1.symm, rfl, he.2.2.2.1.symm⟩⟩, hm⟩
    exact (he.1.trans hf.1.org).symm
  · cases r with
    | ok _ => exact hr
    | error _ => trivial
  refine (payBonus_ensures hG hq hF1 (welcomeKey_ne v.1) ((hE.bonus x v.2.referredBonusPoints
      (bonusOpts (welcomeKey v.1) "Welcome referral bonus")).mono ?_)).post fun r s hr => ?_
  · rintro a b ⟨⟨hf, -⟩, hm⟩
    obtain ⟨r, hr, he⟩ := hf.1.row
    refine ⟨fun t bal => ⟨v.1, r, hr, (he.1.trans hf.1.org).symm, rfl, rfl,
      Or.inr ⟨?_, rfl, he.2.2.2.2.1.symm⟩⟩, hm⟩
    rw [he.2.2.1, hf.1.customer]
    exact hf.2
  · cases r with
    | ok _ => exact ⟨hr.1.1.1.row, hr.1.1.1.org, hr.1.1.1.customer ▸ hr.1.1.2, hr.1.2, hr.2⟩
    | error _ => trivial

/-- **The status of a completion**, once both bonuses are there. -/
theorem completeTx_ensures (hE : pr.Admits fun a b => ∃ id r x today, Completes id r x today a b)
    (hkept : ∀ h s, pr.cond h s → WellKept s) :
    Ensures pr (ReadyToComplete orgId v.1 v.2 x) (withTenant (completeTx orgId v.1 x))
      (onResult (fun _ _ => True) fun _ _ => True) := by
  have hready : G.Keeps (ReadyToComplete orgId v.1 v.2 x) := readyToComplete_keeps hG _ _ _
  refine Ensures.commit (F := fun _ _ _ => True)
    (E := fun a b => WellKept a → ∃ r today, Completes v.1 r x today a b) hready ?_ hq.toSilent
    (fun A s hs => Tx.wp_mono (fun _ _ _ hd => hd.mono fun _ _ h => ⟨h, trivial⟩)
      (fun _ _ _ => trivial) (wp_completeTx hG hs)) (fun _ _ _ _ _ _ => trivial) fun _ _ _ => trivial
  rintro h s s' hc hk ⟨-, he⟩
  obtain ⟨r, today, hr⟩ := he (hkept h s hc)
  exact hE h s s' hc hk ⟨v.1, r, x, today, hr⟩

/-- **A completion** pays both bonuses before it completes the row. -/
theorem completeReferral_ensures (hE : AdmitsCompletion pr orgId)
    (hkept : ∀ h s, pr.cond h s → WellKept s) {referrer : Option LoyaltyAccount}
    (hadv : Tame pr (advanceReferrals orgId referrer)) :
    Ensures pr (fun s => Found orgId customerId v s ∧ HeldBy customerId x s)
      (completeReferral orgId v referrer x) (onResult (fun _ _ => True) fun _ _ => True) := by
  rw [completeReferral_eq]
  refine Ensures.bind (payBonuses_ensures hG hq hE) fun _ => ?_
  exact Ensures.after hadv (readyToComplete_keeps hG _ _ _)
    (fun _ => completeTx_ensures hG hq hE.complete hkept) fun _ _ _ => trivial

/-- **A purchase completes** the pending referral of its customer, if there is one. -/
theorem completePending_tame (hE : AdmitsCompletion pr orgId) (hprov : pr.Admits Provisions)
    (hkept : ∀ h s, pr.cond h s → WellKept s)
    (hadv : ∀ referrer, Tame pr (advanceReferrals orgId referrer)) :
    Tame pr (completePendingForCustomer orgId customerId) := by
  refine Tame.bind isEnabled_tame fun b => ?_
  cases b with
  | false => exact Tame.pure _
  | true =>
    refine Ensures.bind (M := fun res s => ∀ v : ReferralView × Option LoyaltyAccount,
        res = some v → Found orgId customerId v.1 s)
      (Ensures.readTx hq.toSilent (X := AnyErr) (F := fun res s => ∀ v : ReferralView × Option LoyaltyAccount,
        res = some v → Found orgId customerId v.1 s) (fun h _ s _ _ _ => ?_)
        (fun _ _ _ _ _ hF => hF) fun _ _ _ _ _ _ _ _ => trivial) fun found => ?_
    · exact Tx.wp_mono (fun res _ _ hd => hd.mono fun a b hab => ⟨hab.1, fun v hv =>
        (hab.2 v hv).2.1⟩) (fun _ _ h => h)
        (wp_findPendingReferral (X := fun _ => True) hG (hkept h) fun _ _ _ _ _ _ => trivial)
    · cases found with
      | none => exact Ensures.pure fun _ _ => trivial
      | some v =>
        obtain ⟨pending, referrer⟩ := v
        refine Ensures.bind ((referredAccount_ensures hG hq hprov).mono
          (fun s hs => hs _ rfl) fun r s hr => hr) fun x => ?_
        cases x with
        | none => exact Ensures.pure fun _ _ => trivial
        | some x =>
          refine Ensures.bind (M := fun _ _ => True)
            ((completeReferral_ensures hG hq hE hkept (hadv referrer)).mono
              (fun s hs => ⟨hs.1, hs.2 x rfl⟩) fun r s hr => hr)
            fun _ => Ensures.pure fun _ _ => trivial

/-! ## The public page -/

omit hG in
theorem getPublicReferralLanding_tame (referralCode : String) :
    Tame pr (getPublicReferralLanding referralCode) := by
  refine Tame.bind (Tame.readTx hq fun A s => ?_) fun referrer => ?_
  · rw [Tx.wp_do, findReferrer]
    refine Did.wp_findFirst did_start fun s1 n _ _ hd => ?_
    split
    · exact hd
    · rw [Tx.wp_do]
      exact Did.wp_read hd fun _ _ _ hd => hd
  · cases referrer with
    | none => exact Tame.pure _
    | some r =>
      exact Tame.bind isEnabled_tame fun b => by cases b <;> exact Tame.pure _

theorem joinViaPublicReferral_tame {referralCode : String} {data : CustomerData}
    (hprov : pr.Admits Provisions) (hE : ∀ id r, pr.Admits (Refers id r)) :
    Tame pr (joinViaPublicReferral referralCode data) := by
  refine Tame.bind (getPublicReferralLanding_tame hq referralCode) fun landing => ?_
  cases landing with
  | none => exact Tame.throw _
  | some bonus =>
    refine Tame.bind (Tame.readTx hq fun A s => ?_) fun referrer => ?_
    · exact Did.wp_findFirst did_start fun _ _ _ _ hd => hd
    cases referrer with
    | none => exact Tame.throw _
    | some referrer =>
      refine Tame.bind (upsertCustomer_tame hG hq hprov _ _) fun customerId => ?_
      split
      · exact Tame.throw _
      refine Tame.bind (Tame.readTx hq findAny_did) fun existing => ?_
      cases existing with
      | some e => exact Tame.bind (Tame.readTx hq findAny_did) fun _ => Tame.pure _
      | none =>
        exact Tame.bind (applyReferral_tame hG hq hprov hE) fun _ =>
          Tame.bind (Tame.readTx hq findAny_did) fun _ => Tame.pure _

end

end PatronLoyalty.Loyalty
