import PatronLoyalty.Loyalty.ReferralSpecs
import PatronLoyalty.Txn.History

/-!
# The services refine the book

A protocol `Serves` a policy `P` when it admits every run of steps of the book under `P`; then every
request the policy allows is tame (`Request.call_tame`). For the protocol that asks for nothing else
this is the refinement:

* **`reach_steps`**: in every interleaving of allowed requests, with any failures, the store moves
  by steps of the book;
* **`reach_invariant`**: what every step keeps holds in every reachable store.
-/

namespace PatronLoyalty.Loyalty

open Txn Relation

/-! ## Policies -/

/-- The sources the services post under on their own account. -/
def InternalSource (l : LoyaltyPointLedger) : Prop :=
  l.sourceType = some "manual" ∨ l.sourceType = some "reward" ∨
    l.sourceType = some "manual_purchase" ∨ l.sourceType = some "expiry"

/-- What a policy has to let through: the services' own rows and the bonuses of referrals. -/
structure Policy (P : Db → LoyaltyPointLedger → Prop) : Prop where
  internal {s : Db} {l : LoyaltyPointLedger} : InternalSource l → P s l
  bonus {s : Db} {l : LoyaltyPointLedger} : IsBonus s l → P s l

/-- The rows a request posts under a source that its caller names. -/
def Request.Allowed (P : Db → LoyaltyPointLedger → Prop) : Request → Prop
  | .applyPoints orgId accountId _ type opts => ∀ s l, l.orgId = orgId → l.accountId = accountId →
      l.type = type → l.sourceType = opts.sourceType → l.sourceId = opts.sourceId → P s l
  | .burnPoints orgId accountId _ source => ∀ s l, l.orgId = orgId → l.accountId = accountId →
      l.type = .burn → l.sourceType = source.sourceType → l.sourceId = source.sourceId → P s l
  | .earnFromEvent orgId _ _ source => ∀ s l, l.orgId = orgId → l.type = .earn →
      l.sourceType = some source.sourceType → l.sourceId = some source.sourceId → P s l
  | .earnPoints orgId data => ∀ s l, l.orgId = orgId → l.type = .earn →
      l.sourceType = some "integration" → l.sourceId = some data.externalTxnId → P s l
  | _ => True

theorem policy_true : Policy fun _ _ => True := ⟨fun _ => trivial, fun _ => trivial⟩

theorem allowed_true (req : Request) : req.Allowed fun _ _ => True := by
  cases req <;> simp [Request.Allowed]

theorem Request.Allowed.mono {P Q : Db → LoyaltyPointLedger → Prop} (hPQ : ∀ s l, P s l → Q s l)
    {req : Request} (h : req.Allowed P) : req.Allowed Q := by
  cases req
  case applyPoints =>
    exact fun s l h1 h2 h3 h4 h5 => hPQ s l (h s l h1 h2 h3 h4 h5)
  case burnPoints =>
    exact fun s l h1 h2 h3 h4 h5 => hPQ s l (h s l h1 h2 h3 h4 h5)
  case earnFromEvent => exact fun s l h1 h2 h3 h4 => hPQ s l (h s l h1 h2 h3 h4)
  case earnPoints => exact fun s l h1 h2 h3 h4 => hPQ s l (h s l h1 h2 h3 h4)
  all_goals trivial

/-- A protocol that admits every run of steps under `P`. -/
structure Serves {α : Type} {G : Guarantee Db} (pr : Protocol Db Err Ev α G)
    (P : Db → LoyaltyPointLedger → Prop) : Prop where
  grows (a b : Db) : G.rel a b → Grows a b
  quiet : pr.Quiet
  kept (h : List (Entry Db Err Ev α)) (s : Db) : pr.cond h s → WellKept s
  steps : pr.Admits (Steps P)

/-! ## The transactions are steps -/

section

variable {P : Db → LoyaltyPointLedger → Prop} {a b : Db} {orgId : Id}

theorem Provisions.steps (h : Provisions a b) : Steps P a b :=
  ReflTransGen.mono (fun _ _ hp => Step.provision hp) _ _ h

theorem Moves.steps {accountId : Id} {points : ℤ} {type : LedgerType} {opts : PointsOpts}
    (hP : ∀ l : LoyaltyPointLedger, l.orgId = orgId → l.accountId = accountId → l.type = type →
      l.sourceType = opts.sourceType → l.sourceId = opts.sourceId → P a l)
    (h : Moves orgId accountId points type opts a b) : Steps P a b := by
  obtain ⟨t, r, r', hp⟩ := h
  exact .single (.post (hP _ rfl rfl rfl rfl rfl) hp)

theorem Redeemed.steps (hP : Policy P) {accountId rewardId : Id}
    {res : RedemptionView × ApplyPointsTxResult} (h : Redeemed orgId accountId rewardId res a b) :
    Steps P a b := by
  obtain ⟨m, r, r', reward, slug, -, -, hs, hr, -⟩ := h
  exact .single (.redeem (hP.internal (Or.inr (Or.inl hs))) hr)

theorem Fulfilled.steps {redemptionId : Id} (h : Fulfilled orgId redemptionId a b) :
    Steps P a b := by
  obtain ⟨x, today, hx, -, hr⟩ := h
  exact .single (.fulfil hx hr)

theorem Cancelled.steps (hP : Policy P) {redemptionId : Id} (h : Cancelled orgId redemptionId a b) :
    Steps P a b := by
  obtain ⟨x, m, r, r', reward, -, -, hs, hc⟩ := h
  exact .single (.cancel (hP.internal (Or.inl hs)) hc)

theorem Rewards.steps (hP : Policy P) (h : Rewards a b) : Steps P a b := by
  rcases h with rfl | ⟨m, r, r', hs, hp⟩
  · exact .refl
  · exact .single (.post (hP.internal (Or.inl hs)) hp)

theorem Bumps.step {accountId challengeId id : Id} {amount : ℤ}
    {old : Option CustomerChallengeProgress} {p : CustomerChallengeProgress}
    (h : Bumps accountId challengeId amount id old p a b) : Step P a b := .progress h.kept h.result

theorem Advances.steps (hP : Policy P) {accountId challengeId : Id} {amount targetValue : ℤ}
    (h : Advances accountId challengeId amount targetValue a b) : Steps P a b := by
  obtain ⟨id, old, p, a1, hb, rfl | ⟨today, a2, -, -, hr, hw⟩⟩ := h
  · exact .single hb.step
  · refine .head hb.step (.head (.progress (fun q hq => ?_) hr) (hw.steps hP))
    cases hq
    exact ⟨rfl, rfl⟩

theorem Plays.steps (hP : Policy P) (h : Plays a b) : Steps P a b := by
  obtain ⟨a1, hp, hr⟩ := h
  exact .head (.provision hp) (hr.steps hP)

theorem standing_steps {id : Id} {r r' : LoyaltyAccount} (hc : r'.core = r.core)
    (h : Rel.Replaced .account id (some r) r' a b) : Steps P a b := .single (.standing hc h)

end

/-! ## The services are tame -/

section

variable {α : Type} {G : Guarantee Db} {pr : Protocol Db Err Ev α G}
  {P : Db → LoyaltyPointLedger → Prop} {orgId : Id}

theorem integrationPoints_tame (hq : pr.Quiet) (account : AccountWithTier) (data : EarnRequest) :
    Tame pr (integrationPoints orgId account data) := by
  have checked : ∀ points : ℤ, Tame pr (if points ≤ 0 then
      throw (.badRequest "Could not resolve points for transaction") else pure points : LCall ℤ) := by
    intro points
    split
    · exact Tame.throw _
    · exact Tame.pure _
  unfold integrationPoints
  dsimp only
  split
  · exact checked _
  · exact Tame.bind (resolveEarnPoints_tame hq _ _) checked
  · exact checked 0

namespace Serves

variable (hs : Serves pr P)

include hs

theorem provisions : pr.Admits Provisions := hs.steps.mono fun _ _ h => h.steps

theorem refers (id : Id) (r : LoyaltyReferral) : pr.Admits (Refers id r) :=
  hs.steps.mono fun _ _ h => .single (.refer h)

theorem moves {accountId : Id} {points : ℤ} {type : LedgerType} {opts : PointsOpts}
    (hP : ∀ s l, l.orgId = orgId → l.accountId = accountId → l.type = type →
      l.sourceType = opts.sourceType → l.sourceId = opts.sourceId → P s l) :
    pr.Admits (Moves orgId accountId points type opts) :=
  hs.steps.mono fun a _ h => h.steps (hP a)

variable (hP : Policy P)

include hP

theorem advances {amount : ℤ} (accountId challengeId : Id) (targetValue : ℤ) :
    pr.Admits (Advances accountId challengeId amount targetValue) :=
  hs.steps.mono fun _ _ h => h.steps hP

theorem incrementChallenge (customerId : Id) (targetType : ChallengeTargetType) (amount : ℤ) :
    Tame pr (incrementChallengeProgress orgId customerId targetType amount) :=
  incrementChallengeProgress_tame hs.grows hs.quiet hs.provisions (hs.advances hP)

theorem completion : AdmitsCompletion pr orgId where
  bonus _ _ _ := hs.steps.mono fun _ _ ⟨hb, t, _, _, hp⟩ =>
    .single (.post (hP.bonus (hb t _)) hp)
  complete := hs.steps.mono fun _ _ ⟨_, _, _, _, h⟩ => .single (.complete h)

theorem advanceReferrals (referrer : Option LoyaltyAccount) :
    Tame pr (advanceReferrals orgId referrer) := by
  cases referrer with
  | none => exact Tame.pure _
  | some r => exact Tame.handle (hs.incrementChallenge hP _ _ _) fun _ => Tame.pure _

theorem completePending (customerId : Id) :
    Tame pr (completePendingForCustomer orgId customerId) :=
  completePending_tame hs.grows hs.quiet (hs.completion hP) hs.provisions hs.kept
    (hs.advanceReferrals hP)

theorem completeReferralOf (customerId : Id) (purchase : Bool) :
    Tame pr (completeReferralOf orgId customerId purchase) := by
  cases purchase with
  | false => exact Tame.pure _
  | true => exact Tame.bind (hs.completePending hP customerId) fun _ => Tame.pure _

theorem afterEarnActivity (customerId : Id) (pointsAwarded : ℤ) (incrementVisit : Bool) :
    Tame pr (afterEarnActivity orgId customerId pointsAwarded incrementVisit) := by
  refine Tame.handle (Tame.bind ?_ fun _ => Tame.bind ?_ fun _ => ?_) fun _ => Tame.pure _
  · cases incrementVisit with
    | false => exact Tame.pure _
    | true => exact hs.incrementChallenge hP _ _ _
  · split
    · exact hs.incrementChallenge hP _ _ _
    · exact Tame.pure _
  · exact Tame.bind (evaluateBadges_tame hs.grows hs.quiet hs.provisions _) fun _ => Tame.pure _

omit hP in
theorem ensureAccount (customerId : Id) : Tame pr (ensureAccount orgId customerId) :=
  ensureAccount_tame hs.grows hs.quiet hs.provisions customerId

omit hP in
theorem ensureAccountOrThrow (customerId : Id) : Tame pr (ensureAccountOrThrow orgId customerId) :=
  (ensureAccountOrThrow_ensures hs.grows hs.quiet hs.provisions customerId).tame

omit hP in
theorem applyPoints {accountId : Id} {points : ℤ} {type : LedgerType} {opts : PointsOpts}
    (hP : ∀ s l, l.orgId = orgId → l.accountId = accountId → l.type = type →
      l.sourceType = opts.sourceType → l.sourceId = opts.sourceId → P s l) :
    Tame pr (applyPoints orgId accountId points type opts) :=
  applyPoints_tame hs.grows hs.quiet (hs.moves hP)

theorem earnFromPurchase (customerId : Id) (purchaseAmountCents : ℤ)
    (description : Option String) :
    Tame pr (earnFromPurchase orgId customerId purchaseAmountCents description) := by
  refine Tame.bind requireEnabled_tame fun _ => ?_
  refine Tame.bind (hs.ensureAccountOrThrow customerId) fun account => ?_
  refine Tame.bind (resolveEarnPoints_tame hs.quiet _ _) fun points => ?_
  split
  · exact Tame.throw _
  refine Tame.bind Tame.input fun purchaseId => ?_
  refine Tame.bind (hs.applyPoints fun s l _ _ _ hst _ => hP.internal ?_) fun result => ?_
  · exact Or.inr (Or.inr (Or.inl hst))
  refine Tame.bind (hs.completeReferralOf hP _ _) fun _ => ?_
  exact Tame.bind (hs.afterEarnActivity hP _ _ _) fun _ => Tame.pure _

theorem earnFromEvent (customerId : Option Id) (eventType : EarnEventType) (source : EventSource)
    (ha : (Request.earnFromEvent orgId customerId eventType source).Allowed P) :
    Tame pr (earnFromEvent orgId customerId eventType source) := by
  cases customerId with
  | none => exact Tame.pure _
  | some customerId =>
    refine Tame.bind isEnabled_tame fun b => ?_
    cases b with
    | false => exact Tame.pure _
    | true =>
      refine Tame.bind (hs.ensureAccount customerId) fun account => ?_
      cases account with
      | none => exact Tame.pure _
      | some account =>
        refine Tame.bind (resolveEarnPoints_tame hs.quiet _ _) fun points => ?_
        split
        · exact Tame.pure _
        refine Tame.bind (hs.applyPoints fun s l ho _ ht hst hsid => ha s l ho ht hst hsid)
          fun result => ?_
        split
        · exact Tame.pure _
        refine Tame.bind (hs.completeReferralOf hP _ _) fun _ => ?_
        exact Tame.bind (hs.afterEarnActivity hP _ _ _) fun _ => Tame.pure _

theorem afterIntegrationEarn (customerId : Id) (points : ℤ) (incrementVisit : Bool)
    (account : AccountView) :
    Tame pr (do
      Loyalty.completeReferralOf orgId customerId incrementVisit
      Loyalty.afterEarnActivity orgId customerId points incrementVisit
      pure account : LCall AccountView) :=
  Tame.bind (hs.completeReferralOf hP _ _) fun _ =>
    Tame.bind (hs.afterEarnActivity hP _ _ _) fun _ => Tame.pure _

theorem earnPoints (data : EarnRequest) (ha : (Request.earnPoints orgId data).Allowed P) :
    Tame pr (earnPoints orgId data) := by
  refine Tame.bind requireEnabled_tame fun _ => ?_
  refine Tame.bind (Tame.readTx hs.quiet fun A s => ?_) fun duplicate => ?_
  · exact wp_findLedger did_start (fun _ _ _ _ hd _ _ _ => hd) fun _ _ _ hd _ => hd
  cases duplicate with
  | some d => exact Tame.pure _
  | none =>
    refine Tame.bind (resolveCustomerOrThrow_tame hs.quiet hs.provisions _) fun customer => ?_
    refine Tame.bind (hs.ensureAccountOrThrow _) fun account => ?_
    refine Tame.bind (integrationPoints_tame hs.quiet account data) fun points => ?_
    refine Tame.bind (Tame.bind (hs.applyPoints fun s l ho _ ht hst hsid => ha s l ho ht hst hsid)
      fun result => ?_) fun _ => Tame.pure _
    split
    · exact Tame.pure _
    · exact hs.afterIntegrationEarn hP _ _ _ _

theorem adjustPoints (customerId : Id) (points : ℤ) (description : Option String) :
    Tame pr (adjustPoints orgId customerId points description) := by
  refine Tame.bind requireEnabled_tame fun _ => ?_
  refine Tame.bind (hs.ensureAccountOrThrow customerId) fun account => ?_
  exact Tame.bind (hs.applyPoints fun s l _ _ _ hst _ => hP.internal (Or.inl hst))
    fun _ => Tame.pure _

theorem expireInactivePoints (pointsExpiryDays : ℕ) :
    Tame pr (expireInactivePoints orgId pointsExpiryDays) := by
  refine Tame.bind isEnabled_tame fun b => ?_
  cases b with
  | false => exact Tame.pure _
  | true =>
    show Tame pr (if pointsExpiryDays < 1 then _ else _)
    split
    · exact Tame.pure _
    refine Tame.bind Tame.input fun today => ?_
    refine Tame.bind (Tame.readTx hs.quiet findMany_did) fun accounts => ?_
    refine Tame.foldEach fun expired account _ => ?_
    refine Tame.bind (Tame.readTx hs.quiet fun A s => Did.wp_findFirst did_start
      fun _ _ _ _ hd => hd) fun last => ?_
    cases last with
    | none => exact Tame.pure _
    | some l =>
      dsimp only
      split
      · exact Tame.pure _
      · exact Tame.bind (hs.applyPoints fun s l _ _ _ hst _ =>
          hP.internal (Or.inr (Or.inr (Or.inr hst)))) fun _ => Tame.pure _

omit hP in
theorem handleNoShow (customerId : Option Id) (sourceType sourceId : String) :
    Tame pr (handleNoShow orgId customerId sourceType sourceId) := by
  cases customerId with
  | none => exact Tame.pure _
  | some customerId =>
    refine Tame.bind isEnabled_tame fun b => ?_
    cases b with
    | false => exact Tame.pure _
    | true =>
      refine Tame.bind (hs.ensureAccount customerId) fun account => ?_
      cases account with
      | none => exact Tame.pure _
      | some account =>
        refine Tame.bind (Tame.tx hs.steps hs.quiet fun A s => ?_) fun _ =>
          Tame.bind (Tame.fire hs.quiet _) fun _ => Tame.pure _
        refine wp_update did_start (fun r => rfl) (fun s1 ws1 r _ _ _ hd => hd.mono ?_)
          fun _ _ _ _ _ => trivial
        rintro a b ⟨n, rfl, hr⟩
        exact standing_steps (by rfl) hr

omit hP in
theorem adjusted (walletId : Id) (data : WalletAdjust) :
    pr.Admits (Adjusted orgId walletId data) :=
  hs.steps.mono fun _ _ ⟨_, _, _, _, h⟩ => .single (.adjust h)

omit hP in
theorem adjustWallet (customerId : Id) (data : WalletAdjust) :
    Tame pr (adjustWallet orgId customerId data) :=
  adjustWallet_tame hs.grows hs.quiet hs.provisions fun walletId => hs.adjusted walletId data

/-- **Every allowed request is tame.** -/
theorem call {req : Request} (ha : req.Allowed P) : Tame pr req.call := by
  have answered : ∀ {β : Type} {c : LCall β} (f : β → Answer), Tame pr c →
      Tame pr (c.bind fun b => Call.pure (f b)) :=
    fun _ hc => Tame.bind hc fun _ => Tame.pure _
  cases req with
  | ensureAccount => exact answered _ (hs.ensureAccount _)
  | upsertCustomer =>
    exact answered _ (upsertCustomer_tame hs.grows hs.quiet hs.provisions _ _)
  | applyPoints => exact answered _ (hs.applyPoints ha)
  | burnPoints =>
    exact answered _ (Tame.bind (hs.applyPoints ha) fun _ => Tame.pure _)
  | adjustPoints => exact answered _ (hs.adjustPoints hP _ _ _)
  | redeemReward =>
    exact answered _ (redeemReward_tame hs.grows hs.quiet hs.provisions fun _ =>
      hs.steps.mono fun _ _ ⟨_, h⟩ => h.steps hP)
  | fulfillRedemption =>
    exact answered _ (fulfillRedemption_tame hs.grows hs.quiet (hs.steps.mono fun _ _ h => h.steps))
  | cancelRedemption =>
    exact answered _ (cancelRedemption_tame hs.grows hs.quiet
      (hs.steps.mono fun _ _ h => h.steps hP))
  | incrementChallengeProgress =>
    exact Tame.bind (hs.incrementChallenge hP _ _ _) fun _ => Tame.pure _
  | evaluateBadges =>
    exact answered _ (evaluateBadges_tame hs.grows hs.quiet hs.provisions _)
  | playPatronGame =>
    exact answered _ (playPatronGame_tame hs.grows hs.quiet
      (hs.steps.mono fun _ _ h => h.steps hP))
  | applyReferral =>
    exact answered _ (applyReferral_tame hs.grows hs.quiet hs.provisions hs.refers)
  | joinViaPublicReferral =>
    exact answered _ (joinViaPublicReferral_tame hs.grows hs.quiet hs.provisions hs.refers)
  | completePending => exact answered _ (hs.completePending hP _)
  | earnFromPurchase => exact answered _ (hs.earnFromPurchase hP _ _ _)
  | previewEarnFromPurchase =>
    refine answered _ (Tame.bind requireEnabled_tame fun _ => ?_)
    exact Tame.bind (hs.ensureAccountOrThrow _) fun _ => resolveEarnPoints_tame hs.quiet _ _
  | earnFromEvent => exact answered _ (hs.earnFromEvent hP _ _ _ ha)
  | earnPoints => exact answered _ (hs.earnPoints hP _ ha)
  | expireInactivePoints => exact answered _ (hs.expireInactivePoints hP _)
  | handleNoShow => exact answered _ (hs.handleNoShow _ _ _)
  | getWallet => exact answered _ (getWallet_tame hs.grows hs.quiet hs.provisions)
  | adjustWallet => exact answered _ (hs.adjustWallet _ _)
  | integrationAdjustWallet =>
    exact answered _ (Tame.bind (resolveCustomerOrThrow_tame hs.quiet hs.provisions _) fun _ =>
      hs.adjustWallet _ _)

end Serves

end

/-! ## Refinement -/

section

variable (P : Db → LoyaltyPointLedger → Prop)

def bookGuarantee : Guarantee Db where
  rel := Steps P
  refl _ := .refl
  trans h h' := h.trans h'

abbrev anyStep : Guarantee Db := bookGuarantee fun _ _ => True

/-- The protocol that asks for nothing but steps of the book, from a well-kept one on. -/
def bookProtocol : Protocol Db Err Ev Answer (bookGuarantee P) where
  cond _ s := WellKept s
  keeps _ _ := True
  keeps_stable _ h := h

theorem bookProtocol_serves : Serves (bookProtocol P) P where
  grows _ _ h := Steps.grows h
  quiet := ⟨⟨fun _ _ h => h, fun _ _ _ h => h⟩, fun _ _ _ h => h⟩
  kept _ _ h := h
  steps _ _ _ _ _ h := ⟨h, trivial⟩

variable {P} {db : Db} {reqs : List Request} {c : Run}

theorem Request.safe (hP : Policy P) {req : Request} (ha : req.Allowed P) (s : Db) :
    Safe (bookProtocol P) req.call s :=
  ⟨trivial, fun s' _ _ => ⟨trivial, Call.wp_mono (fun _ _ _ _ _ _ => trivial)
    ((bookProtocol_serves P).call hP ha _ s' trivial trivial)⟩⟩

/-- **Refinement**: every run of the services is a run of the book. -/
theorem reach_steps (hP : Policy P) (hdb : WellKept db) (ha : ∀ req ∈ reqs, req.Allowed P)
    (h : Reach Always (start db reqs) c) : Steps P db c.db := by
  have hsafe : ∀ (i : ℕ) (call : LCall Answer), (reqs.map Request.call)[i]? = some call →
      Safe (bookProtocol P) call db := by
    intro i call hi
    rw [List.getElem?_map] at hi
    cases hr : reqs[i]? with
    | none => simp [hr] at hi
    | some req =>
      rw [hr] at hi
      cases hi
      exact Request.safe hP (ha req (List.mem_of_getElem? hr)) db
  exact (reach_sound hsafe (fun d i hd _ _ => hd.rel.wellKept hdb) h).rel

/-- **Invariants of the book** hold in every reachable store. -/
theorem reach_invariant (hP : Policy P) (hdb : WellKept db) (ha : ∀ req ∈ reqs, req.Allowed P)
    {F : Db → Prop} (hF : ∀ a b, Step P a b → F a → F b) (h0 : F db)
    (h : Reach Always (start db reqs) c) : F c.db :=
  (reach_steps hP hdb ha h).induct hF h0

end

/-! ## Refusals -/

/-- The request was refused with `e`. -/
def refused (e : Err) : Except Err Answer → Bool
  | .ok _ => false
  | .error e' => e' == e

theorem answer_of_refused {c : Run} {i : ℕ} {e : Err}
    (h : (c.answersOf i).any (refused e) = true) : .answer (.error e) ∈ c.histOf i := by
  obtain ⟨r, hr, he⟩ := List.any_eq_true.mp h
  cases r with
  | ok res => cases he
  | error e' =>
    rw [← eq_of_beq (show (e' == e) = true from he)]
    exact Config.mem_answersOf.mp hr

end PatronLoyalty.Loyalty
