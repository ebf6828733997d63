import PatronLoyalty.Loyalty.Transactions

/-!
# Specifications of the services

For every service call, and any protocol that admits what its transactions do, a proof that the call
is tame. Where the answer means something in the store, a triple says what:
`ensureAccount_ensures`, the account is the customer's; `applyPoints_ensures`, an earn with a source
is on the ledger; `completeReferral_ensures`, both bonuses are.
-/

namespace PatronLoyalty.Loyalty

open Txn Relation

/-- The movements of one set of arguments. -/
def Moves (orgId accountId : Id) (points : ℤ) (type : LedgerType) (opts : PointsOpts)
    (a b : Db) : Prop :=
  ∃ t r r', Posts ⟨orgId, accountId, points, type, opts, t⟩ r r' a b

variable {α : Type} {G : Guarantee Db} {pr : Protocol Db Err Ev α G} {orgId : Id} {k : Kind}

variable {p : Id → Row k → Bool}

theorem findAny_did (A : Db → Prop) (s : Db) :
    Tx.wp G A (fun _ => Did G Eq) (fun _ _ => True) (findFirst orgId k p) [] s :=
  wp_findAny did_start fun _ _ _ _ hd => hd

theorem findFirstOrThrow_did (A : Db → Prop) (s : Db) :
    Tx.wp G A (fun _ => Did G Eq) (fun _ _ => True) (findFirstOrThrow orgId k p) [] s :=
  wp_findFirstOrThrow did_start (fun _ _ _ _ _ hd _ _ _ => hd) fun _ _ _ => trivial

theorem findMany_did (A : Db → Prop) (s : Db) :
    Tx.wp G A (fun _ => Did G Eq) (fun _ _ => True) (findMany orgId k p) [] s :=
  wp_findMany did_start fun _ _ _ hd => hd

/-! ## The gate, the program, earn rules -/

theorem isEnabled_tame : Tame pr (isEnabled orgId) :=
  Tame.bind Tame.input fun _ => Tame.pure _

theorem requireEnabled_tame : Tame pr (requireEnabled orgId) :=
  Tame.bind isEnabled_tame fun b => by
    cases b with
    | true => exact Tame.pure _
    | false => exact Tame.throw _

theorem generateReferralCode_tame (n : ℕ) : Tame pr (generateReferralCode n) := by
  induction n with
  | zero => exact Tame.pure _
  | succ n ih => exact Tame.bind Tame.input fun _ => Tame.bind ih fun _ => Tame.pure _

/-- `ensureAccount` past the gate. -/
def openAccount (orgId customerId : Id) : LCall (Option AccountWithTier) := do
  let _ ← getOrCreateProgram orgId
  let referralCode ← generateUniqueReferralCode orgId 8
  let account ←
    try
      withTenant (upsertAccount orgId customerId referralCode)
    catch err =>
      if err == .uniqueViolation then withTenant (findAccountOrThrow orgId customerId)
      else throw err
  pure (some account)

theorem ensureAccount_eq (customerId : Id) : ensureAccount orgId customerId =
    Call.bind (isEnabled orgId) fun on =>
      if on then openAccount orgId customerId else pure none := rfl

section

variable (hq : pr.Quiet)

include hq

theorem generateUniqueReferralCode_tame (n : ℕ) :
    Tame pr (generateUniqueReferralCode orgId n) := by
  induction n with
  | zero => exact Tame.bind (generateReferralCode_tame 12) fun _ => Tame.pure _
  | succ n ih =>
    refine Tame.bind (generateReferralCode_tame 8) fun code => ?_
    refine Tame.bind (Tame.readTx hq findAny_did) fun taken => ?_
    cases taken with
    | none => exact Tame.pure _
    | some _ => exact ih

theorem ruleMatchesConditions_tame (c : RuleConditions) (ctx : EarnContext) :
    Tame pr (ruleMatchesConditions orgId c ctx) := by
  unfold ruleMatchesConditions
  split
  · exact Tame.pure _
  · split
    · split
      · exact Tame.pure _
      · split
        · exact Tame.pure _
        · refine Tame.bind (Tame.readTx hq fun A s => ?_) fun _ => Tame.pure _
          rw [Tx.wp_do]
          intro today
          exact Did.wp_read did_start fun _ _ _ hd => hd
    · exact Tame.pure _

theorem firstAward_tame (eventType : EarnEventType) (ctx : EarnContext)
    (rules : List LoyaltyEarnRule) : Tame pr (firstAward orgId eventType ctx rules) := by
  induction rules with
  | nil => exact Tame.pure _
  | cons rule rules ih =>
    refine Tame.bind (ruleMatchesConditions_tame hq _ _) fun b => ?_
    cases b with
    | false => exact ih
    | true =>
      rw [if_pos rfl]
      split
      · exact Tame.pure _
      · exact ih

theorem resolveEarnPoints_tame (eventType : EarnEventType) (ctx : EarnContext) :
    Tame pr (resolveEarnPoints orgId eventType ctx) := by
  refine Tame.bind isEnabled_tame fun b => ?_
  cases b with
  | false => exact Tame.pure _
  | true =>
    refine Tame.bind (Tame.readTx hq fun A s => ?_) fun found => ?_
    · rw [Tx.wp_do]
      refine wp_findAny did_start fun s1 x _ _ hd => ?_
      cases x with
      | none => exact hd
      | some p =>
        dsimp only
        rw [Tx.wp_do]
        exact Did.wp_read hd fun _ _ _ hd => hd
    · cases found with
      | none => exact Tame.pure _
      | some found =>
        obtain ⟨program, rules⟩ := found
        dsimp only
        split
        · exact Tame.bind (firstAward_tame hq _ _ _) fun _ => Tame.pure _
        · exact Tame.pure _

end

/-! ## Accounts -/

section

variable (hG : ∀ a b, G.rel a b → Grows a b) (hq : pr.Quiet) (hprov : pr.Admits Provisions)

include hq hprov

theorem getOrCreateProgram_tame : Tame pr (getOrCreateProgram orgId) :=
  Tame.bind requireEnabled_tame fun _ => Tame.tx hprov hq fun _ _ => wp_programTx

include hG

theorem openAccount_ensures (customerId : Id) :
    Ensures pr (fun _ => True) (openAccount orgId customerId)
      (onResult (fun r s => ∃ a, r = some a ∧ AccountOf orgId customerId a.id s)
        fun _ _ => True) := by
  refine Ensures.after (F := fun _ => True) (getOrCreateProgram_tame hq hprov)
    (fun _ _ _ _ => trivial) (fun _ => ?_) fun _ _ _ => trivial
  refine Ensures.after (F := fun _ => True) (generateUniqueReferralCode_tame hq 8)
    (fun _ _ _ _ => trivial) (fun code => ?_) fun _ _ _ => trivial
  refine Ensures.bind (M := fun a => AccountOf orgId customerId a.id) ?_
    fun a => Ensures.pure fun s hs => ⟨a, rfl, hs⟩
  refine Ensures.handle (B := fun _ _ => True) ?_ fun err => ?_
  · refine Ensures.tx hprov hq.toSilent (F := fun res _ b => AccountOf orgId customerId res.id b)
      (X := AnyErr) (fun _ _ s' _ _ _ => wp_upsertAccount hG) (fun b s a c _ _ _ h => h)
      fun _ _ _ _ _ _ _ _ => trivial
  · split
    · exact Ensures.readTx hq.toSilent (F := fun res a => AccountOf orgId customerId res.id a)
        (X := AnyErr) (fun _ _ s' _ _ _ => wp_findAccountOrThrow hG) (fun b s a _ _ h => h)
        fun _ _ _ _ _ _ _ _ => trivial
    · exact Ensures.throw fun _ _ => trivial

/-- **The account of a customer.** -/
theorem ensureAccount_ensures (customerId : Id) :
    Ensures pr (fun _ => True) (ensureAccount orgId customerId)
      (onResult (fun r s => ∀ a, r = some a → AccountOf orgId customerId a.id s)
        fun _ _ => True) := by
  rw [ensureAccount_eq]
  refine Ensures.bind (M := fun _ _ => True) (isEnabled_tame.post fun r _ _ => by
    cases r <;> trivial) fun b => ?_
  cases b with
  | false => exact Ensures.pure fun _ _ a ha => by cases ha
  | true =>
    refine (openAccount_ensures hG hq hprov customerId).post fun r s hr => ?_
    cases r with
    | error e => trivial
    | ok r =>
      obtain ⟨a, rfl, ha⟩ := hr
      intro a' he
      cases he
      exact ha

theorem ensureAccount_tame (customerId : Id) : Tame pr (ensureAccount orgId customerId) :=
  (ensureAccount_ensures hG hq hprov customerId).tame

theorem ensureAccountOrThrow_ensures (customerId : Id) :
    Ensures pr (fun _ => True) (ensureAccountOrThrow orgId customerId)
      (onResult (fun a => AccountOf orgId customerId a.id) fun _ _ => True) := by
  refine Ensures.bind (ensureAccount_ensures hG hq hprov customerId) fun r => ?_
  cases r with
  | none => exact Ensures.throw fun _ _ => trivial
  | some a => exact Ensures.pure fun s hs => hs a rfl

theorem getAccountByCustomerId_ensures (customerId : Id) :
    Ensures pr (fun _ => True) (getAccountByCustomerId orgId customerId)
      (onResult (fun a => AccountOf orgId customerId a.id) fun _ _ => True) :=
  Ensures.after (F := fun _ => True) requireEnabled_tame (fun _ _ _ _ => trivial)
    (fun _ => ensureAccountOrThrow_ensures hG hq hprov customerId) fun _ _ _ => trivial

end

/-! ## Points -/

/-- A movement puts its ledger row under its source. -/
theorem Posts.earnedBefore {m : Movement} {r r' : LoyaltyAccount} {a b : Db} (h : Posts m r r' a b)
    {sourceType sourceId : String} (hs : earnSource m.type m.opts = some (sourceType, sourceId)) :
    EarnedBefore m.orgId m.accountId m.type m.opts b := by
  refine ⟨sourceType, sourceId, hs, m.row (m.move r).pointsBalance, ?_, rfl, rfl, rfl, ?_⟩
  · rw [h.log]
    exact List.mem_append_right _ (List.mem_singleton.mpr rfl)
  · exact earnSource_eq_some hs

section

variable (hG : ∀ a b, G.rel a b → Grows a b) (hq : pr.Quiet) {accountId : Id} {type : LedgerType}
  {opts : PointsOpts}

include hG hq

theorem loadIdempotentEarnResult_ensures {sourceType sourceId : String}
    (hs : earnSource type opts = some (sourceType, sourceId)) :
    Ensures pr (fun _ => True) (loadIdempotentEarnResult orgId accountId type sourceType sourceId)
      (onResult (fun _ => EarnedBefore orgId accountId type opts) fun _ _ => True) := by
  refine Ensures.readTx hq.toSilent (F := fun _ => EarnedBefore orgId accountId type opts) (X := AnyErr)
    (fun _ _ s' _ _ _ => ?_) (fun b s a _ _ h => h) fun _ _ _ _ _ _ _ _ => trivial
  rw [Tx.wp_do]
  refine wp_findExistingEarnLedger hs (did_start (s := s')) (fun s1 l _ _ hd he => ?_)
    (fun _ _ _ _ _ => trivial)
  dsimp only
  rw [Tx.wp_do]
  refine wp_findByIdOrThrow (hd.note (earnedBefore_keeps hG type opts) he)
    (fun s2 q _ _ hd2 _ _ => ?_) (fun _ _ _ _ _ => trivial)
  rw [Tx.pure_eq, Tx.wp_pure]
  exact hd2.mono fun a b hab => ⟨hab.2.symm, hab.1⟩

/-- **Applying points**, while `F` holds. Whatever the call answers, an earn with a source is then
on the ledger. -/
theorem applyPoints_ensures {points : ℤ} {F : Db → Prop} (hF : G.Keeps F)
    (hE : pr.Admits fun a b => F a ∧ Moves orgId accountId points type opts a b) :
    Ensures pr F (applyPoints orgId accountId points type opts)
      (onResult (fun _ s => F s ∧ ((earnSource type opts).isSome →
        EarnedBefore orgId accountId type opts s)) fun _ => F) := by
  have hkeep : G.Keeps fun s => F s ∧ ((earnSource type opts).isSome →
      EarnedBefore orgId accountId type opts s) := fun a b hab h =>
    ⟨hF a b hab h.1, fun hs => earnedBefore_keeps hG type opts a b hab (h.2 hs)⟩
  have hw : ∀ (A : Db → Prop) (s : Db),
      Tx.wp G A (fun res => Did G (Applied orgId accountId points type opts res)) AnyErr
        (applyPointsInTransaction orgId accountId points type opts) [] s := fun A s =>
    wp_applyPointsInTransaction hG (fun _ _ => trivial) (fun _ _ _ _ _ _ _ => trivial)
      (fun _ _ _ _ _ _ _ => trivial) fun _ _ _ _ _ _ _ _ => trivial
  refine Ensures.handle (B := fun _ => F) ?_ fun err => ?_
  · refine Ensures.bind (M := fun _ s => F s ∧ ((earnSource type opts).isSome →
      EarnedBefore orgId accountId type opts s)) ?_ fun res => ?_
    · refine Ensures.commit (E := fun a b => b = a ∨ Moves orgId accountId points type opts a b)
        (F := Applied orgId accountId points type opts) hF
        ((hE.orRead hq.toSilent).mono fun a b h => h.2.imp id fun hm => ⟨h.1, hm⟩) hq.toSilent
        (fun A s _ => Tx.wp_mono (fun res ws s1 hd => hd.mono ?_) (fun _ _ _ => trivial)
          (hw A s))
        (fun res a b _ hb hA => ⟨hb, fun hs => ?_⟩) fun _ _ hs => hs
      · rcases hA with ⟨-, t, r, r', slug, -, hp⟩ | ⟨-, rfl, he⟩
        · obtain ⟨src, hsrc⟩ := Option.isSome_iff_exists.mp hs
          exact hp.earnedBefore hsrc
        · exact he
      · rintro a b h
        refine ⟨?_, h⟩
        rcases h with ⟨-, t, r, r', slug, -, hp⟩ | ⟨-, hb, -⟩
        · exact Or.inr ⟨t, r, r', hp⟩
        · exact Or.inl hb
    · split
      · exact Ensures.pure fun s hs => hs
      · exact Ensures.after (Tame.fireAll hq _) hkeep (fun _ => Ensures.pure fun s hs => hs)
          fun _ _ hs => hs.1
  · split
    · rename_i hdup
      unfold isDuplicateEarnError at hdup
      obtain ⟨src, hsrc⟩ := Option.isSome_iff_exists.mp (Bool.and_eq_true_iff.mp hdup).2
      obtain ⟨sourceType, sourceId⟩ := src
      obtain ⟨h1, h2⟩ := earnSource_eq_some hsrc
      rw [h1, h2]
      refine ((loadIdempotentEarnResult_ensures hG hq hsrc).frame hF).mono
        (fun s hs => ⟨hs, trivial⟩) fun r s hr => ?_
      cases r with
      | ok _ => exact ⟨hr.1, fun _ => hr.2⟩
      | error _ => exact hr.1
    · exact Ensures.throw fun _ hs => hs

theorem applyPoints_tame {points : ℤ} (hE : pr.Admits (Moves orgId accountId points type opts)) :
    Tame pr (applyPoints orgId accountId points type opts) :=
  ((applyPoints_ensures (F := fun _ => True) hG hq (fun _ _ _ _ => trivial)
    (hE.mono fun _ _ h => h.2)).post fun _ _ _ => trivial)

end

/-! ## The catalog -/

section

variable (hG : ∀ a b, G.rel a b → Grows a b) (hq : pr.Quiet) (hprov : pr.Admits Provisions)
  {customerId : Id}

include hG hq

theorem fulfillRedemption_tame {redemptionId : Id}
    (hE : pr.Admits (Fulfilled orgId redemptionId)) :
    Tame pr (fulfillRedemption orgId redemptionId) :=
  Tame.bind requireEnabled_tame fun _ => Tame.tx hE hq fun _ _ =>
    Tx.wp_mono (fun _ _ _ hd => hd.mono fun _ _ h => h.1) (fun _ _ _ => trivial)
      (wp_fulfillTx hG)

theorem cancelRedemption_tame {redemptionId : Id}
    (hE : pr.Admits (Cancelled orgId redemptionId)) :
    Tame pr (cancelRedemption orgId redemptionId) :=
  Tame.bind requireEnabled_tame fun _ => Tame.tx hE hq fun _ _ => wp_cancelTx hG

include hprov

theorem redeemReward_tame {rewardId : Id}
    (hE : ∀ accountId, pr.Admits fun a b => ∃ res, Redeemed orgId accountId rewardId res a b) :
    Tame pr (redeemReward orgId customerId rewardId) := by
  refine Tame.bind requireEnabled_tame fun _ => ?_
  refine Tame.bind (getAccountByCustomerId_ensures hG hq hprov customerId).tame fun account => ?_
  refine Tame.bind (Tame.tx (hE account.id) hq fun _ _ => ?_) fun res => ?_
  · exact Tx.wp_mono (fun res _ _ hd => hd.mono fun _ _ h => ⟨res, h⟩) (fun _ _ _ => trivial)
      (wp_redeemTx hG)
  · exact Tame.bind (Tame.fireAll hq _) fun _ => Tame.bind (Tame.fire hq _) fun _ => Tame.pure _

/-! ## Gamification -/

omit hG hprov in
theorem dispatchIfAny_tame (accountId : Id) (result : Option ApplyPointsTxResult)
    (opts : PointsOpts) : Tame pr (dispatchIfAny orgId accountId result opts) := by
  cases result with
  | none => exact Tame.pure _
  | some r => exact Tame.fireAll hq _

omit hG hprov in
/-- The webhooks of a movement cannot fail. -/
theorem dispatchIfAny_ensures {accountId : Id} {opts : PointsOpts}
    (result : Option ApplyPointsTxResult) :
    Ensures pr (fun _ => True) (dispatchIfAny orgId accountId result opts)
      (onResult (fun _ _ => True) fun _ _ => False) := by
  cases result with
  | none => exact Ensures.pure fun _ _ => trivial
  | some result => exact Ensures.fireAll hq (fun _ _ _ _ => trivial) (fun _ _ => trivial) _

theorem incrementChallengeProgress_tame {targetType : ChallengeTargetType} {amount : ℤ}
    (hE : ∀ accountId challengeId targetValue,
      pr.Admits (Advances accountId challengeId amount targetValue)) :
    Tame pr (incrementChallengeProgress orgId customerId targetType amount) := by
  refine Tame.bind (ensureAccount_tame hG hq hprov customerId) fun account => ?_
  cases account with
  | none => exact Tame.pure _
  | some account =>
    refine Tame.bind (Tame.readTx hq findMany_did) fun challenges => ?_
    refine Tame.forEach fun challenge _ => ?_
    exact Tame.bind (Tame.tx (hE _ _ _) hq fun _ _ => wp_advanceChallenge hG) fun _ =>
      dispatchIfAny_tame hq _ _ _

omit hG in
theorem awardBadge_tame (accountId : Id) (badge : Id × LoyaltyBadge) (awarded : List String) :
    Tame pr (awardBadge orgId accountId badge awarded) := by
  refine Tame.bind (Tame.readTx hq findAny_did) fun existing => ?_
  cases existing with
  | some _ => exact Tame.pure _
  | none =>
    refine Tame.bind (Tame.tx hprov hq fun A s => ?_) fun _ => Tame.pure _
    refine wp_create (k := .customerBadge) did_start (fun s1 ws1 id _ _ hd => hd.mono ?_)
      fun _ _ _ => trivial
    rintro a b ⟨n, rfl, hr⟩
    exact .single (.elsewhere rfl (fun _ h => by cases h) hr)

theorem evaluateBadges_tame (customerId : Id) :
    Tame pr (evaluateBadgesForAccount orgId customerId) := by
  refine Tame.bind (ensureAccount_tame hG hq hprov customerId) fun account => ?_
  cases account with
  | none => exact Tame.pure _
  | some account =>
    refine Tame.bind requireEnabled_tame fun _ => ?_
    refine Tame.bind (Tame.readTx hq findMany_did) fun badges => ?_
    refine Tame.foldEach fun awarded badge _ => ?_
    split
    · exact awardBadge_tame hq hprov _ _ _
    · exact Tame.pure _

omit hprov in
theorem playPatronGame_tame {accountId : Id} {gameType : PatronGameType} (hE : pr.Admits Plays) :
    Tame pr (playPatronGame orgId accountId gameType) := by
  refine Tame.bind requireEnabled_tame fun _ => ?_
  refine Tame.bind (Tame.readTx hq fun _ _ => wp_findByIdAny did_start fun _ _ _ _ hd => hd)
    fun account => ?_
  cases account with
  | none => exact Tame.throw _
  | some account =>
    refine Tame.bind Tame.input fun draw => ?_
    refine Tame.bind (Tame.tx hE hq fun _ _ => wp_playTx hG) fun result => ?_
    exact Tame.bind (dispatchIfAny_tame hq _ _ _) fun _ => Tame.pure _

/-! ## Wallets -/

include hprov

omit hprov in
theorem ensureWallet_ensures (hprov : pr.Admits Provisions) (account : AccountWithTier) :
    Ensures pr (AccountOf orgId customerId account.id) (ensureWallet orgId account)
      fun _ => AccountOf orgId customerId account.id := by
  have hkeep : G.Keeps (AccountOf orgId customerId account.id) :=
    accountOf_keeps hG customerId account.id
  unfold ensureWallet
  split
  · exact Ensures.pure fun _ hs => hs
  · refine Ensures.handle (B := fun _ => AccountOf orgId customerId account.id) ?_ fun err => ?_
    · refine Ensures.commit (E := Provisions) (F := fun _ _ _ => True) hkeep
        (hprov.mono fun _ _ h => h.2) hq.toSilent (fun A s hs => ?_) (fun _ _ _ _ hs _ => hs)
        fun _ _ hs => hs
      rw [Tx.wp_do]
      refine wp_create ((did_start (s := s)).note hkeep hs) (fun s1 ws1 id _ _ hd => ?_)
        fun _ _ _ => trivial
      refine (Tx.wp_pure _ _ _).mpr (hd.mono ?_)
      rintro a b ⟨n, ⟨⟨q, hacc, ho, -⟩, rfl⟩, hr⟩
      exact ⟨.single (.openWallet ⟨q, hacc, ho⟩ hr), trivial⟩
    · split
      · refine (Tame.readTx hq fun A s => ?_).carry hkeep
        exact findFirstOrThrow_did (k := .wallet) A s
      · exact Ensures.throw fun _ hs => hs

theorem walletOf_tame {β : Type} {f : WalletView → LCall β} (hf : ∀ wallet, Tame pr (f wallet)) :
    Tame pr ((ensureAccountOrThrow orgId customerId).bind fun account =>
      (ensureWallet orgId account).bind f) := by
  refine Ensures.bind (M := fun account => AccountOf orgId customerId account.id)
    (ensureAccountOrThrow_ensures hG hq hprov customerId) fun account => ?_
  refine Ensures.bind (M := fun _ _ => True)
    ((ensureWallet_ensures hG hq hprov account).post fun r _ _ => by cases r <;> trivial) hf

theorem getWallet_tame : Tame pr (getWallet orgId customerId) := by
  refine Tame.bind requireEnabled_tame fun _ => walletOf_tame hG hq hprov fun wallet => ?_
  refine Tame.bind (Tame.readTx hq fun A s => ?_) fun _ => Tame.pure _
  rw [recentTransactions, Tx.wp_do]
  exact wp_findMany did_start fun _ _ _ hd => hd

theorem adjustWallet_tame {data : WalletAdjust}
    (hE : ∀ walletId, pr.Admits (Adjusted orgId walletId data)) :
    Tame pr (adjustWallet orgId customerId data) := by
  refine Tame.bind requireEnabled_tame fun _ => walletOf_tame hG hq hprov fun wallet => ?_
  exact Tame.bind (Tame.tx (hE wallet.1) hq fun _ _ => wp_adjustWalletTx) fun _ => Tame.pure _

end

end PatronLoyalty.Loyalty
