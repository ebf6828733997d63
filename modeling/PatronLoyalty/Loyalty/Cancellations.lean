import PatronLoyalty.Loyalty.Redemptions
import PatronLoyalty.Loyalty.Turns

/-!
# Cancelling what was redeemed

Redemptions, cancellations and edits of the rewards of a catalog, one after the other, each of which may
die on its way. A history keeps the stores between which every request has had its turn, so that what a
redemption took can be compared with what its cancellation gives back, whatever was edited in between.

A redemption takes a unit if the reward has a stock when it is redeemed; a cancellation gives one back if
the reward has a stock when it is cancelled. Headline: **`history_restored`**, in a history every
cancellation restores what its redemption took, if and only if no redemption of a reward without a stock
is cancelled after the reward was given one. `exists_overstocked` is a history in which one is.
-/

namespace PatronLoyalty.Loyalty

open Txn Relation

/-! ## Histories -/

inductive CatalogRequest
  | redeem (orgId customerId rewardId : Id)
  | cancel (orgId redemptionId : Id)
  | update (orgId id : Id) (data : UpdateLoyaltyReward)

inductive CatalogAnswer
  | redemption (v : RedemptionView)
  | reward (r : LoyaltyReward)
  deriving DecidableEq, Repr

def CatalogRequest.call : CatalogRequest → LCall CatalogAnswer
  | .redeem orgId customerId rewardId =>
    (redeemReward orgId customerId rewardId).bind fun v => .pure (.redemption v)
  | .cancel orgId redemptionId =>
    (cancelRedemption orgId redemptionId).bind fun v => .pure (.redemption v)
  | .update orgId id data => (updateReward orgId id data).bind fun r => .pure (.reward r)

/-- A request, and the committed stores before and after its turn. -/
structure CatalogTurn where
  request : CatalogRequest
  before : Db
  after : Db

/-- The turns that lead from `s` to `s'`, with their answers. -/
abbrev CatalogHistory (s : Db) (l : List (CatalogTurn × Option (Except Err CatalogAnswer)))
    (s' : Db) : Prop :=
  InTurn (fun t : CatalogTurn => t.request.call) (fun _ m t m' => t.before = m ∧ t.after = m') s l s'

/-! ## Stock and balance -/

def stockOf (s : Db) (rewardId : Id) : Option ℤ :=
  (s.get .reward rewardId).bind fun (w : LoyaltyReward) => w.stock

def balanceOf (s : Db) (accountId : Id) : ℤ :=
  ((s.get .account accountId).map fun (r : LoyaltyAccount) => r.pointsBalance).getD 0

namespace CatalogTurn

variable (t u : CatalogTurn) (id rewardId : Id) (x : LoyaltyRedemption)

/-- The turn has made the redemption. -/
structure Makes : Prop where
  before : t.before.get .redemption id = none
  after : t.after.get .redemption id = some x

/-- The turn has cancelled the pending redemption. -/
structure Cancels : Prop where
  before : ∃ y : LoyaltyRedemption, t.before.get .redemption id = some y ∧ y.status = .pending
  after : ∃ y : LoyaltyRedemption, t.after.get .redemption id = some y ∧ y.status = .cancelled

/-- One unit has left the stock. -/
def Takes : Prop :=
  ∃ n, stockOf t.before rewardId = some n ∧ stockOf t.after rewardId = some (n - 1)

/-- One unit has come to the stock. -/
def Adds : Prop :=
  ∃ n, stockOf t.before rewardId = some n ∧ stockOf t.after rewardId = some (n + 1)

/-- The units that have left the stock, where there is one before and after. -/
def units : ℤ :=
  match stockOf t.before rewardId, stockOf t.after rewardId with
  | some n, some m => n - m
  | _, _ => 0

/-- **The cancellation `u` restores what the redemption `x` took in the turn `t`.** -/
structure Restores : Prop where
  stock : u.Adds x.rewardId ↔ t.Takes x.rewardId ∧ (stockOf u.before x.rewardId).isSome
  points (accountId : Id) : balanceOf u.after accountId - balanceOf u.before accountId =
    balanceOf t.before accountId - balanceOf t.after accountId
  identity (rewardId : Id) : (stockOf u.before rewardId).isSome → u.units rewardId = -t.units rewardId

/-- The reward had a stock when it was redeemed, or has none when the redemption is cancelled. -/
def Counted : Prop :=
  (stockOf t.before x.rewardId).isSome ∨ stockOf u.before x.rewardId = none

end CatalogTurn

/-- What holds of every redemption of the history that the history cancels. -/
def Throughout (l : List (CatalogTurn × Option (Except Err CatalogAnswer)))
    (F : CatalogTurn → CatalogTurn → LoyaltyRedemption → Prop) : Prop :=
  ∀ t u id x, t ∈ l.map Prod.fst → u ∈ l.map Prod.fst → t.Makes id x → u.Cancels id → F t u x

/-! ## What a turn does -/

section

variable {a b c : Db} {orgId customerId rewardId id : Id} {x y : LoyaltyRedemption}

theorem Provision.balanceOf (h : Provision a b) (accountId : Id) :
    balanceOf b accountId = balanceOf a accountId := by
  unfold Loyalty.balanceOf
  cases h with
  | elsewhere hk _ h => rw [h.get_ne fun he => by cases he; cases hk]
  | @openAccount new _ _ _ _ _ h =>
    by_cases hid : accountId = new
    · subst hid
      rw [h.get_self, h.get_old]
      rfl
    · rw [h.get_ne (by simpa using hid)]
  | openWallet _ h => rw [h.get_ne (by simp)]

theorem Provisions.balanceOf (h : Provisions a b) (accountId : Id) :
    balanceOf b accountId = balanceOf a accountId := by
  induction h with
  | refl => rfl
  | tail _ hs ih => exact (hs.balanceOf accountId).trans ih

/-- **The turn of a redemption or of its cancellation**: `sign` of what it is about, and nothing else. -/
structure Trades (sign : ℤ) (x : LoyaltyRedemption) (a b : Db) : Prop where
  stock (rewardId : Id) : stockOf b rewardId =
    if rewardId = x.rewardId then (stockOf a rewardId).map (· + sign) else stockOf a rewardId
  balance (accountId : Id) : balanceOf b accountId =
    balanceOf a accountId + if accountId = x.accountId then sign * x.pointsSpent else 0

theorem Exchange.trades {old : Option LoyaltyRedemption} {new : LoyaltyRedemption} {points sign : ℤ}
    (h : Exchange x.accountId points x.rewardId sign id old new a b)
    (hp : points = sign * x.pointsSpent) : Trades sign x a b where
  stock w := by
    unfold stockOf
    by_cases hw : w = x.rewardId
    · subst hw
      obtain ⟨r, hr, hr', -⟩ := h.reward
      rw [hr, hr', if_pos rfl]
      rfl
    · rw [h.rewards hw, if_neg hw]
  balance acc := by
    unfold balanceOf
    by_cases hacc : acc = x.accountId
    · subst hacc
      obtain ⟨r, r', hr, hr', hb⟩ := h.account
      rw [hr, hr', if_pos rfl, ← hp]
      exact hb
    · rw [h.accounts hacc, if_neg hacc, add_zero]

theorem Trades.of_provisions {sign : ℤ} (hp : Provisions a c) (h : Trades sign x c b) :
    Trades sign x a b where
  stock w := by
    have hw : stockOf c w = stockOf a w := by
      unfold stockOf
      rw [hp.untouched.reward]
    rw [h.stock, hw]
  balance acc := by rw [h.balance, hp.balanceOf]

inductive CatalogStep (a b : Db) : Prop
  | provided (h : Provisions a b)
  | redeemed {c : Db} {orgId customerId rewardId : Id} {v : RedemptionView} (hp : Provisions a c)
      (hs : Steps (fun _ _ => True) c b) (h : RedeemEffect orgId customerId rewardId v c b)
  | cancelled {id : Id} (hs : Steps (fun _ _ => True) a b) (h : CancelEffect id a b)
  | edited {id : Id} {r r' : LoyaltyReward} (h : Rel.Replaced .reward id (some r) r' a b)

namespace CatalogStep

theorem refl (a : Db) : CatalogStep a a := .provided .refl

theorem wellKept (h : CatalogStep a b) (ha : WellKept a) : WellKept b := by
  cases h with
  | provided h => exact (h.steps (P := fun _ _ => True)).wellKept ha
  | redeemed hp hs _ => exact hs.wellKept ((hp.steps (P := fun _ _ => True)).wellKept ha)
  | cancelled hs _ => exact hs.wellKept ha
  | edited h =>
    refine ⟨h.unique ha.unique, fun hr hx => ?_⟩
    rw [h.get_ne (by simp)] at hr
    obtain ⟨q, hq, hc⟩ := ha.referred hr hx
    exact ⟨q, (h.get_ne (by simp)).trans hq, hc⟩

end CatalogStep

def SameTerms (a b : Db) : Prop :=
  ∀ (id : Id) (x : LoyaltyRedemption), a.get .redemption id = some x →
    ∃ y : LoyaltyRedemption, b.get .redemption id = some y ∧ y.accountId = x.accountId ∧
      y.rewardId = x.rewardId ∧ y.pointsSpent = x.pointsSpent

theorem SameTerms.refl (a : Db) : SameTerms a a := fun _ x h => ⟨x, h, rfl, rfl, rfl⟩

theorem SameTerms.trans (h : SameTerms a b) (h' : SameTerms b c) : SameTerms a c := by
  intro id x hx
  obtain ⟨y, hy, h1, h2, h3⟩ := h id x hx
  obtain ⟨z, hz, g1, g2, g3⟩ := h' id y hy
  exact ⟨z, hz, g1.trans h1, g2.trans h2, g3.trans h3⟩

theorem Grows.sameTerms (h : Grows a b) : SameTerms a b := by
  intro id x hx
  obtain ⟨y, hy, -, h1, h2, h3, -⟩ := h.row hx
  exact ⟨y, hy, h1, h2, h3⟩

namespace CatalogStep

theorem sameTerms (h : CatalogStep a b) : SameTerms a b := by
  cases h with
  | provided h => exact (Steps.grows (h.steps (P := fun _ _ => True))).sameTerms
  | redeemed hp hs _ =>
    exact ((Steps.grows (hp.steps (P := fun _ _ => True))).trans (Steps.grows hs)).sameTerms
  | cancelled hs _ => exact (Steps.grows hs).sameTerms
  | edited h => exact fun id x hx => ⟨x, (h.get_ne (by simp)).trans hx, rfl, rfl, rfl⟩

/-- **A redemption is made** by redeeming. -/
theorem trades_of_makes (h : CatalogStep a b) (ha : a.get .redemption id = none)
    (hb : b.get .redemption id = some x) : Trades (-1) x a b := by
  cases h with
  | provided h =>
    rw [h.untouched.redemption, ha] at hb
    cases hb
  | @redeemed c _ _ _ v hp _ h =>
    obtain ⟨accountId, q, w, -, -, -, -, -, hv, he⟩ := h
    have hid : id = v.1 := by
      by_contra hne
      rw [he.redemptions hne, hp.untouched.redemption, ha] at hb
      cases hb
    subst hid
    have hx : x = v.2 := Option.some.inj (hb.symm.trans he.after)
    rw [hv] at hx
    subst hx
    exact .of_provisions hp (he.trades (by simp))
  | @cancelled id' _ h =>
    obtain ⟨y, -, he⟩ := h
    have hne : id ≠ id' := by
      rintro rfl
      rw [he.before] at ha
      cases ha
    rw [he.redemptions hne, ha] at hb
    cases hb
  | edited h =>
    rw [h.get_ne (by simp), ha] at hb
    cases hb

/-- **A redemption is cancelled** by cancelling. -/
theorem trades_of_cancels (h : CatalogStep a b) (ha : a.get .redemption id = some x)
    (hx : x.status = .pending) (hb : b.get .redemption id = some y) (hy : y.status = .cancelled) :
    Trades 1 x a b := by
  have hne : b.get .redemption id ≠ a.get .redemption id := by
    rw [ha, hb]
    intro he
    cases he
    rw [hx] at hy
    cases hy
  cases h with
  | provided h => exact absurd (h.untouched.redemption id) hne
  | @redeemed c _ _ _ v hp _ h =>
    obtain ⟨accountId, q, w, -, -, -, -, -, hv, he⟩ := h
    refine absurd ((he.redemptions fun hid => ?_).trans (hp.untouched.redemption id)) hne
    subst hid
    have hbefore := he.before
    rw [hp.untouched.redemption, ha] at hbefore
    cases hbefore
  | @cancelled id' _ h =>
    obtain ⟨z, -, he⟩ := h
    have hid : id = id' := by
      by_contra hid
      exact hne (he.redemptions hid)
    subst hid
    have hz : z = x := Option.some.inj (he.before.symm.trans ha)
    subst hz
    exact he.trades (by simp)
  | edited h => exact absurd (h.get_ne (by simp)) hne

end CatalogStep

/-! ## What a request does -/

section

variable {s : Db}

/-- **The turn of a redemption**: what is provided on the way, and the transaction. -/
theorem redeemReward_keeps {I : Db → Prop} (hprov : ∀ m, Provisions s m → I m)
    (hred : ∀ c m accountId res, Provisions s c → AccountOf orgId customerId accountId c →
      Redeemed orgId accountId rewardId res c m → I m) :
    (redeemReward orgId customerId rewardId).Keeps I (fun _ m => I m) s := by
  rw [redeemReward, Call.bind_eq]
  refine .still_bind (hprov s .refl) requireEnabled_still (fun _ => ?_) fun _ => hprov s .refl
  rw [Call.bind_eq]
  refine .bind ((getAccountByCustomerId_keeps .refl).weaken hprov)
    (fun account m hm => ?_) fun _ _ hm => hprov _ hm.1
  rw [Call.bind_eq]
  have hacc : AccountOf orgId customerId account.id m := hm.2 account _ rfl rfl
  have htx : (withTenant (redeemTx orgId account.id rewardId)).Keeps I (fun _ m' => I m') m := by
    refine .did (hprov m hm.1) (wp_redeemTx fun _ _ => alone_grows) (fun res m' hm' => ?_)
      fun _ => hprov m hm.1
    have hdone := hred m m' account.id res hm.1 hacc hm'
    exact ⟨hdone, hdone⟩
  refine .bind htx (fun res m' hm' => ?_) fun _ _ hm' => hm'
  obtain ⟨redemption, burnResult⟩ := res
  exact .of_walks (.bind (.fireAll _) fun _ => .bind (.fire _) fun _ => .pure _)
    (fun _ h => eq_of_noSteps h ▸ hm') fun _ _ _ h => eq_of_noSteps h ▸ hm'

/-- **The turn of a cancellation.** -/
theorem cancelRedemption_keeps {I : Db → Prop} (hI : I s)
    (h : ∀ m, Cancelled orgId id s m → I m) :
    (cancelRedemption orgId id).Keeps I (fun _ m => I m) s := by
  rw [cancelRedemption, Call.bind_eq]
  refine .still_bind hI requireEnabled_still (fun _ => ?_) fun _ => hI
  exact .did hI (wp_cancelTx fun _ _ => alone_grows) (fun v m hm => ⟨h m hm, h m hm⟩) fun _ => hI

/-- **The turn of an edit.** -/
theorem updateReward_keeps {I : Db → Prop} {data : UpdateLoyaltyReward} (hI : I s)
    (h : ∀ r r' m, Rel.Replaced .reward id (some r) r' s m → I m) :
    (updateReward orgId id data).Keeps I (fun _ m => I m) s := by
  rw [updateReward, Call.bind_eq]
  refine .still_bind hI requireEnabled_still (fun _ => ?_) fun _ => hI
  refine .tx hI (fun r m hm => ?_) fun _ => hI
  obtain ⟨r0, hr0, -, hc, rfl⟩ := Rel.gives_modify.mp hm
  have hedit := h r0 r (s.set .reward id r) ⟨hr0, hc, rfl⟩
  exact ⟨hedit, hedit⟩

/-- **The turn of a request.** -/
theorem CatalogRequest.step {req : CatalogRequest} {o : Option (Except Err CatalogAnswer)} {m : Db}
    (hs : WellKept s) (h : req.call.turn s o m) : CatalogStep s m := by
  cases req with
  | redeem orgId customerId rewardId =>
    refine (redeemReward_keeps (fun _ => .provided) fun c m accountId res hp hacc hm => ?_).turn_map h
    exact .redeemed hp (hm.steps policy_true) (hm.effect hacc)
  | cancel orgId redemptionId =>
    refine (cancelRedemption_keeps (.refl s) fun m hm => ?_).turn_map h
    exact .cancelled (hm.steps policy_true) (hm.effect hs)
  | update orgId id data =>
    exact (updateReward_keeps (.refl s) fun r r' m hm => .edited hm).turn_map h

end

end

/-! ## Taken and given back -/

section

variable {t u : CatalogTurn} {x y : LoyaltyRedemption} {rewardId : Id} {sign : ℤ} {a b : Db}

theorem Trades.of_terms (h : Trades sign y a b) (ha : y.accountId = x.accountId)
    (hr : y.rewardId = x.rewardId) (hp : y.pointsSpent = x.pointsSpent) : Trades sign x a b :=
  ⟨by rw [← hr]; exact h.stock, by rw [← ha, ← hp]; exact h.balance⟩

theorem Trades.stock_self (h : Trades sign x a b) :
    stockOf b x.rewardId = (stockOf a x.rewardId).map (· + sign) := by
  rw [h.stock, if_pos rfl]

theorem Trades.units_other (h : Trades sign x t.before t.after) (hne : rewardId ≠ x.rewardId) :
    t.units rewardId = 0 := by
  unfold CatalogTurn.units
  rw [h.stock, if_neg hne]
  cases stockOf t.before rewardId with
  | none => rfl
  | some n => exact sub_self n

theorem Trades.units_self (h : Trades sign x t.before t.after)
    (hs : (stockOf t.before x.rewardId).isSome) : t.units x.rewardId = -sign := by
  obtain ⟨n, hn⟩ := Option.isSome_iff_exists.mp hs
  unfold CatalogTurn.units
  rw [h.stock_self, hn]
  show n - (n + sign) = -sign
  omega

theorem Trades.takes_iff (h : Trades (-1) x t.before t.after) :
    t.Takes x.rewardId ↔ (stockOf t.before x.rewardId).isSome := by
  constructor
  · rintro ⟨n, hn, -⟩
    rw [hn]
    rfl
  · intro hs
    obtain ⟨n, hn⟩ := Option.isSome_iff_exists.mp hs
    exact ⟨n, hn, by rw [h.stock_self, hn]; rfl⟩

theorem Trades.adds_iff (h : Trades 1 x u.before u.after) :
    u.Adds x.rewardId ↔ (stockOf u.before x.rewardId).isSome := by
  constructor
  · rintro ⟨n, hn, -⟩
    rw [hn]
    rfl
  · intro hs
    obtain ⟨n, hn⟩ := Option.isSome_iff_exists.mp hs
    exact ⟨n, hn, by rw [h.stock_self, hn]; rfl⟩

theorem Trades.points (ht : Trades (-1) x t.before t.after) (hu : Trades 1 x u.before u.after)
    (accountId : Id) : balanceOf u.after accountId - balanceOf u.before accountId =
      balanceOf t.before accountId - balanceOf t.after accountId := by
  rw [ht.balance, hu.balance]
  split <;> omega

/-- **A pair of a redemption and its cancellation.** -/
theorem Trades.restores_iff (ht : Trades (-1) x t.before t.after)
    (hu : Trades 1 x u.before u.after) : t.Restores u x ↔ t.Counted u x := by
  constructor
  · intro h
    cases hs : stockOf u.before x.rewardId with
    | none => exact Or.inr hs
    | some n =>
      have hadds : u.Adds x.rewardId := hu.adds_iff.mpr (by rw [hs]; rfl)
      exact Or.inl (ht.takes_iff.mp (h.stock.mp hadds).1)
  · intro h
    have hcounted : (stockOf u.before x.rewardId).isSome → (stockOf t.before x.rewardId).isSome := by
      intro hs
      rcases h with h | h
      · exact h
      · rw [h] at hs
        cases hs
    refine ⟨?_, ht.points hu, fun w hw => ?_⟩
    · rw [hu.adds_iff, ht.takes_iff]
      exact ⟨fun hs => ⟨hcounted hs, hs⟩, fun hs => hs.2⟩
    · by_cases hne : w = x.rewardId
      · subst hne
        rw [hu.units_self hw, ht.units_self (hcounted hw)]
        rfl
      · rw [hu.units_other hne, ht.units_other hne]
        rfl

end

/-! ## Histories are restored -/

section

variable {s s' m m' : Db} {l : List (CatalogTurn × Option (Except Err CatalogAnswer))}

/-- What a history has recorded when the store is `s`. -/
structure Recorded (l : List (CatalogTurn × Option (Except Err CatalogAnswer))) (s : Db) : Prop where
  kept : WellKept s
  steps {t : CatalogTurn} : t ∈ l.map Prod.fst → CatalogStep t.before t.after ∧ SameTerms t.after s
  pairs : Throughout l fun t u x => Trades (-1) x t.before t.after ∧ Trades 1 x u.before u.after

theorem Recorded.exists_redemption (h : Recorded l s) {t : CatalogTurn} (ht : t ∈ l.map Prod.fst)
    {id : Id} {x : LoyaltyRedemption} (hx : t.before.get .redemption id = some x) :
    ∃ y : LoyaltyRedemption, s.get .redemption id = some y := by
  obtain ⟨hstep, hterms⟩ := h.steps ht
  obtain ⟨y, hy, -⟩ := (hstep.sameTerms.trans hterms) id x hx
  exact ⟨y, hy⟩

/-- The new turn cancels what an earlier one has made. -/
theorem Recorded.pair (h : Recorded l m) (hstep : CatalogStep m m') {t u : CatalogTurn} {id : Id}
    {x : LoyaltyRedemption} (ht : t ∈ l.map Prod.fst) (hb : u.before = m) (ha : u.after = m')
    (hm : t.Makes id x) (hc : u.Cancels id) :
    Trades (-1) x t.before t.after ∧ Trades 1 x u.before u.after := by
  obtain ⟨htstep, hterms⟩ := h.steps ht
  refine ⟨htstep.trades_of_makes hm.before hm.after, ?_⟩
  obtain ⟨y, hy, hacc, hreward, hpoints⟩ := hterms id x hm.after
  obtain ⟨⟨z, hz, hpending⟩, z', hz', hcancelled⟩ := hc
  rw [hb] at hz ⊢
  rw [ha] at hz' ⊢
  obtain rfl : z = y := Option.some.inj (hz.symm.trans hy)
  exact (hstep.trades_of_cancels hz hpending hz' hcancelled).of_terms hacc hreward hpoints

/-- **One more turn.** -/
theorem Recorded.snoc (h : Recorded l m) {r : CatalogTurn} {o : Option (Except Err CatalogAnswer)}
    (hb : r.before = m) (ha : r.after = m') (ht : r.request.call.turn m o m') :
    Recorded (l ++ [(r, o)]) m' := by
  have hstep : CatalogStep m m' := CatalogRequest.step h.kept ht
  have hmem : ∀ t, t ∈ (l ++ [(r, o)]).map Prod.fst → t ∈ l.map Prod.fst ∨ t = r := by
    intro t ht
    rw [List.map_append, List.mem_append] at ht
    exact ht.imp_right List.mem_singleton.mp
  refine ⟨hstep.wellKept h.kept, fun {t} ht => ?_, fun t u id x ht hu hm hc => ?_⟩
  · rcases hmem t ht with ht | rfl
    · exact ⟨(h.steps ht).1, (h.steps ht).2.trans hstep.sameTerms⟩
    · exact ⟨hb ▸ ha ▸ hstep, ha ▸ .refl m'⟩
  · obtain ⟨y, hy, -⟩ := hc.before
    have hnone := hm.before
    rcases hmem u hu with hold | rfl
    · rcases hmem t ht with ht | rfl
      · exact h.pairs t u id x ht hold hm hc
      · obtain ⟨z, hz⟩ := h.exists_redemption hold hy
        rw [hb, hz] at hnone
        cases hnone
    · rcases hmem t ht with ht | rfl
      · exact h.pair hstep ht hb ha hm hc
      · rw [hy] at hnone
        cases hnone

theorem recorded_of_history (hs : WellKept s) (h : CatalogHistory s l s') : Recorded l s' :=
  h.keeps ⟨hs, nofun, fun _ _ _ _ ht => nomatch ht⟩ fun _ _ _ _ _ hr hP ht => hr.snoc hP.1 hP.2 ht

/-- **Cancelling restores what redeeming took**, if and only if no redemption of a reward without a
stock is cancelled after the reward was given one. -/
theorem history_restored (hs : WellKept s) (h : CatalogHistory s l s') :
    Throughout l CatalogTurn.Restores ↔ Throughout l CatalogTurn.Counted := by
  have hpair := (recorded_of_history hs h).pairs
  constructor
  · intro hr t u id x ht hu hm hc
    obtain ⟨hmade, hcancelled⟩ := hpair t u id x ht hu hm hc
    exact (hmade.restores_iff hcancelled).mp (hr t u id x ht hu hm hc)
  · intro hr t u id x ht hu hm hc
    obtain ⟨hmade, hcancelled⟩ := hpair t u id x ht hu hm hc
    exact (hmade.restores_iff hcancelled).mpr (hr t u id x ht hu hm hc)

end

/-! ## An edit in between -/

/-- The feature is on, and the redemption is 1. -/
def catalogInputs : Env where
  pick _ := 1
  today := 1000

def turnOf (s : Db) (req : CatalogRequest) : CatalogTurn where
  request := req
  before := s
  after := (req.call.eval catalogInputs 0 s).db

/-- One more request by itself. -/
theorem history_snoc {s m : Db} {l : List (CatalogTurn × Option (Except Err CatalogAnswer))}
    (h : CatalogHistory s l m) (req : CatalogRequest) :
    CatalogHistory s (l ++ [(turnOf m req, some (req.call.eval catalogInputs 0 m).answer)])
      (turnOf m req).after :=
  h.eval catalogInputs (turnOf m req) ⟨rfl, rfl⟩

def adaRedeems : CatalogTurn := turnOf shop (.redeem 1 10 30)

/-- The price and the stock of the voucher change. -/
def voucherEdited : CatalogTurn :=
  turnOf adaRedeems.after (.update 1 30 { pointsCost := some 15, stock := some (some 4) })

def adaCancels : CatalogTurn := turnOf voucherEdited.after (.cancel 1 1)

theorem history_restored_edited : ∃ l, CatalogHistory shop l adaCancels.after ∧
    stockOf adaCancels.after 30 = some 5 ∧ balanceOf adaCancels.after 20 = balanceOf shop 20 ∧
      (Throughout l CatalogTurn.Restores ↔ Throughout l CatalogTurn.Counted) := by
  have h0 : CatalogHistory shop [] shop := .nil
  have h := history_snoc (history_snoc (history_snoc h0 (.redeem 1 10 30))
    (.update 1 30 { pointsCost := some 15, stock := some (some 4) })) (.cancel 1 1)
  exact ⟨_, h, by decide +kernel, by decide +kernel, history_restored shop_wellKept h⟩

/-- The voucher is redeemed without a stock, -/
def uncounted : CatalogTurn := turnOf shop (.update 1 30 { stock := some none })

def adaRedeemsUncounted : CatalogTurn := turnOf uncounted.after (.redeem 1 10 30)

/-- and is given one of five before the redemption is cancelled. -/
def recounted : CatalogTurn :=
  turnOf adaRedeemsUncounted.after (.update 1 30 { stock := some (some 5) })

def adaCancelsRecounted : CatalogTurn := turnOf recounted.after (.cancel 1 1)

/-- **A unit that was not taken is given back.** -/
theorem exists_overstocked : ¬ ∀ (s s' : Db)
    (l : List (CatalogTurn × Option (Except Err CatalogAnswer))), WellKept s →
      CatalogHistory s l s' → Throughout l CatalogTurn.Restores := by
  intro h
  have h0 : CatalogHistory shop [] shop := .nil
  have hl := history_snoc (history_snoc (history_snoc (history_snoc h0
    (.update 1 30 { stock := some none })) (.redeem 1 10 30))
    (.update 1 30 { stock := some (some 5) })) (.cancel 1 1)
  let x : LoyaltyRedemption := { orgId := 1, accountId := 20, rewardId := 30, pointsSpent := 10 }
  have hmakes : adaRedeemsUncounted.Makes 1 x := ⟨by decide +kernel, by decide +kernel⟩
  have hcancels : adaCancelsRecounted.Cancels 1 :=
    ⟨⟨x, by decide +kernel, rfl⟩, x.cancel, by decide +kernel, rfl⟩
  have hr := h _ _ _ shop_wellKept hl adaRedeemsUncounted adaCancelsRecounted 1 x
    (by simp [adaRedeemsUncounted, uncounted])
    (by simp [adaCancelsRecounted, recounted, adaRedeemsUncounted, uncounted]) hmakes hcancels
  have hadds : adaCancelsRecounted.Adds 30 := ⟨5, by decide +kernel, by decide +kernel⟩
  obtain ⟨⟨n, hn, -⟩, -⟩ := hr.stock.mp hadds
  have hnone : stockOf adaRedeemsUncounted.before 30 = none := by decide +kernel
  rw [hnone] at hn
  cases hn

end PatronLoyalty.Loyalty
