import PatronLoyalty.Loyalty.Accounting

/-!
# Referral bonuses

A referral promises two bonuses, each posted under a key of its own that is derived from the
referral's identifier. `ReferralsOk` is what the referral rows and the ledger say of each other: a
bonus row is one a referral promises, and a completed referral has its bonuses on the ledger. The
unique index of the ledger does the rest.

Results: **`Step.referralsOk`**, every step of the book keeps that; **`reach_referrals`**, in every
interleaving of requests, with any failures, a customer is referred once, never by himself, and each
bonus is credited at most once, and at least once when the referral is completed.
-/

namespace PatronLoyalty.Loyalty

open Txn Relation

/-- A row under a referral source is a bonus that a referral row promises. -/
def OnlyBonuses (s : Db) (l : LoyaltyPointLedger) : Prop :=
  l.sourceType = some "referral" → IsBonus s l

theorem onlyBonuses_policy : Policy OnlyBonuses where
  internal {s l} h hl := by
    rcases h with h | h | h | h <;>
    · rw [h] at hl
      simp at hl
  bonus h _ := h

/-! ## The keys of the bonuses -/

theorem digits_injective {m n : ℕ} {rest : List Char}
    (h : (toString m).toList ++ rest = (toString n).toList ++ rest) : m = n := by
  have hd : Nat.toDigits 10 m = Nat.toDigits 10 n := by
    rw [← Nat.toList_repr, ← Nat.toList_repr]
    exact List.append_cancel_right h
  rw [← Nat.ofDigitChars_ten_toDigits (n := m), hd, Nat.ofDigitChars_ten_toDigits]

theorem advocateKey_toList (id : Id) :
    (advocateKey id).toList = (toString id).toList ++ ":advocate".toList := by
  show (toString id ++ ":advocate").toList = _
  rw [String.toList_append]

theorem welcomeKey_toList (id : Id) :
    (welcomeKey id).toList = (toString id).toList ++ ":welcome".toList := by
  show (toString id ++ ":welcome").toList = _
  rw [String.toList_append]

theorem advocateKey_injective {id id' : Id} (h : advocateKey id = advocateKey id') : id = id' := by
  have hl := congrArg String.toList h
  rw [advocateKey_toList, advocateKey_toList] at hl
  exact digits_injective hl

theorem welcomeKey_injective {id id' : Id} (h : welcomeKey id = welcomeKey id') : id = id' := by
  have hl := congrArg String.toList h
  rw [welcomeKey_toList, welcomeKey_toList] at hl
  exact digits_injective hl

theorem advocateKey_ne_welcomeKey (id id' : Id) : advocateKey id ≠ welcomeKey id' := by
  intro h
  have hl := congrArg List.reverse (congrArg String.toList h)
  rw [advocateKey_toList, welcomeKey_toList, List.reverse_append, List.reverse_append] at hl
  simp at hl

/-! ## The invariant -/

def AdvocateOf (id : Id) (r : LoyaltyReferral) (l : LoyaltyPointLedger) : Prop :=
  l.sourceId = some (advocateKey id) ∧ l.accountId = r.referrerAccountId ∧
    l.points = r.referrerBonusPoints

def WelcomeOf (id : Id) (r : LoyaltyReferral) (l : LoyaltyPointLedger) : Prop :=
  l.sourceId = some (welcomeKey id) ∧ r.referredAccountId = some l.accountId ∧
    l.points = r.referredBonusPoints

/-- A ledger row that a referral row accounts for. -/
def Promised (s : Db) (l : LoyaltyPointLedger) : Prop :=
  ∃ id r, s.get .referral id = some r ∧ l.orgId = r.orgId ∧ l.type = .bonus ∧
    (AdvocateOf id r l ∨ WelcomeOf id r l)

/-- Both bonuses of the referral, as far as it has them, are on the ledger. -/
def Paid (id : Id) (r : LoyaltyReferral) (s : Db) : Prop :=
  (0 < r.referrerBonusPoints → Credited r.orgId r.referrerAccountId (advocateKey id) s) ∧
    (0 < r.referredBonusPoints →
      ∃ x, r.referredAccountId = some x ∧ Credited r.orgId x (welcomeKey id) s)

/-- **Referral rows and ledger agree.** -/
structure ReferralsOk (s : Db) : Prop where
  named {id : Id} {r : LoyaltyReferral} : s.get .referral id = some r →
    ∃ x, r.referredAccountId = some x
  distinct {id : Id} {r : LoyaltyReferral} : s.get .referral id = some r →
    OtherAccount r.referrerAccountId r.referredCustomerId s
  promised {l : LoyaltyPointLedger} : l ∈ s.log → l.sourceType = some "referral" → Promised s l
  completed {id : Id} {r : LoyaltyReferral} : s.get .referral id = some r →
    r.status = .completed → Paid id r s

section

variable {P : Db → LoyaltyPointLedger → Prop} {a b : Db} {id : Id} {r r' : LoyaltyReferral}

theorem Step.referral (h : Step P a b) (hr : b.get .referral id = some r') :
    a.get .referral id = some r' ∨ Refers id r' a b ∨
      ∃ r x today, r' = r.complete x today ∧ Completes id r x today a b := by
  cases h with
  | provision h => exact Or.inl ((h.get_eq rfl (by simp) (by simp) id).symm.trans hr)
  | standing _ h => exact Or.inl ((h.get_ne (by simp)).symm.trans hr)
  | post _ h => exact Or.inl ((h.get_ne (by simp)).symm.trans hr)
  | progress _ h => exact Or.inl ((h.get_ne (by simp)).symm.trans hr)
  | redeem _ h =>
    obtain ⟨a1, a2, hp, hs, hx⟩ := h.steps
    exact Or.inl ((hp.get_ne (by simp)).symm.trans
      ((hs.get_ne (by simp) id).symm.trans ((hx.get_ne (by simp)).symm.trans hr)))
  | fulfil _ h => exact Or.inl ((h.get_ne (by simp)).symm.trans hr)
  | cancel _ h =>
    obtain ⟨a1, a2, hx, hp, hs⟩ := h.steps
    exact Or.inl ((hx.get_ne (by simp)).symm.trans
      ((hp.get_ne (by simp)).symm.trans ((hs.get_ne (by simp) id).symm.trans hr)))
  | @refer id' q h =>
    by_cases hid : id = id'
    · subst hid
      rw [h.result.get_self] at hr
      cases hr
      exact Or.inr (Or.inl h)
    · exact Or.inl ((h.result.get_ne (by simpa using hid)).symm.trans hr)
  | @complete id' q x today h =>
    by_cases hid : id = id'
    · subst hid
      rw [h.result.get_self] at hr
      cases hr
      exact Or.inr (Or.inr ⟨q, x, today, rfl, h⟩)
    · exact Or.inl ((h.result.get_ne (by simpa using hid)).symm.trans hr)
  | adjust h =>
    obtain ⟨a1, hw, ht⟩ := h.steps
    exact Or.inl ((hw.get_ne (by simp)).symm.trans ((ht.get_ne (by simp)).symm.trans hr))

theorem Grows.otherAccount (h : Grows a b) {customerId : Id} (ha : OtherAccount id customerId a) :
    OtherAccount id customerId b := by
  obtain ⟨q, hq, hc⟩ := ha
  obtain ⟨q', hq', he⟩ := h.row hq
  exact ⟨q', hq', fun hcc => hc (he.2.symm.trans hcc)⟩

theorem Grows.credited (h : Grows a b) {orgId accountId : Id} {sourceId : String}
    (ha : Credited orgId accountId sourceId a) : Credited orgId accountId sourceId b := by
  obtain ⟨l, hl, hrow⟩ := ha
  exact ⟨l, h.mem_log hl, hrow⟩

theorem Grows.promised (h : Grows a b) {l : LoyaltyPointLedger} (ha : Promised a l) :
    Promised b l := by
  obtain ⟨id, r, hr, ho, ht, hwho⟩ := ha
  obtain ⟨r', hr', he1, he2, -, he4, he5, -, he7⟩ := h.row hr
  refine ⟨id, r', hr', ho.trans he1.symm, ht, ?_⟩
  rcases hwho with ⟨hs, hacc, hp⟩ | ⟨hs, hacc, hp⟩
  · exact Or.inl ⟨hs, hacc.trans he2.symm, hp.trans he4.symm⟩
  · exact Or.inr ⟨hs, he7 _ hacc, hp.trans he5.symm⟩

theorem Grows.paid (h : Grows a b) (ha : Paid id r a) : Paid id r b := by
  refine ⟨fun hp => h.credited (ha.1 hp), fun hp => ?_⟩
  obtain ⟨x, hx, hc⟩ := ha.2 hp
  exact ⟨x, hx, h.credited hc⟩

theorem IsBonus.promised {l : LoyaltyPointLedger} (hk : WellKept a) (ha : ReferralsOk a)
    (h : IsBonus a l) : Promised a l := by
  obtain ⟨id, r, hr, ho, ht, -, hwho⟩ := h
  refine ⟨id, r, hr, ho, ht, ?_⟩
  rcases hwho with ⟨hacc, hs, hp⟩ | ⟨⟨q, hq, hc⟩, hs, hp⟩
  · exact Or.inl ⟨hs, hacc, hp⟩
  · obtain ⟨x, hx⟩ := ha.named hr
    obtain ⟨q', hq', hc'⟩ := hk.referred hr hx
    have hacc : x = l.accountId := hk.holder hq' hq (hc'.trans hc.symm)
    exact Or.inr ⟨hs, hacc ▸ hx, hp⟩

/-- **Every step keeps referrals and ledger in agreement.** -/
theorem Step.referralsOk (h : Step OnlyBonuses a b) (hk : WellKept a) (ha : ReferralsOk a) :
    ReferralsOk b where
  named hr := by
    rcases h.referral hr with hold | hnew | ⟨r, x, today, rfl, -⟩
    · exact ha.named hold
    · obtain ⟨x, q, hx, -⟩ := hnew.referred
      exact ⟨x, hx⟩
    · exact ⟨x, rfl⟩
  distinct hr := by
    rcases h.referral hr with hold | hnew | ⟨r, x, today, rfl, hdone⟩
    · exact h.grows.otherAccount (ha.distinct hold)
    · exact h.grows.otherAccount hnew.referrer
    · have hother := ha.distinct hdone.result.get_old
      exact h.grows.otherAccount hother
  promised {l} hl hst := by
    rcases h.log with hlog | ⟨l', hP, hlog⟩
    · rw [hlog] at hl
      exact h.grows.promised (ha.promised hl hst)
    · rw [hlog, List.mem_append, List.mem_singleton] at hl
      rcases hl with hl | rfl
      · exact h.grows.promised (ha.promised hl hst)
      · exact h.grows.promised ((hP hst).promised hk ha)
  completed hr hs := by
    rcases h.referral hr with hold | hnew | ⟨r, x, today, rfl, hdone⟩
    · exact h.grows.paid (ha.completed hold hs)
    · rw [hnew.pending] at hs
      cases hs
    · exact ⟨fun hp => h.grows.credited (hdone.advocate hp),
        fun hp => ⟨x, rfl, h.grows.credited (hdone.welcome hp)⟩⟩

end

/-! ## Runs -/

def bonusRows (sourceId : String) (s : Db) : List LoyaltyPointLedger :=
  s.log.filter fun l => l.sourceType == some "referral" && l.sourceId == some sourceId

/-- **What a referral guarantees**, of the referral rows and the ledger. -/
structure ReferralsKept (s : Db) : Prop where
  once {id id' : Id} {r r' : LoyaltyReferral} : s.get .referral id = some r →
    s.get .referral id' = some r' → r.referredCustomerId = r'.referredCustomerId → id = id'
  distinct {id : Id} {r : LoyaltyReferral} : s.get .referral id = some r →
    OtherAccount r.referrerAccountId r.referredCustomerId s
  /-- The advocate bonus is credited at most once, as the row has it. -/
  advocate {id : Id} {r : LoyaltyReferral} : s.get .referral id = some r →
    (bonusRows (advocateKey id) s).length ≤ 1 ∧
      ∀ l ∈ bonusRows (advocateKey id) s, l.accountId = r.referrerAccountId ∧ l.type = .bonus ∧
        l.points = r.referrerBonusPoints
  /-- The welcome bonus is credited at most once, as the row has it. -/
  welcome {id : Id} {r : LoyaltyReferral} : s.get .referral id = some r →
    (bonusRows (welcomeKey id) s).length ≤ 1 ∧
      ∀ l ∈ bonusRows (welcomeKey id) s, r.referredAccountId = some l.accountId ∧
        l.type = .bonus ∧ l.points = r.referredBonusPoints
  completed {id : Id} {r : LoyaltyReferral} : s.get .referral id = some r →
    r.status = .completed → Paid id r s

section

variable {s : Db} {id id' : Id} {r r' : LoyaltyReferral} {l : LoyaltyPointLedger}

theorem mem_bonusRows {sourceId : String} : l ∈ bonusRows sourceId s ↔
    l ∈ s.log ∧ l.sourceType = some "referral" ∧ l.sourceId = some sourceId := by
  simp [bonusRows]

theorem bonusRows_length_le {o x : Id} {sourceId : String} (hk : WellKept s)
    (h : ∀ l ∈ bonusRows sourceId s, l.orgId = o ∧ l.accountId = x ∧ l.type = .bonus) :
    (bonusRows sourceId s).length ≤ 1 := by
  have hkey : ∀ l ∈ bonusRows sourceId s,
      decide (UniqueKey.earnSource o x "referral" sourceId ∈ ledgerKeys l) = true := by
    intro l hl
    obtain ⟨-, hst, hsid⟩ := mem_bonusRows.mp hl
    obtain ⟨ho, ha, ht⟩ := h l hl
    refine decide_eq_true ?_
    unfold ledgerKeys
    rw [ht, hst, hsid, ho, ha]
    exact List.mem_singleton_self _
  rw [← List.filter_eq_self.mpr hkey]
  exact ((List.filter_sublist (p := fun l : LoyaltyPointLedger => _)).filter _).length_le.trans
    (hk.unique.log _)

theorem ReferralsOk.advocate (hs : ReferralsOk s) (hr : s.get .referral id = some r)
    (hl : l ∈ bonusRows (advocateKey id) s) :
    l.orgId = r.orgId ∧ l.accountId = r.referrerAccountId ∧ l.type = .bonus ∧
      l.points = r.referrerBonusPoints := by
  obtain ⟨hlog, hst, hsid⟩ := mem_bonusRows.mp hl
  obtain ⟨id', r', hr', ho, ht, ⟨hkey, ha, hp⟩ | ⟨hkey, -⟩⟩ := hs.promised hlog hst
  · have hid : id' = id := advocateKey_injective (Option.some.inj (hkey.symm.trans hsid))
    subst hid
    cases hr'.symm.trans hr
    exact ⟨ho, ha, ht, hp⟩
  · exact absurd (Option.some.inj (hsid.symm.trans hkey)) (advocateKey_ne_welcomeKey _ _)

theorem ReferralsOk.welcome (hs : ReferralsOk s) (hr : s.get .referral id = some r)
    (hl : l ∈ bonusRows (welcomeKey id) s) :
    l.orgId = r.orgId ∧ r.referredAccountId = some l.accountId ∧ l.type = .bonus ∧
      l.points = r.referredBonusPoints := by
  obtain ⟨hlog, hst, hsid⟩ := mem_bonusRows.mp hl
  obtain ⟨id', r', hr', ho, ht, ⟨hkey, -⟩ | ⟨hkey, ha, hp⟩⟩ := hs.promised hlog hst
  · exact absurd (Option.some.inj (hkey.symm.trans hsid)) (advocateKey_ne_welcomeKey _ _)
  · have hid : id' = id := welcomeKey_injective (Option.some.inj (hkey.symm.trans hsid))
    subst hid
    cases hr'.symm.trans hr
    exact ⟨ho, ha, ht, hp⟩

theorem ReferralsOk.once (hs : ReferralsOk s) (hk : WellKept s) (hr : s.get .referral id = some r)
    (hr' : s.get .referral id' = some r')
    (hc : r.referredCustomerId = r'.referredCustomerId) : id = id' := by
  obtain ⟨x, hx⟩ := hs.named hr
  obtain ⟨y, hy⟩ := hs.named hr'
  obtain ⟨q, hq, hqc⟩ := hk.referred hr hx
  obtain ⟨q', hq', hqc'⟩ := hk.referred hr' hy
  have hxy : x = y := hk.holder hq hq' (hqc.trans (hc.trans hqc'.symm))
  have owns : ∀ {i : Id} {p : LoyaltyReferral}, s.get .referral i = some p →
      p.referredAccountId = some y → s.Owns (.referred y) .referral i := fun hp hpy =>
    ⟨_, hp, by show _ ∈ uniqueKeys .referral _; simp [uniqueKeys, hpy]⟩
  exact hk.unique.row (owns hr (hxy ▸ hx)) (owns hr' hy)

/-- **The invariant is the guarantee**, with the unique indexes. -/
theorem ReferralsOk.kept (hs : ReferralsOk s) (hk : WellKept s) : ReferralsKept s where
  once hr hr' hc := hs.once hk hr hr' hc
  distinct hr := hs.distinct hr
  advocate {id r} hr := by
    refine ⟨bonusRows_length_le (o := r.orgId) (x := r.referrerAccountId) hk fun l hl => ?_,
      fun l hl => (hs.advocate hr hl).2⟩
    obtain ⟨ho, ha, ht, -⟩ := hs.advocate hr hl
    exact ⟨ho, ha, ht⟩
  welcome {id r} hr := by
    obtain ⟨x, hx⟩ := hs.named hr
    refine ⟨bonusRows_length_le (o := r.orgId) (x := x) hk fun l hl => ?_,
      fun l hl => (hs.welcome hr hl).2⟩
    obtain ⟨ho, ha, ht, -⟩ := hs.welcome hr hl
    exact ⟨ho, Option.some.inj (ha.symm.trans hx), ht⟩
  completed hr hc := hs.completed hr hc

end

/-- **Referral bonuses are paid exactly once.** In every interleaving of requests, with any of their
transactions failing at any point, as long as no caller posts under a referral source of its own. -/
theorem reach_referrals {db : Db} {reqs : List Request} {c : Run} (hdb : WellKept db)
    (h0 : ReferralsOk db) (ha : ∀ req ∈ reqs, req.Allowed OnlyBonuses)
    (h : Reach Always (start db reqs) c) : ReferralsKept c.db := by
  have hinv : WellKept c.db ∧ ReferralsOk c.db :=
    reach_invariant (F := fun s => WellKept s ∧ ReferralsOk s) onlyBonuses_policy hdb ha
      (fun _ _ hs hF => ⟨hs.wellKept hF.1, hs.referralsOk hF.1 hF.2⟩) ⟨hdb, h0⟩ h
  exact hinv.2.kept hinv.1

theorem referralsOk_of_none {s : Db} (hr : ∀ id, s.get .referral id = none) (hl : s.log = []) :
    ReferralsOk s where
  named h := by rw [hr] at h; cases h
  distinct h := by rw [hr] at h; cases h
  promised h := by rw [hl] at h; cases h
  completed h := by rw [hr] at h; cases h

def friends : Db := onePatron.set .customer 11 { orgId := 1, name := "Bob" }

theorem friends_wellKept : WellKept friends :=
  onePatron_wellKept.insert (by decide) (by decide +kernel) (by decide +kernel)

theorem friends_referralsOk : ReferralsOk friends := referralsOk_of_none (fun _ => rfl) rfl

/-- A referral, and two purchases that complete it. -/
def referAndBuy : List Request :=
  [.applyReferral 1 "aaaa2222" 11, .completePending 1 11, .completePending 1 11]

/-- The first purchase dies between the two bonuses; the second completes the referral. -/
def diesBetween : List (ℕ × Move Err) :=
  List.replicate 51 (0, .go 1) ++ List.replicate 24 (1, .go 1) ++ [(1, .crash)] ++
    List.replicate 161 (2, .go 1)

set_option maxRecDepth 100000 in
theorem reach_referrals_diesBetween : ∃ c : Run, Reach Always (start friends referAndBuy) c ∧
    (c.db.get .referral 1).map (·.status) = some .completed ∧
      c.db.log.map (·.points) = [50, 25] ∧ ReferralsKept c.db := by
  obtain ⟨c, hc, hp⟩ := exists_reach_anywhere
    (start friends referAndBuy) diesBetween
    (fun c => decide ((c.db.get .referral 1).map (·.status) = some .completed ∧
      c.db.log.map (·.points) = [50, 25])) (by decide +kernel)
  obtain ⟨hs, hl⟩ := of_decide_eq_true hp
  have hallowed : ∀ req ∈ referAndBuy, req.Allowed OnlyBonuses := by
    simp [referAndBuy, Request.Allowed]
  exact ⟨c, hc, hs, hl, reach_referrals friends_wellKept friends_referralsOk hallowed hc⟩

end PatronLoyalty.Loyalty
