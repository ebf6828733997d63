import PatronLoyalty.Loyalty.PurchasePaths

/-!
# Purchases with line items

A per-dollar rule with filters counts the items they let through. Nothing ties the sum of these items to
the amount that was paid, which discounts lower; a sum below zero, of returns, earns the one point that
stands for a dollar; and a purchase of which no rule counts anything earns a point a dollar after all.

Headline: **`earnsWithin_iff`**, when a purchase earns no more than a point a dollar, and nothing for
items that every rule leaves out.
-/

namespace PatronLoyalty.Loyalty

open Txn

variable {env : Env} {s : Db} {orgId : Id} {n : ℕ} {ctx : EarnContext} {cents : ℤ}
  {rule : LoyaltyEarnRule} {rules : List LoyaltyEarnRule}

/-! ## Items -/

def AllIneligible (ctx : EarnContext) (rules : List LoyaltyEarnRule) : Prop :=
  ∀ rule ∈ rules, ∀ item ∈ ctx.lineItems, rule.conditions.eligible item = false

theorem eligible_of_not_filtersItems {c : RuleConditions} (h : c.filtersItems = false)
    (item : LineItem) : c.eligible item = true := by
  simp only [RuleConditions.filtersItems, Bool.or_eq_false_iff, Option.isSome_eq_false_iff,
    Option.isNone_iff_eq_none] at h
  obtain ⟨⟨⟨hic, hec⟩, his⟩, hes⟩ := h
  simp [RuleConditions.eligible, hic, hec, his, hes]

theorem eligibleAmount_of_ineligible (ha : ctx.purchaseAmountCents = some cents)
    (h : AllIneligible ctx rules) (hr : rule ∈ rules) :
    eligibleAmountCents rule.conditions ctx = if ctx.lineItems = [] then cents else 0 := by
  unfold eligibleAmountCents
  cases hitems : ctx.lineItems with
  | nil => simp [ha]
  | cons item items =>
    have hnone : ∀ i ∈ item :: items, rule.conditions.eligible i = false := by
      rw [← hitems]
      exact h rule hr
    have hfilters : rule.conditions.filtersItems = true := by
      by_contra hno
      have htrue := eligible_of_not_filtersItems (Bool.eq_false_iff.mpr hno) item
      rw [hnone item List.mem_cons_self] at htrue
      cases htrue
    have hfilter : (item :: items).filter rule.conditions.eligible = [] := by
      rw [List.filter_eq_nil_iff]
      exact fun i hi => by rw [hnone i hi]; simp
    rw [hfilters, hfilter]
    simp

/-! ## Per-dollar rules -/

def counts (ctx : EarnContext) (rule : LoyaltyEarnRule) : Bool :=
  decide (eligibleAmountCents rule.conditions ctx ≠ 0 ∨ ctx.purchaseAmountCents.getD 0 ≤ 0)

def perDollar (eligible : ℤ) : ℤ := if 0 < eligible then eligible / 100 else 1

theorem award_perDollar (hp : rule.points = 1) :
    rule.award .purchase ctx =
      if counts ctx rule then some (perDollar (eligibleAmountCents rule.conditions ctx))
      else none := by
  unfold LoyaltyEarnRule.award counts perDollar
  simp only [hp, true_and, decide_eq_true_eq]
  by_cases hpos : 0 < eligibleAmountCents rule.conditions ctx
  · rw [if_pos hpos, if_pos (Or.inl hpos.ne'), if_pos hpos]
  · rw [if_neg hpos]
    by_cases hskip : eligibleAmountCents rule.conditions ctx = 0 ∧
        0 < ctx.purchaseAmountCents.getD 0
    · rw [if_pos hskip, if_neg (by omega)]
    · rw [if_neg hskip, if_pos (by omega), if_neg hpos]

/-- Among per-dollar rules the first that is not skipped decides. -/
theorem findSome?_award (hp : ∀ rule ∈ rules, rule.points = 1) :
    (rules.findSome? fun rule => rule.award .purchase ctx) =
      (rules.find? (counts ctx)).map fun rule =>
        perDollar (eligibleAmountCents rule.conditions ctx) := by
  induction rules with
  | nil => rfl
  | cons rule rules ih =>
    rw [List.findSome?_cons, List.find?_cons, award_perDollar (hp rule List.mem_cons_self)]
    cases counts ctx rule with
    | true => rfl
    | false => exact ih fun r hr => hp r (List.mem_cons_of_mem _ hr)

/-! ## Points and amounts -/

/-- **No more than a point a dollar**, and nothing for items that every matching rule leaves out. -/
structure EarnsWithin (ctx : EarnContext) (cents : ℤ) (rules : List LoyaltyEarnRule)
    (points : ℤ) : Prop where
  nonneg : 0 ≤ points
  le : points ≤ cents / 100
  filtered : rules ≠ [] → AllIneligible ctx rules → points = 0

/-- **When the matching rules keep a purchase within its amount.** The rule that decides counts no more
dollars than were paid, or, where it counts less than nothing or nothing was paid, a dollar was paid for
its one point; a purchase of nothing that no rule matches has no default points; and of items that all
rules leave out less than a dollar was paid. -/
structure Fair (ctx : EarnContext) (cents : ℤ) (rules : List LoyaltyEarnRule)
    (defaultEarnPoints : ℤ) : Prop where
  counted : ∀ rule, rules.find? (counts ctx) = some rule →
    (0 < eligibleAmountCents rule.conditions ctx →
      eligibleAmountCents rule.conditions ctx / 100 ≤ cents / 100) ∧
    (eligibleAmountCents rule.conditions ctx ≤ 0 → 100 ≤ cents)
  unmatched : rules = [] → cents = 0 → defaultEarnPoints = 0
  filtered : rules ≠ [] → AllIneligible ctx rules → 0 < cents ∧ cents < 100

theorem earnsWithin_perDollar {eligible : ℤ} :
    (0 ≤ perDollar eligible ∧ perDollar eligible ≤ cents / 100) ↔
      (0 < eligible → eligible / 100 ≤ cents / 100) ∧ (eligible ≤ 0 → 100 ≤ cents) := by
  unfold perDollar
  split
  · rename_i hpos
    constructor
    · exact fun h => ⟨fun _ => h.2, fun hle => absurd hpos (by omega)⟩
    · exact fun h => ⟨by omega, h.1 hpos⟩
  · rename_i hneg
    constructor
    · exact fun h => ⟨fun hpos => absurd hpos hneg, fun _ => by omega⟩
    · exact fun h => ⟨by omega, by have := h.2 (by omega); omega⟩

/-- The rule that decides. -/
theorem earnsWithin_of_counted (ha : ctx.purchaseAmountCents = some cents)
    (hfind : rules.find? (counts ctx) = some rule) {d : ℤ} :
    EarnsWithin ctx cents rules (perDollar (eligibleAmountCents rule.conditions ctx)) ↔
      Fair ctx cents rules d := by
  have hmem := List.mem_of_find?_eq_some hfind
  have hcounts : eligibleAmountCents rule.conditions ctx ≠ 0 ∨ cents ≤ 0 := by
    simpa [counts, ha] using List.find?_some hfind
  have hne : rules ≠ [] := List.ne_nil_of_mem hmem
  constructor
  · intro h
    refine ⟨fun r hr => ?_, fun hnil => absurd hnil hne, fun _ hall => ?_⟩
    · obtain rfl : rule = r := Option.some.inj (hfind.symm.trans hr)
      exact earnsWithin_perDollar.mp ⟨h.nonneg, h.le⟩
    · have hzero := h.filtered hne hall
      rw [eligibleAmount_of_ineligible ha hall hmem] at hzero
      unfold perDollar at hzero
      split at hzero <;> split at hzero <;> omega
  · intro h
    have hwithin := earnsWithin_perDollar.mpr (h.counted rule hfind)
    refine ⟨hwithin.1, hwithin.2, fun _ hall => ?_⟩
    have hcents := h.filtered hne hall
    rw [eligibleAmount_of_ineligible ha hall hmem] at hcounts ⊢
    unfold perDollar
    split at hcounts <;> split <;> omega

/-- No rule decides. -/
theorem earnsWithin_fallback {program : LoyaltyProgram} (ha : ctx.purchaseAmountCents = some cents)
    (hc : 0 ≤ cents) (hfind : rules.find? (counts ctx) = none) :
    EarnsWithin ctx cents rules (program.fallback .purchase ctx) ↔
      Fair ctx cents rules program.defaultEarnPoints := by
  have hpos : rules ≠ [] → 0 < cents := by
    intro hne
    obtain ⟨rule, hr⟩ := List.exists_mem_of_ne_nil rules hne
    have hskip := List.find?_eq_none.mp hfind rule hr
    simp only [counts, ha, Option.getD_some, decide_eq_true_eq, not_or, not_le] at hskip
    exact hskip.2
  have hnil : cents = 0 → rules = [] := fun h0 => by
    by_contra hne
    have := hpos hne
    omega
  unfold LoyaltyProgram.fallback
  simp only [ha, Option.getD_some, true_and]
  by_cases h0 : 0 < cents
  · rw [if_pos h0]
    constructor
    · intro h
      refine ⟨fun r hr => ?_, fun _ hz => by omega, fun hne hall => ⟨h0, ?_⟩⟩
      · rw [hfind] at hr
        cases hr
      · have := h.filtered hne hall
        omega
    · intro h
      refine ⟨by omega, le_refl _, fun hne hall => ?_⟩
      have := h.filtered hne hall
      omega
  · rw [if_neg h0]
    have hz : cents = 0 := by omega
    constructor
    · intro h
      refine ⟨fun r hr => ?_, fun _ _ => ?_, fun hne _ => absurd (hnil hz) hne⟩
      · rw [hfind] at hr
        cases hr
      · have := h.nonneg
        have := h.le
        omega
    · intro h
      have hd := h.unmatched (hnil hz) hz
      exact ⟨by omega, by omega, fun hne _ => absurd (hnil hz) hne⟩

def matchingRules (env : Env) (n : ℕ) (orgId : Id) (s : Db) (ctx : EarnContext) :
    List LoyaltyEarnRule :=
  (purchaseProgram env n orgId s).elim [] fun p =>
    p.2.filter fun rule => rule.conditions.met orgId ctx env.today s

/-- **A purchase earns within its amount** exactly when the matching rules are fair to it: for every
program with per-dollar rules, every ledger, time, amount and list of items. -/
theorem earnsWithin_iff (env : Env) (n : ℕ) (s : Db) (orgId : Id) (ctx : EarnContext) {cents : ℤ}
    (ha : ctx.purchaseAmountCents = some cents) (hc : 0 ≤ cents)
    (hp : ∀ program rules, purchaseProgram env n orgId s = some (program, rules) →
      ∀ rule ∈ rules, rule.points = 1) :
    (∃ points, ((resolveEarnPoints orgId .purchase ctx).eval env n s).answer = .ok points ∧
      EarnsWithin ctx cents (matchingRules env n orgId s ctx) points) ↔
    ∀ program rules, purchaseProgram env n orgId s = some (program, rules) →
      Fair ctx cents (matchingRules env n orgId s ctx) program.defaultEarnPoints := by
  rw [eval_resolveEarnPoints_award]
  simp only [Except.ok.injEq, exists_eq_left']
  unfold matchingRules
  cases hprogram : purchaseProgram env n orgId s with
  | none =>
    refine ⟨fun _ _ _ h => (by cases h), fun _ => ⟨le_refl _, ?_, fun hne => absurd rfl hne⟩⟩
    exact Int.ediv_nonneg hc (by omega)
  | some p =>
    obtain ⟨program, rules⟩ := p
    simp only [Option.elim_some, Option.some.injEq, Prod.mk.injEq, and_imp, forall_eq',
      forall_apply_eq_imp_iff]
    rw [findSome?_award fun rule hr => hp _ _ hprogram rule (List.mem_of_mem_filter hr)]
    cases hfind : (rules.filter fun rule => rule.conditions.met orgId ctx env.today s).find?
        (counts ctx) with
    | none => exact earnsWithin_fallback ha hc hfind
    | some rule => exact earnsWithin_of_counted ha hfind

/-! ## Gift cards -/

def noGiftCards : LoyaltyEarnRule :=
  { dollarRule with conditions := { excludedCategories := some ["gift-cards"] } }

def fiftyDollars (categoryId : String) : EarnContext :=
  { purchaseAmountCents := some 5000
    lineItems := [{ id := "1", categoryId := some categoryId, priceCents := 5000, quantity := 1 }] }

theorem purchaseProgram_noGiftCards :
    purchaseProgram (enabledAt 0) 0 1 (programWith noGiftCards) =
      some ({ orgId := 1 }, [noGiftCards]) := rfl

theorem earnsWithin_book : ∃ points,
    ((resolveEarnPoints 1 .purchase (fiftyDollars "books")).eval (enabledAt 0) 0
      (programWith noGiftCards)).answer = .ok points ∧
    EarnsWithin (fiftyDollars "books") 5000
      (matchingRules (enabledAt 0) 0 1 (programWith noGiftCards) (fiftyDollars "books")) points := by
  have hmatch : matchingRules (enabledAt 0) 0 1 (programWith noGiftCards) (fiftyDollars "books") =
      [noGiftCards] := rfl
  refine (earnsWithin_iff (enabledAt 0) 0 (programWith noGiftCards) 1 (fiftyDollars "books") rfl
    (by decide) ?_).mpr ?_
  · intro program rules h rule hr
    rw [purchaseProgram_noGiftCards] at h
    cases h
    obtain rfl := List.mem_singleton.mp hr
    rfl
  · intro program rules _
    rw [hmatch]
    refine ⟨fun rule h => ?_, fun h => (List.cons_ne_nil _ _ h).elim, fun _ hall => ?_⟩
    · obtain rfl := List.mem_singleton.mp (List.mem_of_find?_eq_some h)
      decide +kernel
    · have := hall noGiftCards List.mem_cons_self _ List.mem_cons_self
      exact absurd this (by decide +kernel)

/-- **A gift card does, too**, though the one rule leaves gift cards out. -/
theorem exists_filtered_award : ¬ ∀ (env : Env) (n : ℕ) (s : Db) (orgId : Id) (ctx : EarnContext)
    (cents : ℤ), ctx.purchaseAmountCents = some cents → 0 ≤ cents →
      (∀ program rules, purchaseProgram env n orgId s = some (program, rules) →
        ∀ rule ∈ rules, rule.points = 1) →
      ∃ points, ((resolveEarnPoints orgId .purchase ctx).eval env n s).answer = .ok points ∧
        EarnsWithin ctx cents (matchingRules env n orgId s ctx) points := by
  intro hall
  obtain ⟨points, hanswer, hwithin⟩ := hall (enabledAt 0) 0 (programWith noGiftCards) 1
    (fiftyDollars "gift-cards") 5000 rfl (by decide) fun program rules h rule hr => by
      rw [purchaseProgram_noGiftCards] at h
      cases h
      obtain rfl := List.mem_singleton.mp hr
      rfl
  have hmatch : matchingRules (enabledAt 0) 0 1 (programWith noGiftCards)
      (fiftyDollars "gift-cards") = [noGiftCards] := rfl
  have hpoints : ((resolveEarnPoints 1 .purchase (fiftyDollars "gift-cards")).eval (enabledAt 0) 0
      (programWith noGiftCards)).answer = .ok 50 := by
    rw [eval_resolveEarnPoints_award, purchaseProgram_noGiftCards]
    decide +kernel
  have hzero := hwithin.filtered (by rw [hmatch]; exact List.cons_ne_nil _ _) (by
    rw [hmatch]
    intro rule hr item hi
    obtain rfl := List.mem_singleton.mp hr
    obtain rfl := List.mem_singleton.mp hi
    decide +kernel)
  rw [hzero] at hanswer
  exact absurd (Except.ok.inj (hpoints.symm.trans hanswer)) (by decide)

end PatronLoyalty.Loyalty
