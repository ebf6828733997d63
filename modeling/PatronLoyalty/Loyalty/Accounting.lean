import PatronLoyalty.Loyalty.Safety
import PatronLoyalty.Txn.Journal

/-!
# The point ledger balances

The ledger is a journal with running balances. `Balances` is what one account's entries say about
its counters; `LedgerOk` says it of every account. A movement keeps it because the balance and the
row are written together and the row records the balance it left; nothing else moves a counter.

Results: **`Step.ledgerOk`**, every step of the book keeps the ledger; **`reach_balances`**, in every
interleaving of requests, with any failures, every account balances.
-/

namespace PatronLoyalty.Loyalty

open Txn Relation

def pointLedger : Journal LoyaltyPointLedger Id where
  account := (·.accountId)
  amount := (·.points)
  balance := (·.balanceAfter)

/-- The ledger rows of an account, in commit order. -/
def entriesOf (s : Db) (id : Id) : List LoyaltyPointLedger := pointLedger.entries id s.log

/-- The sum of the `points` column. -/
def sumPoints (rows : List LoyaltyPointLedger) : ℤ := pointLedger.total rows

/-- **The counters of an account** are what its ledger rows sum to. -/
structure Balances (a : LoyaltyAccount) (rows : List LoyaltyPointLedger) : Prop where
  balance : a.pointsBalance = sumPoints rows
  nonneg : 0 ≤ a.pointsBalance
  earned : a.lifetimePointsEarned = sumPoints (rows.filter fun l => isLifetimeEarnType l.type)
  burned : a.lifetimePointsBurned = -sumPoints (rows.filter fun l => l.type == .burn)
  running : ∀ pre l post, rows = pre ++ l :: post → l.balanceAfter = sumPoints (pre ++ [l])

/-- Every account balances, and every ledger row has its account. -/
structure LedgerOk (s : Db) : Prop where
  account {id : Id} {a : LoyaltyAccount} : s.get .account id = some a → Balances a (entriesOf s id)
  owned {l : LoyaltyPointLedger} : l ∈ s.log → (s.get .account l.accountId).isSome

/-! ## One movement -/

theorem sumPoints_append (rows rows' : List LoyaltyPointLedger) :
    sumPoints (rows ++ rows') = sumPoints rows + sumPoints rows' := pointLedger.total_append _ _

theorem sumPoints_filter_concat (p : LoyaltyPointLedger → Bool) (rows : List LoyaltyPointLedger)
    (l : LoyaltyPointLedger) :
    sumPoints ((rows ++ [l]).filter p) =
      sumPoints (rows.filter p) + if p l then l.points else 0 := by
  rw [List.filter_append, sumPoints_append]
  cases h : p l
  · simp [h, sumPoints]
  · simp [h, sumPoints, pointLedger, Journal.total]

/-- An account's standing is none of the ledger's business. -/
theorem Balances.of_core {r r' : LoyaltyAccount} {rows : List LoyaltyPointLedger}
    (h : Balances r rows) (hc : r'.core = r.core) : Balances r' rows := by
  obtain ⟨-, -, -, hb, he, hu, -⟩ := core_eq hc
  exact ⟨hb.trans h.balance, hb ▸ h.nonneg, he.trans h.earned, hu.trans h.burned, h.running⟩

theorem Movement.delta_nonneg_or {m : Movement} {r : LoyaltyAccount} (hpos : 0 < m.points)
    (hf : isDebitLedgerType m.type = true → m.points ≤ r.pointsBalance)
    (hr : 0 ≤ r.pointsBalance) : 0 ≤ r.pointsBalance + m.delta := by
  unfold Movement.delta
  split
  · rename_i hd
    have := hf hd
    omega
  · omega

/-- **A movement balances**: counters and row move together. -/
theorem Balances.move {m : Movement} {r : LoyaltyAccount} {rows : List LoyaltyPointLedger}
    (h : Balances r rows) (hpos : 0 < m.points)
    (hf : isDebitLedgerType m.type = true → m.points ≤ r.pointsBalance) :
    Balances (m.move r) (rows ++ [m.row (m.move r).pointsBalance]) where
  balance := by
    rw [sumPoints_append, m.move_balance, h.balance]
    simp [sumPoints, pointLedger, Journal.total, Movement.row]
  nonneg := by
    rw [m.move_balance]
    exact Movement.delta_nonneg_or hpos hf h.nonneg
  earned := by
    rw [sumPoints_filter_concat, ← h.earned]
    unfold Movement.move Movement.row Movement.delta
    cases m.type <;> simp [isDebitLedgerType, isLifetimeEarnType, LoyaltyAccount.debited,
      LoyaltyAccount.credited]
  burned := by
    rw [sumPoints_filter_concat, neg_add, ← h.burned]
    unfold Movement.move Movement.row Movement.delta
    cases m.type <;> simp [isDebitLedgerType, LoyaltyAccount.debited, LoyaltyAccount.credited]
  running := by
    refine Journal.Running.concat pointLedger h.running ?_
    show (m.move r).pointsBalance = sumPoints rows + m.delta
    rw [m.move_balance, h.balance]

/-! ## The book -/

section

variable {P : Db → LoyaltyPointLedger → Prop} {a b : Db}

theorem LedgerOk.same (ha : LedgerOk a) (h : SameBooks a b) : LedgerOk b where
  account hr := by
    rw [h.account] at hr
    unfold entriesOf
    rw [h.log]
    exact ha.account hr
  owned hl := by
    rw [h.log] at hl
    rw [h.account]
    exact ha.owned hl

theorem LedgerOk.replace {id : Id} {old : Option LoyaltyAccount} {new : LoyaltyAccount}
    (ha : LedgerOk a) (h : Rel.Replaced .account id old new a b)
    (hb : Balances new (entriesOf a id)) : LedgerOk b where
  account {id' r} hr := by
    unfold entriesOf
    rw [h.log]
    by_cases hid : id' = id
    · subst hid
      rw [h.get_self] at hr
      cases hr
      exact hb
    · rw [h.get_ne (by simpa using hid)] at hr
      exact ha.account hr
  owned {l} hl := by
    rw [h.log] at hl
    by_cases hid : l.accountId = id
    · rw [hid, h.get_self]
      rfl
    · rw [h.get_ne (by simpa using hid)]
      exact ha.owned hl

theorem LedgerOk.posts {m : Movement} {r r' : LoyaltyAccount} (ha : LedgerOk a)
    (h : Posts m r r' a b) : LedgerOk b where
  account {id q} hq := by
    unfold entriesOf
    rw [h.log]
    by_cases hid : id = m.accountId
    · subst hid
      rw [h.get_self] at hq
      cases hq
      rw [show pointLedger.entries m.accountId (a.log ++ [_]) = entriesOf a m.accountId ++ [_] from
        Journal.entries_concat_self pointLedger rfl]
      exact ((ha.account h.found).move h.positive h.funds).of_core h.moved
    · rw [h.get_ne (by simpa using hid)] at hq
      rw [Journal.entries_concat_ne pointLedger fun he => hid he.symm]
      exact ha.account hq
  owned {l} hl := by
    rw [h.log, List.mem_append, List.mem_singleton] at hl
    by_cases hid : l.accountId = m.accountId
    · rw [hid, h.get_self]
      rfl
    · rw [h.get_ne (by simpa using hid)]
      rcases hl with hl | rfl
      · exact ha.owned hl
      · exact absurd rfl hid

/-- **Every step keeps the ledger.** -/
theorem Step.ledgerOk (h : Step P a b) (ha : LedgerOk a) : LedgerOk b := by
  cases h.onBooks with
  | same h => exact ha.same h
  | opened h =>
    refine ha.replace h ?_
    -- no row can be for an account that did not exist
    rw [entriesOf, Journal.entries_eq_nil pointLedger fun l hl he => ?_]
    · exact ⟨rfl, le_rfl, rfl, rfl, pointLedger.running_nil⟩
    · have := ha.owned hl
      rw [show l.accountId = _ from he, h.get_old] at this
      cases this
  | standing hc h => exact ha.replace h ((ha.account h.get_old).of_core hc)
  | moved _ before h after => exact ((ha.same before).posts h).same after

end

/-- **The point ledger balances.** In every interleaving of requests, with any of their transactions
failing at any point, the counters of every account are what its ledger rows sum to. -/
theorem reach_balances {db : Db} {reqs : List Request} {c : Run} (hdb : WellKept db)
    (h0 : LedgerOk db) (h : Reach Always (start db reqs) c) {id : Id} {a : LoyaltyAccount}
    (ha : c.db.get .account id = some a) : Balances a (entriesOf c.db id) :=
  (reach_invariant (P := fun _ _ => True) policy_true hdb (fun req _ => allowed_true req)
    (fun _ _ hs => hs.ledgerOk) h0 h).account ha

def onePatron : Db :=
  (((Rel.empty.set .program 1 { orgId := 1 }).set .customer 10 { orgId := 1, name := "Ada" }).set
    .account 20 { orgId := 1, customerId := 10, tierId := none, referralCode := "AAAA2222" })

theorem onePatron_wellKept : WellKept onePatron :=
  ((wellKept_empty.insert (by decide) (by decide +kernel) (by decide +kernel)).insert
    (by decide) (by decide +kernel) (by decide +kernel)).insert
    (by decide) (by decide +kernel) (by decide +kernel)

theorem onePatron_ledgerOk : LedgerOk onePatron where
  account {id a} h := by
    by_cases hid : id = 20
    · subst hid
      rw [onePatron, Rel.get_set_self] at h
      cases h
      exact ⟨rfl, le_rfl, rfl, rfl, pointLedger.running_nil⟩
    · rw [onePatron, Rel.get_set_ne (by simpa using hid), Rel.get_set_ne (by simp),
        Rel.get_set_ne (by simp)] at h
      cases h
  owned h := by cases h

def earnAndBurn : List Request :=
  [.applyPoints 1 20 10 .earn { sourceType := "ticket", sourceId := "t-1" },
   .burnPoints 1 20 4 {}]

def burnWaits : List (ℕ × Move Err) :=
  List.replicate 3 (0, .go 1) ++ List.replicate 2 (1, .go 1) ++ List.replicate 16 (0, .go 1) ++
    List.replicate 16 (1, .go 1)

set_option maxRecDepth 100000 in
theorem reach_balances_burnWaits : ∃ (c : Run) (a : LoyaltyAccount),
    Reach Always (start onePatron earnAndBurn) c ∧ c.db.get .account 20 = some a ∧
      a.pointsBalance = 6 ∧ c.db.log.length = 2 ∧ Balances a (entriesOf c.db 20) := by
  obtain ⟨c, hc, hp⟩ := exists_reach_anywhere
    (start onePatron earnAndBurn) burnWaits
    (fun c => decide ((c.db.get .account 20).map (·.pointsBalance) = some 6 ∧
      c.db.log.length = 2)) (by decide +kernel)
  obtain ⟨hb, hl⟩ := of_decide_eq_true hp
  obtain ⟨a, ha, hb⟩ := Option.map_eq_some_iff.mp hb
  exact ⟨c, a, hc, ha, hb, hl, reach_balances onePatron_wellKept onePatron_ledgerOk hc ha⟩

/-- **The services refine the book.** In every interleaving, with any failures, the store moves by
steps of the book, nothing is taken off the record, and the unique indexes hold. -/
theorem reach_refines {db : Db} {reqs : List Request} {c : Run} (hdb : WellKept db)
    (h : Reach Always (start db reqs) c) :
    Steps (fun _ _ => True) db c.db ∧ Grows db c.db ∧ WellKept c.db := by
  have hs := reach_steps policy_true hdb (fun req _ => allowed_true req) h
  exact ⟨hs, hs.grows, hs.wellKept hdb⟩

set_option maxRecDepth 100000 in
theorem reach_refines_burnWaits : ∃ c : Run, c.db.log.length = 2 ∧
    Steps (fun _ _ => True) onePatron c.db ∧ Grows onePatron c.db ∧ WellKept c.db := by
  obtain ⟨c, hc, hp⟩ := exists_reach_anywhere (start onePatron earnAndBurn) burnWaits
    (fun c => decide (c.db.log.length = 2)) (by decide +kernel)
  exact ⟨c, of_decide_eq_true hp, reach_refines onePatron_wellKept hc⟩

end PatronLoyalty.Loyalty
