import PatronLoyalty.Loyalty.Accounting
import PatronLoyalty.Txn.Counting
import PatronLoyalty.Txn.OneShot

/-!
# Wallet accounting

A wallet is a journal of its transactions: a step of the book opens an empty wallet, adjusts one
with its transaction row, or leaves all of them alone (`Step.onWallets`). The rows of a table stand
newest first, so a wallet's statement is its rows from the last to the first.

Headline: **`reach_wallets`**. In every interleaving of requests, with any failures, an account has
one wallet, its balance is the sum of its transactions and not negative, every transaction records
the running sum, a statement only grows at its end, and an adjustment that is refused leaves every
wallet as it was.
-/

namespace PatronLoyalty.Loyalty

open Txn Relation

def walletJournal : Journal LoyaltyWalletTransaction Id where
  account t := t.walletId
  amount t := t.amountCents
  balance t := t.balanceAfter

def statement (walletId : Id) (s : Db) : List LoyaltyWalletTransaction :=
  ((s.rows .walletTransaction fun _ t => t.walletId == walletId).map (·.2)).reverse

/-- What the wallets and their transactions always satisfy. -/
structure WalletsOk (s : Db) : Prop where
  balance {id : Id} {w : LoyaltyWallet} : s.get .wallet id = some w →
    w.balanceCents = walletJournal.total (statement id s)
  funds {id : Id} {w : LoyaltyWallet} : s.get .wallet id = some w → 0 ≤ w.balanceCents
  running (id : Id) : walletJournal.Running (statement id s)
  owned {id : Id} {t : LoyaltyWalletTransaction} : s.get .walletTransaction id = some t →
    ∃ w : LoyaltyWallet, s.get .wallet t.walletId = some w

/-! ## What a step does to the wallets -/

/-- The wallets and their transactions are left alone. -/
structure SameWallets (a b : Db) : Prop where
  wallet : b.tables .wallet = a.tables .wallet
  transaction : b.tables .walletTransaction = a.tables .walletTransaction

/-- Every wallet there is keeps its balance and its transactions. -/
structure WalletsUntouched (a b : Db) : Prop where
  wallet {id : Id} {w : LoyaltyWallet} : a.get .wallet id = some w → b.get .wallet id = some w
  transaction : b.tables .walletTransaction = a.tables .walletTransaction

/-- Nothing, a new empty wallet, or one adjustment. -/
inductive OnWallets (a b : Db) : Prop
  | same (h : SameWallets a b)
  | opened {id orgId accountId : Id} (h : Rel.Replaced .wallet id none { orgId, accountId } a b)
  | adjusted {id transactionId : Id} {w : LoyaltyWallet} {data : WalletAdjust} {createdAt : Time}
      (h : Adjusts id transactionId w data createdAt a b)

section

variable {a b c : Db} {id : Id} {P : Db → LoyaltyPointLedger → Prop}

theorem SameWallets.refl (a : Db) : SameWallets a a := ⟨rfl, rfl⟩

theorem SameWallets.trans (h : SameWallets a b) (h' : SameWallets b c) : SameWallets a c :=
  ⟨h'.wallet.trans h.wallet, h'.transaction.trans h.transaction⟩

theorem sameWallets_of_replaced {k : Kind} {old : Option (Row k)} {new : Row k}
    (hw : Kind.wallet ≠ k) (ht : Kind.walletTransaction ≠ k) (h : Rel.Replaced k id old new a b) :
    SameWallets a b :=
  ⟨h.tables_ne hw, h.tables_ne ht⟩

theorem Posts.sameWallets {m : Movement} {r r' : LoyaltyAccount} (h : Posts m r r' a b) :
    SameWallets a b :=
  (sameWallets_of_replaced (by decide) (by decide) h.replaced).trans
    ⟨by rw [h.pushed.tables], by rw [h.pushed.tables]⟩

theorem TakesStock.sameWallets {rewardId : Id} {counted : Bool}
    (h : TakesStock rewardId counted a b) : SameWallets a b := by
  unfold TakesStock at h
  split at h
  · obtain ⟨w, -, hw⟩ := h
    exact sameWallets_of_replaced (by decide) (by decide) hw
  · rw [h]
    exact .refl a

theorem ReturnsStock.sameWallets {rewardId : Id} {counted : Bool}
    (h : ReturnsStock rewardId counted a b) : SameWallets a b := by
  unfold ReturnsStock at h
  split at h
  · obtain ⟨w, hw⟩ := h
    exact sameWallets_of_replaced (by decide) (by decide) hw
  · rw [h]
    exact .refl a

theorem Provision.onWallets (h : Provision a b) : OnWallets a b := by
  cases h with
  | elsewhere hk _ h =>
    exact .same (sameWallets_of_replaced (fun he => by subst he; cases hk)
      (fun he => by subst he; cases hk) h)
  | openAccount _ h => exact .same (sameWallets_of_replaced (by decide) (by decide) h)
  | openWallet _ h => exact .opened h

/-- **Every step adjusts at most one wallet**, with one transaction. -/
theorem Step.onWallets (h : Step P a b) : OnWallets a b := by
  cases h with
  | provision h => exact h.onWallets
  | standing _ h => exact .same (sameWallets_of_replaced (by decide) (by decide) h)
  | post _ h => exact .same h.sameWallets
  | progress _ h => exact .same (sameWallets_of_replaced (by decide) (by decide) h)
  | redeem _ h =>
    obtain ⟨a1, a2, hp, hs, hr⟩ := h.steps
    exact .same (hp.sameWallets.trans (hs.sameWallets.trans
      (sameWallets_of_replaced (by decide) (by decide) hr)))
  | fulfil _ h => exact .same (sameWallets_of_replaced (by decide) (by decide) h)
  | cancel _ h =>
    obtain ⟨a1, a2, hr, hp, hs⟩ := h.steps
    exact .same ((sameWallets_of_replaced (by decide) (by decide) hr).trans
      (hp.sameWallets.trans hs.sameWallets))
  | refer h => exact .same (sameWallets_of_replaced (by decide) (by decide) h.result)
  | complete h => exact .same (sameWallets_of_replaced (by decide) (by decide) h.result)
  | adjust h => exact .adjusted h

theorem WalletsUntouched.refl (a : Db) : WalletsUntouched a a := ⟨fun h => h, rfl⟩

theorem WalletsUntouched.trans (h : WalletsUntouched a b) (h' : WalletsUntouched b c) :
    WalletsUntouched a c :=
  ⟨fun hw => h'.wallet (h.wallet hw), h'.transaction.trans h.transaction⟩

theorem SameWallets.get (h : SameWallets a b) (id : Id) : b.get .wallet id = a.get .wallet id := by
  unfold Rel.get
  rw [h.wallet]

theorem SameWallets.untouched (h : SameWallets a b) : WalletsUntouched a b :=
  ⟨fun hw => (h.get _).trans hw, h.transaction⟩

theorem untouched_of_opened {orgId accountId : Id}
    (h : Rel.Replaced .wallet id none { orgId, accountId } a b) : WalletsUntouched a b where
  wallet {id' w} hw := by
    rw [h.get_ne fun he => ?_]
    · exact hw
    · cases he
      rw [h.get_old] at hw
      cases hw
  transaction := h.tables_ne (by decide)

theorem Provision.walletsUntouched (h : Provision a b) : WalletsUntouched a b := by
  cases h with
  | elsewhere hk _ h =>
    exact (sameWallets_of_replaced (fun he => by subst he; cases hk)
      (fun he => by subst he; cases hk) h).untouched
  | openAccount _ h => exact (sameWallets_of_replaced (by decide) (by decide) h).untouched
  | openWallet _ h => exact untouched_of_opened h

theorem Provisions.walletsUntouched (h : Provisions a b) : WalletsUntouched a b := by
  induction h with
  | refl => exact .refl a
  | tail _ hs ih => exact ih.trans hs.walletsUntouched

/-! ## Statements -/

theorem mem_statement {walletId : Id} {s : Db} {t : LoyaltyWalletTransaction} :
    t ∈ statement walletId s ↔
      ∃ id, s.get .walletTransaction id = some t ∧ t.walletId = walletId := by
  unfold statement
  rw [List.mem_reverse, List.mem_map]
  constructor
  · rintro ⟨⟨id, t'⟩, hm, rfl⟩
    obtain ⟨hg, hp⟩ := Rel.mem_rows.mp hm
    exact ⟨id, hg, eq_of_beq hp⟩
  · rintro ⟨id, hg, rfl⟩
    exact ⟨(id, t), Rel.mem_rows.mpr ⟨hg, by simp⟩, rfl⟩

theorem WalletsUntouched.statement (h : WalletsUntouched a b) (walletId : Id) :
    statement walletId b = statement walletId a := by
  unfold Loyalty.statement Rel.rows
  rw [h.transaction]

namespace Adjusts

variable {id transactionId : Id} {w : LoyaltyWallet} {data : WalletAdjust} {createdAt : Time}

theorem wallet (h : Adjusts id transactionId w data createdAt a b) :
    a.get .wallet id = some w ∧ b.get .wallet id = some (w.add data.delta) ∧
      ∀ id', id' ≠ id → b.get .wallet id' = a.get .wallet id' := by
  obtain ⟨a1, hw, ht⟩ := h.steps
  refine ⟨hw.get_old, (ht.get_ne (by simp)).trans hw.get_self, fun id' hid => ?_⟩
  exact (ht.get_ne (by simp)).trans (hw.get_ne (by simpa using hid))

theorem transaction (h : Adjusts id transactionId w data createdAt a b) {id' : Id}
    {t : LoyaltyWalletTransaction} (ht : b.get .walletTransaction id' = some t) :
    t.walletId = id ∨ a.get .walletTransaction id' = some t := by
  obtain ⟨a1, hw, htx⟩ := h.steps
  by_cases hid : id' = transactionId
  · subst hid
    rw [htx.get_self] at ht
    cases ht
    exact Or.inl rfl
  · rw [htx.get_ne (by simpa using hid), hw.get_ne (by simp)] at ht
    exact Or.inr ht

/-- **The statement grows by the transaction.** -/
theorem statement (h : Adjusts id transactionId w data createdAt a b) (walletId : Id) :
    Loyalty.statement walletId b = Loyalty.statement walletId a ++
      if walletId = id then [data.row w.orgId id (w.balanceCents + data.delta) createdAt] else [] := by
  obtain ⟨a1, hw, ht⟩ := h.steps
  have hsame : a1.rows .walletTransaction (fun _ t => t.walletId == walletId) =
      a.rows .walletTransaction fun _ t => t.walletId == walletId := by
    unfold Rel.rows
    rw [hw.tables_ne (by decide)]
  have hnew : b.rows .walletTransaction (fun _ t => t.walletId == walletId) = _ :=
    ht.2.2 ▸ Rel.rows_set_of_new ht.get_old _
  unfold Loyalty.statement
  rw [hnew, hsame, List.map_append, List.reverse_append]
  congr 1
  by_cases hid : walletId = id
  · simp [WalletAdjust.row, hid]
  · simp [WalletAdjust.row, hid, Ne.symm hid]

theorem balance_nonneg (h : Adjusts id transactionId w data createdAt a b)
    (hw : 0 ≤ w.balanceCents) : 0 ≤ (w.add data.delta).balanceCents := by
  have hvalid := data.valid
  have hfunds := h.funds
  unfold LoyaltyWallet.add WalletAdjust.delta
  by_cases hd : data.type = .debit
  · rw [if_pos hd]
    have := hfunds hd
    dsimp only
    omega
  · rw [if_neg hd]
    dsimp only
    omega

end Adjusts

/-! ## The invariant -/

theorem WalletsOk.statement_nil (ha : WalletsOk a) (hid : a.get .wallet id = none) :
    statement id a = [] := by
  refine List.eq_nil_iff_forall_not_mem.mpr fun t ht => ?_
  obtain ⟨txId, hg, hw⟩ := mem_statement.mp ht
  obtain ⟨w, hw'⟩ := ha.owned hg
  rw [hw, hid] at hw'
  cases hw'

theorem WalletsOk.of_same (ha : WalletsOk a) (h : SameWallets a b) : WalletsOk b where
  balance {id w} hw := by
    rw [h.untouched.statement]
    exact ha.balance ((h.get id).symm.trans hw)
  funds {id w} hw := ha.funds ((h.get id).symm.trans hw)
  running id := by
    rw [h.untouched.statement]
    exact ha.running id
  owned {id t} ht := by
    unfold Rel.get at ht
    rw [h.transaction] at ht
    obtain ⟨w, hw⟩ := ha.owned ht
    exact ⟨w, (h.get _).trans hw⟩

theorem WalletsOk.of_opened (ha : WalletsOk a) {orgId accountId : Id}
    (h : Rel.Replaced .wallet id none { orgId, accountId } a b) : WalletsOk b := by
  have hu := untouched_of_opened h
  have hget : ∀ {id' : Id} {w : LoyaltyWallet}, b.get .wallet id' = some w →
      a.get .wallet id' = some w ∨ id' = id ∧ w.balanceCents = 0 := by
    intro id' w hw
    by_cases hid : id' = id
    · subst hid
      rw [h.get_self] at hw
      cases hw
      exact Or.inr ⟨rfl, rfl⟩
    · exact Or.inl ((h.get_ne (by simpa using hid)).symm.trans hw)
  refine ⟨fun {id' w} hw => ?_, fun {id' w} hw => ?_, fun id' => ?_, fun {id' t} ht => ?_⟩
  · rw [hu.statement]
    rcases hget hw with hold | ⟨rfl, hzero⟩
    · exact ha.balance hold
    · rw [ha.statement_nil h.get_old, hzero]
      rfl
  · rcases hget hw with hold | ⟨-, hzero⟩
    · exact ha.funds hold
    · exact hzero.ge
  · rw [hu.statement]
    exact ha.running id'
  · unfold Rel.get at ht
    rw [hu.transaction] at ht
    obtain ⟨w, hw⟩ := ha.owned ht
    exact ⟨w, hu.wallet hw⟩

theorem WalletsOk.of_adjusted (ha : WalletsOk a) {transactionId : Id} {w : LoyaltyWallet}
    {data : WalletAdjust} {createdAt : Time} (h : Adjusts id transactionId w data createdAt a b) :
    WalletsOk b := by
  obtain ⟨hold, hnew, hothers⟩ := h.wallet
  refine ⟨fun {id' q} hq => ?_, fun {id' q} hq => ?_, fun id' => ?_, fun {txId t} ht => ?_⟩
  · rw [h.statement]
    by_cases hid : id' = id
    · subst hid
      rw [hnew] at hq
      cases hq
      rw [if_pos rfl, Journal.total_append, Journal.total_singleton, ← ha.balance hold]
      rfl
    · rw [if_neg hid, List.append_nil]
      exact ha.balance ((hothers id' hid).symm.trans hq)
  · by_cases hid : id' = id
    · subst hid
      rw [hnew] at hq
      cases hq
      exact h.balance_nonneg (ha.funds hold)
    · exact ha.funds ((hothers id' hid).symm.trans hq)
  · rw [h.statement]
    by_cases hid : id' = id
    · subst hid
      rw [if_pos rfl]
      refine Journal.Running.concat walletJournal (ha.running id') ?_
      rw [← ha.balance hold]
      rfl
    · rw [if_neg hid, List.append_nil]
      exact ha.running id'
  · rcases h.transaction ht with hid | hold'
    · exact ⟨_, by rw [hid]; exact hnew⟩
    · obtain ⟨q, hq⟩ := ha.owned hold'
      by_cases hid : t.walletId = id
      · exact ⟨_, by rw [hid]; exact hnew⟩
      · exact ⟨q, (hothers _ hid).trans hq⟩

/-- **Every step keeps the wallets.** -/
theorem Step.walletsOk (h : Step P a b) (ha : WalletsOk a) :
    WalletsOk b := by
  cases h.onWallets with
  | same h => exact ha.of_same h
  | opened h => exact ha.of_opened h
  | adjusted h => exact ha.of_adjusted h

/-- **A statement only grows at its end.** -/
theorem Step.statement_prefix (h : Step P a b)
    (walletId : Id) : statement walletId a <+: statement walletId b := by
  cases h.onWallets with
  | same h => simp [h.untouched.statement]
  | opened h => simp [(untouched_of_opened h).statement]
  | adjusted h =>
    rw [h.statement]
    exact List.prefix_append _ _

end

/-! ## One adjustment -/

def Request.adjusts : Request → Option (Id × WalletAdjust)
  | .adjustWallet orgId _ data | .integrationAdjustWallet orgId _ data => some (orgId, data)
  | _ => none

def AdjustEffect (orgId : Id) (data : WalletAdjust) : Answer → Db → Db → Prop
  | .wallet w => Adjusted orgId w.1 data
  | _ => fun _ _ => False

section

variable {orgId : Id} {data : WalletAdjust} {s : Db}

/-- What an adjustment relies on. -/
abbrev anyHistory (_ : Hist) (s : Db) : Prop := WellKept s

/-- **The protocol of an adjustment.** -/
abbrev adjustment (orgId : Id) (data : WalletAdjust) : Protocol Db Err Ev Answer anyStep :=
  .ofHistory _ anyHistory (OneShot WalletsUntouched (AdjustEffect orgId data))

abbrev clearAdjustment : Protocol Db Err Ev Answer anyStep :=
  .ofHistory _ anyHistory (Clear WalletsUntouched)

theorem clearAdjustment_quiet : clearAdjustment.Quiet := clear_quiet WalletsUntouched.refl

theorem clearAdjustment_provisions : clearAdjustment.Admits Provisions :=
  clear_admits fun _ _ h => ⟨h.steps, h.walletsUntouched⟩

theorem adjustWallet_comes {customerId : Id} {h : Hist} (hh : Clear WalletsUntouched h) :
    Call.wp (adjustment orgId data) (Comes WalletsUntouched (AdjustEffect orgId data) Answer.wallet)
      (adjustWallet orgId customerId data) h s := by
  have hgrows : ∀ a b, anyStep.rel a b → Grows a b := fun _ _ h => Steps.grows h
  refine wp_clear_bind requireEnabled_tame hh trivial (fun _ h1 s1 _ _ hc1 => ?_)
    fun _ _ _ hc => hc
  refine wp_clear_bind (ensureAccountOrThrow_ensures hgrows clearAdjustment_quiet
    clearAdjustment_provisions customerId) hc1 trivial (fun account h2 s2 _ hacc hc2 => ?_)
    fun _ _ _ hc => hc
  refine wp_clear_bind (ensureWallet_ensures hgrows clearAdjustment_quiet
    clearAdjustment_provisions account) hc2 hacc (fun wallet h3 s3 _ _ hc3 => ?_)
    fun _ _ _ hc => hc
  refine Call.wp_bind (Call.wp_mono (fun r h4 s4 hr => ?_) (wp_act (s := s3)
    (t := adjustWalletTx orgId wallet.1 data) (f := fun w => Answer.wallet (wallet.1, w)) hc3
    (fun _ _ => wp_adjustWalletTx) fun w a b _ hR => ⟨?_, hR⟩))
  · cases r with
    | ok w => exact hr
    | error e => exact hr
  · obtain ⟨_, _, _, _, hR⟩ := hR
    exact .single (.adjust hR)

theorem Request.adjusts_safe {req : Request} (h : req.adjusts = some (orgId, data)) (s : Db) :
    Safe (adjustment orgId data) req.call s := by
  cases req
  case adjustWallet =>
    cases h
    exact oneShot_safe_of_bind fun s' _ _ => adjustWallet_comes clear_start
  case integrationAdjustWallet =>
    cases h
    refine oneShot_safe_of_bind fun s' _ _ => ?_
    exact wp_clear_bind (resolveCustomerOrThrow_tame clearAdjustment_quiet
      clearAdjustment_provisions _) clear_start trivial
      (fun _ h1 s1 _ _ hc1 => adjustWallet_comes hc1) fun _ _ _ hc => hc
  all_goals cases h

end

/-! ## A run -/

/-- **What the wallets promise.** -/
structure WalletsKept (s : Db) : Prop where
  one {x y : Id} {v w : LoyaltyWallet} : s.get .wallet x = some v → s.get .wallet y = some w →
    v.accountId = w.accountId → x = y
  balance {id : Id} {w : LoyaltyWallet} : s.get .wallet id = some w →
    w.balanceCents = walletJournal.total (statement id s)
  /-- It is never negative. -/
  funds {id : Id} {w : LoyaltyWallet} : s.get .wallet id = some w → 0 ≤ w.balanceCents
  /-- In commit order, every transaction records the running sum. -/
  running (id : Id) : walletJournal.Running (statement id s)

theorem WalletsOk.kept {s : Db} (h : WalletsOk s) (hk : WellKept s) : WalletsKept s where
  one {x y v w} hx hy hvw := hk.unique.row (u := .wallet w.accountId) (k := .wallet)
    ⟨v, hx, by show _ ∈ uniqueKeys .wallet v; simp [uniqueKeys, hvw]⟩
    ⟨w, hy, by show _ ∈ uniqueKeys .wallet w; simp [uniqueKeys]⟩
  balance := h.balance
  funds := h.funds
  running := h.running

section

variable {reqs : List Request} {db : Db} {c : Run}

/-- What request `i` of a run is verified against. -/
def walletProtocols (reqs : List Request) (i : ℕ) : Protocol Db Err Ev Answer anyStep :=
  match reqs[i]?.bind Request.adjusts with
  | some (orgId, data) => adjustment orgId data
  | none => bookProtocol fun _ _ => True

theorem walletProtocols_safe (i : ℕ) (call : LCall Answer)
    (hi : (reqs.map Request.call)[i]? = some call) : Safe (walletProtocols reqs i) call db := by
  rw [List.getElem?_map] at hi
  obtain ⟨req, hr, rfl⟩ := Option.map_eq_some_iff.mp hi
  unfold walletProtocols
  rw [hr, Option.bind_some]
  split
  · rename_i hadj
    exact Request.adjusts_safe hadj db
  · exact Request.safe policy_true (allowed_true req) db

theorem walletProtocols_cond (hdb : WellKept db) (d : Run) (i : ℕ)
    (hd : d.Ok (walletProtocols reqs) db) : (walletProtocols reqs i).cond (d.histOf i) d.db := by
  have hkept : WellKept d.db := Steps.wellKept hd.rel hdb
  unfold walletProtocols
  split
  · exact hkept
  · exact hkept

/-- **The wallets.** In every interleaving of requests, with any failures: an account has one wallet,
whose balance is the sum of its transactions and never negative; every transaction records the
running sum; a statement only grows at its end; an adjustment that is refused has left every wallet
and its transactions as they were. -/
theorem reach_wallets (hdb : WellKept db) (h0 : WalletsOk db)
    (h : Reach Always (start db reqs) c) :
    WalletsKept c.db ∧
      (∀ c', Reach Always c c' → ∀ id, statement id c.db <+: statement id c'.db) ∧
      ∀ (i : ℕ) (req : Request) (e : Err), reqs[i]? = some req → req.adjusts.isSome = true →
        .answer (.error e) ∈ c.histOf i →
        ∀ a b, .commit a b ∈ c.histOf i → WalletsUntouched a b := by
  have hok : c.Ok (walletProtocols reqs) db :=
    reach_sound walletProtocols_safe (fun d i hd _ _ => walletProtocols_cond hdb d i hd) h
  refine ⟨?_, fun c' hc' id => ?_, fun i req e hi hadj he a b hab => ?_⟩
  · exact (Steps.induct (fun _ _ hs => hs.walletsOk) hok.rel h0).kept (Steps.wellKept hok.rel hdb)
  · have hrel : Steps (fun _ _ => True) c.db c'.db :=
      (hok.reach (fun d i hd _ _ => walletProtocols_cond hdb d i hd) hc').2
    exact hrel.induct (F := fun s => statement id c.db <+: statement id s)
      (fun _ _ hs hp => hp.trans (hs.statement_prefix id)) List.prefix_rfl
  · have hlt : i < (reqs.map Request.call).length := by
      rw [List.length_map]
      exact (List.getElem?_eq_some_iff.mp hi).1
    have hkeep := reach_keeps walletProtocols_safe
      (fun d j hd _ _ => walletProtocols_cond hdb d j hd) h hlt
    obtain ⟨⟨orgId, data⟩, hreq⟩ := Option.isSome_iff_exists.mp hadj
    unfold walletProtocols at hkeep
    rw [hi, Option.bind_some, hreq] at hkeep
    exact hkeep.refused e he a b hab

end

theorem walletsOk_of_none {s : Db} (hw : ∀ id, s.get .wallet id = none)
    (ht : ∀ id, s.get .walletTransaction id = none) : WalletsOk s where
  balance h := by rw [hw] at h; cases h
  funds h := by rw [hw] at h; cases h
  running id := by
    have hnil : statement id s = [] := List.eq_nil_iff_forall_not_mem.mpr fun t h => by
      obtain ⟨txId, hg, -⟩ := mem_statement.mp h
      rw [ht] at hg
      cases hg
    rw [hnil]
    exact walletJournal.running_nil
  owned h := by rw [ht] at h; cases h

def deposit : WalletAdjust := { type := .credit, amountCents := 500, valid := by decide }

def withdrawal : WalletAdjust := { type := .debit, amountCents := 800, valid := by decide }

def firstUses : List Request := [.adjustWallet 1 10 deposit, .adjustWallet 1 10 withdrawal]

/-- Both find no wallet; the deposit creates it, and the withdrawal runs into the unique index. -/
def bothFindNoWallet : List (ℕ × Move Err) :=
  List.replicate 28 (1, .go 1) ++ List.replicate 40 (0, .go 1) ++ List.replicate 11 (1, .go 1)

set_option maxRecDepth 100000 in
theorem reach_wallets_bothFindNoWallet : ∃ c : Run, Reach Always (start onePatron firstUses) c ∧
    (c.db.rows .wallet fun _ _ => true).map (·.2.balanceCents) = [500] ∧
      (c.answersOf 1).any (refused insufficientWalletBalance) = true ∧ WalletsKept c.db ∧
      ∀ a b, .commit a b ∈ c.histOf 1 → WalletsUntouched a b := by
  obtain ⟨c, hc, hp⟩ := exists_reach_anywhere
    (start onePatron firstUses) bothFindNoWallet
    (fun c => decide ((c.db.rows .wallet fun _ _ => true).map (·.2.balanceCents) = [500] ∧
      (c.answersOf 1).any (refused insufficientWalletBalance) = true)) (by decide +kernel)
  obtain ⟨hb, hr⟩ := of_decide_eq_true hp
  obtain ⟨hkept, -, hrefused⟩ :=
    reach_wallets onePatron_wellKept (walletsOk_of_none (fun _ => rfl) fun _ => rfl) hc
  exact ⟨c, hc, hb, hr, hkept, hrefused 1 _ _ rfl rfl (answer_of_refused hr)⟩

end PatronLoyalty.Loyalty
