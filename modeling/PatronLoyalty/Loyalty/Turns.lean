import PatronLoyalty.Loyalty.Specs
import PatronLoyalty.Txn.InTurn

/-!
# Accounts, one request after the other

What looking up or opening the account of a patron comes to when nobody else commits, and any of its
transactions may fail, or the server may die between two of them.

Results: **`ensureAccount_keeps`**, on its way and at its end the store has only been provided with what a
patron needs, and what it answers is the patron's account; **`ensureAccount_spares`**, no customer is
written; **`adjustPoints_gives`**, an adjustment that answers has moved the points of the patron's account.
-/

namespace PatronLoyalty.Loyalty

open Txn Relation

variable {orgId customerId : Id} {s₀ s : Db} {α : Type} {k : Kind} {points : ℤ} {s' : Db}

/-! ## What only reads -/

theorem alone_grows {a b : Db} (h : (alone : Guarantee Db).rel a b) : Grows a b := by
  rw [alone_rel] at h
  rw [h]
  exact .refl b

theorem isEnabled_still : Call.Walks (fun _ _ : Db => False) (isEnabled orgId) :=
  .bind .input fun _ => .pure _

theorem requireEnabled_still : Call.Walks (fun _ _ : Db => False) (requireEnabled orgId) :=
  .bind isEnabled_still fun b => by
    cases b with
    | true => exact .pure _
    | false => exact .throw _

theorem generateReferralCode_still (n : ℕ) :
    Call.Walks (fun _ _ : Db => False) (generateReferralCode n) := by
  induction n with
  | zero => exact .pure _
  | succ n ih => exact .bind .input fun _ => .bind ih fun _ => .pure _

theorem findFirst_still {p : Id → Row k → Bool} :
    Call.Walks (fun _ _ : Db => False) (withTenant (findFirst orgId k p)) := by
  intro s s' h
  rcases Call.passes_withTx h with rfl | ⟨b, hb⟩
  · exact .refl
  · rw [(Tx.gives_findFirst.mp hb).1]

theorem generateUniqueReferralCode_still (n : ℕ) :
    Call.Walks (fun _ _ : Db => False) (generateUniqueReferralCode orgId n) := by
  induction n with
  | zero => exact .bind (generateReferralCode_still 12) fun _ => .pure _
  | succ n ih =>
    refine .bind (generateReferralCode_still 8) fun code => .bind findFirst_still fun taken => ?_
    cases taken with
    | none => exact .pure _
    | some _ => exact ih

/-! ## The account of a patron -/

/-- The store is one the patron has been provided for, and what was answered is his account. -/
abbrev Provided (orgId customerId : Id) (s₀ : Db) (accountOf : α → Option Id) (r : Except Err α)
    (m : Db) : Prop :=
  Provisions s₀ m ∧ ∀ x id, r = .ok x → accountOf x = some id → AccountOf orgId customerId id m

theorem Provided.error {accountOf : α → Option Id} (h : Provisions s₀ s) (e : Err) :
    Provided orgId customerId s₀ accountOf (.error e) s :=
  ⟨h, fun _ _ hx => by cases hx⟩

theorem Provided.ok {accountOf : α → Option Id} {x : α} (h : Provisions s₀ s)
    (hx : ∀ id, accountOf x = some id → AccountOf orgId customerId id s) :
    Provided orgId customerId s₀ accountOf (.ok x) s := by
  refine ⟨h, fun y id hy hid => ?_⟩
  cases hy
  exact hx id hid

theorem getOrCreateProgram_keeps (h : Provisions s₀ s) :
    (getOrCreateProgram orgId).Keeps (Provisions s₀) (fun _ m => Provisions s₀ m) s :=
  .still_bind h requireEnabled_still (fun _ => .did h wp_programTx
    (fun _ _ hp => ⟨h.trans hp, h.trans hp⟩) fun _ => h) fun _ => h

theorem upsertAccount_keeps (h : Provisions s₀ s) (code : String) :
    (withTenant (upsertAccount orgId customerId code)).Keeps (Provisions s₀)
      (Provided orgId customerId s₀ fun a => some a.id) s := by
  refine .did h (wp_upsertAccount fun _ _ => alone_grows) (fun b s' hb => ?_) (Provided.error h)
  obtain ⟨hp, hacc⟩ := hb
  refine ⟨h.trans hp, .ok (h.trans hp) fun id hid => ?_⟩
  cases hid
  exact hacc

theorem findAccountOrThrow_keeps (h : Provisions s₀ s) :
    (withTenant (findAccountOrThrow orgId customerId)).Keeps (Provisions s₀)
      (Provided orgId customerId s₀ fun a => some a.id) s := by
  refine .did h (wp_findAccountOrThrow fun _ _ => alone_grows) (fun b s' hb => ?_)
    (Provided.error h)
  obtain ⟨rfl, hacc⟩ := hb
  refine ⟨h, .ok h fun id hid => ?_⟩
  cases hid
  exact hacc

/-- The account that was opened, or that another request has opened in the meantime. -/
theorem upsertOrFind_keeps (h : Provisions s₀ s) (code : String) :
    ((withTenant (upsertAccount orgId customerId code)).handle fun err =>
      if err == .uniqueViolation then withTenant (findAccountOrThrow orgId customerId)
      else Call.throw err).Keeps (Provisions s₀)
      (Provided orgId customerId s₀ fun a => some a.id) s := by
  refine .handle ((upsertAccount_keeps h code).post fun r m hr => ⟨fun b hb => ?_, fun e he => ?_⟩)
  · exact hb ▸ hr
  · split
    · exact findAccountOrThrow_keeps hr.1
    · exact .throw hr.1 (.error hr.1 _)

theorem openAccount_keeps (h : Provisions s₀ s) :
    (openAccount orgId customerId).Keeps (Provisions s₀)
      (Provided orgId customerId s₀ fun a => a.map (·.id)) s := by
  rw [openAccount, Call.bind_eq]
  refine .bind (getOrCreateProgram_keeps h) (fun _ m hm => ?_) fun e _ hm => .error hm e
  rw [Call.bind_eq]
  refine .still_bind hm (generateUniqueReferralCode_still 8) (fun code => ?_) (Provided.error hm)
  refine .bind (upsertOrFind_keeps hm code) (fun a m' ha => ?_) fun e _ he => .error he.1 e
  exact .pure ha.1 (.ok ha.1 fun id hid => ha.2 a id rfl hid)

/-- **Looking up or opening an account.** -/
theorem ensureAccount_keeps (h : Provisions s₀ s) :
    (ensureAccount orgId customerId).Keeps (Provisions s₀)
      (Provided orgId customerId s₀ fun a => a.map (·.id)) s := by
  rw [ensureAccount_eq]
  refine .still_bind h isEnabled_still (fun on => ?_) (Provided.error h)
  cases on with
  | true => exact openAccount_keeps h
  | false => exact .pure h (.ok h fun id hid => by cases hid)

theorem ensureAccountOrThrow_keeps (h : Provisions s₀ s) :
    (ensureAccountOrThrow orgId customerId).Keeps (Provisions s₀)
      (Provided orgId customerId s₀ fun a => some a.id) s := by
  refine .bind (ensureAccount_keeps h) (fun r m hr => ?_) fun e _ he => .error he.1 e
  cases r with
  | none => exact .throw hr.1 (.error hr.1 _)
  | some a => exact .pure hr.1 (.ok hr.1 fun id hid => hr.2 _ id rfl hid)

theorem getAccountByCustomerId_keeps (h : Provisions s₀ s) :
    (getAccountByCustomerId orgId customerId).Keeps (Provisions s₀)
      (Provided orgId customerId s₀ fun a => some a.id) s :=
  .still_bind h requireEnabled_still (fun _ => ensureAccountOrThrow_keeps h) (Provided.error h)

/-! ## Customers are left alone -/

abbrev SameCustomers (a b : Db) : Prop := ∀ id, b.get .customer id = a.get .customer id

theorem sameCustomers_of_steps {a b : Db} (h : ReflTransGen SameCustomers a b) :
    SameCustomers a b := by
  induction h with
  | refl => exact fun _ => rfl
  | tail _ hs ih => exact fun id => (hs id).trans (ih id)

/-- The transaction writes no customer. -/
abbrev Spares {β : Type} (t : LTx β) : Prop :=
  Confined (fun _ => true) Err.invalidQuery alone SameCustomers t

theorem spares_create {r : Row k} (hk : k ≠ .customer) : Spares (create k r) :=
  .bind .input fun _ => .bind (fun _ => Triple.insert fun _ b _ hp hw =>
    ⟨b, hp, .single fun _ => hw.2.get_ne fun he => hk (congrArg Prod.fst he).symm⟩) fun _ => .pure _

theorem spares_createMany (hk : k ≠ .customer) (rs : List (Row k)) :
    Spares (createMany k rs) := by
  induction rs with
  | nil => exact .pure _
  | cons r rs ih => exact .bind (spares_create hk) fun _ => ih

theorem spares_findFirstOrThrow {p : Id → Row k → Bool} :
    Spares (findFirstOrThrow orgId k p) :=
  .bind (.findFirst _) fun r => by
    cases r with
    | none => exact .throw _
    | some r => exact .pure _

theorem spares_programTx : Spares (programTx orgId) :=
  .bind (.findFirst _) fun found => by
    cases found with
    | some found => exact .pure _
    | none =>
      exact .bind (spares_create (by decide)) fun _ => .bind (spares_createMany (by decide) _) fun _ =>
        .bind .now fun _ => .bind (spares_createMany (by decide) _) fun _ => .readOrThrow _ _

theorem spares_withTier (account : AccountView) : Spares (withTier orgId account) :=
  .bind (.findFirst _) fun wallet => by
    cases account.2.tierId with
    | none => exact .pure _
    | some tierId => exact .bind (.read _) fun _ => .pure _

theorem spares_upsertAccount {code : String} : Spares (upsertAccount orgId customerId code) :=
  .bind (.findFirst _) fun _ => .bind (.findFirst _) fun found => by
    cases found with
    | some account => exact spares_withTier account
    | none =>
      exact .bind (.readOrThrow _ _) fun _ => .bind (spares_create (by decide)) fun _ =>
        .bind (spares_create (by decide)) fun _ => spares_withTier _

theorem spares_findAccountOrThrow : Spares (findAccountOrThrow orgId customerId) :=
  .bind spares_findFirstOrThrow fun _ => spares_withTier _

/-- Part of a request that writes no customer. -/
abbrev SparesAll {β : Type} (c : LCall β) : Prop := Call.Walks SameCustomers c

theorem getOrCreateProgram_spares : SparesAll (getOrCreateProgram orgId) :=
  .bind (.of_still requireEnabled_still) fun _ => .tx spares_programTx

theorem upsertOrFind_spares (code : String) :
    SparesAll ((withTenant (upsertAccount orgId customerId code)).handle fun err =>
      if err == .uniqueViolation then withTenant (findAccountOrThrow orgId customerId)
      else Call.throw err) :=
  .handle (.tx spares_upsertAccount) fun _ => .ite (.tx spares_findAccountOrThrow) (.throw _)

theorem openAccount_spares : SparesAll (openAccount orgId customerId) := by
  rw [openAccount, Call.bind_eq]
  refine .bind getOrCreateProgram_spares fun _ => ?_
  rw [Call.bind_eq]
  refine .bind (.of_still (generateUniqueReferralCode_still 8)) fun code => ?_
  exact .bind (upsertOrFind_spares code) fun _ => .pure _

/-- **No customer is written** by looking up or opening an account. -/
theorem ensureAccount_spares : SparesAll (ensureAccount orgId customerId) := by
  rw [ensureAccount_eq]
  exact .bind (.of_still isEnabled_still) fun _ => .ite openAccount_spares (.pure _)

theorem ensureAccountOrThrow_spares : SparesAll (ensureAccountOrThrow orgId customerId) := by
  refine .bind ensureAccount_spares fun r => ?_
  cases r with
  | none => exact .throw _
  | some a => exact .pure _

/-! ## Adjustments -/

/-- The movement of an adjustment. -/
def PointsMoved (orgId accountId : Id) (points : ℤ) (a b : Db) : Prop :=
  ∃ m r r', Posts m r r' a b ∧ m.orgId = orgId ∧ m.accountId = accountId ∧
    m.type = adjustmentType points ∧ m.points = points.natAbs

theorem adjustment_unsourced (points : ℤ) (opts : PointsOpts) :
    earnSource (adjustmentType points) opts = none := by
  refine earnSource_eq_none opts ?_
  unfold adjustmentType
  split <;> rfl

theorem runApplyPoints_gives {accountId : Id} {opts : PointsOpts} {res : ApplyPointsTxResult}
    (h : (runApplyPoints orgId accountId points.natAbs (adjustmentType points) opts).gives s (.ok res)
      s') : PointsMoved orgId accountId points s s' := by
  have hg := Call.gives_withTx_ok.mp h
  refine Tx.gives_did (A := fun _ => True) trivial
    (R := fun _ => PointsMoved orgId accountId points)
    (wp_applyPointsUnchecked did_start (adjustment_unsourced points opts)
      (fun s1 ws t r r' slug _ _ hd _ => hd.mono ?_) (fun _ _ => (trivial : AnyErr _ _))) hg
  rintro a b ⟨m, rfl, hp⟩
  exact ⟨_, r, r', hp, rfl, rfl, rfl, rfl⟩

/-- **Applying an adjustment** that answers. -/
theorem applyPoints_gives {accountId : Id} {opts : PointsOpts} {res : ApplyPointsResult}
    (h : (applyPoints orgId accountId points.natAbs (adjustmentType points) opts).gives s (.ok res)
      s') : PointsMoved orgId accountId points s s' := by
  rcases Call.gives_handle h with ⟨b, -, hb⟩ | ⟨e, m, -, he⟩
  · obtain ⟨result, m, hr, hrest⟩ := hb.seq
    have hadj := runApplyPoints_gives hr
    split at hrest
    · obtain ⟨-, rfl⟩ := Call.gives_pure.mp hrest
      exact hadj
    · obtain ⟨u, m', hf, hpure⟩ := hrest.seq
      obtain ⟨-, rfl⟩ := Call.gives_pure.mp hpure
      rw [(Call.Walks.fireAll _).still hf]
      exact hadj
  · unfold isDuplicateEarnError at he
    rw [adjustment_unsourced, Option.isSome_none, Bool.and_false, if_neg Bool.false_ne_true] at he
    exact absurd he Call.not_gives_throw

/-- **An adjustment of a patron's points** that answers has moved them. -/
theorem adjustPoints_gives {description : Option String} {view : AccountView}
    (h : (adjustPoints orgId customerId points description).gives s (.ok view) s') :
    ∃ m accountId, Provisions s m ∧ SameCustomers s m ∧ AccountOf orgId customerId accountId m ∧
      PointsMoved orgId accountId points m s' := by
  obtain ⟨u, s1, hon, h1⟩ := h.seq
  have hs1 := requireEnabled_still.still hon
  subst hs1
  obtain ⟨account, m, hacc, h2⟩ := h1.seq
  obtain ⟨hp, hof⟩ := (ensureAccountOrThrow_keeps .refl).gives _ _ hacc
  obtain ⟨result, m', happly, h3⟩ := h2.seq
  obtain ⟨-, rfl⟩ := Call.gives_pure.mp h3
  exact ⟨m, account.id, hp, sameCustomers_of_steps (ensureAccountOrThrow_spares.gives hacc),
    hof account _ rfl rfl, applyPoints_gives happly⟩

end PatronLoyalty.Loyalty
