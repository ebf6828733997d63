import PatronLoyalty.Loyalty.Transactions
import PatronLoyalty.Txn.Alone

/-!
# Requests that run alone

What the shared parts of the services come to when nobody else commits: the feature gate, the lookup
of an account, and an adjustment in favour of a customer, which cannot fail once the customer has an
account.
-/

namespace PatronLoyalty.Loyalty

open Txn Relation

section

variable {env : Env} {s : Db} {orgId accountId : Id} {n : ℕ}

theorem eval_requireEnabled : (requireEnabled orgId).eval env n s =
    ⟨if env.pick n = 0 then .error patronCrmDisabled else .ok (), s, [], n + 1⟩ := by
  have hflag : (isEnabled orgId).eval env n s = ⟨.ok (env.pick n != 0), s, [], n + 1⟩ := rfl
  rw [requireEnabled, Call.bind_eq, Call.eval_bind_ok hflag]
  by_cases hoff : env.pick n = 0
  · simp [hoff]
  · simp [hoff]

def accountIn (orgId accountId : Id) (s : Db) : Option LoyaltyAccount :=
  (s.get .account accountId).filter (visible orgId .account)

theorem accountIn_eq_some {account : LoyaltyAccount} : accountIn orgId accountId s = some account ↔
    s.get .account accountId = some account ∧ account.orgId = orgId := by
  unfold accountIn
  rw [Option.filter_eq_some_iff, visible_account]

/-- The answer of a transaction. -/
theorem eval_findAccount : (withTenant (findById orgId .account accountId)).eval env n s =
    ⟨.ok (accountIn orgId accountId s), s, [], n⟩ := Call.eval_readTx rfl

/-- A row under an identifier that is not taken, and with no index entries. -/
theorem eval_create {k : Kind} {ws : List DbWrite} {r : Row k}
    (hid : (view ws s).get k (env.pick n) = none) (hkeys : uniqueKeys k r = []) :
    (create k r).eval env n ws s =
      (.ok (env.pick n, ws ++ [.put k (env.pick n) none r]), n + 1) := by
  have hclash : (view ws s).clashes k none r = false := by
    rw [Rel.clashes, show Keyed.keys LoyaltyPointLedger k r = [] from hkeys]
    rfl
  have hins : (Rel.insert Err.uniqueViolation k (env.pick n) r).eval env (n + 1) ws s =
      (.ok ((), ws ++ [.put k (env.pick n) none r]), n + 1) := by
    refine Tx.eval_exec ?_
    rw [hid, hclash]
    rfl
  show (Tx.bind (Rel.insert Err.uniqueViolation k (env.pick n) r) fun _ =>
    pure (env.pick n)).eval env (n + 1) ws s = _
  rw [Tx.eval_bind_ok hins]
  rfl

end

section

variable {A : Db → Prop} {R : Db → Db → Prop} {ws : List DbWrite} {s : Db} {orgId customerId : Id}

theorem ledgerKeys_adjust {l : LoyaltyPointLedger} (h : l.type = .adjust) : ledgerKeys l = [] := by
  simp [ledgerKeys, h, isEarnSourceIdempotentType]

/-- **A credit cannot fail** for a customer with an account. -/
theorem wp_adjustCustomerPoints_succeeds {points : ℤ} {description : String} {accountId : Id}
    (hpos : 0 < points) (hacc : AccountOf orgId customerId accountId (view ws s)) :
    Tx.wp alone A (fun _ _ _ => True) (fun _ _ => False)
      (adjustCustomerPoints orgId customerId points description) ws s := by
  have hd : Did alone (fun _ b => b = view ws s) ws s := fun s' hs => by
    rw [stable_alone] at hs
    rw [hs]
  rw [adjustCustomerPoints, Tx.wp_do]
  refine wp_findFirst (k := .account) hd (fun s1 id r hs _ hd hr hv _ => ?_) fun s1 hs _ _ hno => ?_
  · rw [alone_rel] at hs
    subst hs
    have ho : r.orgId = orgId := visible_account.mp hv
    have htype : adjustmentType points = .adjust := if_pos hpos
    show Tx.wp alone A _ _ (applyPointsInTransaction orgId id points.natAbs (adjustmentType points)
      (manualOpts description)) ws s
    rw [applyPointsInTransaction, adjustmentType_unchecked, if_neg (by omega), htype]
    refine wp_postPoints hd (by omega) (fun _ _ _ _ _ _ _ _ _ _ => trivial)
      (fun s2 s3 e hs2 _ _ hmiss hs3 => ?_) fun s2 n u t b _ _ _ hu _ => ?_
    · rw [alone_rel] at hs2 hs3
      subst hs2
      exact absurd (hmiss r hr ho).1 (by decide)
    · rw [ledgerKeys_adjust rfl] at hu
      cases hu
  · obtain ⟨r, hr, ho, hc⟩ := hacc
    rw [alone_rel] at hs
    subst hs
    have := hno accountId r hr (visible_account.mpr ho)
    simp [hc] at this

end

end PatronLoyalty.Loyalty
