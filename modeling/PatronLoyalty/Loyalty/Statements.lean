import PatronLoyalty.Loyalty.Requests
import PatronLoyalty.Txn.Triples

/-!
# Rules for the statements

One rule for each Prisma statement the services use, in terms of what the transaction has done so
far (`Did`). A read tells what the transaction sees now; a write extends what it has done by the
row version or the ledger row, and the caller answers for the error it may raise.
-/

namespace PatronLoyalty.Loyalty

open Txn Relation

variable {G : Guarantee Db} {A : Db → Prop} {exc : Err → Db → Prop} {R : Db → Db → Prop}
  {ws : List DbWrite} {s : Db} {orgId : Id} {k : Kind} {p : Id → Row k → Bool}
  {post : Option (Id × Row k) → List DbWrite → Db → Prop} {id : Id} {f : Row k → Row k}

/-! ## Reads -/

theorem wp_findFirst (h : Did G R ws s)
    (hsome : ∀ s' id r, G.rel s s' → A s' → Did G R ws s' → (view ws s').get k id = some r →
      visible orgId k r = true → p id r = true → post (some (id, r)) ws s')
    (hnone : ∀ s', G.rel s s' → A s' → Did G R ws s' →
      (∀ id r, (view ws s').get k id = some r → visible orgId k r = true → p id r = false) →
      post none ws s') :
    Tx.wp G A post exc (findFirst orgId k p) ws s := by
  refine Did.wp_findFirst h fun s' n hG hA hd => ?_
  generalize hx : ((view ws s').rows k fun id r => visible orgId k r && p id r)[n % _]? = x
  cases x with
  | none =>
    refine hnone s' hG hA hd fun id r hg hv => ?_
    have := Rel.eq_false_of_getElem?_rows hx hg
    simpa [hv] using this
  | some e =>
    obtain ⟨hg, hp⟩ := Rel.getElem?_rows hx
    rw [Bool.and_eq_true] at hp
    exact hsome s' e.1 e.2 hG hA hd hg hp.1 hp.2

theorem wp_findAny (h : Did G R ws s)
    (hpost : ∀ s' x, G.rel s s' → A s' → Did G R ws s' → post x ws s') :
    Tx.wp G A post exc (findFirst orgId k p) ws s :=
  wp_findFirst h (fun s' id r hG hA hd _ _ _ => hpost s' (some (id, r)) hG hA hd)
    (fun s' hG hA hd _ => hpost s' none hG hA hd)

theorem wp_findFirstOrThrow {post : Id × Row k → List DbWrite → Db → Prop} (h : Did G R ws s)
    (hsome : ∀ s' id r, G.rel s s' → A s' → Did G R ws s' → (view ws s').get k id = some r →
      visible orgId k r = true → p id r = true → post (id, r) ws s')
    (hnone : ∀ s', G.rel s s' → A s' → exc .recordNotFound s') :
    Tx.wp G A post exc (findFirstOrThrow orgId k p) ws s := by
  rw [findFirstOrThrow, Tx.wp_do]
  exact wp_findFirst h hsome fun s' hG hA _ _ => hnone s' hG hA

/-- The row a sorted query returns is one of those it asks for. -/
theorem wp_findLast {le : Row k → Row k → Bool} (h : Did G R ws s)
    (hpost : ∀ s' x, G.rel s s' → A s' → Did G R ws s' →
      (∀ id r, x = some (id, r) → (view ws s').get k id = some r) → post x ws s') :
    Tx.wp G A post exc (findLast orgId k p le) ws s := by
  refine Did.wp_findFirst h fun s' n hG hA hd => hpost s' _ hG hA hd fun id r hx => ?_
  have hm := List.mem_of_getElem? hx
  exact (Rel.mem_rows.mp (List.mem_filter.mp hm).1).1

theorem wp_findMany {post : List (Id × Row k) → List DbWrite → Db → Prop} (h : Did G R ws s)
    (hpost : ∀ s', G.rel s s' → A s' → Did G R ws s' →
      post ((view ws s').rows k fun id r => visible orgId k r && p id r) ws s') :
    Tx.wp G A post exc (findMany orgId k p) ws s :=
  Did.wp_read h hpost

theorem wp_findById {post : Option (Row k) → List DbWrite → Db → Prop} (h : Did G R ws s)
    (hsome : ∀ s' r, G.rel s s' → A s' → Did G R ws s' → (view ws s').get k id = some r →
      visible orgId k r = true → post (some r) ws s')
    (hnone : ∀ s', G.rel s s' → A s' → Did G R ws s' →
      (∀ r, (view ws s').get k id = some r → visible orgId k r = false) → post none ws s') :
    Tx.wp G A post exc (findById orgId k id) ws s := by
  refine Did.wp_read h fun s' hG hA hd => ?_
  cases hg : (view ws s').get k id with
  | none => exact hnone s' hG hA hd fun r hr => by rw [hg] at hr; cases hr
  | some r =>
    cases hv : visible orgId k r with
    | true =>
      rw [show (some r).filter (visible orgId k) = some r from if_pos hv]
      exact hsome s' r hG hA hd hg hv
    | false =>
      rw [show (some r).filter (visible orgId k) = none from
        if_neg (by rw [hv]; exact Bool.false_ne_true)]
      exact hnone s' hG hA hd fun r' hr' => by rw [hg] at hr'; cases hr'; exact hv

theorem wp_findByIdAny {post : Option (Row k) → List DbWrite → Db → Prop} (h : Did G R ws s)
    (hpost : ∀ s' x, G.rel s s' → A s' → Did G R ws s' → post x ws s') :
    Tx.wp G A post exc (findById orgId k id) ws s :=
  wp_findById h (fun s' r hG hA hd _ _ => hpost s' (some r) hG hA hd)
    (fun s' hG hA hd _ => hpost s' none hG hA hd)

theorem wp_findByIdOrThrow {post : Row k → List DbWrite → Db → Prop} (h : Did G R ws s)
    (hsome : ∀ s' r, G.rel s s' → A s' → Did G R ws s' → (view ws s').get k id = some r →
      visible orgId k r = true → post r ws s') (hnone : ∀ s', G.rel s s' → A s' → Did G R ws s' →
      (∀ r, (view ws s').get k id = some r → visible orgId k r = false) →
      exc .recordNotFound s') :
    Tx.wp G A post exc (findByIdOrThrow orgId k id) ws s := by
  refine Did.wp_readOrThrow h (fun s' r hG hA hd hr => ?_) (fun s' hG hA hd hn => ?_)
  · rw [Option.filter_eq_some_iff] at hr
    exact hsome s' r hG hA hd hr.1 hr.2
  · refine hnone s' hG hA hd fun r hr => ?_
    rw [hr] at hn
    simpa using hn

theorem wp_checkForeignKey {post : Unit → List DbWrite → Db → Prop} (h : Did G R ws s)
    (hsome : ∀ s' r, G.rel s s' → Did G R ws s' → (view ws s').get k id = some r → post () ws s')
    (hnone : ∀ s', G.rel s s' → exc .foreignKeyViolation s') :
    Tx.wp G A post exc (checkForeignKey k id) ws s := by
  refine Did.wp_readOrThrow h (fun s' r hG hA hd hr => ?_) (fun s' hG hA hd hn => hnone s' hG)
  obtain ⟨r, hr, -⟩ := Option.map_eq_some_iff.mp hr
  exact hsome s' r hG hd hr

theorem wp_findLedger {p : LoyaltyPointLedger → Bool}
    {post : Option LoyaltyPointLedger → List DbWrite → Db → Prop} (h : Did G R ws s)
    (hsome : ∀ s' l, G.rel s s' → A s' → Did G R ws s' → l ∈ (view ws s').log → l.orgId = orgId →
      p l = true → post (some l) ws s')
    (hnone : ∀ s', G.rel s s' → A s' → Did G R ws s' →
      (∀ l ∈ (view ws s').log, l.orgId = orgId → p l = false) → post none ws s') :
    Tx.wp G A post exc (findLedger orgId p) ws s := by
  refine Did.wp_findFirst h fun s' n hG hA hd => ?_
  generalize hx : (ledgerWhere orgId p (view ws s'))[n % _]? = x
  cases x with
  | none =>
    refine hnone s' hG hA hd fun l hl ho => ?_
    rw [List.getElem?_eq_none_iff] at hx
    by_contra hp
    have hm : l ∈ ledgerWhere orgId p (view ws s') :=
      List.mem_filter.mpr ⟨hl, by simpa [ho] using hp⟩
    exact absurd (Nat.mod_lt n (List.length_pos_of_mem hm)) (Nat.not_lt.mpr hx)
  | some l =>
    obtain ⟨hl, hp⟩ := List.mem_filter.mp (List.mem_of_getElem? hx)
    rw [Bool.and_eq_true, beq_iff_eq] at hp
    exact hsome s' l hG hA hd hl hp.1 hp.2

/-! ## Writes -/

theorem wp_create {r : Row k} {post : Id → List DbWrite → Db → Prop} (h : Did G R ws s)
    (hpost : ∀ s' ws' id, G.rel s s' → A s' →
      Did G (Comp R (Rel.Replaced k id none r)) ws' s' → post id ws' s')
    (hdup : ∀ s', G.rel s s' → A s' → exc .uniqueViolation s') :
    Tx.wp G A post exc (create k r) ws s := by
  rw [create, Tx.wp_do, Tx.wp_input]
  intro id
  rw [Tx.wp_do]
  exact Did.wp_insert h (fun s' ws' hG hA hd => hpost s' ws' id hG hA hd)
    fun s' hG hA _ => hdup s' hG hA

theorem wp_createLedger {l : LoyaltyPointLedger} {post : Unit → List DbWrite → Db → Prop}
    (h : Did G R ws s)
    (hpost : ∀ s' ws', G.rel s s' → A s' → Did G (Comp R (Rel.Pushed l)) ws' s' → post () ws' s')
    (hdup : ∀ s' u, G.rel s s' → A s' → Did G R ws s' → u ∈ ledgerKeys l →
      (view ws s').logAt u ≠ [] → exc .uniqueViolation s') :
    Tx.wp G A post exc (createLedger l) ws s :=
  Did.wp_insertLog h hpost hdup

theorem visible_of_ok {v : Bool} {r r' : Row k}
    (h : (if v = true then .ok r else .error .recordNotFound : Except Err (Row k)) = .ok r') :
    v = true ∧ r = r' := by
  cases v with
  | false => cases h
  | true => exact ⟨rfl, Except.ok.inj h⟩

theorem hidden_of_error {v : Bool} {r : Row k} {e : Err}
    (h : (if v = true then .ok r else .error .recordNotFound : Except Err (Row k)) = .error e) :
    v = false ∧ Err.recordNotFound = e := by
  cases v with
  | false => exact ⟨rfl, Except.error.inj h⟩
  | true => cases h

theorem wp_update {post : Row k → List DbWrite → Db → Prop} (h : Did G R ws s)
    (hkeys : ∀ r, uniqueKeys k (f r) = uniqueKeys k r)
    (hpost : ∀ s' ws' r, G.rel s s' → A s' → visible orgId k r = true →
      Did G (Comp R (Rel.Replaced k id (some r) (f r))) ws' s' → post (f r) ws' s')
    (hmiss : ∀ s', G.rel s s' → A s' → Did G R ws s' →
      (∀ r, (view ws s').get k id = some r → visible orgId k r = false) →
      exc .recordNotFound s') :
    Tx.wp G A post exc (update orgId k id f) ws s := by
  refine Did.wp_modify h (fun s' ws' r r' hG hA hf hd => ?_) (fun s' hG hA hd hg => ?_)
    (fun s' r e hG hA hd hg hf => ?_) (fun s' r r' hG hA hd hg hf hc => ?_)
  · obtain ⟨hv, rfl⟩ := visible_of_ok hf
    exact hpost s' ws' r hG hA hv hd
  · exact hmiss s' hG hA hd fun r hr => by rw [hg] at hr; cases hr
  · obtain ⟨hv, rfl⟩ := hidden_of_error hf
    exact hmiss s' hG hA hd fun r' hr' => by rw [hg] at hr'; cases hr'; exact hv
  · obtain ⟨-, rfl⟩ := visible_of_ok hf
    rw [Rel.clashes_of_keys_eq (hkeys r)] at hc
    cases hc

theorem wp_updateKeyed {post : Row k → List DbWrite → Db → Prop} (h : Did G R ws s)
    (hpost : ∀ s' ws' r, G.rel s s' → A s' → visible orgId k r = true →
      Did G (Comp R (Rel.Replaced k id (some r) (f r))) ws' s' → post (f r) ws' s')
    (hmiss : ∀ s', G.rel s s' → A s' → exc .recordNotFound s')
    (hdup : ∀ s', G.rel s s' → A s' → exc .uniqueViolation s') :
    Tx.wp G A post exc (update orgId k id f) ws s := by
  refine Did.wp_modify h (fun s' ws' r r' hG hA hf hd => ?_) (fun s' hG hA _ _ => hmiss s' hG hA)
    (fun s' r e hG hA _ _ hf => ?_) (fun s' _ _ hG hA _ _ _ _ => hdup s' hG hA)
  · obtain ⟨hv, rfl⟩ := visible_of_ok hf
    exact hpost s' ws' r hG hA hv hd
  · obtain ⟨-, rfl⟩ := hidden_of_error hf
    exact hmiss s' hG hA

theorem wp_updateMany {p : Row k → Bool} {post : ℕ → List DbWrite → Db → Prop} (h : Did G R ws s)
    (hkeys : ∀ r, uniqueKeys k (f r) = uniqueKeys k r)
    (hone : ∀ s' ws' r, G.rel s s' → A s' → visible orgId k r = true → p r = true →
      Did G (Comp R (Rel.Replaced k id (some r) (f r))) ws' s' → post 1 ws' s')
    (hzero : ∀ s', G.rel s s' → A s' → Did G R ws s' →
      (∀ r, (view ws s').get k id = some r → visible orgId k r = true → p r = false) →
      post 0 ws s') :
    Tx.wp G A post exc (updateMany orgId k id p f) ws s := by
  refine Did.wp_modifyIf h (fun s' ws' r r' hG hA hp hf hd => ?_) (fun s' hG hA hd hn => ?_)
    (fun s' r e _ _ _ _ _ hf => ?_) (fun s' r r' _ _ _ _ _ hf hc => ?_)
  · rw [Bool.and_eq_true] at hp
    cases hf
    exact hone s' ws' r hG hA hp.1 hp.2 hd
  · refine hzero s' hG hA hd fun r hg hv => ?_
    have := hn r hg
    simpa [hv] using this
  · cases hf
  · cases hf
    rw [Rel.clashes_of_keys_eq (hkeys r)] at hc
    cases hc

end PatronLoyalty.Loyalty
