import PatronLoyalty.Crm.Import
import PatronLoyalty.Loyalty.Turns
import PatronLoyalty.Txn.Overlays

/-!
# The patrons of a file

What processing a row does to the customers and to their points. `applied c rows` is the customer `c`
after the rows, one after the other; `pointsOf` are the points of a customer.

`RowRun orgId data s course result s'`: from the store `s` the row `data` comes as far as `course` says,
reports `result`, or dies, and leaves `s'`.

Results: **`applied_absorb`**, all rows over a customer after some of them come to all of them;
**`importOneRow_gives`** and **`importOneRow_passes`**, what the code does with a row is such a run;
**`RowRun.touches`**, what such a run has done.
-/

namespace PatronLoyalty.Crm

open Txn Loyalty Relation

/-! ## Customers under the rows of a file -/

section

variable {orgId : Id} {rs rs' : List CustomerImportRow}

def CustomerImportRow.onto (c : Customer) (data : CustomerImportRow) : Customer :=
  data.patch c.metadata c

def unknown (orgId : Id) : Customer :=
  { orgId, name := "", marketingConsentSource := some "csv_import" }

def applied (c : Customer) (rows : List CustomerImportRow) : Customer :=
  rows.foldl CustomerImportRow.onto c

theorem consent_getD (given : Option Bool) :
    granted (given == some true) = (given.map granted).getD "REVOKED" := by
  cases given with
  | none => rfl
  | some b => cases b <;> rfl

/-- **Creating is updating** a customer of whom nothing is known. -/
theorem customer_eq_onto (data : CustomerImportRow) :
    data.customer orgId = CustomerImportRow.onto (unknown orgId) data := by
  simp [CustomerImportRow.customer, CustomerImportRow.onto, CustomerImportRow.patch, unknown,
    CustomerImportRow.merged, CustomerImportRow.metadata, CustomerProfile.patched, consent_getD]

theorem column_absorb {β : Type} (f : Customer → β) (given : CustomerImportRow → Option β)
    (h : ∀ c data, f (CustomerImportRow.onto c data) = (given data).getD (f c)) (hsub : rs' ⊆ rs)
    (c : Customer) : f (applied c (rs' ++ rs)) = f (applied c rs) :=
  Overlaid.absorb h hsub c

theorem or_eq_getD {β : Type} (o o' : Option β) : o.or o' = (o.map some).getD o' := by
  cases o <;> rfl

theorem metadata_absorb (hsub : rs' ⊆ rs) (c : Customer) :
    (applied c (rs' ++ rs)).metadata = (applied c rs).metadata := by
  have hsome := column_absorb (fun c => c.metadata.isSome) (fun _ => some true) (fun _ _ => rfl)
    hsub c
  have htags := column_absorb (fun c => (c.metadata.getD {}).tags) (fun d => d.tags)
    (fun _ _ => rfl) hsub c
  have hnotes := column_absorb (fun c => (c.metadata.getD {}).notes) (fun d => d.notes)
    (fun _ _ => rfl) hsub c
  have hext := column_absorb (fun c => (c.metadata.getD {}).externalId)
    (fun d => d.externalId.map some) (fun _ _ => or_eq_getD _ _) hsub c
  revert hsome htags hnotes hext
  cases (applied c (rs' ++ rs)).metadata with
  | none => cases (applied c rs).metadata <;> simp
  | some m =>
    cases (applied c rs).metadata with
    | none => simp
    | some m' =>
      cases m
      cases m'
      simp only [Option.getD_some]
      rintro - rfl rfl rfl
      rfl

theorem profile_absorb (hsub : rs' ⊆ rs) (c : Customer) :
    (applied c (rs' ++ rs)).profile = (applied c rs).profile := by
  have h1 := column_absorb (fun c => c.profile.birthday) (fun d => d.profile.birthday.map some)
    (fun _ _ => or_eq_getD _ _) hsub c
  have h2 := column_absorb (fun c => c.profile.gender) (fun d => d.profile.gender.map some)
    (fun _ _ => or_eq_getD _ _) hsub c
  have h3 := column_absorb (fun c => c.profile.addressLine1)
    (fun d => d.profile.addressLine1.map some) (fun _ _ => or_eq_getD _ _) hsub c
  have h4 := column_absorb (fun c => c.profile.city) (fun d => d.profile.city.map some)
    (fun _ _ => or_eq_getD _ _) hsub c
  have h5 := column_absorb (fun c => c.profile.region) (fun d => d.profile.region.map some)
    (fun _ _ => or_eq_getD _ _) hsub c
  have h6 := column_absorb (fun c => c.profile.postalCode)
    (fun d => d.profile.postalCode.map some) (fun _ _ => or_eq_getD _ _) hsub c
  have h7 := column_absorb (fun c => c.profile.country) (fun d => d.profile.country.map some)
    (fun _ _ => or_eq_getD _ _) hsub c
  revert h1 h2 h3 h4 h5 h6 h7
  cases (applied c (rs' ++ rs)).profile
  cases (applied c rs).profile
  rintro rfl rfl rfl rfl rfl rfl rfl
  rfl

theorem source_onto (c : Customer) (d : CustomerImportRow) :
    (CustomerImportRow.onto c d).marketingConsentSource =
      (if d.marketingSmsConsent.isSome || d.marketingEmailConsent.isSome then
        some (some "csv_import") else none).getD c.marketingConsentSource := by
  unfold CustomerImportRow.onto CustomerImportRow.patch
  dsimp only
  split <;> rfl

/-- **All rows after some of them** come to all rows. -/
theorem applied_absorb (hsub : rs' ⊆ rs) (c : Customer) :
    applied c (rs' ++ rs) = applied c rs := by
  have h1 := column_absorb (fun c => c.orgId) (fun _ => none) (fun _ _ => rfl) hsub c
  have h2 := column_absorb (fun c => c.name) (fun d => some d.name) (fun _ _ => rfl) hsub c
  have h3 := column_absorb (fun c => c.email) (fun d => d.email.map some)
    (fun _ _ => or_eq_getD _ _) hsub c
  have h4 := column_absorb (fun c => c.phone) (fun d => d.phone.map some)
    (fun _ _ => or_eq_getD _ _) hsub c
  have h5 := column_absorb (fun c => c.externalId) (fun d => d.externalId.map some)
    (fun _ _ => or_eq_getD _ _) hsub c
  have h6 := column_absorb (fun c => c.marketingSmsConsent)
    (fun d => d.marketingSmsConsent.map granted) (fun _ _ => rfl) hsub c
  have h7 := column_absorb (fun c => c.marketingEmailConsent)
    (fun d => d.marketingEmailConsent.map granted) (fun _ _ => rfl) hsub c
  have h8 := column_absorb (fun c => c.marketingConsentSource) _ source_onto hsub c
  have h9 := metadata_absorb hsub c
  have h0 := profile_absorb hsub c
  revert h1 h2 h3 h4 h5 h6 h7 h8 h9 h0
  cases applied c (rs' ++ rs)
  cases applied c rs
  rintro rfl rfl rfl rfl rfl rfl rfl rfl rfl rfl
  rfl

theorem applied_snoc (c : Customer) (rs : List CustomerImportRow) (data : CustomerImportRow) :
    applied c (rs ++ [data]) = CustomerImportRow.onto (applied c rs) data := by
  simp [applied, List.foldl_append]

end

/-! ## The points of a patron -/

def pointsOf (s : Db) (customerId : Id) : ℤ :=
  ((s.rows .account fun _ (a : LoyaltyAccount) => a.customerId == customerId).head?.map
    fun a => a.2.pointsBalance).getD 0

/-- The store is well kept, and every account is a customer's. -/
structure Sound (s : Db) : Prop where
  kept : WellKept s
  linked {id : Id} {a : LoyaltyAccount} : s.get .account id = some a →
    ∃ c : Customer, s.get .customer a.customerId = some c

section

variable {a b s : Db} {customerId id : Id} {r : LoyaltyAccount}

theorem pointsOf_account (hs : WellKept s) (h : s.get .account id = some r)
    (hc : r.customerId = customerId) : pointsOf s customerId = r.pointsBalance := by
  unfold pointsOf
  cases hrows : s.rows .account fun _ (a : LoyaltyAccount) => a.customerId == customerId with
  | nil =>
    have hmem : (id, r) ∈ s.rows .account fun _ (a : LoyaltyAccount) => a.customerId == customerId :=
      Rel.mem_rows.mpr ⟨h, by simpa using hc⟩
    rw [hrows] at hmem
    cases hmem
  | cons x xs =>
    obtain ⟨id', r'⟩ := x
    have hmem : (id', r') ∈ s.rows .account fun _ (a : LoyaltyAccount) =>
        a.customerId == customerId := by
      rw [hrows]
      exact List.mem_cons_self
    obtain ⟨hr', hc'⟩ := Rel.mem_rows.mp hmem
    have hid : id' = id := hs.holder hr' h ((by simpa using hc' : r'.customerId = customerId).trans
      hc.symm)
    subst hid
    obtain rfl : r' = r := Option.some.inj (hr'.symm.trans h)
    rfl

theorem pointsOf_none (h : ∀ (id : Id) (r : LoyaltyAccount), s.get .account id = some r →
    r.customerId ≠ customerId) : pointsOf s customerId = 0 := by
  unfold pointsOf
  cases hrows : s.rows .account fun _ (a : LoyaltyAccount) => a.customerId == customerId with
  | nil => rfl
  | cons x xs =>
    obtain ⟨id', r'⟩ := x
    have hmem : (id', r') ∈ s.rows .account fun _ (a : LoyaltyAccount) =>
        a.customerId == customerId := by
      rw [hrows]
      exact List.mem_cons_self
    obtain ⟨hr', hc'⟩ := Rel.mem_rows.mp hmem
    exact absurd (by simpa using hc') (h id' r' hr')

theorem Sound.pointsOf_of_none (hs : Sound s) (h : s.get .customer customerId = none) :
    pointsOf s customerId = 0 := by
  refine pointsOf_none fun id r hr hc => ?_
  obtain ⟨c, hc'⟩ := hs.linked hr
  rw [hc, h] at hc'
  cases hc'

theorem account_or_none (s : Db) (customerId : Id) :
    (∃ (id : Id) (r : LoyaltyAccount), s.get .account id = some r ∧ r.customerId = customerId) ∨
      ∀ (id : Id) (r : LoyaltyAccount), s.get .account id = some r → r.customerId ≠ customerId := by
  by_cases h : ∃ (id : Id) (r : LoyaltyAccount), s.get .account id = some r ∧
      r.customerId = customerId
  · exact Or.inl h
  · exact Or.inr fun id r hr hc => h ⟨id, r, hr, hc⟩

theorem pointsOf_congr (ha : WellKept a) (hb : WellKept b)
    (h : ∀ id, b.get .account id = a.get .account id) (customerId : Id) :
    pointsOf b customerId = pointsOf a customerId := by
  rcases account_or_none a customerId with ⟨id, r, hr, hc⟩ | hnone
  · rw [pointsOf_account ha hr hc, pointsOf_account hb ((h id).trans hr) hc]
  · rw [pointsOf_none hnone, pointsOf_none fun id r hr => hnone id r ((h id).symm.trans hr)]

/-- **Opening an account** gives nobody points. -/
theorem Provision.pointsOf (h : Provision a b) (ha : WellKept a) (hb : WellKept b)
    (customerId : Id) : pointsOf b customerId = pointsOf a customerId := by
  cases h with
  | elsewhere hk _ h =>
    exact pointsOf_congr ha hb (fun id => h.get_ne fun he => by cases he; cases hk) customerId
  | openWallet _ h => exact pointsOf_congr ha hb (fun id => h.get_ne (by simp)) customerId
  | @openAccount new _ holder _ _ _ h =>
    have hne : ∀ {id r}, a.get .account id = some r → (Kind.account, id) ≠ (Kind.account, new) := by
      rintro id r hr he
      cases he
      rw [h.get_old] at hr
      cases hr
    rcases account_or_none a customerId with ⟨id, r, hr, hc⟩ | hnone
    · rw [pointsOf_account ha hr hc, pointsOf_account hb ((h.get_ne (hne hr)).trans hr) hc]
    · rw [pointsOf_none hnone]
      by_cases hcust : holder = customerId
      · rw [pointsOf_account hb h.get_self hcust]
      · refine pointsOf_none fun id r hr => ?_
        by_cases hid : id = new
        · subst hid
          rw [h.get_self] at hr
          cases hr
          exact hcust
        · exact hnone id r ((h.get_ne (by simpa using hid)).symm.trans hr)

theorem Sound.provision (ha : Sound a) (h : Provision a b) : Sound b where
  kept := Step.wellKept (.provision (P := fun _ _ => True) h) ha.kept
  linked {id r} hr := by
    have hgrows : Grows a b := Step.grows (.provision (P := fun _ _ => True) h)
    have hstays : ∀ c : Customer, a.get .customer r.customerId = some c →
        ∃ c' : Customer, b.get .customer r.customerId = some c' := fun c hc =>
      (hgrows.row hc).imp fun _ h => h.1
    cases h with
    | elsewhere hk _ h =>
      rw [h.get_ne fun he => by cases he; cases hk] at hr
      obtain ⟨c, hc⟩ := ha.linked hr
      exact hstays c hc
    | openWallet _ h =>
      rw [h.get_ne (by simp)] at hr
      obtain ⟨c, hc⟩ := ha.linked hr
      exact hstays c hc
    | @openAccount new _ _ _ _ hcustomer h =>
      by_cases hid : id = new
      · subst hid
        rw [h.get_self] at hr
        cases hr
        obtain ⟨c, hc⟩ := hcustomer
        exact hstays c hc
      · rw [h.get_ne (by simpa using hid)] at hr
        obtain ⟨c, hc⟩ := ha.linked hr
        exact hstays c hc

theorem Sound.provisions (ha : Sound a) (h : Provisions a b) :
    Sound b ∧ ∀ customerId, pointsOf b customerId = pointsOf a customerId := by
  induction h with
  | refl => exact ⟨ha, fun _ => rfl⟩
  | tail _ hs ih =>
    have hb := ih.1.provision hs
    exact ⟨hb, fun c => (Provision.pointsOf hs ih.1.kept hb.kept c).trans (ih.2 c)⟩

/-- **Writing a customer** gives nobody points. -/
theorem Sound.written (ha : Sound a) {old : Option Customer} {new : Customer}
    (h : Rel.Replaced .customer id old new a b) :
    Sound b ∧ ∀ customerId, pointsOf b customerId = pointsOf a customerId := by
  have hkept : WellKept b := by
    refine ⟨h.unique ha.kept.unique, fun hr hx => ?_⟩
    rw [h.get_ne (by simp)] at hr
    obtain ⟨q, hq, hc⟩ := ha.kept.referred hr hx
    exact ⟨q, (h.get_ne (by simp)).trans hq, hc⟩
  refine ⟨⟨hkept, fun {id' r} hr => ?_⟩,
    pointsOf_congr ha.kept hkept fun _ => h.get_ne (by simp)⟩
  rw [h.get_ne (by simp)] at hr
  obtain ⟨c, hc⟩ := ha.linked hr
  by_cases hid : r.customerId = id
  · rw [hid]
    exact ⟨new, h.get_self⟩
  · exact ⟨c, (h.get_ne (by simpa using hid)).trans hc⟩

/-- **Moving points** moves those of the holder of the account. -/
theorem Sound.posts (ha : Sound a) {m : Movement} {r' : LoyaltyAccount} (h : Posts m r r' a b) :
    Sound b ∧ ∀ customerId, pointsOf b customerId =
      pointsOf a customerId + if customerId = r.customerId then m.delta else 0 := by
  have hkept : WellKept b := Step.wellKept (.post (P := fun _ _ => True) trivial h) ha.kept
  obtain ⟨-, hcust, -⟩ := h.identity
  have hlinked : ∀ {id : Id} {q : LoyaltyAccount}, b.get .account id = some q →
      ∃ c : Customer, b.get .customer q.customerId = some c := by
    intro id q hq
    have hold : ∃ q0 : LoyaltyAccount, a.get .account id = some q0 ∧
        q0.customerId = q.customerId := by
      by_cases hid : id = m.accountId
      · subst hid
        rw [h.get_self] at hq
        cases hq
        exact ⟨r, h.found, hcust.symm⟩
      · exact ⟨q, (h.get_ne (by simpa using hid)).symm.trans hq, rfl⟩
    obtain ⟨q0, hq0, hc⟩ := hold
    obtain ⟨c, hc'⟩ := ha.linked hq0
    exact ⟨c, hc ▸ (h.get_ne (by simp)).trans hc'⟩
  refine ⟨⟨hkept, hlinked⟩, fun customerId => ?_⟩
  by_cases hc : customerId = r.customerId
  · subst hc
    rw [if_pos rfl, pointsOf_account ha.kept h.found rfl, pointsOf_account hkept h.get_self hcust,
      h.balance]
  · rw [if_neg hc, Int.add_zero]
    have hback : ∀ {id : Id} {q : LoyaltyAccount}, q.customerId = customerId →
        (b.get .account id = some q ↔ a.get .account id = some q) := by
      intro id q hq
      by_cases hid : id = m.accountId
      · subst hid
        rw [h.get_self, h.found]
        constructor
        · rintro he
          cases he
          exact absurd (hq.symm.trans hcust) hc
        · rintro he
          cases he
          exact absurd hq.symm hc
      · rw [h.get_ne (by simpa using hid)]
    rcases account_or_none a customerId with ⟨id, q, hq, hqc⟩ | hnone
    · rw [pointsOf_account ha.kept hq hqc, pointsOf_account hkept ((hback hqc).mpr hq) hqc]
    · rw [pointsOf_none hnone, pointsOf_none fun id q hq hqc => hnone id q ((hback hqc).mp hq) hqc]

end

/-! ## The transactions of a row -/

/-- **A customer is touched**: he is `new` and has the points, and the others are left alone. -/
structure Touches (id : Id) (new : Customer) (points : ℤ) (a b : Db) : Prop where
  sound : Sound b
  customer : b.get .customer id = some new
  points : pointsOf b id = points
  customers {i : Id} : i ≠ id → b.get .customer i = a.get .customer i
  others {i : Id} : i ≠ id → pointsOf b i = pointsOf a i

def CustomerImportRow.opening (data : CustomerImportRow) : ℤ :=
  if 0 < data.openingPoints.getD 0 then data.openingPoints.getD 0 else 0

section

variable {orgId id : Id} {data : CustomerImportRow} {s m a b c : Db} {new : Customer} {points : ℤ}

theorem gives_findBy {value : Option String} {p : String → Customer → Bool}
    {o : Option (Id × Customer)} (h : (findBy orgId value p).gives s o m) :
    m = s ∧ ∀ x, o = some x → s.get .customer x.1 = some x.2 := by
  unfold findBy at h
  split at h
  · obtain ⟨rfl, rfl⟩ := h
    exact ⟨rfl, fun x hx => by cases hx⟩
  · obtain ⟨rfl, ⟨rfl, -⟩ | ⟨x, hx, rfl⟩⟩ := Tx.gives_findFirst.mp h
    · exact ⟨rfl, fun x hx => by cases hx⟩
    · refine ⟨rfl, fun y hy => ?_⟩
      cases hy
      exact (Rel.mem_rows.mp hx).1

/-- The lookup only reads, and finds a customer as he is. -/
theorem gives_resolveMatch {o : Option (Id × Customer)} (h : (resolveMatch orgId data).gives s o m) :
    m = s ∧ ∀ x, o = some x → s.get .customer x.1 = some x.2 := by
  obtain ⟨byExt, m1, h1, h⟩ := h.seq
  obtain ⟨rfl, hext⟩ := gives_findBy h1
  cases byExt with
  | some x =>
    obtain ⟨rfl, rfl⟩ := h
    exact ⟨rfl, hext⟩
  | none =>
    obtain ⟨byEmail, m2, h2, h⟩ := h.seq
    obtain ⟨rfl, hemail⟩ := gives_findBy h2
    cases byEmail with
    | some x =>
      obtain ⟨rfl, rfl⟩ := h
      exact ⟨rfl, hemail⟩
    | none => exact gives_findBy h

theorem touches_of_written (ha : Sound a) {old : Option Customer}
    (h : Rel.Replaced .customer id old new a b) : Touches id new (pointsOf a id) a b where
  sound := (ha.written h).1
  customer := h.get_self
  points := (ha.written h).2 id
  customers hi := h.get_ne (by simpa using hi)
  others _ := (ha.written h).2 _

theorem touches_of_update (ha : Sound a) {c x : Customer} (hc : a.get .customer id = some c)
    (h : (applyUpdate orgId id c.metadata data).gives a x b) :
    Touches id (CustomerImportRow.onto c data) (pointsOf a id) a b := by
  obtain ⟨r, hr, hf, hclash, rfl⟩ := Rel.gives_modify.mp h
  obtain rfl : r = c := Option.some.inj (hr.symm.trans hc)
  split at hf
  · cases hf
    exact touches_of_written ha ⟨hr, hclash, rfl⟩
  · cases hf

theorem touches_of_create (ha : Sound a) (h : (createPatron orgId data).gives a id b) :
    a.get .customer id = none ∧
      Touches id (CustomerImportRow.onto (unknown orgId) data) 0 a b := by
  obtain ⟨id', m1, hi, h1⟩ := h.seq
  have hm1 := Tx.gives_input.mp hi
  subst hm1
  obtain ⟨u, m2, hins, h2⟩ := h1.seq
  obtain ⟨rfl, rfl⟩ := h2
  obtain ⟨hnone, hclash, rfl⟩ := Rel.gives_insert.mp hins
  refine ⟨hnone, ?_⟩
  rw [← ha.pointsOf_of_none hnone, ← customer_eq_onto]
  exact touches_of_written ha ⟨hnone, hclash, rfl⟩

/-- **Enrolling** leaves it at that. -/
theorem Touches.provisions (h : Touches id new points a b) (hp : Provisions b c)
    (hs : SameCustomers b c) : Touches id new points a c where
  sound := (h.sound.provisions hp).1
  customer := (hs id).trans h.customer
  points := ((h.sound.provisions hp).2 id).trans h.points
  customers hi := (hs _).trans (h.customers hi)
  others hi := ((h.sound.provisions hp).2 _).trans (h.others hi)

/-- **Crediting** a patron without points gives him his opening balance. -/
theorem Touches.credited (h : Touches id new 0 a b)
    (hg : (creditOpening orgId id data).gives b (.ok ()) c) :
    Touches id new data.opening a c := by
  unfold creditOpening at hg
  unfold CustomerImportRow.opening
  split at hg
  · rename_i hpos
    rw [if_pos hpos]
    obtain ⟨view, m, hadj, hpure⟩ := hg.seq
    obtain ⟨-, rfl⟩ := Call.gives_pure.mp hpure
    obtain ⟨m1, accountId, hp, hs, ⟨q, hq, -, hqc⟩, mv, r, r', hposts, -, hacc, htype, hpoints⟩ :=
      adjustPoints_gives hadj
    have h1 := h.provisions hp hs
    obtain ⟨hsound, hall⟩ := h1.sound.posts hposts
    have hr : r = q := by
      have hfound := hposts.found
      rw [hacc] at hfound
      exact Option.some.inj (hfound.symm.trans hq)
    have hrc : r.customerId = id := hr ▸ hqc
    have hdelta : mv.delta = data.openingPoints.getD 0 := adjustment_delta htype hpoints
    exact {
      sound := hsound
      customer := (hposts.get_ne (by simp)).trans h1.customer
      points := by rw [hall, if_pos hrc.symm, h1.points, hdelta, Int.zero_add]
      customers := fun hi => (hposts.get_ne (by simp)).trans (h1.customers hi)
      others := fun hi => by
        rw [hall, if_neg fun he => hi (he.trans hrc), Int.add_zero, h1.others hi] }
  · rename_i hpos
    rw [if_neg hpos]
    obtain ⟨-, rfl⟩ := Call.gives_pure.mp hg
    exact h

end

/-! ## How far a row comes -/

/-- How far the processing of a row has come. -/
inductive Course
  /-- It has written nothing. -/
  | stopped
  /-- It has written a customer it has found, and stopped before it was through. -/
  | updating (id : Id)
  | updated (id : Id)
  /-- It has created a customer, and stopped before it was through. -/
  | creating (id : Id)
  | created (id : Id)
  deriving DecidableEq, Repr

/-- The row has not been accepted: it is reported as an error, or dies with the server. -/
def Unaccepted (result : Option RowResult) : Prop := ∀ r, result = some r → ∃ m, r = .error m

/-- What comes after a patron is created. -/
def enrol (orgId id : Id) (data : CustomerImportRow) : LCall Unit :=
  (ensureAccount orgId id).bind fun _ => creditOpening orgId id data

/-- **A row is processed** from the store `s` on. -/
inductive RowRun (orgId : Id) (data : CustomerImportRow) (s : Db) :
    Course → Option RowResult → Db → Prop
  | stopped {result : Option RowResult} (hr : Unaccepted result) :
    RowRun orgId data s .stopped result s
  | updating {result : Option RowResult} {id : Id} {c x : Customer} {m s' : Db}
      (hr : Unaccepted result) (hf : (resolveMatch orgId data).gives s (some (id, c)) s)
      (hw : (applyUpdate orgId id c.metadata data).gives s x m)
      (he : (ensureAccount orgId id).passes m s') : RowRun orgId data s (.updating id) result s'
  | updated {id : Id} {c x : Customer} {a : Option AccountWithTier} {m s' : Db}
      (hf : (resolveMatch orgId data).gives s (some (id, c)) s)
      (hw : (applyUpdate orgId id c.metadata data).gives s x m)
      (he : (ensureAccount orgId id).gives m (.ok a) s') :
    RowRun orgId data s (.updated id) (some (.updated id)) s'
  | creating {result : Option RowResult} {id : Id} {m s' : Db} (hr : Unaccepted result)
      (hf : (resolveMatch orgId data).gives s none s)
      (hw : (createPatron orgId data).gives s id m) (he : (enrol orgId id data).passes m s') :
    RowRun orgId data s (.creating id) result s'
  | created {result : Option RowResult} {id : Id} {m s' : Db}
      (hr : result = none ∨ result = some (.created id))
      (hf : (resolveMatch orgId data).gives s none s)
      (hw : (createPatron orgId data).gives s id m)
      (he : (enrol orgId id data).gives m (.ok ()) s') : RowRun orgId data s (.created id) result s'

section

variable {orgId id : Id} {data : CustomerImportRow} {s s' : Db} {result : Option RowResult}

theorem unaccepted_none : Unaccepted none := fun _ h => by cases h

theorem unaccepted_error (m : String) : Unaccepted (some (.error m)) :=
  fun _ h => ⟨m, (Option.some.inj h).symm⟩

theorem importPatron_eq : importPatron orgId data =
    (withTenant (resolveMatch orgId data)).bind fun found =>
      match found with
      | some (customerId, existing) =>
        (withTenant (applyUpdate orgId customerId existing.metadata data)).bind fun _ =>
          (ensureAccount orgId customerId).bind fun _ => .pure (.updated customerId)
      | none =>
        (withTenant (createPatron orgId data)).bind fun customerId =>
          (ensureAccount orgId customerId).bind fun _ =>
            (creditOpening orgId customerId data).bind fun _ => .pure (.created customerId) := rfl

/-- **A patron is imported**, or not. -/
theorem importPatron_gives {r : Except Err RowResult} (h : (importPatron orgId data).gives s r s') :
    (∃ course result, r = .ok result ∧ RowRun orgId data s course (some result) s') ∨
      ∃ course e, r = .error e ∧ ∀ m, RowRun orgId data s course (some (.error m)) s' := by
  rw [importPatron_eq] at h
  rcases Call.gives_tx_bind h with ⟨found, m0, hf, h1⟩ | ⟨e, rfl, rfl⟩
  · obtain ⟨rfl, hfound⟩ := gives_resolveMatch hf
    cases found with
    | some x =>
      obtain ⟨id, c⟩ := x
      dsimp only at h1
      rcases Call.gives_tx_bind h1 with ⟨x, m, hw, h2⟩ | ⟨e, rfl, rfl⟩
      · rcases Call.gives_bind.mp h2 with ⟨a, m', he, hr⟩ | ⟨e, he, rfl⟩
        · obtain ⟨rfl, rfl⟩ := hr
          exact Or.inl ⟨_, _, rfl, .updated hf hw he⟩
        · exact Or.inr ⟨_, e, rfl, fun m =>
            .updating (unaccepted_error m) hf hw (Call.gives_passes he)⟩
      · exact Or.inr ⟨_, e, rfl, fun m => .stopped (unaccepted_error m)⟩
    | none =>
      dsimp only at h1
      rcases Call.gives_tx_bind h1 with ⟨id, m, hw, h2⟩ | ⟨e, rfl, rfl⟩
      · have h3 : ((enrol orgId id data).bind fun _ => .pure (.created id)).gives m r s' := by
          rw [enrol, Call.bind_assoc]
          exact h2
        rcases Call.gives_bind.mp h3 with ⟨u, m', he, hr⟩ | ⟨e, he, rfl⟩
        · obtain ⟨rfl, rfl⟩ := hr
          exact Or.inl ⟨_, _, rfl, .created (Or.inr rfl) hf hw he⟩
        · exact Or.inr ⟨_, e, rfl, fun m =>
            .creating (unaccepted_error m) hf hw (Call.gives_passes he)⟩
      · exact Or.inr ⟨_, e, rfl, fun m => .stopped (unaccepted_error m)⟩
  · exact Or.inr ⟨_, e, rfl, fun m => .stopped (unaccepted_error m)⟩

/-- **The server dies** while a patron is imported. -/
theorem importPatron_passes (h : (importPatron orgId data).passes s s') :
    ∃ course, RowRun orgId data s course none s' := by
  rw [importPatron_eq] at h
  rcases Call.passes_tx_bind h with rfl | ⟨found, m0, hf, h1⟩
  · exact ⟨_, .stopped unaccepted_none⟩
  · obtain ⟨rfl, hfound⟩ := gives_resolveMatch hf
    cases found with
    | some x =>
      obtain ⟨id, c⟩ := x
      dsimp only at h1
      rcases Call.passes_tx_bind h1 with rfl | ⟨x, m, hw, h2⟩
      · exact ⟨_, .stopped unaccepted_none⟩
      · rcases Call.passes_bind h2 with he | ⟨a, m', he, hr⟩
        · exact ⟨_, .updating unaccepted_none hf hw he⟩
        · cases hr
          exact ⟨_, .updating unaccepted_none hf hw (Call.gives_passes he)⟩
    | none =>
      dsimp only at h1
      rcases Call.passes_tx_bind h1 with rfl | ⟨id, m, hw, h2⟩
      · exact ⟨_, .stopped unaccepted_none⟩
      · have h3 : ((enrol orgId id data).bind fun _ =>
            (.pure (.created id) : LCall RowResult)).passes m s' := by
          rw [enrol, Call.bind_assoc]
          exact h2
        rcases Call.passes_bind h3 with he | ⟨u, m', he, hr⟩
        · exact ⟨_, .creating unaccepted_none hf hw he⟩
        · cases hr
          exact ⟨_, .created (Or.inl rfl) hf hw he⟩

/-- What a row that is refused before anything is read reports. -/
def refused (seenKeys : List String) : Except String CustomerImportRow → Bool
  | .error _ => true
  | .ok data => repeats seenKeys data

variable {seenKeys : List String} {row : Except String CustomerImportRow}

/-- **A row of the file** is refused as it is, or processed. -/
theorem importOneRow_gives {r : Except Err RowResult}
    (h : (importOneRow orgId seenKeys row).gives s r s') : ∃ result, r = .ok result ∧
      ((refused seenKeys row = true ∧ s' = s ∧ ∃ m, result = .error m) ∨
        ∃ data course, row = .ok data ∧ repeats seenKeys data = false ∧
          RowRun orgId data s course (some result) s') := by
  cases row with
  | error message =>
    obtain ⟨rfl, rfl⟩ := h
    exact ⟨_, rfl, Or.inl ⟨rfl, rfl, _, rfl⟩⟩
  | ok data =>
    rw [importOneRow] at h
    split at h
    · rename_i hrep
      obtain ⟨rfl, rfl⟩ := h
      exact ⟨_, rfl, Or.inl ⟨hrep, rfl, _, rfl⟩⟩
    · rename_i hrep
      have hno : repeats seenKeys data = false := Bool.eq_false_iff.mpr hrep
      rcases Call.gives_handle h with ⟨b, rfl, hb⟩ | ⟨e, m, he, hp⟩
      · rcases importPatron_gives hb with ⟨course, result, hr, hrun⟩ | ⟨course, e, hr, -⟩
        · cases hr
          exact ⟨_, rfl, Or.inr ⟨data, course, rfl, hno, hrun⟩⟩
        · cases hr
      · obtain ⟨rfl, rfl⟩ := hp
        rcases importPatron_gives he with ⟨course, result, hr, -⟩ | ⟨course, e', -, hrun⟩
        · cases hr
        · exact ⟨_, rfl, Or.inr ⟨data, course, rfl, hno, hrun _⟩⟩

theorem importOneRow_passes (h : (importOneRow orgId seenKeys row).passes s s') :
    s' = s ∨ ∃ data course, row = .ok data ∧ repeats seenKeys data = false ∧
      RowRun orgId data s course none s' := by
  cases row with
  | error message => exact Or.inl h
  | ok data =>
    rw [importOneRow] at h
    split at h
    · exact Or.inl h
    · rename_i hrep
      refine Or.inr ?_
      have hno : repeats seenKeys data = false := Bool.eq_false_iff.mpr hrep
      rcases Call.passes_handle h with hp | ⟨e, m, he, hp⟩
      · obtain ⟨course, hrun⟩ := importPatron_passes hp
        exact ⟨data, course, rfl, hno, hrun⟩
      · cases hp
        obtain ⟨course, hrun⟩ := importPatron_passes (Call.gives_passes he)
        exact ⟨data, course, rfl, hno, hrun⟩

/-! ## What a row has done -/

/-- Not a customer. -/
theorem RowRun.unchanged (h : RowRun orgId data s .stopped result s') :
    s' = s := by
  cases h
  rfl

theorem updating_touches {c x : Customer} {m : Db} (hs : Sound s)
    (hf : (resolveMatch orgId data).gives s (some (id, c)) s)
    (hw : (applyUpdate orgId id c.metadata data).gives s x m)
    (he : (ensureAccount orgId id).passes m s') : s.get .customer id = some c ∧
      Touches id (CustomerImportRow.onto c data) (pointsOf s id) s s' := by
  have hc := (gives_resolveMatch hf).2 _ rfl
  exact ⟨hc, (touches_of_update hs hc hw).provisions ((ensureAccount_keeps .refl).passes _ he)
    (sameCustomers_of_steps (ensureAccount_spares _ _ he))⟩

/-- **A row that updates** touches the customer it has found. -/
theorem RowRun.touches_found {course : Course} (hs : Sound s)
    (h : RowRun orgId data s course result s') (hc : course = .updating id ∨ course = .updated id) :
    ∃ c, s.get .customer id = some c ∧
      Touches id (CustomerImportRow.onto c data) (pointsOf s id) s s' := by
  cases h with
  | stopped => rcases hc with hc | hc <;> cases hc
  | updating _ hf hw he =>
    rcases hc with hc | hc <;> cases hc
    exact ⟨_, updating_touches hs hf hw he⟩
  | updated hf hw he =>
    rcases hc with hc | hc <;> cases hc
    exact ⟨_, updating_touches hs hf hw (Call.gives_passes he)⟩
  | creating => rcases hc with hc | hc <;> cases hc
  | created => rcases hc with hc | hc <;> cases hc

theorem creditOpening_eq (h : data.openingPoints.getD 0 ≤ 0) :
    creditOpening orgId id data = .pure () := if_neg (by omega)

/-- **A row that creates** touches a new customer, who has the opening balance once the row is through,
or if there is none. -/
theorem RowRun.touches_new {course : Course} (hs : Sound s)
    (h : RowRun orgId data s course result s')
    (hc : course = .created id ∨ course = .creating id ∧ data.openingPoints.getD 0 ≤ 0) :
    s.get .customer id = none ∧
      Touches id (CustomerImportRow.onto (unknown orgId) data) data.opening s s' := by
  cases h with
  | stopped => rcases hc with hc | ⟨hc, -⟩ <;> cases hc
  | updating => rcases hc with hc | ⟨hc, -⟩ <;> cases hc
  | updated => rcases hc with hc | ⟨hc, -⟩ <;> cases hc
  | @creating _ _ m _ _ _ hw he =>
    rcases hc with hc | ⟨hc, hno⟩ <;> cases hc
    obtain ⟨hnone, ht⟩ := touches_of_create hs hw
    refine ⟨hnone, ?_⟩
    have he' : (ensureAccount orgId id).passes m s' := by
      rw [enrol, creditOpening_eq hno] at he
      rcases Call.passes_bind he with he | ⟨a, m', he, hp⟩
      · exact he
      · cases hp
        exact Call.gives_passes he
    have hopening : data.opening = 0 := if_neg (by omega)
    rw [hopening]
    exact ht.provisions ((ensureAccount_keeps .refl).passes _ he')
      (sameCustomers_of_steps (ensureAccount_spares _ _ he'))
  | created _ _ hw he =>
    rcases hc with hc | ⟨hc, -⟩ <;> cases hc
    obtain ⟨hnone, ht⟩ := touches_of_create hs hw
    obtain ⟨a, m', hens, hcred⟩ := he.seq
    have hp := Call.gives_passes hens
    exact ⟨hnone, (ht.provisions ((ensureAccount_keeps .refl).passes _ hp)
      (sameCustomers_of_steps (ensureAccount_spares _ _ hp))).credited hcred⟩

end

end PatronLoyalty.Crm
