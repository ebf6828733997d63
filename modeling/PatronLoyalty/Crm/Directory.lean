import Mathlib.Data.List.Infix
import Mathlib.Data.List.Permutation
import PatronLoyalty.Crm.Segments
import PatronLoyalty.Txn.Counting
import PatronLoyalty.Txn.Effects

/-!
# The patron directory

`CustomerService.listForPrincipal` and what it calls. The scope of a list comes from the branch that
is asked for, from the branches the principal is assigned to, and from the branch of a saved segment,
which takes the place of both.

Headline: **`listForPrincipal_scoped_iff`**, for which filters a list stays in the scope of the
principal, whatever patrons the organisation has.
-/

namespace PatronLoyalty.Crm

open Txn Loyalty

/-! ## The principal -/

/-- `SYSTEM_ROLES.OWNER`, `SYSTEM_ROLES.ADMIN`. -/
def orgWideRole (name : String) : Bool := name == "owner" || name == "admin"

/-- `resolveAllowedBranchIds`: `none` stands for all branches. -/
def resolveAllowedBranchIds (orgId userId : Id) (s : Db) : Option (List Id) :=
  let assignments := s.rows .roleAssignment fun _ r => r.userId == userId && r.orgId == orgId
  if assignments.any fun r => r.2.branchId.isNone && orgWideRole r.2.roleName then none
  else some (assignments.filterMap (·.2.branchId)).dedup

/-! ## Filters -/

structure CustomerListFilters where
  branchId : Option Id := none
  search : Option String := none
  segment : Option CustomerSegmentPreset := none
  savedSegmentId : Option Id := none
  page : Option ℕ := none
  limit : Option ℕ := none
  deriving DecidableEq, Repr

def savedSegment (orgId : Id) (filters : CustomerListFilters) (s : Db) : Option CustomerSegment :=
  filters.savedSegmentId.bind fun id => (s.get .customerSegment id).filter
    (visible orgId .customerSegment)

def CustomerListFilters.own (filters : CustomerListFilters) : CustomerSegmentFilters :=
  { preset := filters.segment, branchId := filters.branchId, search := filters.search }

/-- `resolveSegmentFilters`: the filters of the saved segment, or the request's own. -/
def resolveSegmentFilters (orgId : Id) (filters : CustomerListFilters) (s : Db) :
    Except Err CustomerSegmentFilters :=
  if filters.savedSegmentId.isSome then
    match savedSegment orgId filters s with
    | none => .error (.notFound "Saved segment not found")
    | some saved => .ok (saved.filters.getD filters.own)
  else .ok filters.own

/-- `findCustomerIdsForBranches`: by the tickets of known customers, and by the contacts of these
tickets and of appointments. -/
def findCustomerIdsForBranches (orgId : Id) (branchIds : List Id) (s : Db) : List Id :=
  let tickets := s.rows .ticket fun _ t => visible orgId .ticket t &&
    branchIds.contains t.branchId && t.customerId.isSome
  let appointments := s.rows .appointment fun _ a => visible orgId .appointment a &&
    branchIds.contains a.branchId
  let phones := tickets.filterMap (truthy ·.2.customerPhone) ++
    appointments.filterMap (truthy ·.2.customerPhone)
  let emails := tickets.filterMap (truthy ·.2.customerEmail) ++
    appointments.filterMap (truthy ·.2.customerEmail)
  let lower := emails.map String.toLower
  tickets.filterMap (·.2.customerId) ++
    customersWhere orgId (fun _ c => (truthy c.phone).any (phones.contains ·) ||
      (truthy c.email).any fun e => lower.contains e.toLower) s

/-! ## Lists -/

/-- `mode: 'insensitive'`. -/
def containsInsensitive (text t : String) : Bool := containsText text.toLower t.toLower

def searchMatches (search : String) (c : Customer) : Bool :=
  containsInsensitive c.name search || c.email.any (containsInsensitive · search) ||
    c.phone.any (containsText · search)

/-- The condition `where` of a list. -/
def listWhere (orgId : Id) (filters : CustomerListFilters) (allowed : Option (List Id))
    (segment : CustomerSegmentFilters) (today : Time) (s : Db) (id : Id) (c : Customer) : Bool :=
  (segment.preset.all fun preset => segmentWhere orgId preset today s id c) &&
  ((truthy (segment.search.or (filters.search.map trim))).all (searchMatches · c)) &&
  (match segment.branchId.or filters.branchId with
    | some branchId => (findCustomerIdsForBranches orgId [branchId] s).contains id
    | none => allowed.all fun branchIds =>
        branchIds.isEmpty || (findCustomerIdsForBranches orgId branchIds s).contains id)

structure CustomerPage where
  data : List (Id × Customer)
  page : ℕ
  limit : ℕ
  total : ℕ
  totalPages : ℕ
  deriving DecidableEq, Repr

/-- `Math.ceil(total / limit)`. -/
def pagesOf (total limit : ℕ) : ℕ := (total + limit - 1) / limit

def pageOf (page limit n : ℕ) (rows : List (Id × Customer)) : CustomerPage where
  data := (((rows.permutations'[n % rows.permutations'.length]?).getD []).drop
    ((page - 1) * limit)).take limit
  page := page
  limit := limit
  total := rows.length
  totalPages := pagesOf rows.length limit

/-- `CustomerService.list`; `n` stands for the order of the rows, whose creation times are left
out. -/
def list (orgId : Id) (filters : CustomerListFilters) (allowed : Option (List Id)) (today : Time)
    (n : ℕ) (s : Db) : Except Err CustomerPage := do
  let page := filters.page.getD 1
  let limit := min (filters.limit.getD 20) 100
  if allowed = some [] then pure ⟨[], page, limit, 0, 0⟩
  else
    let segment ← resolveSegmentFilters orgId filters s
    pure (pageOf page limit n (s.rows .customer fun id c => visible orgId .customer c &&
      listWhere orgId filters allowed segment today s id c))

def branchOutOfScope : Err := .forbidden "Branch not in your scope"

def listForPrincipal (enabled : Bool) (orgId userId : Id) (filters : CustomerListFilters)
    (today : Time) (n : ℕ) (s : Db) : Except Err CustomerPage :=
  if !enabled then .error Loyalty.patronCrmDisabled
  else
    let allowed := resolveAllowedBranchIds orgId userId s
    match filters.branchId with
    | some branchId =>
      if allowed.any fun ids => !ids.contains branchId then .error branchOutOfScope
      else list orgId filters none today n s
    | none => list orgId filters allowed today n s

/-! ## Scope -/

section

variable {orgId userId : Id} {filters : CustomerListFilters} {s s₀ : Db} {ids : List Id} {n : ℕ}
  {today : Time}

/-- The branch stored in the saved segment a request names. -/
def segmentBranch (orgId : Id) (filters : CustomerListFilters) (s : Db) : Option Id :=
  ((savedSegment orgId filters s).bind (·.filters)).bind (·.branchId)

/-- Every customer on the page is of a branch in `ids`, and of the branch that was asked for. -/
def Scoped (orgId : Id) (filters : CustomerListFilters) (ids : List Id) (s : Db)
    (page : CustomerPage) : Prop :=
  ∀ x ∈ page.data, x.1 ∈ findCustomerIdsForBranches orgId ids s ∧
    ∀ branchId, filters.branchId = some branchId →
      x.1 ∈ findCustomerIdsForBranches orgId [branchId] s

/-- Every list of these filters is in scope, whatever patrons, tickets and appointments there are,
in whatever order, and on whatever page. -/
def AlwaysScoped (orgId userId : Id) (filters : CustomerListFilters) (ids : List Id) (s₀ : Db) :
    Prop :=
  ∀ (s : Db) (enabled : Bool) (today : Time) (n : ℕ) (number limit : Option ℕ)
    (page : CustomerPage),
    s.tables .roleAssignment = s₀.tables .roleAssignment →
    s.tables .customerSegment = s₀.tables .customerSegment →
    listForPrincipal enabled orgId userId { filters with page := number, limit := limit } today n s =
      .ok page → Scoped orgId filters ids s page

/-- **The condition**: the branch of the saved segment, if it has one, is the branch that was asked
for; where none was, it is one of the principal's. -/
def SegmentInScope (orgId : Id) (filters : CustomerListFilters) (ids : List Id) (s : Db) : Prop :=
  ∀ stored, segmentBranch orgId filters s = some stored →
    (∀ branchId ∈ ids, filters.branchId = some branchId → stored = branchId) ∧
    (filters.branchId = none → ids ≠ [] → stored ∈ ids)

def effectiveBranch (orgId : Id) (filters : CustomerListFilters) (s : Db) : Option Id :=
  (segmentBranch orgId filters s).or filters.branchId

theorem resolveSegmentFilters_branch {segment : CustomerSegmentFilters}
    (h : resolveSegmentFilters orgId filters s = .ok segment) :
    segment.branchId.or filters.branchId = effectiveBranch orgId filters s := by
  unfold resolveSegmentFilters at h
  unfold effectiveBranch segmentBranch
  split at h
  · cases hs : savedSegment orgId filters s with
    | none =>
      rw [hs] at h
      cases h
    | some saved =>
      rw [hs] at h
      cases h
      cases hf : saved.filters <;> simp [hf, CustomerListFilters.own]
  · rename_i hn
    cases h
    have hnone : filters.savedSegmentId = none := by simpa using hn
    simp [savedSegment, hnone, CustomerListFilters.own]

/-! ### What is listed is in scope -/

theorem rows_mono {k : Kind} {p q : Id → Row k → Bool} (h : ∀ id r, p id r = true → q id r = true)
    {x : Id × Row k} (hx : x ∈ s.rows k p) : x ∈ s.rows k q := by
  obtain ⟨id, r⟩ := x
  obtain ⟨hg, hp⟩ := Rel.mem_rows.mp hx
  exact Rel.mem_rows.mpr ⟨hg, h id r hp⟩

theorem findCustomerIdsForBranches_mono {ids' : List Id} (h : ids ⊆ ids') {id : Id}
    (hm : id ∈ findCustomerIdsForBranches orgId ids s) :
    id ∈ findCustomerIdsForBranches orgId ids' s := by
  have contains_mono : ∀ branchId : Id, ids.contains branchId = true →
      ids'.contains branchId = true := fun branchId hb => by
    simpa using h (by simpa using hb)
  have tickets : ∀ x ∈ s.rows .ticket fun _ t => visible orgId .ticket t &&
      ids.contains t.branchId && t.customerId.isSome, x ∈ s.rows .ticket fun _ t =>
      visible orgId .ticket t && ids'.contains t.branchId && t.customerId.isSome :=
    fun x => rows_mono fun _ t ht => by
      simp only [Bool.and_eq_true] at ht ⊢
      exact ⟨⟨ht.1.1, contains_mono _ ht.1.2⟩, ht.2⟩
  have appointments : ∀ x ∈ s.rows .appointment fun _ a => visible orgId .appointment a &&
      ids.contains a.branchId, x ∈ s.rows .appointment fun _ a =>
      visible orgId .appointment a && ids'.contains a.branchId :=
    fun x => rows_mono fun _ a ha => by
      simp only [Bool.and_eq_true] at ha ⊢
      exact ⟨ha.1, contains_mono _ ha.2⟩
  unfold findCustomerIdsForBranches at hm ⊢
  simp only [List.mem_append, List.mem_filterMap, mem_customersWhere, Bool.or_eq_true,
    Option.any_eq_true, List.contains_iff_mem, List.mem_map] at hm ⊢
  rcases hm with ⟨x, hx, he⟩ | ⟨c, hg, ho, ⟨phone, hc, hp⟩ | ⟨email, hc, e, he, hl⟩⟩
  · exact Or.inl ⟨x, tickets x hx, he⟩
  · refine Or.inr ⟨c, hg, ho, Or.inl ⟨phone, hc, ?_⟩⟩
    rcases hp with ⟨x, hx, hxp⟩ | ⟨x, hx, hxp⟩
    · exact Or.inl ⟨x, tickets x hx, hxp⟩
    · exact Or.inr ⟨x, appointments x hx, hxp⟩
  · refine Or.inr ⟨c, hg, ho, Or.inr ⟨email, hc, e, ?_, hl⟩⟩
    rcases he with ⟨x, hx, hxe⟩ | ⟨x, hx, hxe⟩
    · exact Or.inl ⟨x, tickets x hx, hxe⟩
    · exact Or.inr ⟨x, appointments x hx, hxe⟩

theorem mem_pageOf {number limit : ℕ} {rows : List (Id × Customer)} {x : Id × Customer}
    (h : x ∈ (pageOf number limit n rows).data) : x ∈ rows := by
  unfold pageOf at h
  have hx := List.mem_of_mem_drop (List.mem_of_mem_take h)
  cases hp : rows.permutations'[n % rows.permutations'.length]? with
  | none =>
    rw [hp] at hx
    cases hx
  | some ys =>
    rw [hp] at hx
    exact (List.mem_permutations'.mp (List.mem_of_getElem? hp)).mem_iff.mp hx

theorem branch_of_listWhere (ids : List Id) {allowed : Option (List Id)}
    {segment : CustomerSegmentFilters} {id : Id} {c : Customer}
    (hseg : resolveSegmentFilters orgId filters s = .ok segment)
    (h : listWhere orgId filters allowed segment today s id c = true) :
    (∀ branchId, effectiveBranch orgId filters s = some branchId →
      id ∈ findCustomerIdsForBranches orgId [branchId] s) ∧
    (effectiveBranch orgId filters s = none → allowed = some ids → ids ≠ [] →
      id ∈ findCustomerIdsForBranches orgId ids s) := by
  unfold listWhere at h
  rw [resolveSegmentFilters_branch hseg] at h
  obtain ⟨-, hb⟩ := Bool.and_eq_true_iff.mp h
  constructor
  · intro branchId he
    rw [he] at hb
    simpa using hb
  · rintro he rfl hne
    rw [he] at hb
    simpa [hne] using hb

theorem list_branch (ids : List Id) {allowed : Option (List Id)} {page : CustomerPage}
    (h : list orgId filters allowed today n s = .ok page) {x : Id × Customer} (hx : x ∈ page.data) :
    (∀ branchId, effectiveBranch orgId filters s = some branchId →
      x.1 ∈ findCustomerIdsForBranches orgId [branchId] s) ∧
    (effectiveBranch orgId filters s = none → allowed = some ids →
      x.1 ∈ findCustomerIdsForBranches orgId ids s) ∧ allowed ≠ some [] := by
  unfold list at h
  by_cases hempty : allowed = some []
  · simp only [hempty, if_true] at h
    cases h
    cases hx
  · simp only [hempty, if_false] at h
    cases hseg : resolveSegmentFilters orgId filters s with
    | error e =>
      rw [hseg] at h
      cases h
    | ok segment =>
      rw [hseg] at h
      cases h
      have hrow := mem_pageOf hx
      obtain ⟨-, hp⟩ := Rel.mem_rows.mp hrow
      obtain ⟨hb, ha⟩ := branch_of_listWhere ids hseg (Bool.and_eq_true_iff.mp hp).2
      exact ⟨hb, fun he hal => ha he hal fun hn => hempty (hn ▸ hal), hempty⟩

theorem scoped_of_segmentInScope (hA : resolveAllowedBranchIds orgId userId s = some ids)
    (hseg : SegmentInScope orgId filters ids s) {enabled : Bool} {page : CustomerPage}
    (h : listForPrincipal enabled orgId userId filters today n s = .ok page) :
    Scoped orgId filters ids s page := by
  unfold listForPrincipal at h
  cases enabled with
  | false => cases h
  | true =>
    intro x hx
    cases hb : filters.branchId with
    | none =>
      simp only [Bool.not_true, Bool.false_eq_true, if_false, hA, hb] at h
      obtain ⟨hbr, hal, hne⟩ := list_branch ids h hx
      refine ⟨?_, fun branchId he => by cases he⟩
      cases he : effectiveBranch orgId filters s with
      | none => exact hal he rfl
      | some stored =>
        have hst : segmentBranch orgId filters s = some stored := by
          simpa [effectiveBranch, hb] using he
        have hmem := (hseg stored hst).2 hb fun hn => hne (by rw [hn])
        exact findCustomerIdsForBranches_mono (by simpa using hmem) (hbr stored he)
    | some branchId =>
      simp only [Bool.not_true, Bool.false_eq_true, if_false, hA, hb] at h
      by_cases hm : branchId ∈ ids
      · have hscope : (Option.any (fun ids => !List.contains ids branchId) (some ids)) = false := by
          simpa using hm
        simp only [hscope, Bool.false_eq_true, if_false] at h
        obtain ⟨hbr, -, -⟩ := list_branch ids h hx
        have he : effectiveBranch orgId filters s = some branchId := by
          unfold effectiveBranch
          cases hst : segmentBranch orgId filters s with
          | none => simpa using hb
          | some stored => simpa using (hseg stored hst).1 branchId hm hb
        refine ⟨findCustomerIdsForBranches_mono (by simpa using hm) (hbr branchId he), ?_⟩
        rintro b hb'
        cases hb'
        exact hbr branchId he
      · have hscope : (Option.any (fun ids => !List.contains ids branchId) (some ids)) = true := by
          simpa using hm
        rw [hscope] at h
        cases h

/-! ### A patron of one branch -/

/-- A patron who belongs to every segment and whose name is `text`. -/
def specimenCustomer (orgId : Id) (text : String) : Customer :=
  { orgId := orgId, name := text, phone := some "1", marketingSmsConsent := "GRANTED" }

def specimenAccount (orgId : Id) : LoyaltyAccount :=
  { orgId := orgId, customerId := 1, tierId := none, referralCode := "", totalVisits := 5
    lifetimePointsEarned := 5000, lifetimeValueCents := 100000, healthScore := 70
    churnRisk := .high }

def specimenTicket (orgId branchId : Id) : Ticket :=
  { orgId := orgId, customerId := some 1, customerPhone := some "1", completed := true
    completedAt := none, branchId := branchId }

def specimenAppointment (orgId branchId : Id) : Appointment :=
  { orgId := orgId, branchId := branchId, customerPhone := some "1", customerEmail := none
    scheduledAt := 0, status := "no_show" }

def specimenReview (orgId : Id) (text : String) : Review :=
  { orgId := orgId, customerName := text, customerEmail := none, rating := 1 }

/-- The store of an organisation with that patron and no other, beside the segments and roles of
another store. -/
def specimen (orgId branchId : Id) (text : String) (s₀ : Db) : Db where
  tables
    | .customer => AList.singleton 1 (specimenCustomer orgId text)
    | .account => AList.singleton 1 (specimenAccount orgId)
    | .ticket => ((AList.singleton 1 (specimenTicket orgId branchId)).insert 2
        (specimenTicket orgId branchId)).insert 3 (specimenTicket orgId branchId)
    | .appointment => AList.singleton 1 (specimenAppointment orgId branchId)
    | .review => AList.singleton 1 (specimenReview orgId text)
    | .customerSegment => s₀.tables .customerSegment
    | .roleAssignment => s₀.tables .roleAssignment
    | _ => ∅
  log := []

variable {branchId : Id} {text : String}

theorem rows_of_entries {k : Kind} {entries : List (Id × Row k)}
    (h : (s.tables k).entries = entries.map fun x => ⟨x.1, x.2⟩) (p : Id → Row k → Bool) :
    s.rows k p = entries.filter fun x => p x.1 x.2 := by
  unfold Rel.rows
  rw [h]
  clear h
  induction entries with
  | nil => rfl
  | cons x xs ih =>
    simp only [List.map_cons, List.filterMap_cons, List.filter_cons]
    cases hp : p x.1 x.2 <;> simp [ih]

theorem specimen_customer (p : Id → Customer → Bool) :
    (specimen orgId branchId text s₀).rows .customer p =
      [(1, specimenCustomer orgId text)].filter fun x => p x.1 x.2 :=
  rows_of_entries (k := .customer) rfl p

theorem specimen_account (p : Id → LoyaltyAccount → Bool) :
    (specimen orgId branchId text s₀).rows .account p =
      [(1, specimenAccount orgId)].filter fun x => p x.1 x.2 :=
  rows_of_entries (k := .account) rfl p

theorem specimen_ticket (p : Id → Ticket → Bool) :
    (specimen orgId branchId text s₀).rows .ticket p =
      [(3, specimenTicket orgId branchId), (2, specimenTicket orgId branchId),
        (1, specimenTicket orgId branchId)].filter fun x => p x.1 x.2 :=
  rows_of_entries (k := .ticket) rfl p

theorem specimen_appointment (p : Id → Appointment → Bool) :
    (specimen orgId branchId text s₀).rows .appointment p =
      [(1, specimenAppointment orgId branchId)].filter fun x => p x.1 x.2 :=
  rows_of_entries (k := .appointment) rfl p

theorem specimen_review (p : Id → Review → Bool) :
    (specimen orgId branchId text s₀).rows .review p =
      [(1, specimenReview orgId text)].filter fun x => p x.1 x.2 :=
  rows_of_entries (k := .review) rfl p

theorem specimen_in_segment (preset : CustomerSegmentPreset) :
    segmentWhere orgId preset 0 (specimen orgId branchId text s₀) 1
      (specimenCustomer orgId text) = true := by
  cases preset with
  | repeatVisitors90d =>
    simp [segmentWhere, presetWhere, resolvePresetCustomerIds, repeatVisitors90d, customersWhere,
      specimen_customer, specimen_ticket]
    simp [specimenTicket, specimenCustomer, visible, orgOf, ticketOf]
  | appointmentNoShowLast =>
    simp [segmentWhere, presetWhere, resolvePresetCustomerIds, appointmentNoShowLast, customersWhere,
      appointmentsOf, specimen_customer, specimen_appointment]
    simp [specimenAppointment, specimenCustomer, visible, orgOf, samePhone]
  | lowRatingReview =>
    simp [segmentWhere, presetWhere, resolvePresetCustomerIds, lowRatingReview, customersWhere,
      specimen_customer, specimen_review]
    simp [specimenReview, specimenCustomer, visible, orgOf]
  | marketingSmsOptedIn => rfl
  | loyaltyInactive90d =>
    simp [segmentWhere, presetWhere, resolvePresetCustomerIds, loyaltyInactive90d,
      specimen_account, inactive90d, ledgerWhere]
    simp [specimenAccount, visible, orgOf, specimen]
  | loyaltyVip => 
    simp [segmentWhere, presetWhere, hasAccount, specimen_account, specimenAccount, visible, orgOf]
  | loyaltyHighLtv => 
    simp [segmentWhere, presetWhere, hasAccount, specimen_account, specimenAccount, visible, orgOf]
  | loyaltyRfmChampions =>
    simp [segmentWhere, presetWhere, hasAccount, specimen_account, specimenAccount, visible, orgOf]
  | loyaltyAtRisk => 
    simp [segmentWhere, presetWhere, hasAccount, specimen_account, specimenAccount, visible, orgOf]

theorem specimen_in_branch :
    1 ∈ findCustomerIdsForBranches orgId [branchId] (specimen orgId branchId text s₀) := by
  unfold findCustomerIdsForBranches
  simp [specimen_ticket, specimenTicket, visible, orgOf]

theorem specimen_not_in_branches (h : branchId ∉ ids) :
    1 ∉ findCustomerIdsForBranches orgId ids (specimen orgId branchId text s₀) := by
  unfold findCustomerIdsForBranches customersWhere
  simp [specimen_ticket, specimen_appointment, specimen_customer, specimenTicket,
    specimenAppointment, specimenCustomer, visible, orgOf, h, truthy]

theorem containsText_self (text : String) : containsText text text = true := by
  unfold containsText
  rw [List.any_eq_true]
  exact ⟨text.toList, (List.mem_tails _ _).mpr (List.suffix_refl _), by simp⟩

theorem savedSegment_congr (h : s.tables .customerSegment = s₀.tables .customerSegment) :
    savedSegment orgId filters s = savedSegment orgId filters s₀ := by
  unfold savedSegment Rel.get
  rw [h]

theorem segmentBranch_congr (h : s.tables .customerSegment = s₀.tables .customerSegment) :
    segmentBranch orgId filters s = segmentBranch orgId filters s₀ := by
  unfold segmentBranch
  rw [savedSegment_congr h]

theorem resolveAllowedBranchIds_congr (h : s.tables .roleAssignment = s₀.tables .roleAssignment) :
    resolveAllowedBranchIds orgId userId s = resolveAllowedBranchIds orgId userId s₀ := by
  unfold resolveAllowedBranchIds Rel.rows
  rw [h]

theorem pageOf_singleton (x : Id × Customer) : x ∈ (pageOf 1 1 0 [x]).data := by
  simp [pageOf, List.permutations', List.permutations'Aux]

/-- The patron of the branch of the saved segment is on the first page. -/
theorem specimen_listed (allowed : Option (List Id)) (hal : allowed ≠ some [])
    (hst : segmentBranch orgId filters s₀ = some branchId) :
    ∃ text page, list orgId { filters with page := some 1, limit := some 1 } allowed 0 0
      (specimen orgId branchId text s₀) = .ok page ∧ (1, specimenCustomer orgId text) ∈ page.data := by
  obtain ⟨stored, hs, hb⟩ := Option.bind_eq_some_iff.mp hst
  obtain ⟨saved, hsaved, hf⟩ := Option.bind_eq_some_iff.mp hs
  have hid : filters.savedSegmentId.isSome = true := by
    obtain ⟨id, hid, -⟩ := Option.bind_eq_some_iff.mp hsaved
    rw [hid]
    rfl
  let search := truthy (stored.search.or (filters.search.map trim))
  let text := search.getD ""
  have hseg : resolveSegmentFilters orgId { filters with page := some 1, limit := some 1 }
      (specimen orgId branchId text s₀) = .ok stored := by
    unfold resolveSegmentFilters
    have hsaved' : savedSegment orgId { filters with page := some 1, limit := some 1 }
        (specimen orgId branchId text s₀) = some saved := hsaved
    rw [if_pos hid, hsaved']
    dsimp only
    rw [hf]
    rfl
  have hsearch : search.all (fun t => searchMatches t (specimenCustomer orgId text)) = true := by
    cases h : search with
    | none => rfl
    | some t =>
      have ht : text = t := by simp only [text, h, Option.getD_some]
      simp [searchMatches, containsInsensitive, specimenCustomer, ht, containsText_self]
  have hwhere : listWhere orgId { filters with page := some 1, limit := some 1 } allowed stored 0
      (specimen orgId branchId text s₀) 1 (specimenCustomer orgId text) = true := by
    unfold listWhere
    rw [Bool.and_eq_true, Bool.and_eq_true]
    refine ⟨⟨?_, hsearch⟩, ?_⟩
    · cases stored.preset with
      | none => rfl
      | some preset => exact specimen_in_segment preset
    · rw [hb]
      have hin : 1 ∈ findCustomerIdsForBranches orgId [branchId] (specimen orgId branchId text s₀) :=
        specimen_in_branch
      simpa using hin
  refine ⟨text, pageOf 1 1 0 [(1, specimenCustomer orgId text)], ?_, pageOf_singleton _⟩
  have hrows : (specimen orgId branchId text s₀).rows .customer (fun id c =>
      visible orgId .customer c && listWhere orgId { filters with page := some 1, limit := some 1 }
        allowed stored 0 (specimen orgId branchId text s₀) id c) =
      [(1, specimenCustomer orgId text)] := by
    rw [specimen_customer]
    simp only [List.filter_cons, List.filter_nil, hwhere, Bool.and_true]
    simp [visible, orgOf, specimenCustomer]
  unfold list
  simp only [if_neg hal, hseg]
  show Except.ok (pageOf 1 1 0 ((specimen orgId branchId text s₀).rows .customer _)) = _
  rw [hrows]

/-- **The scope of the directory.** For every organisation, principal with a list of branches,
filters and saved segments: every list of these filters is in scope, in every store with these
segments, if and only if the branch of the saved segment is the branch that was asked for, or one of
the principal's where none was. -/
theorem listForPrincipal_scoped_iff (hA : resolveAllowedBranchIds orgId userId s₀ = some ids) :
    AlwaysScoped orgId userId filters ids s₀ ↔ SegmentInScope orgId filters ids s₀ := by
  constructor
  · intro h stored hst
    constructor
    · intro branchId hm hb
      by_contra hne
      obtain ⟨text, page, hl, hx⟩ := specimen_listed none (by simp) hst
      have hlist : listForPrincipal true orgId userId
          { filters with page := some 1, limit := some 1 } 0 0 (specimen orgId stored text s₀) =
            .ok page := by
        have hallowed : resolveAllowedBranchIds orgId userId (specimen orgId stored text s₀) =
            some ids := hA
        unfold listForPrincipal
        rw [hallowed]
        simpa [hb, hm] using hl
      have hscope := h (specimen orgId stored text s₀) true 0 0 (some 1) (some 1) page rfl rfl hlist
      exact specimen_not_in_branches (fun hmem => hne (List.mem_singleton.mp hmem))
        ((hscope _ hx).2 branchId hb)
    · intro hb hne
      by_contra hn
      obtain ⟨text, page, hl, hx⟩ := specimen_listed (some ids) (by simpa using hne) hst
      have hlist : listForPrincipal true orgId userId
          { filters with page := some 1, limit := some 1 } 0 0 (specimen orgId stored text s₀) =
            .ok page := by
        have hallowed : resolveAllowedBranchIds orgId userId (specimen orgId stored text s₀) =
            some ids := hA
        unfold listForPrincipal
        rw [hallowed]
        simpa [hb] using hl
      have hscope := h (specimen orgId stored text s₀) true 0 0 (some 1) (some 1) page rfl rfl hlist
      exact specimen_not_in_branches hn (hscope _ hx).1
  · intro h s enabled today n number limit page hr hc hl
    have hscope : SegmentInScope orgId { filters with page := number, limit := limit } ids s := by
      intro stored hst
      rw [segmentBranch_congr hc] at hst
      exact h stored hst
    have hallowed : resolveAllowedBranchIds orgId userId s = some ids := by
      rw [resolveAllowedBranchIds_congr hr, hA]
    exact scoped_of_segmentInScope hallowed hscope hl

end

/-- A manager of branch 1, and a saved segment of branch 2, where Bo has a ticket. -/
def twoBranches : Db :=
  (((Rel.empty.set .roleAssignment 1 { orgId := 1, userId := 7, branchId := some 1
                                       roleName := "manager" }).set
    .customerSegment 5 { orgId := 1, filters := some { branchId := some 2 } }).set
    .customer 10 { orgId := 1, name := "Bo" }).set
    .ticket 20 { orgId := 1, customerId := some 10, customerPhone := none, completed := true
                 completedAt := none, branchId := 2 }

def atBranch (branchId : Id) : CustomerListFilters :=
  { branchId := some branchId, savedSegmentId := some 5 }

theorem listForPrincipal_scoped_iff_manager :
    AlwaysScoped 1 7 (atBranch 1) [1] twoBranches ↔ SegmentInScope 1 (atBranch 1) [1] twoBranches :=
  listForPrincipal_scoped_iff (by decide +kernel)

/-- **A saved segment leads out of the branch that was asked for.** -/
theorem list_out_of_scope :
    resolveAllowedBranchIds 1 7 twoBranches = some [1] ∧
    listForPrincipal true 1 7 (atBranch 1) 0 0 twoBranches =
      .ok ⟨[(10, { orgId := 1, name := "Bo" })], 1, 20, 1, 1⟩ ∧
    findCustomerIdsForBranches 1 [1] twoBranches = [] := by
  refine ⟨by decide +kernel, by decide +kernel, by decide +kernel⟩

/-! ## Pages -/

theorem flatMap_range_pages {α : Type} (rows : List α) (limit m : ℕ) :
    ((List.range m).flatMap fun i => (rows.drop (i * limit)).take limit) =
      rows.take (m * limit) := by
  induction m with
  | zero => simp
  | succ m ih =>
    rw [List.range_succ, List.flatMap_append, ih, Nat.succ_mul, List.take_add]
    simp

/-- **The pages of a list**, asked for one after the other, hold every row once. -/
structure Tiles (page : ℕ → CustomerPage) : Prop where
  total (i : ℕ) : (page i).total = (page 0).total
  small (i : ℕ) : (page i).data.length ≤ (page 0).limit
  past (i : ℕ) : (page 0).totalPages ≤ i → (page i).data = []
  once : ((List.range (page 0).totalPages).flatMap fun i => (page i).data).Nodup
  whole : ((List.range (page 0).totalPages).flatMap fun i => (page i).data).length = (page 0).total

theorem le_pagesOf_mul {limit : ℕ} (h : 0 < limit) (total : ℕ) :
    total ≤ pagesOf total limit * limit := by
  have hd := Nat.div_add_mod (total + limit - 1) limit
  have hm := Nat.mod_lt (total + limit - 1) h
  rw [pagesOf, Nat.mul_comm]
  omega

theorem tiles_pageOf {limit : ℕ} (hl : 0 < limit) (n : ℕ) {rows : List (Id × Customer)}
    (hn : rows.Nodup) : Tiles fun i => pageOf (i + 1) limit n rows := by
  have hlen : n % rows.permutations'.length < rows.permutations'.length :=
    Nat.mod_lt _ (List.length_pos_of_mem (List.mem_permutations'.mpr (.refl rows)))
  obtain ⟨ys, hys⟩ : ∃ ys, rows.permutations'[n % rows.permutations'.length]? = some ys :=
    ⟨_, List.getElem?_eq_getElem hlen⟩
  have hp : ys.Perm rows := List.mem_permutations'.mp (List.mem_of_getElem? hys)
  have hdata : ∀ i, (pageOf (i + 1) limit n rows).data = (ys.drop (i * limit)).take limit := by
    intro i
    rw [pageOf, hys]
    rfl
  have hle : ys.length ≤ pagesOf rows.length limit * limit :=
    hp.length_eq ▸ le_pagesOf_mul hl rows.length
  have hall : ((List.range (pagesOf rows.length limit)).flatMap fun i =>
      (pageOf (i + 1) limit n rows).data) = ys := by
    simp only [hdata]
    rw [flatMap_range_pages, List.take_of_length_le hle]
  refine ⟨fun _ => rfl, fun i => ?_, fun i hi => ?_, ?_, ?_⟩
  · rw [hdata]
    exact List.length_take_le _ _
  · rw [hdata, List.drop_eq_nil_of_le (hle.trans (Nat.mul_le_mul_right _ hi)), List.take_nil]
  · exact hall ▸ hp.nodup_iff.mpr hn
  · exact (congrArg List.length hall).trans hp.length_eq

theorem list_pages {orgId : Id} {filters : CustomerListFilters} {allowed : Option (List Id)}
    {today : Time} {n : ℕ} {s : Db} (hl : 0 < min (filters.limit.getD 20) 100)
    {first : CustomerPage} (h : list orgId filters allowed today n s = .ok first) :
    ∃ page : ℕ → CustomerPage, Tiles page ∧ first.total = (page 0).total ∧
      ∀ i, list orgId { filters with page := some (i + 1) } allowed today n s = .ok (page i) := by
  unfold list at h ⊢
  dsimp only at h ⊢
  split at h
  · rename_i ha
    cases h
    exact ⟨fun i => ⟨[], i + 1, _, 0, 0⟩, ⟨fun _ => rfl, fun _ => Nat.zero_le _, fun _ _ => rfl,
      List.nodup_nil, rfl⟩, rfl, fun i => if_pos ha⟩
  · rename_i ha
    cases hs : resolveSegmentFilters orgId filters s with
    | error e =>
      rw [hs] at h
      cases h
    | ok segment =>
      rw [hs] at h
      cases h
      refine ⟨_, tiles_pageOf hl n (.of_map _ (Rel.nodup_ids s .customer _)), rfl, fun i => ?_⟩
      rw [if_neg ha, show resolveSegmentFilters orgId { filters with page := some (i + 1) } s =
        .ok segment from hs]
      rfl

/-- **The pages of a list of patrons** hold each of them once, if the order of the rows stays the
same and the pages are not empty. -/
theorem listForPrincipal_tiles {enabled : Bool} {orgId userId : Id} {filters : CustomerListFilters}
    {today : Time} {n : ℕ} {s : Db} (hl : 0 < min (filters.limit.getD 20) 100)
    {first : CustomerPage}
    (h : listForPrincipal enabled orgId userId filters today n s = .ok first) :
    ∃ page : ℕ → CustomerPage, Tiles page ∧ first.total = (page 0).total ∧
      ∀ i, listForPrincipal enabled orgId userId { filters with page := some (i + 1) } today n s =
        .ok (page i) := by
  unfold listForPrincipal at h ⊢
  cases enabled with
  | false => cases h
  | true =>
    cases filters with
    | mk branchId =>
      cases branchId with
      | none => exact list_pages hl h
      | some branchId =>
        simp only [Bool.not_true, Bool.false_eq_true, if_false] at h ⊢
        split at h
        · cases h
        · rename_i hno
          obtain ⟨page, ht, hf, hp⟩ := list_pages hl h
          exact ⟨page, ht, hf, fun i => (if_neg hno).trans (hp i)⟩

/-- Of the branch of the saved segment. -/
theorem listForPrincipal_tiles_twoBranches : ∃ page : ℕ → CustomerPage, Tiles page ∧
    (page 0).total = 1 ∧ ∀ i, listForPrincipal true 1 7 { atBranch 1 with page := some (i + 1) } 0 0
      twoBranches = .ok (page i) := by
  have h : listForPrincipal true 1 7 (atBranch 1) 0 0 twoBranches =
    .ok ⟨[(10, { orgId := 1, name := "Bo" })], 1, 20, 1, 1⟩ := by decide +kernel
  obtain ⟨page, ht, hf, hp⟩ := listForPrincipal_tiles (by decide) h
  exact ⟨page, ht, hf.symm, hp⟩

end PatronLoyalty.Crm
