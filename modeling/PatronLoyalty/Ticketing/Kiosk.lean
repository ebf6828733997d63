import PatronLoyalty.Ticketing.Advance

/-!
# The list on the kiosk, and who is let in

A public issue without a visit is let in by `assertPublicQueueEntryAllowed`; `getPublicQueues` lists the
queues a customer may choose from. Both exclude the queues of later steps, and pickup desks.

Headline: **`public_entry`**. Where the admission sees the rows of the branch, it lets a customer into a
step of an active template only at the first one; whoever is listed is let in; and an open queue that lets
in is listed, unless it is beside the active flows and is bound to a step of another template, or offers
the service of a listed entry.
-/

namespace PatronLoyalty.Ticketing

open Txn
open Loyalty (Id Err)

/-! ## The steps of the active templates -/

def activeTemplate (orgId branchId : Id) (t : BranchFlowTemplate) : Bool :=
  t.orgId == orgId && t.branchId == branchId && t.isActive

/-- **The steps of all active templates** of a branch. -/
def activeSteps (orgId branchId : Id) (s : Db) : List BranchFlowStep :=
  (s.rows .flowStep fun _ st =>
    (s.get .flowTemplate st.templateId).any (activeTemplate orgId branchId)).map (·.2)

def StepsOwned (s : Db) : Prop :=
  ∀ id st t, s.get .flowStep id = some st → s.get .flowTemplate st.templateId = some t →
    st.orgId = t.orgId

def Shows (orgId : Id) (scope : Scope) : Prop := scope = .tenant orgId ∨ scope = .bare true

section

variable {κ : Type} {ρ : κ → Type} {L : Type}

theorem rows_congr {s : Rel ρ L} {k : κ} {p q : ℕ → ρ k → Bool}
    (h : ∀ id r, s.get k id = some r → p id r = q id r) : s.rows k p = s.rows k q := by
  unfold Rel.rows
  refine List.filterMap_congr fun e he => ?_
  have hget : s.get k e.1 = some e.2 := by
    unfold Rel.get
    rw [← Option.mem_def, AList.mem_lookup_iff]
    exact he
  rw [h e.1 e.2 hget]

end

section

variable {orgId branchId queueId : Id} {scope : Scope} {s m : Db} {steps : List BranchFlowStep}

theorem Shows.template (h : Shows orgId scope) {t : BranchFlowTemplate} (ht : t.orgId = orgId) :
    visible scope .flowTemplate t = true := by
  rcases h with rfl | rfl <;> simp [visible, gone, orgOf, ht]

theorem Shows.step (h : Shows orgId scope) {st : BranchFlowStep} (ht : st.orgId = orgId) :
    visible scope .flowStep st = true := by
  rcases h with rfl | rfl <;> simp [visible, gone, orgOf, ht]

theorem any_rows_iff {k : Kind} {p : Id → Row k → Bool} {id : Id} :
    ((s.rows k p).any fun r => r.1 == id) = true ↔ ∃ r, s.get k id = some r ∧ p id r = true := by
  rw [List.any_eq_true]
  constructor
  · rintro ⟨⟨i, r⟩, hm, hi⟩
    obtain rfl : i = id := by simpa using hi
    exact ⟨r, Rel.mem_rows.mp hm⟩
  · rintro ⟨r, hr⟩
    exact ⟨(id, r), Rel.mem_rows.mpr hr, by simp⟩

/-- **What both read**, where their scopes show it. -/
theorem gives_loadActiveFlowSteps (hs : Shows orgId scope) (ho : StepsOwned s)
    (h : (loadActiveFlowStepsForBranch scope orgId branchId).gives s steps m) :
    m = s ∧ steps = activeSteps orgId branchId s := by
  obtain ⟨templates, m1, ht, h1⟩ := h.seq
  obtain ⟨rfl, rfl⟩ := Tx.gives_read.mp ht
  obtain ⟨rows, m2, hr, rfl, rfl⟩ := h1.seq
  obtain ⟨rfl, rfl⟩ := Tx.gives_read.mp hr
  refine ⟨rfl, congrArg (List.map (·.2)) (rows_congr fun id st hst => ?_)⟩
  rw [Bool.eq_iff_iff, Bool.and_eq_true]
  unfold seen
  rw [any_rows_iff, Option.any_eq_true]
  constructor
  · rintro ⟨-, t, ht, hp⟩
    exact ⟨t, ht, (Bool.and_eq_true_iff.mp hp).2⟩
  · rintro ⟨t, ht, hp⟩
    have horg : t.orgId = orgId := by
      simp only [activeTemplate, Bool.and_eq_true, beq_iff_eq] at hp
      exact hp.1.1
    exact ⟨hs.step ((ho id st t hst ht).trans horg), t, ht,
      Bool.and_eq_true_iff.mpr ⟨hs.template horg, hp⟩⟩

/-! ## Later steps -/

def Later (steps : List BranchFlowStep) (queueId : Id) : Prop :=
  ∃ st ∈ steps, st.queueId = some queueId ∧ ∃ st' ∈ steps, st'.stepIndex < st.stepIndex

theorem min?_any_lt {xs : List ℤ} {i : ℤ} : xs.min?.any (· < i) = true ↔ ∃ x ∈ xs, x < i := by
  cases hm : xs.min? with
  | none =>
    rw [List.min?_eq_none_iff] at hm
    simp [hm]
  | some x =>
    obtain ⟨hx, hle⟩ := List.min?_eq_some_iff.mp hm
    simp only [Option.any_some, decide_eq_true_eq]
    constructor
    · exact fun hlt => ⟨x, hx, hlt⟩
    · rintro ⟨y, hy, hlt⟩
      have := hle y hy
      omega

theorem mem_nonEntry :
    queueId ∈ getNonEntryQueueIdsFromFlowSteps steps ↔ Later steps queueId := by
  unfold getNonEntryQueueIdsFromFlowSteps Later
  rw [List.mem_filterMap]
  refine exists_congr fun st => and_congr_right fun _ => ?_
  constructor
  · intro h
    split at h
    · rename_i hlt
      obtain ⟨i, hi, hlt⟩ := min?_any_lt.mp hlt
      obtain ⟨st', hst', rfl⟩ := List.mem_map.mp hi
      exact ⟨h, st', hst', hlt⟩
    · cases h
  · rintro ⟨hq, st', hst', hlt⟩
    rw [if_pos (min?_any_lt.mpr ⟨_, List.mem_map_of_mem hst', hlt⟩), hq]

/-! ## Who is let in -/

/-- **A customer who walks in is let into the queue.** -/
def Admits (scope : Scope) (orgId branchId queueId : Id) (s : Db) : Prop :=
  ∃ m, (assertPublicQueueEntryAllowed scope orgId branchId queueId).gives s () m

def Pickup (orgId queueId : Id) (s : Db) : Prop :=
  ∃ q, s.get .queue queueId = some q ∧ q.orgId = orgId ∧ q.stepRole = some .pickup

theorem Shows.queue (h : Shows orgId scope) {q : Queue} (hq : q.orgId = orgId) :
    visible scope .queue q = true := by
  rcases h with rfl | rfl <;> simp [visible, gone, orgOf, hq]

theorem pickup_of_found (hs : Shows orgId scope) {o : Option (Id × Queue)}
    (h : (findFirst scope .queue fun id q => id == queueId && q.orgId == orgId).gives s o m) :
    m = s ∧ ((o.any (·.2.stepRole == some .pickup)) = true ↔ Pickup orgId queueId s) := by
  obtain ⟨rfl, h⟩ := Tx.gives_findFirst.mp h
  refine ⟨rfl, ?_⟩
  rcases h with ⟨rfl, hnil⟩ | ⟨⟨id, q⟩, hr, rfl⟩
  · simp only [Option.any_none, Bool.false_eq_true, false_iff]
    rintro ⟨q, hq, horg, -⟩
    have hmem : (queueId, q) ∈ seen scope .queue
        (fun id q => id == queueId && q.orgId == orgId) m :=
      Rel.mem_rows.mpr ⟨hq, by simp [hs.queue horg, horg]⟩
    rw [hnil] at hmem
    cases hmem
  · obtain ⟨hget, hp⟩ := Rel.mem_rows.mp hr
    simp only [Bool.and_eq_true, beq_iff_eq] at hp
    obtain ⟨-, rfl, horg⟩ := hp
    simp only [Option.any_some, beq_iff_eq]
    constructor
    · exact fun hrole => ⟨q, hget, horg, hrole⟩
    · rintro ⟨q', hq', -, hrole⟩
      rwa [Option.some.inj (hget.symm.trans hq')]

/-- The reads of a body return something. -/
theorem exists_loadActiveFlowSteps (hs : Shows orgId scope) (ho : StepsOwned s) :
    (loadActiveFlowStepsForBranch scope orgId branchId).gives s (activeSteps orgId branchId s) s := by
  have hg : ∃ steps, (loadActiveFlowStepsForBranch scope orgId branchId).gives s steps s :=
    ⟨_, Tx.gives_bind.mpr ⟨_, s, Tx.gives_read.mpr ⟨rfl, rfl⟩, Tx.gives_bind.mpr
      ⟨_, s, Tx.gives_read.mpr ⟨rfl, rfl⟩, rfl, rfl⟩⟩⟩
  obtain ⟨steps, hsteps⟩ := hg
  obtain ⟨-, rfl⟩ := gives_loadActiveFlowSteps hs ho hsteps
  exact hsteps

/-- **The admission**: neither a pickup desk, nor a later step. -/
theorem admits_iff (hs : Shows orgId scope) (ho : StepsOwned s) :
    Admits scope orgId branchId queueId s ↔
      ¬ Pickup orgId queueId s ∧ ¬ Later (activeSteps orgId branchId s) queueId := by
  constructor
  · rintro ⟨m, h⟩
    obtain ⟨o, m1, hq, h1⟩ := h.seq
    obtain ⟨rfl, hpick⟩ := pickup_of_found hs hq
    obtain ⟨_, m2, hthrow, h2⟩ := h1.seq
    obtain ⟨hrole, rfl⟩ := gives_throwIf.mp hthrow
    obtain ⟨excluded, m3, hex, hend⟩ := h2.seq
    obtain ⟨steps, m4, hsteps, rfl, rfl⟩ := hex.seq
    obtain ⟨rfl, rfl⟩ := gives_loadActiveFlowSteps hs ho hsteps
    rw [gives_throwIf, decide_eq_false_iff_not, mem_nonEntry] at hend
    exact ⟨fun hp => Bool.false_ne_true (hrole.symm.trans (hpick.mpr hp)), hend.1⟩
  · rintro ⟨hpick, hlater⟩
    have hfound : ∃ o, (findFirst scope .queue fun id q => id == queueId && q.orgId == orgId).gives
        s o s := ⟨_, 0, Tx.gives_read.mpr ⟨rfl, rfl⟩⟩
    obtain ⟨o, hq⟩ := hfound
    have hrole : (o.any (·.2.stepRole == some .pickup)) = false :=
      Bool.eq_false_iff.mpr fun h => hpick ((pickup_of_found hs hq).2.mp h)
    refine ⟨s, Tx.gives_bind.mpr ⟨o, s, hq, Tx.gives_bind.mpr ⟨(), s, gives_throwIf.mpr ⟨hrole, rfl⟩,
      Tx.gives_bind.mpr ⟨_, s, Tx.gives_bind.mpr ⟨_, s, exists_loadActiveFlowSteps hs ho, rfl, rfl⟩,
        gives_throwIf.mpr ⟨decide_eq_false fun h => hlater (mem_nonEntry.mp h), rfl⟩⟩⟩⟩⟩

/-! ## What is listed -/

def InFlow (steps : List BranchFlowStep) (queueId : Id) : Prop :=
  2 ≤ steps.length ∧ ∃ st ∈ steps, st.queueId = some queueId

def Bound (orgId branchId queueId : Id) (s : Db) : Prop :=
  ∃ id st t, s.get .flowStep id = some st ∧ s.get .flowTemplate st.templateId = some t ∧
    t.orgId = orgId ∧ t.branchId = branchId ∧ st.queueId = some queueId

theorem gives_getAllFlowBoundQueueIds (ho : StepsOwned s) {bound : List Id}
    (h : (getAllFlowBoundQueueIds (.tenant orgId) orgId branchId).gives s bound m) :
    m = s ∧ ∀ id, id ∈ bound ↔ Bound orgId branchId id s := by
  obtain ⟨templates, m1, ht, h1⟩ := h.seq
  obtain ⟨rfl, rfl⟩ := Tx.gives_read.mp ht
  obtain ⟨rows, m2, hr, rfl, rfl⟩ := h1.seq
  obtain ⟨rfl, rfl⟩ := Tx.gives_read.mp hr
  refine ⟨rfl, fun queueId => ?_⟩
  rw [List.mem_filterMap]
  constructor
  · rintro ⟨⟨id, st⟩, hst, hq⟩
    obtain ⟨hst, hp⟩ := Rel.mem_rows.mp hst
    simp only [Bool.and_eq_true] at hp
    obtain ⟨-, -, hany⟩ := hp
    unfold seen at hany
    obtain ⟨t, ht, hp⟩ := any_rows_iff.mp hany
    simp only [visible, gone, orgOf, Bool.not_false, Bool.true_and, Bool.and_eq_true, beq_iff_eq] at hp
    exact ⟨id, st, t, hst, ht, hp.1, hp.2, hq⟩
  · rintro ⟨id, st, t, hst, ht, horg, hb, hq⟩
    have hso := (ho id st t hst ht).trans horg
    refine ⟨(id, st), Rel.mem_rows.mpr ⟨hst, ?_⟩, hq⟩
    simp only [Bool.and_eq_true, beq_iff_eq]
    unfold seen
    exact ⟨Shows.step (.inl rfl) hso, hso, any_rows_iff.mpr ⟨t, ht, by
      simp [Shows.template (.inl rfl) horg, hb]⟩⟩

theorem mem_flowQueueIds :
    queueId ∈ (if 2 ≤ steps.length then steps else []).filterMap (·.queueId) ↔
      InFlow steps queueId := by
  unfold InFlow
  by_cases h : 2 ≤ steps.length
  · simp [h]
  · simp [h]

theorem later_of_flow
    (h : Later (if 2 ≤ steps.length then steps else []) queueId) : Later steps queueId := by
  by_cases hl : 2 ≤ steps.length
  · rwa [if_pos hl] at h
  · rw [if_neg hl] at h
    obtain ⟨st, hst, -⟩ := h
    cases hst

/-- **What the filter keeps** of queues that are no later steps. -/
theorem mem_filterPublicKioskQueues {queues : List (Id × Queue)} {bound : List Id}
    (hfirst : ∀ r ∈ queues, ¬ Later steps r.1) {r : Id × Queue} (hr : r ∈ queues) :
    r ∈ filterPublicKioskQueues queues steps bound ↔
      InFlow steps r.1 ∨ r.1 ∉ bound ∧
        ¬ ∃ r' ∈ queues, InFlow steps r'.1 ∧ r'.2.serviceId = r.2.serviceId := by
  have hentry : ∀ r' ∈ queues, r'.1 ∉ getNonEntryQueueIdsFromFlowSteps
      (if 2 ≤ steps.length then steps else []) :=
    fun r' hr' h => hfirst r' hr' (later_of_flow (mem_nonEntry.mp h))
  have hservice : r.2.serviceId ∈ (queues.filter fun q =>
      q.1 ∈ (if 2 ≤ steps.length then steps else []).filterMap (·.queueId) &&
        !(q.1 ∈ getNonEntryQueueIdsFromFlowSteps (if 2 ≤ steps.length then steps else []) : Bool)).map
          (·.2.serviceId) ↔
      ∃ r' ∈ queues, InFlow steps r'.1 ∧ r'.2.serviceId = r.2.serviceId := by
    rw [List.mem_map]
    refine exists_congr fun r' => ?_
    rw [List.mem_filter, and_assoc]
    refine and_congr_right fun hr' => and_congr_left fun _ => ?_
    rw [Bool.and_eq_true, decide_eq_true_eq, mem_flowQueueIds]
    simp [hentry r' hr']
  unfold filterPublicKioskQueues
  rw [List.mem_append, List.mem_filter, List.mem_filter]
  simp only [hr, true_and, Bool.and_eq_true, decide_eq_true_eq, Bool.not_eq_true',
    decide_eq_false_iff_not, mem_flowQueueIds, hservice]
  by_cases hin : InFlow steps r.1
  · simp [hin, hentry r hr]
  · simp only [hin, false_and, false_or, not_false_eq_true, true_and]
    exact And.comm

def OpenQueue (orgId branchId queueId : Id) (q : Queue) (s : Db) : Prop :=
  s.get .queue queueId = some q ∧ q.orgId = orgId ∧ q.branchId = branchId ∧ q.status = .opened

/-- **The list**: the open queues that let in, of the active flows and beside them. -/
theorem gives_publicQueuesTx (ho : StepsOwned s) {lookbackStart : Time} {list : KioskList}
    (h : (publicQueuesTx orgId branchId lookbackStart).gives s list m) :
    ∃ queues : List (Id × Queue), (∀ id q, (id, q) ∈ queues ↔ OpenQueue orgId branchId id q s ∧
        Admits (.bare true) orgId branchId id s) ∧
      ∀ id q, (∃ k ∈ list.queues, k.id = id ∧ k.queue = q) ↔ (id, q) ∈ queues ∧
        (InFlow (activeSteps orgId branchId s) id ∨ ¬ Bound orgId branchId id s ∧
          ¬ ∃ r ∈ queues, InFlow (activeSteps orgId branchId s) r.1 ∧ r.2.serviceId = q.serviceId) := by
  obtain ⟨steps, m1, hsteps, h1⟩ := h.seq
  obtain ⟨bound, m2, hbound, h2⟩ := h1.seq
  obtain ⟨queues, m3, hqueues, h3⟩ := h2.seq
  obtain ⟨waiting, m4, -, h4⟩ := h3.seq
  obtain ⟨services, m5, -, h5⟩ := h4.seq
  obtain ⟨stepQueues, m6, -, rfl, -⟩ := h5.seq
  obtain ⟨rfl, rfl⟩ := gives_loadActiveFlowSteps (.inl rfl) ho hsteps
  obtain ⟨rfl, hbound⟩ := gives_getAllFlowBoundQueueIds ho hbound
  obtain ⟨hqueues, -⟩ := Tx.gives_read.mp hqueues
  have hmem : ∀ id q, (id, q) ∈ queues ↔ OpenQueue orgId branchId id q m2 ∧
      Admits (.bare true) orgId branchId id m2 := by
    intro id q
    rw [hqueues, (List.perm_insertionSort _ _).mem_iff, admits_iff (.inr rfl) ho]
    unfold seen OpenQueue
    rw [Rel.mem_rows]
    constructor
    · rintro ⟨hq, hp⟩
      simp only [visible, gone, orgOf, openToPublic, Bool.not_false, Bool.true_and, Bool.and_eq_true,
        beq_iff_eq, bne_iff_ne, Bool.not_eq_true', decide_eq_false_iff_not, mem_nonEntry] at hp
      obtain ⟨horg, ⟨⟨hb, hs⟩, hrole⟩, hlater⟩ := hp
      refine ⟨⟨hq, horg, hb, hs⟩, ?_, hlater⟩
      rintro ⟨q', hq', -, hpick⟩
      rw [Option.some.inj (hq.symm.trans hq')] at hrole
      exact hrole hpick
    · rintro ⟨⟨hq, horg, hb, hs⟩, hpick, hlater⟩
      refine ⟨hq, ?_⟩
      have hrole : q.stepRole ≠ some .pickup := fun h => hpick ⟨q, hq, horg, h⟩
      simp only [visible, gone, orgOf, openToPublic, Bool.not_false, Bool.true_and, Bool.and_eq_true,
        beq_iff_eq, bne_iff_ne, Bool.not_eq_true', decide_eq_false_iff_not, mem_nonEntry]
      exact ⟨horg, ⟨⟨hb, hs⟩, hrole⟩, hlater⟩
  refine ⟨queues, hmem, fun id q => ?_⟩
  have hfirst : ∀ r ∈ queues, ¬ Later (activeSteps orgId branchId m2) r.1 :=
    fun r hr => ((admits_iff (.inr rfl) ho).mp ((hmem r.1 r.2).mp hr).2).2
  rw [← hbound id]
  constructor
  · rintro ⟨k, hk, rfl, rfl⟩
    obtain ⟨r, hr, rfl⟩ := List.mem_map.mp hk
    have hin : r ∈ queues := by
      unfold filterPublicKioskQueues at hr
      rcases List.mem_append.mp hr with hr | hr
      · exact (List.mem_filter.mp hr).1
      · exact (List.mem_filter.mp hr).1
    exact ⟨hin, (mem_filterPublicKioskQueues hfirst hin).mp hr⟩
  · rintro ⟨hin, hkeep⟩
    exact ⟨_, List.mem_map_of_mem ((mem_filterPublicKioskQueues hfirst hin).mpr hkeep), rfl, rfl⟩

theorem gives_getPublicQueues {b : Branch} {lookbackStart : Time} {list : KioskList}
    (hb : s.get .branch branchId = some b)
    (h : (getPublicQueues branchId lookbackStart).gives s (.ok list) m) :
    ∃ m', (publicQueuesTx b.orgId branchId lookbackStart).gives s list m' := by
  rcases Call.gives_tx_bind h with ⟨o, m1, hfind, h1⟩ | ⟨e, he, -⟩
  · obtain ⟨ho, rfl⟩ := Tx.gives_read.mp hfind
    rw [hb, Option.filter_some, if_pos (by simp [visible, gone, orgOf])] at ho
    subst ho
    rcases Call.gives_withTx.mp h1 with ⟨list', hl, hg⟩ | ⟨e, he, -⟩
    · cases hl
      exact ⟨m, hg⟩
    · cases he
  · cases he

/-! ## Entries of the flows -/

def Lowest (steps : List BranchFlowStep) (st : BranchFlowStep) : Prop :=
  ∀ st' ∈ steps, st'.templateId = st.templateId → st.stepIndex ≤ st'.stepIndex

/-- **What the list and the admission promise** of a branch. -/
structure PublicEntry (orgId branchId : Id) (s : Db) : Prop where
  /-- A customer is let into a step of an active template only at its first, and not at a pickup
  desk. -/
  only {queueId : Id} {st : BranchFlowStep} (hst : st ∈ activeSteps orgId branchId s)
    (hq : st.queueId = some queueId) (h : Admits (.bare true) orgId branchId queueId s) :
    Lowest (activeSteps orgId branchId s) st ∧ ¬ Pickup orgId queueId s
  /-- Into the first, where no other active template starts before it. -/
  first {queueId : Id} {st : BranchFlowStep} (hst : st ∈ activeSteps orgId branchId s)
    (hq : st.queueId = some queueId)
    (hsole : ∀ st' ∈ activeSteps orgId branchId s, st'.queueId = some queueId → st' = st)
    (hpick : ¬ Pickup orgId queueId s) (hlow : Lowest (activeSteps orgId branchId s) st)
    (hothers : ∀ st' ∈ activeSteps orgId branchId s, st'.templateId ≠ st.templateId →
      st.stepIndex ≤ st'.stepIndex) : Admits (.bare true) orgId branchId queueId s
  listed {lookbackStart : Time} {list : KioskList} {m : Db}
    (h : (getPublicQueues branchId lookbackStart).gives s (.ok list) m) {k : KioskQueue}
    (hk : k ∈ list.queues) : OpenQueue orgId branchId k.id k.queue s ∧
      Admits (.bare true) orgId branchId k.id s
  /-- An open queue that lets in is listed, if it is a step of the active flows, or is a step of no
  template and no listed entry of them offers its service. -/
  offered {lookbackStart : Time} {list : KioskList} {m : Db}
    (h : (getPublicQueues branchId lookbackStart).gives s (.ok list) m) {queueId : Id} {q : Queue}
    (ho : OpenQueue orgId branchId queueId q s) (ha : Admits (.bare true) orgId branchId queueId s) :
    (∃ k ∈ list.queues, k.id = queueId) ↔ InFlow (activeSteps orgId branchId s) queueId ∨
      ¬ Bound orgId branchId queueId s ∧ ¬ ∃ k ∈ list.queues,
        InFlow (activeSteps orgId branchId s) k.id ∧ k.queue.serviceId = q.serviceId

/-- **Public entry is at the first step**, and the list offers it. -/
theorem public_entry {b : Branch} (hb : s.get .branch branchId = some b) (ho : StepsOwned s) :
    PublicEntry b.orgId branchId s where
  only {queueId st} hst hq h := by
    obtain ⟨hpick, hlater⟩ := (admits_iff (.inr rfl) ho).mp h
    refine ⟨fun st' hst' _ => ?_, hpick⟩
    by_contra hlt
    exact hlater ⟨st, hst, hq, st', hst', by omega⟩
  first {queueId st} hst hq hsole hpick hlow hothers := by
    refine (admits_iff (.inr rfl) ho).mpr ⟨hpick, ?_⟩
    rintro ⟨st1, hst1, hq1, st2, hst2, hlt⟩
    rw [hsole st1 hst1 hq1] at hlt
    by_cases ht : st2.templateId = st.templateId
    · have := hlow st2 hst2 ht
      omega
    · have := hothers st2 hst2 ht
      omega
  listed {lookbackStart list m} h {k} hk := by
    obtain ⟨m', hg⟩ := gives_getPublicQueues hb h
    obtain ⟨queues, hmem, hlist⟩ := gives_publicQueuesTx ho hg
    exact (hmem _ _).mp ((hlist k.id k.queue).mp ⟨k, hk, rfl, rfl⟩).1
  offered {lookbackStart list m} h {queueId q} hopen ha := by
    obtain ⟨m', hg⟩ := gives_getPublicQueues hb h
    obtain ⟨queues, hmem, hlist⟩ := gives_publicQueuesTx ho hg
    have hin : (queueId, q) ∈ queues := (hmem _ _).mpr ⟨hopen, ha⟩
    -- An open entry of the flows is listed, so the filter compares with listed queues only.
    have hentry : (∃ r ∈ queues, InFlow (activeSteps b.orgId branchId s) r.1 ∧
        r.2.serviceId = q.serviceId) ↔ ∃ k ∈ list.queues,
          InFlow (activeSteps b.orgId branchId s) k.id ∧ k.queue.serviceId = q.serviceId := by
      constructor
      · rintro ⟨r, hr, hflow, hs⟩
        obtain ⟨k, hk, hid, hkq⟩ := (hlist r.1 r.2).mpr ⟨hr, .inl hflow⟩
        exact ⟨k, hk, hid ▸ hflow, hkq ▸ hs⟩
      · rintro ⟨k, hk, hflow, hs⟩
        exact ⟨(k.id, k.queue), ((hlist k.id k.queue).mp ⟨k, hk, rfl, rfl⟩).1, hflow, hs⟩
    rw [← hentry]
    constructor
    · rintro ⟨k, hk, rfl⟩
      obtain ⟨hkin, hkeep⟩ := (hlist k.id k.queue).mp ⟨k, hk, rfl, rfl⟩
      have hsame : k.queue = q :=
        Option.some.inj (((hmem _ _).mp hkin).1.1.symm.trans hopen.1)
      rwa [hsame] at hkeep
    · intro hkeep
      obtain ⟨k, hk, hid, -⟩ := (hlist queueId q).mpr ⟨hin, hkeep⟩
      exact ⟨k, hk, hid⟩

end

/-! ## Entries refused, and let in unlisted -/

def openQueue (serviceId : Id) (name : String) : Queue :=
  { orgId := 1, branchId := 1, serviceId, name, pre := name, status := .opened }

def step (templateId queueId serviceId : Id) (stepIndex : ℤ) : BranchFlowStep :=
  { orgId := 1, templateId, stepIndex, deskNumber := "1", serviceId, queueId := some queueId }

/-- Two active templates: the second starts at a later index than the first, and the first queue of the
third template is a pickup desk. A queue beside them offers the service of the first entry. -/
def hall : Db where
  tables
    | .branch => table (k := .branch) [(1, { orgId := 1 })]
    | .service => table (k := .service) [(1, { orgId := 1, name := "Cut" })]
    | .queue => table (k := .queue)
        [(1, openQueue 1 "A"), (2, openQueue 2 "B"), (3, openQueue 3 "C"), (4, openQueue 4 "D"),
         (5, openQueue 1 "E"), (6, { openQueue 6 "F" with stepRole := some .pickup }),
         (7, openQueue 7 "G")]
    | .flowTemplate => table (k := .flowTemplate)
        [(1, { orgId := 1, branchId := 1, isActive := true }),
         (2, { orgId := 1, branchId := 1, isActive := true }),
         (3, { orgId := 1, branchId := 1, isActive := true })]
    | .flowStep => table (k := .flowStep)
        [(1, step 1 1 1 1), (2, step 1 2 2 2), (3, step 2 3 3 2), (4, step 2 4 4 3),
         (5, step 3 6 6 1), (6, step 3 7 7 2)]
    | _ => ∅
  log := []

theorem stepsOwned_of {s : Db} (h : ((s.rows .flowStep fun _ _ => true).all fun e =>
    (s.get .flowTemplate e.2.templateId).all fun t => e.2.orgId == t.orgId) = true) :
    StepsOwned s := by
  intro id st t hst ht
  have hall := List.all_eq_true.mp h (id, st) (Rel.mem_rows.mpr ⟨hst, rfl⟩)
  rw [ht, Option.all_some] at hall
  simpa using hall

theorem public_entry_hall : PublicEntry 1 1 hall :=
  public_entry (b := { orgId := 1 }) rfl (stepsOwned_of (by decide +kernel))

/-- What the admission answers. -/
def entryCheck (s : Db) (queueId : Id) : Except Err Unit :=
  (((assertPublicQueueEntryAllowed (.bare true) 1 1 queueId).eval ⟨fun _ => 0, 0⟩ 0 [] s).1).map (·.1)

def listedQueues (s : Db) : Except Err (List Id) :=
  ((getPublicQueues 1 0).eval ⟨fun _ => 0, 0⟩ 0 s).answer.map fun l => l.queues.map (·.id)

instance (steps : List BranchFlowStep) (st : BranchFlowStep) : Decidable (Lowest steps st) :=
  inferInstanceAs (Decidable (∀ st' ∈ steps, st'.templateId = st.templateId →
    st.stepIndex ≤ st'.stepIndex))

/-- **The first step** of the second template is refused, for the first template starts before it, and
so is the pickup desk the third one starts at; and the queue beside them is let in, though it is not
listed. -/
theorem entry_otherwise :
    (Lowest (activeSteps 1 1 hall) (step 2 3 3 2) ∧ entryCheck hall 3 = .error notForWalkIn) ∧
      (Lowest (activeSteps 1 1 hall) (step 3 6 6 1) ∧ entryCheck hall 6 = .error notForWalkIn) ∧
        entryCheck hall 5 = .ok () ∧ listedQueues hall = .ok [1] := by
  decide +kernel

end PatronLoyalty.Ticketing
