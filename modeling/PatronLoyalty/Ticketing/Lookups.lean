import PatronLoyalty.Ticketing.Advance
import PatronLoyalty.Txn.Ordered

/-!
# What the lookups of a journey find

A lookup of a step is by template and index, which no two steps share: it finds `lowest`. The template
of a ticket that bears none is that of its queue or, where the queue has none, any active template of the
branch: `queueTemplates`.

Results: one equivalence for each lookup, **`gives_firstStep_iff`**, **`gives_queueTemplate`**,
**`gives_stepIndex`**; on a connection that is not the organisation's they find the same, if it sees its
rows (`resolveStep_of_sees`), or nothing (`gives_resolveStep_hidden`).
-/

namespace PatronLoyalty.Ticketing

open Txn
open Loyalty (Id Err)

/-! ## Connections -/

def Scope.sees (orgId : Id) : Scope → Bool
  | .tenant o => o == orgId
  | .bare bypassRls => bypassRls

section

variable {scope : Scope} {k : Kind} {orgId branchId queueId : Id} {s s' : Db} {o : Option ℤ}

theorem seen_of_sees (hs : scope.sees orgId = true) {p : Id → Row k → Bool}
    (hp : ∀ id r, p id r = true → orgOf k r = some orgId) :
    seen scope k p = seen (.tenant orgId) k p := by
  have hvisible : ∀ id r, (visible scope k r && p id r) = (visible (.tenant orgId) k r && p id r) := by
    intro id r
    cases hpr : p id r with
    | false => rw [Bool.and_false, Bool.and_false]
    | true =>
      unfold visible
      rw [hp id r hpr]
      cases scope with
      | tenant o => rw [show o = orgId from beq_iff_eq.mp hs]
      | bare b =>
        cases hs
        simp
  funext s
  unfold seen
  simp only [hvisible]

/-- **Where the connection sees the organisation's rows**, the template is looked up as in it. -/
theorem resolveFlowTemplateId_of_sees (hs : scope.sees orgId = true) (ticketTemplateId : Option Id) :
    resolveFlowTemplateId scope orgId branchId queueId ticketTemplateId =
      resolveFlowTemplateId (.tenant orgId) orgId branchId queueId ticketTemplateId := by
  have hqueue : seen scope .queue (fun id q => id == queueId && q.orgId == orgId) = _ :=
    seen_of_sees hs fun id q hq => by simp_all [orgOf]
  have htemplate : seen scope .flowTemplate (fun _ t =>
      t.orgId == orgId && t.branchId == branchId && t.isActive) = _ :=
    seen_of_sees hs fun id t ht => by simp_all [orgOf]
  unfold resolveFlowTemplateId findFirst
  rw [hqueue, htemplate]

theorem firstStep_of_sees (hs : scope.sees orgId = true)
    (hp : ∀ st, p st = true → st.orgId = orgId) : firstStep scope p = firstStep (.tenant orgId) p := by
  have hseen : seen scope .flowStep (fun _ st => p st) = _ :=
    seen_of_sees hs fun _ st hst => congrArg some (hp st hst)
  unfold firstStep findFirstBy
  rw [hseen]

theorem resolveFlowStepIndexForQueue_of_sees (hs : scope.sees orgId = true) (visitId : Option Id) :
    resolveFlowStepIndexForQueue scope orgId branchId queueId visitId =
      resolveFlowStepIndexForQueue (.tenant orgId) orgId branchId queueId visitId := by
  have htickets : seen scope .ticket (fun _ t => t.orgId == orgId && t.visitId == visitId) = _ :=
    seen_of_sees hs fun id t ht => by simp_all [orgOf]
  have hqueue : seen scope .queue (fun id q =>
      id == queueId && q.orgId == orgId && q.branchId == branchId) = _ :=
    seen_of_sees hs fun id q hq => by simp_all [orgOf]
  have hfirst : ∀ (T : Id) (p : BranchFlowStep → Bool),
      (∀ st, p st = true → (st.orgId == orgId && st.templateId == T) = true) →
        firstStep scope p = firstStep (.tenant orgId) p :=
    fun T p hp => firstStep_of_sees hs fun st hst => by
      simpa using (Bool.and_eq_true_iff.mp (hp st hst)).1
  have hstep : ∀ (T : Id) (m : ℤ), firstStep scope (fun st => st.orgId == orgId &&
      st.templateId == T && st.queueId == some queueId && decide (m ≤ st.stepIndex)) = _ :=
    fun T m => hfirst T _ fun st hst => by simp_all
  have hfallback : ∀ T : Id, firstStep scope (fun st => st.orgId == orgId &&
      st.templateId == T && st.queueId == some queueId) = _ :=
    fun T => hfirst T _ fun st hst => by simp_all
  have hservice : ∀ (T : Id) (v : Option Id) (m : ℤ), firstStep scope (fun st => st.orgId == orgId &&
      st.templateId == T && some st.serviceId == v && decide (m ≤ st.stepIndex)) = _ :=
    fun T v m => hfirst T _ fun st hst => by simp_all
  unfold resolveFlowStepIndexForQueue findFirst findMany
  simp only [resolveFlowTemplateId_of_sees hs, htickets, hqueue, hstep, hfallback, hservice]

/-- **Where the connection sees the organisation's rows**, template and index are resolved as in it. -/
theorem resolveStep_of_sees (hs : scope.sees orgId = true) (ctx : JourneyTicketContext) :
    resolveStep scope orgId ctx = resolveStep (.tenant orgId) orgId ctx := by
  unfold resolveStep
  simp only [resolveFlowTemplateId_of_sees hs, resolveFlowStepIndexForQueue_of_sees hs]

theorem seen_hidden (hk : ∀ r : Row k, (orgOf k r).isSome = true) (p : Id → Row k → Bool) :
    seen (.bare false) k p s = [] := by
  refine List.eq_nil_iff_forall_not_mem.mpr fun x hx => ?_
  have hv := (mem_seen.mp hx).2.1
  obtain ⟨o, ho⟩ := Option.isSome_iff_exists.mp (hk x.2)
  unfold visible at hv
  rw [ho, Bool.and_false] at hv
  cases hv

theorem gives_findFirst_hidden (hk : ∀ r : Row k, (orgOf k r).isSome = true)
    {p : Id → Row k → Bool} {o : Option (Id × Row k)} :
    (findFirst (.bare false) k p).gives s o s' ↔ o = none ∧ s' = s := by
  unfold findFirst
  rw [Tx.gives_findFirst, seen_hidden hk]
  simp [and_comm]

theorem gives_resolveFlowTemplateId_hidden {o : Option Id} :
    (resolveFlowTemplateId (.bare false) orgId branchId queueId none).gives s o s' ↔
      o = none ∧ s' = s := by
  unfold resolveFlowTemplateId
  simp only [Tx.bind_eq, Tx.gives_bind, gives_findFirst_hidden (k := .queue) fun _ => rfl]
  constructor
  · rintro ⟨_, m, ⟨rfl, rfl⟩, h⟩
    obtain ⟨_, m', hm, ho⟩ := h.seq
    obtain ⟨rfl, rfl⟩ := (gives_findFirst_hidden fun _ => rfl).mp hm
    exact ho
  · rintro ⟨rfl, rfl⟩
    exact ⟨none, s', ⟨rfl, rfl⟩, Tx.gives_bind.mpr
      ⟨none, s', (gives_findFirst_hidden fun _ => rfl).mpr ⟨rfl, rfl⟩, rfl, rfl⟩⟩

theorem gives_queueIndex_hidden {visitId : Option Id} :
    (resolveFlowStepIndexForQueue (.bare false) orgId branchId queueId visitId).gives s o s' ↔
      o = none ∧ s' = s := by
  unfold resolveFlowStepIndexForQueue
  rw [Tx.bind_eq, Tx.gives_bind]
  constructor
  · rintro ⟨_, m, hm, h⟩
    obtain ⟨rfl, rfl⟩ := gives_resolveFlowTemplateId_hidden.mp hm
    exact h
  · rintro ⟨rfl, rfl⟩
    exact ⟨none, s', gives_resolveFlowTemplateId_hidden.mpr ⟨rfl, rfl⟩, rfl, rfl⟩

/-! ## Templates of a queue -/

def queueRow (orgId queueId : Id) (s : Db) : Option Queue :=
  (s.get .queue queueId).filter (visible (.tenant orgId) .queue)

/-- **The templates a queue may go by**: its own or, where it has none, any that is active. -/
def queueTemplates (orgId branchId queueId : Id) (s : Db) : List (Option Id) :=
  match (queueRow orgId queueId s).bind (·.flowTemplateId) with
  | some T => [some T]
  | none =>
    match seen (.tenant orgId) .flowTemplate (fun _ t => t.branchId == branchId && t.isActive) s with
    | [] => [none]
    | active => active.map fun t => some t.1

theorem seen_congr {p q : Id → Row k → Bool}
    (h : ∀ id r, visible scope k r = true → p id r = q id r) : seen scope k p = seen scope k q := by
  have hvisible : ∀ id r, (visible scope k r && p id r) = (visible scope k r && q id r) := by
    intro id r
    cases hv : visible scope k r with
    | false => rfl
    | true => rw [h id r hv]
  funext s
  unfold seen
  simp only [hvisible]

theorem visible_tenant (hk : ∀ r : Row k, (orgOf k r).isSome = true) {r : Row k}
    (h : visible (.tenant orgId) k r = true) : orgOf k r = some orgId := by
  obtain ⟨o, ho⟩ := Option.isSome_iff_exists.mp (hk r)
  unfold visible at h
  rw [ho, Bool.and_eq_true] at h
  rw [ho, show o = orgId from beq_iff_eq.mp h.2]

theorem gives_findFirst_id {i : Id} {p : Row k → Bool} {o : Option (Id × Row k)} :
    (findFirst (.tenant orgId) k fun id r => id == i && p r).gives s o s' ↔
      o = ((s.get k i).filter fun r => visible (.tenant orgId) k r && p r).map (i, ·) ∧ s' = s := by
  unfold findFirst
  rw [Tx.gives_findFirst, and_comm]
  refine and_congr_left fun _ => ?_
  have hmem : ∀ x, x ∈ seen (.tenant orgId) k (fun id r => id == i && p r) s ↔
      x.1 = i ∧ s.get k i = some x.2 ∧ (visible (.tenant orgId) k x.2 && p x.2) = true := by
    rintro ⟨id, r⟩
    rw [mem_seen]
    constructor
    · rintro ⟨hr, hv, hp⟩
      obtain ⟨hi, hpr⟩ := Bool.and_eq_true_iff.mp hp
      obtain rfl : id = i := beq_iff_eq.mp hi
      exact ⟨rfl, hr, Bool.and_eq_true_iff.mpr ⟨hv, hpr⟩⟩
    · rintro ⟨rfl, hr, hp⟩
      obtain ⟨hv, hp⟩ := Bool.and_eq_true_iff.mp hp
      exact ⟨hr, hv, by simpa using hp⟩
  cases hf : (s.get k i).filter fun r => visible (.tenant orgId) k r && p r with
  | none =>
    constructor
    · rintro (⟨rfl, -⟩ | ⟨x, hx, -⟩)
      · rfl
      · obtain ⟨-, hr, hp⟩ := (hmem x).mp hx
        rw [hr, Option.filter_some, if_pos hp] at hf
        cases hf
    · rintro rfl
      refine Or.inl ⟨rfl, List.eq_nil_iff_forall_not_mem.mpr fun x hx => ?_⟩
      obtain ⟨-, hr, hp⟩ := (hmem x).mp hx
      rw [hr, Option.filter_some, if_pos hp] at hf
      cases hf
  | some r =>
    obtain ⟨hr, hp⟩ := Option.filter_eq_some_iff.mp hf
    constructor
    · rintro (⟨rfl, hnil⟩ | ⟨⟨id, r'⟩, hx, rfl⟩)
      · exact absurd ((hmem (i, r)).mpr ⟨rfl, hr, hp⟩) (hnil ▸ List.not_mem_nil)
      · obtain ⟨rfl, hr', -⟩ := (hmem _).mp hx
        rw [hr] at hr'
        cases hr'
        rfl
    · rintro rfl
      exact Or.inr ⟨(i, r), (hmem _).mpr ⟨rfl, hr, hp⟩, rfl⟩

/-- **Looking up the template of a queue.** -/
theorem gives_queueTemplate {o : Option Id} :
    (resolveFlowTemplateId (.tenant orgId) orgId branchId queueId none).gives s o s' ↔
      o ∈ queueTemplates orgId branchId queueId s ∧ s' = s := by
  have hactive : seen (.tenant orgId) .flowTemplate
      (fun _ t => t.orgId == orgId && t.branchId == branchId && t.isActive) =
      seen (.tenant orgId) .flowTemplate fun _ t => t.branchId == branchId && t.isActive :=
    seen_congr fun id t ht => by
      have ho : t.orgId = orgId := Option.some.inj (visible_tenant (fun _ => rfl) ht)
      simp [ho]
  have hqueue : ∀ {o m}, (findFirst (.tenant orgId) .queue fun id q =>
      id == queueId && q.orgId == orgId).gives s o m ↔
        o = (queueRow orgId queueId s).map (queueId, ·) ∧ m = s := by
    intro o m
    rw [gives_findFirst_id (p := fun q : Row .queue => q.orgId == orgId)]
    have hrow : ((s.get .queue queueId).filter fun q : Queue => visible (.tenant orgId) .queue q &&
        q.orgId == orgId) = queueRow orgId queueId s := by
      unfold queueRow
      cases s.get .queue queueId with
      | none => rfl
      | some q =>
        rw [Option.filter_some, Option.filter_some]
        cases hv : visible (.tenant orgId) .queue q with
        | false => rfl
        | true =>
          have ho : q.orgId = orgId := Option.some.inj (visible_tenant (fun _ => rfl) hv)
          simp [ho]
    rw [hrow]
  have hT : ((queueRow orgId queueId s).map (queueId, ·)).bind (·.2.flowTemplateId) =
      (queueRow orgId queueId s).bind (·.flowTemplateId) := by
    cases queueRow orgId queueId s <;> rfl
  unfold resolveFlowTemplateId queueTemplates
  rw [Tx.bind_eq, Tx.gives_bind]
  constructor
  · rintro ⟨q, m, hq, h⟩
    obtain ⟨rfl, rfl⟩ := hqueue.mp hq
    rw [hT] at h
    cases hc : (queueRow orgId queueId m).bind (·.flowTemplateId) with
    | some T =>
      rw [hc] at h
      exact ⟨List.mem_singleton.mpr h.1, h.2⟩
    | none =>
      rw [hc] at h
      obtain ⟨active, m', hm, ho⟩ := h.seq
      obtain ⟨rfl, hcases⟩ := Tx.gives_findFirst.mp hm
      rw [hactive] at hcases
      obtain ⟨rfl, rfl⟩ := ho
      refine ⟨?_, rfl⟩
      rcases hcases with ⟨rfl, hnil⟩ | ⟨t, ht, rfl⟩
      · simp only [hnil]
        exact List.mem_singleton.mpr rfl
      · dsimp only
        split
        · rename_i hnil
          rw [hnil] at ht
          cases ht
        · exact List.mem_map_of_mem ht
  · rintro ⟨ho, rfl⟩
    refine ⟨_, s', hqueue.mpr ⟨rfl, rfl⟩, ?_⟩
    rw [hT]
    cases hc : (queueRow orgId queueId s').bind (·.flowTemplateId) with
    | some T =>
      rw [hc] at ho
      exact ⟨List.mem_singleton.mp ho, rfl⟩
    | none =>
      rw [hc] at ho
      dsimp only at ho
      split at ho
      · rename_i hnil
        refine Tx.gives_bind.mpr ⟨none, s', Tx.gives_findFirst.mpr ⟨rfl, Or.inl ⟨rfl, ?_⟩⟩,
          List.mem_singleton.mp ho, rfl⟩
        rw [hactive]
        exact hnil
      · obtain ⟨t, ht, rfl⟩ := List.mem_map.mp ho
        refine Tx.gives_bind.mpr ⟨some t, s', Tx.gives_findFirst.mpr ⟨rfl, Or.inr ⟨t, ?_, rfl⟩⟩,
          rfl, rfl⟩
        rw [hactive]
        exact ht

/-! ## Steps of a template -/

def IsStep (orgId : Id) (st : BranchFlowStep) (s : Db) : Prop :=
  ∃ id, s.get .flowStep id = some st ∧ visible (.tenant orgId) .flowStep st = true

/-- **The step of least index** that meets `p`. -/
def lowest (orgId : Id) (p : BranchFlowStep → Bool) (s : Db) : Option BranchFlowStep :=
  (firsts (fun x y => byStepIndex x.2 y.2)
    (seen (.tenant orgId) .flowStep (fun _ st => p st) s)).head?.map (·.2)

variable {p q : BranchFlowStep → Bool} {T : Id} {st st' : BranchFlowStep}

theorem mem_firsts {α : Type} {le : α → α → Bool} {xs : List α} {x : α} :
    x ∈ firsts le xs ↔ x ∈ xs ∧ ∀ y ∈ xs, le x y = true := by
  unfold firsts
  rw [List.mem_filter, List.all_eq_true]

theorem lowest_eq_none : lowest orgId p s = none ↔
    ∀ x, x ∉ seen (.tenant orgId) .flowStep (fun _ st => p st) s := by
  unfold lowest
  rw [Option.map_eq_none_iff, List.head?_eq_none_iff]
  constructor
  · intro h x hx
    obtain ⟨y, hy, hmin⟩ := exists_first (fun x y : Id × BranchFlowStep => byStepIndex x.2 y.2)
      (fun _ _ => by simp only [byStepIndex, decide_eq_true_eq]; exact le_total _ _)
      (fun _ _ _ => by simp only [byStepIndex, decide_eq_true_eq]; exact le_trans)
      (List.ne_nil_of_mem hx)
    exact absurd (mem_firsts.mpr ⟨hy, hmin⟩) (h ▸ List.not_mem_nil)
  · intro h
    exact List.eq_nil_iff_forall_not_mem.mpr fun x hx => h x (mem_firsts.mp hx).1

/-- **No two steps** of a template have one index. -/
theorem eq_of_index (hs : s.Unique) {id id' : Id} (h : s.get .flowStep id = some st)
    (h' : s.get .flowStep id' = some st') (hT : st.templateId = st'.templateId)
    (hi : st.stepIndex = st'.stepIndex) : st = st' := by
  have hown : s.Owns (UniqueKey.flowStep st.templateId st.stepIndex) .flowStep id :=
    ⟨st, h, List.mem_singleton.mpr rfl⟩
  have hown' : s.Owns (UniqueKey.flowStep st.templateId st.stepIndex) .flowStep id' :=
    ⟨st', h', List.mem_singleton.mpr (by rw [hT, hi])⟩
  have hid := hs.row hown hown'
  subst hid
  exact Option.some.inj (h.symm.trans h')

theorem eq_of_lowest (hs : s.Unique) (hp : ∀ st, p st = true → st.templateId = T)
    {x y : Id × BranchFlowStep} (hx : x ∈ seen (.tenant orgId) .flowStep (fun _ st => p st) s)
    (hy : y ∈ seen (.tenant orgId) .flowStep (fun _ st => p st) s)
    (hxy : x.2.stepIndex ≤ y.2.stepIndex) (hyx : y.2.stepIndex ≤ x.2.stepIndex) : x.2 = y.2 := by
  obtain ⟨hrx, -, hpx⟩ := mem_seen.mp hx
  obtain ⟨hry, -, hpy⟩ := mem_seen.mp hy
  exact eq_of_index hs hrx hry ((hp _ hpx).trans (hp _ hpy).symm) (by omega)

theorem lowest_eq_some (hs : s.Unique) (hp : ∀ st, p st = true → st.templateId = T) :
    lowest orgId p s = some st ↔ ∃ id, (id, st) ∈ seen (.tenant orgId) .flowStep (fun _ st => p st) s ∧
      ∀ x ∈ seen (.tenant orgId) .flowStep (fun _ st => p st) s, st.stepIndex ≤ x.2.stepIndex := by
  have hmin : ∀ st', lowest orgId p s = some st' → ∃ id,
      (id, st') ∈ seen (.tenant orgId) .flowStep (fun _ st => p st) s ∧
        ∀ x ∈ seen (.tenant orgId) .flowStep (fun _ st => p st) s,
          st'.stepIndex ≤ x.2.stepIndex := by
    intro st' h
    obtain ⟨⟨id, r⟩, hr, rfl⟩ := Option.map_eq_some_iff.mp h
    obtain ⟨hmem, hmin⟩ := mem_firsts.mp (List.mem_of_mem_head? hr)
    exact ⟨id, hmem, fun x hx => decide_eq_true_iff.mp (hmin x hx)⟩
  constructor
  · exact hmin st
  · rintro ⟨id, hmem, hle⟩
    cases h : lowest orgId p s with
    | none => exact absurd hmem (lowest_eq_none.mp h _)
    | some st' =>
      obtain ⟨id', hmem', hle'⟩ := hmin st' h
      have heq : st' = st := eq_of_lowest hs hp hmem' hmem (hle' _ hmem) (hle _ hmem')
      rw [heq]

/-- A query gives something, or that there is nothing. -/
theorem exists_findFirst {α : Type} (rows : Db → List α) (s : Db) :
    ∃ o, (Tx.findFirst rows : TTx (Option α)).gives s o s := by
  cases h : rows s with
  | nil => exact ⟨none, Tx.gives_findFirst.mpr ⟨rfl, Or.inl ⟨rfl, h⟩⟩⟩
  | cons x xs =>
    exact ⟨some x, Tx.gives_findFirst.mpr ⟨rfl, Or.inr ⟨x, h ▸ List.mem_cons_self, rfl⟩⟩⟩

/-- **Looking up a step** of a template. -/
theorem gives_firstStep_iff (hs : s.Unique) (hp : ∀ st, p st = true → st.templateId = T)
    {o : Option BranchFlowStep} :
    (firstStep (.tenant orgId) p).gives s o s' ↔ o = lowest orgId p s ∧ s' = s := by
  have hsound : ∀ {o m}, (firstStep (.tenant orgId) p).gives s o m → o = lowest orgId p s ∧ m = s := by
    intro o m h
    obtain ⟨hm, ⟨rfl, hno⟩ | ⟨x, hx, rfl, hmin⟩⟩ := gives_firstStep h
    · exact ⟨(lowest_eq_none.mpr hno).symm, hm⟩
    · exact ⟨((lowest_eq_some hs hp).mpr ⟨x.1, hx, hmin⟩).symm, hm⟩
  constructor
  · exact hsound
  · rintro ⟨rfl, rfl⟩
    obtain ⟨o, ho⟩ := exists_findFirst (fun s => firsts (fun x y : Id × Row .flowStep =>
      byStepIndex x.2 y.2) (seen (.tenant orgId) .flowStep (fun _ st => p st) s)) s'
    have h : (firstStep (.tenant orgId) p).gives s' (o.map (·.2)) s' :=
      Tx.gives_bind.mpr ⟨o, s', ho, rfl, rfl⟩
    rwa [(hsound h).1] at h

/-- Of the steps in order, the first that meets `q`. -/
theorem find?_sorted (hs : s.Unique) (hp : ∀ st, p st = true → st.templateId = T) :
    (((seen (.tenant orgId) .flowStep (fun _ st => p st) s).insertionSort
      fun x y => byStepIndex x.2 y.2 = true).map (·.2)).find? q =
        lowest orgId (fun st => p st && q st) s := by
  have hle : ∀ x y : BranchFlowStep, byStepIndex x y = true ↔ x.stepIndex ≤ y.stepIndex :=
    fun _ _ => decide_eq_true_iff
  have hpq : ∀ st, (p st && q st) = true → st.templateId = T :=
    fun st hst => hp st (Bool.and_eq_true_iff.mp hst).1
  have hboth : ∀ {x : Id × BranchFlowStep},
      x ∈ seen (.tenant orgId) .flowStep (fun _ st => p st && q st) s ↔
        x ∈ seen (.tenant orgId) .flowStep (fun _ st => p st) s ∧ q x.2 = true := by
    rintro ⟨id, st⟩
    rw [mem_seen, mem_seen, Bool.and_eq_true]
    tauto
  have htotal : ∀ x y : Id × BranchFlowStep,
      byStepIndex x.2 y.2 = true ∨ byStepIndex y.2 x.2 = true := fun x y => by
    rw [hle, hle]
    exact le_total _ _
  have htrans : ∀ x y z : Id × BranchFlowStep, byStepIndex x.2 y.2 = true →
      byStepIndex y.2 z.2 = true → byStepIndex x.2 z.2 = true := fun x y z => by
    rw [hle, hle, hle]
    exact le_trans
  have hordered : (seen (.tenant orgId) .flowStep (fun _ st => p st) s).insertionSort
      (fun x y => byStepIndex x.2 y.2 = true) ∈ orderings _ _ :=
    insertionSort_mem_orderings htotal htrans
  obtain ⟨hperm, hsorted⟩ := mem_orderings.mp hordered
  cases hf : (((seen (.tenant orgId) .flowStep (fun _ st => p st) s).insertionSort
      fun x y => byStepIndex x.2 y.2 = true).map (·.2)).find? q with
  | none =>
    refine (lowest_eq_none.mpr fun x hx => ?_).symm
    obtain ⟨hx, hq⟩ := hboth.mp hx
    exact absurd hq (List.find?_eq_none.mp hf _
      (List.mem_map_of_mem (hperm.mem_iff.mpr hx)))
  | some st =>
    obtain ⟨hq, as, bs, hlist, has⟩ := List.find?_eq_some_iff_append.mp hf
    obtain ⟨x, hx, rfl⟩ := List.mem_map.mp (List.mem_of_find?_eq_some hf)
    refine ((lowest_eq_some hs hpq).mpr ⟨x.1, hboth.mpr ⟨hperm.mem_iff.mp hx, hq⟩, fun y hy => ?_⟩).symm
    obtain ⟨hy, hqy⟩ := hboth.mp hy
    have hmem : y.2 ∈ as ++ x.2 :: bs := hlist ▸ List.mem_map_of_mem (hperm.mem_iff.mpr hy)
    have hsort : (as ++ x.2 :: bs).Pairwise fun a b => a.stepIndex ≤ b.stepIndex := by
      rw [← hlist, List.pairwise_map]
      exact hsorted.imp fun h => (hle _ _).mp h
    obtain ⟨-, hrest, -⟩ := List.pairwise_append.mp hsort
    rcases List.mem_append.mp hmem with hmem | hmem
    · have hno := has _ hmem
      rw [hqy] at hno
      cases hno
    · rcases List.mem_cons.mp hmem with he | hmem
      · rw [he]
      · exact (List.pairwise_cons.mp hrest).1 _ hmem

/-! ## The index of a queue -/

section

variable {α β : Type} {t : TTx α} {f : α → TTx β} {y : β}

theorem gives_some_bind {R : α → Prop} (h : ∀ {a m}, t.gives s a m ↔ R a ∧ m = s) :
    (t.bind f).gives s y s' ↔ ∃ a, R a ∧ (f a).gives s y s' := by
  rw [Tx.gives_bind]
  constructor
  · rintro ⟨a, m, ha, hf⟩
    obtain ⟨hR, rfl⟩ := h.mp ha
    exact ⟨a, hR, hf⟩
  · rintro ⟨a, hR, hf⟩
    exact ⟨a, s, h.mpr ⟨hR, rfl⟩, hf⟩

/-- A part that finds one value. -/
theorem gives_one_bind {a : α} (h : ∀ {b m}, t.gives s b m ↔ b = a ∧ m = s) :
    (t.bind f).gives s y s' ↔ (f a).gives s y s' := by
  rw [gives_some_bind h]
  exact exists_eq_left

end

/-- **The index that a queue has in a template**, for a ticket of the visit: the step of the queue or of
its service, not before the visit's last one, or else the first step of the queue. -/
def queueIndex (orgId branchId queueId visitId T : Id) (s : Db) : Option ℤ :=
  let minStepIndex := (maxStepIndex (seen (.tenant orgId) .ticket
    (fun _ t => t.orgId == orgId && t.visitId == some visitId) s)).getD 0
  let ofTemplate (st : BranchFlowStep) : Bool := st.orgId == orgId && st.templateId == T
  let serviceId := ((queueRow orgId queueId s).filter (·.branchId == branchId)).map (·.serviceId)
  let step := lowest orgId (fun st =>
    ofTemplate st && st.queueId == some queueId && minStepIndex ≤ st.stepIndex) s
  let fallback := lowest orgId (fun st => ofTemplate st && st.queueId == some queueId) s
  let stepByService := lowest orgId (fun st =>
    ofTemplate st && some st.serviceId == serviceId && minStepIndex ≤ st.stepIndex) s
  match step, fallback with
  | none, some fallback =>
    if 0 < minStepIndex then some fallback.stepIndex else stepByService.map (·.stepIndex)
  | _, _ => (stepByService.orElse fun _ => step).map (·.stepIndex)

def minStepIndex (orgId : Id) (visitId : Option Id) (s : Db) : ℤ :=
  if visitId.isSome then (maxStepIndex (seen (.tenant orgId) .ticket
    (fun _ t => t.orgId == orgId && t.visitId == visitId) s)).getD 0 else 0

def serviceOf (orgId branchId queueId : Id) (s : Db) : Option Id :=
  ((queueRow orgId queueId s).filter (·.branchId == branchId)).map (·.serviceId)

/-- The step of the queue in the template, not before `m`. -/
def stepFrom (orgId queueId T : Id) (m : ℤ) (s : Db) : Option BranchFlowStep :=
  lowest orgId (fun st => st.orgId == orgId && st.templateId == T && st.queueId == some queueId &&
    m ≤ st.stepIndex) s

def fallbackStep (orgId queueId T : Id) (s : Db) : Option BranchFlowStep :=
  lowest orgId (fun st => st.orgId == orgId && st.templateId == T && st.queueId == some queueId) s

/-- The step of the queue's service in the template, not before `m`. -/
def stepByService (orgId branchId queueId T : Id) (m : ℤ) (s : Db) : Option BranchFlowStep :=
  lowest orgId (fun st => st.orgId == orgId && st.templateId == T &&
    some st.serviceId == serviceOf orgId branchId queueId s && m ≤ st.stepIndex) s

/-- The index that a queue has in a template, from the index `m` on. -/
def stepIndexFrom (orgId branchId queueId T : Id) (m : ℤ) (s : Db) : Option ℤ :=
  match stepFrom orgId queueId T m s, fallbackStep orgId queueId T s with
  | none, some fallback =>
    if 0 < m then some fallback.stepIndex
    else (stepByService orgId branchId queueId T m s).map (·.stepIndex)
  | step, _ =>
    ((stepByService orgId branchId queueId T m s).orElse fun _ => step).map (·.stepIndex)

theorem queueIndex_eq (orgId branchId queueId visitId T : Id) (s : Db) :
    queueIndex orgId branchId queueId visitId T s =
      stepIndexFrom orgId branchId queueId T (minStepIndex orgId (some visitId) s) s := by
  unfold queueIndex stepIndexFrom stepFrom fallbackStep stepByService serviceOf minStepIndex
  simp only [Option.isSome_some, if_true]
  split
  · rfl
  · rfl

theorem queueRow_filter (f : Queue → Bool) :
    ((s.get .queue queueId).filter fun q : Row .queue =>
      visible (.tenant orgId) .queue q && (q.orgId == orgId && f q)) =
        (queueRow orgId queueId s).filter f := by
  unfold queueRow
  cases s.get .queue queueId with
  | none => rfl
  | some q =>
    rw [Option.filter_some, Option.filter_some]
    cases hv : visible (.tenant orgId) .queue q with
    | false => rfl
    | true =>
      have ho : q.orgId = orgId := Option.some.inj (visible_tenant (fun _ => rfl) hv)
      simp [ho, Option.filter_some]

/-- **Looking up the index of a queue**, for a ticket of a visit or of none. -/
theorem gives_stepIndex (hs : s.Unique) {visitId : Option Id} :
    (resolveFlowStepIndexForQueue (.tenant orgId) orgId branchId queueId visitId).gives s o s' ↔
      (∃ T ∈ queueTemplates orgId branchId queueId s, o = T.bind fun T =>
        stepIndexFrom orgId branchId queueId T (minStepIndex orgId visitId s) s) ∧ s' = s := by
  unfold resolveFlowStepIndexForQueue
  rw [Tx.bind_eq, gives_some_bind gives_queueTemplate]
  have hqueue : ∀ {o m}, (findFirst (.tenant orgId) .queue fun id q =>
      id == queueId && q.orgId == orgId && q.branchId == branchId).gives s o m ↔
        o = ((queueRow orgId queueId s).filter (·.branchId == branchId)).map (queueId, ·) ∧
          m = s := by
    intro o m
    simp only [Bool.and_assoc]
    rw [gives_findFirst_id (p := fun q : Row .queue => q.orgId == orgId && q.branchId == branchId),
      queueRow_filter]
  rw [← exists_and_right]
  refine exists_congr fun T => ?_
  rw [and_assoc]
  refine and_congr_right fun _ => ?_
  cases T with
  | none => exact Iff.rfl
  | some T =>
    refine (gives_one_bind Tx.gives_read).trans ?_
    refine (gives_one_bind (gives_firstStep_iff (T := T) hs fun st h => by simp_all)).trans ?_
    refine (gives_one_bind (gives_firstStep_iff (T := T) hs fun st h => by simp_all)).trans ?_
    refine (gives_one_bind hqueue).trans ?_
    refine (gives_one_bind (gives_firstStep_iff (T := T) hs fun st h => by simp_all)).trans ?_
    show _ ↔ o = stepIndexFrom orgId branchId queueId T (minStepIndex orgId visitId s) s ∧ s' = s
    unfold stepIndexFrom stepFrom fallbackStep stepByService serviceOf minStepIndex
    simp only [Option.map_map, Function.comp_def]
    generalize lowest orgId _ s = step
    generalize lowest orgId _ s = fallback
    generalize lowest orgId _ s = byService
    generalize (if visitId.isSome = true then _ else (0 : ℤ)) = m
    cases step with
    | some step => exact Iff.rfl
    | none =>
      cases fallback with
      | none => exact Iff.rfl
      | some fallback =>
        dsimp only
        split
        · exact Iff.rfl
        · exact Iff.rfl

/-- **Looking up the index of a queue.** -/
theorem gives_queueIndex (hs : s.Unique) {visitId : Id} :
    (resolveFlowStepIndexForQueue (.tenant orgId) orgId branchId queueId (some visitId)).gives s o s' ↔
      (∃ T ∈ queueTemplates orgId branchId queueId s,
        o = T.bind fun T => queueIndex orgId branchId queueId visitId T s) ∧ s' = s := by
  simp only [queueIndex_eq]
  exact gives_stepIndex hs

end

end PatronLoyalty.Ticketing
