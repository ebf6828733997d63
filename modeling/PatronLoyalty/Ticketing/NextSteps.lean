import PatronLoyalty.Ticketing.Lookups
import PatronLoyalty.Txn.InTurn

/-!
# One next step

`resolveNextJourneyStep`, `resolveNextJourneyStepTx`, `getNextStepResolutionFailure` and `transfer` each
look up the next step of a ticket's journey. The resolvers go by the template the ticket was issued with;
the other two by that of its queue. `transfer` has its own way to an index, and takes the queue of the
step as it is, where the others repair it.

`laterSteps` are the steps the resolvers may find, by the ticket's template and index, `transferSteps`
those of `transfer`. `findable` tells whether a queue can be found for a step.

Headline: **`agrees_iff`**, the four agree on one next step if and only if there is one that all templates
and indices they may go by lead to, its queue is there or none can be found for it, and the connection of
the resolver sees it. `exists_disagreement` is a ticket whose queue has moved to another template.
-/

namespace PatronLoyalty.Ticketing

open Txn
open Loyalty (Id Err)

/-! ## The steps that may be found -/

def nextIn (orgId T : Id) (i : ℤ) (s : Db) : Option BranchFlowStep :=
  lowest orgId (fun st => st.templateId == T && i < st.stepIndex) s

/-- The same, if there is a template and an index. -/
def laterIn (orgId : Id) (T : Option Id) (i : Option ℤ) (s : Db) : Option BranchFlowStep :=
  T.bind fun T => i.bind fun i => nextIn orgId T i s

def ownTemplates (orgId : Id) (ctx : JourneyTicketContext) (s : Db) : List (Option Id) :=
  match ctx.flowTemplateId with
  | some T => [some T]
  | none => queueTemplates orgId ctx.branchId ctx.queueId s

/-- The indices a ticket may have: its own, or those of its queue. -/
def stepIndices (orgId : Id) (ctx : JourneyTicketContext) (visitId : Id) (s : Db) :
    List (Option ℤ) :=
  match ctx.stepIndex with
  | some i => [some i]
  | none => (queueTemplates orgId ctx.branchId ctx.queueId s).map fun T =>
      T.bind fun T => queueIndex orgId ctx.branchId ctx.queueId visitId T s

/-- **The steps the resolvers may find.** -/
def laterSteps (orgId : Id) (ctx : JourneyTicketContext) (s : Db) : List (Option BranchFlowStep) :=
  match ctx.visitId with
  | none => [none]
  | some visitId => (stepIndices orgId ctx visitId s).flatMap fun i =>
      (ownTemplates orgId ctx s).map fun T => laterIn orgId T i s

/-- **The steps a bare connection may find**: without a right to see the organisation's rows, the one by
what the ticket itself bears. -/
def bareSteps (bypassRls : Bool) (orgId : Id) (ctx : JourneyTicketContext) (s : Db) :
    List (Option BranchFlowStep) :=
  if bypassRls then laterSteps orgId ctx s
  else [if ctx.visitId.isSome then laterIn orgId ctx.flowTemplateId ctx.stepIndex s else none]

/-- The index `transfer` goes by: the ticket's, or the first of its queue in the template, or 0. -/
def transferIndex (orgId : Id) (t : Ticket) (T : Id) (s : Db) : ℤ :=
  (t.stepIndex.orElse fun _ => (lowest orgId (fun st =>
    st.templateId == T && st.queueId == some t.queueId) s).map (·.stepIndex)).getD 0

/-- **The steps `transfer` may find.** -/
def transferSteps (orgId : Id) (t : Ticket) (s : Db) : List (Option BranchFlowStep) :=
  if t.visitId.isSome then
    (queueTemplates orgId t.branchId t.queueId s).map fun T =>
      T.bind fun T => nextIn orgId T (transferIndex orgId t T s) s
  else [none]

/-- The step the resolvers find, before its queue is looked up. -/
def laterStep (scope : Scope) (orgId : Id) (ctx : JourneyTicketContext) :
    TTx (Option BranchFlowStep) := do
  let step ← resolveStep scope orgId ctx
  match step with
  | none => pure none
  | some (templateId, currentStepIndex) => getNextStep orgId templateId currentStepIndex

section

variable {orgId : Id} {ctx : JourneyTicketContext} {t : Ticket} {s s' : Db} {T : Id} {i : ℤ}
  {st : BranchFlowStep} {o : Option BranchFlowStep}

theorem queueTemplates_ne_nil (orgId branchId queueId : Id) (s : Db) :
    queueTemplates orgId branchId queueId s ≠ [] := by
  unfold queueTemplates
  split
  · simp
  · split
    · simp
    · rename_i hne
      simpa using hne

theorem gives_getNextStep_iff (hs : s.Unique) :
    (getNextStep orgId T i).gives s o s' ↔ o = nextIn orgId T i s ∧ s' = s :=
  gives_firstStep_iff (T := T) hs fun st h => by simp_all

theorem nextIn_spec (hs : s.Unique) (h : nextIn orgId T i s = some st) :
    st.templateId = T ∧ ∃ id, s.get .flowStep id = some st ∧
      visible (.tenant orgId) .flowStep st = true := by
  obtain ⟨id, hid, -⟩ := (lowest_eq_some (T := T) hs fun st h => by simp_all).mp h
  obtain ⟨hrow, hv, hp⟩ := mem_seen.mp hid
  exact ⟨by simp_all, id, hrow, hv⟩

theorem gives_ownTemplate {o : Option Id} :
    (resolveFlowTemplateId (.tenant orgId) orgId ctx.branchId ctx.queueId ctx.flowTemplateId).gives
      s o s' ↔ o ∈ ownTemplates orgId ctx s ∧ s' = s := by
  unfold ownTemplates
  cases ctx.flowTemplateId with
  | none => exact gives_queueTemplate
  | some T =>
    rw [List.mem_singleton]
    exact Iff.rfl

/-- A template with an index. -/
def stepKey (T : Option Id) (i : Option ℤ) : Option (Id × ℤ) := T.bind fun T => i.map (T, ·)

theorem gives_stepKey {i : Option ℤ} {T : Option Id} {r : Option (Id × ℤ)} :
    (match i, T with
      | some currentStepIndex, some templateId => pure (some (templateId, currentStepIndex))
      | _, _ => pure none : TTx (Option (Id × ℤ))).gives s r s' ↔ r = stepKey T i ∧ s' = s := by
  cases i <;> cases T <;> exact Iff.rfl

theorem gives_laterIn (hs : s.Unique) {i : Option ℤ} {T : Option Id} :
    (match stepKey T i with
      | none => pure none
      | some (templateId, currentStepIndex) => getNextStep orgId templateId currentStepIndex :
        TTx (Option BranchFlowStep)).gives s o s' ↔ o = laterIn orgId T i s ∧ s' = s := by
  cases T with
  | none => exact Iff.rfl
  | some T =>
    cases i with
    | none => exact Iff.rfl
    | some i => exact gives_getNextStep_iff hs

theorem mem_stepIndices {visitId : Id} {i : Option ℤ} :
    i ∈ stepIndices orgId ctx visitId s ↔ ∃ j, (∃ T ∈ queueTemplates orgId ctx.branchId ctx.queueId s,
      j = T.bind fun T => queueIndex orgId ctx.branchId ctx.queueId visitId T s) ∧
        i = ctx.stepIndex.orElse fun _ => j := by
  unfold stepIndices
  cases ctx.stepIndex with
  | none =>
    rw [List.mem_map]
    constructor
    · rintro ⟨T, hT, rfl⟩
      exact ⟨_, ⟨T, hT, rfl⟩, rfl⟩
    · rintro ⟨j, ⟨T, hT, rfl⟩, rfl⟩
      exact ⟨T, hT, rfl⟩
  | some x =>
    obtain ⟨T, hT⟩ := List.exists_mem_of_ne_nil _
      (queueTemplates_ne_nil orgId ctx.branchId ctx.queueId s)
    rw [List.mem_singleton]
    constructor
    · rintro rfl
      exact ⟨_, ⟨T, hT, rfl⟩, rfl⟩
    · rintro ⟨j, -, rfl⟩
      rfl

theorem gives_resolveStep (hs : s.Unique) {visitId : Id} (hv : ctx.visitId = some visitId)
    {r : Option (Id × ℤ)} : (resolveStep (.tenant orgId) orgId ctx).gives s r s' ↔
      (∃ i ∈ stepIndices orgId ctx visitId s, ∃ T ∈ ownTemplates orgId ctx s, r = stepKey T i) ∧
        s' = s := by
  unfold resolveStep
  rw [hv]
  refine (gives_some_bind (gives_queueIndex hs)).trans ?_
  simp only [mem_stepIndices]
  constructor
  · rintro ⟨j, hj, h⟩
    obtain ⟨T, hT, hr⟩ := (gives_some_bind gives_ownTemplate).mp h
    obtain ⟨hr, hs'⟩ := gives_stepKey.mp hr
    exact ⟨⟨_, ⟨j, hj, rfl⟩, T, hT, hr⟩, hs'⟩
  · rintro ⟨⟨i, ⟨j, hj, rfl⟩, T, hT, hr⟩, hs'⟩
    exact ⟨j, hj, (gives_some_bind gives_ownTemplate).mpr ⟨T, hT, gives_stepKey.mpr ⟨hr, hs'⟩⟩⟩

/-- **What the resolvers find**, in the organisation. -/
theorem gives_laterStep (hs : s.Unique) : (laterStep (.tenant orgId) orgId ctx).gives s o s' ↔
    o ∈ laterSteps orgId ctx s ∧ s' = s := by
  unfold laterStep laterSteps
  cases hv : ctx.visitId with
  | none =>
    unfold resolveStep
    rw [hv]
    simp
  | some visitId =>
    refine (gives_some_bind (gives_resolveStep hs hv)).trans ?_
    simp only [List.mem_flatMap, List.mem_map]
    constructor
    · rintro ⟨r, ⟨i, hi, T, hT, rfl⟩, h⟩
      obtain ⟨ho, hs'⟩ := (gives_laterIn hs).mp h
      exact ⟨⟨i, hi, T, hT, ho.symm⟩, hs'⟩
    · rintro ⟨⟨i, hi, T, hT, ho⟩, hs'⟩
      exact ⟨_, ⟨i, hi, T, hT, rfl⟩, (gives_laterIn hs).mpr ⟨ho.symm, hs'⟩⟩

/-- **What the resolvers find on a bare connection.** -/
theorem gives_laterStep_bare (hs : s.Unique) {bypassRls : Bool} :
    (laterStep (.bare bypassRls) orgId ctx).gives s o s' ↔
      o ∈ bareSteps bypassRls orgId ctx s ∧ s' = s := by
  unfold bareSteps
  cases bypassRls with
  | true =>
    unfold laterStep
    rw [resolveStep_of_sees rfl]
    exact gives_laterStep hs
  | false =>
    rw [if_neg (by simp), List.mem_singleton]
    unfold laterStep resolveStep
    cases ctx.visitId with
    | none => simp
    | some visitId =>
      have htemplate : ∀ {T : Option Id} {m : Db}, (resolveFlowTemplateId (.bare false) orgId
          ctx.branchId ctx.queueId ctx.flowTemplateId).gives s T m ↔
            T = ctx.flowTemplateId ∧ m = s := by
        intro T m
        cases ctx.flowTemplateId with
        | none => exact gives_resolveFlowTemplateId_hidden
        | some T => exact Iff.rfl
      refine (gives_one_bind (a := stepKey ctx.flowTemplateId ctx.stepIndex) ?_).trans
        (gives_laterIn hs)
      intro r m
      refine (gives_one_bind gives_queueIndex_hidden).trans ((gives_one_bind htemplate).trans ?_)
      have hindex : (ctx.stepIndex.orElse fun _ => none) = ctx.stepIndex := by
        cases ctx.stepIndex <;> rfl
      rw [hindex]
      exact gives_stepKey

theorem mem_queueTemplates {branchId queueId : Id} {o : Option Id} :
    o ∈ queueTemplates orgId branchId queueId s ↔ ∃ active : Option (Id × BranchFlowTemplate),
      (active = none ∧ seen (.tenant orgId) .flowTemplate
          (fun _ t => t.branchId == branchId && t.isActive) s = [] ∨
        ∃ r ∈ seen (.tenant orgId) .flowTemplate
          (fun _ t => t.branchId == branchId && t.isActive) s, active = some r) ∧
      o = ((queueRow orgId queueId s).bind (·.flowTemplateId)).orElse fun _ => active.map (·.1) := by
  unfold queueTemplates
  cases (queueRow orgId queueId s).bind (·.flowTemplateId) with
  | some T =>
    rw [List.mem_singleton]
    constructor
    · rintro rfl
      cases hseen : seen (.tenant orgId) .flowTemplate
          (fun _ t => t.branchId == branchId && t.isActive) s with
      | nil => exact ⟨none, Or.inl ⟨rfl, rfl⟩, rfl⟩
      | cons r rs => exact ⟨some r, Or.inr ⟨r, List.mem_cons_self, rfl⟩, rfl⟩
    · rintro ⟨active, -, rfl⟩
      rfl
  | none =>
    dsimp only
    split
    · rename_i hnil
      rw [List.mem_singleton]
      constructor
      · rintro rfl
        exact ⟨none, Or.inl ⟨rfl, hnil⟩, rfl⟩
      · rintro ⟨active, ⟨rfl, -⟩ | ⟨r, hr, rfl⟩, rfl⟩
        · rfl
        · rw [hnil] at hr
          cases hr
    · rename_i hne
      rw [List.mem_map]
      constructor
      · rintro ⟨r, hr, rfl⟩
        exact ⟨some r, Or.inr ⟨r, hr, rfl⟩, rfl⟩
      · rintro ⟨active, ⟨rfl, hnil⟩ | ⟨r, hr, rfl⟩, rfl⟩
        · exact absurd hnil hne
        · exact ⟨r, hr, rfl⟩

/-- **What `transfer` finds.** -/
theorem gives_transferStep (hs : s.Unique) :
    (transferStep orgId t (queueRow orgId t.queueId s)).gives s o s' ↔
      o ∈ transferSteps orgId t s ∧ s' = s := by
  have hsteps : ∀ (T : Id) (q : BranchFlowStep → Bool),
      (((seen (.tenant orgId) .flowStep (fun _ st => some st.templateId == some T) s).insertionSort
        fun x y => byStepIndex x.2 y.2 = true).map (·.2)).find? q =
          lowest orgId (fun st => st.templateId == T && q st) s := fun T q => by
    simp only [Option.some_beq_some]
    exact find?_sorted (T := T) hs fun st h => beq_iff_eq.mp h
  have hnone : seen (.tenant orgId) .flowStep (fun _ st => some st.templateId == none) s = [] :=
    List.eq_nil_iff_forall_not_mem.mpr fun x hx => by
      have hp := (mem_seen.mp hx).2.2
      cases hp
  have hstep : ∀ T : Option Id, ∀ {m : Db}, ((findManyBy (.tenant orgId) .flowStep
      (fun _ st => some st.templateId == T) byStepIndex).bind fun steps =>
        let steps := steps.map (·.2)
        let ofQueue := (steps.find? fun st => st.queueId == some t.queueId).map (·.stepIndex)
        let currentStepIndex := (t.stepIndex.orElse fun _ => ofQueue).getD 0
        (pure (if t.visitId.isSome then steps.find? fun st => currentStepIndex < st.stepIndex
          else none) : TTx (Option BranchFlowStep))).gives s o m ↔
      o = (if t.visitId.isSome then T.bind fun T => nextIn orgId T (transferIndex orgId t T s) s
        else none) ∧ m = s := by
    intro T m
    refine (gives_one_bind Tx.gives_read).trans ?_
    dsimp only
    cases T with
    | none =>
      rw [hnone]
      simp
    | some T =>
      rw [hsteps, hsteps]
      exact Iff.rfl
  have hmem : o ∈ transferSteps orgId t s ↔ ∃ T ∈ queueTemplates orgId t.branchId t.queueId s,
      o = if t.visitId.isSome then T.bind fun T => nextIn orgId T (transferIndex orgId t T s) s
        else none := by
    unfold transferSteps
    split
    · rw [List.mem_map]
      exact exists_congr fun T => and_congr_right fun _ => eq_comm
    · obtain ⟨T, hT⟩ := List.exists_mem_of_ne_nil _
        (queueTemplates_ne_nil orgId t.branchId t.queueId s)
      rw [List.mem_singleton]
      exact ⟨fun h => ⟨T, hT, h⟩, fun ⟨_, _, h⟩ => h⟩
  unfold transferStep
  refine (gives_some_bind (Tx.gives_findFirst.trans and_comm)).trans ?_
  rw [hmem]
  constructor
  · rintro ⟨active, hactive, h⟩
    obtain ⟨ho, hs'⟩ := (hstep _).mp h
    exact ⟨⟨_, mem_queueTemplates.mpr ⟨active, hactive, rfl⟩, ho⟩, hs'⟩
  · rintro ⟨⟨T, hT, ho⟩, hs'⟩
    obtain ⟨active, hactive, rfl⟩ := mem_queueTemplates.mp hT
    exact ⟨active, hactive, (hstep _).mpr ⟨ho, hs'⟩⟩

end

/-! ## The queue of a step -/

def hasQueue (orgId : Id) (st : BranchFlowStep) (s : Db) : Bool :=
  (st.queueId.bind fun id => queueRow orgId id s).isSome

def queuesOf (orgId branchId : Id) (p : Queue → Bool) (s : Db) : List (Id × Queue) :=
  seen (.tenant orgId) .queue (fun _ q => q.branchId == branchId && p q) s

def servingQueues (orgId branchId : Id) (st : BranchFlowStep) (s : Db) : List (Id × Queue) :=
  queuesOf orgId branchId (fun q => q.serviceId == st.serviceId) s

def namedQueues (orgId branchId : Id) (st : BranchFlowStep) (s : Db) : List (Id × Queue) :=
  let service := (s.get .service st.serviceId).filter (visible (.tenant orgId) .service)
  queuesOf orgId branchId (fun q =>
    (trimmed (service.map (·.name))).any (containsInsensitive q.name)) s

def placedQueue (orgId branchId : Id) (st : BranchFlowStep) (s : Db) : Option (Id × Queue) :=
  let orderedSteps := (seen (.tenant orgId) .flowStep (fun _ r => r.templateId == st.templateId)
    s).insertionSort fun x y => byStepIndex x.2 y.2 = true
  let templateQueues := (queuesOf orgId branchId (fun q => q.flowTemplateId == some st.templateId)
    s).insertionSort fun x y => byCreatedAt x.2 y.2 = true
  (orderedSteps.findIdx? (·.2.stepIndex == st.stepIndex)).bind (templateQueues[·]?)

/-- **A queue can be found** for the step. -/
def findable (orgId branchId : Id) (st : BranchFlowStep) (s : Db) : Bool :=
  hasQueue orgId st s || !(servingQueues orgId branchId st s).isEmpty ||
    !(namedQueues orgId branchId st s).isEmpty || (placedQueue orgId branchId st s).isSome

section

variable {orgId branchId : Id} {s s' : Db} {st : BranchFlowStep} {q : Option (Id × Queue)}

theorem isSome_of_findFirstBy {p : Id → Queue → Bool} {a : Option (Id × Queue)} {m : Db}
    (h : (findFirstBy (.tenant orgId) .queue p byCreatedAt).gives s a m) :
    a.isSome = !(seen (.tenant orgId) .queue p s).isEmpty := by
  have hle : ∀ x y : Queue, byCreatedAt x y = true ↔ x.createdAt ≤ y.createdAt :=
    fun _ _ => decide_eq_true_iff
  obtain ⟨-, ⟨rfl, hno⟩ | ⟨r, hr, rfl, -⟩⟩ := gives_findFirstBy (k := .queue)
    (fun x y => by rw [hle, hle]; exact le_total _ _)
    (fun x y z => by rw [hle, hle, hle]; exact le_trans) h
  · rw [List.eq_nil_iff_forall_not_mem.mpr hno]
    rfl
  · cases hrows : seen (.tenant orgId) .queue p s with
    | nil =>
      rw [hrows] at hr
      cases hr
    | cons x xs => rfl

theorem mem_servingQueues {x : Id × Queue} : x ∈ servingQueues orgId branchId st s ↔
    s.get .queue x.1 = some x.2 ∧ visible (.tenant orgId) .queue x.2 = true ∧
      (x.2.branchId == branchId && x.2.serviceId == st.serviceId) = true := by
  unfold servingQueues queuesOf
  exact mem_seen

theorem serving_of_mem {x : Id × Queue} (h : x ∈ servingQueues orgId branchId st s) :
    (!(servingQueues orgId branchId st s).isEmpty) = true := by
  rw [Bool.not_eq_true', List.isEmpty_eq_false_iff]
  exact List.ne_nil_of_mem h

theorem lowest_self (hs : s.Unique) (hst : IsStep orgId st s) : lowest orgId
    (fun r => r.templateId == st.templateId && r.stepIndex == st.stepIndex) s = some st := by
  obtain ⟨id, hrow, hv⟩ := hst
  refine (lowest_eq_some (T := st.templateId) hs fun r h => by simp_all).mpr
    ⟨id, mem_seen.mpr ⟨hrow, hv, by simp⟩, fun x hx => ?_⟩
  have hp := (mem_seen.mp hx).2.2
  simp only [Bool.and_eq_true, beq_iff_eq] at hp
  rw [hp.2]

/-- **The fallback** finds a queue by the service's name or the step's place, or one of the service. -/
theorem isSome_of_fallback (hs : s.Unique) (hst : IsStep orgId st s)
    (h : (findQueueForFlowStepFallback orgId branchId st.templateId st.stepIndex
      st.serviceId).gives s q s') :
    (!(servingQueues orgId branchId st s).isEmpty || q.isSome) =
      (!(servingQueues orgId branchId st s).isEmpty || !(namedQueues orgId branchId st s).isEmpty ||
        (placedQueue orgId branchId st s).isSome) := by
  obtain ⟨stepMeta, hmeta, h1⟩ := gives_still confined_firstStep h
  have hself := ((gives_firstStep_iff (T := st.templateId) hs fun r hr => by simp_all).mp hmeta).1
  rw [lowest_self hs hst] at hself
  subst hself
  obtain ⟨service, hservice, h2⟩ := gives_still confined_findById h1
  have hservice' := (gives_findById.mp hservice).1
  subst hservice'
  obtain ⟨byName, hname, h3⟩ := gives_still confined_findFirstBy h2
  obtain ⟨steps, hsteps, h4⟩ := gives_still confined_findManyBy h3
  obtain ⟨queues, hqueues, h5⟩ := gives_still confined_findManyBy h4
  obtain ⟨byService, hby, h6⟩ := gives_still confined_findFirstBy h5
  have hnamed : byName.isSome = !(namedQueues orgId branchId st s).isEmpty :=
    isSome_of_findFirstBy hname
  have hserving : byService.isSome = true →
      (!(servingQueues orgId branchId st s).isEmpty) = true := by
    intro hsome
    obtain ⟨x, rfl⟩ := Option.isSome_iff_exists.mp hsome
    rcases (Tx.gives_findFirst.mp hby).2 with ⟨hx, -⟩ | ⟨r, hr, hx⟩
    · cases hx
    · obtain ⟨hrow, hv, hp⟩ := mem_seen.mp (List.mem_filter.mp hr).1
      exact serving_of_mem (mem_servingQueues.mpr ⟨hrow, hv, (Bool.and_eq_true_iff.mp hp).1⟩)
  have hplaced : placedQueue orgId branchId st s =
      (steps.findIdx? (·.2.stepIndex == st.stepIndex)).bind (queues[·]?) := by
    rw [(Tx.gives_read.mp hsteps).1, (Tx.gives_read.mp hqueues).1]
    rfl
  rw [hplaced, ← hnamed]
  split at h6
  · rw [h6.1]
    simp
  · rename_i hfind
    rw [h6.1, hfind]
    simp
  · rename_i i hfind
    rw [h6.1, hfind]
    cases hq : queues[i]? with
    | some x => simp [hq]
    | none =>
      cases byService with
      | none => simp [hq]
      | some x => simp [hq, hserving rfl]

/-- **A queue is found** for a step that has one to be found. -/
theorem isSome_of_resolve (hs : s.Unique) (hst : IsStep orgId st s)
    (h : (resolveQueueForFlowStep orgId branchId st.templateId st.ref).gives s q s') :
    q.isSome = findable orgId branchId st s := by
  obtain ⟨byId, hid, h1⟩ := gives_still confined_findById h
  have hbyId := (gives_findById.mp hid).1
  have hown : hasQueue orgId st s = (st.queueId.bind fun _ => byId).isSome := by
    rw [hbyId]
    unfold hasQueue BranchFlowStep.ref queueRow
    cases st.queueId <;> rfl
  have hcases : (q.isSome = true ∧ (st.queueId.bind fun _ => byId).isSome = true) ∨
      (st.queueId.bind fun _ => byId) = none ∧
        (repairFlowStep orgId branchId st.templateId st.ref).gives s q s' := by
    have href : st.ref.queueId = st.queueId := rfl
    rw [href] at h1
    cases hq : st.queueId with
    | none =>
      rw [hq] at h1
      exact Or.inr ⟨rfl, h1⟩
    | some queueId =>
      rw [hq] at h1
      cases byId with
      | none => exact Or.inr ⟨rfl, h1⟩
      | some x => exact Or.inl ⟨congrArg Option.isSome h1.1, rfl⟩
  unfold findable
  rw [hown]
  rcases hcases with ⟨hq, hb⟩ | ⟨hnone, hrep⟩
  · rw [hq, hb]
    rfl
  · rw [hnone]
    obtain ⟨openQueue, hopen, h2⟩ := gives_still confined_findFirst hrep
    obtain ⟨anyQueue, hany, h3⟩ := gives_still confined_findFirstBy h2
    obtain ⟨fallback, hfall, h4⟩ := gives_still confined_findQueueForFlowStepFallback h3
    have hfallback := isSome_of_fallback hs hst hfall
    have hserving : anyQueue.isSome = !(servingQueues orgId branchId st s).isEmpty :=
      isSome_of_findFirstBy hany
    have hopen' : openQueue.isSome = true → anyQueue.isSome = true := by
      intro hsome
      obtain ⟨x, rfl⟩ := Option.isSome_iff_exists.mp hsome
      rcases (Tx.gives_findFirst.mp hopen).2 with ⟨hx, -⟩ | ⟨r, hr, hx⟩
      · cases hx
      · obtain ⟨hrow, hv, hp⟩ := mem_seen.mp hr
        rw [hserving]
        exact serving_of_mem (mem_servingQueues.mpr ⟨hrow, hv, (Bool.and_eq_true_iff.mp hp).1⟩)
    have hq : q.isSome = (openQueue.orElse fun _ => anyQueue.orElse fun _ => fallback).isSome := by
      split at h4
      · rename_i hnone
        rw [h4.1, hnone]
      · rename_i x hx
        rw [hx]
        split at h4
        · rw [h4.1]
        · obtain ⟨_, _, _, hp⟩ := h4.seq
          rw [hp.1]
    rw [hq]
    rw [← hserving] at hfallback ⊢
    cases openQueue with
    | some x => simp [hopen' rfl]
    | none =>
      cases anyQueue with
      | some x => simp
      | none => simpa using hfallback

/-- A part that comes to something, and what comes after it. -/
theorem exists_bind {α β : Type} {t : TTx α} {f : α → TTx β} (ht : ∃ a, t.gives s a s)
    (hf : ∀ a, ∃ b m, (f a).gives s b m) : ∃ b m, (t.bind f).gives s b m := by
  obtain ⟨a, ha⟩ := ht
  obtain ⟨b, m, hb⟩ := hf a
  exact ⟨b, m, Tx.gives_bind.mpr ⟨a, s, ha, hb⟩⟩

theorem exists_updateMany {k : Kind} {p : Id → Row k → Bool} {f : Row k → Row k}
    (hf : ∀ r, Keyed.keys Empty k (f r) = Keyed.keys Empty k r) :
    ∃ n m, (updateMany orgId k p f).gives s n m := by
  have hclash : ((s.rows k fun id r => visible (.tenant orgId) k r && p id r).any fun r =>
      s.clashes k (some r.2) (f r.2)) = false :=
    List.any_eq_false.mpr fun r _ => by rw [Rel.clashes_of_keys_eq (hf r.2)]; simp
  refine ⟨_, _, Tx.gives_exec.mpr ⟨(s.rows k fun id r => visible (.tenant orgId) k r && p id r).map
    fun r => .put k r.1 (some r.2) (f r.2), if_neg ?_, rfl⟩⟩
  rw [hclash]
  simp

theorem exists_fallback {T : Id} {i : ℤ} {serviceId : Id} :
    ∃ q, (findQueueForFlowStepFallback orgId branchId T i serviceId).gives s q s := by
  have h : ∃ q m, (findQueueForFlowStepFallback orgId branchId T i serviceId).gives s q m := by
    refine exists_bind ?_ fun stepMeta => exists_bind ⟨_, Tx.gives_read.mpr ⟨rfl, rfl⟩⟩ fun service =>
      exists_bind (exists_findFirst _ s) fun byName =>
        exists_bind ⟨_, Tx.gives_read.mpr ⟨rfl, rfl⟩⟩ fun steps =>
          exists_bind ⟨_, Tx.gives_read.mpr ⟨rfl, rfl⟩⟩ fun queues =>
            exists_bind (exists_findFirst _ s) fun byService => ?_
    · obtain ⟨o, ho⟩ := exists_findFirst _ s
      exact ⟨_, Tx.gives_bind.mpr ⟨o, s, ho, rfl, rfl⟩⟩
    · split
      · exact ⟨_, _, rfl, rfl⟩
      · exact ⟨_, _, rfl, rfl⟩
      · exact ⟨_, _, rfl, rfl⟩
  obtain ⟨q, m, hq⟩ := h
  have hm : m = s := (confined_findQueueForFlowStepFallback (C := anyWrite)
    (e := .recordNotFound)).gives_still hq
  exact ⟨q, hm ▸ hq⟩

/-- **Looking up the queue of a step** comes to something. -/
theorem exists_resolve {T : Id} {step : StepRef} :
    ∃ q m, (resolveQueueForFlowStep orgId branchId T step).gives s q m := by
  refine exists_bind ⟨_, Tx.gives_read.mpr ⟨rfl, rfl⟩⟩ fun byId => ?_
  split
  · exact ⟨_, _, rfl, rfl⟩
  · refine exists_bind (exists_findFirst _ s) fun openQueue =>
      exists_bind (exists_findFirst _ s) fun anyQueue => exists_bind exists_fallback fun fallback => ?_
    split
    · exact ⟨_, _, rfl, rfl⟩
    · split
      · exact ⟨_, _, rfl, rfl⟩
      · rename_i x hx hne
        obtain ⟨n, m, hn⟩ : ∃ n m, (updateMany orgId .flowStep
            (fun _ st => st.templateId == T && st.stepIndex == step.stepIndex)
            fun st => { st with queueId := some x.1, serviceId := x.2.serviceId }).gives s n m :=
          exists_updateMany fun r => rfl
        exact ⟨_, m, Tx.gives_bind.mpr ⟨n, m, hn, rfl, rfl⟩⟩

end

/-! ## The four lookups -/

/-- `resolveNextJourneyStep` on a connection that sees the rows of the organisation, or none. -/
def resolveNextJourneyStepOn (bypassRls : Bool) (orgId : Id) (ticket : JourneyTicketContext) :
    TCall (Option JourneyNextStep) := do
  let step ← Call.withTx (resolveStep (.bare bypassRls) orgId ticket)
  match step with
  | none => pure none
  | some (templateId, currentStepIndex) =>
    let nextStep ← withTenant (getNextStep orgId templateId currentStepIndex)
    match nextStep with
    | none => pure none
    | some nextStep => withTenant (resolveStepQueue orgId ticket.branchId templateId nextStep)

/-- `getNextStepResolutionFailure` on such a connection. -/
def getNextStepResolutionFailureOn (bypassRls : Bool) (orgId : Id) (ticket : JourneyTicketContext) :
    TCall (Option BranchFlowStep) := do
  let step ← Call.withTx (resolveStep (.bare bypassRls) orgId { ticket with flowTemplateId := none })
  match step with
  | none => pure none
  | some (templateId, currentStepIndex) =>
    let nextStep ← withTenant (getNextStep orgId templateId currentStepIndex)
    match nextStep with
    | none => pure none
    | some nextStep =>
      let resolved ← withTenant (resolveStepQueue orgId ticket.branchId templateId nextStep)
      pure (match resolved with | some _ => none | none => some nextStep)

theorem resolveNextJourneyStep_eq (orgId : Id) (ticket : JourneyTicketContext) :
    resolveNextJourneyStep orgId ticket =
      Call.input.bind fun n => resolveNextJourneyStepOn (n % 2 == 1) orgId ticket := rfl

theorem getNextStepResolutionFailure_eq (orgId : Id) (ticket : JourneyTicketContext) :
    getNextStepResolutionFailure orgId ticket =
      Call.input.bind fun n => getNextStepResolutionFailureOn (n % 2 == 1) orgId ticket := rfl

def ResolvesTo (orgId branchId : Id) (s : Db) : Option BranchFlowStep → Option JourneyNextStep → Prop
  | none, r => r = none
  | some st, r => ∃ m, (resolveStepQueue orgId branchId st.templateId st).gives s r m

section

variable {orgId branchId : Id} {ctx : JourneyTicketContext} {s m : Db} {st : BranchFlowStep}
  {o : Option BranchFlowStep} {r : Option JourneyNextStep} {bypassRls : Bool} {scope : Scope}

theorem gives_laterStep_iff : (laterStep scope orgId ctx).gives s o s ↔
    ∃ step, (resolveStep scope orgId ctx).gives s step s ∧ (match step with
      | none => pure none
      | some (templateId, currentStepIndex) => getNextStep orgId templateId currentStepIndex :
        TTx (Option BranchFlowStep)).gives s o s := by
  constructor
  · exact gives_still confined_resolveStep
  · rintro ⟨step, hstep, h⟩
    exact Tx.gives_bind.mpr ⟨step, s, hstep, h⟩

/-- **`resolveNextJourneyStepTx`**. -/
theorem gives_resolveTx (hs : s.Unique) {res : NextStepResolution} :
    (∃ m, (resolveNextJourneyStepTx orgId ctx).gives s res m) ↔
      ∃ o ∈ laterSteps orgId ctx s, ResolvesTo orgId ctx.branchId s o res.nextStep ∧
        res.hasLaterStep = o.isSome := by
  have hlater : ∀ o, o ∈ laterSteps orgId ctx s ↔ (laterStep (.tenant orgId) orgId ctx).gives s o s :=
    fun o => by rw [gives_laterStep hs]; simp
  simp only [hlater, gives_laterStep_iff]
  constructor
  · rintro ⟨m, h⟩
    obtain ⟨step, hstep, h⟩ := gives_still confined_resolveStep h
    cases step with
    | none =>
      obtain ⟨rfl, -⟩ := h
      exact ⟨none, ⟨none, hstep, rfl, rfl⟩, rfl, rfl⟩
    | some key =>
      obtain ⟨T, i⟩ := key
      obtain ⟨o, ho, h⟩ := gives_still confined_getNextStep h
      refine ⟨o, ⟨some (T, i), hstep, ho⟩, ?_⟩
      cases o with
      | none =>
        obtain ⟨rfl, -⟩ := h
        exact ⟨rfl, rfl⟩
      | some st =>
        obtain ⟨hT, -⟩ := nextIn_spec hs ((gives_getNextStep_iff hs).mp ho).1.symm
        obtain ⟨r, m', hr, rfl, rfl⟩ := h.seq
        exact ⟨⟨_, hT ▸ hr⟩, rfl⟩
  · rintro ⟨o, ⟨step, hstep, ho⟩, hr, hl⟩
    obtain ⟨next, later⟩ := res
    dsimp only at hr hl
    subst hl
    cases step with
    | none =>
      obtain ⟨rfl, -⟩ := ho
      obtain rfl : next = none := hr
      exact ⟨s, Tx.gives_bind.mpr ⟨none, s, hstep, rfl, rfl⟩⟩
    | some key =>
      obtain ⟨T, i⟩ := key
      cases o with
      | none =>
        obtain rfl : next = none := hr
        exact ⟨s, Tx.gives_bind.mpr ⟨_, s, hstep, Tx.gives_bind.mpr ⟨none, s, ho, rfl, rfl⟩⟩⟩
      | some st =>
        obtain ⟨m, hm⟩ := hr
        obtain ⟨hT, -⟩ := nextIn_spec hs ((gives_getNextStep_iff hs).mp ho).1.symm
        exact ⟨m, Tx.gives_bind.mpr ⟨_, s, hstep, Tx.gives_bind.mpr ⟨some st, s, ho,
          Tx.gives_bind.mpr ⟨next, m, hT ▸ hm, rfl, rfl⟩⟩⟩⟩

/-- A request that looks up the step, and the rest of it. -/
theorem gives_found {γ : Type} (hs : s.Unique) {ctx' : JourneyTicketContext}
    {f : Id → BranchFlowStep → TCall γ} {y : γ} {n : γ} :
    (∃ m, ((Call.withTx (resolveStep scope orgId ctx')).bind fun step =>
      match step with
      | none => .pure n
      | some (templateId, currentStepIndex) =>
        (withTenant (getNextStep orgId templateId currentStepIndex)).bind fun nextStep =>
          match nextStep with
          | none => .pure n
          | some nextStep => f templateId nextStep : TCall γ).gives s (.ok y) m) ↔
    ∃ o, (laterStep scope orgId ctx').gives s o s ∧ (match o with
      | none => y = n
      | some st => ∃ m, (f st.templateId st).gives s (.ok y) m) := by
  simp only [gives_laterStep_iff]
  constructor
  · rintro ⟨m, h⟩
    obtain ⟨step, m1, hstep, h1⟩ := h.seq
    have hstep' := Call.gives_withTx_ok.mp hstep
    have hm1 := (confined_resolveStep (C := anyWrite) (e := .recordNotFound)).gives_still hstep'
    subst hm1
    cases step with
    | none =>
      obtain ⟨hy, -⟩ := h1
      exact ⟨none, ⟨none, hstep', rfl, rfl⟩, Except.ok.inj hy⟩
    | some key =>
      obtain ⟨T, i⟩ := key
      obtain ⟨o, m2, ho, h2⟩ := h1.seq
      have ho' := Call.gives_withTx_ok.mp ho
      obtain ⟨hnext, rfl⟩ := (gives_getNextStep_iff hs).mp ho'
      refine ⟨o, ⟨some (T, i), hstep', ho'⟩, ?_⟩
      cases o with
      | none => exact Except.ok.inj h2.1
      | some st =>
        obtain ⟨hT, -⟩ := nextIn_spec hs hnext.symm
        exact ⟨m, hT ▸ h2⟩
  · rintro ⟨o, ⟨step, hstep, ho⟩, h⟩
    cases step with
    | none =>
      obtain ⟨rfl, -⟩ := ho
      exact ⟨s, Call.gives_bind_ok.mpr ⟨none, s, Call.gives_withTx_ok.mpr hstep,
        congrArg Except.ok h, rfl⟩⟩
    | some key =>
      obtain ⟨T, i⟩ := key
      cases o with
      | none =>
        exact ⟨s, Call.gives_bind_ok.mpr ⟨_, s, Call.gives_withTx_ok.mpr hstep,
          Call.gives_bind_ok.mpr ⟨none, s, Call.gives_withTx_ok.mpr ho, congrArg Except.ok h, rfl⟩⟩⟩
      | some st =>
        obtain ⟨m, hm⟩ := h
        obtain ⟨hT, -⟩ := nextIn_spec hs ((gives_getNextStep_iff hs).mp ho).1.symm
        exact ⟨m, Call.gives_bind_ok.mpr ⟨_, s, Call.gives_withTx_ok.mpr hstep,
          Call.gives_bind_ok.mpr ⟨some st, s, Call.gives_withTx_ok.mpr ho, hT ▸ hm⟩⟩⟩

/-- **`resolveNextJourneyStep`**. -/
theorem gives_resolve (hs : s.Unique) :
    (∃ m, (resolveNextJourneyStepOn bypassRls orgId ctx).gives s (.ok r) m) ↔
      ∃ o ∈ bareSteps bypassRls orgId ctx s, ResolvesTo orgId ctx.branchId s o r := by
  refine (gives_found hs).trans (exists_congr fun o => and_congr ?_ ?_)
  · rw [gives_laterStep_bare hs]
    simp
  · cases o with
    | none => exact Iff.rfl
    | some st => exact exists_congr fun m => Call.gives_withTx_ok

/-- **`getNextStepResolutionFailure`**. -/
theorem gives_failure (hs : s.Unique) {f : Option BranchFlowStep} :
    (∃ m, (getNextStepResolutionFailureOn bypassRls orgId ctx).gives s (.ok f) m) ↔
      ∃ o ∈ bareSteps bypassRls orgId { ctx with flowTemplateId := none } s,
        ∃ r, ResolvesTo orgId ctx.branchId s o r ∧ f = if r.isSome then none else o := by
  refine (gives_found hs).trans (exists_congr fun o => and_congr ?_ ?_)
  · rw [gives_laterStep_bare hs]
    simp
  · cases o with
    | none => simp [ResolvesTo]
    | some st =>
      constructor
      · rintro ⟨m, h⟩
        obtain ⟨r, m', hr, hf⟩ := h.seq
        refine ⟨r, ⟨m', Call.gives_withTx_ok.mp hr⟩, ?_⟩
        cases r <;> exact Except.ok.inj hf.1
      · rintro ⟨r, ⟨m, hr⟩, rfl⟩
        refine ⟨m, Call.gives_bind_ok.mpr ⟨r, m, Call.gives_withTx_ok.mpr hr, ?_⟩⟩
        cases r <;> exact ⟨rfl, rfl⟩

/-! ## What a step is resolved to -/

def nextOf (st : BranchFlowStep) (q : Id × Queue) : JourneyNextStep where
  stepIndex := st.stepIndex
  serviceId := st.serviceId
  queueId := q.1
  deskNumber := st.deskNumber
  templateId := st.templateId

theorem gives_resolveStepQueue : (resolveStepQueue orgId branchId st.templateId st).gives s r m ↔
    ∃ q, (resolveQueueForFlowStep orgId branchId st.templateId st.ref).gives s q m ∧
      r = q.map (nextOf st) := by
  constructor
  · intro h
    obtain ⟨q, m', hq, rfl, rfl⟩ := h.seq
    exact ⟨q, hq, rfl⟩
  · rintro ⟨q, hq, rfl⟩
    exact Tx.gives_bind.mpr ⟨q, m, hq, rfl, rfl⟩

/-- A queue can be found for the step, if there is one. -/
def usable (orgId branchId : Id) (s : Db) (o : Option BranchFlowStep) : Bool :=
  o.any fun st => findable orgId branchId st s

def stuck (orgId branchId : Id) (s : Db) (o : Option BranchFlowStep) : Bool :=
  o.any fun st => !findable orgId branchId st s

theorem exists_resolvesTo : ∃ r, ResolvesTo orgId branchId s o r := by
  cases o with
  | none => exact ⟨none, rfl⟩
  | some st =>
    obtain ⟨q, m, hq⟩ : ∃ q m,
        (resolveQueueForFlowStep orgId branchId st.templateId st.ref).gives s q m := exists_resolve
    exact ⟨_, m, gives_resolveStepQueue.mpr ⟨q, hq, rfl⟩⟩

/-- **It is resolved** if a queue can be found for it. -/
theorem isSome_of_resolvesTo (hs : s.Unique) (ho : ∀ st, o = some st → IsStep orgId st s)
    (h : ResolvesTo orgId branchId s o r) : r.isSome = usable orgId branchId s o := by
  cases o with
  | none =>
    obtain rfl : r = none := h
    rfl
  | some st =>
    obtain ⟨m, hm⟩ := h
    obtain ⟨q, hq, rfl⟩ := gives_resolveStepQueue.mp hm
    rw [Option.isSome_map, isSome_of_resolve hs (ho st rfl) hq]
    rfl

theorem resolvesTo_some {n : JourneyNextStep} (h : ResolvesTo orgId branchId s o (some n)) :
    ∃ st q, o = some st ∧ n = nextOf st q ∧ IsQueue orgId q s := by
  cases o with
  | none => cases h
  | some st =>
    obtain ⟨m, hm⟩ := h
    obtain ⟨q, hq, hn⟩ := gives_resolveStepQueue.mp hm
    obtain ⟨x, rfl, rfl⟩ := Option.map_eq_some_iff.mp hn.symm
    exact ⟨st, x, rfl, rfl, isQueue_of_resolve hq⟩

theorem resolvesTo_of_hasQueue (hq : hasQueue orgId st s = true)
    (h : ResolvesTo orgId branchId s (some st) r) :
    ∃ q, st.queueId = some q.1 ∧ r = some (nextOf st q) := by
  obtain ⟨m, hm⟩ := h
  obtain ⟨o, ho, rfl⟩ := gives_resolveStepQueue.mp hm
  obtain ⟨x, hx⟩ := Option.isSome_iff_exists.mp hq
  obtain ⟨id, hid, hrow⟩ := Option.bind_eq_some_iff.mp hx
  have hqueue : IsQueue orgId (id, x) s := Option.filter_eq_some_iff.mp hrow
  obtain ⟨rfl, -⟩ := resolve_of_isQueue hid hqueue ho
  exact ⟨(id, x), hid, rfl⟩

end

/-! ## Agreement -/

/-- **The four agree** on the next step of a ticket. -/
structure Agrees (orgId : Id) (t : Ticket) (bypassRls : Bool) (s : Db) : Prop where
  /-- Both resolvers return the same step, or none. -/
  resolvers {r : Option JourneyNextStep} {res : NextStepResolution} {m m' : Db} :
    (resolveNextJourneyStepOn bypassRls orgId t.context).gives s (.ok r) m →
      (resolveNextJourneyStepTx orgId t.context).gives s res m' → r = res.nextStep
  /-- `transfer` finds the step they find, -/
  transfer {x o : Option BranchFlowStep} {m m' : Db} :
    (transferStep orgId t (queueRow orgId t.queueId s)).gives s x m →
      (laterStep (.tenant orgId) orgId t.context).gives s o m' → x = o
  /-- and goes to the queue they return. -/
  target {x : Option BranchFlowStep} {res : NextStepResolution} {n : JourneyNextStep} {m m' : Db} :
    (transferStep orgId t (queueRow orgId t.queueId s)).gives s x m →
      (resolveNextJourneyStepTx orgId t.context).gives s res m' → res.nextStep = some n →
        (x.bind (·.queueId)) = some n.queueId
  /-- A failure is reported if there is a later step, and no queue for it; -/
  failure {f : Option BranchFlowStep} {res : NextStepResolution} {m m' : Db} :
    (getNextStepResolutionFailureOn bypassRls orgId t.context).gives s (.ok f) m →
      (resolveNextJourneyStepTx orgId t.context).gives s res m' →
        (f.isSome = true ↔ res.hasLaterStep = true ∧ res.nextStep = none)
  failed {st : BranchFlowStep} {o : Option BranchFlowStep} {m m' : Db} :
    (getNextStepResolutionFailureOn bypassRls orgId t.context).gives s (.ok (some st)) m →
      (laterStep (.tenant orgId) orgId t.context).gives s o m' → o = some st

/-- **There is one next step**, if any. -/
structure Settled (orgId : Id) (t : Ticket) (bypassRls : Bool) (s : Db)
    (next : Option BranchFlowStep) : Prop where
  /-- All templates and indices the ticket may go by lead to it, -/
  own {o : Option BranchFlowStep} : o ∈ laterSteps orgId t.context s → o = next
  /-- and so do those of its queue. -/
  transfer {o : Option BranchFlowStep} : o ∈ transferSteps orgId t s → o = next
  /-- Its queue is there, or none can be found for it. -/
  queue {st : BranchFlowStep} : next = some st → hasQueue orgId st s = true ∨
    findable orgId t.branchId st s = false
  /-- A bare connection finds it, or there is no queue for what it finds. -/
  bare {o : Option BranchFlowStep} : o ∈ bareSteps bypassRls orgId t.context s →
    o = next ∨ usable orgId t.branchId s o = false ∧ usable orgId t.branchId s next = false
  /-- By the template of the queue it finds it, too, or one that is no more stuck. -/
  failure {o : Option BranchFlowStep} :
    o ∈ bareSteps bypassRls orgId { t.context with flowTemplateId := none } s →
      o = next ∨ stuck orgId t.branchId s o = false ∧ stuck orgId t.branchId s next = false

section

variable {orgId : Id} {t : Ticket} {ctx : JourneyTicketContext} {bypassRls : Bool} {s : Db}
  {o next : Option BranchFlowStep} {st : BranchFlowStep}

theorem isStep_of_laterIn (hs : s.Unique) {T : Option Id} {i : Option ℤ}
    (h : laterIn orgId T i s = some st) : IsStep orgId st s := by
  obtain ⟨templateId, -, hT⟩ := Option.bind_eq_some_iff.mp h
  obtain ⟨index, -, hi⟩ := Option.bind_eq_some_iff.mp hT
  exact (nextIn_spec hs hi).2

theorem isStep_of_laterSteps (hs : s.Unique) (ho : o ∈ laterSteps orgId ctx s)
    (h : o = some st) : IsStep orgId st s := by
  unfold laterSteps at ho
  split at ho
  · cases h.symm.trans (List.mem_singleton.mp ho)
  · obtain ⟨i, -, ho⟩ := List.mem_flatMap.mp ho
    obtain ⟨T, -, rfl⟩ := List.mem_map.mp ho
    exact isStep_of_laterIn hs h

theorem isStep_of_bareSteps (hs : s.Unique) (ho : o ∈ bareSteps bypassRls orgId ctx s)
    (h : o = some st) : IsStep orgId st s := by
  unfold bareSteps at ho
  split at ho
  · exact isStep_of_laterSteps hs ho h
  · rw [List.mem_singleton] at ho
    subst ho
    split at h
    · exact isStep_of_laterIn hs h
    · cases h

theorem exists_queueTemplate (orgId branchId queueId : Id) (s : Db) :
    ∃ T, T ∈ queueTemplates orgId branchId queueId s :=
  List.exists_mem_of_ne_nil _ (queueTemplates_ne_nil orgId branchId queueId s)

theorem exists_laterStep (orgId : Id) (ctx : JourneyTicketContext) (s : Db) :
    ∃ o, o ∈ laterSteps orgId ctx s := by
  obtain ⟨T, hT⟩ := exists_queueTemplate orgId ctx.branchId ctx.queueId s
  have hown : ∃ T, T ∈ ownTemplates orgId ctx s := by
    unfold ownTemplates
    split
    · exact ⟨_, List.mem_singleton.mpr rfl⟩
    · exact ⟨T, hT⟩
  unfold laterSteps
  split
  · exact ⟨none, List.mem_singleton.mpr rfl⟩
  · rename_i visitId _
    obtain ⟨T', hT'⟩ := hown
    exact ⟨_, List.mem_flatMap.mpr ⟨_, mem_stepIndices.mpr ⟨_, ⟨T, hT, rfl⟩, rfl⟩,
      List.mem_map_of_mem hT'⟩⟩

theorem exists_transferStep (orgId : Id) (t : Ticket) (s : Db) : ∃ o, o ∈ transferSteps orgId t s := by
  obtain ⟨T, hT⟩ := exists_queueTemplate orgId t.branchId t.queueId s
  unfold transferSteps
  split
  · exact ⟨_, List.mem_map_of_mem hT⟩
  · exact ⟨none, List.mem_singleton.mpr rfl⟩

theorem stuck_iff {branchId : Id} : stuck orgId branchId s o = true ↔
    o.isSome = true ∧ usable orgId branchId s o = false := by
  cases o <;> simp [stuck, usable]

theorem hasQueue_of_queueId {q : Id × Queue} (h : st.queueId = some q.1)
    (hq : IsQueue orgId q s) : hasQueue orgId st s = true := by
  have hrow : queueRow orgId q.1 s = some q.2 := Option.filter_eq_some_iff.mpr hq
  unfold hasQueue
  rw [h, Option.bind_some, hrow]
  rfl

theorem isSome_failure {branchId : Id} {r : Option JourneyNextStep}
    (h : r.isSome = usable orgId branchId s o) :
    (if r.isSome then none else o).isSome = stuck orgId branchId s o := by
  rw [h]
  cases hu : usable orgId branchId s o with
  | true =>
    rw [if_pos rfl]
    cases hstuck : stuck orgId branchId s o with
    | false => rfl
    | true =>
      rw [(stuck_iff.mp hstuck).2] at hu
      cases hu
  | false =>
    rw [if_neg (by simp)]
    cases o with
    | none => rfl
    | some st => exact (stuck_iff.mpr ⟨rfl, hu⟩).symm

/-- **Where they agree, there is one next step.** -/
theorem settled_of_agrees (hs : s.Unique) (h : Agrees orgId t bypassRls s) :
    ∃ next, Settled orgId t bypassRls s next := by
  obtain ⟨next, hnext⟩ := exists_laterStep orgId t.context s
  obtain ⟨x0, hx0⟩ := exists_transferStep orgId t s
  have htransfer : ∀ {x o}, x ∈ transferSteps orgId t s → o ∈ laterSteps orgId t.context s → x = o :=
    fun hx ho => h.transfer ((gives_transferStep hs).mpr ⟨hx, rfl⟩)
      ((gives_laterStep hs).mpr ⟨ho, rfl⟩)
  have hown : ∀ {o}, o ∈ laterSteps orgId t.context s → o = next := fun ho =>
    (htransfer hx0 ho).symm.trans (htransfer hx0 hnext)
  have hstep : ∀ st, next = some st → IsStep orgId st s := fun st => isStep_of_laterSteps hs hnext
  -- the answer of the resolver in the transaction
  obtain ⟨r0, hr0⟩ : ∃ r, ResolvesTo orgId t.branchId s next r := exists_resolvesTo
  obtain ⟨m0, htx⟩ : ∃ m, (resolveNextJourneyStepTx orgId t.context).gives s ⟨r0, next.isSome⟩ m :=
    (gives_resolveTx hs).mpr ⟨next, hnext, hr0, rfl⟩
  have hsome := isSome_of_resolvesTo hs hstep hr0
  refine ⟨next, hown, fun hx => htransfer hx hnext, ?_, ?_, ?_⟩
  · intro st hst
    by_contra hno
    rw [not_or, Bool.not_eq_true, Bool.not_eq_false] at hno
    have husable : usable orgId t.branchId s next = true := by
      rw [hst]
      exact hno.2
    obtain ⟨n, rfl⟩ := Option.isSome_iff_exists.mp (hsome.trans husable)
    obtain ⟨st', q, hst', rfl, hq⟩ := resolvesTo_some hr0
    have htarget := h.target ((gives_transferStep hs).mpr ⟨hx0, rfl⟩) htx rfl
    rw [htransfer hx0 hnext, hst'] at htarget
    rw [hst] at hst'
    cases hst'
    rw [hasQueue_of_queueId htarget hq] at hno
    cases hno.1
  · intro o ho
    obtain ⟨r, hr⟩ : ∃ r, ResolvesTo orgId t.branchId s o r := exists_resolvesTo
    obtain ⟨m, hres⟩ := (gives_resolve hs).mpr ⟨o, ho, hr⟩
    have hrr : r = r0 := h.resolvers hres htx
    have hsome' := isSome_of_resolvesTo hs (fun st => isStep_of_bareSteps hs ho) hr
    rw [hrr, hsome] at hsome'
    cases hu : usable orgId t.branchId s next with
    | false => exact Or.inr ⟨hsome'.symm.trans hu, rfl⟩
    | true =>
      obtain ⟨n, hn⟩ := Option.isSome_iff_exists.mp (hsome.trans hu)
      rw [hrr] at hr
      rw [hn] at hr hr0
      obtain ⟨st, q, hst, hnst, -⟩ := resolvesTo_some hr
      obtain ⟨st', q', hst', hnst', -⟩ := resolvesTo_some hr0
      obtain ⟨id, hrow, -⟩ := isStep_of_bareSteps hs ho hst
      obtain ⟨id', hrow', -⟩ := hstep st' hst'
      rw [hnst] at hnst'
      have heq : st = st' := eq_of_index hs hrow hrow' (congrArg JourneyNextStep.templateId hnst')
        (congrArg JourneyNextStep.stepIndex hnst')
      exact Or.inl (by rw [hst, hst', heq])
  · intro o ho
    obtain ⟨r, hr⟩ : ∃ r, ResolvesTo orgId t.branchId s o r := exists_resolvesTo
    obtain ⟨m, hfail⟩ := (gives_failure hs).mpr ⟨o, ho, r, hr, rfl⟩
    have hsome' := isSome_of_resolvesTo hs (fun st => isStep_of_bareSteps hs ho) hr
    cases hstuck : stuck orgId t.branchId s o with
    | true =>
      obtain ⟨ho', hu⟩ := stuck_iff.mp hstuck
      obtain ⟨st, rfl⟩ := Option.isSome_iff_exists.mp ho'
      rw [if_neg (by rw [hsome', hu]; simp)] at hfail
      exact Or.inl (h.failed hfail ((gives_laterStep hs).mpr ⟨hnext, rfl⟩)).symm
    | false =>
      refine Or.inr ⟨rfl, ?_⟩
      have hf : (if r.isSome then none else o).isSome = false := (isSome_failure hsome').trans hstuck
      rw [Option.isSome_eq_false_iff, Option.isNone_iff_eq_none] at hf
      rw [hf] at hfail
      have hiff := h.failure hfail htx
      by_contra hne
      rw [Bool.not_eq_false] at hne
      obtain ⟨hlater, hu⟩ := stuck_iff.mp hne
      have hnone : r0 = none := by
        rw [hu] at hsome
        exact Option.isSome_eq_false_iff.mp hsome |> Option.isNone_iff_eq_none.mp
      cases hiff.mpr ⟨hlater, hnone⟩

theorem isStep_of_settled (hs : s.Unique) (h : Settled orgId t bypassRls s next)
    (hst : next = some st) : IsStep orgId st s := by
  obtain ⟨o, ho⟩ := exists_laterStep orgId t.context s
  exact isStep_of_laterSteps hs ho ((h.own ho).trans hst)

theorem Settled.resolution (hs : s.Unique) (h : Settled orgId t bypassRls s next)
    {r r' : Option JourneyNextStep} (hr : ResolvesTo orgId t.branchId s next r)
    (hr' : ResolvesTo orgId t.branchId s next r') : r = r' := by
  have hsome := isSome_of_resolvesTo hs (fun st => isStep_of_settled hs h) hr
  have hsome' := isSome_of_resolvesTo hs (fun st => isStep_of_settled hs h) hr'
  cases hu : usable orgId t.branchId s next with
  | false =>
    rw [hu] at hsome hsome'
    rw [Option.isSome_eq_false_iff, Option.isNone_iff_eq_none] at hsome hsome'
    rw [hsome, hsome']
  | true =>
    obtain ⟨st, rfl, hfind⟩ := (Option.any_eq_true _ _).mp hu
    have hq : hasQueue orgId st s = true := (h.queue rfl).resolve_right (by rw [hfind]; simp)
    obtain ⟨q, hid, rfl⟩ := resolvesTo_of_hasQueue hq hr
    obtain ⟨q', hid', rfl⟩ := resolvesTo_of_hasQueue hq hr'
    unfold nextOf
    rw [Option.some.inj (hid.symm.trans hid')]

/-- **Where there is one next step, they agree.** -/
theorem agrees_of_settled (hs : s.Unique) (h : Settled orgId t bypassRls s next) :
    Agrees orgId t bypassRls s := by
  -- what the resolver in the transaction found is the one next step
  have htx : ∀ {res m}, (resolveNextJourneyStepTx orgId t.context).gives s res m →
      ResolvesTo orgId t.branchId s next res.nextStep ∧ res.hasLaterStep = next.isSome := by
    intro res m hm
    obtain ⟨o, ho, hr, hl⟩ := (gives_resolveTx hs).mp ⟨m, hm⟩
    rw [h.own ho] at hr hl
    exact ⟨hr, hl⟩
  have hlater : ∀ {o m}, (laterStep (.tenant orgId) orgId t.context).gives s o m → o = next :=
    fun ho => h.own ((gives_laterStep hs).mp ho).1
  have htransfer : ∀ {x m}, (transferStep orgId t (queueRow orgId t.queueId s)).gives s x m →
      x = next := fun hx => h.transfer ((gives_transferStep hs).mp hx).1
  have hsome : ∀ {r}, ResolvesTo orgId t.branchId s next r →
      r.isSome = usable orgId t.branchId s next :=
    fun hr => isSome_of_resolvesTo hs (fun st => isStep_of_settled hs h) hr
  -- a failure is that of a stuck step
  have hfail : ∀ {f m}, (getNextStepResolutionFailureOn bypassRls orgId t.context).gives s (.ok f) m →
      f.isSome = stuck orgId t.branchId s next ∧ (f.isSome = true → f = next) := by
    intro f m hf
    obtain ⟨o, ho, r, hr, rfl⟩ := (gives_failure hs).mp ⟨m, hf⟩
    have hstuck : (if r.isSome then none else o).isSome = stuck orgId t.branchId s o :=
      isSome_failure (isSome_of_resolvesTo hs (fun st => isStep_of_bareSteps hs ho) hr)
    rcases h.failure ho with rfl | ⟨ho', hn⟩
    · refine ⟨hstuck, fun hf => ?_⟩
      split
      · rename_i hr
        rw [if_pos hr] at hf
        cases hf
      · rfl
    · rw [hstuck, ho', hn]
      exact ⟨rfl, nofun⟩
  refine ⟨?_, ?_, ?_, ?_, ?_⟩
  · intro r res m m' hr hres
    obtain ⟨o, ho, hro⟩ := (gives_resolve hs).mp ⟨m, hr⟩
    rcases h.bare ho with rfl | ⟨hu, hu'⟩
    · exact h.resolution hs hro (htx hres).1
    · have h1 : r.isSome = usable orgId t.branchId s o :=
        isSome_of_resolvesTo hs (fun st => isStep_of_bareSteps hs ho) hro
      have h2 := hsome (htx hres).1
      rw [hu, Option.isSome_eq_false_iff, Option.isNone_iff_eq_none] at h1
      rw [hu', Option.isSome_eq_false_iff, Option.isNone_iff_eq_none] at h2
      rw [h1, h2]
  · intro x o m m' hx ho
    rw [htransfer hx, hlater ho]
  · intro x res n m m' hx hres hn
    have hr := (htx hres).1
    rw [hn] at hr
    obtain ⟨st, hst, hfind⟩ := (Option.any_eq_true _ _).mp (hsome hr).symm
    have hq : hasQueue orgId st s = true := (h.queue hst).resolve_right (by rw [hfind]; simp)
    rw [hst] at hr
    obtain ⟨q, hid, hn'⟩ := resolvesTo_of_hasQueue hq hr
    rw [htransfer hx, hst, Option.some.inj hn']
    exact hid
  · intro f res m m' hf hres
    obtain ⟨hr, hl⟩ := htx hres
    have hu := hsome hr
    rw [(hfail hf).1, stuck_iff, hl, ← hu, Option.isSome_eq_false_iff, Option.isNone_iff_eq_none]
  · intro st o m m' hf ho
    rw [hlater ho]
    exact ((hfail hf).2 rfl).symm

/-- **The four agree exactly where there is one next step.** -/
theorem agrees_iff (hs : s.Unique) :
    Agrees orgId t bypassRls s ↔ ∃ next, Settled orgId t bypassRls s next :=
  ⟨settled_of_agrees hs, fun ⟨_, h⟩ => agrees_of_settled hs h⟩

/-- **A settled step is of the one template** that the ticket and its queue go by. -/
theorem Settled.template (hs : s.Unique) (h : Settled orgId t bypassRls s (some st)) :
    (∀ T ∈ ownTemplates orgId t.context s, T = some st.templateId) ∧
      ∀ T ∈ queueTemplates orgId t.branchId t.queueId s, T = some st.templateId := by
  have hof : ∀ {T i}, laterIn orgId T i s = some st → T = some st.templateId := by
    intro T i hT
    obtain ⟨T', rfl, hi⟩ := Option.bind_eq_some_iff.mp hT
    obtain ⟨i', -, hi⟩ := Option.bind_eq_some_iff.mp hi
    rw [(nextIn_spec hs hi).1]
  constructor
  · intro T hT
    obtain ⟨o, ho⟩ := exists_laterStep orgId t.context s
    unfold laterSteps at ho
    split at ho
    · rename_i hv
      cases (h.own (by unfold laterSteps; rw [hv]; exact ho)).symm.trans (List.mem_singleton.mp ho)
    · rename_i visitId hv
      obtain ⟨i, hi, -⟩ := List.mem_flatMap.mp ho
      refine hof (i := i) (h.own ?_)
      unfold laterSteps
      rw [hv]
      exact List.mem_flatMap.mpr ⟨i, hi, List.mem_map_of_mem hT⟩
  · intro T hT
    obtain ⟨o, ho⟩ := exists_transferStep orgId t s
    have htransfer := h.transfer ho
    unfold transferSteps at ho
    split at ho
    · rename_i hv
      have hnext : (T.bind fun T => nextIn orgId T (transferIndex orgId t T s) s) = some st :=
        h.transfer (by unfold transferSteps; rw [if_pos hv]; exact List.mem_map_of_mem hT)
      obtain ⟨T', rfl, hi⟩ := Option.bind_eq_some_iff.mp hnext
      rw [(nextIn_spec hs hi).1]
    · cases htransfer.symm.trans (List.mem_singleton.mp ho)

end

/-! ## Specimens -/

def washStep : BranchFlowStep :=
  { orgId := 1, templateId := 1, stepIndex := 1, deskNumber := "2", serviceId := 2, queueId := some 2 }

theorem journeyShop_unique : journeyShop.Unique :=
  Rel.unique_of_entries (fun k => by cases k <;> decide +kernel) rfl

theorem agrees_untouched : Agrees 1 atFirstStep false journeyShop := by
  have hlater : laterSteps 1 atFirstStep.context journeyShop = [some washStep] := by decide +kernel
  have htransfer : transferSteps 1 atFirstStep journeyShop = [some washStep] := by decide +kernel
  have hbare : bareSteps false 1 atFirstStep.context journeyShop = [some washStep] := by
    decide +kernel
  have hfailure : bareSteps false 1 { atFirstStep.context with flowTemplateId := none } journeyShop =
      [none] := by decide +kernel
  refine (agrees_iff journeyShop_unique).mpr ⟨some washStep, ?_, ?_, ?_, ?_, ?_⟩
  · intro o ho
    rw [hlater] at ho
    exact List.mem_singleton.mp ho
  · intro o ho
    rw [htransfer] at ho
    exact List.mem_singleton.mp ho
  · intro st hst
    rw [← Option.some.inj hst]
    exact Or.inl (by decide +kernel)
  · intro o ho
    rw [hbare] at ho
    exact Or.inl (List.mem_singleton.mp ho)
  · intro o ho
    rw [hfailure] at ho
    rw [List.mem_singleton.mp ho]
    exact Or.inr ⟨rfl, by decide +kernel⟩

/-- Since the ticket was issued, its queue has moved to a second template, by which the patron goes on to
another queue. -/
def editedShop : Db :=
  ((((journeyShop.set .flowTemplate 2 { orgId := 1, branchId := 1, isActive := true }).set .queue 1
    { orgId := 1, branchId := 1, serviceId := 1, name := "Cut", pre := "C", status := .opened
      flowTemplateId := some 2 }).set .queue 3
    { orgId := 1, branchId := 1, serviceId := 1, name := "Colour", pre := "D", status := .opened
      flowTemplateId := some 2 }).set .flowStep 3
    { orgId := 1, templateId := 2, stepIndex := 0, deskNumber := "1", serviceId := 1
      queueId := some 1 }).set .flowStep 4
    { orgId := 1, templateId := 2, stepIndex := 1, deskNumber := "3", serviceId := 1
      queueId := some 3 }

theorem editedShop_unique : editedShop.Unique :=
  Rel.unique_of_entries (fun k => by cases k <;> decide +kernel) rfl

/-- **An edited template**: on completion the patron is sent on to the queue 2, on transfer to the
queue 3. -/
theorem exists_disagreement :
    (∃ r, ResolvesTo 1 1 editedShop (some washStep) r ∧ r.map (·.queueId) = some 2 ∧
      ∃ m, (resolveNextJourneyStepTx 1 atFirstStep.context).gives editedShop ⟨r, true⟩ m) ∧
    (∃ x, x.bind (·.queueId) = some 3 ∧ (transferStep 1 atFirstStep
      (queueRow 1 atFirstStep.queueId editedShop)).gives editedShop x editedShop) ∧
    ¬ ∀ (orgId : Id) (t : Ticket) (bypassRls : Bool) (s : Db), s.Unique →
      Agrees orgId t bypassRls s := by
  have hlater : laterSteps 1 atFirstStep.context editedShop = [some washStep] := by decide +kernel
  have htransfer : ∃ x ∈ transferSteps 1 atFirstStep editedShop,
      x ≠ some washStep ∧ x.bind (·.queueId) = some 3 := by decide +kernel
  have hqueue : hasQueue 1 washStep editedShop = true := by decide +kernel
  obtain ⟨x, hx, hne, hx3⟩ := htransfer
  have hgives : (transferStep 1 atFirstStep (queueRow 1 atFirstStep.queueId editedShop)).gives
      editedShop x editedShop := (gives_transferStep editedShop_unique).mpr ⟨hx, rfl⟩
  have hmem : some washStep ∈ laterSteps 1 atFirstStep.context editedShop := by
    rw [hlater]
    exact List.mem_singleton.mpr rfl
  obtain ⟨r, hr⟩ : ∃ r, ResolvesTo 1 1 editedShop (some washStep) r := exists_resolvesTo
  obtain ⟨q, hid, rfl⟩ := resolvesTo_of_hasQueue hqueue hr
  refine ⟨⟨_, hr, hid.symm, (gives_resolveTx editedShop_unique).mpr ⟨_, hmem, hr, rfl⟩⟩,
    ⟨x, hx3, hgives⟩, fun h => hne ?_⟩
  exact (h 1 atFirstStep true editedShop editedShop_unique).transfer hgives
    ((gives_laterStep editedShop_unique).mpr ⟨hmem, rfl⟩)

end PatronLoyalty.Ticketing
