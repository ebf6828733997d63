import PatronLoyalty.Ticketing.Lookups
import PatronLoyalty.Txn.InTurn

/-!
# The step of a queue

`resolveFlowStepIndexForQueue` looks for a step of the queue, and for one of the queue's service, both
not before the visit's last step; it prefers the second. Where every step of the queue is before, it goes
back to the first of them.

Results:
* `bound_iff`: where there is a step of the queue, the index is that of one if and only if the service has
  no step of another queue that comes first.
* `stepIndexFrom_ge`: the index is not before the visit's last step, unless it goes back.
* **`step_of_queue`**: both, of the lookup, of a ticket that is issued for a visit and of an advance.
-/

namespace PatronLoyalty.Ticketing

open Txn Relation
open Txn.Rel (Wrote)
open Loyalty (Id Err)

variable {s s' a b : Db} {orgId branchId queueId T : Id} {m : ℤ} {st : BranchFlowStep}

/-! ## Steps -/

/-- The step of the template is bound to the queue, and not before `m`. -/
structure BoundFrom (orgId queueId T : Id) (m : ℤ) (s : Db) (st : BranchFlowStep) : Prop where
  row : IsStep orgId st s
  template : st.templateId = T
  queue : st.queueId = some queueId
  ge : m ≤ st.stepIndex

/-- The step of the template is of the queue's service, and not before `m`. -/
structure ServedFrom (orgId branchId queueId T : Id) (m : ℤ) (s : Db) (st : BranchFlowStep) :
    Prop where
  row : IsStep orgId st s
  template : st.templateId = T
  service : serviceOf orgId branchId queueId s = some st.serviceId
  ge : m ≤ st.stepIndex

def OwnFirst (orgId branchId queueId T : Id) (m : ℤ) (s : Db) : Prop :=
  ∀ st, ServedFrom orgId branchId queueId T m s st →
    (∀ st', ServedFrom orgId branchId queueId T m s st' → st.stepIndex ≤ st'.stepIndex) →
      st.queueId = some queueId

/-- **The patron is sent back**: the queue has steps, all before the visit's last one. -/
structure SentBack (orgId queueId T : Id) (m : ℤ) (s : Db) : Prop where
  pos : 0 < m
  has : ∃ st, IsStep orgId st s ∧ st.templateId = T ∧ st.queueId = some queueId
  before : ∀ st, IsStep orgId st s → st.templateId = T → st.queueId = some queueId →
    st.stepIndex < m

theorem visible_step : visible (.tenant orgId) .flowStep st = true ↔ st.orgId = orgId := by
  simp [visible, gone, orgOf]

theorem lowest_iff (hs : s.Unique) {p : BranchFlowStep → Bool} {P : BranchFlowStep → Prop}
    (hp : ∀ st, IsStep orgId st s → (p st = true ↔ P st)) (hT : ∀ st, p st = true → st.templateId = T) :
    lowest orgId p s = some st ↔
      IsStep orgId st s ∧ P st ∧ ∀ st', IsStep orgId st' s → P st' → st.stepIndex ≤ st'.stepIndex := by
  rw [lowest_eq_some hs hT]
  constructor
  · rintro ⟨id, hmem, hmin⟩
    obtain ⟨hrow, hv, hst⟩ := mem_seen.mp hmem
    have hstep : IsStep orgId st s := ⟨id, hrow, hv⟩
    refine ⟨hstep, (hp st hstep).mp hst, ?_⟩
    rintro st' hstep' hst'
    have ⟨id', hrow', hv'⟩ := hstep'
    exact hmin (id', st') (mem_seen.mpr ⟨hrow', hv', (hp st' hstep').mpr hst'⟩)
  · rintro ⟨hstep, hst, hmin⟩
    have ⟨id, hrow, hv⟩ := hstep
    refine ⟨id, mem_seen.mpr ⟨hrow, hv, (hp st hstep).mpr hst⟩, ?_⟩
    rintro ⟨id', st'⟩ hmem
    obtain ⟨hrow', hv', hst'⟩ := mem_seen.mp hmem
    have hstep' : IsStep orgId st' s := ⟨id', hrow', hv'⟩
    exact hmin st' hstep' ((hp st' hstep').mp hst')

theorem lowest_none {p : BranchFlowStep → Bool} (h : lowest orgId p s = none)
    (hstep : IsStep orgId st s) : p st = false := by
  obtain ⟨id, hrow, hv⟩ := hstep
  rw [← Bool.not_eq_true]
  exact fun hp => lowest_eq_none.mp h (id, st) (mem_seen.mpr ⟨hrow, hv, hp⟩)

theorem IsStep.eq_of_index (hs : s.Unique) {st' : BranchFlowStep} (h : IsStep orgId st s)
    (h' : IsStep orgId st' s) (hT : st.templateId = st'.templateId)
    (hi : st.stepIndex = st'.stepIndex) : st = st' := by
  obtain ⟨id, hrow, -⟩ := h
  obtain ⟨id', hrow', -⟩ := h'
  exact Ticketing.eq_of_index hs hrow hrow' hT hi

/-! ## The three lookups -/

theorem stepFrom_eq_some (hs : s.Unique) : stepFrom orgId queueId T m s = some st ↔
    BoundFrom orgId queueId T m s st ∧
      ∀ st', BoundFrom orgId queueId T m s st' → st.stepIndex ≤ st'.stepIndex := by
  unfold stepFrom
  rw [lowest_iff hs (T := T)
    (P := fun st => st.templateId = T ∧ st.queueId = some queueId ∧ m ≤ st.stepIndex)]
  · constructor
    · rintro ⟨hrow, ⟨hT, hq, hm⟩, hmin⟩
      exact ⟨⟨hrow, hT, hq, hm⟩, fun st' h => hmin st' h.row ⟨h.template, h.queue, h.ge⟩⟩
    · rintro ⟨⟨hrow, hT, hq, hm⟩, hmin⟩
      exact ⟨hrow, ⟨hT, hq, hm⟩, fun st' hrow' h => hmin st' ⟨hrow', h.1, h.2.1, h.2.2⟩⟩
  · rintro st ⟨-, -, hv⟩
    have ho := visible_step.mp hv
    simp [ho, and_assoc]
  · intro st h
    simp_all

theorem stepByService_eq_some (hs : s.Unique) :
    stepByService orgId branchId queueId T m s = some st ↔
      ServedFrom orgId branchId queueId T m s st ∧
        ∀ st', ServedFrom orgId branchId queueId T m s st' → st.stepIndex ≤ st'.stepIndex := by
  unfold stepByService
  rw [lowest_iff hs (T := T) (P := fun st => st.templateId = T ∧
    serviceOf orgId branchId queueId s = some st.serviceId ∧ m ≤ st.stepIndex)]
  · constructor
    · rintro ⟨hrow, ⟨hT, hq, hm⟩, hmin⟩
      exact ⟨⟨hrow, hT, hq, hm⟩, fun st' h => hmin st' h.row ⟨h.template, h.service, h.ge⟩⟩
    · rintro ⟨⟨hrow, hT, hq, hm⟩, hmin⟩
      exact ⟨hrow, ⟨hT, hq, hm⟩, fun st' hrow' h => hmin st' ⟨hrow', h.1, h.2.1, h.2.2⟩⟩
  · rintro st ⟨-, -, hv⟩
    have ho := visible_step.mp hv
    simp only [ho, beq_self_eq_true, Bool.true_and, Bool.and_eq_true, beq_iff_eq, decide_eq_true_eq,
      and_assoc]
    exact and_congr_right fun _ => and_congr_left fun _ => eq_comm
  · intro st h
    simp_all

theorem fallbackStep_eq_some (hs : s.Unique) : fallbackStep orgId queueId T s = some st ↔
    IsStep orgId st s ∧ (st.templateId = T ∧ st.queueId = some queueId) ∧
      ∀ st', IsStep orgId st' s → st'.templateId = T ∧ st'.queueId = some queueId →
        st.stepIndex ≤ st'.stepIndex := by
  unfold fallbackStep
  rw [lowest_iff hs (T := T) (P := fun st => st.templateId = T ∧ st.queueId = some queueId)]
  · rintro st ⟨-, -, hv⟩
    have ho := visible_step.mp hv
    simp [ho]
  · intro st h
    simp_all

theorem stepFrom_none (h : stepFrom orgId queueId T m s = none) :
    ¬ BoundFrom orgId queueId T m s st := by
  rintro ⟨hrow, hT, hq, hm⟩
  have hno := lowest_none h hrow
  obtain ⟨-, -, hv⟩ := hrow
  have ho := visible_step.mp hv
  simp [ho, hT, hq, hm] at hno

/-! ## The index -/

/-- **Where there is a step of the queue**, the index is that of one exactly where the service has no step
of another queue that comes first. -/
theorem bound_iff (hs : s.Unique) (h : ∃ st, BoundFrom orgId queueId T m s st) :
    (∃ st, BoundFrom orgId queueId T m s st ∧
      stepIndexFrom orgId branchId queueId T m s = some st.stepIndex) ↔
        OwnFirst orgId branchId queueId T m s := by
  obtain ⟨step, hstep⟩ : ∃ step, stepFrom orgId queueId T m s = some step := by
    obtain ⟨st, hst⟩ := h
    cases hf : stepFrom orgId queueId T m s with
    | none => exact absurd hst (stepFrom_none hf)
    | some step => exact ⟨step, rfl⟩
  have hindex : stepIndexFrom orgId branchId queueId T m s =
      ((stepByService orgId branchId queueId T m s).orElse fun _ => some step).map
        (·.stepIndex) := by
    unfold stepIndexFrom
    rw [hstep]
  rw [hindex]
  constructor
  · rintro ⟨st, hst, hi⟩ sv hsv hmin
    have hby := (stepByService_eq_some hs).mpr ⟨hsv, hmin⟩
    rw [hby] at hi
    have heq : sv = st := hsv.row.eq_of_index hs hst.row (hsv.template.trans hst.template.symm)
      (Option.some.inj hi)
    rw [heq]
    exact hst.queue
  · intro hown
    cases hby : stepByService orgId branchId queueId T m s with
    | none => exact ⟨step, ((stepFrom_eq_some hs).mp hstep).1, rfl⟩
    | some sv =>
      obtain ⟨hsv, hmin⟩ := (stepByService_eq_some hs).mp hby
      exact ⟨sv, ⟨hsv.row, hsv.template, hown sv hsv hmin, hsv.ge⟩, rfl⟩

/-- **The index is not before `m`**, unless the patron is sent back to the first step of the queue. -/
theorem stepIndexFrom_ge (hs : s.Unique) {i : ℤ}
    (h : stepIndexFrom orgId branchId queueId T m s = some i) :
    m ≤ i ∨ SentBack orgId queueId T m s ∧ ∃ st, fallbackStep orgId queueId T s = some st ∧
      i = st.stepIndex := by
  have hservice : ∀ st, stepByService orgId branchId queueId T m s = some st → m ≤ st.stepIndex :=
    fun st hst => ((stepByService_eq_some hs).mp hst).1.ge
  unfold stepIndexFrom at h
  split at h
  · rename_i fallback hstep hfallback
    split at h
    · rename_i hpos
      cases h
      obtain ⟨hrow, ⟨hT, hq⟩, -⟩ := (fallbackStep_eq_some hs).mp hfallback
      refine Or.inr ⟨⟨hpos, ⟨fallback, hrow, hT, hq⟩, fun st hst hT hq => ?_⟩, fallback, hfallback, rfl⟩
      by_contra hlt
      exact stepFrom_none hstep ⟨hst, hT, hq, not_lt.mp hlt⟩
    · obtain ⟨st, hst, rfl⟩ := Option.map_eq_some_iff.mp h
      exact Or.inl (hservice st hst)
  · obtain ⟨st, hst, rfl⟩ := Option.map_eq_some_iff.mp h
    rcases (Option.orElse_eq_some _ _ _).mp hst with hst | ⟨-, hst⟩
    · exact Or.inl (hservice st hst)
    · exact Or.inl ((stepFrom_eq_some hs).mp hst).1.ge

/-! ## What an issuance leaves of the flow -/

def Queue.flow (q : Queue) : Id × Id × Id × Option Id :=
  (q.orgId, q.branchId, q.serviceId, q.flowTemplateId)

structure SameFlow (a b : Db) : Prop where
  ticket : TicketsUntouched a b
  step : ∀ id, b.get .flowStep id = a.get .flowStep id
  template : ∀ id, b.get .flowTemplate id = a.get .flowTemplate id
  queue : ∀ id, (b.get .queue id).map Queue.flow = (a.get .queue id).map Queue.flow
  unique : a.Unique → b.Unique

theorem SameFlow.refl (a : Db) : SameFlow a a :=
  ⟨.refl a, fun _ => rfl, fun _ => rfl, fun _ => rfl, id⟩

theorem SameFlow.trans {c : Db} (h : SameFlow a b) (h' : SameFlow b c) : SameFlow a c :=
  ⟨h.ticket.trans h'.ticket, fun id => (h'.step id).trans (h.step id),
    fun id => (h'.template id).trans (h.template id), fun id => (h'.queue id).trans (h.queue id),
    h'.unique ∘ h.unique⟩

theorem Preparing.sameFlow (h : Preparing anyWrite a b) : SameFlow a b := by
  refine ⟨h.aside.untouched, fun id => ?_, fun id => ?_, fun id => ?_, fun hu => ?_⟩
  · cases h with
    | visit h => exact h.2.get_ne (by simp)
    | customer h => exact h.2.get_ne (by simp)
    | queue h _ => exact h.2.get_ne (by simp)
  · cases h with
    | visit h => exact h.2.get_ne (by simp)
    | customer h => exact h.2.get_ne (by simp)
    | queue h _ => exact h.2.get_ne (by simp)
  · cases h with
    | visit h => rw [h.2.get_ne (by simp)]
    | customer h => rw [h.2.get_ne (by simp)]
    | @queue i q q' h hn =>
      by_cases hi : id = i
      · subst hi
        rw [h.2.get_self, h.2.get_old, hn]
        rfl
      · rw [h.2.get_ne (by simpa using hi)]
  · cases h with
    | visit h => exact h.2.unique hu
    | customer h => exact h.2.unique hu
    | queue h _ => exact h.2.unique hu

theorem sameFlow_steps (h : ReflTransGen (Preparing anyWrite) a b) : SameFlow a b := by
  induction h with
  | refl => exact .refl a
  | tail _ hs ih => exact ih.trans hs.sameFlow

section

variable (h : SameFlow a b)

include h

theorem SameFlow.queueRow : (queueRow orgId queueId b).map Queue.flow =
    (queueRow orgId queueId a).map Queue.flow := by
  have hrow : ∀ s : Db, (Ticketing.queueRow orgId queueId s).map Queue.flow =
      ((s.get .queue queueId).map Queue.flow).filter (·.1 == orgId) := by
    intro s
    unfold Ticketing.queueRow
    cases s.get .queue queueId with
    | none => rfl
    | some q =>
      have hv : visible (.tenant orgId) .queue q = (q.orgId == orgId) := by
        simp [visible, gone, orgOf]
      rw [Option.filter_some, Option.map_some, Option.filter_some, hv]
      show _ = if (q.orgId == orgId) = true then some q.flow else none
      split
      · rfl
      · rfl
  rw [hrow, hrow, h.queue]

theorem SameFlow.ownTemplate : (Ticketing.queueRow orgId queueId b).bind (·.flowTemplateId) =
    (Ticketing.queueRow orgId queueId a).bind (·.flowTemplateId) := by
  have hbind : ∀ o : Option Queue, o.bind (·.flowTemplateId) = (o.map Queue.flow).bind (·.2.2.2) := by
    rintro (_ | q)
    · rfl
    · rfl
  rw [hbind, hbind, h.queueRow]

theorem SameFlow.serviceOf : serviceOf orgId branchId queueId b = serviceOf orgId branchId queueId a := by
  have hof : ∀ o : Option Queue, (o.filter (·.branchId == branchId)).map (·.serviceId) =
      ((o.map Queue.flow).filter (·.2.1 == branchId)).map (·.2.2.1) := by
    rintro (_ | q)
    · rfl
    · rw [Option.map_some, Option.filter_some, Option.filter_some]
      show _ = Option.map _ (if (q.branchId == branchId) = true then _ else none)
      split
      · rfl
      · rfl
  unfold Ticketing.serviceOf
  rw [hof, hof, h.queueRow]

theorem SameFlow.isStep : IsStep orgId st b ↔ IsStep orgId st a := by
  unfold IsStep
  simp only [h.step]

theorem SameFlow.lowest (hs : a.Unique) {p : BranchFlowStep → Bool}
    (hT : ∀ st, p st = true → st.templateId = T) : lowest orgId p b = lowest orgId p a := by
  refine Option.ext fun st => ?_
  rw [lowest_iff (h.unique hs) (fun _ _ => Iff.rfl) hT, lowest_iff hs (fun _ _ => Iff.rfl) hT]
  simp only [h.isStep]

theorem SameFlow.stepIndexFrom (hs : a.Unique) : stepIndexFrom orgId branchId queueId T m b =
    stepIndexFrom orgId branchId queueId T m a := by
  unfold Ticketing.stepIndexFrom stepFrom fallbackStep stepByService
  rw [h.serviceOf, h.lowest hs (T := T) fun st hst => by simp_all,
    h.lowest hs (T := T) fun st hst => by simp_all, h.lowest hs (T := T) fun st hst => by simp_all]

theorem SameFlow.mem_templates {o : Option Id} :
    o ∈ queueTemplates orgId branchId queueId b ↔ o ∈ queueTemplates orgId branchId queueId a := by
  have hactive : ∀ x, x ∈ seen (.tenant orgId) .flowTemplate
      (fun _ t => t.branchId == branchId && t.isActive) b ↔
        x ∈ seen (.tenant orgId) .flowTemplate (fun _ t => t.branchId == branchId && t.isActive) a := by
    intro x
    rw [mem_seen, mem_seen, h.template]
  unfold queueTemplates
  rw [h.ownTemplate]
  cases (Ticketing.queueRow orgId queueId a).bind (·.flowTemplateId) with
  | some T => exact Iff.rfl
  | none =>
    dsimp only
    generalize seen (.tenant orgId) .flowTemplate _ b = xs at hactive ⊢
    generalize seen (.tenant orgId) .flowTemplate _ a = ys at hactive ⊢
    cases xs with
    | nil =>
      obtain rfl : ys = [] := List.eq_nil_iff_forall_not_mem.mpr fun y hy =>
        List.not_mem_nil ((hactive y).mpr hy)
      exact Iff.rfl
    | cons x xs =>
      cases ys with
      | nil => exact absurd ((hactive x).mp List.mem_cons_self) List.not_mem_nil
      | cons y ys =>
        dsimp only
        rw [List.mem_map, List.mem_map]
        exact exists_congr fun z => and_congr_left fun _ => hactive z

end

theorem maxStepIndex_congr {xs ys : List (Id × Ticket)} (h : ∀ x, x ∈ xs ↔ x ∈ ys) :
    maxStepIndex xs = maxStepIndex ys := by
  unfold maxStepIndex
  refine Option.ext fun i => ?_
  rw [List.max?_eq_some_iff, List.max?_eq_some_iff]
  simp only [List.mem_filterMap, h]

theorem SameFlow.minStepIndex (h : SameFlow a b) (visitId : Option Id) :
    minStepIndex orgId visitId b = minStepIndex orgId visitId a := by
  have hmax : maxStepIndex (seen (.tenant orgId) .ticket
      (fun _ t => t.orgId == orgId && t.visitId == visitId) b) =
      maxStepIndex (seen (.tenant orgId) .ticket
        (fun _ t => t.orgId == orgId && t.visitId == visitId) a) :=
    maxStepIndex_congr fun x => by rw [mem_seen, mem_seen, h.ticket]
  unfold Ticketing.minStepIndex
  rw [hmax]

theorem le_minStepIndex {v id : Id} {t : Ticket} {j : ℤ} (ht : s.get .ticket id = some t)
    (hv : visible (.tenant orgId) .ticket t = true) (hvisit : t.visitId = some v)
    (hj : t.stepIndex = some j) : j ≤ minStepIndex orgId (some v) s := by
  have ho : t.orgId = orgId := Option.some.inj (visible_tenant (k := .ticket) (fun _ => rfl) hv)
  have hmem : j ∈ (seen (.tenant orgId) .ticket
      (fun _ t => t.orgId == orgId && t.visitId == some v) s).filterMap (·.2.stepIndex) :=
    List.mem_filterMap.mpr ⟨(id, t), mem_seen.mpr ⟨ht, hv, by simp [ho, hvisit]⟩, hj⟩
  unfold minStepIndex maxStepIndex
  simp only [Option.isSome_some, if_true]
  cases hmax : ((seen (.tenant orgId) .ticket
      (fun _ t => t.orgId == orgId && t.visitId == some v) s).filterMap (·.2.stepIndex)).max? with
  | none =>
    rw [List.max?_eq_none_iff.mp hmax] at hmem
    cases hmem
  | some i => exact (List.max?_eq_some_iff.mp hmax).2 j hmem

/-! ## The index of a ticket -/

/-- **The index resolved for a queue**, for a ticket of the visit `v`. -/
def ResolvedIndex (orgId branchId queueId v : Id) (s : Db) (o : Option ℤ) : Prop :=
  ∃ T ∈ queueTemplates orgId branchId queueId s, o = T.bind fun T =>
    stepIndexFrom orgId branchId queueId T (minStepIndex orgId (some v) s) s

theorem ResolvedIndex.of_sameFlow {v : Id} {o : Option ℤ} (hf : SameFlow a b) (hs : a.Unique)
    (h : ResolvedIndex orgId branchId queueId v b o) : ResolvedIndex orgId branchId queueId v a o := by
  obtain ⟨T, hT, rfl⟩ := h
  refine ⟨T, hf.mem_templates.mp hT, ?_⟩
  simp only [hf.minStepIndex, hf.stepIndexFrom hs]

section Issue

variable {data : IssueTicketData} {v : Id} {x : Id × Ticket}

theorem gives_visitId {mode : JourneyMode} {y : Option Id × Option String} (hv : data.visitId = some v)
    (h : (visitForIssue orgId data mode).gives s y s') : y.1 = some v := by
  unfold visitForIssue at h
  rw [hv] at h
  obtain ⟨_, _, h1⟩ := gives_still confined_findFirst h
  obtain ⟨_, _, h2⟩ := gives_still (confined_orThrow _ _) h1
  obtain ⟨_, _, -, h3⟩ := h2.seq
  obtain ⟨_, _, h4⟩ := gives_still confined_findFirstBy h3
  rw [h4.1]

/-- **The ticket that is issued** for a visit has the index of the request or that of its queue. -/
theorem gives_issueTicketCore_index (hs : s.Unique) (hv : data.visitId = some v)
    (h : (issueTicketCore orgId data).gives s x s') : x.2.orgId = orgId ∧
      ((∃ i, data.stepIndex = some i ∧ x.2.stepIndex = some i) ∨ data.stepIndex = none ∧
        ResolvedIndex orgId data.branchId data.queueId v s x.2.stepIndex) := by
  obtain ⟨queue, -, h1⟩ := gives_still confined_queueForIssue h
  obtain ⟨mode, -, h2⟩ := gives_still confined_effectiveJourneyMode h1
  obtain ⟨visit, m1, hvisit, h3⟩ := h2.seq
  obtain ⟨number, m2, hnumber, h4⟩ := h3.seq
  obtain ⟨_, -, h5⟩ := gives_still confined_resolveQueueCallingPolicy h4
  obtain ⟨customer, m3, hcustomer, h6⟩ := h5.seq
  obtain ⟨stepIndex, hindex, h7⟩ := gives_still confined_stepIndexForIssue h6
  obtain ⟨_, -, h8⟩ := gives_still confined_findById h7
  obtain ⟨ref, m4, -, h9⟩ := h8.seq
  obtain ⟨time, -, h10⟩ := gives_still confined_now h9
  obtain ⟨id, m5, -, h11⟩ := h10.seq
  have hflow : SameFlow s m3 :=
    ((sameFlow_steps (prepares_visitForIssue.gives (e := .recordNotFound) hvisit)).trans
      (sameFlow_steps (prepares_displayNumberForIssue.gives (e := .recordNotFound) hnumber))).trans
      (sameFlow_steps (prepares_customerForIssue.gives (e := .recordNotFound) hcustomer))
  rw [gives_visitId hv hvisit] at hindex
  rw [show x = _ from h11.1]
  refine ⟨rfl, ?_⟩
  show (∃ i, data.stepIndex = some i ∧ stepIndex = some i) ∨ data.stepIndex = none ∧
    ResolvedIndex orgId data.branchId data.queueId v s stepIndex
  unfold stepIndexForIssue at hindex
  cases hd : data.stepIndex with
  | some i =>
    rw [hd] at hindex
    exact Or.inl ⟨i, rfl, hindex.1⟩
  | none =>
    rw [hd] at hindex
    have hresolved := ((gives_stepIndex (hflow.unique hs)).mp hindex).1
    exact Or.inr ⟨rfl, ResolvedIndex.of_sameFlow hflow hs hresolved⟩

theorem gives_prepare {bypassRls : Bool} {payload : IssueTicketData} (hs : s.Unique)
    (hv : data.visitId = some v) (hd : data.stepIndex = none)
    (h : (prepareIssueTicketPayload (.bare bypassRls) orgId data).gives s payload s') :
    s' = s ∧ payload.visitId = some v ∧ payload.branchId = data.branchId ∧
      payload.queueId = data.queueId ∧ (payload.stepIndex = none ∨
        ResolvedIndex orgId data.branchId data.queueId v s payload.stepIndex) := by
  refine ⟨confined_prepareIssueTicketPayload.gives_still (e := .recordNotFound) h, ?_⟩
  obtain ⟨_, -, h1⟩ := gives_still confined_isVisitJourneysEnabledForOrg h
  obtain ⟨_, -, h2⟩ := gives_still confined_resolveEffectiveJourneyMode h1
  obtain ⟨o, ho, h3⟩ := gives_still confined_resolveFlowStepIndexForQueue h2
  rw [show payload = _ from h3.1]
  split
  · refine ⟨hv, rfl, rfl, ?_⟩
    rw [hv] at ho
    cases bypassRls with
    | false => exact Or.inl (gives_queueIndex_hidden.mp ho).1
    | true =>
      rw [resolveFlowStepIndexForQueue_of_sees rfl] at ho
      exact Or.inr ((gives_stepIndex hs).mp ho).1
  · exact ⟨hv, rfl, rfl, Or.inl hd⟩

theorem gives_rejectIf {c : Bool} {e : Err} {u : Unit} (h : (rejectIf c e).gives s (.ok u) s') :
    s' = s := by
  unfold rejectIf at h
  split at h
  · cases h.1
  · exact h.2

/-- The request checks itself before it touches the store. -/
theorem gives_validateIssue {issuance : Issuance} {u : Unit}
    (h : (validateIssue data issuance).gives s (.ok u) s') : s' = s := by
  obtain ⟨_, m1, h1, h'⟩ := h.seq
  obtain ⟨_, m2, h2, h3⟩ := h'.seq
  rw [gives_rejectIf h3, gives_rejectIf h2, gives_rejectIf h1]

theorem gives_readsTx {α : Type} {t : TTx α} {y : α}
    (ht : Confined anyWrite Err.recordNotFound alone (fun _ _ => False) t)
    (h : (Call.withTx t : TCall α).gives s (.ok y) s') : t.gives s y s ∧ s' = s := by
  have hg := Call.gives_withTx_ok.mp h
  obtain rfl := ht.gives_still hg
  exact ⟨hg, rfl⟩

theorem gives_prepared {bypassRls : Bool} (hs : s.Unique) (hv : data.visitId = some v)
    (hd : data.stepIndex = none)
    (h : ((Call.withTx (prepareIssueTicketPayload (.bare bypassRls) orgId data) :
      TCall IssueTicketData).bind fun payload => withTenant (issueTicketCore orgId payload)).gives s
        (.ok x) s') :
    ResolvedIndex x.2.orgId data.branchId data.queueId v s x.2.stepIndex := by
  obtain ⟨payload, m, hprepare, hcore⟩ := h.seq
  obtain ⟨rfl, hvisit, hbranch, hqueue, hindex⟩ := gives_prepare hs hv hd
    (Call.gives_withTx_ok.mp hprepare)
  obtain ⟨rfl, hstored⟩ := gives_issueTicketCore_index hs hvisit (Call.gives_withTx_ok.mp hcore)
  rcases hstored with ⟨i, hi, hx⟩ | ⟨-, hresolved⟩
  · rw [hi, ← hx] at hindex
    rcases hindex with hnone | hresolved
    · rw [hx] at hnone
      cases hnone
    · exact hresolved
  · rwa [hbranch, hqueue] at hresolved

/-- **The ticket a request issues** for a visit has the index of its queue. -/
theorem gives_issueTicket {orgIdOrNull : Option Id} {issuance : Issuance} (hs : s.Unique)
    (hv : data.visitId = some v) (hd : data.stepIndex = none)
    (h : (issueTicket orgIdOrNull data issuance).gives s (.ok x) s') :
    ResolvedIndex x.2.orgId data.branchId data.queueId v s x.2.stepIndex := by
  obtain ⟨_, m1, hvalid, h1⟩ := h.seq
  obtain ⟨org, m2, horg, h2⟩ := h1.seq
  obtain ⟨bypass, m3, hbypass, h3⟩ := h2.seq
  obtain ⟨_, m4, hentry, h4⟩ := h3.seq
  obtain ⟨_, m5, hlimit, h5⟩ := h4.seq
  obtain rfl := gives_validateIssue hvalid
  obtain ⟨-, rfl⟩ := gives_readsTx confined_orgForIssue horg
  obtain rfl := Call.gives_input.mp hbypass
  obtain ⟨-, rfl⟩ := gives_readsTx confined_checkEntry hentry
  obtain ⟨-, rfl⟩ := gives_readsTx (confined_mayRefuse _) hlimit
  have hresolved := fun hv hd => gives_prepared (v := v) hs hv hd h5
  exact hresolved hv hd

end Issue

/-! ## The index of an advance -/

theorem after_of_resolveNext {ctx : JourneyTicketContext} {res : NextStepResolution}
    {n : JourneyNextStep} {j : ℤ} (hj : ctx.stepIndex = some j)
    (h : (resolveNextJourneyStepTx orgId ctx).gives s res s') (hn : res.nextStep = some n) :
    j < n.stepIndex := by
  obtain ⟨r, hr, h⟩ := gives_still confined_resolveStep h
  cases r with
  | none =>
    rw [show res = _ from h.1] at hn
    cases hn
  | some Ti =>
    obtain ⟨o, ho, h⟩ := gives_still confined_getNextStep h
    obtain ⟨-, ⟨rfl, -⟩ | ⟨st, rfl, -, hlt, -⟩⟩ := gives_getNextStep ho
    · rw [show res = _ from h.1] at hn
      cases hn
    · obtain ⟨o, _, hq, h⟩ := h.seq
      obtain ⟨q, _, -, ho⟩ := hq.seq
      rw [show res = _ from h.1, show o = _ from ho.1] at hn
      obtain ⟨y, -, rfl⟩ := Option.map_eq_some_iff.mp hn
      have hij : Ti.2 = j := by
        unfold resolveStep at hr
        split at hr
        · cases hr.1
        · obtain ⟨_, -, hr⟩ := gives_still confined_resolveFlowStepIndexForQueue hr
          obtain ⟨T, -, hr⟩ := gives_still confined_resolveFlowTemplateId hr
          rw [hj] at hr
          cases T with
          | none => cases hr.1
          | some T =>
            cases hr.1
            rfl
      rwa [hij] at hlt

/-- **The next ticket of an advance** has a greater index than the one it follows. -/
theorem gives_finalizeTx_index {src : Id} {status : TicketStatus} {ref : Option String}
    {jc : JourneyContext} {t : Ticket} {done : Finalized} {x : Id × Ticket} {j : ℤ}
    (ht : s.get .ticket src = some t) (hst : t.status ≠ status) (hj : t.stepIndex = some j)
    (h : (finalizeTx orgId src status ref jc).gives s done s') (hx : done.nextTicket = some x) :
    ∃ i, x.2.stepIndex = some i ∧ j < i := by
  obtain ⟨o, m1, hlock, h1⟩ := h.seq
  obtain ⟨locked, hlocked, h2⟩ := gives_still (confined_orThrow _ _) h1
  obtain ⟨rfl, -⟩ := gives_orThrow.mp hlocked
  obtain ⟨hrow, -, -⟩ := gives_forUpdate hlock
  obtain rfl : t = locked := Option.some.inj (ht.symm.trans hrow)
  rw [if_neg hst] at h2
  obtain ⟨res, m2, hres, h3⟩ := h2.seq
  obtain ⟨_, -, h4⟩ := gives_still (confined_throwIf _ _) h3
  obtain ⟨ref', m3, -, h5⟩ := h4.seq
  obtain ⟨issued, m4, hissue, h6⟩ := h5.seq
  obtain ⟨_, -, h7⟩ := gives_still confined_now h6
  obtain ⟨_, m5, -, h8⟩ := h7.seq
  rw [show done = _ from h8.1] at hx
  obtain rfl : issued = some x := hx
  cases hnone : res.nextStep with
  | none =>
    rw [hnone] at hissue
    cases hissue.1
  | some n =>
    rw [hnone] at hissue
    obtain ⟨y, _, hissue, hpure⟩ := hissue.seq
    cases hpure.1
    refine ⟨n.stepIndex, ?_, after_of_resolveNext hj hres hnone⟩
    obtain ⟨q, _, -, h9⟩ := hissue.seq
    obtain ⟨_, -, h10⟩ := gives_still (confined_orThrow _ _) h9
    obtain ⟨_, -, h11⟩ := gives_still (confined_throwIf _ _) h10
    obtain ⟨_, -, h12⟩ := gives_still (confined_throwIf _ _) h11
    obtain ⟨⟨_, _, _, _, index, _, _, hrow', -, hindex⟩, -⟩ :=
      gives_issueTicketCore (Tx.gives_mapError.mp h12)
    rw [hrow']
    exact hindex _ rfl

/-! ## The claim of the lookup -/

/-- **The index is that of a step of the queue**, if the template has one from `m` on. -/
def OfQueue (orgId queueId T : Id) (m : ℤ) (s : Db) (o : Option ℤ) : Prop :=
  (∃ st, BoundFrom orgId queueId T m s st) →
    ∃ st, BoundFrom orgId queueId T m s st ∧ o = some st.stepIndex

/-- The index is not before that of any ticket of the visit. -/
def NotBefore (orgId v : Id) (s : Db) (i : ℤ) : Prop :=
  ∀ id t j, s.get .ticket id = some t → visible (.tenant orgId) .ticket t = true →
    t.visitId = some v → t.stepIndex = some j → j ≤ i

/-- The first step of the queue in the template has the index `i`. -/
def FirstOfQueue (orgId queueId T : Id) (s : Db) (i : ℤ) : Prop :=
  ∃ st, IsStep orgId st s ∧ st.templateId = T ∧ st.queueId = some queueId ∧ st.stepIndex = i ∧
    ∀ st', IsStep orgId st' s → st'.templateId = T → st'.queueId = some queueId → i ≤ st'.stepIndex

theorem ResolvedIndex.notBefore {v : Id} {o : Option ℤ} (hs : s.Unique)
    (h : ResolvedIndex orgId branchId queueId v s o) :
    ∃ T ∈ queueTemplates orgId branchId queueId s, ∀ i, o = some i → NotBefore orgId v s i ∨
      ∃ T', T = some T' ∧ SentBack orgId queueId T' (minStepIndex orgId (some v) s) s ∧
        FirstOfQueue orgId queueId T' s i := by
  obtain ⟨T, hT, rfl⟩ := h
  refine ⟨T, hT, fun i hi => ?_⟩
  obtain ⟨T', rfl, hi⟩ := Option.bind_eq_some_iff.mp hi
  rcases stepIndexFrom_ge hs hi with hle | ⟨hback, st, hst, rfl⟩
  · exact Or.inl fun id t j ht hv hvisit hj => (le_minStepIndex ht hv hvisit hj).trans hle
  · obtain ⟨hrow, ⟨hT', hq⟩, hmin⟩ := (fallbackStep_eq_some hs).mp hst
    exact Or.inr ⟨T', rfl, hback, st, hrow, hT', hq, rfl, fun st' hrow' hT' hq' =>
      hmin st' hrow' ⟨hT', hq'⟩⟩

/-- **The step of a queue.** The lookup finds a step of the queue where the template has one and the
service's first one is the queue's; a ticket that a request issues for a visit is not before any ticket
of the visit, unless the patron is sent back to the first step of the queue; and the next ticket of an
advance comes after the one it follows. -/
theorem step_of_queue (hs : s.Unique) (orgId : Id) :
    (∀ branchId queueId visitId o s',
      (resolveFlowStepIndexForQueue (.tenant orgId) orgId branchId queueId visitId).gives s o s' →
        ∃ T ∈ queueTemplates orgId branchId queueId s, ∀ T', T = some T' →
          OwnFirst orgId branchId queueId T' (minStepIndex orgId visitId s) s →
            OfQueue orgId queueId T' (minStepIndex orgId visitId s) s o) ∧
    (∀ orgIdOrNull data issuance v x s', data.visitId = some v → data.stepIndex = none →
      (issueTicket orgIdOrNull data issuance).gives s (.ok x) s' →
        ∃ T ∈ queueTemplates x.2.orgId data.branchId data.queueId s, ∀ i, x.2.stepIndex = some i →
          NotBefore x.2.orgId v s i ∨ ∃ T', T = some T' ∧
            SentBack x.2.orgId data.queueId T' (minStepIndex x.2.orgId (some v) s) s ∧
            FirstOfQueue x.2.orgId data.queueId T' s i) ∧
    (∀ src status ref jc t done x j s', s.get .ticket src = some t → t.status ≠ status →
      t.stepIndex = some j → (finalizeTx orgId src status ref jc).gives s done s' →
        done.nextTicket = some x → ∃ i, x.2.stepIndex = some i ∧ j < i) := by
  refine ⟨fun branchId queueId visitId o s' h => ?_, fun _ _ _ _ _ _ hv hd h =>
    (gives_issueTicket hs hv hd h).notBefore hs, fun _ _ _ _ _ _ _ _ _ ht hst hj h hx =>
    gives_finalizeTx_index ht hst hj h hx⟩
  obtain ⟨⟨T, hT, rfl⟩, -⟩ := (gives_stepIndex hs).mp h
  refine ⟨T, hT, fun T' hT' hown hbound => ?_⟩
  subst hT'
  exact (bound_iff hs hbound).mpr hown

theorem step_of_queue_wash :
    ∃ st, BoundFrom 1 2 1 0 journeyShop st ∧ some (1 : ℤ) = some st.stepIndex := by
  have hs : journeyShop.Unique := Rel.unique_of_entries (fun k => by cases k <;> decide +kernel) rfl
  have hT : queueTemplates 1 1 2 journeyShop = [some 1] := by decide +kernel
  have hmin : minStepIndex 1 (some 1) journeyShop = 0 := by decide +kernel
  have hindex : stepIndexFrom 1 1 2 1 0 journeyShop = some 1 := by decide +kernel
  have hgives : (resolveFlowStepIndexForQueue (.tenant 1) 1 1 2 (some 1)).gives journeyShop (some 1)
      journeyShop := by
    refine (gives_stepIndex hs).mpr ⟨⟨some 1, ?_, ?_⟩, rfl⟩
    · rw [hT]
      exact List.mem_singleton.mpr rfl
    · rw [Option.bind_some, hmin, hindex]
  obtain ⟨T, hmem, h⟩ := (step_of_queue hs 1).1 1 2 (some 1) (some 1) journeyShop hgives
  rw [hT, List.mem_singleton] at hmem
  rw [hmin] at h
  have hqueue : (stepByService 1 1 2 1 0 journeyShop).bind (·.queueId) = some 2 := by decide +kernel
  have hstep : ∃ st ∈ journeyShop.get .flowStep 2, st.orgId = 1 ∧ st.templateId = 1 ∧
      st.queueId = some 2 ∧ 0 ≤ st.stepIndex := by decide +kernel
  obtain ⟨st, hrow, ho, htemplate, hbound, hle⟩ := hstep
  refine h 1 hmem (fun st hst hfirst => ?_) ⟨st, ⟨2, hrow, visible_step.mpr ho⟩, htemplate, hbound, hle⟩
  rwa [(stepByService_eq_some hs).mpr ⟨hst, hfirst⟩] at hqueue

def sharedServiceShop : Db :=
  (journeyShop.set .queue 2
    { orgId := 1, branchId := 1, serviceId := 1, name := "Wash", pre := "W", status := .opened
      flowTemplateId := some 1 }).set .flowStep 2
    { orgId := 1, templateId := 1, stepIndex := 1, deskNumber := "2", serviceId := 1
      queueId := some 2 }

/-- A patron who has been at both steps. -/
def servedShop : Db := shop true [(1, { orgId := 1, branchId := 1 })]
  [(1, { atFirstStep with queueId := 2, serviceId := 2, stepIndex := some 1, status := .completed })]

def oneMoreCut : IssueTicketData :=
  { queueId := 1, branchId := 1, serviceId := 1, visitId := some 1, source := "staff" }

theorem gives_oneMoreCut : ∃ x s', (issueTicket (some 1) oneMoreCut .authenticated).gives servedShop
    (.ok x) s' ∧ x.2.orgId = 1 ∧ x.2.stepIndex = some 0 := by
  have hrun : ((issueTicket (some 1) oneMoreCut .authenticated).eval ⟨fun _ => 0, 0⟩ 0
      servedShop).answer.toOption.map (fun x => (x.2.orgId, x.2.stepIndex)) = some (1, some 0) := by
    decide +kernel
  have hgives := Call.gives_eval ⟨fun _ => 0, 0⟩ (issueTicket (some 1) oneMoreCut .authenticated) 0
    servedShop
  obtain ⟨x, hx, hfields⟩ := Option.map_eq_some_iff.mp hrun
  cases hanswer : ((issueTicket (some 1) oneMoreCut .authenticated).eval ⟨fun _ => 0, 0⟩ 0
      servedShop).answer with
  | error e =>
    rw [hanswer] at hx
    cases hx
  | ok y =>
    rw [hanswer] at hx hgives
    cases hx
    exact ⟨x, _, hgives, (Prod.mk.inj hfields).1, (Prod.mk.inj hfields).2⟩

/-- **Back to the first queue**, the index goes back as well; and a queue that shares its service with an
earlier step has the index of that step. -/
theorem exists_sentBack :
    (¬ ∀ (s : Db) orgIdOrNull data issuance v x s', s.Unique → data.visitId = some v →
      data.stepIndex = none → (issueTicket orgIdOrNull data issuance).gives s (.ok x) s' →
        ∀ i, x.2.stepIndex = some i → NotBefore x.2.orgId v s i) ∧
    ¬ ∀ (s : Db) orgId branchId queueId T o s', s.Unique →
      queueTemplates orgId branchId queueId s = [some T] →
        (resolveFlowStepIndexForQueue (.tenant orgId) orgId branchId queueId none).gives s o s' →
          OfQueue orgId queueId T 0 s o := by
  constructor
  · intro h
    have hs : servedShop.Unique := Rel.unique_of_entries (fun k => by cases k <;> decide +kernel) rfl
    have hticket : ∃ t ∈ servedShop.get .ticket 1, visible (.tenant 1) .ticket t = true ∧
        t.visitId = some 1 ∧ t.stepIndex = some 1 := by decide +kernel
    obtain ⟨x, s', hx, ho, hi⟩ := gives_oneMoreCut
    obtain ⟨t, hrow, hv, hvisit, hj⟩ := hticket
    have hle := h servedShop (some 1) oneMoreCut .authenticated 1 x s' hs rfl rfl hx 0 hi 1 t 1 hrow
      (ho ▸ hv) hvisit hj
    exact absurd hle (by decide)
  · intro h
    have hs : sharedServiceShop.Unique :=
      Rel.unique_of_entries (fun k => by cases k <;> decide +kernel) rfl
    have hT : queueTemplates 1 1 2 sharedServiceShop = [some 1] := by decide +kernel
    have hindex : stepIndexFrom 1 1 2 1 0 sharedServiceShop = some 0 := by decide +kernel
    have hgives : (resolveFlowStepIndexForQueue (.tenant 1) 1 1 2 none).gives sharedServiceShop
        (some 0) sharedServiceShop := by
      refine (gives_stepIndex hs).mpr ⟨⟨some 1, ?_, hindex.symm⟩, rfl⟩
      rw [hT]
      exact List.mem_singleton.mpr rfl
    have hstep : ∃ st ∈ sharedServiceShop.get .flowStep 2, st.orgId = 1 ∧ st.templateId = 1 ∧
        st.queueId = some 2 ∧ 0 ≤ st.stepIndex := by decide +kernel
    have hother : ∀ e ∈ (sharedServiceShop.tables .flowStep).entries, e.2.queueId = some 2 →
        e.2.stepIndex = 1 := by decide +kernel
    obtain ⟨st, hrow, ho, htemplate, hbound, hle⟩ := hstep
    obtain ⟨st', ⟨⟨id, hrow', -⟩, -, hq, -⟩, hi⟩ := h sharedServiceShop 1 1 2 1 (some 0) _ hs hT hgives
      ⟨st, ⟨2, hrow, visible_step.mpr ho⟩, htemplate, hbound, hle⟩
    have hone := hother ⟨id, st'⟩ (AList.mem_lookup_iff.mp hrow') hq
    rw [hone] at hi
    cases hi

end PatronLoyalty.Ticketing
