import PatronLoyalty.Ticketing.Effects
import PatronLoyalty.Txn.Alone

/-!
# Completing a ticket alone

What `complete` comes to on a store that nobody else touches. Before its locked transaction it repairs
steps of the template, at most; in it the ticket is locked, the next step is looked up, its ticket is
issued and the first one is completed.

Headline: **`complete_atomic`**. Where the template the ticket resolves to has a later step, the ticket
of the next one is issued as the ticket is completed, or nothing is done but for repaired steps; at every
moment, whatever fails.
-/

namespace PatronLoyalty.Ticketing

open Txn Relation
open Txn.Rel (Wrote)
open Loyalty (Id Err truthy)

abbrev anyWrite : DbWrite → Bool := fun _ => true

/-! ## Statements -/

section Statements

variable {s s' : Db} {k : Kind} {id orgId : Id} {scope : Scope} {α : Type} {r : Row k}

/-- A part that only reads, and what comes after it. -/
theorem gives_still {β : Type} {t : TTx α} {f : α → TTx β} {y : β}
    (h : Confined anyWrite Err.recordNotFound alone (fun _ _ => False) t)
    (hg : (t.bind f).gives s y s') : ∃ b, t.gives s b s ∧ (f b).gives s y s' := by
  obtain ⟨b, m, ht, hf⟩ := hg.seq
  have hm := h.gives_still ht
  subst hm
  exact ⟨b, ht, hf⟩

theorem gives_findById {o : Option (Row k)} : (findById scope k id).gives s o s' ↔
    o = (s.get k id).filter (visible scope k) ∧ s' = s := Tx.gives_read

theorem exists_first (le : α → α → Bool) (htotal : ∀ x y, le x y = true ∨ le y x = true)
    (htrans : ∀ x y z, le x y = true → le y z = true → le x z = true) {xs : List α} (h : xs ≠ []) :
    ∃ x ∈ xs, ∀ y ∈ xs, le x y = true := by
  induction xs with
  | nil => exact absurd rfl h
  | cons x xs ih =>
    have hself : le x x = true := (htotal x x).elim id id
    by_cases hxs : xs = []
    · exact ⟨x, List.mem_cons_self, by simp [hxs, hself]⟩
    · obtain ⟨m, hm, hle⟩ := ih hxs
      rcases htotal x m with hx | hx
      · refine ⟨x, List.mem_cons_self, fun y hy => ?_⟩
        rcases List.mem_cons.mp hy with rfl | hy
        · exact hself
        · exact htrans x m y hx (hle y hy)
      · refine ⟨m, List.mem_cons_of_mem _ hm, fun y hy => ?_⟩
        rcases List.mem_cons.mp hy with rfl | hy
        · exact hx
        · exact hle y hy

theorem gives_findFirstBy {p : Id → Row k → Bool} {le : Row k → Row k → Bool}
    (htotal : ∀ x y, le x y = true ∨ le y x = true)
    (htrans : ∀ x y z, le x y = true → le y z = true → le x z = true)
    {o : Option (Id × Row k)} (h : (findFirstBy scope k p le).gives s o s') :
    s' = s ∧ ((o = none ∧ ∀ r, r ∉ seen scope k p s) ∨
      ∃ r ∈ seen scope k p s, o = some r ∧ ∀ r' ∈ seen scope k p s, le r.2 r'.2 = true) := by
  obtain ⟨rfl, hcases⟩ := Tx.gives_findFirst.mp h
  refine ⟨rfl, ?_⟩
  rcases hcases with ⟨rfl, hnil⟩ | ⟨r, hr, rfl⟩
  · refine Or.inl ⟨rfl, fun r hr => ?_⟩
    obtain ⟨x, hx, hmin⟩ := exists_first (fun x y : Id × Row k => le x.2 y.2)
      (fun x y => htotal x.2 y.2) (fun x y z => htrans x.2 y.2 z.2) (List.ne_nil_of_mem hr)
    have hmem : x ∈ firsts (fun x y => le x.2 y.2) _ :=
      List.mem_filter.mpr ⟨hx, List.all_eq_true.mpr hmin⟩
    exact List.ne_nil_of_mem hmem hnil
  · obtain ⟨hmem, hall⟩ := List.mem_filter.mp hr
    exact Or.inr ⟨r, hmem, rfl, List.all_eq_true.mp hall⟩

theorem gives_orThrow {e : Err} {o : Option α} {x : α} :
    (orThrow e o).gives s x s' ↔ o = some x ∧ s' = s := by
  cases o with
  | none => exact ⟨False.elim, fun h => nomatch h.1⟩
  | some y => exact and_congr_left fun _ => ⟨fun h => h ▸ rfl, fun h => (Option.some.inj h).symm⟩

theorem gives_throwIf {b : Bool} {e : Err} {u : Unit} :
    (throwIf b e).gives s u s' ↔ b = false ∧ s' = s := by
  cases b with
  | true => exact ⟨False.elim, fun h => nomatch h.1⟩
  | false => exact ⟨fun h => ⟨rfl, h.2⟩, fun h => ⟨rfl, h.2⟩⟩

theorem gives_create (h : (create k r).gives s id s') :
    Wrote anyWrite k id none r s s' :=
  (triple_create (e := .recordNotFound) (G := alone) (P := Eq)
    (Q := fun id a c => Wrote anyWrite k id none r a c) fun _ _ _ _ hab hw => hab ▸ hw).gives h

theorem gives_update {f : Row k → Row k} {x : Row k} (h : (update orgId k id f).gives s x s') :
    ∃ r, x = f r ∧ Wrote anyWrite k id (some r) (f r) s s' :=
  (triple_update (e := .recordNotFound) (G := alone) (P := Eq)
    (Q := fun x a c => ∃ r, x = f r ∧ Wrote anyWrite k id (some r) (f r) a c)
    fun r _ _ _ hab _ hw => ⟨r, rfl, hab ▸ hw⟩).gives h

def SameRows (s s' : Db) : Prop := ∀ k id, s'.get k id = s.get k id

theorem SameRows.of_lock (h : Wrote anyWrite k id (some r) r s s') : SameRows s s' := by
  intro k' id'
  by_cases hk : (k', id') = (k, id)
  · cases hk
    rw [h.2.get_self, h.2.get_old]
  · exact h.2.get_ne hk

/-- A row that is locked. -/
theorem gives_forUpdate (h : (forUpdate orgId k id).gives s (some r) s') :
    s.get k id = some r ∧ visible (.tenant orgId) k r = true ∧ SameRows s s' := by
  have hlock := (triple_forUpdate (e := .recordNotFound) (G := alone) (P := Eq) (C := anyWrite)
    (Q := fun o a c => ∀ r, o = some r → a.get k id = some r ∧ visible (.tenant orgId) k r = true ∧
      SameRows a c)
    (fun r a b c hab hv hw r' hr => ?_) fun a b hab r hr => by cases hr).gives h
  · exact hlock r rfl
  · cases hr
    subst hab
    exact ⟨hw.2.get_old, hv, .of_lock hw⟩

end Statements

/-! ## Steps of a template -/

/-- The organisation's template `T` has a step with the index `j`. -/
def HasStep (orgId T : Id) (j : ℤ) (s : Db) : Prop :=
  ∃ id st, s.get .flowStep id = some st ∧ visible (.tenant orgId) .flowStep st = true ∧
    st.templateId = T ∧ st.stepIndex = j

section Steps

variable {s s' a b : Db} {orgId T : Id} {i j : ℤ} {C : DbWrite → Bool}

theorem Repairs.hasStep (h : Repairs C a b) : HasStep orgId T j b ↔ HasStep orgId T j a := by
  obtain ⟨id, st, st', hw, hr⟩ := h
  have hvis : visible (.tenant orgId) .flowStep st' = visible (.tenant orgId) .flowStep st := by
    rw [hr]
    rfl
  have htpl : st'.templateId = st.templateId := by rw [hr]
  have hidx : st'.stepIndex = st.stepIndex := by rw [hr]
  constructor
  · rintro ⟨x, u, hu, hv, ht, hj⟩
    by_cases hx : x = id
    · subst hx
      rw [hw.2.get_self] at hu
      cases hu
      exact ⟨x, st, hw.2.get_old, hvis ▸ hv, htpl ▸ ht, hidx ▸ hj⟩
    · exact ⟨x, u, (hw.2.get_ne (by simpa using hx)).symm.trans hu, hv, ht, hj⟩
  · rintro ⟨x, u, hu, hv, ht, hj⟩
    by_cases hx : x = id
    · subst hx
      rw [hw.2.get_old] at hu
      cases hu
      exact ⟨x, st', hw.2.get_self, hvis ▸ hv, htpl ▸ ht, hidx ▸ hj⟩
    · exact ⟨x, u, (hw.2.get_ne (by simpa using hx)).trans hu, hv, ht, hj⟩

theorem repairs_hasStep (h : ReflTransGen (Repairs C) a b) :
    HasStep orgId T j b ↔ HasStep orgId T j a := by
  induction h with
  | refl => exact Iff.rfl
  | tail _ hs ih => exact hs.hasStep.trans ih

theorem SameRows.hasStep (h : SameRows a b) : HasStep orgId T j b ↔ HasStep orgId T j a := by
  unfold HasStep
  simp only [h .flowStep]

theorem gives_firstStep {scope : Scope} {p : BranchFlowStep → Bool} {o : Option BranchFlowStep}
    (h : (firstStep scope p).gives s o s') : s' = s ∧
      ((o = none ∧ ∀ r, r ∉ seen scope .flowStep (fun _ st => p st) s) ∨
        ∃ r ∈ seen scope .flowStep (fun _ st => p st) s, o = some r.2 ∧
          ∀ r' ∈ seen scope .flowStep (fun _ st => p st) s, r.2.stepIndex ≤ r'.2.stepIndex) := by
  obtain ⟨o', m, hf, rfl, rfl⟩ := h.seq
  have hle : ∀ x y : BranchFlowStep, byStepIndex x y = true ↔ x.stepIndex ≤ y.stepIndex :=
    fun _ _ => decide_eq_true_iff
  simp only [← hle]
  obtain ⟨rfl, hcases⟩ := gives_findFirstBy (k := .flowStep)
    (fun x y => by simpa only [hle] using le_total x.stepIndex y.stepIndex)
    (fun x y z => by simpa only [hle] using le_trans) hf
  refine ⟨rfl, ?_⟩
  rcases hcases with ⟨rfl, hno⟩ | ⟨r, hr, rfl, hmin⟩
  · exact Or.inl ⟨rfl, hno⟩
  · exact Or.inr ⟨r, hr, rfl, hmin⟩

theorem gives_getNextStep {o : Option BranchFlowStep} (h : (getNextStep orgId T i).gives s o s') :
    s' = s ∧ ((o = none ∧ ∀ j, HasStep orgId T j s → j ≤ i) ∨
      ∃ st, o = some st ∧ HasStep orgId T st.stepIndex s ∧ i < st.stepIndex ∧
        ∀ j, HasStep orgId T j s → i < j → st.stepIndex ≤ j) := by
  have hmem : ∀ j, HasStep orgId T j s → i < j → ∃ r ∈ seen (.tenant orgId) .flowStep
      (fun _ st => st.templateId == T && decide (i < st.stepIndex)) s, r.2.stepIndex = j := by
    rintro j ⟨id, st, hst, hv, ht, rfl⟩ hj
    exact ⟨(id, st), mem_seen.mpr ⟨hst, hv, by simp [ht, hj]⟩, rfl⟩
  obtain ⟨hs, ⟨rfl, hno⟩ | ⟨⟨id, st⟩, hr, rfl, hmin⟩⟩ := gives_firstStep h
  · refine ⟨hs, Or.inl ⟨rfl, fun j hj => ?_⟩⟩
    by_contra hlt
    obtain ⟨r, hr, -⟩ := hmem j hj (not_le.mp hlt)
    exact hno r hr
  · obtain ⟨hst, hv, hp⟩ := mem_seen.mp hr
    simp only [Bool.and_eq_true, beq_iff_eq, decide_eq_true_eq] at hp
    refine ⟨hs, Or.inr ⟨st, rfl, ⟨id, st, hst, hv, hp.1, rfl⟩, hp.2, fun j hj hlt => ?_⟩⟩
    obtain ⟨r, hr', rfl⟩ := hmem j hj hlt
    exact hmin r hr'

end Steps

/-! ## The queue of a step -/

section Queues

variable {s s' a b : Db} {orgId branchId T : Id} {C : DbWrite → Bool} {q : Id × Queue}

def IsQueue (orgId : Id) (q : Id × Queue) (s : Db) : Prop :=
  s.get .queue q.1 = some q.2 ∧ visible (.tenant orgId) .queue q.2 = true

theorem isQueue_of_findFirst {p : Id → Queue → Bool}
    (h : (findFirst (.tenant orgId) .queue p).gives s (some q) s') : IsQueue orgId q s := by
  rcases (Tx.gives_findFirst.mp h).2 with ⟨h, -⟩ | ⟨r, hr, h⟩
  · cases h
  · cases h
    obtain ⟨hrow, hv, -⟩ := mem_seen.mp hr
    exact ⟨hrow, hv⟩

theorem isQueue_of_findFirstBy {p : Id → Queue → Bool} {le : Queue → Queue → Bool}
    (h : (findFirstBy (.tenant orgId) .queue p le).gives s (some q) s') :
    IsQueue orgId q s := by
  rcases (Tx.gives_findFirst.mp h).2 with ⟨h, -⟩ | ⟨r, hr, h⟩
  · cases h
  · cases h
    obtain ⟨hrow, hv, -⟩ := mem_seen.mp (List.mem_filter.mp hr).1
    exact ⟨hrow, hv⟩

theorem isQueue_of_fallback {i : ℤ} {serviceId : Id}
    (h : (findQueueForFlowStepFallback orgId branchId T i serviceId).gives s (some q) s') :
    IsQueue orgId q s := by
  obtain ⟨stepMeta, -, h⟩ := gives_still confined_firstStep h
  obtain ⟨service, -, h⟩ := gives_still confined_findById h
  obtain ⟨byName, hname, h⟩ := gives_still confined_findFirstBy h
  obtain ⟨steps, -, h⟩ := gives_still confined_findManyBy h
  obtain ⟨queues, hqueues, h⟩ := gives_still confined_findManyBy h
  obtain ⟨byService, hservice, h⟩ := gives_still confined_findFirstBy h
  split at h
  · cases h.1
    exact isQueue_of_findFirstBy hname
  · cases h.1
  · rcases (Option.orElse_eq_some _ _ _).mp h.1.symm with hq | ⟨-, rfl⟩
    · have hmem := List.mem_of_getElem? hq
      rw [(Tx.gives_read.mp hqueues).1, List.mem_insertionSort] at hmem
      obtain ⟨hrow, hv, -⟩ := mem_seen.mp hmem
      exact ⟨hrow, hv⟩
    · exact isQueue_of_findFirstBy hservice

theorem isQueue_of_resolve {step : StepRef}
    (h : (resolveQueueForFlowStep orgId branchId T step).gives s (some q) s') :
    IsQueue orgId q s := by
  obtain ⟨byId, hid, h⟩ := gives_still confined_findById h
  split at h
  · rename_i queueId q' hqueue
    cases h.1
    have hrow := Option.filter_eq_some_iff.mp (gives_findById.mp hid).1.symm
    rwa [hqueue] at hrow
  · obtain ⟨openQueue, hopen, h⟩ := gives_still confined_findFirst h
    obtain ⟨anyQueue, hany, h⟩ := gives_still confined_findFirstBy h
    obtain ⟨fallback, hfall, h⟩ := gives_still confined_findQueueForFlowStepFallback h
    split at h
    · cases h.1
    · rename_i q' hq
      have hqq : q = q' := by
        split at h
        · exact Option.some.inj h.1
        · obtain ⟨_, _, _, hq'⟩ := h.seq
          exact Option.some.inj hq'.1
      subst hqq
      rcases (Option.orElse_eq_some _ _ _).mp hq with rfl | ⟨-, hq⟩
      · exact isQueue_of_findFirst hopen
      · rcases (Option.orElse_eq_some _ _ _).mp hq with rfl | ⟨-, rfl⟩
        · exact isQueue_of_findFirstBy hany
        · exact isQueue_of_fallback hfall

theorem resolve_of_isQueue {step : StepRef} {id : Id} {q : Queue} {o : Option (Id × Queue)}
    (hstep : step.queueId = some id) (hq : IsQueue orgId (id, q) s)
    (h : (resolveQueueForFlowStep orgId branchId T step).gives s o s') :
    o = some (id, q) ∧ s' = s := by
  obtain ⟨byId, hid, h⟩ := gives_still confined_findById h
  have hbyId : byId = some q := (gives_findById.mp hid).1.trans
    (by rw [hstep]; exact Option.filter_eq_some_iff.mpr hq)
  rw [hbyId, hstep] at h
  exact h

end Queues

/-! ## The next step -/

/-- After the index `i`, the next step of the template has the index `j`. -/
structure NextIndex (orgId T : Id) (i j : ℤ) (s : Db) : Prop where
  has : HasStep orgId T j s
  after : i < j
  least : ∀ j', HasStep orgId T j' s → i < j' → j ≤ j'

/-- The template has a step after the index `i`. -/
def HasLater (orgId T : Id) (i : ℤ) (s : Db) : Prop := ∃ j, HasStep orgId T j s ∧ i < j

/-- Every row is as it was, but for steps and visits. -/
def Undisturbed (s s' : Db) : Prop :=
  ∀ k id, k ≠ .flowStep → k ≠ .visit → s'.get k id = s.get k id

section Next

variable {s s' a b c : Db} {orgId src T : Id} {i j : ℤ} {ctx : JourneyTicketContext} {e : Err}
  {C : DbWrite → Bool} {q : Queue}

theorem NextIndex.of_iff (h : ∀ j, HasStep orgId T j b ↔ HasStep orgId T j a)
    (hn : NextIndex orgId T i j b) : NextIndex orgId T i j a :=
  ⟨(h j).mp hn.has, hn.after, fun j' hj' => hn.least j' ((h j').mpr hj')⟩

theorem Undisturbed.trans (h : Undisturbed a b) (h' : Undisturbed b c) : Undisturbed a c :=
  fun k id hk hk' => (h' k id hk hk').trans (h k id hk hk')

theorem SameRows.undisturbed (h : SameRows a b) : Undisturbed a b := fun k id _ _ => h k id

theorem undisturbed_of_repairs (h : ReflTransGen (Repairs C) a b) : Undisturbed a b := by
  induction h with
  | refl => exact fun _ _ _ _ => rfl
  | tail _ hs ih =>
    obtain ⟨id', st, st', hw, -⟩ := hs
    exact ih.trans fun k id hk _ => hw.2.get_ne (by simp [hk])

theorem undisturbed_of_visits (h : ReflTransGen (VisitWritten C) a b) : Undisturbed a b := by
  induction h with
  | refl => exact fun _ _ _ _ => rfl
  | tail _ hs ih =>
    obtain ⟨id', old, v, hw⟩ := hs
    exact ih.trans fun k id _ hk => hw.2.get_ne (by simp [hk])

theorem IsQueue.of_undisturbed {x : Id × Queue} (h : Undisturbed a b) (hq : IsQueue orgId x a) :
    IsQueue orgId x b := ⟨(h .queue x.1 (by simp) (by simp)).trans hq.1, hq.2⟩

theorem gives_resolveNext {res : NextStepResolution}
    (h : (resolveNextJourneyStepTx orgId ctx).gives s res s') :
    ReflTransGen (Repairs anyWrite) s s' ∧
      (∀ n, res.nextStep = some n → ∃ q, IsQueue orgId (n.queueId, q) s) ∧
      ∃ r, (resolveStep (.tenant orgId) orgId ctx).gives s r s ∧ ∀ T i, r = some (T, i) →
        HasLater orgId T i s → res.hasLaterStep = true ∧
          ∀ n, res.nextStep = some n → NextIndex orgId T i n.stepIndex s := by
  obtain ⟨r, hr, h⟩ := gives_still confined_resolveStep h
  cases r with
  | none =>
    obtain ⟨rfl, rfl⟩ := h
    exact ⟨.refl, nofun, none, hr, nofun⟩
  | some Ti =>
    obtain ⟨o, ho, h⟩ := gives_still confined_getNextStep h
    obtain ⟨-, hnext⟩ := gives_getNextStep ho
    rcases hnext with ⟨rfl, hno⟩ | ⟨st, rfl, hhas, hlt, hmin⟩
    · obtain ⟨rfl, rfl⟩ := h
      refine ⟨.refl, nofun, some Ti, hr, fun T i hTi hlater => ?_⟩
      cases hTi
      obtain ⟨j, hj, hlt⟩ := hlater
      exact absurd (hno j hj) (not_le.mpr hlt)
    · obtain ⟨o, m, hq, h⟩ := h.seq
      obtain ⟨rfl, rfl⟩ := h
      obtain ⟨q, m', hqueue, ho⟩ := hq.seq
      have hn : ∀ n, o = some n → ∃ x, q = some x ∧ n.queueId = x.1 ∧ n.stepIndex = st.stepIndex := by
        intro n hn
        rw [show o = _ from ho.1] at hn
        obtain ⟨x, hx, rfl⟩ := Option.map_eq_some_iff.mp hn
        exact ⟨x, hx, rfl, rfl⟩
      refine ⟨(repairs_resolveStepQueue (e := .recordNotFound)).gives hq, fun n hsome => ?_, some Ti, hr,
        fun T i hTi _ => ⟨rfl, fun n hsome => ?_⟩⟩
      · obtain ⟨x, rfl, hid, -⟩ := hn n hsome
        exact ⟨x.2, hid ▸ isQueue_of_resolve hqueue⟩
      · cases hTi
        obtain ⟨x, -, -, hidx⟩ := hn n hsome
        rw [hidx]
        exact ⟨hhas, hlt, hmin⟩

theorem gives_issueNext {jc : JourneyContext} {status : TicketStatus} {next : JourneyNextStep}
    {ref : Option String} {x : Id × Ticket} (hq : IsQueue orgId (next.queueId, q) s)
    (h : (issueNext orgId jc status next ref).gives s x s') :
    q.status = .opened ∧ q.branchId = jc.ticket.branchId ∧
      (issueTicketCore orgId (advanceData jc next next.queueId q ref)).gives s x s' := by
  obtain ⟨o, m, ho, h1⟩ := h.seq
  obtain ⟨rfl, rfl⟩ := resolve_of_isQueue rfl hq ho
  obtain ⟨q', hq', h2⟩ := gives_still (confined_orThrow _ _) h1
  obtain rfl : (next.queueId, q) = q' := Option.some.inj (gives_orThrow.mp hq').1
  obtain ⟨_, hopen, h3⟩ := gives_still (confined_throwIf _ _) h2
  obtain ⟨_, hbranch, h4⟩ := gives_still (confined_throwIf _ _) h3
  exact ⟨by simpa using (gives_throwIf.mp hopen).1, by simpa using (gives_throwIf.mp hbranch).1,
    Tx.gives_mapError.mp h4⟩

theorem gives_issueTicketCore {data : IssueTicketData} {x : Id × Ticket}
    (h : (issueTicketCore orgId data).gives s x s') : IssuedOf orgId data x.2 ∧
      ∃ m, TicketsUntouched s m ∧ Wrote anyWrite .ticket x.1 none x.2 m s' := by
  obtain ⟨hof, m, hm, hw⟩ := ((triple_issueTicketCore (C := anyWrite) (e := .recordNotFound)
    (G := alone) (P := ReflTransGen (Aside anyWrite)) fun _ _ _ hbc hab => hab.tail hbc).pre
    fun a b (hab : a = b) => hab ▸ .refl).gives h
  exact ⟨hof, m, untouched_steps hm, hw⟩

end Next

/-! ## The locked transaction -/

def IssuedFor (orgId : Id) (jc : JourneyContext) (next : JourneyNextStep) (x : Id × Ticket)
    (s : Db) : Prop :=
  ∃ q ref m m', IsQueue orgId (next.queueId, q) s ∧ q.status = .opened ∧
    q.branchId = jc.ticket.branchId ∧ Undisturbed s m ∧
    (issueTicketCore orgId (advanceData jc next next.queueId q ref)).gives m x m'

/-- What the locked transaction does once it has looked up the next step. -/
structure Finalizes (orgId src : Id) (jc : JourneyContext) (res : NextStepResolution)
    (s s' : Db) : Prop where
  seen : visible (.tenant orgId) .ticket jc.ticket = true
  status : jc.ticket.status = .called ∨ jc.ticket.status = .serving
  resolved : res.nextStep = none → res.hasLaterStep = false
  finished : ∃ data now, s'.get .ticket src =
    some (transitioned jc.ticket .completed data now jc.ticket)
  last : res.nextStep = none → ∀ id, id ≠ src → s'.get .ticket id = s.get .ticket id
  next : ∀ n, res.nextStep = some n → ∃ x, IssuedFor orgId jc n x s ∧ x.1 ≠ src ∧
    s.get .ticket x.1 = none ∧ s'.get .ticket x.1 = some x.2 ∧
    ∀ id, id ≠ src → id ≠ x.1 → s'.get .ticket id = s.get .ticket id

section Locked

variable {s s' a b : Db} {orgId src : Id} {t : Ticket}

theorem gives_transition {allowed : List TicketStatus} {toStatus : TicketStatus}
    {data : TransitionData} {x : Ticket} (ht : s.get .ticket src = some t)
    (h : (transitionTicketCore orgId src allowed toStatus data).gives s x s') :
    t.status ∈ allowed ∧ (∃ now, s'.get .ticket src = some (transitioned t toStatus data now t)) ∧
      ∀ id, id ≠ src → s'.get .ticket id = s.get .ticket id := by
  obtain ⟨t', now, hst, rfl, b, hlock, hw⟩ := (triple_transitionTicketCore (C := anyWrite)
    (e := .recordNotFound) (G := alone) (P := Eq)).gives h
  obtain rfl : t = t' := Option.some.inj (ht.symm.trans hlock.untouched.1)
  refine ⟨hst, ⟨now, hw.2.get_self⟩, fun id hid => ?_⟩
  exact (hw.2.get_ne (by simpa using hid)).trans (hlock.untouched.2 id)

/-- **The locked transaction** on a ticket that is not completed yet. -/
theorem gives_finalizeTx {jc : JourneyContext} {ref : Option String} {done : Finalized}
    (ht : s.get .ticket src = some t) (hjc : jc.ticket = t) (hst : t.status ≠ .completed)
    (hg : (finalizeTx orgId src .completed ref jc).gives s done s') :
    ∃ a res b, SameRows s a ∧ (resolveNextJourneyStepTx orgId t.context).gives a res b ∧
      Finalizes orgId src jc res s s' := by
  obtain ⟨o, m1, hlock, h1⟩ := hg.seq
  obtain ⟨locked, hlocked, h2⟩ := gives_still (confined_orThrow _ _) h1
  obtain ⟨rfl, -⟩ := gives_orThrow.mp hlocked
  obtain ⟨hrow, hseen, hsame⟩ := gives_forUpdate hlock
  obtain rfl : t = locked := Option.some.inj (ht.symm.trans hrow)
  rw [if_neg hst] at h2
  obtain ⟨res, m2, hres, h3⟩ := h2.seq
  obtain ⟨_, hthrow, h4⟩ := gives_still (confined_throwIf _ _) h3
  obtain ⟨ref', m3, href, h5⟩ := h4.seq
  obtain ⟨issued, m4, hissue, h6⟩ := h5.seq
  obtain ⟨completedAt, -, h7⟩ := gives_still confined_now h6
  obtain ⟨terminal, m5, htrans, h8⟩ := h7.seq
  obtain ⟨-, rfl⟩ := h8
  obtain ⟨hrep, hqueue, -⟩ := gives_resolveNext hres
  have hundisturbed : Undisturbed m1 m3 := (undisturbed_of_repairs hrep).trans
    (undisturbed_of_visits ((visits_resolveJourneyRef (C := anyWrite) (e := .recordNotFound)).gives href))
  have huntil : TicketsUntouched s m3 := fun id =>
    (hundisturbed .ticket id (by simp) (by simp)).trans (hsame .ticket id)
  rw [hjc] at hres
  refine ⟨m1, res, m2, hsame, hres, ?_⟩
  cases hnone : res.nextStep with
  | none =>
    rw [hnone] at hissue
    obtain ⟨-, rfl⟩ := hissue
    obtain ⟨hmem, ⟨now, hfin⟩, hothers⟩ := gives_transition ((huntil src).trans ht) htrans
    refine ⟨hjc ▸ hseen, by simpa [hjc] using hmem, fun _ => ?_, ⟨_, now, hjc ▸ hfin⟩, fun _ id hid =>
      (hothers id hid).trans (huntil id), fun n hn => by rw [hnone] at hn; cases hn⟩
    have hfalse := (gives_throwIf.mp hthrow).1
    rwa [hnone] at hfalse
  | some next =>
    rw [hnone] at hissue
    obtain ⟨x, m6, hissue, hpure⟩ := hissue.seq
    obtain ⟨-, rfl⟩ := hpure
    obtain ⟨q, hq⟩ := hqueue next hnone
    obtain ⟨hopen, hbranch, hcore⟩ := gives_issueNext (hq.of_undisturbed hundisturbed) hissue
    obtain ⟨-, m, hm, hw⟩ := gives_issueTicketCore hcore
    have hold : ∀ id, m.get .ticket id = s.get .ticket id := fun id => (hm id).trans (huntil id)
    have hfresh : s.get .ticket x.1 = none := (hold x.1).symm.trans hw.2.get_old
    have hne : x.1 ≠ src := by
      rintro hx
      rw [hx, ht] at hfresh
      cases hfresh
    have hrest : ∀ id, id ≠ x.1 → m4.get .ticket id = s.get .ticket id := fun id hid =>
      (hw.2.get_ne (by simpa using hid)).trans (hold id)
    obtain ⟨hmem, ⟨now, hfin⟩, hothers⟩ := gives_transition ((hrest src hne.symm).trans ht) htrans
    refine ⟨hjc ▸ hseen, by simpa [hjc] using hmem, fun h => ?_, ⟨_, now, hjc ▸ hfin⟩,
      fun h => ?_, fun n hn => ?_⟩
    · rw [hnone] at h
      cases h
    · rw [hnone] at h
      cases h
    · rw [hnone] at hn
      cases hn
      exact ⟨x, ⟨q, _, m3, m4, ⟨(hsame .queue _).symm.trans hq.1, hq.2⟩, hopen, hbranch,
        hsame.undisturbed.trans hundisturbed, hcore⟩, hne, hfresh,
        (hothers x.1 hne).trans hw.2.get_self, fun id hid hidx =>
          (hothers id hid).trans (hrest id hidx)⟩

end Locked

/-! ## The advance -/

/-- Every row is as it was, but for repaired steps. -/
def LeftAlone (s s' : Db) : Prop := ∀ k id, k ≠ .flowStep → s'.get k id = s.get k id

/-- Of the tickets but `src` one is new: that of the step `j`, in an open queue of the branch. -/
def IssuedNext (src : Id) (t : Ticket) (j : ℤ) (s s' : Db) : Prop :=
  ∃ n t' q, s.get .ticket n = none ∧ s'.get .ticket n = some t' ∧
    t'.visitId = t.visitId ∧ t'.branchId = t.branchId ∧ t'.stepIndex = some j ∧
    s.get .queue t'.queueId = some q ∧ q.status = .opened ∧ q.branchId = t.branchId ∧
    ∀ id, id ≠ src → id ≠ n → s'.get .ticket id = s.get .ticket id

/-- **The advance**: the ticket is completed; and where the template it resolves to, as `R` says, has a
later step, the ticket of the next one is issued. -/
structure Advanced (R : Option (Id × ℤ) → Prop) (orgId src : Id) (t : Ticket) (s s' : Db) : Prop where
  completed : ∃ t', s'.get .ticket src = some t' ∧ t'.status = .completed
  issued : ∃ r, R r ∧ ∀ T i, r = some (T, i) → HasLater orgId T i s →
    ∃ j, NextIndex orgId T i j s ∧ IssuedNext src t j s s'

def ResolvesUnderLock (s : Db) (orgId : Id) (t : Ticket) (r : Option (Id × ℤ)) : Prop :=
  ∃ a, SameRows s a ∧ (resolveStep (.tenant orgId) orgId t.context).gives a r a

/-- The template and the index the ticket resolves to, after the early checks. -/
def Resolves (s : Db) (orgId : Id) (t : Ticket) (r : Option (Id × ℤ)) : Prop :=
  ∃ jc a, jc.ticket = t ∧ (preCheck orgId jc).gives s (.ok ()) a ∧ ResolvesUnderLock a orgId t r

section Advance

variable {C : DbWrite → Bool} {R R' : Option (Id × ℤ) → Prop} {s s' a b : Db} {orgId src T : Id}
  {i j : ℤ} {t : Ticket}

theorem leftAlone_of_repairs (h : ReflTransGen (Repairs C) a b) : LeftAlone a b := by
  induction h with
  | refl => exact fun _ _ _ => rfl
  | tail _ hs ih =>
    obtain ⟨id', st, st', hw, -⟩ := hs
    exact fun k id hk => (hw.2.get_ne (by simp [hk])).trans (ih k id hk)

theorem IssuedNext.of_leftAlone (hl : LeftAlone s a) (h : IssuedNext src t j a s') :
    IssuedNext src t j s s' := by
  obtain ⟨n, t', q, hn, ht', hv, hb, hi, hq, hopen, hbranch, hrest⟩ := h
  rw [hl .ticket n (by simp)] at hn
  rw [hl .queue _ (by simp)] at hq
  exact ⟨n, t', q, hn, ht', hv, hb, hi, hq, hopen, hbranch, fun id hid hne =>
    (hrest id hid hne).trans (hl .ticket id (by simp))⟩

theorem IssuedNext.untouched (h : IssuedNext src t j s a) (hu : TicketsUntouched a s') :
    IssuedNext src t j s s' := by
  obtain ⟨n, t', q, hn, ht', hv, hb, hi, hq, hopen, hbranch, hrest⟩ := h
  exact ⟨n, t', q, hn, (hu n).trans ht', hv, hb, hi, hq, hopen, hbranch, fun id hid hne =>
    (hu id).trans (hrest id hid hne)⟩

theorem Advanced.of_repairs (hr : ReflTransGen (Repairs anyWrite) s a) (hR : ∀ r, R r → R' r)
    (h : Advanced R orgId src t a s') : Advanced R' orgId src t s s' := by
  obtain ⟨r, hres, hnext⟩ := h.issued
  refine ⟨h.completed, r, hR r hres, fun T i hTi ⟨k, hk, hlt⟩ => ?_⟩
  obtain ⟨j, hj, hissued⟩ := hnext T i hTi ⟨k, (repairs_hasStep hr).mpr hk, hlt⟩
  exact ⟨j, hj.of_iff fun _ => repairs_hasStep hr, hissued.of_leftAlone (leftAlone_of_repairs hr)⟩

theorem Advanced.untouched (h : Advanced R orgId src t s a) (hu : TicketsUntouched a s') :
    Advanced R orgId src t s s' := by
  obtain ⟨t', ht', hst⟩ := h.completed
  obtain ⟨r, hr, hnext⟩ := h.issued
  refine ⟨⟨t', (hu src).trans ht', hst⟩, r, hr, fun T i hTi hlater => ?_⟩
  obtain ⟨j, hj, hissued⟩ := hnext T i hTi hlater
  exact ⟨j, hj, hissued.untouched hu⟩

theorem IssuedFor.issuedNext {jc : JourneyContext} {next : JourneyNextStep} {x : Id × Ticket} {v : Id}
    (h : IssuedFor orgId jc next x s) (hv : jc.ticket.visitId = some v)
    (hold : s.get .ticket x.1 = none) (hnew : s'.get .ticket x.1 = some x.2)
    (hrest : ∀ id, id ≠ src → id ≠ x.1 → s'.get .ticket id = s.get .ticket id) :
    IssuedNext src jc.ticket next.stepIndex s s' := by
  obtain ⟨q, ref, m, m', hq, hopen, hbranch, -, hcore⟩ := h
  obtain ⟨⟨_, visitId, _, _, stepIndex, _, _, hx, hvisit, hstep⟩, -⟩ := gives_issueTicketCore hcore
  refine ⟨x.1, x.2, q, hold, hnew, ?_, ?_, ?_, ?_, hopen, hbranch, hrest⟩
  · rw [hx, hv]
    exact hvisit v hv
  · rw [hx]
    rfl
  · rw [hx]
    exact hstep _ rfl
  · rw [hx]
    exact hq.1

/-- **The locked transaction** advances the ticket. -/
theorem advanced_of_finalizeTx {jc : JourneyContext} {ref : Option String} {done : Finalized} {v : Id}
    (ht : s.get .ticket src = some t) (hjc : jc.ticket = t) (hv : t.visitId = some v)
    (hst : t.status ≠ .completed)
    (hg : (finalizeTx orgId src .completed ref jc).gives s done s') :
    Advanced (ResolvesUnderLock s orgId t) orgId src t s s' := by
  obtain ⟨a, res, b, hsame, hres, hfin⟩ := gives_finalizeTx ht hjc hst hg
  obtain ⟨-, -, r, hr, hnext⟩ := gives_resolveNext hres
  obtain ⟨data, now, hself⟩ := hfin.finished
  refine ⟨⟨_, hself, transitioned_status ..⟩, r, ⟨a, hsame, hr⟩, fun T i hTi ⟨k, hk, hlt⟩ => ?_⟩
  obtain ⟨hlater, hn⟩ := hnext T i hTi ⟨k, hsame.hasStep.mpr hk, hlt⟩
  cases hnone : res.nextStep with
  | none => exact absurd hlater (by simp [hfin.resolved hnone])
  | some next =>
    obtain ⟨x, hx, -, hold, hnew, hrest⟩ := hfin.next next hnone
    subst hjc
    exact ⟨next.stepIndex, (hn next hnone).of_iff fun _ => hsame.hasStep,
      hx.issuedNext hv hold hnew hrest⟩

end Advance

/-! ## The request -/

section Request

variable {C : DbWrite → Bool} {e : Err} {s s' : Db} {orgId src : Id} {t : Ticket}
  {E : Db → Db → Prop} {I : Db → Prop}

theorem walks_rejectIf (b : Bool) (e' : Err) : Call.Walks E (rejectIf b e') :=
  .ite (.throw _) (.pure _)

theorem walks_resolveNextJourneyStep {ctx : JourneyTicketContext} :
    Call.Walks (Repairs anyWrite) (resolveNextJourneyStep orgId ctx) := by
  refine .bind .input fun _ => .bind (.tx (e := .recordNotFound) confined_resolveStep) fun step => ?_
  cases step with
  | none => exact .pure _
  | some st =>
    refine .bind (.tx (e := .recordNotFound) confined_getNextStep) fun next => ?_
    cases next with
    | none => exact .pure _
    | some n => exact .tx (e := .recordNotFound) repairs_resolveStepQueue

theorem walks_getNextStepResolutionFailure {ctx : JourneyTicketContext} :
    Call.Walks (Repairs anyWrite) (getNextStepResolutionFailure orgId ctx) := by
  refine .bind .input fun _ => .bind (.tx (e := .recordNotFound) confined_resolveStep) fun step => ?_
  cases step with
  | none => exact .pure _
  | some st =>
    refine .bind (.tx (e := .recordNotFound) confined_getNextStep) fun next => ?_
    cases next with
    | none => exact .pure _
    | some n =>
      exact .bind (.tx (e := .recordNotFound) repairs_resolveStepQueue) fun _ => .pure _

/-- The early errors come with repaired steps at most. -/
theorem walks_preCheck {jc : JourneyContext} :
    Call.Walks (Repairs anyWrite) (preCheck orgId jc) :=
  .bind walks_resolveNextJourneyStep fun _ => .ite (.pure _)
    (.bind walks_getNextStepResolutionFailure fun _ => .bind (walks_rejectIf _ _) fun _ =>
      .bind .input fun _ =>
      .bind (.tx (e := .recordNotFound) confined_isQueueJourneyManaged) fun _ =>
      .bind (.tx (e := .recordNotFound) confined_resolveFlowTemplateId) fun _ => walks_rejectIf _ _)

theorem walks_refreshVisitStatus (v : Option Id) :
    Call.Walks (Aside anyWrite) (refreshVisitStatus orgId v) := by
  cases v with
  | none => exact .pure _
  | some v => exact .bind .input fun _ => .tx (e := .recordNotFound) confined_refreshVisitTx

theorem keeps_emitTransitionSideEffects {x : Ticket}
    (hI : ∀ s', ReflTransGen (Aside anyWrite) s s' → I s') :
    Call.Keeps I (fun r s' => r = .ok () ∧ ReflTransGen (Aside anyWrite) s s')
      (emitTransitionSideEffects x) s := by
  have hw : Call.Walks (Aside anyWrite) (emitTransitionSideEffects x) :=
    .handle (.bind (walks_refreshVisitStatus _) fun _ => .pure _) fun _ => .pure _
  refine ⟨fun s' hp => hI s' (hw s s' hp), fun r s' hg => ⟨?_, hw.gives hg⟩⟩
  rcases Call.gives_handle hg with ⟨_, rfl, -⟩ | ⟨_, _, -, hr⟩
  · rfl
  · exact hr.1

/-- A transaction that only reads. -/
theorem keeps_still {α : Type} {x : TTx α}
    (h : Confined anyWrite Err.recordNotFound alone (fun _ _ => False) x) (hI : I s) :
    Call.Keeps I (fun r s' => s' = s ∧ ∀ b, r = .ok b → x.gives s b s) (withTenant x) s := by
  refine .tx hI (fun b s' hb => ?_) fun e' => ⟨rfl, nofun⟩
  obtain rfl := h.gives_still hb
  refine ⟨hI, rfl, fun b' hb' => ?_⟩
  cases hb'
  exact hb

/-- **A rule for `complete`** on a ticket that is there: early checks, the locked transaction, the
refresh of the visit. -/
theorem keeps_complete {Q : Except Err Finalized → Db → Prop} {ref : Option String}
    {surface : ActionSurface} (ht : s.get .ticket src = some t)
    (hearly : ∀ a, ReflTransGen (Repairs anyWrite) s a → I a ∧ ∀ e, Q (.error e) a)
    (hfin : ∀ jc a done b c, jc.ticket = t → (preCheck orgId jc).gives s (.ok ()) a →
      ReflTransGen (Repairs anyWrite) s a → (finalizeTx orgId src .completed ref jc).gives a done b →
      ReflTransGen (Aside anyWrite) b c → I c ∧ Q (.ok done) c) :
    Call.Keeps I Q (complete orgId src ref surface) s := by
  refine .bind (keeps_still confined_assertActionSurfaceForTicket (hearly s .refl).1)
    (fun _ m hm => ?_) fun e m hm => hm.1 ▸ (hearly s .refl).2 e
  obtain ⟨rfl, -⟩ := hm
  refine .bind (keeps_still (.bind confined_assertDeskOfTicket fun _ =>
    .bind (confined_orThrow _ _) fun _ => .pure _) (hearly m .refl).1)
    (fun _ u hu => ?_) fun e u hu => hu.1 ▸ (hearly m .refl).2 e
  obtain ⟨rfl, -⟩ := hu
  refine .bind (keeps_still (.bind confined_findById fun _ => .bind (confined_orThrow _ _) fun _ =>
    .bind confined_findById fun _ => .pure _) (hearly u .refl).1) (fun jc m hjc => ?_)
    fun e m hm => hm.1 ▸ (hearly u .refl).2 e
  obtain ⟨rfl, hjc⟩ := hjc
  have hticket : jc.ticket = t := by
    obtain ⟨o, ho, h1⟩ := gives_still confined_findById (hjc jc rfl)
    obtain ⟨x, hx, h2⟩ := gives_still (confined_orThrow _ _) h1
    obtain ⟨q, -, h3⟩ := gives_still confined_findById h2
    obtain ⟨rfl, -⟩ := gives_orThrow.mp hx
    have hrow := (Option.filter_eq_some_iff.mp (gives_findById.mp ho).1.symm).1
    exact (congrArg JourneyContext.ticket h3.1).trans (Option.some.inj (hrow.symm.trans ht))
  refine .bind (.walks walks_preCheck fun a ha => (hearly a ha).1) (fun _ a ha => ?_)
    fun e a ha => (hearly a ha.2).2 e
  refine .bind (Q := fun r b => (∃ e, r = .error e ∧ b = a) ∨ ∃ done, r = .ok done ∧
    (finalizeTx orgId src .completed ref jc).gives a done b) (.tx (hearly a ha.2).1
    (fun done b hb => ⟨(hfin jc a done b b hticket ha.1 ha.2 (Tx.gives_mapError.mp hb) .refl).1,
      Or.inr ⟨done, rfl, Tx.gives_mapError.mp hb⟩⟩) fun e => Or.inl ⟨e, rfl, rfl⟩)
    (fun done b hb => ?_) fun e b hb => ?_
  · obtain ⟨e, he, -⟩ | ⟨done', hdone, hb⟩ := hb
    · cases he
    · cases hdone
      refine .bind (keeps_emitTransitionSideEffects fun c hc =>
        (hfin jc a done b c hticket ha.1 ha.2 hb hc).1)
        (fun _ c hc => ?_) nofun
      obtain ⟨hI, hQ⟩ := hfin jc a done b c hticket ha.1 ha.2 hb hc.2
      exact .pure hI hQ
  · obtain ⟨e', he, rfl⟩ | ⟨done', hdone, -⟩ := hb
    · exact (hearly b ha.2).2 e
    · cases hdone

/-- What `complete` comes to: an advance, or an error and nothing done but for repaired steps. -/
def Completes (orgId src : Id) (t : Ticket) (s : Db) {α : Type} : Except Err α → Db → Prop
  | .ok _, s' => Advanced (Resolves s orgId t) orgId src t s s'
  | .error _, s' => LeftAlone s s'

theorem completes_of_visit {v : Id} {ref : Option String} {surface : ActionSurface}
    (ht : s.get .ticket src = some t) (hv : t.visitId = some v) (hst : t.status ≠ .completed) :
    Call.Keeps (fun s' => LeftAlone s s' ∨ Advanced (Resolves s orgId t) orgId src t s s')
      (Completes orgId src t s) (complete orgId src ref surface) s := by
  refine keeps_complete ht (fun a ha => ⟨Or.inl (leftAlone_of_repairs ha), fun _ =>
    leftAlone_of_repairs ha⟩) fun jc a done b c hjc hcheck ha hb hc => ?_
  have hrow : a.get .ticket src = some t := (leftAlone_of_repairs ha .ticket src (by simp)).trans ht
  have hresolves : ∀ r, ResolvesUnderLock a orgId t r → Resolves s orgId t r := fun r hr =>
    ⟨jc, a, hjc, hcheck, hr⟩
  have hadv := ((advanced_of_finalizeTx hrow hjc hv hst hb).of_repairs ha hresolves).untouched
    (untouched_steps hc)
  exact ⟨Or.inr hadv, hadv⟩

end Request

section Runs

variable {P : Run → ℕ → Prop} {s : Db} {c : Run} {orgId src v : Id} {t : Ticket}
  {ref : Option String} {surface : ActionSurface}

/-- **Completion is atomic.** A ticket of a visit that is called or serving: at every moment of the
request nothing has been done, but for repaired steps, or the ticket is completed and the ticket of its
next step is issued. An error comes with the former, a result with the latter. -/
theorem complete_atomic (h : Reach P (start s [.complete orgId src ref surface]) c)
    (ht : s.get .ticket src = some t) (hv : t.visitId = some v)
    (hst : t.status = .called ∨ t.status = .serving) :
    (LeftAlone s c.db ∨ Advanced (Resolves s orgId t) orgId src t s c.db) ∧
      (∀ e, .answer (.error e) ∈ c.histOf 0 → LeftAlone s c.db) ∧
      ∀ a, .answer (.ok a) ∈ c.histOf 0 → Advanced (Resolves s orgId t) orgId src t s c.db := by
  have hne : t.status ≠ .completed := by
    rcases hst with hst | hst <;> simp [hst]
  have hkeeps : Call.Keeps (fun s' => LeftAlone s s' ∨ Advanced (Resolves s orgId t) orgId src t s s')
      (Completes orgId src t s) (Request.run (.complete orgId src ref surface)) s :=
    .bind (completes_of_visit ht hv hne) (fun _ m hm => .pure (Or.inr hm) hm) fun _ _ h => h
  obtain ⟨hpass, hans⟩ := reach_gives h
  exact ⟨hkeeps.passes _ hpass, fun e he => hkeeps.gives _ _ (hans _ he),
    fun a ha => hkeeps.gives _ _ (hans _ ha)⟩

end Runs

/-- The ticket of the first step is completed, and that of the second is issued. -/
theorem complete_atomic_shop : ∃ c, Reach Always (start journeyShop [.complete 1 1 none .classic]) c ∧
    (c.db.get .ticket 2).map (fun t => (t.stepIndex, t.status)) = some (some 1, .waiting) ∧
    ∃ a, .answer (.ok a) ∈ c.histOf 0 ∧
      Advanced (Resolves journeyShop 1 atFirstStep) 1 1 atFirstStep journeyShop c.db := by
  obtain ⟨c, hc, hp⟩ := exists_reach_anywhere
    (start journeyShop [.complete 1 1 none .classic]) (turns 0 71 ++ [(0, .go 2)] ++ turns 0 14)
    (fun c => answeredOk 0 c && decide ((c.db.get .ticket 2).map (fun t => (t.stepIndex, t.status)) =
      some (some 1, .waiting))) (by decide +kernel)
  simp only [Bool.and_eq_true, decide_eq_true_eq] at hp
  obtain ⟨r, hr, hok⟩ := List.any_eq_true.mp hp.1
  cases r with
  | error e => cases hok
  | ok a =>
    have hans := Config.mem_answersOf.mp hr
    exact ⟨c, hc, hp.2, a, hans, (complete_atomic hc (by decide +kernel) rfl (Or.inr rfl)).2.2 a hans⟩

end PatronLoyalty.Ticketing
