import PatronLoyalty.Ticketing.Requests

/-!
# Specifications of the ticket services

One specification for each function of the services, for its body under a check `C` of its writes: a
body that reads, or that leaves the tickets alone (`Aside`), is confined to that; the bodies that write
tickets have a Hoare triple.

Results: **`triple_transitionTicketCore`**, **`triple_callNextTx`**, **`triple_callSpecificTx`** and
**`triple_cancelTx`**: the ticket that is written is the one that was locked and looked at (`Rewrote`).
-/

namespace PatronLoyalty.Ticketing

open Txn Relation
open Txn.Rel (Wrote)
open Loyalty (Id Err truthy trim)

/-! ## Statements -/

section Statements

variable {C : DbWrite → Bool} {e : Err} {G : Guarantee Db} {E P : Db → Db → Prop} {α β : Type}

theorem confined_throwIf (b : Bool) (e' : Err) : Confined C e G E (throwIf b e') :=
  .ite (.throw _) (.pure _)

theorem confined_orThrow (e' : Err) (o : Option α) : Confined C e G E (orThrow e' o) := by
  cases o with
  | none => exact .throw _
  | some a => exact .pure _

theorem confined_flag : Confined C e G E flag := .bind .input fun _ => .pure _

theorem confined_mayRefuse (e' : Err) : Confined C e G E (mayRefuse e') :=
  .bind confined_flag fun _ => .ite (.throw _) (.pure _)

variable {k : Kind} {id : Id} {scope : Scope} {orgId : Id} {p : Id → Row k → Bool}
  {f : Row k → Row k}

theorem confined_findById : Confined C e G E (findById scope k id) := .read _

theorem confined_findFirst : Confined C e G E (findFirst scope k p) :=
  .findFirst _

theorem confined_findFirstBy {le : Row k → Row k → Bool} :
    Confined C e G E (findFirstBy scope k p le) := .findFirst _

theorem confined_findMany : Confined C e G E (findMany scope k p) := .read _

theorem confined_findManyBy {le : Row k → Row k → Bool} :
    Confined C e G E (findManyBy scope k p le) := .read _

theorem confined_count : Confined C e G E (count scope k p) := .read _

theorem confined_now : Confined C e G E now := .now

theorem confined_forUpdate (h : ∀ r a b, Wrote C k id (some r) r a b → E a b) :
    Confined C e G E (forUpdate orgId k id) := .lock fun r a b _ hw => h r a b hw

theorem confined_update (h : ∀ r a b, Wrote C k id (some r) (f r) a b → E a b) :
    Confined C e G E (update orgId k id f) := by
  refine .modify fun r r' a b hf hw => ?_
  split at hf
  · cases hf
    exact h r a b hw
  · cases hf

theorem confined_create {r : Row k} (h : ∀ id a b, Wrote C k id none r a b → E a b) :
    Confined C e G E (create k r) :=
  .bind .input fun id => .bind (.insert (h id)) fun _ => .pure _

theorem confined_updateMany (hk : ∀ r, uniqueKeys k (f r) = uniqueKeys k r)
    (h : ∀ id r a b, Wrote C k id (some r) (f r) a b → E a b) :
    Confined C e G E (updateMany orgId k p f) :=
  .modifyAll (fun r u (hu : u ∈ uniqueKeys k (f r)) => by rw [hk r] at hu; exact hu)
    fun id r a b _ hw => h id r a b hw

theorem triple_forUpdate {Q : Option (Row k) → Db → Db → Prop}
    (h : ∀ r a b c, P a b → visible (.tenant orgId) k r = true → Wrote C k id (some r) r b c →
      Q (some r) a c)
    (h0 : ∀ a b, P a b → Q none a b) : Triple C e G P (forUpdate orgId k id) Q := .lock h h0

theorem triple_update {Q : Row k → Db → Db → Prop}
    (h : ∀ r a b c, P a b → visible (.tenant orgId) k r = true →
      Wrote C k id (some r) (f r) b c → Q (f r) a c) :
    Triple C e G P (update orgId k id f) Q := by
  refine .modify fun r r' a b c hp hf hw => ?_
  split at hf
  · rename_i hv
    cases hf
    exact h r a b c hp hv hw
  · cases hf

theorem triple_create {Q : Id → Db → Db → Prop} {r : Row k}
    (h : ∀ id a b c, P a b → Wrote C k id none r b c → Q id a c) :
    Triple C e G P (create k r) Q :=
  .bind (.input (Q := fun _ => P) fun _ _ _ hp => hp) fun id =>
    .bind (.insert (Q := fun _ => Q id) fun a b c hp hw => h id a b c hp hw) fun _ =>
    .pure fun _ _ hq => hq

theorem triple_throwIf {b : Bool} {e' : Err} {Q : Unit → Db → Db → Prop}
    (h : ∀ a c, b = false → P a c → Q () a c) : Triple C e G P (throwIf b e') Q := by
  unfold throwIf
  split
  · exact .throw
  · rename_i hb
    exact .pure fun a c hp => h a c (Bool.eq_false_iff.mpr hb) hp

theorem triple_orThrow {e' : Err} {o : Option α} {Q : α → Db → Db → Prop}
    (h : ∀ x a c, o = some x → P a c → Q x a c) : Triple C e G P (orThrow e' o) Q := by
  cases o with
  | none => exact .throw
  | some x => exact .pure fun a c hp => h x a c rfl hp

end Statements

/-! ## What leaves the tickets alone -/

/-- A queue but for its counter and its session. -/
def Numbered (q q' : Queue) : Prop :=
  q' = { q with
    nextTicketSeq := q'.nextTicketSeq, sessionOpenedAt := q'.sessionOpenedAt
    sessionClosesAt := q'.sessionClosesAt }

/-- A step that leaves the tickets alone. -/
inductive Aside (C : DbWrite → Bool) (a b : Db) : Prop
  | visit {id : Id} {old : Option Visit} {v : Visit} (h : Wrote C .visit id old v a b)
  | customer {id : Id} {old : Option Customer} {c : Customer} (h : Wrote C .customer id old c a b)
  | flowStep {id : Id} {old st : BranchFlowStep} (h : Wrote C .flowStep id (some old) st a b)
  | queue {id : Id} {q q' : Queue} (h : Wrote C .queue id (some q) q' a b) (hn : Numbered q q')

/-- A step before a ticket is issued: its visit, its customer or the counter of a queue is written. -/
inductive Preparing (C : DbWrite → Bool) (a b : Db) : Prop
  | visit {id : Id} {old : Option Visit} {v : Visit} (h : Wrote C .visit id old v a b)
  | customer {id : Id} {old : Option Customer} {c : Customer} (h : Wrote C .customer id old c a b)
  | queue {id : Id} {q q' : Queue} (h : Wrote C .queue id (some q) q' a b) (hn : Numbered q q')

variable {C : DbWrite → Bool} {a b : Db}

theorem Preparing.aside (h : Preparing C a b) : Aside C a b := by
  cases h with
  | visit h => exact .visit h
  | customer h => exact .customer h
  | queue h hn => exact .queue h hn

/-- A step but for its queue and its service. -/
def Repaired (st st' : BranchFlowStep) : Prop :=
  st' = { st with queueId := st'.queueId, serviceId := st'.serviceId }

def Repairs (C : DbWrite → Bool) (a b : Db) : Prop :=
  ∃ id st st', Wrote C .flowStep id (some st) st' a b ∧ Repaired st st'

theorem Repairs.aside (h : Repairs C a b) : Aside C a b := by
  obtain ⟨id, st, st', hw, -⟩ := h
  exact .flowStep hw

def VisitWritten (C : DbWrite → Bool) (a b : Db) : Prop := ∃ id old v, Wrote C .visit id old v a b

theorem VisitWritten.preparing (h : VisitWritten C a b) :
    Preparing C a b := by
  obtain ⟨id, old, v, hw⟩ := h
  exact .visit hw

theorem VisitWritten.aside (h : VisitWritten C a b) :
    Aside C a b := by
  obtain ⟨id, old, v, hw⟩ := h
  exact .visit hw

def TicketsUntouched (a b : Db) : Prop := ∀ id, b.get .ticket id = a.get .ticket id

theorem TicketsUntouched.refl (a : Db) : TicketsUntouched a a := fun _ => rfl

theorem TicketsUntouched.trans {c : Db} (h : TicketsUntouched a b) (h' : TicketsUntouched b c) :
    TicketsUntouched a c := fun id => (h' id).trans (h id)

theorem Aside.untouched (h : Aside C a b) :
    TicketsUntouched a b := by
  intro id
  cases h with
  | visit h => exact h.2.get_ne (by simp)
  | customer h => exact h.2.get_ne (by simp)
  | flowStep h => exact h.2.get_ne (by simp)
  | queue h _ => exact h.2.get_ne (by simp)

theorem untouched_steps (h : ReflTransGen (Aside C) a b) :
    TicketsUntouched a b := by
  induction h with
  | refl => exact .refl a
  | tail _ hs ih => exact ih.trans hs.untouched

/-! ## Checks and flows -/

section Reads

variable {C : DbWrite → Bool} {e : Err} {G : Guarantee Db} {E : Db → Db → Prop} {scope : Scope}
  {branchId orgId queueId : Id}

theorem confined_resolveEffectiveJourneyMode {serviceId : Id} :
    Confined C e G E (resolveEffectiveJourneyMode scope orgId branchId serviceId queueId) :=
  .bind confined_findFirst fun _ => .bind confined_findFirst fun _ =>
    .bind confined_findFirst fun _ => .bind confined_findFirst fun _ => .pure _

theorem confined_isVisitJourneysEnabledForOrg :
    Confined C e G E (isVisitJourneysEnabledForOrg orgId) :=
  .bind confined_flag fun _ => .bind confined_flag fun _ => .bind (.read _) fun _ => .pure _

theorem confined_resolveQueueCallingPolicy :
    Confined C e G E (resolveQueueCallingPolicy orgId queueId) := by
  refine .bind confined_findById fun queue => ?_
  cases queue with
  | none => exact .pure _
  | some q =>
    refine .bind confined_findFirst fun step => ?_
    cases step with
    | none => exact .pure _
    | some st => exact .pure _

theorem confined_assertBranchAcceptsCustomerIntake (label : String) :
    Confined C e G E (assertBranchAcceptsCustomerIntake label) := confined_mayRefuse _

theorem confined_assertStaffQueueActionAllowed {label : String} {gate : BranchOperationalGate} :
    Confined C e G E (assertStaffQueueActionAllowed orgId queueId branchId label gate) := by
  refine .bind confined_findById fun _ => .bind (confined_orThrow _ _) fun _ =>
    .bind (confined_throwIf _ _) fun _ => .bind (confined_throwIf _ _) fun _ => ?_
  cases gate with
  | customerIntake => exact confined_assertBranchAcceptsCustomerIntake label
  | queueStatusOnly => exact .pure _

theorem confined_assertClassicDeskAssignmentForBranch (desk : Option String) :
    Confined C e G E (assertClassicDeskAssignmentForBranch desk) := by
  refine .bind (confined_mayRefuse _) fun _ => ?_
  split
  · exact confined_mayRefuse _
  · exact .pure _

theorem confined_assertClassicDesk (surface : ActionSurface) (desk : Option String) :
    Confined C e G E (assertClassicDesk surface desk) := by
  cases surface with
  | classic => exact confined_assertClassicDeskAssignmentForBranch desk
  | workbench => exact .pure _

theorem confined_assertDesk (surface : ActionSurface) (desk action : String) :
    Confined C e G E (assertDesk surface desk action) := by
  cases surface with
  | classic =>
    exact .bind (confined_assertClassicDeskAssignmentForBranch _) fun _ => confined_mayRefuse _
  | workbench => exact confined_mayRefuse _

theorem confined_isQueueJourneyManaged :
    Confined C e G E (isQueueJourneyManaged scope orgId queueId) :=
  .bind confined_findFirst fun _ => .pure _

theorem confined_assertActionSurfaceForQueue {surface : ActionSurface} :
    Confined C e G E (assertActionSurfaceForQueue orgId queueId surface) :=
  .bind confined_isQueueJourneyManaged fun _ => .bind confined_flag fun _ => confined_throwIf _ _

theorem confined_assertActionSurfaceForTicket {ticketId : Id} {surface : ActionSurface} :
    Confined C e G E (assertActionSurfaceForTicket orgId ticketId surface) :=
  .bind confined_findById fun _ => .bind (confined_orThrow _ _) fun _ =>
    .bind confined_isQueueJourneyManaged fun _ => .bind confined_flag fun _ => confined_throwIf _ _

theorem confined_resolveFlowTemplateId {ticketTemplateId : Option Id} :
    Confined C e G E (resolveFlowTemplateId scope orgId branchId queueId ticketTemplateId) := by
  cases ticketTemplateId with
  | some id => exact .pure _
  | none =>
    refine .bind confined_findFirst fun queue => ?_
    split
    · exact .pure _
    · exact .bind confined_findFirst fun _ => .pure _

theorem confined_firstStep {p : BranchFlowStep → Bool} :
    Confined C e G E (firstStep scope p) := .bind confined_findFirstBy fun _ => .pure _

theorem confined_resolveFlowStepIndexForQueue {visitId : Option Id} :
    Confined C e G E (resolveFlowStepIndexForQueue scope orgId branchId queueId visitId) := by
  refine .bind confined_resolveFlowTemplateId fun templateId => ?_
  cases templateId with
  | none => exact .pure _
  | some id =>
    refine .bind confined_findMany fun _ => .bind confined_firstStep fun _ =>
      .bind confined_firstStep fun _ => .bind confined_findFirst fun _ =>
      .bind confined_firstStep fun _ => ?_
    split
    · exact .ite (.pure _) (.pure _)
    · exact .pure _

theorem confined_getNextStep {templateId : Id} {i : ℤ} :
    Confined C e G E (getNextStep orgId templateId i) := confined_firstStep

theorem confined_findQueueForFlowStepFallback {templateId serviceId : Id} {i : ℤ} :
    Confined C e G E (findQueueForFlowStepFallback orgId branchId templateId i serviceId) := by
  refine .bind confined_firstStep fun _ => .bind confined_findById fun _ =>
    .bind confined_findFirstBy fun _ => .bind confined_findManyBy fun _ =>
    .bind confined_findManyBy fun _ => .bind confined_findFirstBy fun _ => ?_
  split
  · exact .pure _
  · exact .pure _
  · exact .pure _

theorem confined_resolveStep {ticket : JourneyTicketContext} :
    Confined C e G E (resolveStep scope orgId ticket) := by
  unfold resolveStep
  split
  · exact .pure _
  · refine .bind confined_resolveFlowStepIndexForQueue fun _ =>
      .bind confined_resolveFlowTemplateId fun _ => ?_
    split
    · exact .pure _
    · exact .pure _

end Reads

/-! ## Bodies that leave the tickets alone -/

section Asides

variable {C : DbWrite → Bool} {e : Err} {G : Guarantee Db} {branchId orgId templateId visitId : Id}
  {ref : Option String} {step : StepRef} {scope : Scope} {ticket : Ticket} {data : IssueTicketData}
  {E : Db → Db → Prop}

theorem visits_persistVisitExternalRef {ref : String} :
    Confined C e G (VisitWritten C) (persistVisitExternalRef orgId visitId ref) :=
  .bind (confined_update fun _ _ _ hw => ⟨_, _, _, hw⟩) fun _ => .pure _

theorem visits_resolveVisitExternalRef :
    Confined C e G (VisitWritten C) (resolveVisitExternalRef orgId visitId ref) := by
  unfold resolveVisitExternalRef
  split
  · exact .bind visits_persistVisitExternalRef fun _ => .pure _
  · refine .bind confined_findById fun _ => ?_
    split
    · exact .pure _
    · refine .bind confined_findFirstBy fun _ => ?_
      split
      · exact .bind visits_persistVisitExternalRef fun _ => .pure _
      · exact .pure _

theorem confined_resolveVisitExternalRef :
    Confined C e G (Aside C) (resolveVisitExternalRef orgId visitId ref) :=
  visits_resolveVisitExternalRef.mono fun _ _ => VisitWritten.aside

theorem repairs_repairFlowStep :
    Confined C e G (Repairs C) (repairFlowStep orgId branchId templateId step) := by
  refine .bind confined_findFirst fun _ => .bind confined_findFirstBy fun _ =>
    .bind confined_findQueueForFlowStepFallback fun _ => ?_
  split
  · exact .pure _
  · exact .ite (.pure _) (.bind (confined_updateMany (fun _ => rfl) fun id st _ _ hw =>
      ⟨id, st, _, hw, rfl⟩) fun _ => .pure _)

theorem repairs_resolveQueueForFlowStep :
    Confined C e G (Repairs C) (resolveQueueForFlowStep orgId branchId templateId step) := by
  refine .bind confined_findById fun _ => ?_
  split
  · exact .pure _
  · exact repairs_repairFlowStep

theorem confined_resolveQueueForFlowStep :
    Confined C e G (Aside C) (resolveQueueForFlowStep orgId branchId templateId step) :=
  repairs_resolveQueueForFlowStep.mono fun _ _ => Repairs.aside

theorem repairs_resolveStepQueue {st : BranchFlowStep} :
    Confined C e G (Repairs C) (resolveStepQueue orgId branchId templateId st) :=
  .bind repairs_resolveQueueForFlowStep fun _ => .pure _

theorem confined_resolveStepQueue {st : BranchFlowStep} :
    Confined C e G (Aside C) (resolveStepQueue orgId branchId templateId st) :=
  repairs_resolveStepQueue.mono fun _ _ => Repairs.aside

theorem confined_resolveNextJourneyStepIn {ticket : JourneyTicketContext} :
    Confined C e G (Aside C) (resolveNextJourneyStepIn scope orgId ticket) := by
  refine .bind confined_resolveStep fun _ => ?_
  split
  · exact .pure _
  · refine .bind confined_getNextStep fun _ => ?_
    split
    · exact .pure _
    · exact .bind confined_resolveStepQueue fun _ => .pure _

theorem numbered_refl (q : Queue) : Numbered q q := rfl

theorem prepares_reserveQueueDisplayNumber {queueId : Id} :
    Confined C e G (Preparing C) (reserveQueueDisplayNumber orgId queueId) := by
  refine .bind (confined_forUpdate fun q _ _ hw => .queue hw (numbered_refl q)) fun _ =>
    .bind (confined_orThrow _ _) fun _ => .bind (confined_throwIf _ _) fun _ =>
    .bind confined_now fun _ => .bind .input fun _ => .bind (confined_update ?_) fun _ => .pure _
  intro q a b hw
  refine .queue hw ?_
  split
  · rfl
  · rfl

theorem confined_reserveQueueDisplayNumber {queueId : Id} :
    Confined C e G (Aside C) (reserveQueueDisplayNumber orgId queueId) :=
  prepares_reserveQueueDisplayNumber.mono fun _ _ => Preparing.aside

theorem visits_reopenVisit (status : VisitStatus) :
    Confined C e G (VisitWritten C) (visitForIssue.reopenVisit orgId visitId status) := by
  cases status with
  | active => exact .pure _
  | completed => exact .bind (confined_update fun _ _ _ hw => ⟨_, _, _, hw⟩) fun _ => .pure _

theorem prepares_visitForIssue {mode : JourneyMode} :
    Confined C e G (Preparing C) (visitForIssue orgId data mode) := by
  unfold visitForIssue
  split
  · exact .bind confined_findFirst fun _ => .bind (confined_orThrow _ _) fun visit =>
      .bind ((visits_reopenVisit visit.2.status).mono fun _ _ => VisitWritten.preparing) fun _ =>
      .bind confined_findFirstBy fun _ => .pure _
  · cases mode with
    | singleTicket => exact .pure _
    | visitMultiStep => exact .bind (confined_create fun _ _ _ => .visit) fun _ => .pure _

theorem prepares_displayNumberForIssue
    {reused : Option String}
    : Confined C e G (Preparing C) (displayNumberForIssue orgId data reused) := by
  cases reused with
  | none => exact prepares_reserveQueueDisplayNumber
  | some n =>
    exact .bind (.bind confined_findById fun _ => .bind (confined_orThrow _ _) fun _ =>
      confined_throwIf _ _) fun _ => .pure _

theorem prepares_customerForIssue :
    Confined C e G (Preparing C) (customerForIssue orgId data) := by
  unfold customerForIssue
  split
  · refine .bind confined_findById fun _ => ?_
    split
    · exact .pure _
    · exact .bind (.ite (.bind confined_now fun _ => .bind
        (confined_update fun _ _ _ => .customer) fun _ => .pure _) (.pure _)) fun _ => .pure _
  · refine .bind confined_findFirst fun _ => .bind confined_now fun _ => ?_
    split
    · exact .bind (confined_update fun _ _ _ => .customer) fun _ => .pure _
    · exact .bind (confined_create fun _ _ _ => .customer) fun _ => .pure _
  · exact .bind confined_now fun _ => .bind (confined_create fun _ _ _ => .customer) fun _ => .pure _
  · exact .pure _

theorem confined_visitForIssue {mode : JourneyMode} :
    Confined C e G (Aside C) (visitForIssue orgId data mode) :=
  prepares_visitForIssue.mono fun _ _ => Preparing.aside

theorem confined_displayNumberForIssue
    {reused : Option String} : Confined C e G (Aside C) (displayNumberForIssue orgId data reused) :=
  prepares_displayNumberForIssue.mono fun _ _ => Preparing.aside

theorem confined_customerForIssue :
    Confined C e G (Aside C) (customerForIssue orgId data) :=
  prepares_customerForIssue.mono fun _ _ => Preparing.aside

theorem confined_stepIndexForIssue
    {visitId : Option Id} : Confined C e G E (stepIndexForIssue orgId data visitId) := by
  unfold stepIndexForIssue
  split
  · exact .pure _
  · exact .pure _
  · exact confined_resolveFlowStepIndexForQueue

theorem confined_inheritedExternalRef {visitId : Option Id} {stepIndex : Option ℤ}
    {stepRole : Option QueueStepRole} :
    Confined C e G (Aside C) (inheritedExternalRef orgId data visitId stepIndex stepRole) := by
  unfold inheritedExternalRef
  split
  · exact .pure _
  · refine .ite ?_ (.pure _)
    split
    · exact .pure _
    · exact .ite (.pure _) confined_resolveVisitExternalRef

theorem confined_queueForIssue :
    Confined C e G E (queueForIssue orgId data) :=
  .bind confined_findById fun _ => .bind (confined_orThrow _ _) fun _ =>
    .bind (confined_assertBranchAcceptsCustomerIntake _) fun _ => .bind confined_findById fun _ =>
    .bind (confined_orThrow _ _) fun _ => .bind confined_findById fun _ =>
    .bind (confined_orThrow _ _) fun _ => .bind (confined_throwIf _ _) fun _ => .pure _

theorem confined_effectiveJourneyMode :
    Confined C e G E (effectiveJourneyMode orgId data) :=
  .bind confined_resolveEffectiveJourneyMode fun _ =>
    .bind confined_isVisitJourneysEnabledForOrg fun _ => .pure _

theorem confined_prepareIssueTicketPayload
    : Confined C e G E (prepareIssueTicketPayload scope orgId data) :=
  .bind confined_isVisitJourneysEnabledForOrg fun _ =>
    .bind confined_resolveEffectiveJourneyMode fun _ =>
    .bind confined_resolveFlowStepIndexForQueue fun _ => .pure _

theorem confined_checkEntry
    {issuance : Issuance} : Confined C e G E (checkEntry scope orgId data issuance) :=
  .ite (.bind confined_findFirst fun _ => .bind (confined_throwIf _ _) fun _ =>
    .bind (.bind (.bind confined_findMany fun _ => .bind confined_findMany fun _ => .pure _) fun _ =>
      .pure _) fun _ => confined_throwIf _ _) (.pure _)

theorem confined_orgForIssue
    {orgIdOrNull : Option Id} : Confined C e G E (orgForIssue orgIdOrNull data) := by
  cases orgIdOrNull with
  | some orgId => exact .pure _
  | none => exact .bind confined_findById fun _ => .bind (confined_orThrow _ _) fun _ => .pure _

theorem confined_activateVisit :
    Confined C e G (Aside C) (activateVisit orgId visitId) :=
  .bind (confined_update fun _ _ _ => .visit) fun _ => .pure _

theorem confined_settleVisit {bypassRls : Bool} :
    Confined C e G (Aside C) (settleVisit bypassRls orgId visitId) := by
  refine .bind confined_findFirstBy fun last => .bind ?_ fun next => ?_
  · cases last with
    | none => exact .pure _
    | some t =>
      exact .ite (.pure _) (.bind confined_resolveNextJourneyStepIn fun _ => .pure _)
  · cases next with
    | some n => exact confined_activateVisit
    | none =>
      refine .bind ?_ fun _ => .bind confined_now fun _ =>
        .bind (confined_update fun _ _ _ => .visit) fun _ => .pure _
      cases last with
      | none => exact .pure _
      | some t => exact confined_resolveVisitExternalRef

theorem confined_refreshVisitTx {bypassRls : Bool} :
    Confined C e G (Aside C) (refreshVisitTx bypassRls orgId visitId) := by
  refine .bind (confined_forUpdate fun _ _ _ => .visit) fun visit => ?_
  cases visit with
  | none => exact .pure _
  | some v => exact .bind confined_count fun _ => .ite confined_activateVisit confined_settleVisit

theorem confined_visitForStep :
    Confined C e G (Aside C) (visitForStep orgId visitId) := by
  refine .bind confined_findById fun _ => .bind (confined_orThrow _ _) fun visit =>
    .bind ?_ fun _ => .pure _
  cases visit.status with
  | active => exact .pure _
  | completed => exact .bind (confined_update fun _ _ _ => .visit) fun _ => .pure _

theorem confined_transferTarget {queue : Option Queue} {targetQueueId : Option Id} :
    Confined C e G E (transferTarget orgId ticket queue targetQueueId) :=
  .bind (.bind confined_findFirst fun _ => .bind confined_findManyBy fun _ => .pure _) fun _ =>
    .bind (confined_throwIf _ _) fun _ => .bind (confined_orThrow _ _) fun _ => .pure _

theorem confined_transferRef
    {source target : Bool} : Confined C e G (Aside C) (transferRef orgId ticket source target ref) := by
  refine .bind ?_ fun _ => .bind (confined_throwIf _ _) fun _ => .pure _
  cases ticket.visitId with
  | none => exact .pure _
  | some visitId =>
    exact .ite confined_resolveVisitExternalRef (.ite confined_resolveVisitExternalRef (.pure _))

theorem confined_planTransfer {targetQueueId : Option Id} {desk : Option String} :
    Confined C e G (Aside C) (planTransfer orgId ticket targetQueueId desk ref) :=
  .bind confined_findById fun _ => .bind confined_transferTarget fun _ =>
    .bind confined_findById fun _ => .bind (confined_orThrow _ _) fun _ =>
    .bind confined_resolveQueueCallingPolicy fun _ =>
    .bind confined_reserveQueueDisplayNumber fun _ => .bind confined_transferRef fun _ => .pure _

end Asides

/-! ## What a lock is good for -/

section Locks

variable {C : DbWrite → Bool} {e : Err} {G : Guarantee Db} {P : Db → Db → Prop} {orgId id : Id}
  {t t' : Ticket} {a b : Db} {surface : ActionSurface}

/-- After `P`, the ticket has been locked as it was. -/
def Locked (C : DbWrite → Bool) (orgId id : Id) (P : Db → Db → Prop) (t : Ticket) (a c : Db) :
    Prop :=
  ∃ b, P a b ∧ visible (.tenant orgId) .ticket t = true ∧ Wrote C .ticket id (some t) t b c

/-- After `P`, the ticket has been locked and then written. -/
def Rewrote (C : DbWrite → Bool) (orgId id : Id) (P : Db → Db → Prop) (t t' : Ticket)
    (a c : Db) : Prop :=
  ∃ b, Locked C orgId id P t a b ∧ Wrote C .ticket id (some t) t' b c

theorem Locked.row (h : Locked C orgId id P t a b) : b.get .ticket id = some t := by
  obtain ⟨m, -, -, hw⟩ := h
  exact hw.2.get_self

theorem Locked.untouched (h : Locked C orgId id Eq t a b) :
    a.get .ticket id = some t ∧ TicketsUntouched a b := by
  obtain ⟨m, rfl, -, hw⟩ := h
  refine ⟨hw.2.get_old, fun id' => ?_⟩
  by_cases hid : id' = id
  · subst hid
    rw [hw.2.get_self, hw.2.get_old]
  · exact hw.2.get_ne (by simpa using hid)

theorem triple_lockTicket {e' : Err} {β : Type} {f : Ticket → TTx β}
    {Q : β → Db → Db → Prop} (hf : ∀ t, Triple C e G (Locked C orgId id P t) (f t) Q) :
    Triple C e G P ((forUpdate orgId .ticket id).bind fun o => (orThrow e' o).bind f) Q := by
  refine .bind (triple_forUpdate (Q := fun o a c => ∀ t, o = some t → Locked C orgId id P t a c)
    (fun r a b c hp hv hw t ht => ?_) fun _ _ _ _ ht => by cases ht) fun o =>
    .bind (triple_orThrow (Q := Locked C orgId id P) fun t a c ho h => h t ho) hf
  cases ht
  exact ⟨b, hp, hv, hw⟩

/-- The row that is written is the row that was locked. -/
theorem triple_rewrite {f : Ticket → Ticket} :
    Triple C e G (Locked C orgId id P t) (update orgId .ticket id f) fun t' a c =>
      t' = f t ∧ Rewrote C orgId id P t t' a c := by
  refine triple_update fun r a b c hl _ hw => ?_
  have hr : r = t := Option.some.inj (hw.2.get_old.symm.trans hl.row)
  subst hr
  exact ⟨rfl, b, hl, hw⟩

theorem triple_transitionTicketCore {allowed : List TicketStatus} {toStatus : TicketStatus}
    {data : TransitionData} :
    Triple C e G P (transitionTicketCore orgId id allowed toStatus data) fun t' a c =>
      ∃ t now, t.status ∈ allowed ∧ t' = transitioned t toStatus data now t ∧
        Rewrote C orgId id P t t' a c := by
  refine triple_lockTicket fun t => .bind confined_assertStaffQueueActionAllowed.still fun _ =>
    .bind (triple_throwIf (Q := fun _ a c => t.status ∈ allowed ∧ Locked C orgId id P t a c)
      fun a c hb hl => ⟨?_, hl⟩) fun _ => .fact fun hmem => .bind confined_now.still fun now => ?_
  · simpa using hb
  · exact triple_rewrite.post fun t' a c ⟨ht, hw⟩ => ⟨t, now, hmem, ht, hw⟩

theorem mem_seen {scope : Scope} {k : Kind} {p : Id → Row k → Bool} {s : Db} {r : Row k} :
    (id, r) ∈ seen scope k p s ↔ s.get k id = some r ∧ visible scope k r = true ∧ p id r = true := by
  unfold seen
  rw [Rel.mem_rows, Bool.and_eq_true]

theorem triple_callSpecificTx {deskNumber : String} {userId : Id} :
    Triple C e G P (callSpecificTx orgId id deskNumber userId surface) fun r a c =>
      ∃ t now, t.status = .waiting ∧ r = (id, calledTicket deskNumber userId now t) ∧
        Rewrote C orgId id P t r.2 a c := by
  refine .bind confined_assertActionSurfaceForTicket.still fun _ =>
    .bind confined_findById.still fun _ => .bind (confined_orThrow _ _).still fun target =>
    .bind (confined_throwIf _ _).still fun _ => .bind Confined.input.still fun floor =>
    .bind (confined_throwIf _ _).still fun _ => .bind confined_findById.still fun _ =>
    .bind (confined_orThrow _ _).still fun _ =>
    .bind confined_assertStaffQueueActionAllowed.still fun _ =>
    .bind confined_resolveQueueCallingPolicy.still fun _ => .bind confined_flag.still fun _ =>
    .bind (confined_throwIf _ _).still fun _ => .bind (confined_throwIf _ _).still fun _ =>
    .bind (confined_assertDesk _ _ _).still fun _ => .bind (.lock
      (Q := fun o a c => ∀ t, o = some t → t.status = .waiting ∧ Locked C orgId id P t a c)
      (fun r a b c hp hv hw t ht => ?_) fun _ _ _ _ ht => by cases ht) fun o =>
    .bind (triple_orThrow (Q := fun t a c => t.status = .waiting ∧ Locked C orgId id P t a c)
      fun t a c ho h => h t ho) fun t => .fact fun hs => .bind confined_now.still fun now =>
    .bind triple_rewrite fun t' => .pure fun a c ⟨ht', hw⟩ => ?_
  · cases ht
    simp only [Bool.and_eq_true, beq_iff_eq] at hv
    exact ⟨hv.2.1, b, hp, hv.1, hw⟩
  · exact ⟨t, now, hs, by rw [ht'], hw⟩

theorem triple_lockNext {queueId : Id} {floor : Time} {policy : QueueCallingPolicy}
    {desk : Option String} :
    Triple C e G P (lockNext orgId queueId floor policy desk) fun r a c =>
      r.2.status = .waiting ∧ r.2.queueId = queueId ∧ Locked C orgId r.1 P r.2 a c := by
  refine .bind (.input (Q := fun _ => P) fun _ _ _ hp => hp) fun n => .bind (.lockNth
    (Q := fun o a c => ∀ r, o = some r →
      r.2.status = .waiting ∧ r.2.queueId = queueId ∧ Locked C orgId r.1 P r.2 a c)
    (fun s r hm => ?_) (fun s r a b c hp hm hw r' hr => ?_) fun _ _ _ _ hr => by cases hr) fun o => ?_
  · exact (mem_seen.mp ((List.mem_insertionSort _).mp hm)).1
  · cases hr
    obtain ⟨-, hv, hc⟩ := mem_seen.mp ((List.mem_insertionSort _).mp hm)
    simp only [callable, Bool.and_eq_true, beq_iff_eq] at hc
    exact ⟨hc.1.1.1.2, hc.1.1.1.1, b, hp, hv, hw⟩
  · cases o with
    | some r => exact .pure fun a c h => h r rfl
    | none =>
      exact .bind confined_count.still fun _ => .bind confined_count.still fun _ =>
        .bind (confined_throwIf _ _).still fun _ => .throw

theorem triple_callNextTx {queueId : Id} {deskNumber : String} {userId : Id}
    {deskFilterActive : Bool} {floor : Time} :
    Triple C e G P (callNextTx orgId queueId deskNumber userId deskFilterActive surface floor)
      fun r a c => ∃ t now, t.status = .waiting ∧ t.queueId = queueId ∧
        r.2 = { calledTicket deskNumber userId now t with position := none } ∧
        Rewrote C orgId r.1 P t r.2 a c := by
  refine .bind confined_assertActionSurfaceForQueue.still fun _ =>
    .bind confined_findById.still fun _ => .bind (confined_orThrow _ _).still fun _ =>
    .bind confined_assertStaffQueueActionAllowed.still fun _ =>
    .bind confined_resolveQueueCallingPolicy.still fun _ => .bind (confined_throwIf _ _).still fun _ =>
    .bind (confined_assertDesk _ _ _).still fun _ => .bind triple_lockNext fun next =>
    .fact fun hs => .fact fun hq => .bind confined_now.still fun now =>
    .bind triple_rewrite fun t' => .pure fun a c ⟨ht', hw⟩ => ⟨next.2, now, hs, hq, ht', hw⟩

theorem triple_cancelTx {staff : Bool} {reason : Option String} :
    Triple C e G P (cancelTx orgId id staff reason surface) fun t' a c =>
      ∃ t now, (t.status = .waiting ∨ t.status = .called) ∧ t' = cancelledTicket reason now t ∧
        Rewrote C orgId id P t t' a c := by
  refine .bind confined_assertActionSurfaceForTicket.still fun _ => triple_lockTicket fun t =>
    .bind (confined_assertClassicDesk _ _).still fun _ =>
    .bind confined_assertStaffQueueActionAllowed.still fun _ => .bind (triple_throwIf
      (Q := fun _ a c => (t.status = .waiting ∨ t.status = .called) ∧ Locked C orgId id P t a c)
      fun a c hb hl => ⟨?_, hl⟩) fun _ => .fact fun hs => .bind confined_now.still fun now => ?_
  · simp only [Bool.and_eq_false_iff, bne_eq_false_iff_eq] at hb
    exact hb
  · exact triple_rewrite.post fun t' a c ⟨ht, hw⟩ => ⟨t, now, hs, ht, hw⟩

end Locks

/-! ## Issuing -/

section Issuing

variable {C : DbWrite → Bool} {e : Err} {G : Guarantee Db} {P : Db → Db → Prop} {orgId : Id}
  {data : IssueTicketData}

/-- Writes of other tables do not matter to `P`. -/
def Indifferent (C : DbWrite → Bool) (P : Db → Db → Prop) : Prop :=
  ∀ a b c, Aside C b c → P a b → P a c

theorem Indifferent.triple {α : Type} {t : TTx α} (hP : Indifferent C P)
    (h : Confined C e G (Aside C) t) : Triple C e G P t fun _ => P := h.keeps hP

theorem triple_visitForIssue {mode : JourneyMode} (hP : Indifferent C P) :
    Triple C e G P (visitForIssue orgId data mode) fun r a c =>
      (∀ v, data.visitId = some v → r.1 = some v) ∧ P a c := by
  cases hv : data.visitId with
  | none =>
    exact (hP.triple confined_visitForIssue).post fun _ _ _ hp => ⟨nofun, hp⟩
  | some v =>
    unfold visitForIssue
    rw [hv]
    refine .bind confined_findFirst.still fun _ => .bind (confined_orThrow _ _).still fun visit =>
      .bind (hP.triple ?_) fun _ => .bind confined_findFirstBy.still fun _ => .pure fun a c hp => ?_
    · cases visit.2.status with
      | active => exact .pure _
      | completed => exact .bind (confined_update fun _ _ _ => .visit) fun _ => .pure _
    · exact ⟨fun _ h => h, hp⟩

theorem triple_stepIndexForIssue {visitId : Option Id} :
    Triple C e G P (stepIndexForIssue orgId data visitId) fun i a c =>
      (∀ j, data.stepIndex = some j → i = some j) ∧ P a c := by
  cases hs : data.stepIndex with
  | none => exact confined_stepIndexForIssue.still.post fun _ _ _ hp => ⟨nofun, hp⟩
  | some i =>
    unfold stepIndexForIssue
    rw [hs]
    exact .pure fun a c hp => ⟨fun _ h => h, hp⟩

def IssuedOf (orgId : Id) (data : IssueTicketData) (t : Ticket) : Prop :=
  ∃ queue visitId displayNumber customer stepIndex externalRef now,
    t = issuedTicket orgId data queue visitId displayNumber customer stepIndex externalRef now ∧
      (∀ v, data.visitId = some v → visitId = some v) ∧
      ∀ i, data.stepIndex = some i → stepIndex = some i

theorem triple_issueTicketCore_of {R : Db → Db → Prop}
    (hqueue : Triple C e G P (queueForIssue orgId data) fun _ => R) (hR : Indifferent C R) :
    Triple C e G P (issueTicketCore orgId data) fun r a c =>
      IssuedOf orgId data r.2 ∧ ∃ b, R a b ∧ Wrote C .ticket r.1 none r.2 b c := by
  refine .bind hqueue fun queue =>
    .bind confined_effectiveJourneyMode.still fun mode =>
    .bind (triple_visitForIssue hR) fun visit => .fact fun hv =>
    .bind (hR.triple confined_displayNumberForIssue) fun number =>
    .bind confined_resolveQueueCallingPolicy.still fun _ =>
    .bind (hR.triple confined_customerForIssue) fun customer =>
    .bind triple_stepIndexForIssue fun stepIndex => .fact fun hi =>
    .bind confined_findById.still fun _ => .bind (hR.triple confined_inheritedExternalRef) fun ref =>
    .bind confined_now.still fun now => .bind (triple_create
      (Q := fun id a c => ∃ b, R a b ∧ Wrote C .ticket id none _ b c)
      fun id a b c hp hw => ⟨b, hp, hw⟩) fun id => .pure fun a c hw => ?_
  exact ⟨⟨queue, visit.1, number, customer, stepIndex, ref, now, rfl, hv, hi⟩, hw⟩

/-- **What `issueTicketCore` does.** -/
theorem triple_issueTicketCore (hP : Indifferent C P) :
    Triple C e G P (issueTicketCore orgId data) fun r a c =>
      IssuedOf orgId data r.2 ∧ ∃ b, P a b ∧ Wrote C .ticket r.1 none r.2 b c :=
  triple_issueTicketCore_of confined_queueForIssue.still hP

end Issuing

end PatronLoyalty.Ticketing
