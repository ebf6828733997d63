import PatronLoyalty.Ticketing.Specs
import PatronLoyalty.Txn.Events

/-!
# What ticket requests do to the store

Every statement of every ticket request is a read, or a step of `Effect`: `Effect C r a b` says that a
statement of the request `r` that passes the check `C` takes the store from `a` to `b`. Of the tickets
there are four kinds: `Moved`, by a request that holds the lock of the ticket and has looked at its
status, or that leaves the status alone; `Overwritten`, by one that does neither; a new ticket; and,
for `Aside`, none.

Headline: **`mild_run`**, a request is confined to its effects.
-/

namespace PatronLoyalty.Ticketing

open Txn Relation
open Txn.Rel (Wrote)
open Loyalty (Id Err truthy trim)

/-! ## Effects -/

/-- A ticket but for what says where it stands in its line and whether it is shown. -/
def Beside (t t' : Ticket) : Prop :=
  t' = { t with
    position := t'.position, readyAt := t'.readyAt, deskNumber := t'.deskNumber
    deleted := t'.deleted }

/-- What is written over a ticket whose status has been looked at under its lock, or stays. -/
inductive Moved (t : Ticket) : Ticket → Prop
  | called (deskNumber : String) (userId : Id) (now : Time) (position : Option ℤ)
      (h : t.status = .waiting) : Moved t { calledTicket deskNumber userId now t with position }
  | transitioned (toStatus : TicketStatus) (data : TransitionData) (now : Time)
      (h : t.status = .called ∨ t.status = .serving) (hto : toStatus ≠ .waiting) :
      Moved t (transitioned t toStatus data now t)
  | cancelled (reason : Option String) (now : Time) (h : t.status = .waiting ∨ t.status = .called) :
      Moved t (cancelledTicket reason now t)
  | beside {t' : Ticket} (h : Beside t t') : Moved t t'

/-- What is written over a ticket by its identifier, whatever its status. -/
inductive Overwritten (t : Ticket) : Ticket → Prop
  | expired (r : Ticket) (now : Time) : Overwritten t (expiredTicket r now t)
  | closed (now : Time) : Overwritten t (closedTicket now t)
  | transferredOut (plan : TransferPlan) (now : Time) : Overwritten t (transferredOut plan now t)
  | requeued (r : Ticket) (plan : TransferPlan) (now : Time) :
      Overwritten t (requeued r plan now t)

structure SamePatron (t t' : Ticket) : Prop where
  visitId : t'.visitId = t.visitId
  branchId : t'.branchId = t.branchId
  serviceId : t'.serviceId = t.serviceId
  customerId : t'.customerId = t.customerId
  customerPhone : t'.customerPhone = t.customerPhone
  language : t'.language = t.language
  transactionalSmsAllowed : t'.transactionalSmsAllowed = t.transactionalSmsAllowed
  flowTemplateId : t'.flowTemplateId = t.flowTemplateId

theorem SamePatron.refl (t : Ticket) : SamePatron t t := ⟨rfl, rfl, rfl, rfl, rfl, rfl, rfl, rfl⟩

variable {t t' : Ticket}

theorem SamePatron.trans {t'' : Ticket} (h : SamePatron t t') (h' : SamePatron t' t'') :
    SamePatron t t'' where
  visitId := h'.visitId.trans h.visitId
  branchId := h'.branchId.trans h.branchId
  serviceId := h'.serviceId.trans h.serviceId
  customerId := h'.customerId.trans h.customerId
  customerPhone := h'.customerPhone.trans h.customerPhone
  language := h'.language.trans h.language
  transactionalSmsAllowed := h'.transactionalSmsAllowed.trans h.transactionalSmsAllowed
  flowTemplateId := h'.flowTemplateId.trans h.flowTemplateId

theorem Moved.samePatron (h : Moved t t') : SamePatron t t' := by
  cases h with
  | called => exact ⟨rfl, rfl, rfl, rfl, rfl, rfl, rfl, rfl⟩
  | transitioned =>
    unfold Ticketing.transitioned
    dsimp only
    split <;> split <;> exact ⟨rfl, rfl, rfl, rfl, rfl, rfl, rfl, rfl⟩
  | cancelled => exact ⟨rfl, rfl, rfl, rfl, rfl, rfl, rfl, rfl⟩
  | beside h => rw [h]; exact ⟨rfl, rfl, rfl, rfl, rfl, rfl, rfl, rfl⟩

theorem Moved.stays (h : Moved t t') :
    t'.queueId = t.queueId ∧ (t'.status.active = true → t.status.active = true) := by
  cases h with
  | called _ _ _ _ h => exact ⟨rfl, fun _ => by rw [h]; rfl⟩
  | transitioned toStatus data now h _ =>
    refine ⟨?_, fun _ => by rcases h with h | h <;> rw [h] <;> rfl⟩
    unfold Ticketing.transitioned
    dsimp only
    split <;> split <;> rfl
  | cancelled _ _ h => exact ⟨rfl, fun hact => by cases hact⟩
  | beside h => exact ⟨by rw [h], fun hact => by rwa [h] at hact⟩

theorem Overwritten.samePatron (h : Overwritten t t') : SamePatron t t' := by
  cases h <;> exact ⟨rfl, rfl, rfl, rfl, rfl, rfl, rfl, rfl⟩

def Request.overwrites : Request → Bool
  | .transfer .. | .expireStaleTickets .. | .closePriorSessionWaitingTickets .. => true
  | _ => false

def Request.issues : Request → Bool
  | .issueTicket .. | .createVisitStep .. | .complete .. | .transfer .. => true
  | _ => false

def Request.updatesQueue : Request → Bool
  | .updateQueue .. => true
  | _ => false

def Request.reorders : Request → Bool
  | .bringToFirst .. => true
  | _ => false

/-- The requests that take a ticket out of its line and leave its position as it is. -/
def Request.forgets : Request → Bool
  | .callSpecific .. | .cancel .. => true
  | r => r.overwrites

/-- What becomes of the position of a ticket whose row `r` writes. -/
inductive Repositioned (r : Request) (t t' : Ticket) : Prop
  | cleared (h : t'.position = none)
  | given (hr : r.reorders = true)
  | left (h : t'.position = t.position) (hl : t'.status = t.status ∨ t.status ≠ .waiting)
  | forgotten (h : t'.position = t.position) (hr : r.forgets = true)

/-- **What a statement** of the request `r` does to the store. -/
inductive Effect (C : DbWrite → Bool) (r : Request) (a b : Db) : Prop
  | aside (h : Aside C a b)
  | moved {id : Id} {t t' : Ticket} (h : Wrote C .ticket id (some t) t' a b) (hm : Moved t t')
      (hp : Repositioned r t t')
  | overwritten (hr : r.overwrites = true) {id : Id} {t t' : Ticket}
      (h : Wrote C .ticket id (some t) t' a b) (ho : Overwritten t t')
  | issued (hr : r.issues = true) {id : Id} {t : Ticket} (h : Wrote C .ticket id none t a b)
      (hp : t.position = none)
  | queue (hr : r.updatesQueue = true) {id : Id} {q q' : Queue}
      (h : Wrote C .queue id (some q) q' a b)

/-! ## No ticket is issued -/

section

variable {C : DbWrite → Bool} {r : Request} {a b : Db}

def NoneIssued (a b : Db) : Prop := ∀ id, a.get .ticket id = none → b.get .ticket id = none

theorem NoneIssued.refl (a : Db) : NoneIssued a a := fun _ h => h

theorem TicketsUntouched.noneIssued (h : TicketsUntouched a b) : NoneIssued a b :=
  fun id hn => (h id).trans hn

theorem noneIssued_of_wrote {id : Id} {t t' : Ticket} (h : Wrote C .ticket id (some t) t' a b) :
    NoneIssued a b := by
  intro id' hn
  by_cases hid : id' = id
  · subst hid
    rw [h.2.get_old] at hn
    cases hn
  · exact (h.2.get_ne (by simpa using hid)).trans hn

theorem Effect.noneIssued (h : Effect C r a b) (hr : r.issues = false) : NoneIssued a b := by
  cases h with
  | aside h => exact h.untouched.noneIssued
  | moved h _ _ => exact noneIssued_of_wrote h
  | overwritten _ h _ => exact noneIssued_of_wrote h
  | issued hi => rw [hr] at hi; cases hi
  | queue _ h => exact fun id hn => (h.2.get_ne (by simp)).trans hn

theorem noneIssued_steps {E : Db → Db → Prop} (hE : ∀ a b, E a b → NoneIssued a b)
    (h : ReflTransGen E a b) : NoneIssued a b := by
  induction h with
  | refl => exact .refl a
  | tail _ hs ih => exact fun id hn => hE _ _ hs id (ih id hn)

end

/-! ## Transactions -/

section Transactions

variable {C : DbWrite → Bool} {e : Err} {G : Guarantee Db} {r : Request} {orgId id : Id}
  {t : Ticket} {surface : ActionSurface} {floor : Time} {ref : Option String} {jc : JourneyContext}

theorem Rewrote.steps {P : Db → Db → Prop} {t' : Ticket} {a b : Db}
    (h : Rewrote C orgId id P t t' a b) (hm : Moved t t') (hr : Repositioned r t t') :
    Comp P (ReflTransGen (Effect C r)) a b := by
  obtain ⟨m, ⟨m', hp, -, hl⟩, hw⟩ := h
  exact ⟨m', hp, .head (.moved hl (.beside rfl) (.left rfl (.inl rfl)))
    (.single (.moved hw hm hr))⟩

/-- A part that leaves the tickets alone. -/
theorem confined_aside {α : Type} {t : TTx α} (h : Confined C e G (Aside C) t) :
    Confined C e G (Effect C r) t := h.mono fun _ _ => .aside

theorem confined_updateBeside {f : Ticket → Ticket} (h : ∀ t, Beside t (f t))
    (hp : ∀ t, Repositioned r t (f t)) :
    Confined C e G (Effect C r) (update orgId .ticket id f) :=
  confined_update fun t _ _ hw => .moved hw (.beside (h t)) (hp t)

theorem confined_issueTicketCore {data : IssueTicketData} (hr : r.issues = true) :
    Confined C e G (Effect C r) (issueTicketCore orgId data) :=
  .bind confined_queueForIssue fun _ => .bind confined_effectiveJourneyMode fun _ =>
    .bind (confined_aside confined_visitForIssue) fun _ =>
    .bind (confined_aside confined_displayNumberForIssue) fun _ =>
    .bind confined_resolveQueueCallingPolicy fun _ =>
    .bind (confined_aside confined_customerForIssue) fun _ =>
    .bind confined_stepIndexForIssue fun _ => .bind confined_findById fun _ =>
    .bind (confined_aside confined_inheritedExternalRef) fun _ => .bind confined_now fun _ =>
    .bind (confined_create fun _ _ _ hw => .issued hr hw rfl) fun _ => .pure _

theorem transitioned_position {current : Ticket} (h : current.status ≠ .waiting)
    (toStatus : TicketStatus) (data : TransitionData) (now : Time) :
    (transitioned current toStatus data now t).position = t.position := by
  have hc : ¬ (current.status = .waiting ∧ toStatus ≠ .waiting) := fun hw => h hw.1
  unfold transitioned
  dsimp only
  rw [if_neg hc]
  split <;> rfl

theorem confined_transitionTicketCore {allowed : List TicketStatus} {toStatus : TicketStatus}
    {data : TransitionData} (hallowed : ∀ s ∈ allowed, s = .called ∨ s = .serving)
    (hto : toStatus ≠ .waiting) :
    Confined C e G (Effect C r) (transitionTicketCore orgId id allowed toStatus data) :=
  fun _ => triple_transitionTicketCore.post fun _ _ _ ⟨t, now, hm, ht, hw⟩ => by
    have hs : t.status ≠ .waiting := by
      rcases hallowed _ hm with h | h <;> rw [h] <;> decide
    exact hw.steps (ht ▸ .transitioned toStatus data now (hallowed _ hm) hto)
      (.left (ht ▸ transitioned_position hs toStatus data now) (.inr hs))

theorem confined_callSpecificTx {deskNumber : String} {userId : Id} (hf : r.forgets = true) :
    Confined C e G (Effect C r) (callSpecificTx orgId id deskNumber userId surface) :=
  fun _ => triple_callSpecificTx.post fun _ _ _ ⟨t, now, hs, ht, hw⟩ =>
    hw.steps (ht ▸ .called deskNumber userId now t.position hs) (.forgotten (ht ▸ rfl) hf)

theorem confined_callNextTx {queueId : Id} {deskNumber : String} {userId : Id}
    {deskFilterActive : Bool} :
    Confined C e G (Effect C r)
      (callNextTx orgId queueId deskNumber userId deskFilterActive surface floor) :=
  fun _ => triple_callNextTx.post fun _ _ _ ⟨_, now, hs, _, ht, hw⟩ =>
    hw.steps (ht ▸ .called deskNumber userId now none hs) (.cleared (ht ▸ rfl))

theorem confined_cancelTx {staff : Bool} {reason : Option String} (hf : r.forgets = true) :
    Confined C e G (Effect C r) (cancelTx orgId id staff reason surface) :=
  fun _ => triple_cancelTx.post fun _ _ _ ⟨_, now, hs, ht, hw⟩ =>
    hw.steps (ht ▸ .cancelled reason now hs) (.forgotten (ht ▸ rfl) hf)

theorem confined_bringToFirstTx (hr : r.reorders = true) :
    Confined C e G (Effect C r) (bringToFirstTx orgId id floor) :=
  .bind confined_findById fun _ => .bind (confined_orThrow _ _) fun _ =>
    .bind (confined_throwIf _ _) fun _ => .bind (confined_throwIf _ _) fun _ =>
    .bind confined_findById fun _ => .bind (confined_orThrow _ _) fun _ =>
    .bind confined_assertStaffQueueActionAllowed fun _ => .bind confined_findFirstBy fun _ =>
    confined_updateBeside (fun _ => rfl) fun _ => .given hr

theorem confined_markReadyTx :
    Confined C e G (Effect C r) (markReadyTx orgId id surface) :=
  .bind confined_assertActionSurfaceForTicket fun _ => .bind confined_findById fun _ =>
    .bind (confined_orThrow _ _) fun _ => .bind (confined_throwIf _ _) fun _ =>
    .bind confined_resolveQueueCallingPolicy fun _ => .bind confined_findById fun _ =>
    .bind (confined_orThrow _ _) fun _ => .bind confined_assertStaffQueueActionAllowed fun _ =>
    .bind (confined_throwIf _ _) fun _ => .bind (confined_assertClassicDesk _ _) fun _ =>
    .bind confined_now fun _ =>
    confined_updateBeside (fun _ => rfl) fun _ => .left rfl (.inl rfl)

theorem confined_assertDeskOfTicket {E : Db → Db → Prop} :
    Confined C e G E (assertDeskOfTicket orgId id surface) :=
  .bind confined_findById fun _ => .bind (confined_assertClassicDesk _ _) fun _ => .pure _

theorem confined_changeDeskTx {desk : String} :
    Confined C e G (Effect C r) (changeDeskTx orgId id desk surface) :=
  .bind confined_assertDeskOfTicket fun _ => .bind (confined_orThrow _ _) fun _ =>
    .bind confined_assertStaffQueueActionAllowed fun _ => .bind (confined_throwIf _ _) fun _ =>
    confined_updateBeside (fun _ => rfl) fun _ => .left rfl (.inl rfl)

theorem confined_writeTransfer {ticket : Ticket} {plan : TransferPlan}
    (ho : r.overwrites = true) (hi : r.issues = true) :
    Confined C e G (Effect C r) (writeTransfer orgId id ticket plan) :=
  .bind confined_now fun now => .ite
    (.bind (confined_update fun _ _ _ hw => .overwritten ho hw (.transferredOut plan now)) fun _ =>
      .bind (confined_create fun _ _ _ hw => .issued hi hw rfl) fun _ => .pure _)
    (.bind (confined_update fun _ _ _ hw => .overwritten ho hw (.requeued ticket plan now))
      fun _ => .pure _)

theorem confined_transferTx {targetQueueId : Option Id} {desk : Option String}
    (ho : r.overwrites = true) (hi : r.issues = true) :
    Confined C e G (Effect C r) (transferTx orgId id targetQueueId desk ref surface) :=
  .bind confined_assertActionSurfaceForTicket fun _ => .bind confined_findById fun _ =>
    .bind (confined_orThrow _ _) fun _ => .bind (confined_assertClassicDesk _ _) fun _ =>
    .bind confined_assertStaffQueueActionAllowed fun _ =>
    .bind (confined_aside confined_planTransfer) fun _ => confined_writeTransfer ho hi

theorem confined_expireTicket {now : Time} (ho : r.overwrites = true) :
    Confined C e G (Effect C r) (expireTicket now id t) :=
  .bind (confined_throwIf _ _) fun _ => .bind
    (confined_update fun _ _ _ hw => .overwritten ho hw (.expired t now)) fun _ => .pure _

theorem confined_closeWaitingTickets {now : Time} {branchId : Id} {b : Branch}
    (ho : r.overwrites = true) :
    Confined C e G (Effect C r) (closeWaitingTickets now branchId b floor) :=
  .bind confined_findMany fun _ => .bind (confined_updateMany (fun _ => rfl)
    fun _ _ _ _ hw => .overwritten ho hw (.closed now)) fun _ => .pure _

theorem confined_deleteTicketTx : Confined C e G (Effect C r) (deleteTicketTx orgId id) :=
  .bind confined_findById fun _ => .bind (confined_orThrow _ _) fun _ =>
    .bind (.bind (confined_throwIf _ _) fun _ => confined_throwIf _ _) fun _ =>
    .bind (confined_updateBeside (fun _ => rfl) fun _ => .left rfl (.inl rfl)) fun _ => .pure _

theorem confined_deleteTicketsTx {ticketIds : List Id} :
    Confined C e G (Effect C r) (deleteTicketsTx orgId ticketIds) :=
  .bind confined_findMany fun _ => .bind (confined_updateMany (fun _ => rfl)
    fun _ _ _ _ hw => .moved hw (.beside rfl) (.left rfl (.inl rfl))) fun _ => .pure _

theorem confined_issueNextIfAny {status : TicketStatus} {next : Option JourneyNextStep}
    (hi : r.issues = true) :
    Confined C e G (Effect C r) (issueNextIfAny orgId jc status next ref) := by
  cases next with
  | none => exact .pure _
  | some n =>
    exact .bind (.bind (confined_aside confined_resolveQueueForFlowStep) fun _ =>
      .bind (confined_orThrow _ _) fun _ => .bind (confined_throwIf _ _) fun _ =>
      .bind (confined_throwIf _ _) fun _ => (confined_issueTicketCore hi).mapError) fun _ => .pure _

theorem visits_resolveJourneyRef :
    Confined C e G (VisitWritten C) (resolveJourneyRef orgId jc ref) := by
  refine .bind ?_ fun _ => .bind (confined_throwIf _ _) fun _ => .pure _
  unfold resolveJourneyRef.refOf
  split
  · exact .pure _
  · exact .ite visits_resolveVisitExternalRef (.pure _)

theorem confined_resolveJourneyRef :
    Confined C e G (Aside C) (resolveJourneyRef orgId jc ref) :=
  visits_resolveJourneyRef.mono fun _ _ => VisitWritten.aside

theorem confined_findActiveJourneyFollowUpTicket {E : Db → Db → Prop} {scope : Scope}
    {visitId : Option Id} {i : Option ℤ} :
    Confined C e G E (findActiveJourneyFollowUpTicket scope orgId id visitId i) := by
  cases visitId with
  | none => exact .pure _
  | some v => exact confined_findFirstBy

theorem confined_finalizeTx {terminalStatus : TicketStatus} (hi : r.issues = true)
    (hto : terminalStatus ≠ .waiting) :
    Confined C e G (Effect C r) (finalizeTx orgId id terminalStatus ref jc) :=
  .bind (confined_forUpdate fun _ _ _ hw => .moved hw (.beside rfl) (.left rfl (.inl rfl)))
    fun _ =>
    .bind (confined_orThrow _ _) fun _ => .ite
      (.bind confined_findActiveJourneyFollowUpTicket fun _ => .pure _)
      (.bind (confined_aside confined_resolveNextJourneyStepIn) fun _ =>
        .bind (confined_throwIf _ _) fun _ => .bind (confined_aside confined_resolveJourneyRef) fun _ =>
        .bind (confined_issueNextIfAny hi) fun _ => .bind confined_now fun _ =>
        .bind (confined_transitionTicketCore (by simp) hto) fun _ => .pure _)

end Transactions

/-! ## Requests -/

section Requests

variable {C : DbWrite → Bool} {e : Err} {G : Guarantee Db} {U : Db → Db → Prop} {r : Request}
  {α β : Type} {orgId : Id}

/-- A request that is confined to the effects of `r`. -/
def Mild (C : DbWrite → Bool) (e : Err) (r : Request) (c : TCall β) : Prop :=
  ∀ (G : Guarantee Db) (U : Db → Db → Prop) (α : Type),
    (∀ a b, ReflTransGen (Effect C r) a b → G.rel a b ∧ U a b) → Calm C e G U α c

def Mute (C : DbWrite → Bool) (e : Err) (r : Request) (c : TCall β) : Prop :=
  Mild C e r c ∧ c.Emits fun _ => False

namespace Mute

theorem pure (b : β) : Mute C e r (Call.pure b) := ⟨fun _ _ _ _ => Calm.pure b, trivial⟩

theorem throw (e' : Err) : Mute C e r (Call.throw e' : TCall β) :=
  ⟨fun _ _ _ _ => Calm.throw e', trivial⟩

theorem input : Mute C e r Call.input := ⟨fun _ _ _ _ => Calm.input, .input⟩

variable {c : TCall β}

/-- **Sequencing.** -/
theorem bind {γ : Type} {f : β → TCall γ} (hc : Mute C e r c)
    (hf : ∀ b, Mute C e r (f b)) : Mute C e r (c.bind f) :=
  ⟨fun G U α hG => Calm.bind (hc.1 G U α hG) fun b => (hf b).1 G U α hG,
    .bind hc.2 fun b => (hf b).2⟩

theorem ite {p : Prop} [Decidable p] {d : TCall β} (hc : Mute C e r c) (hd : Mute C e r d) :
    Mute C e r (if p then c else d) := by
  split
  · exact hc
  · exact hd

theorem tx {t : TTx β} (h : ∀ G, Confined C e G (Effect C r) t) : Mute C e r (Call.withTx t) :=
  ⟨fun G _ _ hG => Calm.confined (h G) hG, .withTx t⟩

theorem ignoreErrors (h : Mute C e r c) : Mute C e r (ignoreErrors c) :=
  ⟨fun G U α hG => Calm.handle (Calm.bind (h.1 G U α hG) fun _ => Calm.pure _) fun _ =>
    Calm.pure _, .handle (.bind h.2 fun _ => trivial) fun _ => trivial⟩

theorem forEach {xs : List β} {f : β → TCall Unit} (h : ∀ x, Mute C e r (f x)) :
    Mute C e r (Call.forEach xs f) :=
  ⟨fun G U α hG => Calm.forEach fun x _ => (h x).1 G U α hG, .forEach fun x => (h x).2⟩

theorem foldEach {γ : Type} {xs : List β} {a : γ} {f : γ → β → TCall γ}
    (h : ∀ a x, Mute C e r (f a x)) : Mute C e r (Call.foldEach xs a f) :=
  ⟨fun G U α hG => Calm.foldEach fun a x _ => (h a x).1 G U α hG,
    .foldEach fun a x => (h a x).2⟩

end Mute

theorem mute_rejectIf (b : Bool) (e' : Err) : Mute C e r (rejectIf b e') :=
  .ite (.throw _) (.pure _)

theorem mute_refreshVisitStatus (orgId : Id) (visitId : Option Id) :
    Mute C e r (refreshVisitStatus orgId visitId) := by
  cases visitId with
  | none => exact .pure _
  | some v => exact .bind .input fun _ => .tx fun _ => confined_aside confined_refreshVisitTx

theorem mute_emitTransitionSideEffects (t : Ticket) :
    Mute C e r (emitTransitionSideEffects t) := .ignoreErrors (mute_refreshVisitStatus _ _)

theorem mute_transitionTicket {id : Id} {allowed : List TicketStatus} {toStatus : TicketStatus}
    {data : TransitionData} (hallowed : ∀ s ∈ allowed, s = .called ∨ s = .serving)
    (hto : toStatus = .called ∨ toStatus = .serving) :
    Mute C e r (transitionTicket orgId id allowed toStatus data) := by
  have hwaiting : toStatus ≠ .waiting := by rcases hto with rfl | rfl <;> decide
  refine .bind (.tx fun _ => confined_transitionTicketCore hallowed hwaiting) fun t =>
    .bind (mute_emitTransitionSideEffects t) fun _ => .bind ?_ fun _ => .pure _
  rcases hto with rfl | rfl
  · exact .pure _
  · exact .pure _

theorem mute_resolveNextJourneyStep {ticket : JourneyTicketContext} :
    Mute C e r (resolveNextJourneyStep orgId ticket) := by
  refine .bind .input fun _ => .bind (.tx fun _ => confined_resolveStep) fun step => ?_
  cases step with
  | none => exact .pure _
  | some st =>
    refine .bind (.tx fun _ => confined_getNextStep) fun next => ?_
    cases next with
    | none => exact .pure _
    | some n => exact .tx fun _ => confined_aside confined_resolveStepQueue

theorem mute_getNextStepResolutionFailure {ticket : JourneyTicketContext} :
    Mute C e r (getNextStepResolutionFailure orgId ticket) := by
  refine .bind .input fun _ => .bind (.tx fun _ => confined_resolveStep) fun step => ?_
  cases step with
  | none => exact .pure _
  | some st =>
    refine .bind (.tx fun _ => confined_getNextStep) fun next => ?_
    cases next with
    | none => exact .pure _
    | some n => exact .bind (.tx fun _ => confined_aside confined_resolveStepQueue) fun _ => .pure _

theorem mute_preCheck {jc : JourneyContext} : Mute C e r (preCheck orgId jc) :=
  .bind mute_resolveNextJourneyStep fun _ => .ite (.pure _)
    (.bind mute_getNextStepResolutionFailure fun _ => .bind (mute_rejectIf _ _) fun _ =>
      .bind .input fun _ => .bind (.tx fun _ => confined_isQueueJourneyManaged) fun _ =>
      .bind (.tx fun _ => confined_resolveFlowTemplateId) fun _ => mute_rejectIf _ _)

theorem mute_issueTicket {orgIdOrNull : Option Id} {data : IssueTicketData} {issuance : Issuance}
    (hi : r.issues = true) : Mute C e r (issueTicket orgIdOrNull data issuance) :=
  .bind (.bind (mute_rejectIf _ _) fun _ => .bind (mute_rejectIf _ _) fun _ =>
    mute_rejectIf _ _) fun _ => .bind (.tx fun _ => confined_orgForIssue) fun _ =>
    .bind .input fun _ => .bind (.tx fun _ => confined_checkEntry) fun _ =>
    .bind (.tx fun _ => confined_mayRefuse _) fun _ =>
    .bind (.tx fun _ => confined_prepareIssueTicketPayload) fun _ =>
    .tx fun _ => confined_issueTicketCore hi

theorem mute_closeBranch {now : Time} {dryRun : Bool} {branchId : Id} {b : Branch}
    (ho : r.overwrites = true) : Mute C e r (closeBranch now dryRun branchId b) :=
  .bind (.tx fun _ => .input) fun _ => .ite (.tx fun _ => confined_count)
    (.bind (.tx fun _ => confined_closeWaitingTickets ho) fun _ => .bind
      (.forEach fun _ => .ignoreErrors (mute_refreshVisitStatus _ _)) fun _ => .pure _)

theorem mute_updateQueue {queueId : Id} {data : QueueUpdateDto}
    (hq : r.updatesQueue = true) : Mute C e r (updateQueue orgId queueId data) := by
  have howned : ∀ k m o, Mute C e r (assertOwned orgId k m o) := fun k m o => by
    cases o with
    | none => exact .pure _
    | some id =>
      exact .tx fun _ => .bind confined_findById fun _ => .bind (confined_orThrow _ _) fun _ =>
        .pure _
  have hscope : ∀ b o, Mute C e r (validateFlowTemplateScope orgId b o) := fun b o => by
    cases o with
    | none => exact .pure _
    | some id =>
      exact .tx fun _ => .bind confined_findById fun _ => .bind (confined_orThrow _ _) fun _ =>
        confined_throwIf _ _
  exact .bind (mute_rejectIf _ _) fun _ => .bind (.tx fun _ => .bind confined_findById fun _ =>
    confined_orThrow _ _) fun _ => .bind (mute_rejectIf _ _) fun _ => .bind (howned _ _ _) fun _ =>
    .bind (howned _ _ _) fun _ => .bind (.bind (mute_rejectIf _ _) fun _ =>
    .bind (mute_rejectIf _ _) fun _ => .pure _) fun _ => .bind (hscope _ _) fun _ =>
    .tx fun _ => confined_update fun _ _ _ => .queue hq

/-- **A request is confined to its effects**, and emits no event. -/
theorem mute_run (r : Request) : Mute C e r r.run := by
  cases r with
  | issueTicket o d i => exact .bind (mute_issueTicket rfl) fun _ => .pure _
  | createVisitStep o v d =>
    exact .bind (.bind (.tx fun _ => confined_aside confined_visitForStep) fun _ =>
      mute_issueTicket rfl) fun _ => .pure _
  | callNext o q d u f s =>
    exact .bind (.bind (.tx fun _ => .input) fun _ => .tx fun _ => confined_callNextTx) fun _ =>
      .pure _
  | callSpecific o t d u s =>
    exact .bind (.tx fun _ => confined_callSpecificTx rfl) fun _ => .pure _
  | bringToFirst o t =>
    exact .bind (.bind (.tx fun _ => .input) fun _ => .tx fun _ => confined_bringToFirstTx rfl)
      fun _ => .pure _
  | markReady o t s => exact .bind (.tx fun _ => confined_markReadyTx) fun _ => .pure _
  | serve o t u s =>
    refine .bind (.bind (.tx fun _ => .bind confined_assertActionSurfaceForTicket fun _ =>
      confined_assertDeskOfTicket) fun current => ?_) fun _ => .pure _
    cases current with
    | none => exact .throw _
    | some current =>
      exact .ite (.pure _) (.bind (.tx fun _ => confined_now) fun _ =>
        mute_transitionTicket (by simp) (by decide))
  | recallTicket o t s d =>
    exact .bind (.bind (.tx fun _ => confined_assertActionSurfaceForTicket) fun _ =>
      .bind (.tx fun _ => confined_assertDeskOfTicket) fun _ => .bind (.tx fun _ => confined_now)
      fun _ => mute_transitionTicket (by simp) (by decide)) fun _ => .pure _
  | changeDesk o t d s =>
    exact .bind (.bind (.tx fun _ => confined_assertActionSurfaceForTicket) fun _ =>
      .tx fun _ => confined_changeDeskTx) fun _ => .pure _
  | complete o t x s =>
    exact .bind (.bind (.tx fun _ => confined_assertActionSurfaceForTicket) fun _ =>
      .bind (.tx fun _ => .bind confined_assertDeskOfTicket fun _ =>
        .bind (confined_orThrow _ _) fun _ => .pure _) fun _ =>
      .bind (.tx fun _ => .bind confined_findById fun _ => .bind (confined_orThrow _ _) fun _ =>
        .bind confined_findById fun _ => .pure _) fun jc =>
      .bind mute_preCheck fun _ =>
      .bind (.tx fun _ => (confined_finalizeTx rfl (by decide)).mapError) fun _ =>
      .bind (mute_emitTransitionSideEffects _) fun _ => .pure _) fun _ => .pure _
  | noShow o t s =>
    exact .bind (.bind (.tx fun _ => confined_assertActionSurfaceForTicket) fun _ =>
      .bind (.tx fun _ => .bind confined_assertDeskOfTicket fun _ => confined_orThrow _ _)
      fun _ => .ite
        (.bind .input fun _ => .tx fun _ => .bind confined_findById fun _ =>
          .bind confined_findActiveJourneyFollowUpTicket fun _ => .pure _)
        (.bind (.tx fun _ => .bind confined_now fun _ =>
          confined_transitionTicketCore (by simp) (by decide)) fun _ =>
          .bind (mute_emitTransitionSideEffects _) fun _ => .pure _)) fun _ => .pure _
  | cancel o t f x s =>
    exact .bind (.bind (.tx fun _ => confined_cancelTx rfl) fun _ =>
      .bind (.ignoreErrors (mute_refreshVisitStatus _ _)) fun _ => .pure _) fun _ => .pure _
  | transfer o t q d x s =>
    exact .bind (.tx fun _ => confined_transferTx rfl rfl) fun _ => .pure _
  | expireStaleTickets m =>
    exact .bind (.bind .input fun _ => .bind (.tx fun _ => confined_findMany) fun _ =>
      .bind (.forEach fun _ => .ignoreErrors (.tx fun _ => confined_expireTicket rfl)) fun _ =>
      .pure _) fun _ => .pure _
  | closePriorSessionWaitingTickets d o b =>
    exact .bind (.bind .input fun _ => .bind (.tx fun _ => confined_findMany) fun _ =>
      .foldEach fun _ _ => .bind (mute_closeBranch rfl) fun _ => .pure _) fun _ => .pure _
  | deleteHistoryTicket o t =>
    exact .bind (.bind (.tx fun _ => confined_mayRefuse _) fun _ =>
      .bind (.tx fun _ => confined_deleteTicketTx) fun _ =>
      .ignoreErrors (mute_refreshVisitStatus _ _)) fun _ => .pure _
  | deleteHistoryTicketsBulk o ts =>
    exact .bind (.bind (.tx fun _ => confined_mayRefuse _) fun _ =>
      .bind (mute_rejectIf _ _) fun _ => .bind (mute_rejectIf _ _) fun _ =>
      .bind (.tx fun _ => confined_deleteTicketsTx) fun _ =>
      .bind (.forEach fun _ => .ignoreErrors (mute_refreshVisitStatus _ _)) fun _ => .pure _)
      fun _ => .pure _
  | updateQueue o q d => exact .bind (mute_updateQueue rfl) fun _ => .pure _
  | refreshVisit o v => exact .bind (mute_refreshVisitStatus _ _) fun _ => .pure _

theorem mild_run (r : Request) : Mild C e r r.run := (mute_run r).1

end Requests

end PatronLoyalty.Ticketing
