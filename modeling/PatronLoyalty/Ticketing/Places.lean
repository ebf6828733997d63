import PatronLoyalty.Ticketing.Effects

/-!
# Tickets and the places of their queues

A ticket has a branch and a service, and so has its queue. `issueTicketCore` checks the ones against the
others. `transfer` puts a ticket into any queue of the organisation: it leaves the branch of a visit
ticket and both columns of another. `QueueService.update` moves a queue with the tickets in it.

Headline: **`reach_places`**. As long as transfers go to queues that fit the ticket, and a queue is moved
only while no ticket stands in it, every active ticket has the branch and the service of its queue.
-/

namespace PatronLoyalty.Ticketing

open Txn Relation
open Txn.Rel (Wrote)
open Loyalty (Id Err)

/-! ## Places -/

def Queue.place (q : Queue) : Id × Id := (q.branchId, q.serviceId)

def Ticket.place (t : Ticket) : Id × Id := (t.branchId, t.serviceId)

def place (s : Db) (queueId : Id) : Option (Id × Id) := (s.get .queue queueId).map Queue.place

/-- Every active ticket stands in a queue of its place, and in none of `Z`. -/
def Placed (Z : List Id) (s : Db) : Prop :=
  ∀ id t, s.get .ticket id = some t → t.status.active = true →
    place s t.queueId = some t.place ∧ t.queueId ∉ Z

/-- The queues but for `Z` keep their places. -/
def Fixed (Z : List Id) (a b : Db) : Prop := ∀ q, q ∉ Z → place b q = place a q

theorem Fixed.refl (Z : List Id) (a : Db) : Fixed Z a a := fun _ _ => rfl

theorem Fixed.trans {Z : List Id} {a b c : Db} (h : Fixed Z a b) (h' : Fixed Z b c) :
    Fixed Z a c := fun q hq => (h' q hq).trans (h q hq)

def fixed (Z : List Id) : Guarantee Db := ⟨Fixed Z, Fixed.refl Z, Fixed.trans⟩

/-- What is done from a store whose places are those of `s`: it keeps the places, and the tickets in
theirs. -/
def Kept (Z : List Id) (s a b : Db) : Prop :=
  Fixed Z a b ∧ (Fixed Z s a → Placed Z a → Placed Z b)

section

variable {Z : List Id} {s a b c : Db} {C : DbWrite → Bool} {r : Request} {id : Id} {t : Ticket}

theorem Kept.refl (Z : List Id) (s a : Db) : Kept Z s a a := ⟨.refl Z a, fun _ h => h⟩

theorem Kept.trans (h : Kept Z s a b) (h' : Kept Z s b c) : Kept Z s a c :=
  ⟨h.1.trans h'.1, fun hs ha => h'.2 (hs.trans h.1) (h.2 hs ha)⟩

/-! ## One statement -/

theorem fixed_of_ticket {old : Option Ticket}
    (h : Wrote C .ticket id old t a b) : Fixed Z a b := fun q _ => by
  unfold place
  rw [h.2.get_ne (by simp)]

theorem fixed_of_aside (h : Aside C a b) : Fixed Z a b := by
  intro x _
  unfold place
  cases h with
  | visit h => rw [h.2.get_ne (by simp)]
  | customer h => rw [h.2.get_ne (by simp)]
  | flowStep h => rw [h.2.get_ne (by simp)]
  | @queue id q q' h hn =>
    by_cases hx : x = id
    · subst hx
      rw [h.2.get_self, h.2.get_old, hn]
      rfl
    · rw [h.2.get_ne (by simpa using hx)]

theorem placed_of_untouched (ht : TicketsUntouched a b) (hf : Fixed Z a b) (ha : Placed Z a) :
    Placed Z b := by
  intro id t hb hact
  obtain ⟨hp, hz⟩ := ha id t ((ht id).symm.trans hb) hact
  exact ⟨(hf _ hz).trans hp, hz⟩

theorem Aside.kept (h : Aside C a b) : Kept Z s a b :=
  ⟨fixed_of_aside h, fun _ => placed_of_untouched h.untouched (fixed_of_aside h)⟩

theorem placed_of_wrote {old : Option Ticket} (h : Wrote C .ticket id old t a b) (ha : Placed Z a)
    (ht : t.status.active = true → place a t.queueId = some t.place ∧ t.queueId ∉ Z) :
    Placed Z b := by
  have hf : ∀ q, place b q = place a q := fun q => by
    unfold place
    rw [h.2.get_ne (by simp)]
  intro x u hu hact
  rw [hf]
  by_cases hx : x = id
  · subst hx
    rw [h.2.get_self] at hu
    cases hu
    exact ht hact
  · exact ha x u ((h.2.get_ne (by simpa using hx)).symm.trans hu) hact

theorem Moved.kept {t' : Ticket} (h : Wrote C .ticket id (some t) t' a b)
    (hm : Moved t t') : Kept Z s a b := by
  refine ⟨fixed_of_ticket h, fun _ ha => placed_of_wrote h ha fun hact => ?_⟩
  have hplace : t'.place = t.place := by
    unfold Ticket.place
    rw [hm.samePatron.branchId, hm.samePatron.serviceId]
  rw [hm.stays.1, hplace]
  exact ha id t h.2.get_old (hm.stays.2 hact)

theorem kept_of_issued (h : Kept Z s a b) (hw : Wrote C .ticket id none t b c) (hz : t.queueId ∉ Z)
    (hp : Fixed Z s a → place a t.queueId = some t.place) : Kept Z s a c :=
  ⟨h.1.trans (fixed_of_ticket hw), fun hs ha => placed_of_wrote hw (h.2 hs ha) fun _ =>
    ⟨(h.1 _ hz).trans (hp hs), hz⟩⟩

end

/-! ## The check -/

/-- The requests that put a ticket into another queue. -/
def Request.transfers : Request → Bool
  | .transfer .. => true
  | _ => false

/-- The check of a statement of the request `r`, in a run from `s`: queues but for `Z` keep their places,
no ticket is put into a queue of `Z`, and a ticket that is transferred fits its queue, if it is of a visit
by its branch, else also by its service. -/
def fits (Z : List Id) (s : Db) (r : Request) : DbWrite → Bool
  | .put .queue id (some q) q' => Z.contains id || q'.place == q.place
  | .put .ticket _ none n => !Z.contains n.queueId &&
      (!r.transfers || (place s n.queueId).map (·.1) == some n.branchId)
  | .put .ticket _ (some t) t' => !(r.overwrites && t'.status.active) ||
      !Z.contains t'.queueId && place s t'.queueId == some t.place
  | _ => true

section

variable {Z : List Id} {s a b c : Db} {r : Request} {e : Err} {P : Db → Db → Prop} {orgId : Id}
  {id : Id} {data : IssueTicketData} {ref : Option String}

theorem fits_issued {n : Ticket} (h : Wrote (fits Z s r) .ticket id none n a b) :
    n.queueId ∉ Z := by
  have hC := h.1
  simp only [fits, Bool.and_eq_true, Bool.not_eq_true', List.contains_eq_mem] at hC
  simpa using hC.1

theorem Overwritten.kept {t t' : Ticket} (hr : r.overwrites = true)
    (h : Wrote (fits Z s r) .ticket id (some t) t' a b) (ho : Overwritten t t') : Kept Z s a b := by
  refine ⟨fixed_of_ticket h, fun hs ha => placed_of_wrote h ha fun hact => ?_⟩
  have hplace : t'.place = t.place := by
    unfold Ticket.place
    rw [ho.samePatron.branchId, ho.samePatron.serviceId]
  have hC := h.1
  simp only [fits, hr, hact, Bool.and_self, Bool.not_true, Bool.false_or, Bool.and_eq_true,
    Bool.not_eq_true', beq_iff_eq, List.contains_eq_mem, decide_eq_false_iff_not] at hC
  rw [hplace]
  exact ⟨(hs _ hC.1).trans hC.2, hC.1⟩

theorem kept_of_queue {q q' : Queue}
    (h : Wrote (fits Z s r) .queue id (some q) q' a b) : Kept Z s a b := by
  have hf : Fixed Z a b := by
    intro x hx
    unfold place
    by_cases hid : x = id
    · subst hid
      have hC := h.1
      simp only [fits, Bool.or_eq_true, beq_iff_eq, List.contains_eq_mem, decide_eq_true_eq] at hC
      rw [h.2.get_self, h.2.get_old, Option.map_some, Option.map_some, hC.resolve_left hx]
    · rw [h.2.get_ne (by simpa using hid)]
  exact ⟨hf, fun _ => placed_of_untouched (fun id' => h.2.get_ne (by simp)) hf⟩

/-- **One statement** that issues no ticket. -/
theorem Effect.kept {r' : Request} (h : Effect (fits Z s r) r' a b) (hr : r'.issues = false)
    (ho : r'.overwrites = true → r.overwrites = true) : Kept Z s a b := by
  cases h with
  | aside h => exact h.kept
  | moved h hm _ => exact hm.kept h
  | overwritten ho' h how => exact how.kept (ho ho') h
  | issued hi => rw [hr] at hi; cases hi
  | queue _ h => exact kept_of_queue h

theorem kept_steps {E : Db → Db → Prop} (hE : ∀ a b, E a b → Kept Z s a b)
    (h : ReflTransGen E a b) : Kept Z s a b := by
  induction h with
  | refl => exact .refl Z s a
  | tail _ hs ih => exact ih.trans (hE _ _ hs)

/-! ## Issuing -/

theorem triple_findQueue (hP : ∀ a b, P a b → Fixed Z a b) :
    Triple (fits Z s r) e (fixed Z) P (findById (.tenant orgId) .queue id)
      fun (o : Option Queue) a b => (∀ q, o = some q → id ∉ Z → place a id = some q.place) ∧ P a b := by
  refine .readFact (F := fun (o : Option Queue) a => ∀ q, o = some q → id ∉ Z → place a id = some q.place)
    (fun o x y hxy h q ho hz => ?_) fun a c hac q ho hz => ?_
  · exact (hxy id hz).trans (h q ho hz)
  · have hq := (Option.filter_eq_some_iff.mp ho).1
    rw [← hP a c hac id hz]
    unfold place
    rw [hq]
    rfl

/-- The queue of a request has its branch and its service. -/
def QueueFits (Z : List Id) (data : IssueTicketData) (a : Db) : Prop :=
  data.queueId ∉ Z → place a data.queueId = some (data.branchId, data.serviceId)

theorem triple_queueForIssue (hP : ∀ a b, P a b → Fixed Z a b) :
    Triple (fits Z s r) e (fixed Z) P (queueForIssue orgId data) fun _ a b =>
      QueueFits Z data a ∧ P a b := by
  refine .bind confined_findById.still fun _ => .bind (confined_orThrow _ _).still fun _ =>
    .bind (confined_assertBranchAcceptsCustomerIntake _).still fun _ =>
    .bind confined_findById.still fun _ => .bind (confined_orThrow _ _).still fun _ =>
    .bind (triple_findQueue hP) fun o => .bind (triple_orThrow (Q := fun (q : Queue) a b =>
      (data.queueId ∉ Z → place a data.queueId = some q.place) ∧ P a b)
      fun q a b ho h => ⟨h.1 q ho, h.2⟩) fun q => .bind (triple_throwIf
      (Q := fun _ a b => QueueFits Z data a ∧ P a b) fun a b hb h => ⟨fun hz => ?_, h.2⟩)
    fun _ => .pure fun a b h => h
  simp only [Bool.or_eq_false_iff, bne_eq_false_iff_eq] at hb
  rw [h.1 hz, Queue.place, hb.1, hb.2]

structure IssuedInPlace (Z : List Id) (data : IssueTicketData) (n : Ticket) (a : Db) : Prop where
  queueId : n.queueId = data.queueId
  branchId : n.branchId = data.branchId
  serviceId : n.serviceId = data.serviceId
  notIn : data.queueId ∉ Z
  place : place a data.queueId = some (data.branchId, data.serviceId)

theorem IssuedInPlace.fits {n : Ticket} (h : IssuedInPlace Z data n a) :
    n.queueId ∉ Z ∧ Ticketing.place a n.queueId = some n.place := by
  unfold Ticket.place
  rw [h.queueId, h.branchId, h.serviceId]
  exact ⟨h.notIn, h.place⟩

/-- **What is issued** is issued for a queue of its place. -/
theorem triple_issueInPlace (hP : ∀ a b, P a b → Fixed Z a b) (hI : Indifferent (fits Z s r) P) :
    Triple (fits Z s r) e (fixed Z) P (issueTicketCore orgId data) fun x a c =>
      IssuedInPlace Z data x.2 a ∧ ∃ b, P a b ∧ Wrote (fits Z s r) .ticket x.1 none x.2 b c := by
  refine (triple_issueTicketCore_of (triple_queueForIssue hP) fun a b c hbc h =>
    ⟨h.1, hI a b c hbc h.2⟩).post fun x a c h => ?_
  obtain ⟨⟨q, v, num, cust, i, ref, now, hn, -⟩, b, ⟨hq, hp⟩, hw⟩ := h
  have hz := fits_issued hw
  rw [hn] at hz
  refine ⟨⟨?_, ?_, ?_, hz, hq hz⟩, b, hp, hw⟩ <;> rw [hn] <;> rfl

theorem indifferent_kept {F : Db → Prop} {C : DbWrite → Bool} :
    Indifferent C fun a b => F a ∧ Kept Z s a b := fun _ _ _ hbc h => ⟨h.1, h.2.trans hbc.kept⟩

theorem triple_issueKept :
    Triple (fits Z s r) e (fixed Z) (Kept Z s) (issueTicketCore orgId data) fun _ => Kept Z s :=
  (triple_issueInPlace (fun _ _ h => h.1) fun _ _ _ hbc h => h.trans hbc.kept).post
    fun _ _ _ ⟨hin, _, hk, hw⟩ => kept_of_issued hk hw hin.fits.1 fun _ => hin.fits.2

theorem keeps_asides {α : Type} {t : TTx α}
    (h : Confined (fits Z s r) e (fixed Z) (Aside (fits Z s r)) t) :
    Triple (fits Z s r) e (fixed Z) (Kept Z s) t fun _ => Kept Z s :=
  h.keeps fun _ _ _ hbc hab => hab.trans hbc.kept

def TargetFound (Z : List Id) (plan : TransferPlan) (a : Db) : Prop :=
  plan.target.queueId ∉ Z → ∃ branchId,
    place a plan.target.queueId = some (branchId, plan.serviceId)

theorem triple_planTransfer {ticket : Ticket} {target : Option Id} {desk : Option String} :
    Triple (fits Z s r) e (fixed Z) (Kept Z s) (planTransfer orgId ticket target desk ref)
      fun plan a b => TargetFound Z plan a ∧ Kept Z s a b := by
  refine .bind confined_findById.still fun _ => .bind confined_transferTarget.still fun tgt =>
    .bind (triple_findQueue fun _ _ h => h.1) fun o => .bind (triple_orThrow (Q := fun (q : Queue) a b =>
      (tgt.queueId ∉ Z → place a tgt.queueId = some q.place) ∧ Kept Z s a b)
      fun q a b ho h => ⟨h.1 q ho, h.2⟩) fun q =>
    .bind confined_resolveQueueCallingPolicy.still fun _ =>
    .bind (indifferent_kept.triple confined_reserveQueueDisplayNumber) fun number =>
    .bind (indifferent_kept.triple confined_transferRef) fun ref => .pure fun a b h => ?_
  exact ⟨fun hz => ⟨q.branchId, h.1 hz⟩, h.2⟩

/-- **A transfer** that passes its checks. -/
theorem triple_transferInPlace {target : Option Id} {desk : Option String} {surface : ActionSurface}
    (hr : r.transfers = true) (ho : r.overwrites = true) :
    Triple (fits Z s r) e (fixed Z) (Kept Z s) (transferTx orgId id target desk ref surface)
      fun _ => Kept Z s := by
  refine .bind confined_assertActionSurfaceForTicket.still fun _ => .bind confined_findById.still
    fun _ => .bind (confined_orThrow _ _).still fun t => .bind (confined_assertClassicDesk _ _).still
    fun _ => .bind confined_assertStaffQueueActionAllowed.still fun _ =>
    .bind triple_planTransfer fun plan => .bind confined_now.still fun now => ?_
  have hover : ∀ {u u' : Ticket} {a b c : Db}, TargetFound Z plan a ∧ Kept Z s a b →
      Wrote (fits Z s r) .ticket id (some u) u' b c → Overwritten u u' →
      TargetFound Z plan a ∧ Kept Z s a c :=
    fun h hw how => ⟨h.1, h.2.trans (how.kept ho hw)⟩
  split
  · refine .bind (triple_update (Q := fun _ a b => TargetFound Z plan a ∧ Kept Z s a b)
      fun u a b c h _ hw => hover h hw (.transferredOut plan now)) fun _ =>
      .bind (triple_create (Q := fun _ => Kept Z s) fun n a b c h hw => ?_) fun _ => .pure fun a b h => h
    have hz := fits_issued hw
    refine kept_of_issued h.2 hw hz fun hs => ?_
    obtain ⟨branchId, hp⟩ := h.1 hz
    have hC := hw.1
    simp only [fits, hr, Bool.not_true, Bool.false_or, Bool.and_eq_true, beq_iff_eq] at hC
    have hbr := hC.2
    rw [← hs _ hz] at hbr
    have hq : place a (transferredTicket t plan now).queueId = some (branchId, plan.serviceId) := hp
    rw [hq, Option.map_some, Option.some.injEq] at hbr
    rw [hq]
    exact congrArg some (Prod.ext hbr rfl)
  · exact .bind (triple_update (Q := fun _ a b => TargetFound Z plan a ∧ Kept Z s a b)
      fun u a b c h _ hw => hover h hw (.requeued t plan now)) fun _ => .pure fun a b h => h.2

theorem triple_issueNextInPlace {jc : JourneyContext} {status : TicketStatus}
    {next : Option JourneyNextStep} :
    Triple (fits Z s r) e (fixed Z) (Kept Z s) (issueNextIfAny orgId jc status next ref)
      fun _ => Kept Z s := by
  cases next with
  | none => exact .pure fun a b h => h
  | some n =>
    exact .bind (.bind (keeps_asides confined_resolveQueueForFlowStep) fun _ =>
      .bind (confined_orThrow _ _).still fun _ => .bind (confined_throwIf _ _).still fun _ =>
      .bind (confined_throwIf _ _).still fun _ => triple_issueKept.mapError) fun _ =>
      .pure fun a b h => h

theorem Rewrote.kept {t t' : Ticket} (h : Rewrote (fits Z s r) orgId id (Kept Z s) t t' a b)
    (hm : Moved t t') : Kept Z s a b := by
  obtain ⟨m, ⟨m', hk, -, hl⟩, hw⟩ := h
  exact (hk.trans (Moved.kept hl (.beside rfl))).trans (hm.kept hw)

/-- **The locked transaction of `complete`.** -/
theorem triple_finalizeInPlace {jc : JourneyContext} :
    Triple (fits Z s r) e (fixed Z) (Kept Z s) (finalizeTx orgId id .completed ref jc)
      fun _ => Kept Z s := by
  refine .bind (triple_forUpdate (Q := fun _ => Kept Z s)
    (fun t a b c h _ hw => h.trans (Moved.kept hw (.beside rfl))) fun a b h => h) fun o =>
    .bind (confined_orThrow _ _).still fun t => ?_
  split
  · exact .bind confined_findActiveJourneyFollowUpTicket.still fun _ => .pure fun a b h => h
  · refine .bind (keeps_asides confined_resolveNextJourneyStepIn) fun next =>
      .bind (confined_throwIf _ _).still fun _ => .bind (keeps_asides confined_resolveJourneyRef)
      fun ref' => .bind triple_issueNextInPlace fun issued => .bind confined_now.still fun now =>
      .bind (triple_transitionTicketCore.post fun t' a c h => ?_) fun _ =>
      .pure (P := Kept Z s) fun a b h => h
    obtain ⟨u, now', hu, rfl, hw⟩ := h
    exact hw.kept (.transitioned _ _ _ (List.mem_pair.mp hu) (by decide))

end

/-! ## One request -/

def IssuesInPlace (Z : List Id) (data : IssueTicketData) (a b : Db) : Prop :=
  ∀ id n, a.get .ticket id = none → b.get .ticket id = some n → IssuedInPlace Z data n a

/-- What a commit of the request does. -/
def Settles (Z : List Id) (s : Db) (r : Request) (a b : Db) : Prop :=
  Kept Z s a b ∧ ∀ o data i, r = .issueTicket o data i → IssuesInPlace Z data a b

section

variable {Z : List Id} {s : Db} {r : Request} {e : Err} {U : Db → Db → Prop} {α : Type}
  {data : IssueTicketData}

theorem issuesInPlace_refl (a : Db) : IssuesInPlace Z data a a :=
  fun id n hn hs => by rw [hn] at hs; cases hs

theorem Settles.refl (a : Db) : Settles Z s r a a :=
  ⟨.refl Z s a, fun _ _ _ _ => issuesInPlace_refl a⟩

/-- A part of a request that any other request could have. -/
theorem calm_kept {c : TCall α} (hU : ∀ a b, Kept Z s a b → NoneIssued a b → U a b)
    (h : ∀ r', Mute (fits Z s r) e r' c) : Calm (fits Z s r) e (fixed Z) U Answer c := by
  refine (h (.refreshVisit 0 0)).1 _ _ _ fun a b hab => ?_
  have hk : Kept Z s a b := kept_steps (fun a b he => he.kept rfl fun h => by cases h) hab
  exact ⟨hk.1, hU a b hk (noneIssued_steps (fun a b he => he.noneIssued rfl) hab)⟩

def SameIds (d d' : IssueTicketData) : Prop :=
  d'.queueId = d.queueId ∧ d'.branchId = d.branchId ∧ d'.serviceId = d.serviceId

theorem IssuedInPlace.of_sameIds {d d' : IssueTicketData} {n : Ticket} {a : Db} (hd : SameIds d d')
    (h : IssuedInPlace Z d' n a) : IssuedInPlace Z d n a where
  queueId := h.queueId.trans hd.1
  branchId := h.branchId.trans hd.2.1
  serviceId := h.serviceId.trans hd.2.2
  notIn := hd.1 ▸ h.notIn
  place := by rw [← hd.1, ← hd.2.1, ← hd.2.2]; exact h.place

theorem triple_prepareIssueTicketPayload {scope : Scope} {orgId : Id} :
    Triple (fits Z s r) e (fixed Z) Eq (prepareIssueTicketPayload scope orgId data)
      fun d a b => SameIds data d ∧ a = b := by
  refine .bind confined_isVisitJourneysEnabledForOrg.still fun _ =>
    .bind confined_resolveEffectiveJourneyMode.still fun _ =>
    .bind confined_resolveFlowStepIndexForQueue.still fun _ => .pure fun a b h => ⟨?_, h⟩
  split
  · exact ⟨rfl, rfl, rfl⟩
  · exact ⟨rfl, rfl, rfl⟩

/-- **Issuing a ticket** on a request. -/
theorem calm_issueTicket {orgIdOrNull : Option Id} {issuance : Issuance}
    (hU : ∀ a b, Kept Z s a b → NoneIssued a b → U a b)
    (hI : ∀ a b, Kept Z s a b → IssuesInPlace Z data a b → U a b) :
    Calm (fits Z s r) e (fixed Z) U Answer (issueTicket orgIdOrNull data issuance) := by
  refine Calm.bind (calm_kept hU fun _ => .bind (mute_rejectIf _ _) fun _ =>
      .bind (mute_rejectIf _ _) fun _ => mute_rejectIf _ _) fun _ =>
    Calm.bind (calm_kept hU fun _ => .tx fun _ => confined_orgForIssue) fun orgId =>
    Calm.bind Calm.input fun _ =>
    Calm.bind (calm_kept hU fun _ => .tx fun _ => confined_checkEntry) fun _ =>
    Calm.bind (calm_kept hU fun _ => .tx fun _ => confined_mayRefuse _)
      fun _ => CalmFrom.readBind (F := fun d _ => SameIds data d)
    (triple_prepareIssueTicketPayload.post fun d a b h => h) fun d =>
    CalmFrom.tx (fun _ _ _ h => h) ((triple_issueInPlace (P := fun a b => Kept Z s a b ∧
      TicketsUntouched a b) (fun _ _ h => h.1.1) fun _ _ _ hbc h =>
      ⟨h.1.trans hbc.kept, h.2.trans hbc.untouched⟩).pre fun a b h => h ▸ ⟨.refl Z s a, .refl a⟩)
    fun x a c hd h => ?_
  obtain ⟨hin, b, ⟨hk, hunt⟩, hw⟩ := h
  have hkc : Kept Z s a c := kept_of_issued hk hw hin.fits.1 fun _ => hin.fits.2
  refine ⟨hkc.1, hI a c hkc fun id n hn hs => ?_⟩
  by_cases hid : id = x.1
  · subst hid
    rw [hw.2.get_self] at hs
    cases hs
    exact hin.of_sameIds hd
  · rw [hw.2.get_ne (by simpa using hid), hunt id, hn] at hs
    cases hs

/-- Of a request that is not an issuance, nothing else is asked. -/
theorem settles_of_kept (hr : ∀ o data i, r ≠ .issueTicket o data i) {a b : Db}
    (hk : Kept Z s a b) : Settles Z s r a b :=
  ⟨hk, fun o data i h => absurd h (hr o data i)⟩

theorem calm_part {c : TCall α} (hr : ∀ o data i, r ≠ .issueTicket o data i)
    (h : ∀ r', Mute (fits Z s r) e r' c) :
    Calm (fits Z s r) e (fixed Z) (Settles Z s r) Answer c :=
  calm_kept (fun _ _ hk _ => settles_of_kept hr hk) h

/-- A transaction of such a request that keeps places. -/
theorem calm_tx_kept {t : TTx α} (hr : ∀ o data i, r ≠ .issueTicket o data i)
    (h : Triple (fits Z s r) e (fixed Z) (Kept Z s) t fun _ => Kept Z s) :
    Calm (fits Z s r) e (fixed Z) (Settles Z s r) Answer (Call.withTx t : TCall α) :=
  Calm.tx (h.pre fun a _ hab => hab ▸ .refl Z s a) fun _ _ _ hk => ⟨hk.1, settles_of_kept hr hk⟩

/-- **One request** keeps the places, and the tickets in theirs. -/
theorem calm_settles (r : Request) :
    Calm (fits Z s r) e (fixed Z) (Settles Z s r) Answer r.run := by
  cases r with
  | issueTicket o data i =>
    refine Calm.bind (calm_issueTicket (fun a b hk hn => ⟨hk, fun o' d' i' _ id n hid hs => ?_⟩)
      fun a b hk hi => ⟨hk, fun o' d' i' h => ?_⟩) fun _ => Calm.pure _
    · rw [hn id hid] at hs
      cases hs
    · cases h
      exact hi
  | createVisitStep o v data =>
    refine Calm.bind (Calm.bind (calm_part (by simp) fun _ =>
      .tx fun _ => confined_aside confined_visitForStep) fun visit => calm_issueTicket ?_ ?_) fun _ =>
      Calm.pure _
    · exact fun a b hk _ => settles_of_kept (by simp) hk
    · exact fun a b hk _ => settles_of_kept (by simp) hk
  | complete o t x sf =>
    refine Calm.bind (Calm.bind (calm_part (by simp) fun _ =>
      .tx fun _ => confined_assertActionSurfaceForTicket) fun _ =>
      Calm.bind (calm_part (by simp) fun _ => .tx fun _ => .bind confined_assertDeskOfTicket fun _ =>
        .bind (confined_orThrow _ _) fun _ => .pure _) fun _ =>
      Calm.bind (calm_part (by simp) fun _ => .tx fun _ => .bind confined_findById fun _ =>
        .bind (confined_orThrow _ _) fun _ => .bind confined_findById fun _ => .pure _) fun jc =>
      Calm.bind (calm_part (by simp) fun _ => mute_preCheck) fun _ =>
      Calm.bind (calm_tx_kept (by simp) triple_finalizeInPlace.mapError) fun _ =>
      Calm.bind (calm_part (by simp) fun _ => mute_emitTransitionSideEffects _) fun _ =>
        Calm.pure _) fun _ => Calm.pure _
  | transfer o t q d x sf =>
    exact Calm.bind (calm_tx_kept (by simp) (triple_transferInPlace rfl rfl)) fun _ => Calm.pure _
  | _ =>
    refine mild_run _ _ _ _ fun a b hab => ?_
    have hk : Kept Z s a b := kept_steps (fun a b he => he.kept rfl fun h => h) hab
    exact ⟨hk.1, settles_of_kept (by simp) hk⟩

end

/-! ## Runs -/

/-- The check for request `i`. -/
def fitting (Z : List Id) (s : Db) (requests : List Request) (i : ℕ) (w : DbWrite) : Bool :=
  requests[i]?.all fun r => fits Z s r w

/-- The statements of a run from `s` fit, with no queue moved but those of `Z`. -/
def Fitting (Z : List Id) (s : Db) (requests : List Request) (c : Run) (i : ℕ) : Prop :=
  c.Meets (fitting Z s requests) i

/-- No ticket that is active stands in a queue of `Z`. -/
def Vacant (Z : List Id) (s : Db) : Prop :=
  ∀ id t, s.get .ticket id = some t → t.status.active = true → t.queueId ∉ Z

/-- Every active ticket has the branch and the service of its queue. -/
def InPlace (s : Db) : Prop :=
  ∀ id t, s.get .ticket id = some t → t.status.active = true → place s t.queueId = some t.place

theorem placed_iff {Z : List Id} {s : Db} : Placed Z s ↔ InPlace s ∧ Vacant Z s :=
  ⟨fun h => ⟨fun id t ht ha => (h id t ht ha).1, fun id t ht ha => (h id t ht ha).2⟩,
    fun h id t ht ha => ⟨h.1 id t ht ha, h.2 id t ht ha⟩⟩

/-- The stores a server comes to, one run after another. Each run has queues of its own that it moves,
in which no ticket stands. -/
inductive Comes (s : Db) : Db → Prop
  | here : Comes s s
  | run {a : Db} (h : Comes s a) (Z : List Id) (hz : Vacant Z a) (requests : List Request) {c : Run}
      (hr : Reach (Fitting Z a requests) (start a requests) c) : Comes s c.db

section

variable {Z : List Id} {s : Db} {requests : List Request} {c : Run} {i : ℕ} {a b : Db}

theorem commit_settles (h : Reach (Fitting Z s requests) (start s requests) c)
    (hc : Commit c.trace i a b) :
    Fixed Z a b ∧ ∀ r, requests[i]? = some r → Settles Z s r a b := by
  have hcalm : ∀ j d, (calls requests)[j]? = some d →
      Calm (fitting Z s requests j) Err.recordNotFound (fixed Z)
        (fun a b => ∀ r, requests[j]? = some r → Settles Z s r a b) Answer d := by
    intro j d hd
    obtain ⟨r, hr, rfl⟩ := getElem?_calls hd
    have heq : (fun a b => ∀ r', requests[j]? = some r' → Settles Z s r' a b) = Settles Z s r := by
      funext a b
      simp [hr]
    have hC : fitting Z s requests j = fits Z s r := by
      funext w
      simp [fitting, hr]
    rw [heq, hC]
    exact calm_settles r
  exact reach_calm hcalm (fun _ a _ _ => .refl a) (fun _ _ hp => hp) h hc

/-- At every moment of a run the queues have the places they had at its start. -/
theorem reach_fixed (h : Reach (Fitting Z s requests) (start s requests) c) : Fixed Z s c.db :=
  (reach_linear h).carry (fun _ _ _ hc hf => hf.trans (commit_settles h hc).1) (.refl Z s)

theorem reach_placed (h : Reach (Fitting Z s requests) (start s requests) c) (hs : Placed Z s) :
    Placed Z c.db := by
  refine ((reach_linear h).carry (F := fun a => Fixed Z s a ∧ Placed Z a) (fun j a b hc ha => ?_)
    ⟨.refl Z s, hs⟩).2
  have hlt : j < requests.length := by
    simpa [calls] using reach_owned h hc
  have hk := ((commit_settles h hc).2 _ (List.getElem?_eq_getElem hlt)).1
  exact ⟨ha.1.trans hk.1, hk.2 ha.1 ha.2⟩

end

/-- **Tickets stay in place**: in every store the server comes to, every active ticket has the branch and
the service of its queue; and what is issued on a request has those of the request, which are its
queue's. -/
theorem reach_places {s a : Db} (hs : InPlace s) (h : Comes s a) : InPlace a ∧
    ∀ Z requests c, Vacant Z a → Reach (Fitting Z a requests) (start a requests) c →
      InPlace c.db ∧ ∀ (i : ℕ) o data issuance x y, requests[i]? = some (.issueTicket o data issuance) →
        Commit c.trace i x y → IssuesInPlace Z data x y := by
  have hrun : ∀ {a : Db}, InPlace a → ∀ Z requests c, Vacant Z a →
      Reach (Fitting Z a requests) (start a requests) c → InPlace c.db :=
    fun ha Z requests c hz hr => (placed_iff.mp (reach_placed hr (placed_iff.mpr ⟨ha, hz⟩))).1
  have ha : InPlace a := by
    induction h with
    | here => exact hs
    | run _ Z hz requests hr ih => exact hrun ih Z requests _ hz hr
  exact ⟨ha, fun Z requests c hz hr => ⟨hrun ha Z requests c hz hr, fun i o data issuance x y hi hc =>
    ((commit_settles hr hc).2 _ hi).2 o data issuance rfl⟩⟩

/-! ## Tickets out of place -/

def strays (s : Db) : List (Id × Ticket) :=
  s.rows .ticket fun _ t => t.status.active && place s t.queueId != some t.place

theorem strays_eq_nil {s : Db} : strays s = [] ↔ InPlace s := by
  rw [List.eq_nil_iff_forall_not_mem]
  constructor
  · intro h id t ht hact
    by_contra hp
    exact h (id, t) (Rel.mem_rows.mpr ⟨ht, by simp [hact, hp]⟩)
  · rintro h ⟨id, t⟩ hmem
    obtain ⟨ht, hs⟩ := Rel.mem_rows.mp hmem
    simp only [Bool.and_eq_true, bne_iff_ne, ne_eq] at hs
    exact hs.2 (h id t ht hs.1)

instance (s : Db) : Decidable (InPlace s) := decidable_of_iff _ strays_eq_nil

def oneServed : Db := shop false [] [(1, beingServed)]

/-- A ticket for the first service is put into the queue of the second. -/
def toOtherService : List Request := [.transfer 1 1 (some 2) none none .classic]

/-- **A transfer** to a queue of another service is answered with success. -/
theorem transfer_strays : ∃ c, InPlace oneServed ∧ Reach Always (start oneServed toOtherService) c ∧
    answeredOk 0 c = true ∧ ¬ InPlace c.db := by
  obtain ⟨c, hc, hp⟩ := exists_reach_anywhere
    (start oneServed toOtherService) (turns 0 26)
    (fun c => answeredOk 0 c && decide (¬ InPlace c.db)) (by decide +kernel)
  simp only [Bool.and_eq_true, decide_eq_true_eq] at hp
  exact ⟨c, by decide +kernel, hc, hp⟩

def toService : List Request := [.updateQueue 1 1 { serviceId := some 2 }]

/-- **An update** takes a queue to another service while a ticket is served in it. -/
theorem update_strays : ∃ c, InPlace oneServed ∧ Reach Always (start oneServed toService) c ∧
    answeredOk 0 c = true ∧ ¬ InPlace c.db := by
  obtain ⟨c, hc, hp⟩ := exists_reach_anywhere
    (start oneServed toService) (turns 0 11)
    (fun c => answeredOk 0 c && decide (¬ InPlace c.db)) (by decide +kernel)
  simp only [Bool.and_eq_true, decide_eq_true_eq] at hp
  exact ⟨c, by decide +kernel, hc, hp⟩

def toNextStep : List Request := [.transfer 1 1 none none none .classic]

theorem reach_places_transfer : ∃ c,
    Reach (Fitting [] journeyShop toNextStep) (start journeyShop toNextStep) c ∧
      answeredOk 0 c = true ∧ InPlace c.db := by
  obtain ⟨c, hc, hp⟩ := exists_reach (o := Config.meets (fitting [] journeyShop toNextStep))
    (P := Fitting [] journeyShop toNextStep) (fun _ _ h => Config.meets_of h)
    (start journeyShop toNextStep) (turns 0 28) (fun c => answeredOk 0 c) (by decide +kernel)
  exact ⟨c, hc, hp, ((reach_places (by decide +kernel) .here).2 [] toNextStep c
    (fun _ _ _ _ => by simp) hc).1⟩

end PatronLoyalty.Ticketing
