import PatronLoyalty.Ticketing.Advance

/-!
# What goes with a patron

The ticket of the next step of a visit is assembled field by field: `complete` copies from the ticket
before it the visit, the customer and the language, `transfer` the consent as well; the display number
comes from the first ticket of the visit, or is a fresh one of the target queue; the template is that of
the queue of the next step, or none.

Headline: **`journey_continuous`**. Where what is not copied has nothing to lose, every ticket of the
visit bears what the one before it bears, whatever is done to templates, queues and customers between
the steps.
-/

namespace PatronLoyalty.Ticketing

open Txn Relation
open Txn.Rel (Wrote)
open Loyalty (Id Err truthy truthy_some)

/-- What a ticket is to bear of the one it follows. -/
structure Identity where
  customerId : Option Id
  customerPhone : Option String
  language : Option String
  displayNumber : String
  transactionalSmsAllowed : Bool
  flowTemplateId : Option Id
  deriving DecidableEq, Repr

def Ticket.identity (t : Ticket) : Identity :=
  ⟨t.customerId, t.customerPhone, t.language, t.displayNumber, t.transactionalSmsAllowed,
    t.flowTemplateId⟩

/-- The tickets of the visit `v`. -/
def onVisit (v : Id) (s : Db) (id : Id) : Option Identity :=
  ((s.get .ticket id).filter (·.visitId == some v)).map Ticket.identity

/-- The tickets of the visit bear one display number. -/
def OneNumber (v : Id) (s : Db) : Prop :=
  ∃ d, d ≠ "" ∧ ∀ id i, onVisit v s id = some i → i.displayNumber = d

/-- An advance of the ticket `src`: the tickets of the visit bear what they did, and what is new bears
what `src` does. -/
structure Continues (v src : Id) (s s' : Db) : Prop where
  old : ∀ id, s.get .ticket id ≠ none → onVisit v s' id = onVisit v s id
  new : ∀ id, s.get .ticket id = none →
    s'.get .ticket id = none ∨ onVisit v s' id = onVisit v s src

section

variable {v src : Id} {s s' a : Db} {t n : Ticket} {id : Id}

theorem onVisit_of_row (ht : s.get .ticket id = some t) (hv : t.visitId = some v) :
    onVisit v s id = some t.identity := by
  unfold onVisit
  rw [ht, Option.filter_some, if_pos (by simp [hv])]
  rfl

theorem onVisit_congr (h : s'.get .ticket id = s.get .ticket id) :
    onVisit v s' id = onVisit v s id := by
  unfold onVisit
  rw [h]

theorem exists_row {i : Identity} (h : onVisit v s id = some i) :
    ∃ t, s.get .ticket id = some t ∧ t.visitId = some v ∧ i = t.identity := by
  obtain ⟨t, ht, rfl⟩ := Option.map_eq_some_iff.mp h
  obtain ⟨hrow, hv⟩ := Option.filter_eq_some_iff.mp ht
  exact ⟨t, hrow, by simpa using hv, rfl⟩

theorem continues_of_untouched (h : TicketsUntouched s s') : Continues v src s s' :=
  ⟨fun id _ => onVisit_congr (h id), fun id hn => Or.inl ((h id).trans hn)⟩

theorem Continues.untouched (h : Continues v src s a) (hu : TicketsUntouched a s') :
    Continues v src s s' :=
  ⟨fun id hid => (onVisit_congr (hu id)).trans (h.old id hid), fun id hid => (h.new id hid).imp
    (hu id).trans (onVisit_congr (hu id)).trans⟩

theorem Continues.of_untouched (hu : TicketsUntouched s a) (h : Continues v src a s') :
    Continues v src s s' := by
  refine ⟨fun id hid => (h.old id (hu id ▸ hid)).trans (onVisit_congr (hu id)), fun id hid => ?_⟩
  exact (h.new id ((hu id).trans hid)).imp_right (·.trans (onVisit_congr (hu src)))

theorem continues_of_rows {t' : Ticket} {x : Id × Ticket} (ht : s.get .ticket src = some t)
    (hv : t.visitId = some v) (ht' : s'.get .ticket src = some t') (hv' : t'.visitId = some v)
    (hold : t'.identity = t.identity) (hx : s'.get .ticket x.1 = some x.2)
    (hvx : x.2.visitId = some v) (hnew : x.2.identity = t.identity)
    (hfresh : s.get .ticket x.1 = none)
    (hrest : ∀ id, id ≠ src → id ≠ x.1 → s'.get .ticket id = s.get .ticket id) :
    Continues v src s s' := by
  have hsrc : onVisit v s src = some t.identity := onVisit_of_row ht hv
  constructor
  · intro id hid
    by_cases hs : id = src
    · rw [hs, hsrc, onVisit_of_row ht' hv', hold]
    · exact onVisit_congr (hrest id hs (by rintro rfl; exact hid hfresh))
  · intro id hid
    by_cases hi : id = x.1
    · rw [hi, hsrc, onVisit_of_row hx hvx, hnew]
      exact Or.inr rfl
    · have hs : id ≠ src := by
        rintro rfl
        rw [ht] at hid
        cases hid
      exact Or.inl ((hrest id hs hi).trans hid)

theorem Continues.oneNumber (h : Continues v src s s') (hn : OneNumber v s) : OneNumber v s' := by
  obtain ⟨d, hd, hall⟩ := hn
  refine ⟨d, hd, fun id i hi => ?_⟩
  by_cases hid : s.get .ticket id = none
  · rcases h.new id hid with hnone | hnew
    · unfold onVisit at hi
      rw [hnone] at hi
      cases hi
    · exact hall src i (hnew.symm.trans hi)
  · exact hall id i ((h.old id hid).symm.trans hi)

end

/-! ## What is issued -/

/-- The patron's customer stays the same when the next ticket is issued: a customer that is found has no
phone to add, and none is made up for a patron without a customer. -/
def SameCustomer (orgId : Id) (s : Db) (t : Ticket) : Prop :=
  (∀ id c, t.customerId = some id → s.get .customer id = some c →
    visible (.tenant orgId) .customer c = true →
    ((truthy t.customerPhone).orElse fun _ => truthy c.phone) = t.customerPhone) ∧
  (t.customerId = none → truthy t.customerPhone = none ∧ truthy t.customerName = none)

/-- What `complete` does not copy has nothing to lose. -/
structure CarriesOn (orgId : Id) (s : Db) (t : Ticket) (next : JourneyNextStep) : Prop where
  consent : t.transactionalSmsAllowed = false
  language : t.language.isSome = true
  template : ∀ q, s.get .queue next.queueId = some q → q.flowTemplateId = t.flowTemplateId
  customer : SameCustomer orgId s t

section Issue

variable {s s' m : Db} {orgId v src : Id} {data : IssueTicketData}

theorem gives_queueForIssue {q : Queue} (h : (queueForIssue orgId data).gives s q s') :
    s.get .queue data.queueId = some q := by
  obtain ⟨_, _, h1⟩ := gives_still confined_findById h
  obtain ⟨_, _, h2⟩ := gives_still (confined_orThrow _ _) h1
  obtain ⟨_, _, h3⟩ := gives_still (confined_assertBranchAcceptsCustomerIntake _) h2
  obtain ⟨_, _, h4⟩ := gives_still confined_findById h3
  obtain ⟨_, _, h5⟩ := gives_still (confined_orThrow _ _) h4
  obtain ⟨o, ho, h6⟩ := gives_still confined_findById h5
  obtain ⟨q', hq', h7⟩ := gives_still (confined_orThrow _ _) h6
  obtain ⟨_, _, h8⟩ := gives_still (confined_throwIf _ _) h7
  obtain ⟨rfl, -⟩ := gives_orThrow.mp hq'
  rw [show q = q' from h8.1]
  exact (Option.filter_eq_some_iff.mp (gives_findById.mp ho).1.symm).1

theorem byTicketStepIndex_total (a b : Ticket) :
    byTicketStepIndex a b = true ∨ byTicketStepIndex b a = true := by
  unfold byTicketStepIndex
  cases a.stepIndex <;> cases b.stepIndex <;> simp
  omega

theorem byTicketStepIndex_trans {a b c : Ticket} (h : byTicketStepIndex a b = true)
    (h' : byTicketStepIndex b c = true) : byTicketStepIndex a c = true := by
  unfold byTicketStepIndex at *
  cases ha : a.stepIndex <;> cases hb : b.stepIndex <;> cases hc : c.stepIndex <;>
    simp [ha, hb, hc] at h h' ⊢
  omega

theorem gives_visitForIssue {d : String} {mode : JourneyMode} {x : Option Id × Option String}
    {t : Ticket} (hv : data.visitId = some v) (hd : d ≠ "")
    (hall : ∀ id i, onVisit v s id = some i → i.displayNumber = d)
    (ht : s.get .ticket src = some t) (hseen : visible (.tenant orgId) .ticket t = true)
    (htv : t.visitId = some v) (h : (visitForIssue orgId data mode).gives s x s') :
    x = (some v, some d) ∧ Undisturbed s s' := by
  unfold visitForIssue at h
  rw [hv] at h
  obtain ⟨_, _, h1⟩ := gives_still confined_findFirst h
  obtain ⟨visit, _, h2⟩ := gives_still (confined_orThrow _ _) h1
  obtain ⟨_, m, hreopen, h3⟩ := h2.seq
  obtain ⟨first, hfirst, h4⟩ := gives_still confined_findFirstBy h3
  obtain ⟨hx, rfl⟩ := h4
  have hm : Undisturbed s s' := undisturbed_of_visits
    ((visits_reopenVisit (C := anyWrite) (e := .recordNotFound) _).gives hreopen)
  have hmem : (src, t) ∈ seen (.tenant orgId) .ticket (fun _ t => t.visitId == some v) s' :=
    mem_seen.mpr ⟨(hm .ticket src (by simp) (by simp)).trans ht, hseen, by simp [htv]⟩
  obtain ⟨-, ⟨-, hno⟩ | ⟨⟨id, f⟩, hf, rfl, -⟩⟩ :=
    gives_findFirstBy (k := .ticket) byTicketStepIndex_total
      (fun _ _ _ => byTicketStepIndex_trans) hfirst
  · exact absurd hmem (hno _)
  · obtain ⟨hrow, -, hvisit⟩ := mem_seen.mp hf
    rw [hm .ticket id (by simp) (by simp)] at hrow
    have hnum : f.displayNumber = d := hall id _ (onVisit_of_row hrow (by simpa using hvisit))
    refine ⟨hx.trans ?_, hm⟩
    rw [Option.map_some, hnum, truthy_some hd]

theorem gives_customerForIssue {c : IssueCustomer}
    (hfound : ∀ id r, data.customerId = some id → s.get .customer id = some r →
      visible (.tenant orgId) .customer r = true →
      ((truthy data.customerPhone).orElse fun _ => truthy r.phone) = data.customerPhone)
    (hnone : data.customerId = none →
      truthy data.customerPhone = none ∧ truthy data.customerName = none)
    (h : (customerForIssue orgId data).gives s c s') :
    c.customerId = data.customerId ∧ c.phone = data.customerPhone := by
  unfold customerForIssue at h
  cases hid : data.customerId with
  | some id =>
    rw [hid] at h
    obtain ⟨o, ho, h1⟩ := gives_still confined_findById h
    cases o with
    | none =>
      rw [show c = _ from h1.1]
      exact ⟨rfl, rfl⟩
    | some r =>
      obtain ⟨_, _, _, h2⟩ := h1.seq
      obtain ⟨hrow, hv⟩ := Option.filter_eq_some_iff.mp (gives_findById.mp ho).1.symm
      rw [show c = _ from h2.1]
      exact ⟨rfl, hfound id r hid hrow hv⟩
  | none =>
    obtain ⟨hphone, hname⟩ := hnone hid
    rw [hid, hphone, hname] at h
    rw [show c = _ from h.1]
    exact ⟨rfl, rfl⟩

/-- **What an issuance in a visit hands on.** -/
theorem gives_issueTicketCore_identity {d : String} {x : Id × Ticket} {t : Ticket}
    (hv : data.visitId = some v) (hd : d ≠ "")
    (hall : ∀ id i, onVisit v s id = some i → i.displayNumber = d)
    (ht : s.get .ticket src = some t) (hseen : visible (.tenant orgId) .ticket t = true)
    (htv : t.visitId = some v)
    (hfound : ∀ id r, data.customerId = some id → s.get .customer id = some r →
      visible (.tenant orgId) .customer r = true →
      ((truthy data.customerPhone).orElse fun _ => truthy r.phone) = data.customerPhone)
    (hnone : data.customerId = none →
      truthy data.customerPhone = none ∧ truthy data.customerName = none)
    (h : (issueTicketCore orgId data).gives s x s') :
    ∃ q, s.get .queue data.queueId = some q ∧ x.2.visitId = some v ∧
      x.2.identity = ⟨data.customerId, data.customerPhone, some (data.language.getD "en"), d,
        data.transactionalSmsAllowed.getD false, q.flowTemplateId⟩ := by
  obtain ⟨queue, hqueue, h1⟩ := gives_still confined_queueForIssue h
  obtain ⟨mode, -, h2⟩ := gives_still confined_effectiveJourneyMode h1
  obtain ⟨visit, m1, hvisit, h3⟩ := h2.seq
  obtain ⟨number, m2, hnumber, h4⟩ := h3.seq
  obtain ⟨_, -, h5⟩ := gives_still confined_resolveQueueCallingPolicy h4
  obtain ⟨customer, m3, hcustomer, h6⟩ := h5.seq
  obtain ⟨stepIndex, -, h7⟩ := gives_still confined_stepIndexForIssue h6
  obtain ⟨_, -, h8⟩ := gives_still confined_findById h7
  obtain ⟨ref, m4, -, h9⟩ := h8.seq
  obtain ⟨time, -, h10⟩ := gives_still confined_now h9
  obtain ⟨id, m5, -, h11⟩ := h10.seq
  obtain ⟨rfl, hm⟩ := gives_visitForIssue hv hd hall ht hseen htv hvisit
  obtain ⟨_, -, hpure⟩ := gives_still (.bind confined_findById fun _ =>
    .bind (confined_orThrow _ _) fun _ => confined_throwIf _ _) hnumber
  obtain ⟨rfl, rfl⟩ := hpure
  obtain ⟨hid, hphone⟩ := gives_customerForIssue (fun id r hid hr => hfound id r hid
    ((hm .customer id (by simp) (by simp)).symm.trans hr)) hnone hcustomer
  refine ⟨queue, gives_queueForIssue hqueue, ?_⟩
  rw [show x = _ from h11.1]
  refine ⟨rfl, ?_⟩
  unfold Ticket.identity issuedTicket
  rw [hid, hphone]

theorem IssuedFor.identity {jc : JourneyContext} {next : JourneyNextStep} {x : Id × Ticket}
    (h : IssuedFor orgId jc next x s) (hv : jc.ticket.visitId = some v)
    (hrow : s.get .ticket src = some jc.ticket)
    (hseen : visible (.tenant orgId) .ticket jc.ticket = true) (hnum : OneNumber v s)
    (hon : CarriesOn orgId s jc.ticket next) :
    x.2.visitId = some v ∧ x.2.identity = jc.ticket.identity := by
  obtain ⟨q, ref, m, m', hq, -, -, hm, hcore⟩ := h
  obtain ⟨d, hd, hall⟩ := hnum
  have hsame : ∀ id, m.get .ticket id = s.get .ticket id := fun id => hm .ticket id (by simp) (by simp)
  obtain ⟨q', hq', hvisit, hident⟩ := gives_issueTicketCore_identity hv hd
    (fun id i hi => hall id i ((onVisit_congr (hsame id)).symm.trans hi)) ((hsame src).trans hrow) hseen
    hv (fun id c hid hc => hon.customer.1 id c hid
      ((hm .customer id (by simp) (by simp)).symm.trans hc)) hon.customer.2 hcore
  refine ⟨hvisit, hident.trans ?_⟩
  have hqrow : s.get .queue next.queueId = some q' := (hm .queue _ (by simp) (by simp)).symm.trans hq'
  obtain ⟨lang, hlang⟩ := Option.isSome_iff_exists.mp hon.language
  unfold Ticket.identity
  rw [hon.template q' hqrow, hon.consent, hlang,
    hall src _ (onVisit_of_row hrow hv) |>.symm]
  simp only [advanceData, hlang, Ticket.identity, Option.getD_some, Option.getD_none]

end Issue

/-! ## The advancesTicket -/

/-- The next step that `complete` may issue a ticket for. -/
def MayFollow (orgId : Id) (s : Db) (t : Ticket) (next : JourneyNextStep) : Prop :=
  (t.status = .called ∨ t.status = .serving) ∧ ∃ jc a b res c, jc.ticket = t ∧
    (preCheck orgId jc).gives s (.ok ()) a ∧ SameRows a b ∧
    (resolveNextJourneyStepTx orgId t.context).gives b res c ∧ res.nextStep = some next

def nextNumber (q : Queue) (now : Time) : String :=
  formatDisplayNumber q.pre (if sessionExpired q now then 1 else q.nextTicketSeq)

def TransfersOn (orgId : Id) (s : Db) (t : Ticket) (targetQueueId : Option Id) : Prop :=
  ∀ queue target q now, (transferTarget orgId t queue targetQueueId).gives s target s →
    s.get .queue target.queueId = some q →
    t.flowTemplateId = none ∧ nextNumber q now = t.displayNumber

section Steps

variable {s s' a : Db} {orgId v src : Id} {t : Ticket} {I : Db → Prop} {ref : Option String}

theorem identity_transitioned {toStatus : TicketStatus} {data : TransitionData} {now : Time} :
    (transitioned t toStatus data now t).visitId = t.visitId ∧
      (transitioned t toStatus data now t).identity = t.identity := by
  unfold transitioned Ticket.identity
  dsimp only
  split <;> split <;> exact ⟨rfl, rfl⟩

theorem IssuedFor.before {jc : JourneyContext} {next : JourneyNextStep} {x : Id × Ticket}
    (hu : Undisturbed s a) (h : IssuedFor orgId jc next x a) : IssuedFor orgId jc next x s := by
  obtain ⟨q, ref, m, m', hq, hopen, hbranch, hm, hcore⟩ := h
  exact ⟨q, ref, m, m', ⟨(hu .queue _ (by simp) (by simp)).symm.trans hq.1, hq.2⟩, hopen, hbranch,
    hu.trans hm, hcore⟩

theorem untouched_of_repairs {C : DbWrite → Bool} (h : ReflTransGen (Repairs C) s a) :
    TicketsUntouched s a := fun id => undisturbed_of_repairs h .ticket id (by simp) (by simp)

/-- A ticket that is completed already is left alone. -/
theorem untouched_of_finalized {jc : JourneyContext} {done : Finalized}
    (ht : s.get .ticket src = some t) (hst : t.status = .completed)
    (hg : (finalizeTx orgId src .completed ref jc).gives s done s') : TicketsUntouched s s' := by
  obtain ⟨o, m1, hlock, h1⟩ := hg.seq
  obtain ⟨locked, hlocked, h2⟩ := gives_still (confined_orThrow _ _) h1
  obtain ⟨rfl, -⟩ := gives_orThrow.mp hlocked
  obtain ⟨hrow, -, hsame⟩ := gives_forUpdate hlock
  obtain rfl : t = locked := Option.some.inj (ht.symm.trans hrow)
  rw [if_pos hst] at h2
  obtain ⟨_, _, h3⟩ := gives_still confined_findActiveJourneyFollowUpTicket h2
  rw [h3.2]
  exact fun id => hsame .ticket id

/-- **`complete`** goes on with the visit. -/
theorem continues_of_complete {surface : ActionSurface} (ht : s.get .ticket src = some t)
    (hv : t.visitId = some v) (hnum : OneNumber v s)
    (hon : ∀ next, MayFollow orgId s t next → CarriesOn orgId s t next) :
    Call.Keeps (Continues v src s) (fun _ => Continues v src s) (complete orgId src ref surface) s := by
  refine keeps_complete ht (fun a ha => ?_) fun jc a done b c hjc hcheck ha hb hc => ?_
  · exact ⟨continues_of_untouched (untouched_of_repairs ha),
      fun _ => continues_of_untouched (untouched_of_repairs ha)⟩
  · suffices h : Continues v src s c from ⟨h, h⟩
    have hbefore : Undisturbed s a := undisturbed_of_repairs ha
    have hrow : a.get .ticket src = some t := (hbefore .ticket src (by simp) (by simp)).trans ht
    refine Continues.untouched ?_ (untouched_steps hc)
    refine Continues.of_untouched (untouched_of_repairs ha) ?_
    by_cases hst : t.status = .completed
    · exact continues_of_untouched (untouched_of_finalized hrow hst hb)
    · obtain ⟨m, res, m', hsame, hres, hfin⟩ := gives_finalizeTx hrow hjc hst hb
      obtain ⟨data, now, hself⟩ := hfin.finished
      subst hjc
      cases hnone : res.nextStep with
      | none =>
        have hrest := hfin.last hnone
        refine ⟨fun id _ => ?_, fun id hid => Or.inl ((hrest id ?_).trans hid)⟩
        · by_cases hs : id = src
          · rw [hs, onVisit_of_row hrow hv,
              onVisit_of_row hself (identity_transitioned.1.trans hv), identity_transitioned.2]
          · exact onVisit_congr (hrest id hs)
        · rintro rfl
          rw [hrow] at hid
          cases hid
      | some next =>
        obtain ⟨x, hx, -, hfresh, hnew, hrest⟩ := hfin.next next hnone
        have hmay : MayFollow orgId s jc.ticket next :=
          ⟨hfin.status, jc, a, m, res, m', rfl, hcheck, hsame, hres, hnone⟩
        obtain ⟨hvx, hident⟩ := (hx.before hbefore).identity hv ht hfin.seen hnum (hon next hmay)
        exact continues_of_rows hrow hv hself (identity_transitioned.1.trans hv)
          identity_transitioned.2 hnew hvx hident hfresh hrest

theorem gives_reserveQueueDisplayNumber {queueId : Id} {x : String}
    (h : (reserveQueueDisplayNumber orgId queueId).gives s x s') :
    ∃ q now, s.get .queue queueId = some q ∧ x = nextNumber q now := by
  obtain ⟨o, m, hlock, h1⟩ := h.seq
  obtain ⟨q, hq, h2⟩ := gives_still (confined_orThrow _ _) h1
  obtain ⟨rfl, -⟩ := gives_orThrow.mp hq
  obtain ⟨_, _, h3⟩ := gives_still (confined_throwIf _ _) h2
  obtain ⟨now, _, h4⟩ := gives_still confined_now h3
  obtain ⟨_, _, h5⟩ := gives_still .input h4
  obtain ⟨_, _, _, h6⟩ := h5.seq
  exact ⟨q, now, (gives_forUpdate hlock).1, h6.1⟩

theorem gives_planTransfer {targetQueueId : Option Id} {desk : Option String} {plan : TransferPlan}
    (h : (planTransfer orgId t targetQueueId desk ref).gives s plan s') :
    ∃ queue q now, (transferTarget orgId t queue targetQueueId).gives s plan.target s ∧
      s.get .queue plan.target.queueId = some q ∧ plan.displayNumber = nextNumber q now := by
  obtain ⟨queue, _, h1⟩ := gives_still confined_findById h
  obtain ⟨target, htarget, h2⟩ := gives_still confined_transferTarget h1
  obtain ⟨_, _, h3⟩ := gives_still confined_findById h2
  obtain ⟨_, _, h4⟩ := gives_still (confined_orThrow _ _) h3
  obtain ⟨_, _, h5⟩ := gives_still confined_resolveQueueCallingPolicy h4
  obtain ⟨number, _, hnumber, h6⟩ := h5.seq
  obtain ⟨_, _, _, h7⟩ := h6.seq
  obtain ⟨q, now, hq, hnow⟩ := gives_reserveQueueDisplayNumber hnumber
  obtain ⟨rfl, -⟩ := h7
  exact ⟨queue, q, now, htarget, hq, hnow⟩

/-- **`transfer`** goes on with the visit. -/
theorem continues_of_transferTx {targetQueueId : Option Id} {desk : Option String}
    {surface : ActionSurface} {x : Id × Ticket} (ht : s.get .ticket src = some t)
    (hv : t.visitId = some v) (hon : TransfersOn orgId s t targetQueueId)
    (h : (transferTx orgId src targetQueueId desk ref surface).gives s x s') :
    Continues v src s s' := by
  obtain ⟨_, _, h1⟩ := gives_still confined_assertActionSurfaceForTicket h
  obtain ⟨o, ho, h2⟩ := gives_still confined_findById h1
  obtain ⟨t', ht', h3⟩ := gives_still (confined_orThrow _ _) h2
  obtain ⟨rfl, -⟩ := gives_orThrow.mp ht'
  have hrow := (Option.filter_eq_some_iff.mp (gives_findById.mp ho).1.symm).1
  obtain rfl : t = t' := Option.some.inj (ht.symm.trans hrow)
  obtain ⟨_, _, h4⟩ := gives_still (confined_assertClassicDesk _ _) h3
  obtain ⟨_, _, h5⟩ := gives_still confined_assertStaffQueueActionAllowed h4
  obtain ⟨plan, m, hplan, h6⟩ := h5.seq
  obtain ⟨queue, q, time, htarget, hq, hnumber⟩ := gives_planTransfer hplan
  obtain ⟨htemplate, hnext⟩ := hon queue plan.target q time htarget hq
  have hm : TicketsUntouched s m := untouched_steps
    ((confined_planTransfer (C := anyWrite) (e := .recordNotFound)).gives hplan)
  obtain ⟨now, -, h7⟩ := gives_still confined_now h6
  rw [if_pos (by rw [hv]; rfl)] at h7
  obtain ⟨_, m1, hupdate, h8⟩ := h7.seq
  obtain ⟨id, m2, hcreate, h9⟩ := h8.seq
  obtain ⟨rfl, rfl⟩ := h9
  obtain ⟨r, -, hw⟩ := gives_update hupdate
  have hw' := gives_create hcreate
  have hfresh : s.get .ticket id = none := by
    by_cases hid : id = src
    · have hold := hw'.2.get_old
      rw [hid, hw.2.get_self] at hold
      cases hold
    · exact ((hw.2.get_ne (by simpa using hid)).trans (hm id)).symm.trans hw'.2.get_old
  have hne : src ≠ id := by
    rintro rfl
    rw [ht] at hfresh
    cases hfresh
  obtain rfl : r = t := Option.some.inj (hw.2.get_old.symm.trans ((hm src).trans ht))
  refine continues_of_rows (x := (id, transferredTicket r plan now)) ht hv
    ((hw'.2.get_ne (by simpa using hne)).trans hw.2.get_self) hv rfl hw'.2.get_self hv ?_ hfresh
    fun id' hs hi => ?_
  · unfold Ticket.identity transferredTicket
    rw [htemplate, hnumber, hnext]
  · exact (hw'.2.get_ne (by simpa using hi)).trans ((hw.2.get_ne (by simpa using hs)).trans (hm id'))

end Steps

/-! ## Journeys -/

def Request.advancesTicket : Request → Option Id
  | .complete _ ticketId _ _ => some ticketId
  | .transfer _ ticketId _ _ _ _ => some ticketId
  | _ => none

/-- The advance has nothing to lose. -/
def Lossless (s : Db) : Request → Prop
  | .complete orgId src _ _ => ∀ t next, s.get .ticket src = some t → MayFollow orgId s t next →
      CarriesOn orgId s t next
  | .transfer orgId src target _ _ _ => ∀ t, s.get .ticket src = some t →
      TransfersOn orgId s t target
  | _ => True

/-- The tickets that are new in `s'`, each with the ticket it follows. -/
def follows (src : Id) (s s' : Db) : List (Id × Id) :=
  (s'.rows .ticket fun id _ => (s.get .ticket id).isNone).map fun r => (src, r.1)

/-- **Journeys** of the visit `v` from the store `s₀`: advancesTicket that meet `C`, one at a time, each as far
as it gets; and between them anything that leaves the tickets of the visit with what they bear. With the
store goes the list of its tickets that were issued, each with the ticket it follows. -/
inductive Journey (v : Id) (C : Db → Request → Prop) (s₀ : Db) : List (Id × Id) → Db → Prop
  | here : Journey v C s₀ [] s₀
  | between {links : List (Id × Id)} {s s' : Db} (h : Journey v C s₀ links s)
      (hb : onVisit v s' = onVisit v s) : Journey v C s₀ links s'
  | advance {links : List (Id × Id)} {s : Db} (h : Journey v C s₀ links s) {r : Request} {src : Id}
      (hr : r.advancesTicket = some src) (hv : (onVisit v s src).isSome = true) (hC : C s r) {c : Run}
      (hc : Reach Always (start s [r]) c) : Journey v C s₀ (links ++ follows src s c.db) c.db

/-- A ticket that follows another bears what it does. -/
def Continuous (v : Id) (links : List (Id × Id)) (s : Db) : Prop :=
  ∀ p ∈ links, ∃ i, onVisit v s p.1 = some i ∧ onVisit v s p.2 = some i

section Journeys

variable {v src : Id} {s₀ s : Db} {links : List (Id × Id)} {r : Request} {c : Run}

/-- **One advance.** -/
theorem reach_continues (hr : r.advancesTicket = some src) (hv : (onVisit v s src).isSome = true)
    (hnum : OneNumber v s) (hl : Lossless s r) (h : Reach Always (start s [r]) c) :
    Continues v src s c.db := by
  obtain ⟨i, hi⟩ := Option.isSome_iff_exists.mp hv
  obtain ⟨t, ht, htv, -⟩ := exists_row hi
  cases r with
  | complete orgId id ref surface =>
    cases hr
    have hkeeps : Call.Keeps (Continues v src s) (fun _ => Continues v src s)
        (Request.run (.complete orgId src ref surface)) s :=
      .bind (continues_of_complete ht htv hnum fun next => hl t next ht)
        (fun _ _ hm => .pure hm hm) fun _ _ hm => hm
    exact hkeeps.passes _ (reach_gives h).1
  | transfer orgId id target desk ref surface =>
    cases hr
    have hrefl : Continues v src s s := continues_of_untouched (.refl s)
    have hkeeps : Call.Keeps (Continues v src s) (fun _ => Continues v src s)
        (Request.run (.transfer orgId src target desk ref surface)) s :=
      .bind (Q := fun _ => Continues v src s) (.tx hrefl (fun x s' hx => by
          have hcont := continues_of_transferTx ht htv (hl t ht) hx
          exact ⟨hcont, hcont⟩) fun _ => hrefl)
        (fun _ _ hm => .pure hm hm) fun _ _ hm => hm
    exact hkeeps.passes _ (reach_gives h).1
  | _ => cases hr

theorem mem_follows {s' : Db} {p : Id × Id} (h : p ∈ follows src s s') :
    p.1 = src ∧ s.get .ticket p.2 = none ∧ s'.get .ticket p.2 ≠ none := by
  obtain ⟨⟨id, n⟩, hn, rfl⟩ := List.mem_map.mp h
  obtain ⟨hrow, hnone⟩ := Rel.mem_rows.mp hn
  exact ⟨rfl, Option.isNone_iff_eq_none.mp hnone, by simp [hrow]⟩

/-- **A journey goes on with the patron.** Where no advance has anything to lose and the tickets of the
visit bear one number at first, every ticket that is issued on the journey bears what the one before it
does. -/
theorem journey_continuous (h₀ : OneNumber v s₀) (h : Journey v Lossless s₀ links s) :
    OneNumber v s ∧ Continuous v links s := by
  induction h with
  | here => exact ⟨h₀, fun p hp => absurd hp (List.not_mem_nil)⟩
  | between _ hb ih =>
    unfold OneNumber Continuous
    rw [hb]
    exact ih
  | @advance links s _ r src hr hv hl c hc ih =>
    obtain ⟨hnum, hlinks⟩ := ih
    have hcont := reach_continues hr hv hnum hl hc
    have hthere : ∀ {id i}, onVisit v s id = some i → s.get .ticket id ≠ none := fun hi => by
      obtain ⟨t, ht, -⟩ := exists_row hi
      simp [ht]
    refine ⟨hcont.oneNumber hnum, fun p hp => ?_⟩
    rcases List.mem_append.mp hp with hp | hp
    · obtain ⟨i, h1, h2⟩ := hlinks p hp
      exact ⟨i, (hcont.old _ (hthere h1)).trans h1, (hcont.old _ (hthere h2)).trans h2⟩
    · obtain ⟨i, hi⟩ := Option.isSome_iff_exists.mp hv
      obtain ⟨rfl, hfresh, hnew⟩ := mem_follows hp
      exact ⟨i, (hcont.old _ (hthere hi)).trans hi,
        ((hcont.new _ hfresh).resolve_left hnew).trans hi⟩

end Journeys

/-! ## Specimens -/

/-- A patron at the first of two steps, who may have agreed to text messages. -/
def patron (transactionalSmsAllowed : Bool) : Ticket :=
  { atFirstStep with language := some "en", transactionalSmsAllowed }

def patronShop (transactionalSmsAllowed : Bool) : Db :=
  shop true [(1, { orgId := 1, branchId := 1 })] [(1, patron transactionalSmsAllowed)]

def completeFirst : Request := .complete 1 1 none .classic

/-- A run of it in which the ticket 2 is issued. -/
def completing : List (ℕ × Move Err) := turns 0 71 ++ [(0, .go 2)] ++ turns 0 14

instance (v : Id) (links : List (Id × Id)) (s : Db) : Decidable (Continuous v links s) :=
  decidable_of_iff
    (links.all fun p => (onVisit v s p.1).isSome && onVisit v s p.1 == onVisit v s p.2) <| by
    unfold Continuous
    simp only [List.all_eq_true, Bool.and_eq_true, beq_iff_eq, Option.isSome_iff_exists]
    exact forall₂_congr fun p _ => ⟨fun ⟨⟨i, hi⟩, he⟩ => ⟨i, hi, he ▸ hi⟩,
      fun ⟨i, h₁, h₂⟩ => ⟨⟨i, h₁⟩, h₁.trans h₂.symm⟩⟩

theorem oneNumber_of_rows {v : Id} {s : Db} {d : String} (hd : d ≠ "")
    (h : ∀ r ∈ s.rows .ticket fun _ _ => true, r.2.displayNumber = d) : OneNumber v s := by
  refine ⟨d, hd, fun id i hi => ?_⟩
  obtain ⟨t, ht, -, rfl⟩ := exists_row hi
  exact h (id, t) (Rel.mem_rows.mpr ⟨ht, rfl⟩)

theorem oneNumber_patronShop (b : Bool) : OneNumber 1 (patronShop b) := by
  refine oneNumber_of_rows (d := "C001") (by decide) ?_
  cases b <;> decide +kernel

/-- **The consent is lost**: the patron has agreed to text messages, and the ticket of the second step
does not say so. -/
theorem complete_drops_consent : ∃ links s, OneNumber 1 (patronShop true) ∧
    Journey 1 (fun _ _ => True) (patronShop true) links s ∧ links = [(1, 2)] ∧
    (onVisit 1 s 1).map (·.transactionalSmsAllowed) = some true ∧
    (onVisit 1 s 2).map (·.transactionalSmsAllowed) = some false ∧ ¬ Continuous 1 links s := by
  obtain ⟨c, hc, hp⟩ := exists_reach_anywhere
    (start (patronShop true) [completeFirst]) completing
    (fun c => decide (follows 1 (patronShop true) c.db = [(1, 2)] ∧
      (onVisit 1 c.db 1).map (·.transactionalSmsAllowed) = some true ∧
      (onVisit 1 c.db 2).map (·.transactionalSmsAllowed) = some false ∧
      ¬ Continuous 1 [(1, 2)] c.db)) (by decide +kernel)
  obtain ⟨hlinks, h1, h2, hnot⟩ := of_decide_eq_true hp
  have hj := Journey.advance (C := fun _ _ => True) .here (r := completeFirst) rfl (v := 1)
    (by decide +kernel) trivial hc
  rw [hlinks] at hj
  exact ⟨[(1, 2)], c.db, oneNumber_patronShop true, hj, rfl, h1, h2, hnot⟩

theorem lossless_patronShop : Lossless (patronShop false) completeFirst := by
  intro t next ht _
  have hrow : (patronShop false).get .ticket 1 = some (patron false) := by decide +kernel
  obtain rfl : patron false = t := Option.some.inj (hrow.symm.trans ht)
  have hlinked : ∀ r ∈ (patronShop false).rows .queue fun _ _ => true,
      r.2.flowTemplateId = (patron false).flowTemplateId := by decide +kernel
  exact ⟨rfl, rfl, fun q hq => hlinked (_, q) (Rel.mem_rows.mpr ⟨hq, rfl⟩), nofun,
    fun _ => ⟨rfl, rfl⟩⟩

/-- A patron who has not agreed goes on as before. -/
theorem journey_continuous_shop : ∃ links s, Journey 1 Lossless (patronShop false) links s ∧
    links = [(1, 2)] ∧ OneNumber 1 s ∧ Continuous 1 links s := by
  obtain ⟨c, hc, hp⟩ := exists_reach_anywhere
    (start (patronShop false) [completeFirst]) completing
    (fun c => decide (follows 1 (patronShop false) c.db = [(1, 2)])) (by decide +kernel)
  have hj := Journey.advance .here (r := completeFirst) rfl (v := 1) (by decide +kernel)
    lossless_patronShop hc
  rw [of_decide_eq_true hp] at hj
  exact ⟨[(1, 2)], c.db, hj, rfl, journey_continuous (oneNumber_patronShop false) hj⟩

end PatronLoyalty.Ticketing
