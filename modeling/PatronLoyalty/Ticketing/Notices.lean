import PatronLoyalty.Ticketing.Journeys
import PatronLoyalty.Txn.Silenced

/-!
# What an advance tells

`complete` tells of the follow-up ticket after its locked transaction: the event `ticket.issued` on
three channels, and a called notification where the ticket is called at once. It does so from the
answer of the transaction, and the answer of a retry names the follow-up of the request before it.

`completeNotifying` is `complete` with these notices (`silent_completeNotifying`). The other requests
of a run emit notices of their own, which are no part of an advance; they are left out.

Results:
* **`finding_finalizeTx`**: the transaction answers with the ticket it has issued, or with none, where
  its ticket is not one that is completed and followed already.
* **`reach_notices`**: as long as no request of `src` takes a step of its locked transaction where
  `src` is completed and followed already, the follow-up is told of once, by the request that issued
  it.
-/

namespace PatronLoyalty.Ticketing

open Txn Relation
open Txn.Rel (Wrote)
open Loyalty (Id Err truthy)

/-! ## Notices -/

/-- A channel of `publishMany`. -/
inductive Channel
  | queue (queueId : Id)
  | display (branchId : Id)
  | org (orgId : Id)
  deriving DecidableEq, Repr

/-- What is told of a ticket; `finalizing` is none, it marks where the locked transaction begins. -/
inductive Notice
  /-- The event `ticket.issued`. -/
  | ticketIssued (channel : Channel) (ticketId : Id) (data : Ticket)
  | notifyTicketIssued (orgId ticketId : Id) (ticket : Ticket)
  | notifyTicketCalled (orgId ticketId : Id) (ticket : Ticket) (deskNumber : Option String)
  | finalizing
  deriving DecidableEq, Repr

def Notice.ticketId : Notice → Option Id
  | .ticketIssued _ ticketId _ => some ticketId
  | .notifyTicketIssued _ ticketId _ => some ticketId
  | .notifyTicketCalled _ ticketId _ _ => some ticketId
  | .finalizing => none

def canSendTransactionalSms (t : Ticket) : Bool :=
  (truthy t.customerPhone).isSome && t.transactionalSmsAllowed

def emitTicketIssuedSideEffects (orgId : Id) (ticket : Id × Ticket) (queueId branchId : Id) :
    List Notice :=
  [.ticketIssued (.queue queueId) ticket.1 ticket.2,
    .ticketIssued (.display branchId) ticket.1 ticket.2,
    .ticketIssued (.org orgId) ticket.1 ticket.2] ++
  if ticket.2.visitId.isNone && canSendTransactionalSms ticket.2 then
    [.notifyTicketIssued orgId ticket.1 ticket.2] else []

def emitTicketCalledNotification (orgId : Id) (ticket : Id × Ticket)
    (deskNumberOverride : Option String) : List Notice :=
  if canSendTransactionalSms ticket.2 then
    [.notifyTicketCalled orgId ticket.1 ticket.2
      (truthy (ticket.2.deskNumber.orElse fun _ => deskNumberOverride))]
  else []

def advanceNotices (orgId : Id) : Option (Id × Ticket) → List Notice
  | none => []
  | some next =>
    emitTicketIssuedSideEffects orgId next next.2.queueId next.2.branchId ++
      if next.2.status = .called then emitTicketCalledNotification orgId next next.2.deskNumber else []

theorem ticketId_of_mem_advanceNotices {orgId : Id} {next : Option (Id × Ticket)} {v : Notice}
    (h : v ∈ advanceNotices orgId next) : ∃ x, next = some x ∧ v.ticketId = some x.1 := by
  cases next with
  | none => cases h
  | some x =>
    refine ⟨x, rfl, ?_⟩
    rcases List.mem_append.mp h with h | h
    · rcases List.mem_append.mp h with h | h
      · simp only [List.mem_cons, List.not_mem_nil, or_false] at h
        rcases h with rfl | rfl | rfl <;> rfl
      · split at h
        · cases List.mem_singleton.mp h
          rfl
        · cases h
    · unfold emitTicketCalledNotification at h
      split at h
      · split at h
        · cases List.mem_singleton.mp h
          rfl
        · cases h
      · cases h

/-! ## The requests -/

/-- A request whose notices are recorded. -/
abbrev NCall := Call Db DbWrite Err Notice

/-- `finalizeTicketWithJourneyAdvance`, to `completed`. -/
def finalizeNotifying (orgId ticketId : Id) (externalRef : Option String) : NCall Finalized := do
  let jc ← (withTenant (findJourneyContext orgId ticketId)).silent
  (preCheck orgId jc).silent
  Call.fire .finalizing
  let done ← Call.withTx ((finalizeTx orgId ticketId .completed externalRef jc).mapError finalizeError)
  Call.fireAll (advanceNotices orgId done.nextTicket)
  (emitTransitionSideEffects done.ticket).silent
  pure done

def completeNotifying (orgId ticketId : Id) (externalRef : Option String) (surface : ActionSurface) :
    NCall Finalized := do
  (withTenant (assertActionSurfaceForTicket orgId ticketId surface)).silent
  (withTenant do
    let ticket ← assertDeskOfTicket orgId ticketId surface
    let _ ← orThrow (.notFound "Ticket not found") ticket
    pure ()).silent
  finalizeNotifying orgId ticketId externalRef

/-- **But for its notices**, `completeNotifying` is `complete`. -/
theorem silent_completeNotifying {ev : Type} (orgId ticketId : Id) (externalRef : Option String)
    (surface : ActionSurface) :
    ((completeNotifying orgId ticketId externalRef surface).silent :
      Call Db DbWrite Err ev Finalized) = (complete orgId ticketId externalRef surface).silent := by
  unfold completeNotifying complete finalizeNotifying finalizeTicketWithJourneyAdvance withTenant
  simp only [Call.bind_eq, Call.silent_bind, Call.silent_silent, Call.silent_withTx,
    Call.silent_fireAll]
  rfl

def Request.runNotifying : Request → NCall Answer
  | .complete orgId ticketId externalRef surface =>
    (completeNotifying orgId ticketId externalRef surface).bind fun f => .pure (.finalized (some f))
  | r => r.run.silent

def Request.completion : Request → Option (Id × Id)
  | .complete orgId ticketId _ _ => some (orgId, ticketId)
  | _ => none

abbrev NRun := Config Db DbWrite Err Notice Answer

/-- A line of the history of such a run. -/
abbrev NEntry := Entry Db Err Notice Answer

def startNotifying (s : Db) (requests : List Request) : NRun :=
  Config.init s (requests.map Request.runNotifying)

/-! ## A ticket that is completed and followed -/

/-- The active tickets at a later step, as `findActiveJourneyFollowUpTicket` sees them. -/
def activeAfter (orgId src : Id) (t : Ticket) (s : Db) : List (Id × Ticket) :=
  match t.visitId with
  | none => []
  | some visitId =>
    seen (.tenant orgId) .ticket (fun id u =>
      u.orgId == orgId && u.visitId == some visitId && id != src && u.status.active &&
        t.stepIndex.all fun i => u.stepIndex.any (i < ·)) s

/-- The ticket is completed, and its visit has an active ticket at a later step. -/
def followed (orgId src : Id) (s : Db) : Bool :=
  (s.get .ticket src).any fun t => visible (.tenant orgId) .ticket t && t.status == .completed &&
    !(activeAfter orgId src t s).isEmpty

def IssuedAs : Option (Id × Ticket) → Db → Db → Prop
  | none => NoneIssued
  | some x => fun a b => a.get .ticket x.1 = none ∧ b.get .ticket x.1 = some x.2 ∧
      ∀ id, id ≠ x.1 → a.get .ticket id = none → b.get .ticket id = none

section Transaction

variable {C : DbWrite → Bool} {e : Err} {G : Guarantee Db} {orgId src : Id} {t : Ticket}
  {ref : Option String} {jc : JourneyContext} {a b : Db}

theorem IssuedAs.then_wrote {next : Option (Id × Ticket)} {id : Id} {u u' : Ticket} {c : Db}
    (h : IssuedAs next a b) (hw : Wrote C .ticket id (some u) u' b c)
    (hne : ∀ x, next = some x → x.1 ≠ id) : IssuedAs next a c := by
  have hnone := noneIssued_of_wrote hw
  cases next with
  | none => exact fun id' hn => hnone id' (h id' hn)
  | some x =>
    obtain ⟨hold, hnew, hrest⟩ := h
    refine ⟨hold, ?_, fun id' hid hn => hnone id' (hrest id' hid hn)⟩
    exact (hw.2.get_ne (by simpa using hne x rfl)).trans hnew

theorem triple_advanceTicket :
    Triple C e G (Locked C orgId src Eq t) (advanceTicket orgId src .completed ref jc t)
      fun done a b => IssuedAs done.nextTicket a b := by
  have hP : Indifferent C fun a b => a.get .ticket src = some t ∧ TicketsUntouched a b :=
    fun a b c hbc h => ⟨h.1, h.2.trans hbc.untouched⟩
  refine .pre ?_ fun a b hl => hl.untouched
  refine .bind (hP.triple confined_resolveNextJourneyStepIn) fun next =>
    .bind (confined_throwIf _ _).still fun _ => .bind (hP.triple confined_resolveJourneyRef)
    fun ref' => .bind (triple_issueNextIfAny hP) fun issued => .bind confined_now.still fun now =>
    .bind triple_transitionTicketCore fun t' => .pure fun a c h => ?_
  obtain ⟨u, now', -, -, d, ⟨d', hp, -, hl⟩, hw⟩ := h
  rcases hp with ⟨rfl, -, hunt⟩ | ⟨id, n, -, rfl, -, m, ⟨ht, hunt⟩, hn⟩
  · have hne : ∀ x, (none : Option (Id × Ticket)) = some x → x.1 ≠ src := fun _ hx => by cases hx
    have hissued : IssuedAs none a d' := hunt.noneIssued
    exact (hissued.then_wrote hl hne).then_wrote hw hne
  · have hne : ∀ x, some (id, n) = some x → x.1 ≠ src := by
      rintro x hx rfl
      cases hx
      have hm := (hunt _).trans ht
      rw [hn.2.get_old] at hm
      cases hm
    have hissued : IssuedAs (some (id, n)) a d' := by
      refine ⟨(hunt id).symm.trans hn.2.get_old, hn.2.get_self, fun id' hid hnone => ?_⟩
      exact (hn.2.get_ne (by simpa using hid)).trans ((hunt id').trans hnone)
    exact (hissued.then_wrote hl hne).then_wrote hw hne

/-- **The locked transaction** answers with the ticket it has issued, where its own is not completed and
followed already. -/
theorem finding_finalizeTx :
    Finding (fun s => followed orgId src s = false) G Eq (finalizeTx orgId src .completed ref jc)
      fun done a b => IssuedAs done.nextTicket a b := by
  have hlock : Triple (fun _ => true) Err.recordNotFound G Eq (forUpdate orgId .ticket src)
      fun o a c => ∀ t, o = some t → Locked (fun _ => true) orgId src Eq t a c :=
    triple_forUpdate (fun r a b c hab hv hw t ht => by cases ht; exact ⟨b, hab, hv, hw⟩)
      fun _ _ _ _ ht => by cases ht
  have hthrow : ∀ o : Option Ticket, Triple (fun _ => true) Err.recordNotFound G
      (fun a c => ∀ t, o = some t → Locked (fun _ => true) orgId src Eq t a c)
      (orThrow (.notFound "Ticket not found") o) (Locked (fun _ => true) orgId src Eq) :=
    fun o => triple_orThrow fun t a c ho h => h t ho
  refine .bind hlock.finding fun o => .bind (hthrow o).finding fun t => ?_
  split
  · rename_i hdone
    refine .bind (Q := fun o a c => o = none ∧ Locked (fun _ => true) orgId src Eq t a c) ?_
      fun o => .pure ?_
    · unfold findActiveJourneyFollowUpTicket
      cases hv : t.visitId with
      | none => exact .pure fun a c hl => ⟨rfl, hl⟩
      | some v =>
        refine Finding.findFirst fun a c n hA hl => ?_
        -- a row that the query sees would be a row of the committed store
        have hnil : seen (.tenant orgId) .ticket (fun id u =>
            u.orgId == orgId && u.visitId == some v && id != src && u.status.active &&
              t.stepIndex.all fun i => u.stepIndex.any (i < ·)) c = [] := by
          by_contra hne
          obtain ⟨⟨id, u⟩, hu⟩ := List.exists_mem_of_ne_nil _ hne
          obtain ⟨hrow, hvis, hp⟩ := mem_seen.mp hu
          obtain ⟨ht, hunt⟩ := hl.untouched
          obtain ⟨m, rfl, hvt, -⟩ := hl
          have hmem : (id, u) ∈ activeAfter orgId src t a := by
            rw [activeAfter, hv]
            exact mem_seen.mpr ⟨(hunt id).symm.trans hrow, hvis, hp⟩
          have hnone : activeAfter orgId src t a = [] := by
            simpa [followed, ht, hvt, hdone] using hA
          rw [hnone] at hmem
          cases hmem
        rw [hnil]
        rfl
    · rintro a c ⟨rfl, hl⟩
      exact hl.untouched.2.noneIssued
  · exact (triple_advanceTicket (e := .recordNotFound)).finding

end Transaction

/-! ## The history of one request -/

/-- What the line tells of a ticket. -/
def noticeOf : NEntry → Option Notice
  | .emit .finalizing => none
  | .emit v => some v
  | _ => none

def notices (h : List NEntry) : List Notice := h.filterMap noticeOf

def IssuesOnly : Option (Id × Ticket) → List NEntry → Prop
  | none => Within NoneIssued
  | some x => OnceOnly NoneIssued (IssuedAs (some x))

/-- A request on its way: it has issued `next`, and has given the notices `vs`. -/
structure Goes (next : Option (Id × Ticket)) (vs : List Notice) (h : List NEntry) : Prop where
  unanswered : Unanswered h
  commits : IssuesOnly next h
  notices : notices h = vs

/-- **What a request tells**: the notices of its advance, in order, and all of them once it has answered
with a result. -/
structure Tells (orgId : Id) (next : Option (Id × Ticket)) (h : List NEntry) : Prop where
  commits : IssuesOnly next h
  notices : notices h <+: advanceNotices orgId next
  answered : ∀ r, .answer (.ok r) ∈ h → Ticketing.notices h = advanceNotices orgId next

section History

variable {orgId src : Id} {next : Option (Id × Ticket)} {vs : List Notice} {h : List NEntry}
  {l : NEntry} {a b : Db}

theorem notices_snoc (h : List NEntry) (l : NEntry) :
    notices (h ++ [l]) = notices h ++ (noticeOf l).toList := by
  unfold notices
  rw [List.filterMap_append]
  cases hl : noticeOf l <;> simp [hl]

theorem IssuesOnly.snoc (hi : IssuesOnly next h) (hl : ∀ a b, l = .commit a b → NoneIssued a b) :
    IssuesOnly next (h ++ [l]) := by
  cases next with
  | none => exact Within.snoc hi hl
  | some x => exact OnceOnly.snoc hi hl

theorem IssuesOnly.issued (hi : IssuesOnly next h) (hc : .commit a b ∈ h) {x : Id × Ticket}
    (ha : a.get .ticket x.1 = none) (hb : b.get .ticket x.1 = some x.2) : next = some x := by
  cases next with
  | none =>
    rw [hi a b hc _ ha] at hb
    cases hb
  | some y =>
    rcases OnceOnly.commits hi hc with hn | ⟨-, hy, hrest⟩
    · rw [hn _ ha] at hb
      cases hb
    · by_cases hid : x.1 = y.1
      · rw [hid, hy] at hb
        exact congrArg some (Prod.ext hid.symm (Option.some.inj hb))
      · rw [hrest _ hid ha] at hb
        cases hb

theorem goes_nil : Goes none [] ([] : List NEntry) := ⟨unanswered_nil, within_nil, rfl⟩

/-- A line that is no answer, tells nothing and issues nothing. -/
theorem Goes.snoc (hg : Goes next vs h) (hr : ∀ r, l ≠ .answer r) (hv : noticeOf l = none)
    (hl : ∀ a b, l = .commit a b → NoneIssued a b) : Goes next vs (h ++ [l]) where
  unanswered := hg.unanswered.snoc hr
  commits := hg.commits.snoc hl
  notices := by rw [notices_snoc, hv, hg.notices, Option.toList_none, List.append_nil]

theorem Goes.rollback (hg : Goes next vs h) (e : Err) : Goes next vs (h ++ [.rollback e]) :=
  hg.snoc (fun _ he => by cases he) rfl fun _ _ he => by cases he

theorem Goes.still (hg : Goes next vs h) (hn : NoneIssued a b) : Goes next vs (h ++ [.commit a b]) :=
  hg.snoc (fun _ he => by cases he) rfl fun _ _ he => by cases he; exact hn

/-- The commit of the locked transaction. -/
theorem Goes.issues (hg : Goes none vs h) (hi : IssuedAs next a b) :
    Goes next vs (h ++ [.commit a b]) where
  unanswered := hg.unanswered.snoc fun _ he => by cases he
  commits := by
    cases next with
    | none => exact Within.snoc hg.commits fun _ _ he => by cases he; exact hi
    | some x => exact Within.once hg.commits hi
  notices := by rw [notices_snoc, hg.notices]; exact List.append_nil vs

theorem Goes.tell (hg : Goes next vs h) {v : Notice} (hv : v ≠ .finalizing) :
    Goes next (vs ++ [v]) (h ++ [.emit v]) where
  unanswered := hg.unanswered.snoc fun _ he => by cases he
  commits := hg.commits.snoc fun _ _ he => by cases he
  notices := by
    have hnotice : noticeOf (.emit v : NEntry) = some v := by
      cases v with
      | finalizing => exact absurd rfl hv
      | ticketIssued | notifyTicketIssued | notifyTicketCalled => rfl
    rw [notices_snoc, hnotice, hg.notices, Option.toList_some]

theorem Goes.tellAll {ws : List Notice} (hg : Goes next vs h) (hw : ∀ v ∈ ws, v ≠ .finalizing) :
    Goes next (vs ++ ws) (h ++ ws.map .emit) := by
  induction ws generalizing vs h with
  | nil =>
    rw [List.map_nil, List.append_nil, List.append_nil]
    exact hg
  | cons w ws ih =>
    have hrest := ih (hg.tell (hw w List.mem_cons_self)) fun v hv => hw v (List.mem_cons_of_mem _ hv)
    rwa [List.append_assoc, List.append_assoc] at hrest

theorem Goes.tells (hg : Goes next vs h) (hvs : vs <+: advanceNotices orgId next) :
    Tells orgId next h where
  commits := hg.commits
  notices := hg.notices ▸ hvs
  answered _ hr := absurd hr (hg.unanswered _)

theorem Goes.refuses (hg : Goes next vs h) (hvs : vs <+: advanceNotices orgId next) (e : Err) :
    Tells orgId next (h ++ [.answer (.error e)]) where
  commits := hg.commits.snoc fun _ _ he => by cases he
  notices := by
    rw [notices_snoc, hg.notices]
    exact (List.append_nil vs).symm ▸ hvs
  answered _ hr := by
    rcases mem_snoc.mp hr with hr | hr
    · exact absurd hr (hg.unanswered _)
    · cases hr

theorem Goes.answers (hg : Goes next (advanceNotices orgId next) h) (r : Answer) :
    Tells orgId next (h ++ [.answer (.ok r)]) := by
  have hall : Ticketing.notices (h ++ [.answer (.ok r)]) = advanceNotices orgId next := by
    rw [notices_snoc, hg.notices]
    exact List.append_nil _
  exact
    { commits := hg.commits.snoc fun _ _ he => by cases he
      notices := ⟨[], by rw [List.append_nil, hall]⟩
      answered := fun _ _ => hall }

end History

/-! ## The request against the others -/

/-- The line marks the beginning of the locked transaction. -/
def isFinalizing : NEntry → Bool
  | .emit .finalizing => true
  | _ => false

/-- The request has begun its locked transaction, and has not got to its end. -/
def finalizing (h : List NEntry) : Bool := h.getLast?.any isFinalizing

/-- **The protocol** of a request that completes `src`, as long as it does not come upon it completed
and followed. -/
abbrev telling (orgId src : Id) : Protocol Db Err Notice Answer anything :=
  .ofHistory _ (fun h s => finalizing h = true → followed orgId src s = false)
    fun h => ∃ next, Tells orgId next h

section Request

variable {e : Err} {G : Guarantee Db} {orgId src : Id} {next : Option (Id × Ticket)}
  {vs : List Notice} {h : List NEntry} {s : Db} {α β : Type} {ref : Option String}

theorem makes_rejectIf (b : Bool) (e' : Err) :
    (rejectIf b e' : TCall Unit).Makes e G (Aside fun _ => true) := by
  unfold rejectIf
  exact .ite trivial trivial

theorem makes_preCheck {jc : JourneyContext} :
    (preCheck orgId jc).Makes e G (Aside fun _ => true) := by
  have hnext : (resolveNextJourneyStep orgId jc.ticket.context).Makes e G (Aside fun _ => true) := by
    refine .bind .input fun _ => .bind (.tx confined_resolveStep) fun step => ?_
    cases step with
    | none => trivial
    | some st =>
      refine .bind (.tx confined_getNextStep) fun next => ?_
      cases next with
      | none => trivial
      | some n => exact .tx confined_resolveStepQueue
  have hfailure : (getNextStepResolutionFailure orgId jc.ticket.context).Makes e G
      (Aside fun _ => true) := by
    refine .bind .input fun _ => .bind (.tx confined_resolveStep) fun step => ?_
    cases step with
    | none => trivial
    | some st =>
      refine .bind (.tx confined_getNextStep) fun next => ?_
      cases next with
      | none => trivial
      | some n => exact .bind (.tx confined_resolveStepQueue) fun _ => trivial
  exact .bind hnext fun _ => .ite trivial (.bind hfailure fun _ => .bind (makes_rejectIf _ _) fun _ =>
    .bind .input fun _ => .bind (.tx confined_isQueueJourneyManaged) fun _ =>
    .bind (.tx confined_resolveFlowTemplateId) fun _ => makes_rejectIf _ _)

theorem makes_emitTransitionSideEffects (t : Ticket) :
    (emitTransitionSideEffects t).Makes e G (Aside fun _ => true) := by
  refine .handle (.bind ?_ fun _ => trivial) fun _ => trivial
  unfold refreshVisitStatus
  split
  · trivial
  · exact .bind .input fun _ => .tx confined_refreshVisitTx

/-- **A silent part** of the request leaves it where it is. -/
theorem wp_silent_bind {c : TCall α} {f : α → NCall β} {Q : Except Err β → List NEntry → Db → Prop}
    (hc : c.Makes Err.recordNotFound anything (Aside fun _ => true)) (hg : Goes next vs h)
    (hvs : vs <+: advanceNotices orgId next)
    (hf : ∀ b h' s', Goes next vs h' → Call.wp (telling orgId src) Q (f b) h' s')
    (he : ∀ e h' s', Goes next vs h' → Q (.error e) h' s') :
    Call.wp (telling orgId src) Q (c.silent.bind f) h s := by
  let phase : Protocol Db Err Notice Answer anything :=
    .ofHistory _ (fun _ _ => True) (Goes next vs)
  have hadmits : phase.Admits (ReflTransGen (Aside fun _ => true)) := fun _ a b _ hk hab =>
    ⟨trivial, Goes.still hk (untouched_steps hab).noneIssued⟩
  have hsilent : phase.Silent :=
    ⟨fun _ _ hk => Goes.still hk (.refl _), fun _ e _ hk => Goes.rollback hk e⟩
  refine Call.wp_bind (Call.wp_mono (fun r h' s' hr => ?_) ((hc.tame hadmits hsilent).phase
    (telling orgId src) (fun _ _ _ => trivial) (fun _ _ hk => ⟨next, Goes.tells hk hvs⟩) hg trivial))
  cases r with
  | ok b => exact hf b h' s' hr.1
  | error e => exact he e h' s' hr.1

/-- What a request has come to: all notices of its advance, or an error. -/
def ComesTo (orgId : Id) (r : Except Err α) (h : List NEntry) (_ : Db) : Prop :=
  ∃ next vs, vs <+: advanceNotices orgId next ∧ Goes next vs h ∧
    ∀ b, r = .ok b → vs = advanceNotices orgId next

theorem comesTo_error (hg : Goes next vs h) (hvs : vs <+: advanceNotices orgId next) (e : Err) :
    ComesTo orgId (.error e : Except Err α) h s := ⟨next, vs, hvs, hg, fun _ he => by cases he⟩

/-- **The locked transaction.** -/
theorem wp_finalize {jc : JourneyContext} (hg : Goes none [] h) (hlast : finalizing h = true) :
    Call.wp (telling orgId src) (fun r h' _ => match r with
        | .ok done => Goes done.nextTicket [] h'
        | .error _ => Goes none [] h')
      (Call.withTx ((finalizeTx orgId src .completed ref jc).mapError finalizeError) : NCall Finalized)
      h s := by
  refine Call.wp_phaseTx (K := fun h _ => Goes none [] h)
    (L := fun (done : Finalized) h _ => Goes done.nextTicket [] h)
    (R := fun done a b => IssuedAs done.nextTicket a b)
    (fun h _ (hk : Goes none [] h) => ⟨none, hk.tells List.prefix_rfl⟩)
    (fun done h _ (hk : Goes done.nextTicket [] h) => ⟨done.nextTicket, hk.tells List.nil_prefix⟩)
    (fun _ _ _ _ hk => hk) (fun _ e _ hk => hk.rollback e) hg (fun s' _ => ?_)
    fun done a b _ hk hi => ⟨trivial, hk.issues hi⟩
  exact Tx.wp_assume (fun s hc => hc hlast) (finding_finalizeTx.mapError [] s' did_start)

theorem wp_finalizeNotifying (hg : Goes none [] h) :
    Call.wp (telling orgId src) (ComesTo orgId) (finalizeNotifying orgId src ref) h s := by
  have hnil : ([] : List Notice) <+: advanceNotices orgId none := List.prefix_rfl
  refine wp_silent_bind (.tx (.bind confined_findById fun _ => .bind (confined_orThrow _ _) fun _ =>
    .bind confined_findById fun _ => .pure _)) hg hnil (fun jc h1 s1 h1g => ?_)
    fun e h' s' hg' => comesTo_error hg' hnil e
  refine wp_silent_bind makes_preCheck h1g hnil (fun _ h2 s2 h2g => ?_)
    fun e h' s' hg' => comesTo_error hg' hnil e
  have hmark : Goes none [] (h2 ++ [.emit .finalizing]) :=
    h2g.snoc (fun _ he => by cases he) rfl fun _ _ he => by cases he
  refine Call.wp_bind (Call.wp_fire fun s3 _ _ => ⟨⟨none, hmark.tells hnil⟩, ?_⟩)
  have hlast : finalizing (h2 ++ [.emit .finalizing]) = true := by
    rw [finalizing, List.getLast?_concat]
    rfl
  refine Call.wp_bind (Call.wp_mono (fun r h4 s4 hr => ?_) (wp_finalize hmark hlast))
  cases r with
  | error e => exact comesTo_error hr hnil e
  | ok done =>
    have hnotices : ∀ v ∈ advanceNotices orgId done.nextTicket, v ≠ .finalizing := by
      rintro v hv rfl
      obtain ⟨x, -, hx⟩ := ticketId_of_mem_advanceNotices hv
      cases hx
    have hsome : ∀ ws, ws <+: advanceNotices orgId done.nextTicket →
        Goes done.nextTicket ws (h4 ++ ws.map .emit) := fun ws hws =>
      Goes.tellAll hr fun v hv => hnotices v (hws.subset hv)
    refine Call.wp_bind (Call.wp_fireAll (fun ws _ hws => ⟨_, (hsome ws hws).tells hws⟩) fun s5 => ?_)
    refine wp_silent_bind (makes_emitTransitionSideEffects _) (hsome _ List.prefix_rfl)
      List.prefix_rfl (fun _ h6 s6 h6g => ?_) fun e h' s' hg' => comesTo_error hg' List.prefix_rfl e
    exact ⟨_, _, List.prefix_rfl, h6g, fun _ _ => rfl⟩

/-- **A request to complete `src`** keeps its protocol. -/
theorem complete_tells {surface : ActionSurface} :
    Safe (telling orgId src) (Request.runNotifying (.complete orgId src ref surface)) s := by
  have hstart : Goes none [] ([.start] : List NEntry) :=
    goes_nil.snoc (fun _ he => by cases he) rfl fun _ _ he => by cases he
  have hnil : ([] : List Notice) <+: advanceNotices orgId none := List.prefix_rfl
  refine ⟨⟨none, goes_nil.tells hnil⟩, fun s' _ _ => ⟨⟨none, hstart.tells hnil⟩, ?_⟩⟩
  have hw : Call.wp (telling orgId src) (ComesTo orgId) (completeNotifying orgId src ref surface)
      [.start] s' := by
    refine wp_silent_bind (.tx confined_assertActionSurfaceForTicket) hstart hnil
      (fun _ h1 s1 h1g => ?_) fun e h' s' hg' => comesTo_error hg' hnil e
    exact wp_silent_bind (.tx (.bind confined_assertDeskOfTicket fun _ =>
      .bind (confined_orThrow _ _) fun _ => .pure _)) h1g hnil
      (fun _ h2 s2 h2g => wp_finalizeNotifying h2g) fun e h' s' hg' => comesTo_error hg' hnil e
  refine Call.wp_bind (Call.wp_mono (fun r h' s1 hr => ?_) hw)
  obtain ⟨next, vs, hvs, hg, hall⟩ := hr
  cases r with
  | error e => exact fun _ _ => ⟨next, hg.refuses hvs e⟩
  | ok f =>
    obtain rfl := hall f rfl
    exact fun _ _ => ⟨next, hg.answers _⟩

end Request

/-! ## Runs -/

section Runs

variable {requests : List Request} {s : Db} {c : NRun} {orgId src i j : ℕ} {x : Id × Ticket}
  {v : Notice}

/-- Request `i` completes the ticket `src`. -/
def Completing (requests : List Request) (i : ℕ) (orgId src : Id) : Prop :=
  requests[i]?.bind Request.completion = some (orgId, src)

/-- The request is one to complete `src`, for some organisation. -/
def completesTicket (requests : List Request) (src : Id) (i : ℕ) : Bool :=
  (requests[i]?.bind Request.completion).any (·.2 == src)

/-- The notices about the ticket `id` by the requests to complete `src`, in order. -/
def noticesAbout (requests : List Request) (src id : Id) (trace : List (ℕ × NEntry)) : List Notice :=
  trace.filterMap fun l =>
    if completesTicket requests src l.1 then
      (noticeOf l.2).filter fun v => v.ticketId == some id
    else none

/-- Request `i`, to complete `src`, has issued the ticket `x`. -/
def AdvancedBy (requests : List Request) (src : Id) (c : NRun) (i : ℕ) (orgId : Id)
    (x : Id × Ticket) : Prop :=
  Completing requests i orgId src ∧
    ∃ a b, Commit c.trace i a b ∧ a.get .ticket x.1 = none ∧ b.get .ticket x.1 = some x.2

/-- **The notices of an advance** are given once, by the request that has made it. -/
structure NotifiesOnce (requests : List Request) (src : Id) (c : NRun) : Prop where
  /-- Nobody tells of the follow-up but the request that has issued it, and that not twice. -/
  atMost {i : ℕ} {orgId : Id} {x : Id × Ticket} (h : AdvancedBy requests src c i orgId x) :
    noticesAbout requests src x.1 c.trace <+: advanceNotices orgId (some x)
  /-- Once it has answered, all has been told. -/
  once {i : ℕ} {orgId : Id} {x : Id × Ticket} (h : AdvancedBy requests src c i orgId x)
    {r : Answer} (hr : .answer (.ok r) ∈ c.histOf i) :
    noticesAbout requests src x.1 c.trace = advanceNotices orgId (some x)
  /-- A request tells of no ticket that it has not issued. -/
  own {i : ℕ} {orgId : Id} (hi : Completing requests i orgId src) {v : Notice} {id : Id}
    (hv : (i, .emit v) ∈ c.trace) (hid : v.ticketId = some id) :
    ∃ t, AdvancedBy requests src c i orgId (id, t)

/-- No request to complete `src` takes a step of its locked transaction where `src` is completed and
followed already. -/
def Unfollowed (requests : List Request) (src : Id) (c : NRun) (i : ℕ) : Prop :=
  ∀ orgId, Completing requests i orgId src → finalizing (c.histOf i) = true →
    followed orgId src c.db = false

theorem completesTicket_iff :
    completesTicket requests src i = true ↔ ∃ orgId, Completing requests i orgId src := by
  unfold completesTicket Completing
  rw [Option.any_eq_true]
  constructor
  · rintro ⟨⟨orgId, t⟩, ht, hs⟩
    rw [beq_iff_eq] at hs
    cases hs
    exact ⟨orgId, ht⟩
  · rintro ⟨orgId, ho⟩
    exact ⟨_, ho, beq_self_eq_true _⟩

/-- What request `i` is verified against. -/
def noticeProtocols (requests : List Request) (src : Id) (i : ℕ) :
    Protocol Db Err Notice Answer anything :=
  match requests[i]?.bind Request.completion with
  | some (orgId, ticketId) =>
    if ticketId = src then telling orgId src else .under (fun _ => True) fun _ _ => True
  | none => .under (fun _ => True) fun _ _ => True

theorem noticeProtocols_safe (src : Id) (s : Db) (i : ℕ) (d : NCall Answer)
    (hd : (requests.map Request.runNotifying)[i]? = some d) :
    Safe (noticeProtocols requests src i) d s := by
  -- Of the others nothing is asked.
  have hany : Safe (Protocol.under (fun _ => True) fun _ _ => True) d s :=
    Under.safe ((Under.lasts (P := fun _ => True) fun _ _ _ => trivial).post fun _ _ _ => trivial) s
  rw [List.getElem?_map, Option.map_eq_some_iff] at hd
  obtain ⟨r, hr, rfl⟩ := hd
  unfold noticeProtocols
  rw [hr, Option.bind_some]
  cases r with
  | complete orgId ticketId ref surface =>
    dsimp only [Request.completion]
    split
    · rename_i hsrc
      subst hsrc
      exact complete_tells
    · exact hany
  | _ => exact hany

/-- **What each request** to complete `src` tells. -/
theorem exists_tells (h : Reach (Unfollowed requests src) (startNotifying s requests) c)
    (hi : Completing requests i orgId src) : ∃ next, Tells orgId next (c.histOf i) := by
  have hlt : i < (requests.map Request.runNotifying).length := by
    obtain ⟨r, hr, -⟩ := Option.bind_eq_some_iff.mp hi
    rw [List.length_map]
    exact (List.getElem?_eq_some_iff.mp hr).1
  have hk := reach_keeps (noticeProtocols_safe src s) (fun d j _ hd _ => ?_) h hlt
  · rw [noticeProtocols, show requests[i]?.bind Request.completion = some (orgId, src) from hi] at hk
    dsimp only at hk
    rw [if_pos rfl] at hk
    exact hk
  · unfold noticeProtocols
    cases hj : requests[j]?.bind Request.completion with
    | none => exact Or.inr trivial
    | some o =>
      obtain ⟨orgId', ticketId⟩ := o
      dsimp only
      split
      · rename_i hsrc
        subst hsrc
        exact hd orgId' hj
      · exact Or.inr trivial

theorem AdvancedBy.unique {P : NRun → ℕ → Prop} (h : Reach P (startNotifying s requests) c)
    {orgId' : Id} {y : Id × Ticket} (hi : AdvancedBy requests src c i orgId x)
    (hj : AdvancedBy requests src c j orgId' y) (hxy : y.1 = x.1) : i = j := by
  obtain ⟨-, a, b, hab, ha, hb⟩ := hi
  obtain ⟨-, a', b', hab', ha', hb'⟩ := hj
  rw [hxy] at ha' hb'
  obtain ⟨p, hp⟩ := List.getElem?_of_mem hab
  obtain ⟨q, hq⟩ := List.getElem?_of_mem hab'
  have hpq := (reach_linear h).once (F := fun s => s.get .ticket x.1 ≠ none)
    (fun k x y hc hx => Rel.reach_lasts h hc hx) hp hq (hb ▸ Option.some_ne_none _) (fun hn => hn ha)
    (hb' ▸ Option.some_ne_none _) fun hn => hn ha'
  subst hpq
  rw [hp] at hq
  cases hq
  rfl

theorem noticeOf_eq_some {l : NEntry} (h : noticeOf l = some v) : l = .emit v := by
  unfold noticeOf at h
  split at h
  · cases h
  · cases h
    rfl
  · cases h

theorem mem_notices {h : List NEntry} (hv : .emit v ∈ h) {id : Id}
    (hid : v.ticketId = some id) : v ∈ notices h := by
  refine List.mem_filterMap.mpr ⟨_, hv, ?_⟩
  cases v with
  | finalizing => cases hid
  | ticketIssued | notifyTicketIssued | notifyTicketCalled => rfl

/-- A request tells of no ticket that it has not issued. -/
theorem exists_advancedBy (h : Reach (Unfollowed requests src) (startNotifying s requests) c)
    (hi : Completing requests i orgId src) {id : Id} (hv : (i, .emit v) ∈ c.trace)
    (hid : v.ticketId = some id) : ∃ t, AdvancedBy requests src c i orgId (id, t) := by
  obtain ⟨next, ht⟩ := exists_tells h hi
  have hmem : v ∈ notices (c.histOf i) := mem_notices (Config.mem_histOf.mpr hv) hid
  obtain ⟨⟨id', t⟩, rfl, hx⟩ := ticketId_of_mem_advanceNotices (ht.notices.subset hmem)
  rw [hid] at hx
  cases hx
  obtain ⟨h1, a, b, h2, heq, ⟨ha, hb, -⟩, -⟩ := ht.commits
  have hc : .commit a b ∈ c.histOf i := heq ▸ List.mem_append_right _ List.mem_cons_self
  exact ⟨t, hi, a, b, Config.mem_histOf.mp hc, ha, hb⟩

theorem AdvancedBy.tells (h : Reach (Unfollowed requests src) (startNotifying s requests) c)
    (hi : AdvancedBy requests src c i orgId x) : Tells orgId (some x) (c.histOf i) := by
  obtain ⟨next, ht⟩ := exists_tells h hi.1
  obtain ⟨-, a, b, hab, ha, hb⟩ := hi
  rw [← ht.commits.issued (Config.mem_histOf.mpr hab) ha hb]
  exact ht

/-- What the requests to complete `src` tell of a ticket is what the one that has issued it tells. -/
theorem noticesAbout_eq (h : Reach (Unfollowed requests src) (startNotifying s requests) c)
    (hi : AdvancedBy requests src c i orgId x) :
    noticesAbout requests src x.1 c.trace = notices (c.histOf i) := by
  unfold noticesAbout notices Config.histOf
  rw [List.filterMap_filterMap]
  refine List.filterMap_congr fun l hl => ?_
  obtain ⟨j, e⟩ := l
  dsimp only
  cases hn : noticeOf e with
  | none =>
    split <;> split <;> simp [hn]
  | some v =>
    obtain rfl := noticeOf_eq_some hn
    by_cases hji : j = i
    · subst hji
      have hmem : v ∈ notices (c.histOf j) := List.mem_filterMap.mpr ⟨_, Config.mem_histOf.mpr hl, hn⟩
      obtain ⟨y, hy, hv⟩ := ticketId_of_mem_advanceNotices ((hi.tells h).notices.subset hmem)
      cases hy
      rw [if_pos (completesTicket_iff.mpr ⟨_, hi.1⟩), if_pos rfl, Option.bind_some, hn]
      simp [hv]
    · rw [if_neg hji, Option.bind_none]
      split
      · rename_i hj
        obtain ⟨orgId', hj⟩ := completesTicket_iff.mp hj
        rw [Option.filter_eq_none_iff]
        intro w hw hid
        cases hw
        obtain ⟨t, ht⟩ := exists_advancedBy h hj hl (beq_iff_eq.mp hid)
        exact hji (ht.unique h hi rfl)
      · rfl

/-- **An advance is told of once**, in every run in which no request to complete the ticket comes upon
it completed and followed. -/
theorem reach_notices (h : Reach (Unfollowed requests src) (startNotifying s requests) c) :
    NotifiesOnce requests src c where
  atMost hi := noticesAbout_eq h hi ▸ (hi.tells h).notices
  once hi _ hr := (noticesAbout_eq h hi).trans ((hi.tells h).answered _ hr)
  own hi _ _ hv hid := exists_advancedBy h hi hv hid

end Runs

/-! ## A request and its retry -/

/-- The condition, computed. -/
def unfollowed (requests : List Request) (src : Id) (c : NRun) (i : ℕ) : Bool :=
  (requests[i]?.bind Request.completion).all fun o =>
    !(o.2 == src && finalizing (c.histOf i) && followed o.1 src c.db)

variable {c : NRun} {i : ℕ}

theorem unfollowed_of {requests : List Request} {src : Id}
    (h : unfollowed requests src c i = true) : Unfollowed requests src c i := by
  intro orgId hi hf
  rw [unfollowed, show requests[i]?.bind Request.completion = some (orgId, src) from hi] at h
  simpa [hf] using h

def isResult : NEntry → Bool
  | .answer (.ok _) => true
  | _ => false

/-- The line is a commit of request `i` that issues the ticket. -/
def issuesTicket (i : ℕ) (id : Id) : ℕ × NEntry → Bool
  | (j, .commit a b) => j == i && (a.get .ticket id).isNone && (b.get .ticket id).isSome
  | _ => false

theorem exists_advancedBy_of {requests : List Request} {src orgId id : Id}
    (hi : Completing requests i orgId src) (h : c.trace.any (issuesTicket i id) = true) :
    ∃ t, AdvancedBy requests src c i orgId (id, t) := by
  obtain ⟨⟨j, e⟩, he, hissue⟩ := List.any_eq_true.mp h
  cases e with
  | commit a b =>
    simp only [issuesTicket, Bool.and_eq_true, beq_iff_eq, Option.isNone_iff_eq_none] at hissue
    obtain ⟨⟨rfl, ha⟩, hb⟩ := hissue
    obtain ⟨t, ht⟩ := Option.isSome_iff_exists.mp hb
    exact ⟨t, hi, a, b, he, ha, ht⟩
  | _ => cases hissue

theorem exists_result (h : (c.histOf i).any isResult = true) :
    ∃ r, .answer (.ok r) ∈ c.histOf i := by
  obtain ⟨e, he, hr⟩ := List.any_eq_true.mp h
  cases e with
  | answer r =>
    cases r with
    | ok r => exact ⟨r, he⟩
    | error e => cases hr
  | _ => cases hr

theorem length_advanceNotices_le (orgId : Id) (x : Id × Ticket) :
    (advanceNotices orgId (some x)).length ≤ 5 := by
  have hissued : (emitTicketIssuedSideEffects orgId x x.2.queueId x.2.branchId).length ≤ 4 := by
    unfold emitTicketIssuedSideEffects
    split <;> simp
  have hcalled : (emitTicketCalledNotification orgId x x.2.deskNumber).length ≤ 1 := by
    unfold emitTicketCalledNotification
    split <;> simp
  unfold advanceNotices
  dsimp only
  rw [List.length_append]
  split
  · omega
  · rw [List.length_nil]
    omega

/-- The first request completes the ticket 1 and issues the ticket 2. -/
def tellsFirst : List (ℕ × Move Err) := turns 0 72 ++ [(0, .go 2)] ++ turns 0 17

/-- **A retry** tells of the follow-up once more. -/
theorem retry_tells_again : ∃ c, Reach Always (startNotifying journeyShop completeTwice) c ∧
    (∃ r, .answer (.ok r) ∈ c.histOf 0) ∧ (∃ r, .answer (.ok r) ∈ c.histOf 1) ∧
    ¬ NotifiesOnce completeTwice 1 c := by
  obtain ⟨c, hc, hp⟩ := exists_reach_anywhere
    (startNotifying journeyShop completeTwice) (tellsFirst ++ turns 1 45)
    (fun c => (c.histOf 0).any isResult && (c.histOf 1).any isResult &&
      c.trace.any (issuesTicket 0 2) && decide ((noticesAbout completeTwice 1 2 c.trace).length = 6))
    (by decide +kernel)
  simp only [Bool.and_eq_true, decide_eq_true_eq] at hp
  obtain ⟨⟨⟨h0, h1⟩, hissue⟩, hsix⟩ := hp
  have hfirst : Completing completeTwice 0 1 1 :=
    show completeTwice[0]?.bind Request.completion = some (1, 1) from rfl
  refine ⟨c, hc, exists_result h0, exists_result h1, fun h => ?_⟩
  obtain ⟨t, ht⟩ := exists_advancedBy_of hfirst hissue
  have hle := (h.atMost ht).length_le.trans (length_advanceNotices_le 1 (2, t))
  rw [hsix] at hle
  exact absurd hle (by decide)

/-- `complete`, the end of the follow-up, and `complete` once more. -/
def completeCancelRetry : List Request :=
  [.complete 1 1 none .classic, .cancel 1 2 false none .classic, .complete 1 1 none .classic]

theorem reach_notices_shop : ∃ c,
    Reach (Unfollowed completeCancelRetry 1) (startNotifying journeyShop completeCancelRetry) c ∧
      (∃ r, .answer (.ok r) ∈ c.histOf 0) ∧ (∃ r, .answer (.ok r) ∈ c.histOf 2) ∧
      (∃ t, AdvancedBy completeCancelRetry 1 c 0 1 (2, t)) ∧ NotifiesOnce completeCancelRetry 1 c := by
  obtain ⟨c, hc, hp⟩ := exists_reach (P := Unfollowed completeCancelRetry 1)
    (o := unfollowed completeCancelRetry 1) (fun _ _ h => unfollowed_of h)
    (startNotifying journeyShop completeCancelRetry) (tellsFirst ++ turns 1 24 ++ turns 2 51)
    (fun c => (c.histOf 0).any isResult && (c.histOf 2).any isResult &&
      c.trace.any (issuesTicket 0 2)) (by decide +kernel)
  simp only [Bool.and_eq_true] at hp
  obtain ⟨⟨h0, h2⟩, hissue⟩ := hp
  have hfirst : Completing completeCancelRetry 0 1 1 :=
    show completeCancelRetry[0]?.bind Request.completion = some (1, 1) from rfl
  exact ⟨c, hc, exists_result h0, exists_result h2, exists_advancedBy_of hfirst hissue,
    reach_notices hc⟩

end PatronLoyalty.Ticketing
