import PatronLoyalty.Ticketing.Pages
import PatronLoyalty.Ticketing.Requests
import PatronLoyalty.Txn.Alone

/-!
# The line, as it is shown and as it is called

The line of a queue is shown on the page of a ticket (`getTicketPublic`) and on the board of the branch
(`getPublicDisplayBoard`), and called by `callNext`. The page and the call go by position and then by the
time of booking; the board goes by the time of booking.

Headline: **`shown_as_called`**. In a queue that calls first in, first out, the page of a ticket tells the
number at which the ticket is called, unless it is part of a visit or ties with another; and the board
lists tickets without a position in the order they are called.
-/

namespace PatronLoyalty.Ticketing

open Txn
open Loyalty (Id Err)

/-! ## The line -/

/-- **The line**: the waiting tickets of the day. -/
def line (orgId queueId : Id) (bookedAtFloor : Time) (s : Db) : List (Id × Ticket) :=
  seen (.tenant orgId) .ticket (fun _ t => liveQueueWaitingTicketWhere queueId bookedAtFloor t) s

def inOrder (x y : Id × Ticket) : Bool := ticketWaitingOrderBy x.2 y.2

theorem callOrder_none : callOrder none = ticketWaitingOrderBy := by
  funext a b
  unfold callOrder ticketWaitingOrderBy
  rw [if_neg (by simp [callRank])]
  cases a.position with
  | none => cases b.position <;> rfl
  | some i =>
    cases b.position with
    | none => rfl
    | some j =>
      by_cases h : i = j
      · simp [h]
      · simp [h]

theorem callable_fifo (queueId : Id) (bookedAtFloor : Time) :
    callable queueId bookedAtFloor .fifo none = liveQueueWaitingTicketWhere queueId bookedAtFloor := by
  funext t
  simp [callable, liveQueueWaitingTicketWhere]

theorem lex_total (i j : ℤ) (m n : ℕ) : (i < j ∨ i = j ∧ m ≤ n) ∨ j < i ∨ j = i ∧ n ≤ m := by omega

theorem lex_trans {i j k : ℤ} {l m n : ℕ} (h : i < j ∨ i = j ∧ l ≤ m) (h' : j < k ∨ j = k ∧ m ≤ n) :
    i < k ∨ i = k ∧ l ≤ n := by omega

theorem ticketWaitingOrderBy_total (a b : Ticket) :
    ticketWaitingOrderBy a b = true ∨ ticketWaitingOrderBy b a = true := by
  unfold ticketWaitingOrderBy
  cases a.position with
  | none =>
    cases b.position with
    | none => simpa using Nat.le_total a.bookedAt b.bookedAt
    | some j => simp
  | some i =>
    cases b.position with
    | none => simp
    | some j =>
      simpa only [Bool.or_eq_true, Bool.and_eq_true, decide_eq_true_eq, beq_iff_eq] using
        lex_total i j a.bookedAt b.bookedAt

theorem ticketWaitingOrderBy_trans (a b c : Ticket) (hab : ticketWaitingOrderBy a b = true)
    (hbc : ticketWaitingOrderBy b c = true) : ticketWaitingOrderBy a c = true := by
  unfold ticketWaitingOrderBy at hab hbc ⊢
  cases ha : a.position with
  | none =>
    cases hb : b.position <;> rw [ha, hb] at hab
    · cases hc : c.position <;> rw [hb, hc] at hbc
      · simpa using Nat.le_trans (by simpa using hab) (by simpa using hbc)
      · cases hbc
    · cases hab
  | some i =>
    cases hb : b.position <;> rw [ha, hb] at hab <;> cases hc : c.position <;> rw [hb, hc] at hbc
    · cases hbc
    · simp only [Bool.or_eq_true, Bool.and_eq_true, decide_eq_true_eq, beq_iff_eq] at hab hbc ⊢
      exact lex_trans hab hbc

section

variable {orgId queueId id : Id} {bookedAtFloor : Time} {s s' : Db} {t : Ticket}

theorem mem_line : (id, t) ∈ line orgId queueId bookedAtFloor s ↔ s.get .ticket id = some t ∧
    visible (.tenant orgId) .ticket t = true ∧
      liveQueueWaitingTicketWhere queueId bookedAtFloor t = true := by
  unfold line seen
  rw [Rel.mem_rows, Bool.and_eq_true]

theorem nodup_rows (s : Db) (k : Kind) (p : Id → Row k → Bool) : (s.rows k p).Nodup :=
  List.Nodup.of_map _ (Rel.nodup_ids s k p)

theorem nodup_line : (line orgId queueId bookedAtFloor s).Nodup := by
  unfold line seen
  exact nodup_rows s .ticket _

end

/-! ## The checks of a call -/

/-- What the checks of a call read. -/
def besideTickets (s : Db) : (AList fun _ : ℕ => Queue) × AList fun _ : ℕ => BranchFlowStep :=
  (s.tables .queue, s.tables .flowStep)

theorem besideTickets_set (s : Db) (id : Id) (t : Ticket) :
    besideTickets (s.set .ticket id t) = besideTickets s := by
  simp [besideTickets, Rel.set]

section

variable {scope : Scope} {orgId queueId : Id} {s s' : Db} {e : Err}

theorem seen_queue_congr (h : besideTickets s = besideTickets s') (p : Id → Queue → Bool) :
    seen scope .queue p s = seen scope .queue p s' := by
  unfold seen Rel.rows
  rw [(Prod.mk.inj h).1]

theorem seen_flowStep_congr (h : besideTickets s = besideTickets s')
    (p : Id → BranchFlowStep → Bool) : seen scope .flowStep p s = seen scope .flowStep p s' := by
  unfold seen Rel.rows
  rw [(Prod.mk.inj h).2]

theorem reads_findQueue {id : Id} :
    (findById scope .queue id : TTx (Option Queue)).Reads besideTickets :=
  .read fun s s' h => by
    unfold Rel.get
    rw [(Prod.mk.inj h).1]

theorem reads_throwIf {b : Bool} : (throwIf b e).Reads besideTickets :=
  .ite trivial trivial

theorem reads_orThrow {α : Type} {o : Option α} : (orThrow e o).Reads besideTickets := by
  cases o <;> trivial

theorem reads_flag : flag.Reads besideTickets := fun _ => trivial

theorem reads_mayRefuse : (mayRefuse e).Reads besideTickets :=
  reads_flag.bind fun _ => .ite trivial trivial

theorem reads_resolveQueueCallingPolicy :
    (resolveQueueCallingPolicy orgId queueId).Reads besideTickets := by
  refine reads_findQueue.bind fun queue => ?_
  cases queue with
  | none => trivial
  | some q =>
    refine (Tx.Reads.findFirst fun s s' h => seen_flowStep_congr h _).bind fun flowStep => ?_
    cases flowStep <;> trivial

theorem reads_isQueueJourneyManaged :
    (isQueueJourneyManaged scope orgId queueId).Reads besideTickets :=
  Tx.Reads.bind (Tx.Reads.findFirst fun _ _ h => seen_queue_congr h _) fun _ => trivial

theorem reads_assertActionSurfaceForQueue {surface : ActionSurface} :
    (assertActionSurfaceForQueue orgId queueId surface).Reads besideTickets :=
  reads_isQueueJourneyManaged.bind fun _ => reads_flag.bind fun _ => reads_throwIf

theorem reads_assertStaffQueueActionAllowed {branchId : Id} {actionLabel : String} :
    (assertStaffQueueActionAllowed orgId queueId branchId actionLabel .customerIntake).Reads
      besideTickets :=
  reads_findQueue.bind fun _ => reads_orThrow.bind fun _ => reads_throwIf.bind fun _ =>
    reads_throwIf.bind fun _ => reads_mayRefuse

theorem reads_assertDesk {surface : ActionSurface} {deskNumber action : String} :
    (assertDesk surface deskNumber action).Reads besideTickets := by
  cases surface with
  | workbench => exact reads_mayRefuse
  | classic =>
    refine Tx.Reads.bind (reads_mayRefuse.bind fun _ => ?_) fun _ => reads_mayRefuse
    split
    · exact reads_mayRefuse
    · trivial

end

/-- What `callNext` checks before it looks for a ticket, and the policy of the queue. -/
def callNextChecks (orgId queueId : Id) (deskNumber : String) (surface : ActionSurface) :
    TTx QueueCallingPolicy := do
  assertActionSurfaceForQueue orgId queueId surface
  let queue ← findById (.tenant orgId) .queue queueId
  let queue ← orThrow (.notFound "Queue not found") queue
  assertStaffQueueActionAllowed orgId queueId queue.branchId "calling next" .customerIntake
  let policy ← resolveQueueCallingPolicy orgId queueId
  throwIf (policy == .manualOnly || policy == .readyThenManual)
    (.badRequest "This queue requires manual call. Use \"Call\" on a specific ticket.")
  assertDesk surface deskNumber "call next customer"
  pure policy

def takenTicket (deskNumber : String) (userId : Id) (now : Time) (t : Ticket) : Ticket :=
  { calledTicket deskNumber userId now t with position := none }

/-- Its other half: the ticket that is next is called. -/
def callLocked (orgId queueId : Id) (deskNumber : String) (userId : Id) (bookedAtFloor : Time)
    (policy : QueueCallingPolicy) : TTx (Id × Ticket) := do
  let next ← lockNext orgId queueId bookedAtFloor policy none
  let now ← now
  let ticket ← update orgId .ticket next.1 (takenTicket deskNumber userId now)
  pure (next.1, ticket)

section

variable {orgId queueId userId id : Id} {deskNumber : String} {surface : ActionSurface}
  {bookedAtFloor now : Time} {s s' m : Db} {t : Ticket} {scope : Scope}

theorem callNextTx_eq : callNextTx orgId queueId deskNumber userId false surface bookedAtFloor =
    (callNextChecks orgId queueId deskNumber surface).bind fun policy =>
      callLocked orgId queueId deskNumber userId bookedAtFloor policy := by
  unfold callNextTx callNextChecks callLocked takenTicket
  simp only [Tx.bind_eq, Tx.bind_assoc, Tx.pure_eq, Tx.pure_bind, Bool.false_eq_true, if_false]

theorem reads_callNextChecks :
    (callNextChecks orgId queueId deskNumber surface).Reads besideTickets :=
  reads_assertActionSurfaceForQueue.bind fun _ => reads_findQueue.bind fun _ =>
    reads_orThrow.bind fun _ => reads_assertStaffQueueActionAllowed.bind fun _ =>
    reads_resolveQueueCallingPolicy.bind fun _ => reads_throwIf.bind fun _ =>
    reads_assertDesk.bind fun _ => trivial

/-- **The queue calls first in, first out.** -/
def Fifo (orgId queueId : Id) (s : Db) : Prop :=
  ∀ policy m, (resolveQueueCallingPolicy orgId queueId).gives s policy m → policy = .fifo

theorem Fifo.of_queue {q : Queue} (hq : s.get .queue queueId = some q)
    (hvis : visible (.tenant orgId) .queue q = true)
    (hstep : seen (.tenant orgId) .flowStep (fun _ st => some st.templateId == q.flowTemplateId &&
      st.queueId == some queueId) s = [])
    (hp : resolveCallingPolicyForStep q.stepRole q.callingPolicy = .fifo) : Fifo orgId queueId s := by
  intro policy m h
  obtain ⟨o, m1, ho, hrest⟩ := h.seq
  obtain ⟨ho, rfl⟩ := Tx.gives_read.mp ho
  rw [hq, Option.filter_some, if_pos hvis] at ho
  subst ho
  obtain ⟨o, m2, ho, hend⟩ := hrest.seq
  obtain ⟨-, ho⟩ := Tx.gives_findFirst.mp ho
  rw [hstep] at ho
  rcases ho with ⟨rfl, -⟩ | ⟨st, hst, -⟩
  · exact hend.1.trans hp
  · cases hst

theorem Fifo.congr (h : Fifo orgId queueId s) (hs : besideTickets s = besideTickets s') :
    Fifo orgId queueId s' := fun policy _ hg =>
  h policy s (reads_resolveQueueCallingPolicy.gives hs.symm hg).2

theorem Fifo.checks {policy : QueueCallingPolicy} (h : Fifo orgId queueId s)
    (hg : (callNextChecks orgId queueId deskNumber surface).gives s policy m) : policy = .fifo := by
  obtain ⟨_, m1, h1, hg⟩ := hg.seq
  obtain ⟨_, m2, h2, hg⟩ := hg.seq
  obtain ⟨_, m3, h3, hg⟩ := hg.seq
  obtain ⟨_, m4, h4, hg⟩ := hg.seq
  obtain ⟨p, m5, h5, hg⟩ := hg.seq
  obtain ⟨_, m6, h6, hg⟩ := hg.seq
  obtain ⟨_, m7, h7, hend⟩ := hg.seq
  obtain ⟨rfl, -⟩ := reads_assertActionSurfaceForQueue.gives rfl h1
  obtain ⟨rfl, -⟩ := reads_findQueue.gives rfl h2
  obtain ⟨rfl, -⟩ := reads_orThrow.gives rfl h3
  obtain ⟨rfl, -⟩ := reads_assertStaffQueueActionAllowed.gives rfl h4
  have hp : policy = p := hend.1
  rw [hp]
  exact h _ _ h5

/-! ## One call -/

/-- No check against what is not modelled refuses, and no row is locked by others. -/
def unhindered (now : Time) : Env := ⟨fun _ => 0, now⟩

/-- **`callNext`** takes the ticket, at some desk that does not filter, for some user. -/
def Calls (orgId queueId : Id) (bookedAtFloor : Time) (s : Db) (id : Id) (s' : Db) : Prop :=
  ∃ deskNumber userId surface now t ws n,
    (callNextTx orgId queueId deskNumber userId false surface bookedAtFloor).eval (unhindered now) 0
      [] s = (.ok ((id, t), ws), n) ∧ s' = view ws s

theorem callCandidates_fifo : callCandidates orgId queueId bookedAtFloor .fifo none s =
    (line orgId queueId bookedAtFloor s).insertionSort fun x y => inOrder x y = true := by
  unfold callCandidates line inOrder
  rw [callable_fifo, callOrder_none]

theorem callLocked_eval_some {n : ℕ}
    (h : (callCandidates orgId queueId bookedAtFloor .fifo none s)[0]? = some (id, t)) :
    (callLocked orgId queueId deskNumber userId bookedAtFloor .fifo).eval (unhindered now) n [] s =
      (.ok ((id, takenTicket deskNumber userId now t), [.put .ticket id (some t) t,
        .put .ticket id (some t) (takenTicket deskNumber userId now t)]), n + 1) := by
  have hmem := List.mem_of_getElem? h
  rw [callCandidates_fifo, (List.perm_insertionSort _ _).mem_iff, mem_line] at hmem
  obtain ⟨hget, hvis, -⟩ := hmem
  have hlocked : (s.put .ticket id (some t) t).get .ticket id = some t := by
    rw [Rel.put_eq hget, Rel.get_set_self]
  have hlock : (forUpdateSkipLocked .ticket (callCandidates orgId queueId bookedAtFloor .fifo none)
      0).eval (unhindered now) (n + 1) [] s =
        (.ok (some (id, t), [.put .ticket id (some t) t]), n + 1) := by
    refine Tx.eval_exec ?_
    rw [view_nil, h]
  have hnext : (lockNext orgId queueId bookedAtFloor .fifo none).eval (unhindered now) n [] s =
      (.ok ((id, t), [.put .ticket id (some t) t]), n + 1) := by
    unfold lockNext
    rw [Tx.bind_eq, Tx.eval_bind_ok (show Tx.input.eval (unhindered now) n [] s =
      (.ok (0, []), n + 1) from rfl), Tx.bind_eq, Tx.eval_bind_ok hlock]
    rfl
  have hupdate : (update orgId .ticket id (takenTicket deskNumber userId now)).eval (unhindered now)
      (n + 1) [.put .ticket id (some t) t] s = (.ok (takenTicket deskNumber userId now t,
        [.put .ticket id (some t) t, .put .ticket id (some t) (takenTicket deskNumber userId now t)]),
          n + 1) := by
    refine Tx.eval_exec ?_
    rw [view_cons, view_nil, Rel.apply_put, hlocked]
    simp only [hvis, if_true]
    rfl
  unfold callLocked
  rw [Tx.bind_eq, Tx.eval_bind_ok hnext, Tx.bind_eq, Tx.eval_bind_ok (show Ticketing.now.eval
    (unhindered now) (n + 1) [.put .ticket id (some t) t] s = (.ok (now, _), _) from rfl),
    Tx.bind_eq, Tx.eval_bind_ok hupdate]
  rfl

theorem nothingToCall_not_gives {policy : QueueCallingPolicy} {desk : Option String}
    {x : Id × Ticket} :
    ¬ (nothingToCall orgId queueId bookedAtFloor policy desk).gives s x m := by
  intro h
  obtain ⟨_, _, -, h⟩ := h.seq
  obtain ⟨_, _, -, h⟩ := h.seq
  obtain ⟨_, _, -, h⟩ := h.seq
  exact Tx.gives_throw h

theorem exists_candidate {n k : ℕ} {x : Id × Ticket} {ws : List DbWrite}
    (h : (callLocked orgId queueId deskNumber userId bookedAtFloor .fifo).eval (unhindered now) n [] s =
      (.ok (x, ws), k)) :
    ∃ r, (callCandidates orgId queueId bookedAtFloor .fifo none s)[0]? = some r := by
  cases hr : (callCandidates orgId queueId bookedAtFloor .fifo none s)[0]? with
  | some r => exact ⟨r, rfl⟩
  | none =>
    have hlock : (forUpdateSkipLocked .ticket (callCandidates orgId queueId bookedAtFloor .fifo none)
        0).eval (unhindered now) (n + 1) [] s = (.ok (none, []), n + 1) := by
      refine Tx.eval_exec ?_
      rw [view_nil, hr]
    obtain ⟨b, vs, j, hnext, -⟩ := Tx.eval_bind_eq_ok h
    unfold lockNext at hnext
    rw [Tx.bind_eq, Tx.eval_bind_ok (show Tx.input.eval (unhindered now) n [] s =
      (.ok (0, []), n + 1) from rfl), Tx.bind_eq, Tx.eval_bind_ok hlock] at hnext
    exact (nothingToCall_not_gives (Tx.gives_of_eval hnext)).elim

/-- The checks of a call pass, and the queue calls first in, first out. -/
def Served (orgId queueId : Id) (s : Db) : Prop :=
  ∃ deskNumber surface now n, (callNextChecks orgId queueId deskNumber surface).eval
    (unhindered now) 0 [] s = (.ok (.fifo, []), n)

theorem Served.congr (h : Served orgId queueId s) (hs : besideTickets s = besideTickets s') :
    Served orgId queueId s' := by
  obtain ⟨deskNumber, surface, now, n, h⟩ := h
  exact ⟨deskNumber, surface, now, n, (reads_callNextChecks.eval hs _ _).symm.trans h⟩

/-- **What a call does**: it takes a first ticket of the line. -/
structure CallsFirst (orgId queueId : Id) (bookedAtFloor : Time) (s : Db) (id : Id) (t : Ticket)
    (s' : Db) : Prop where
  mem : (id, t) ∈ line orgId queueId bookedAtFloor s
  first : ∀ y ∈ line orgId queueId bookedAtFloor s, inOrder (id, t) y = true
  beside : besideTickets s' = besideTickets s
  left : (line orgId queueId bookedAtFloor s).Perm ((id, t) :: line orgId queueId bookedAtFloor s')

theorem inOrder_refl (x : Id × Ticket) : inOrder x x = true :=
  (ticketWaitingOrderBy_total x.2 x.2).elim (fun h => h) fun h => h

theorem candidates_mem_orderings : callCandidates orgId queueId bookedAtFloor .fifo none s ∈
    orderings inOrder (line orgId queueId bookedAtFloor s) := by
  rw [callCandidates_fifo]
  exact insertionSort_mem_orderings (fun a b => ticketWaitingOrderBy_total a.2 b.2)
    fun a b c => ticketWaitingOrderBy_trans a.2 b.2 c.2

theorem line_perm {t' : Ticket} (hmem : (id, t) ∈ line orgId queueId bookedAtFloor s)
    (hself : s'.get .ticket id = some t') (hout : t'.status ≠ .waiting)
    (hne : ∀ i, i ≠ id → s'.get .ticket i = s.get .ticket i) :
    (line orgId queueId bookedAtFloor s).Perm ((id, t) :: line orgId queueId bookedAtFloor s') := by
  have hgone : ∀ u, (id, u) ∉ line orgId queueId bookedAtFloor s' := by
    intro u hu
    obtain ⟨hu, -, hw⟩ := mem_line.mp hu
    cases hself.symm.trans hu
    simp only [liveQueueWaitingTicketWhere, Bool.and_eq_true, beq_iff_eq] at hw
    exact hout hw.1.2
  refine (List.perm_ext_iff_of_nodup nodup_line
    (List.nodup_cons.mpr ⟨hgone t, nodup_line⟩)).mpr fun x => ?_
  obtain ⟨i, u⟩ := x
  rw [List.mem_cons, mem_line, mem_line]
  by_cases hi : i = id
  · subst hi
    rw [hself, (mem_line.mp hmem).1]
    constructor
    · rintro ⟨hu, -⟩
      exact Or.inl (by rw [Option.some.inj hu])
    · rintro (hu | ⟨hu, hw⟩)
      · cases hu
        exact mem_line.mp hmem |>.imp_left fun _ => rfl
      · exact (hgone u (mem_line.mpr ⟨hself.trans hu, hw⟩)).elim
  · rw [hne i hi]
    exact ⟨Or.inr, fun h => h.resolve_left fun he => hi (Prod.mk.inj he).1⟩

theorem callsFirst_of_head {ws : List DbWrite}
    (h : (callCandidates orgId queueId bookedAtFloor .fifo none s)[0]? = some (id, t))
    (hws : ws = [.put .ticket id (some t) t,
      .put .ticket id (some t) (takenTicket deskNumber userId now t)]) :
    CallsFirst orgId queueId bookedAtFloor s id t (view ws s) := by
  have hmem : (id, t) ∈ line orgId queueId bookedAtFloor s :=
    (mem_orderings.mp candidates_mem_orderings).1.mem_iff.mp (List.mem_of_getElem? h)
  have hget := (mem_line.mp hmem).1
  have hview : view ws s =
      (s.set .ticket id t).set .ticket id (takenTicket deskNumber userId now t) := by
    rw [hws, view_cons, view_cons, view_nil, Rel.apply_put, Rel.apply_put, Rel.put_eq hget,
      Rel.put_eq (Rel.get_set_self s .ticket id t)]
  rw [hview]
  refine ⟨hmem, first_of_orderings inOrder_refl candidates_mem_orderings h, ?_, ?_⟩
  · rw [besideTickets_set, besideTickets_set]
  · refine line_perm hmem (Rel.get_set_self _ _ _ _) (by simp [takenTicket, calledTicket])
      fun i hi => ?_
    rw [Rel.get_set_ne (by simpa using hi), Rel.get_set_ne (by simpa using hi)]

/-- **One call.** -/
theorem Calls.first (h : Calls orgId queueId bookedAtFloor s id s') (hf : Fifo orgId queueId s) :
    Served orgId queueId s ∧ ∃ t, CallsFirst orgId queueId bookedAtFloor s id t s' := by
  obtain ⟨deskNumber, userId, surface, now, t', ws, n, heval, rfl⟩ := h
  rw [callNextTx_eq] at heval
  obtain ⟨policy, vs, k, hchecks, hcall⟩ := Tx.eval_bind_eq_ok heval
  obtain rfl := reads_callNextChecks.eval_ok hchecks
  obtain rfl := hf.checks (Tx.gives_of_eval hchecks)
  obtain ⟨⟨i, t⟩, hr⟩ := exists_candidate hcall
  rw [callLocked_eval_some hr] at hcall
  cases hcall
  exact ⟨⟨deskNumber, surface, now, k, hchecks⟩, t, callsFirst_of_head hr rfl⟩

theorem Served.calls (h : Served orgId queueId s)
    (hne : line orgId queueId bookedAtFloor s ≠ []) :
    ∃ id s', Calls orgId queueId bookedAtFloor s id s' := by
  obtain ⟨deskNumber, surface, now, n, hchecks⟩ := h
  have hlen : 0 < (callCandidates orgId queueId bookedAtFloor .fifo none s).length := by
    rw [(mem_orderings.mp candidates_mem_orderings).1.length_eq]
    exact List.length_pos_iff.mpr hne
  obtain ⟨⟨id, t⟩, hr⟩ : ∃ r, (callCandidates orgId queueId bookedAtFloor .fifo none s)[0]? = some r :=
    ⟨_, List.getElem?_eq_getElem hlen⟩
  have hcall := Tx.eval_bind_ok (f := fun policy =>
    callLocked orgId queueId deskNumber 0 bookedAtFloor policy) hchecks
  rw [← callNextTx_eq, callLocked_eval_some hr] at hcall
  exact ⟨id, _, deskNumber, 0, surface, now, _, _, _, hcall, rfl⟩

/-! ## Calls in turn -/

/-- **Calls in turn**, one after the other, and the tickets they take. -/
inductive CallsInTurn (orgId queueId : Id) (bookedAtFloor : Time) : Db → List Id → Db → Prop
  | done (s : Db) : CallsInTurn orgId queueId bookedAtFloor s [] s
  | call {s m s' : Db} {id : Id} {ids : List Id} (h : Calls orgId queueId bookedAtFloor s id m)
      (hrest : CallsInTurn orgId queueId bookedAtFloor m ids s') :
      CallsInTurn orgId queueId bookedAtFloor s (id :: ids) s'

variable {ids : List Id}

/-- They take first tickets of the line. -/
theorem CallsInTurn.taken (h : CallsInTurn orgId queueId bookedAtFloor s ids s')
    (hf : Fifo orgId queueId s) :
    ∃ xs, TakenInTurn inOrder (line orgId queueId bookedAtFloor s) xs ∧ xs.map (·.1) = ids := by
  induction h with
  | done s => exact ⟨[], .done _, rfl⟩
  | @call s m s' id ids hcall hrest ih =>
    obtain ⟨-, t, ht⟩ := hcall.first hf
    obtain ⟨xs, hxs, hids⟩ := ih (hf.congr ht.beside.symm)
    exact ⟨(id, t) :: xs, .take ht.left ht.first hxs, by rw [List.map_cons, hids]⟩

theorem Served.callsInTurn (h : Served orgId queueId s) (hf : Fifo orgId queueId s) :
    ∃ ids s', CallsInTurn orgId queueId bookedAtFloor s ids s' ∧
      ∀ id t, (id, t) ∈ line orgId queueId bookedAtFloor s → id ∈ ids := by
  induction hn : (line orgId queueId bookedAtFloor s).length generalizing s with
  | zero =>
    refine ⟨[], s, .done s, fun id t ht => ?_⟩
    rw [List.length_eq_zero_iff.mp hn] at ht
    cases ht
  | succ n ih =>
    obtain ⟨id, m, hcall⟩ := h.calls (List.ne_nil_of_length_eq_add_one hn)
    obtain ⟨-, t, ht⟩ := hcall.first hf
    have hlen : (line orgId queueId bookedAtFloor m).length = n := by
      have hl := ht.left.length_eq
      rw [List.length_cons] at hl
      omega
    obtain ⟨ids, s', hrest, hall⟩ := ih (h.congr ht.beside.symm) (hf.congr ht.beside.symm) hlen
    refine ⟨id :: ids, s', .call hcall hrest, fun i u hu => ?_⟩
    rcases List.mem_cons.mp (ht.left.mem_iff.mp hu) with hi | hi
    · cases hi
      exact List.mem_cons_self
    · exact List.mem_cons_of_mem _ (hall i u hi)

/-! ## What the pages show -/

theorem reads_still {k : Kind} {p : Id → Row k → Bool} {le : Row k → Row k → Bool}
    {rows : List (Id × Row k)} (h : (findManyOrdered scope k p le).gives s rows m) : m = s := by
  obtain ⟨o, m', ho, -, rfl⟩ := h.seq
  exact (Tx.gives_findFirst.mp ho).1

theorem gives_findManyOrdered {k : Kind} {p : Id → Row k → Bool} {le : Row k → Row k → Bool}
    {rows : List (Id × Row k)} (total : ∀ a b, le a b = true ∨ le b a = true)
    (trans : ∀ a b c, le a b = true → le b c = true → le a c = true)
    (h : (findManyOrdered scope k p le).gives s rows m) :
    m = s ∧ rows ∈ orderings (fun x y => le x.2 y.2) (seen scope k p s) := by
  obtain ⟨o, m', ho, rfl, rfl⟩ := h.seq
  obtain ⟨rfl, ho⟩ := Tx.gives_findFirst.mp ho
  refine ⟨rfl, ?_⟩
  rcases ho with ⟨-, hnil⟩ | ⟨ys, hys, rfl⟩
  · have hsort : (seen scope k p m).insertionSort (fun x y => le x.2 y.2 = true) ∈
        orderings (fun x y => le x.2 y.2) (seen scope k p m) :=
      insertionSort_mem_orderings (fun x y => total x.2 y.2) fun x y z => trans x.2 y.2 z.2
    rw [hnil] at hsort
    cases hsort
  · exact hys

theorem placeOf_eq {rows : List (Id × Ticket)}
    (h : rows ∈ orderings inOrder (line orgId queueId bookedAtFloor s))
    (hmem : (id, t) ∈ line orgId queueId bookedAtFloor s)
    (hu : Untied inOrder (line orgId queueId bookedAtFloor s) (id, t)) :
    placeOf (rows.map (·.1)) id =
      some (ahead inOrder (line orgId queueId bookedAtFloor s) (id, t) + 1) := by
  have hp := (mem_orderings.mp h).1
  have hids : (rows.map (·.1)).Nodup := by
    rw [(hp.map _).nodup_iff]
    unfold line seen
    exact Rel.nodup_ids s .ticket _
  obtain ⟨i, hi⟩ := List.getElem?_of_mem (hp.mem_iff.mpr hmem)
  have hahead := getElem?_orderings h nodup_line hu hi
  obtain ⟨hlt, hget⟩ := List.getElem?_eq_some_iff.mp hi
  have hlt' : i < (rows.map (·.1)).length := by rwa [List.length_map]
  have hid : (rows.map (·.1))[i] = id := by rw [List.getElem_map, hget]
  unfold placeOf
  rw [if_pos (hid ▸ List.getElem_mem hlt'), ← hahead]
  nth_rewrite 1 [← hid]
  rw [hids.idxOf_getElem i hlt']

theorem gives_linePlace {place : LinePlace} (h : (linePlace orgId id t bookedAtFloor).gives s place m) :
    ∃ rows ∈ orderings inOrder (line orgId t.queueId bookedAtFloor s),
      place.position = placeOf (rows.map (·.1)) id := by
  obtain ⟨rows, m1, hrows, h⟩ := h.seq
  obtain ⟨_, m2, -, h⟩ := h.seq
  obtain ⟨_, m3, -, h⟩ := h.seq
  obtain ⟨_, m4, -, rfl, -⟩ := h.seq
  exact ⟨rows, (gives_findManyOrdered ticketWaitingOrderBy_total ticketWaitingOrderBy_trans hrows).2,
    rfl⟩

theorem gives_findTicket {o : Option Ticket} (hget : s.get .ticket id = some t)
    (hvis : visible scope .ticket t = true) (h : (findById scope .ticket id).gives s o m) :
    o = some t ∧ m = s := by
  obtain ⟨ho, hm⟩ := Tx.gives_read.mp h
  refine ⟨?_, hm⟩
  rw [ho, hget, Option.filter_some, if_pos hvis]

/-- **The page** of a waiting ticket that is not part of a visit. -/
theorem gives_getTicketPublic {page : TicketPage}
    (hmem : (id, t) ∈ line orgId queueId bookedAtFloor s) (hv : t.visitId = none)
    (h : (getTicketPublic id bookedAtFloor).gives s (.ok page) m) :
    ∃ rows ∈ orderings inOrder (line orgId queueId bookedAtFloor s),
      page.line.position = placeOf (rows.map (·.1)) id := by
  obtain ⟨hget, hvis, hw⟩ := mem_line.mp hmem
  simp only [liveQueueWaitingTicketWhere, Bool.and_eq_true, beq_iff_eq, decide_eq_true_eq] at hw
  obtain ⟨⟨rfl, hs⟩, -⟩ := hw
  obtain ⟨hgone, horg⟩ : gone .ticket t = false ∧ t.orgId = orgId := by
    simpa [visible, orgOf] using hvis
  subst horg
  rcases Call.gives_tx_bind h with ⟨o, m1, hresolved, h1⟩ | ⟨e, he, -⟩
  · obtain ⟨rfl, rfl⟩ := gives_findTicket hget (by simp [visible, orgOf, hgone]) hresolved
    rcases Call.gives_tx_bind h1 with ⟨found, m2, hfound, h2⟩ | ⟨e, he, -⟩
    · obtain ⟨o, m3, hticket, hrest⟩ := hfound.seq
      obtain ⟨rfl, rfl⟩ := gives_findTicket hget hvis hticket
      obtain ⟨queue, m4, hqueue, rfl, rfl⟩ := hrest.seq
      obtain ⟨-, rfl⟩ := Tx.gives_read.mp hqueue
      simp only [Option.map_some, hv, hs, Option.isSome_none, Bool.not_false, and_self, if_true] at h2
      rcases Call.gives_tx_bind h2 with ⟨place, m5, hplace, h3⟩ | ⟨e, he, -⟩
      · obtain ⟨rows, hrows, hpos⟩ := gives_linePlace hplace
        refine ⟨rows, hrows, ?_⟩
        split at h3
        · rcases Call.gives_bind.mp h3 with ⟨step, m6, -, hpage, -⟩ | ⟨e, -, he⟩
          · cases hpage
            exact hpos
          · cases he
        · cases h3.1
          exact hpos
      · cases he
    · cases he
  · cases he

/-! ## What the board shows -/

theorem unseen_sublist (seenDisplayNumbers : List String) (rows : List (Id × Ticket)) :
    (unseen seenDisplayNumbers rows).Sublist rows := by
  induction rows generalizing seenDisplayNumbers with
  | nil => exact .slnil
  | cons row rows ih =>
    unfold unseen
    split
    · exact (ih _).cons _
    · exact (ih _).cons_cons _

theorem byBookedAt_total (a b : Ticket) : byBookedAt a b = true ∨ byBookedAt b a = true := by
  simpa [byBookedAt] using Nat.le_total a.bookedAt b.bookedAt

theorem byBookedAt_trans (a b c : Ticket) (hab : byBookedAt a b = true) (hbc : byBookedAt b c = true) :
    byBookedAt a c = true := by
  simp only [byBookedAt, decide_eq_true_eq] at hab hbc ⊢
  exact Nat.le_trans hab hbc

/-- **The upcoming list**: some of the tickets that wait in the branch, by the time of booking. -/
theorem gives_getPublicDisplayBoard {branchId : Id} {dayStart : Time} {board : DisplayBoard}
    (h : (getPublicDisplayBoard branchId dayStart).gives s (.ok board) m) :
    ∃ rows : List (Id × Ticket), board.upcoming = rows.map upcomingRow ∧
      (∀ x ∈ rows, s.get .ticket x.1 = some x.2) ∧
      rows.Pairwise fun x y => x.2.bookedAt ≤ y.2.bookedAt := by
  rcases Call.gives_tx_bind h with ⟨o, m1, hfind, h⟩ | ⟨e, he, -⟩
  · obtain ⟨-, rfl⟩ := Tx.gives_read.mp hfind
    cases o with
    | none => cases h.1
    | some branch =>
      rcases Call.gives_withTx.mp h with ⟨board', hb, hg⟩ | ⟨e, he, -⟩
      · cases hb
        obtain ⟨called, m2, hcalled, hg⟩ := hg.seq
        obtain ⟨total, m3, htotal, hg⟩ := hg.seq
        obtain ⟨completed, m4, hcompleted, hg⟩ := hg.seq
        obtain ⟨upcoming, m5, hupcoming, hg⟩ := hg.seq
        obtain ⟨_, m6, -, hg⟩ := hg.seq
        obtain ⟨_, m7, -, rfl, -⟩ := hg.seq
        obtain rfl := reads_still hcalled
        obtain ⟨-, rfl⟩ := Tx.gives_read.mp htotal
        obtain rfl := reads_still hcompleted
        obtain ⟨-, hrows⟩ := gives_findManyOrdered (k := .ticket) byBookedAt_total
          byBookedAt_trans hupcoming
        obtain ⟨hp, hsorted⟩ := mem_orderings.mp hrows
        have hsub := (unseen_sublist (displayNumbers (unseen [] (((called.take 20).insertionSort
          fun a b => displayOrder a.2 b.2 = true).take 10))) (upcoming.take 5)).trans
            (List.take_sublist 5 upcoming)
        refine ⟨_, rfl, fun x hx => ?_, ?_⟩
        · have hmem := hp.mem_iff.mp (hsub.subset hx)
          unfold seen at hmem
          exact (Rel.mem_rows.mp hmem).1
        · exact (hsorted.sublist hsub).imp fun h => by simpa [byBookedAt] using h
      · cases he
  · cases he

/-! ## As it is shown, as it is called -/

/-- **What the pages of a store say** of the calls from it on. -/
structure ShownAsCalled (orgId queueId : Id) (bookedAtFloor : Time) (s : Db) : Prop where
  /-- The page of a ticket, not of a visit, that ties with no other tells the number it is called
  at. -/
  page {ids : List Id} {s' m : Db} {id : Id} {t : Ticket} {page : TicketPage}
    (hc : CallsInTurn orgId queueId bookedAtFloor s ids s')
    (ht : (id, t) ∈ line orgId queueId bookedAtFloor s) (hv : t.visitId = none)
    (hu : Untied inOrder (line orgId queueId bookedAtFloor s) (id, t))
    (hp : (getTicketPublic id bookedAtFloor).gives s (.ok page) m) :
    ∃ p, page.line.position = some p ∧ ∀ k < ids.length, ids[k]? = some id ↔ p = k + 1
  /-- A desk that calls once may go on until nobody waits. -/
  everybody {id : Id} {m : Db} (hc : Calls orgId queueId bookedAtFloor s id m) :
    ∃ ids s', CallsInTurn orgId queueId bookedAtFloor s ids s' ∧
      ∀ i t, (i, t) ∈ line orgId queueId bookedAtFloor s → i ∈ ids
  /-- The board lists two tickets without a position that were booked at different times in the order
  they are called in. -/
  board {ids : List Id} {s' m : Db} {branchId : Id} {dayStart : Time} {board : DisplayBoard}
    (hc : CallsInTurn orgId queueId bookedAtFloor s ids s')
    (hb : (getPublicDisplayBoard branchId dayStart).gives s (.ok board) m)
    {x y : UpcomingRow} {t u : Ticket} {i j k l : ℕ}
    (ht : (x.id, t) ∈ line orgId queueId bookedAtFloor s)
    (hu : (y.id, u) ∈ line orgId queueId bookedAtFloor s) (htp : t.position = none)
    (hup : u.position = none) (hne : t.bookedAt ≠ u.bookedAt) (hi : board.upcoming[i]? = some x)
    (hj : board.upcoming[j]? = some y) (hk : ids[k]? = some x.id) (hl : ids[l]? = some y.id) :
    i < j ↔ k < l

theorem called_before {u : Ticket} {x y : Id} {k l : ℕ}
    (hc : CallsInTurn orgId queueId bookedAtFloor s ids s') (hf : Fifo orgId queueId s)
    (ht : (x, t) ∈ line orgId queueId bookedAtFloor s)
    (hu : (y, u) ∈ line orgId queueId bookedAtFloor s) (htp : t.position = none)
    (hup : u.position = none) (hlt : t.bookedAt < u.bookedAt) (hk : ids[k]? = some x)
    (hl : ids[l]? = some y) : k < l := by
  obtain ⟨xs, hxs, rfl⟩ := hc.taken hf
  -- The tickets taken are those of the line, so their identifiers tell them apart.
  have row : ∀ {i : ℕ} {id : Id} {r : Ticket}, (xs.map (·.1))[i]? = some id →
      (id, r) ∈ line orgId queueId bookedAtFloor s → xs[i]? = some (id, r) := by
    intro i id r hi hr
    rw [List.getElem?_map, Option.map_eq_some_iff] at hi
    obtain ⟨⟨id', r'⟩, hx, rfl⟩ := hi
    have hget := (mem_line.mp (hxs.subset (List.mem_of_getElem? hx))).1
    rw [hx, Option.some.inj (hget.symm.trans (mem_line.mp hr).1)]
  have hlate : inOrder (y, u) (x, t) = false := by
    unfold inOrder ticketWaitingOrderBy
    simpa [htp, hup] using hlt
  obtain ⟨i, hi, hx⟩ := hxs.before ht hlate (row hl hu)
  have hk' := row hk ht
  have hilt := (List.getElem?_eq_some_iff.mp hx).1
  have hsame := (hxs.nodup nodup_line).getElem_inj_iff.mp
    ((List.getElem?_eq_some_iff.mp hx).2.trans (List.getElem?_eq_some_iff.mp hk').2.symm)
  omega

theorem shown_before {branchId : Id} {dayStart : Time} {board : DisplayBoard} {u : Ticket}
    {x y : UpcomingRow} {i j : ℕ} (hb : (getPublicDisplayBoard branchId dayStart).gives s (.ok board) m)
    (ht : s.get .ticket x.id = some t) (hu : s.get .ticket y.id = some u)
    (hi : board.upcoming[i]? = some x) (hj : board.upcoming[j]? = some y) (hlt : i < j) :
    t.bookedAt ≤ u.bookedAt := by
  obtain ⟨rows, hrows, hget, hsorted⟩ := gives_getPublicDisplayBoard hb
  rw [hrows, List.getElem?_map, Option.map_eq_some_iff] at hi hj
  obtain ⟨⟨xid, t'⟩, hx, rfl⟩ := hi
  obtain ⟨⟨yid, u'⟩, hy, rfl⟩ := hj
  have hxt := hget _ (List.mem_of_getElem? hx)
  have hyu := hget _ (List.mem_of_getElem? hy)
  obtain ⟨hi, hx⟩ := List.getElem?_eq_some_iff.mp hx
  obtain ⟨hj, hy⟩ := List.getElem?_eq_some_iff.mp hy
  have hle := List.pairwise_iff_getElem.mp hsorted i j hi hj hlt
  rw [hx, hy] at hle
  rwa [Option.some.inj (ht.symm.trans hxt), Option.some.inj (hu.symm.trans hyu)]

/-- **Displayed order is calling order**, in a queue that calls first in, first out. -/
theorem shown_as_called (hf : Fifo orgId queueId s) :
    ShownAsCalled orgId queueId bookedAtFloor s where
  page {ids s' m id t page} hc ht hv hu hp := by
    obtain ⟨rows, hrows, hpos⟩ := gives_getTicketPublic ht hv hp
    obtain ⟨xs, hxs, rfl⟩ := hc.taken hf
    refine ⟨_, hpos.trans (placeOf_eq hrows ht hu), fun k hk => ?_⟩
    rw [List.length_map] at hk
    have htaken := hxs.getElem?_iff nodup_line ht hu hk
    rw [List.getElem?_map, Option.map_eq_some_iff]
    constructor
    · rintro ⟨⟨id', r⟩, hr, rfl⟩
      have hget := (mem_line.mp (hxs.subset (List.mem_of_getElem? hr))).1
      cases Option.some.inj (hget.symm.trans (mem_line.mp ht).1)
      rw [htaken.mp hr]
    · intro h
      exact ⟨_, htaken.mpr (by omega), rfl⟩
  everybody hc := (hc.first hf).1.callsInTurn hf
  board {ids s' m branchId dayStart board} hc hb {x y t u i j k l} ht hu htp hup hne hi hj hk hl := by
    have htg := (mem_line.mp ht).1
    have hug := (mem_line.mp hu).1
    rcases Nat.lt_or_gt_of_ne hne with hlt | hlt
    · have hkl := called_before hc hf ht hu htp hup hlt hk hl
      have hji : ¬ j < i := fun h => Nat.not_le.mpr hlt (shown_before hb hug htg hj hi h)
      have hij : i ≠ j := by
        rintro rfl
        cases Option.some.inj (hi.symm.trans hj)
        exact hne (by rw [Option.some.inj (htg.symm.trans hug)])
      omega
    · have hlk := called_before hc hf hu ht hup htp hlt hl hk
      have hij : ¬ i < j := fun h => Nat.not_le.mpr hlt (shown_before hb htg hug hi hj h)
      omega

end

/-! ## Shown otherwise -/

def waitsFrom (bookedAt : Time) : Ticket :=
  { beingServed with status := .waiting, calledAt := none, servedAt := none, bookedAt }

def broughtFirst : Db :=
  shop false [] [(1, { waitsFrom 2 with position := some (-1), displayNumber := "C002" }),
    (2, waitsFrom 1)]

theorem fifo_broughtFirst : Fifo 1 1 broughtFirst :=
  Fifo.of_queue (q := { orgId := 1, branchId := 1, serviceId := 1, name := "Cut", pre := "C"
                        status := .opened }) rfl rfl rfl rfl

theorem shown_as_called_broughtFirst : (∃ m, Calls 1 1 0 broughtFirst 1 m) ∧
    ShownAsCalled 1 1 0 broughtFirst :=
  ⟨⟨_, "1", 7, .classic, 0, _, _, _, rfl, rfl⟩, shown_as_called fifo_broughtFirst⟩

/-- What the page says of the place in line. -/
def shownPosition (env : Env) (s : Db) (id : Id) : Except Err (Option ℕ) :=
  ((getTicketPublic id 0).eval env 0 s).answer.map (·.line.position)

def shownUpcoming (s : Db) : Except Err (List Id) :=
  ((getPublicDisplayBoard 1 0).eval (unhindered 0) 0 s).answer.map fun b => b.upcoming.map (·.id)

def visitWaits : Db :=
  shop false [(1, { orgId := 1, branchId := 1 })] [(1, { waitsFrom 0 with visitId := some 1 })]

def bookedAtOnce : Db := shop false [] [(1, waitsFrom 0), (2, waitsFrom 0)]

/-- **A ticket of a visit** has no position where it is next, **the board** lists the ticket that was
brought first last, and of **two that tie** the page may say that the one is next, and the other is
called. -/
theorem shown_otherwise :
    ((∃ m, Calls 1 1 0 visitWaits 1 m) ∧ shownPosition (unhindered 0) visitWaits 1 = .ok none) ∧
      ((∃ m, Calls 1 1 0 broughtFirst 1 m) ∧ shownUpcoming broughtFirst = .ok [2, 1]) ∧
      (∃ m, Calls 1 1 0 bookedAtOnce 1 m) ∧
        shownPosition ⟨fun _ => 1, 0⟩ bookedAtOnce 2 = .ok (some 1) :=
  ⟨⟨⟨_, "1", 7, .classic, 0, _, _, _, rfl, rfl⟩, by decide +kernel⟩,
    ⟨⟨_, "1", 7, .classic, 0, _, _, _, rfl, rfl⟩, by decide +kernel⟩,
    ⟨_, "1", 7, .classic, 0, _, _, _, rfl, rfl⟩, by decide +kernel⟩

end PatronLoyalty.Ticketing
