import PatronLoyalty.Ticketing.Effects

/-!
# Calling tickets

`callNext` and `callSpecific` lock a ticket that waits, and update it in the same transaction. A
successful call has therefore taken its ticket from `waiting` to `called` in one commit, whatever the
other requests do.

Headline: **`reach_calls`**. Two calls of one ticket are separated by a commit that takes it back to the
line; calls and cancellations alone have no such commit, so among them no ticket is called twice, and
none that has been cancelled.
-/

namespace PatronLoyalty.Ticketing

open Txn Relation
open Txn.Rel (Wrote)
open Loyalty (Id Err)

/-! ## What a call does -/

def Waits (id : Id) (s : Db) : Prop := ∃ t, s.get .ticket id = some t ∧ t.status = .waiting

def Cancelled (id : Id) (s : Db) : Prop := ∃ t, s.get .ticket id = some t ∧ t.status = .cancelled

theorem Waits.not_cancelled {id : Id} {s : Db} (h : Waits id s) : ¬ Cancelled id s := by
  rintro ⟨t, ht, hc⟩
  obtain ⟨t', ht', hw⟩ := h
  rw [ht] at ht'
  cases ht'
  rw [hc] at hw
  cases hw

/-- The commit of a call: the ticket, which waits, becomes the row `t`, and the others stay. -/
structure Takes (id : Id) (t : Ticket) (a b : Db) : Prop where
  waits : Waits id a
  called : t.status = .called
  row : b.get .ticket id = some t
  others : ∀ id', id' ≠ id → b.get .ticket id' = a.get .ticket id'

theorem Takes.not_waits {id : Id} {t : Ticket} {a b : Db} (h : Takes id t a b) : ¬ Waits id b := by
  rintro ⟨t', ht', hw⟩
  rw [h.row] at ht'
  cases ht'
  rw [h.called] at hw
  cases hw

def CallEffect : Answer → Db → Db → Prop
  | .ticket id t => Takes id t
  | _ => fun _ _ => False

theorem Rewrote.takes {C : DbWrite → Bool} {orgId id : Id} {t t' : Ticket} {a b : Db}
    (h : Rewrote C orgId id Eq t t' a b) (hs : t.status = .waiting) (hc : t'.status = .called) :
    Takes id t' a b := by
  obtain ⟨m, ⟨m', rfl, -, hl⟩, hw⟩ := h
  exact ⟨⟨t, hl.2.get_old, hs⟩, hc, hw.2.get_self, fun id' hne =>
    (hw.2.get_ne (by simpa using hne)).trans (hl.2.get_ne (by simpa using hne))⟩

/-! ## A call is one commit -/

def Request.calls : Request → Bool
  | .callNext .. | .callSpecific .. => true
  | _ => false

/-- **The protocol of a call.** -/
abbrev calling : Protocol Db Err Ev Answer .any :=
  .ofHistory _ (fun _ _ => True) (OneShot TicketsUntouched CallEffect)

theorem Request.calls_safe {r : Request} (h : r.calls = true) (s : Db) : Safe calling r.run s := by
  have hquiet : (Protocol.ofHistory Guarantee.any (fun _ _ => True) (Clear TicketsUntouched) :
      Protocol Db Err Ev Answer .any).Quiet := clear_quiet TicketsUntouched.refl
  cases r
  case callNext orgId queueId deskNumber userId filter surface =>
    refine oneShot_safe_of_bind fun s' _ _ => wp_clear_bind (Φ := fun _ _ => True)
      (Tame.readTx hquiet fun A s n => did_start) clear_start trivial
      (fun floor h1 s1 _ _ hc => ?_) fun _ _ _ hc => hc
    refine Call.wp_mono (fun r h2 s2 hr => ?_) (wp_act (s := s1) (f := Answer.ofTicket) hc
      (fun s2 _ => (triple_callNextTx (e := .recordNotFound)).wp_free _ s2) fun b a d _ hR => ?_)
    · cases r with
      | ok b => exact hr
      | error e => exact hr
    · obtain ⟨t, now, hs, -, hb, hw⟩ := hR
      exact ⟨trivial, hw.takes hs (by rw [hb]; rfl)⟩
  case callSpecific orgId ticketId deskNumber userId surface =>
    refine oneShot_safe_of_bind fun s' _ _ => ?_
    refine Call.wp_mono (fun r h2 s2 hr => ?_) (wp_act (s := s') (f := Answer.ofTicket) clear_start
      (fun s2 _ => (triple_callSpecificTx (e := .recordNotFound)).wp_free _ s2)
      fun b a d _ hR => ?_)
    · cases r with
      | ok b => exact hr
      | error e => exact hr
    · obtain ⟨t, now, hs, rfl, hw⟩ := hR
      exact ⟨trivial, hw.takes hs rfl⟩
  all_goals cases h

/-! ## A run of any requests -/

section

variable {requests : List Request} {s : Db} {c : Run} {i j p q : ℕ} {id : Id} {t t' : Ticket}

/-- What request `i` of a run is verified against. -/
def callProtocols (requests : List Request) (i : ℕ) : Protocol Db Err Ev Answer .any :=
  if requests[i]?.any Request.calls then calling else .within .any fun _ _ => True

theorem callProtocols_safe (i : ℕ) (d : TCall Answer) (hd : (calls requests)[i]? = some d) :
    Safe (callProtocols requests i) d s := by
  obtain ⟨r, hr, rfl⟩ := getElem?_calls hd
  unfold callProtocols
  rw [hr, Option.any_some]
  split
  · rename_i hcall
    exact Request.calls_safe hcall s
  · have hcalm : Calm (fun _ => true) Err.recordNotFound Guarantee.any (fun _ _ => True) Answer r.run :=
      mild_run r _ _ _ fun _ _ _ => ⟨trivial, trivial⟩
    have hsafe := hcalm.safe (fun _ => trivial) s
    rwa [Call.guard_true] at hsafe

/-- Request `i` is a call, has answered with the ticket, and has called it at position `p` of the
history. -/
structure CallAt (requests : List Request) (c : Run) (i p : ℕ) (id : Id) (t : Ticket) : Prop where
  call : requests[i]?.any Request.calls = true
  answered : .answer (.ok (.ticket id t)) ∈ c.histOf i
  commit : ∃ a b, c.trace[p]? = some (i, .commit a b) ∧ Takes id t a b

/-- **A successful call** has called the ticket it answers with. -/
theorem exists_callAt (h : Reach Always (start s requests) c)
    (hi : requests[i]?.any Request.calls = true) {answer : Answer}
    (ha : .answer (.ok answer) ∈ c.histOf i) :
    ∃ id t p, answer = .ticket id t ∧ CallAt requests c i p id t := by
  have hlt : i < (calls requests).length := by
    obtain ⟨r, hr, -⟩ := (Option.any_eq_true _ _).mp hi
    rw [calls, List.length_map]
    exact (List.getElem?_eq_some_iff.mp hr).1
  have hkeep := reach_keeps callProtocols_safe (fun d j _ _ _ => by
    unfold callProtocols
    split
    · trivial
    · trivial) h hlt
  unfold callProtocols at hkeep
  rw [if_pos hi] at hkeep
  obtain ⟨h1, a, b, h2, heq, hE, -⟩ := hkeep.answered _ ha
  have hmem : (i, Entry.commit a b) ∈ c.trace := Config.mem_histOf.mp (heq ▸ by simp)
  obtain ⟨p, hp⟩ := List.getElem?_of_mem hmem
  cases answer with
  | ticket id t => exact ⟨id, t, p, rfl, hi, ha, a, b, hp, hE⟩
  | finalized f => exact hE.elim
  | queue q => exact hE.elim
  | count n => exact hE.elim
  | done => exact hE.elim

/-- A commit between the two positions takes the ticket back to the line. -/
def BackInLine (c : Run) (p q : ℕ) (id : Id) : Prop :=
  ∃ m k a b, p < m ∧ m < q ∧ c.trace[m]? = some (k, .commit a b) ∧ ¬ Waits id a ∧ Waits id b

/-- **Between two calls** of a ticket it has waited again. -/
theorem CallAt.back (h : Reach Always (start s requests) c) (hp : CallAt requests c i p id t)
    (hq : CallAt requests c j q id t') (hlt : p < q) : BackInLine c p q id := by
  obtain ⟨a, b, hab, hE⟩ := hp.commit
  obtain ⟨a', b', hab', hE'⟩ := hq.commit
  exact (reach_linear h).changes_between hab hab' hlt hE.not_waits hE'.waits

theorem CallAt.back_of_not_waits (h : Reach Always (start s requests) c)
    (hq : CallAt requests c j q id t) {k : ℕ} {a b : Db} (hp : c.trace[p]? = some (k, .commit a b))
    (hlt : p < q) (hb : ¬ Waits id b) : BackInLine c p q id := by
  obtain ⟨a', b', hab', hE'⟩ := hq.commit
  exact (reach_linear h).changes_between hp hab' hlt hb hE'.waits

end

/-! ## A run of calls and cancellations -/

section

variable {C : DbWrite → Bool} {r : Request} {a b : Db} {requests : List Request} {s : Db} {c : Run}

/-- Calls and cancellations. -/
def Request.leavesLine : Request → Bool
  | .callNext .. | .callSpecific .. | .cancel .. => true
  | _ => false

def OutOfLine (a b : Db) : Prop := ∀ id, Waits id b → Waits id a

theorem OutOfLine.refl (a : Db) : OutOfLine a a := fun _ h => h

theorem Moved.waits {t t' : Ticket} (h : Moved t t') (hw : t'.status = .waiting) :
    t.status = .waiting := by
  cases h with
  | called _ _ _ _ h => exact h
  | transitioned _ _ _ _ hto => exact absurd (by simpa using hw) hto
  | cancelled _ _ _ => cases hw
  | beside h => rw [h] at hw; exact hw

/-- A statement of a call or of a cancellation. -/
theorem Effect.outOfLine (h : Effect C r a b) (hr : r.leavesLine = true) : OutOfLine a b := by
  have ho : r.overwrites = false := by cases r <;> first | rfl | cases hr
  have hi : r.issues = false := by cases r <;> first | rfl | cases hr
  rintro id ⟨t, ht, hw⟩
  cases h with
  | aside h => exact ⟨t, (h.untouched id).symm.trans ht, hw⟩
  | @moved id' u u' h hm _ =>
    by_cases hid : id = id'
    · subst hid
      rw [h.2.get_self] at ht
      cases ht
      exact ⟨u, h.2.get_old, hm.waits hw⟩
    · exact ⟨t, (h.2.get_ne (by simpa using hid)).symm.trans ht, hw⟩
  | overwritten hr => rw [ho] at hr; cases hr
  | issued hr => rw [hi] at hr; cases hr
  | queue _ h => exact ⟨t, (h.2.get_ne (by simp)).symm.trans ht, hw⟩

theorem outOfLine_steps {E : Db → Db → Prop} (hE : ∀ a b, E a b → OutOfLine a b)
    (h : ReflTransGen E a b) : OutOfLine a b := by
  induction h with
  | refl => exact .refl a
  | tail _ hs ih => exact fun id hw => ih id (hE _ _ hs id hw)

/-- **No commit** of such a run brings a ticket back to the line. -/
theorem commit_outOfLine (hall : ∀ r ∈ requests, r.leavesLine = true)
    (h : Reach Always (start s requests) c) {i : ℕ} (hc : Commit c.trace i a b) :
    OutOfLine a b := by
  have hcalm : ∀ (i : ℕ) d, (calls requests)[i]? = some d → Calm (fun _ => true) Err.recordNotFound
      .any OutOfLine Answer d := by
    intro i d hd
    obtain ⟨r, hr, rfl⟩ := getElem?_calls hd
    refine mild_run r _ _ _ fun a b hab => ⟨trivial, outOfLine_steps (fun a b he => ?_) hab⟩
    exact he.outOfLine (hall r (List.mem_of_getElem? hr))
  exact (reach_calm hcalm (fun _ => OutOfLine.refl)
    (fun c i _ => Config.meets_true c i) h hc).2

theorem not_backInLine (hall : ∀ r ∈ requests, r.leavesLine = true)
    (h : Reach Always (start s requests) c) (p q : ℕ) (id : Id) : ¬ BackInLine c p q id := by
  rintro ⟨m, k, a, b, -, -, hm, ha, hb⟩
  exact ha (commit_outOfLine hall h (List.mem_of_getElem? hm) id hb)

theorem CallAt.waited (hall : ∀ r ∈ requests, r.leavesLine = true)
    (h : Reach Always (start s requests) c) {i p : ℕ} {id : Id} {t : Ticket}
    (hp : CallAt requests c i p id t) :
    Waits id s ∧ ∀ m k a b, m < p → c.trace[m]? = some (k, .commit a b) → Waits id b := by
  constructor
  · obtain ⟨a, b, hab, hE⟩ := hp.commit
    by_contra hno
    obtain ⟨m, k, x, y, hm, hx, hy⟩ := ((reach_linear h).before hab).changes hno hE.waits
    exact hx (commit_outOfLine hall h (List.mem_of_mem_take (List.mem_of_getElem? hm)) id hy)
  · intro m k a b hlt hm
    by_contra hno
    exact not_backInLine hall h m p id (hp.back_of_not_waits h hm hlt hno)

/-- **What calls promise.** -/
structure CallsOnce (requests : List Request) (s : Db) (c : Run) : Prop where
  success {i : ℕ} {answer : Answer} (hi : requests[i]?.any Request.calls = true)
    (ha : .answer (.ok answer) ∈ c.histOf i) :
    ∃ id t p, answer = .ticket id t ∧ CallAt requests c i p id t
  /-- Between two calls of a ticket it has waited again. -/
  back {i j p q : ℕ} {id : Id} {t t' : Ticket} (hp : CallAt requests c i p id t)
    (hq : CallAt requests c j q id t') (hlt : p < q) : BackInLine c p q id
  /-- Among calls and cancellations, no two calls answer with the same ticket. -/
  apart (hall : ∀ r ∈ requests, r.leavesLine = true) {i j p q : ℕ} {id : Id} {t t' : Ticket}
    (hp : CallAt requests c i p id t) (hq : CallAt requests c j q id t') : i = j
  /-- Nor does one answer with a ticket that was cancelled before it committed. -/
  fresh (hall : ∀ r ∈ requests, r.leavesLine = true) {i p : ℕ} {id : Id} {t : Ticket}
    (hp : CallAt requests c i p id t) : ¬ Cancelled id s ∧
      ∀ m k a b, m < p → c.trace[m]? = some (k, .commit a b) → ¬ Cancelled id b

/-- **No ticket is called twice**, in any interleaving of any requests. -/
theorem reach_calls (h : Reach Always (start s requests) c) : CallsOnce requests s c where
  success hi ha := exists_callAt h hi ha
  back hp hq hlt := hp.back h hq hlt
  apart hall {i j p q id t t'} hp hq := by
    rcases Nat.lt_trichotomy p q with hlt | rfl | hlt
    · exact absurd (hp.back h hq hlt) (not_backInLine hall h p q id)
    · obtain ⟨a, b, hab, -⟩ := hp.commit
      obtain ⟨a', b', hab', -⟩ := hq.commit
      rw [hab] at hab'
      cases hab'
      rfl
    · exact absurd (hq.back h hp hlt) (not_backInLine hall h q p id)
  fresh hall {i p id t} hp := by
    obtain ⟨hs, hm⟩ := hp.waited hall h
    exact ⟨hs.not_cancelled, fun m k a b hlt hab => (hm m k a b hlt hab).not_cancelled⟩

end

/-! ## Two desks at once -/

def inLine : Ticket :=
  { orgId := 1, queueId := 1, branchId := 1, serviceId := 1, displayNumber := "C001", bookedAt := 0
    createdAt := 0 }

def twoDesks : List Request :=
  [.callNext 1 1 "1" 7 false .classic, .callNext 1 1 "2" 8 false .classic]

/-- The first desk has locked its ticket when the second one looks for its own, and passes over it. -/
def passesOver : List (ℕ × Move Err) :=
  turns 0 20 ++ turns 1 17 ++ [(1, .go 1)] ++ turns 1 5 ++ turns 0 3

theorem reach_calls_twoDesks : ∃ c,
    Reach Always (start (shop false [] [(1, inLine), (2, inLine)]) twoDesks) c ∧
      (c.db.get .ticket 1).map (·.deskNumber) = some (some "1") ∧
      (c.db.get .ticket 2).map (·.deskNumber) = some (some "2") ∧
      CallsOnce twoDesks (shop false [] [(1, inLine), (2, inLine)]) c := by
  obtain ⟨c, hc, hp⟩ := exists_reach_anywhere
    (start (shop false [] [(1, inLine), (2, inLine)]) twoDesks) passesOver
    (fun c => decide ((c.db.get .ticket 1).map (·.deskNumber) = some (some "1") ∧
      (c.db.get .ticket 2).map (·.deskNumber) = some (some "2"))) (by decide +kernel)
  obtain ⟨h1, h2⟩ := of_decide_eq_true hp
  exact ⟨c, hc, h1, h2, reach_calls hc⟩

end PatronLoyalty.Ticketing
