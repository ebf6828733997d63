import PatronLoyalty.Ticketing.Effects

/-!
# Loyalty events of tickets

The loyalty programme learns of a ticket by the events `TICKET_COMPLETED` and `TICKET_NO_SHOW`.
`transitionTicket` emits them for a transition to `completed` or `no_show`, and `serve` and `recall` are
its only callers: to `serving` and to `called`. `complete` and `noShow` go through `transitionTicketCore`
and `emitTransitionSideEffects`, which do not emit them; `transfer` and the sweeps write the status
themselves.

Headline: **`told_iff`**. No request emits an event, so the events of a run match its tickets exactly
when no ticket of the run ends as completed or missed.
-/

namespace PatronLoyalty.Ticketing

open Txn
open Loyalty (Id Err)

/-! ## What the loyalty programme should be told -/

def MovedTo (trace : List Line) (status : TicketStatus) (id : Id) : Prop :=
  ∃ i a b t t', Commit trace i a b ∧ a.get .ticket id = some t ∧ b.get .ticket id = some t' ∧
    t.status ≠ status ∧ t'.status = status

def tells (status : TicketStatus) (id : Id) : Line → Bool
  | (_, .emit (.ticketCompleted _ ticketId _ _ _)) => status == .completed && ticketId == id
  | (_, .emit (.ticketNoShow _ ticketId _ _)) => status == .noShow && ticketId == id
  | _ => false

/-- Each ticket that moves to `completed` or `no_show` has exactly one event for it, and no other ticket
has one. -/
def Told (trace : List Line) : Prop :=
  ∀ status, status = .completed ∨ status = .noShow → ∀ id,
    (MovedTo trace status id → trace.countP (tells status id) = 1) ∧
      (¬ MovedTo trace status id → trace.countP (tells status id) = 0)

/-! ## Runs -/

theorem countP_tells {s : Db} {requests : List Request} {c : Run}
    (h : Reach Always (start s requests) c) (status : TicketStatus) (id : Id) :
    c.trace.countP (tells status id) = 0 := by
  have hnone := (reach_emits (V := fun _ _ => False) (fun i d hd => by
    obtain ⟨r, -, rfl⟩ := getElem?_calls hd
    exact (mute_run (C := fun _ => true) (e := .recordNotFound) r).2) h).2
  rw [List.countP_eq_zero]
  rintro ⟨i, e⟩ he
  cases e with
  | emit v => exact (hnone i v he).elim
  | start => simp [tells]
  | commit a b => simp [tells]
  | rollback e => simp [tells]
  | answer r => simp [tells]

/-- **Loyalty is told of a run's tickets** exactly when there is nothing to tell. -/
theorem told_iff {s : Db} {requests : List Request} {c : Run}
    (h : Reach Always (start s requests) c) :
    Told c.trace ↔
      ∀ id, ¬ MovedTo c.trace .completed id ∧ ¬ MovedTo c.trace .noShow id := by
  constructor
  · intro ht id
    refine ⟨fun hm => ?_, fun hm => ?_⟩
    · have := (ht .completed (Or.inl rfl) id).1 hm
      rw [countP_tells h] at this
      cases this
    · have := (ht .noShow (Or.inr rfl) id).1 hm
      rw [countP_tells h] at this
      cases this
  · intro hno status hs id
    refine ⟨fun hm => ?_, fun _ => countP_tells h status id⟩
    rcases hs with rfl | rfl
    · exact absurd hm (hno id).1
    · exact absurd hm (hno id).2

/-! ## A ticket that is completed -/

def completes (id : Id) (a b : Db) : Bool :=
  (a.get .ticket id).any (·.status != .completed) && (b.get .ticket id).any (·.status == .completed)

theorem movedTo_of_completes {id : Id} {c : Run} (h : anyCommit (completes id) c.trace = true) :
    MovedTo c.trace .completed id := by
  obtain ⟨i, a, b, hm, he⟩ := exists_commit h
  rw [completes, Bool.and_eq_true] at he
  obtain ⟨t, ht, hts⟩ := (Option.any_eq_true _ _).mp he.1
  obtain ⟨t', ht', hts'⟩ := (Option.any_eq_true _ _).mp he.2
  exact ⟨i, a, b, t, t', hm, ht, ht', by simpa using hts, by simpa using hts'⟩

/-- **Completing a ticket tells nobody.** -/
theorem complete_untold : ∃ c, Reach Always
    (start (shop false [] [(1, beingServed)]) [.complete 1 1 none .classic]) c ∧
      answeredOk 0 c = true ∧ ¬ Told c.trace := by
  obtain ⟨c, hc, hp⟩ := exists_reach_anywhere
    (start (shop false [] [(1, beingServed)]) [.complete 1 1 none .classic]) (turns 0 27)
    (fun c => anyCommit (completes 1) c.trace && answeredOk 0 c) (by decide +kernel)
  rw [Bool.and_eq_true] at hp
  refine ⟨c, hc, hp.2, fun ht => ?_⟩
  exact ((told_iff hc).mp ht 1).1 (movedTo_of_completes hp.1)

/-- Loyalty is told of a run in which a ticket is served: there is nothing to tell. -/
theorem told_iff_serve : ∃ c, Reach Always
    (start (shop false [] [(1, { beingServed with status := .called })]) [.serve 1 1 7 .classic]) c ∧
      (c.db.get .ticket 1).map (·.status) = some .serving ∧
      (Told c.trace ↔
        ∀ id, ¬ MovedTo c.trace .completed id ∧ ¬ MovedTo c.trace .noShow id) := by
  obtain ⟨c, hc, hp⟩ := exists_reach_anywhere
    (start (shop false [] [(1, { beingServed with status := .called })]) [.serve 1 1 7 .classic])
    (turns 0 19)
    (fun c => decide ((c.db.get .ticket 1).map (·.status) = some .serving)) (by decide +kernel)
  exact ⟨c, hc, of_decide_eq_true hp, told_iff hc⟩

end PatronLoyalty.Ticketing
