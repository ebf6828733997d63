import PatronLoyalty.Ticketing.Effects

/-!
# Tickets that are over

A ticket is over when its status is `completed`, `no_show` or `cancelled`. The requests that lock the
ticket find that out before they write; `transfer` and the two sweeps write by the identifier of a
ticket they have read earlier.

Headline: **`reach_outcomes`**. As long as those three do not come upon a ticket that is over, its
status, the time of its end and its minutes stay as they are.
-/

namespace PatronLoyalty.Ticketing

open Txn Relation
open Txn.Rel (Wrote)
open Loyalty (Id Err)

/-! ## Outcomes -/

/-- What is known of a ticket once it is over. -/
structure SameOutcome (t t' : Ticket) : Prop where
  status : t'.status = t.status
  completedAt : t'.completedAt = t.completedAt
  waitMinutes : t'.waitMinutes = t.waitMinutes
  serviceMinutes : t'.serviceMinutes = t.serviceMinutes

theorem SameOutcome.refl (t : Ticket) : SameOutcome t t := ⟨rfl, rfl, rfl, rfl⟩

theorem SameOutcome.trans {t t' t'' : Ticket} (h : SameOutcome t t') (h' : SameOutcome t' t'') :
    SameOutcome t t'' where
  status := h'.status.trans h.status
  completedAt := h'.completedAt.trans h.completedAt
  waitMinutes := h'.waitMinutes.trans h.waitMinutes
  serviceMinutes := h'.serviceMinutes.trans h.serviceMinutes

/-- The tickets that are over in `a` have the same outcome in `b`. -/
def Absorbing (a b : Db) : Prop :=
  ∀ id t, a.get .ticket id = some t → t.status.active = false →
    ∃ t', b.get .ticket id = some t' ∧ SameOutcome t t'

theorem Absorbing.refl (a : Db) : Absorbing a a := fun _ t ht _ => ⟨t, ht, .refl t⟩

variable {a b : Db}

theorem Absorbing.trans {c : Db} (h : Absorbing a b) (h' : Absorbing b c) : Absorbing a c := by
  intro id t ht hover
  obtain ⟨t', ht', hs⟩ := h id t ht hover
  obtain ⟨t'', ht'', hs'⟩ := h' id t' ht' (hs.status ▸ hover)
  exact ⟨t'', ht'', hs.trans hs'⟩

theorem absorbing_steps {E : Db → Db → Prop} (hE : ∀ a b, E a b → Absorbing a b)
    (h : ReflTransGen E a b) : Absorbing a b := by
  induction h with
  | refl => exact .refl a
  | tail _ hs ih => exact ih.trans (hE _ _ hs)

/-! ## One statement -/

section

variable {C : DbWrite → Bool} {r : Request} {a b : Db}

theorem Moved.sameOutcome {t t' : Ticket} (h : Moved t t') (hover : t.status.active = false) :
    SameOutcome t t' := by
  cases h with
  | called _ _ _ _ h => simp [h, TicketStatus.active] at hover
  | transitioned _ _ _ h _ => rcases h with h | h <;> simp [h, TicketStatus.active] at hover
  | cancelled _ _ h => rcases h with h | h <;> simp [h, TicketStatus.active] at hover
  | beside h => rw [h]; exact ⟨rfl, rfl, rfl, rfl⟩

/-- `C` lets nobody write over a ticket that is over. -/
def SparesOver (C : DbWrite → Bool) : Prop :=
  ∀ id t t', C (.put .ticket id (some t) t') = true → t.status.active = true

/-- **One statement**, which writes over a ticket that is over only where the request looks at its
status. -/
theorem Effect.absorbing (h : Effect C r a b) (hC : r.overwrites = true → SparesOver C) :
    Absorbing a b := by
  intro id t ht hover
  cases h with
  | aside h => exact ⟨t, (h.untouched id).trans ht, .refl t⟩
  | @moved id' u u' h hm _ =>
    rcases h.row ht with ⟨rfl, ho, hb⟩ | hb
    · cases ho
      exact ⟨u', hb, hm.sameOutcome hover⟩
    · exact ⟨t, hb, .refl t⟩
  | @overwritten hr id' u u' h _ =>
    rcases h.row ht with ⟨rfl, ho, -⟩ | hb
    · cases ho
      rw [hC hr _ _ _ h.1] at hover
      cases hover
    · exact ⟨t, hb, .refl t⟩
  | issued _ h _ =>
    rcases h.row ht with ⟨-, ho, -⟩ | hb
    · cases ho
    · exact ⟨t, hb, .refl t⟩
  | queue _ h => exact ⟨t, (h.2.get_ne (by simp)).trans ht, .refl t⟩

end

/-! ## Runs -/

def overOver : DbWrite → Bool
  | .put .ticket _ (some t) _ => !t.status.active
  | _ => false

/-- The check for request `i`: if it writes by the identifier, the ticket is not over. -/
def sparing (requests : List Request) (i : ℕ) (w : DbWrite) : Bool :=
  !(requests[i]?.any Request.overwrites && overOver w)

theorem sparesOver_sparing {i : ℕ} {r : Request} (hr : requests[i]? = some r)
    (ho : r.overwrites = true) :
    SparesOver (sparing requests i) := by
  intro id t t' h
  simpa [sparing, hr, ho, overOver] using h

variable {requests : List Request} {s : Db} {c : Run}

/-- The statements of transfers and sweeps do not come upon tickets that are over. -/
def Sparing (requests : List Request) (c : Run) (i : ℕ) : Prop := c.Meets (sparing requests) i

theorem commit_absorbing (h : Reach (Sparing requests) (start s requests) c) {i : ℕ}
    (hc : Commit c.trace i a b) : Absorbing a b := by
  have hcalm : ∀ i d, (calls requests)[i]? = some d →
      Calm (sparing requests i) Err.recordNotFound (.steps Absorbing) (fun _ _ => True) Answer d := by
    intro i d hd
    obtain ⟨r, hr, rfl⟩ := getElem?_calls hd
    refine mild_run r _ _ _ fun a b hab => ⟨ReflTransGen.mono (fun a b he => ?_) _ _ hab, trivial⟩
    exact he.absorbing (sparesOver_sparing hr)
  exact absorbing_steps (fun _ _ hs => hs)
    (reach_calm hcalm (fun _ _ => trivial) (fun _ _ hp => hp) h hc).1

/-- **Terminal statuses are absorbing** in every run in which no transfer and no sweep writes over a
ticket that is over. -/
theorem reach_outcomes (h : Reach (Sparing requests) (start s requests) c) :
    (∀ i a b, Commit c.trace i a b → Absorbing a b) ∧ Absorbing s c.db :=
  ⟨fun _ _ _ hc => commit_absorbing h hc,
    (reach_linear h).carry (fun _ _ _ hc ha => ha.trans (commit_absorbing h hc)) (.refl s)⟩

/-! ## A ticket that is completed and then transferred -/

/-- The commit changes the status of a ticket that is over. -/
def reopens (id : Id) (a b : Db) : Bool :=
  (a.get .ticket id).any fun t => !t.status.active && (b.get .ticket id).any (·.status != t.status)

theorem not_absorbing_of_reopens {id : Id} (h : reopens id a b = true) :
    ¬ Absorbing a b := by
  intro habs
  obtain ⟨t, ht, hr⟩ := (Option.any_eq_true _ _).mp h
  simp only [Bool.and_eq_true, Bool.not_eq_true'] at hr
  obtain ⟨t', ht', hs⟩ := habs id t ht hr.1
  rw [ht'] at hr
  simp [hs.status] at hr

def completeThenTransfer : List Request :=
  [.complete 1 1 none .classic, .transfer 1 1 (some 2) none none .classic]

/-- **A completed ticket waits again** after a transfer. -/
theorem transfer_reopens : ∃ c, Reach Always
    (start (shop false [] [(1, beingServed)]) completeThenTransfer) c ∧
      answeredOk 0 c = true ∧ (c.db.get .ticket 1).map (·.status) = some .waiting ∧
      ∃ i a b, Commit c.trace i a b ∧ ¬ Absorbing a b := by
  obtain ⟨c, hc, hp⟩ := exists_reach_anywhere
    (start (shop false [] [(1, beingServed)]) completeThenTransfer) (turns 0 27 ++ turns 1 26)
    (fun c => answeredOk 0 c && anyCommit (reopens 1) c.trace &&
      decide ((c.db.get .ticket 1).map (·.status) = some .waiting)) (by decide +kernel)
  simp only [Bool.and_eq_true, decide_eq_true_eq] at hp
  obtain ⟨i, a, b, hab, hr⟩ := exists_commit hp.1.2
  exact ⟨c, hc, hp.1.1, hp.2, i, a, b, hab, not_absorbing_of_reopens hr⟩

def transferOne : List Request := [.transfer 1 1 (some 2) none none .classic]

def twoTickets : Db :=
  shop false [] [(1, beingServed), (2, { beingServed with status := .completed })]

theorem reach_outcomes_transfer : ∃ c, Reach (Sparing transferOne) (start twoTickets transferOne) c ∧
    (c.db.get .ticket 1).map (·.status) = some .waiting ∧
      (∀ i a b, Commit c.trace i a b → Absorbing a b) ∧ Absorbing twoTickets c.db := by
  obtain ⟨c, hc, hp⟩ := exists_reach (o := Config.meets (sparing transferOne))
    (P := Sparing transferOne) (fun _ _ h => Config.meets_of h) (start twoTickets transferOne)
    (turns 0 26) (fun c => decide ((c.db.get .ticket 1).map (·.status) = some .waiting))
    (by decide +kernel)
  exact ⟨c, hc, of_decide_eq_true hp, reach_outcomes hc⟩

end PatronLoyalty.Ticketing
