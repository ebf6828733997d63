import PatronLoyalty.Ticketing.Effects

/-!
# Follow-up tickets

`complete` and `transfer` issue the ticket for the next step of a visit. `complete` holds the lock of
the ticket it comes from, and finds out under it whether the ticket is completed already; `transfer`
completes the ticket by its identifier.

Headline: **`reach_followUps`**. As long as no transfer completes a ticket that is over, one follow-up
at most is issued from a ticket, which stays completed; and a visit never has two active tickets, if it
has not from the start.
-/

namespace PatronLoyalty.Ticketing

open Txn Relation
open Txn.Rel (Wrote)
open Loyalty (Id Err)

/-! ## What lasts -/

/-- Every ticket lasts, and the outcome of a ticket of a visit stays. -/
def Steady (a b : Db) : Prop :=
  ∀ id t, a.get .ticket id = some t → ∃ t', b.get .ticket id = some t' ∧ SamePatron t t' ∧
    (t.visitId.isSome = true → t.status.active = false → t'.status = t.status)

theorem Steady.refl (a : Db) : Steady a a := fun _ t ht => ⟨t, ht, .refl t, fun _ _ => rfl⟩

theorem Steady.trans {a b c : Db} (h : Steady a b) (h' : Steady b c) : Steady a c := by
  intro id t ht
  obtain ⟨t', ht', hs, ho⟩ := h id t ht
  obtain ⟨t'', ht'', hs', ho'⟩ := h' id t' ht'
  refine ⟨t'', ht'', hs.trans hs', fun hv hover => ?_⟩
  rw [ho' (hs.visitId ▸ hv) (by rw [ho hv hover]; exact hover), ho hv hover]

def steady : Guarantee Db := ⟨Steady, Steady.refl, Steady.trans⟩

theorem steady_steps {E : Db → Db → Prop} (hE : ∀ a b, E a b → Steady a b) {a b : Db}
    (h : ReflTransGen E a b) : Steady a b := by
  induction h with
  | refl => exact .refl a
  | tail _ hs ih => exact ih.trans (hE _ _ hs)

/-- The ticket `id` is there, as `t` but for what requests change. -/
def Has (id : Id) (t : Ticket) (s : Db) : Prop :=
  ∃ t', s.get .ticket id = some t' ∧ SamePatron t t'

theorem keeps_has (id : Id) (t : Ticket) : steady.Keeps (Has id t) := by
  rintro a b hab ⟨t', ht', hs⟩
  obtain ⟨t'', ht'', hs', -⟩ := hab id t' ht'
  exact ⟨t'', ht'', hs.trans hs'⟩

/-! ## One statement -/

section

variable {C : DbWrite → Bool} {r : Request} {a b : Db}

/-- `C` lets nobody write over a ticket of a visit that is over. -/
def SparesVisits (C : DbWrite → Bool) : Prop :=
  ∀ id t t', C (.put .ticket id (some t) t') = true → t.visitId.isSome = true →
    t.status.active = true

theorem Moved.outcome {t t' : Ticket} (h : Moved t t') (hover : t.status.active = false) :
    t'.status = t.status := by
  cases h with
  | called _ _ _ _ h => simp [h, TicketStatus.active] at hover
  | transitioned _ _ _ h _ => rcases h with h | h <;> simp [h, TicketStatus.active] at hover
  | cancelled _ _ h => rcases h with h | h <;> simp [h, TicketStatus.active] at hover
  | beside h => rw [h]

theorem Effect.steady (h : Effect C r a b) (hC : r.overwrites = true → SparesVisits C) :
    Steady a b := by
  intro id t ht
  cases h with
  | aside h => exact ⟨t, (h.untouched id).trans ht, .refl t, fun _ _ => rfl⟩
  | @moved id' u u' h hm _ =>
    rcases h.row ht with ⟨rfl, ho, hb⟩ | hb
    · cases ho
      exact ⟨u', hb, hm.samePatron, fun _ hover => hm.outcome hover⟩
    · exact ⟨t, hb, .refl t, fun _ _ => rfl⟩
  | @overwritten hr id' u u' h ho =>
    rcases h.row ht with ⟨rfl, hu, hb⟩ | hb
    · cases hu
      refine ⟨u', hb, ho.samePatron, fun hv hover => ?_⟩
      rw [hC hr _ _ _ h.1 hv] at hover
      cases hover
    · exact ⟨t, hb, .refl t, fun _ _ => rfl⟩
  | issued _ h _ =>
    rcases h.row ht with ⟨-, ho, -⟩ | hb
    · cases ho
    · exact ⟨t, hb, .refl t, fun _ _ => rfl⟩
  | queue _ h => exact ⟨t, (h.2.get_ne (by simp)).trans ht, .refl t, fun _ _ => rfl⟩

end

/-! ## One advance -/

/-- The ticket `src` of a visit, which is active, is completed, and the ticket `id` is issued for the
same visit. -/
structure GoesOn (src id : Id) (t t' n : Ticket) (a b : Db) : Prop where
  source : a.get .ticket src = some t
  ofVisit : t.visitId.isSome = true
  active : t.status.active = true
  completed : b.get .ticket src = some t'
  status : t'.status = .completed
  new : a.get .ticket id = none
  issued : b.get .ticket id = some n
  sameVisit : n.visitId = t.visitId
  others : ∀ id', id' ≠ src → id' ≠ id → b.get .ticket id' = a.get .ticket id'

/-- What an advance of the ticket `src` may do. -/
def Advances (src : Id) (a b : Db) : Prop :=
  NoneIssued a b ∨ ∃ id t t' n, GoesOn src id t t' n a b

section

variable {C : DbWrite → Bool} {e : Err} {orgId src : Id} {a b c : Db} {t : Ticket}
  {ref : Option String} {G : Guarantee Db}

theorem goesOn_of_wrote {t' n : Ticket} {id : Id} (ht : a.get .ticket src = some t)
    (hv : t.visitId.isSome = true) (hact : t.status.active = true)
    (hw : b.get .ticket src = some t') (hs : t'.status = .completed)
    (ho : ∀ id', id' ≠ src → b.get .ticket id' = a.get .ticket id')
    (hn : Wrote C .ticket id none n b c) (hvn : n.visitId = t.visitId) :
    GoesOn src id t t' n a c := by
  have hne : id ≠ src := by
    rintro rfl
    rw [hn.2.get_old] at hw
    cases hw
  exact
    { source := ht, ofVisit := hv, active := hact
      completed := (hn.2.get_ne (by simpa using hne.symm)).trans hw
      status := hs
      new := (ho id hne).symm.trans hn.2.get_old
      issued := hn.2.get_self
      sameVisit := hvn
      others := fun id' h h' => (hn.2.get_ne (by simpa using h')).trans (ho id' h) }

theorem triple_transferTx (hC : SparesVisits C) {targetQueueId : Option Id} {desk : Option String}
    {surface : ActionSurface} :
    Triple C e steady Eq (transferTx orgId src targetQueueId desk ref surface) fun _ a b =>
      Advances src a b := by
  refine .bind confined_assertActionSurfaceForTicket.still fun _ =>
    .bind (.readFirst (F := fun o s => ∀ t, o = some t → Has src t s) (fun o x y hxy h t ht =>
      keeps_has src t x y hxy (h t ht)) fun s t ht => ?_) fun o =>
    .bind (triple_orThrow (Q := fun t a b => Has src t a ∧ TicketsUntouched a b)
      fun t a b ho h => ⟨h.1 t ho, h.2 ▸ .refl a⟩) fun t => ?_
  · exact ⟨t, (Option.filter_eq_some_iff.mp ht).1, .refl t⟩
  · have hP : Indifferent C fun a b => Has src t a ∧ TicketsUntouched a b :=
      fun a b c hbc h => ⟨h.1, h.2.trans hbc.untouched⟩
    refine .bind (confined_assertClassicDesk _ _).still fun _ =>
      .bind confined_assertStaffQueueActionAllowed.still fun _ =>
      .bind (hP.triple confined_planTransfer) fun plan => .bind confined_now.still fun now => ?_
    split
    · rename_i hv
      refine .bind (triple_update (Q := fun t' a b => ∃ u, a.get .ticket src = some u ∧
        u.visitId = t.visitId ∧ u.status.active = true ∧ b.get .ticket src = some t' ∧
        t'.status = .completed ∧ ∀ id', id' ≠ src → b.get .ticket id' = a.get .ticket id')
        fun u a b c hp _ hw => ?_) fun t' => .bind (triple_create
          (Q := fun _ => Advances src) fun id a b c hp hw => ?_) fun id => .pure fun a c h => h
      · obtain ⟨⟨u', hu', hs⟩, hunt⟩ := hp
        have hu : a.get .ticket src = some u := (hunt src).symm.trans hw.2.get_old
        rw [hu'] at hu
        cases hu
        exact ⟨u, hu', hs.visitId, hC _ _ _ hw.1 (hs.visitId ▸ hv), hw.2.get_self, rfl,
          fun id' hne => (hw.2.get_ne (by simpa using hne)).trans (hunt id')⟩
      · obtain ⟨u, hu, hvu, hact, hb, hst, ho⟩ := hp
        exact Or.inr ⟨id, u, t', _, goesOn_of_wrote hu (hvu ▸ hv) hact hb hst ho hw hvu.symm⟩
    · exact .bind (triple_update (Q := fun _ => Advances src) fun u a b c hp _ hw =>
        Or.inl fun id hn => noneIssued_of_wrote hw id (hp.2.noneIssued id hn)) fun t' =>
        .pure fun a c h => h

theorem triple_resolveNextJourneyStepTx {P : Db → Db → Prop} (hP : Indifferent C P)
    {ticket : JourneyTicketContext} :
    Triple C e G P (resolveNextJourneyStepTx orgId ticket) fun r a b =>
      (r.nextStep.isSome = true → ticket.visitId.isSome = true) ∧ P a b := by
  cases hv : ticket.visitId with
  | some v =>
    exact (hP.triple confined_resolveNextJourneyStepIn).post fun _ _ _ hp => ⟨fun _ => rfl, hp⟩
  | none =>
    unfold resolveNextJourneyStepTx resolveNextJourneyStepIn resolveStep
    rw [hv]
    exact .pure fun a b hp => ⟨fun h => h, hp⟩

/-- The follow-up of an advance, if there is one, is a ticket of the visit of `jc`. -/
theorem triple_issueNextIfAny {P : Db → Db → Prop} (hP : Indifferent C P) {jc : JourneyContext}
    {status : TicketStatus} {next : Option JourneyNextStep} :
    Triple C e G P (issueNextIfAny orgId jc status next ref) fun r a c =>
      r = none ∧ P a c ∨ ∃ id n, next.isSome = true ∧ r = some (id, n) ∧
        (∀ v, jc.ticket.visitId = some v → n.visitId = some v) ∧
        ∃ b, P a b ∧ Wrote C .ticket id none n b c := by
  cases next with
  | none => exact .pure fun a b hp => Or.inl ⟨rfl, hp⟩
  | some next =>
    refine .bind (Q := fun r a c => (∀ v, jc.ticket.visitId = some v → r.2.visitId = some v) ∧
        ∃ b, P a b ∧ Wrote C .ticket r.1 none r.2 b c)
      (.bind (hP.triple confined_resolveQueueForFlowStep) fun queue =>
        .bind (confined_orThrow _ _).still fun queue => .bind (confined_throwIf _ _).still fun _ =>
        .bind (confined_throwIf _ _).still fun _ =>
        ((triple_issueTicketCore hP).mapError).post fun r a c h => ?_)
      fun r => .pure fun a c h => Or.inr ⟨r.1, r.2, rfl, rfl, h⟩
    obtain ⟨⟨q, v, num, cust, i, x, now, hn, hv, -⟩, hw⟩ := h
    exact ⟨fun u hu => by rw [hn]; exact hv u hu, hw⟩

/-- The locked transaction of `complete`. -/
theorem triple_finalizeTx {jc : JourneyContext} :
    Triple C e G Eq (finalizeTx orgId src .completed ref jc) fun _ a b =>
      Has src jc.ticket a → Advances src a b := by
  refine triple_lockTicket fun t => ?_
  split
  · exact .bind confined_findActiveJourneyFollowUpTicket.still fun _ => .pure fun a b hl _ =>
      Or.inl hl.untouched.2.noneIssued
  · have hP : Indifferent C fun a b => a.get .ticket src = some t ∧ TicketsUntouched a b :=
      fun a b c hbc h => ⟨h.1, h.2.trans hbc.untouched⟩
    refine .pre ?_ fun a b hl => hl.untouched
    refine .bind (triple_resolveNextJourneyStepTx hP) fun next => .fact fun hv =>
      .bind (confined_throwIf _ _).still fun _ => .bind (hP.triple confined_resolveJourneyRef)
      fun ref' => .bind (triple_issueNextIfAny hP) fun issued => .bind confined_now.still fun now =>
      .bind triple_transitionTicketCore fun t' => .pure fun a c h hhas => ?_
    obtain ⟨u, now', hu, rfl, d, ⟨d', hp, -, hl⟩, hw⟩ := h
    have hact : u.status.active = true := by
      rcases List.mem_pair.mp hu with h | h <;> rw [h] <;> rfl
    rcases hp with ⟨-, -, hunt⟩ | ⟨id, n, hnext, -, hvn, m, ⟨ht, hunt⟩, hn⟩
    · exact Or.inl fun id' h => noneIssued_of_wrote hw id' (noneIssued_of_wrote hl id'
        (hunt.noneIssued id' h))
    · have hne : src ≠ id := by
        rintro rfl
        have hm := (hunt src).trans ht
        rw [hn.2.get_old] at hm
        cases hm
      have hsrc : ∀ {x : Id} {y z : Db} {p p' : Ticket}, Wrote C .ticket src (some p) p' y z →
          x ≠ src → z.get .ticket x = y.get .ticket x :=
        fun hyz hx => hyz.2.get_ne (by simpa using hx)
      have hu' : u = t := by
        have hm : d'.get .ticket src = some t :=
          (hn.2.get_ne (by simpa using hne)).trans ((hunt src).trans ht)
        rw [hl.2.get_old] at hm
        exact Option.some.inj hm
      subst hu'
      obtain ⟨t', ht', hs⟩ := hhas
      rw [ht] at ht'
      cases ht'
      obtain ⟨v, hvis⟩ := Option.isSome_iff_exists.mp (hv hnext)
      have hvis' : u.visitId = some v := hvis
      refine Or.inr ⟨id, u, _, n, ⟨ht, by rw [hvis']; rfl, hact, hw.2.get_self,
        transitioned_status _ _ _ _ _, (hunt id).symm.trans hn.2.get_old, ?_, ?_,
        fun x hx hx' => ?_⟩⟩
      · exact (hsrc hw hne.symm).trans ((hsrc hl hne.symm).trans hn.2.get_self)
      · rw [hvis', hvn v (hs.visitId.symm.trans hvis')]
      · exact (hsrc hw hx).trans ((hsrc hl hx).trans
          ((hn.2.get_ne (by simpa using hx')).trans (hunt x)))

end

/-! ## One request -/

/-- The ticket a request takes to the next step. -/
def Request.source : Request → Option Id
  | .complete _ ticketId _ _ => some ticketId
  | .transfer _ ticketId _ _ _ _ => some ticketId
  | _ => none

/-- What a commit of the request does about follow-ups. -/
def Allowed (r : Request) (a b : Db) : Prop :=
  (∀ src, r.source = some src → Advances src a b) ∧ (r.issues = false → NoneIssued a b)

theorem Allowed.refl (r : Request) (a : Db) : Allowed r a a :=
  ⟨fun _ _ => Or.inl (.refl a), fun _ => .refl a⟩

section

variable {C : DbWrite → Bool} {e : Err} {r : Request}

theorem steady_effects (hC : r.overwrites = true → SparesVisits C) {a b : Db}
    (h : ReflTransGen (Effect C r) a b) : Steady a b :=
  steady_steps (fun _ _ he => he.steady hC) h

theorem calm_of_source_none {β : Type} {c : TCall β} (hr : r.source = none)
    (hC : r.overwrites = true → SparesVisits C) (h : Mild C e r c) :
    Calm C e steady (Allowed r) Answer c := by
  refine h _ _ _ fun a b hab => ⟨steady_effects hC hab, fun src hsrc => ?_, fun hi => ?_⟩
  · rw [hr] at hsrc
    cases hsrc
  · exact noneIssued_steps (fun a b he => he.noneIssued hi) hab

/-- A part of a request that any other request could have. -/
theorem calm_of_plain {β : Type} {c : TCall β} (h : ∀ r, Mute C e r c) :
    Calm C e steady (Allowed r) Answer c := by
  refine (h (.refreshVisit 0 0)).1 _ _ _ fun a b hab => ?_
  have hn : NoneIssued a b := noneIssued_steps (fun a b he => he.noneIssued rfl) hab
  exact ⟨steady_effects (fun h => by cases h) hab, fun _ _ => Or.inl hn, fun _ => hn⟩

/-- The ticket `complete` has read is there, as it was but for what requests change. -/
theorem triple_findJourneyContext {orgId src : Id} :
    Triple C e steady Eq (findJourneyContext orgId src) fun jc a b => Has src jc.ticket a ∧ a = b := by
  refine .bind (.readFirst (F := fun o s => ∀ t, o = some t → Has src t s) (fun o x y hxy h t ht =>
      keeps_has src t x y hxy (h t ht)) fun s t ht => ?_) fun o =>
    .bind (triple_orThrow (Q := fun t a b => Has src t a ∧ a = b) fun t a b ho h => ⟨h.1 t ho, h.2⟩)
    fun t => .bind confined_findById.still fun q => .pure fun a b h => h
  exact ⟨t, (Option.filter_eq_some_iff.mp ht).1, .refl t⟩

/-- The advance of `complete`, from what it has read to the commit. -/
theorem calm_finalize {orgId src : Id} {ref : Option String} {surface : ActionSurface} :
    Calm C e steady (Allowed (.complete orgId src ref surface)) Answer
      (finalizeTicketWithJourneyAdvance orgId src .completed ref) := by
  refine CalmFrom.readBind triple_findJourneyContext fun jc =>
    .after (keeps_has src jc.ticket) (calm_of_plain fun _ => mute_preCheck) fun _ =>
    .bind (CalmFrom.tx (keeps_has src jc.ticket)
      ((confined_finalizeTx (r := .complete orgId src ref surface) rfl (by decide)).mapError.beside
        triple_finalizeTx.mapError) fun _ a b hhas h => ⟨?_, fun src' h' => ?_, fun hi => ?_⟩)
    fun _ => calm_of_plain fun _ => .bind (mute_emitTransitionSideEffects _) fun _ => .pure _
  · exact steady_effects (fun ho => by cases ho) h.1
  · cases h'
    exact h.2 hhas
  · cases hi

/-- **One request** leaves the outcomes alone, and does about follow-ups what is allowed. -/
theorem calm_run (r : Request) (hC : r.overwrites = true → SparesVisits C) :
    Calm C e steady (Allowed r) Answer r.run := by
  cases r with
  | complete o src x s =>
    exact Calm.bind (Calm.bind (calm_of_plain fun _ => .tx fun _ =>
      confined_assertActionSurfaceForTicket) fun _ => Calm.bind (calm_of_plain fun _ => .tx fun _ =>
      .bind confined_assertDeskOfTicket fun _ => .bind (confined_orThrow _ _) fun _ => .pure _)
      fun _ => calm_finalize) fun _ => Calm.pure _
  | transfer o src q d x s =>
    refine Calm.bind (Calm.tx ((confined_transferTx rfl rfl).beside (triple_transferTx (hC rfl)))
      fun _ a b h => ⟨steady_effects hC h.1, fun src' h' => ?_, fun hi => by cases hi⟩) fun _ =>
      Calm.pure _
    cases h'
    exact h.2
  | _ => exact calm_of_source_none rfl hC (mild_run _)

end

/-! ## Runs -/

def overVisit : DbWrite → Bool
  | .put .ticket _ (some t) _ => t.visitId.isSome && !t.status.active
  | _ => false

/-- The check for request `i`: if it writes by the identifier, the ticket is not such a one. -/
def sparingVisits (requests : List Request) (i : ℕ) (w : DbWrite) : Bool :=
  !(requests[i]?.any Request.overwrites && overVisit w)

theorem sparesVisits_sparing {requests : List Request} {i : ℕ} {r : Request}
    (hr : requests[i]? = some r) (ho : r.overwrites = true) :
    SparesVisits (sparingVisits requests i) := by
  intro id t t' h hv
  simpa [sparingVisits, hr, ho, overVisit, hv] using h

/-- The statements of transfers and sweeps do not come upon tickets of visits that are over. -/
def SparingVisits (requests : List Request) (c : Run) (i : ℕ) : Prop :=
  c.Meets (sparingVisits requests) i

section

variable {requests : List Request} {s : Db} {c : Run} {i p q : ℕ} {src id id' v : Id} {a b : Db}

theorem commit_allowed (h : Reach (SparingVisits requests) (start s requests) c)
    (hc : Commit c.trace i a b) :
    Steady a b ∧ ∀ r, requests[i]? = some r → Allowed r a b := by
  have hcalm : ∀ j d, (calls requests)[j]? = some d → Calm (sparingVisits requests j)
      Err.recordNotFound steady (fun a b => ∀ r, requests[j]? = some r → Allowed r a b) Answer d := by
    intro j d hd hU
    obtain ⟨r, hr, rfl⟩ := getElem?_calls hd
    have hrun := calm_run (e := .recordNotFound) r (sparesVisits_sparing hr) (Allowed.refl r)
    have heq : (fun a b => ∀ r', requests[j]? = some r' → Allowed r' a b) = Allowed r := by
      funext a b
      simp [hr]
    rw [heq]
    exact hrun
  exact reach_calm hcalm (fun _ a r _ => .refl r a) (fun _ _ hp => hp) h hc

/-- The commit at position `p` of the history is a request's that takes the ticket `src` to the next
step, and issues the ticket `id`. -/
def FollowUpAt (requests : List Request) (c : Run) (p : ℕ) (src id : Id) : Prop :=
  ∃ i a b, c.trace[p]? = some (i, .commit a b) ∧ requests[i]?.bind Request.source = some src ∧
    a.get .ticket id = none ∧ b.get .ticket id ≠ none

theorem FollowUpAt.goesOn (h : Reach (SparingVisits requests) (start s requests) c)
    (hp : FollowUpAt requests c p src id) :
    ∃ i t t' n a b, c.trace[p]? = some (i, .commit a b) ∧ GoesOn src id t t' n a b := by
  obtain ⟨i, a, b, hab, hsrc, hnew, hissued⟩ := hp
  obtain ⟨r, hr, hrs⟩ := Option.bind_eq_some_iff.mp hsrc
  rcases ((commit_allowed h (List.mem_of_getElem? hab)).2 r hr).1 src hrs with
    hn | ⟨id', t, t', n, hgo⟩
  · exact absurd (hn id hnew) hissued
  · by_cases hs : id = src
    · rw [hs, hgo.source] at hnew
      cases hnew
    · by_cases hid : id = id'
      · exact ⟨i, t, t', n, a, b, hab, hid ▸ hgo⟩
      · exact absurd ((hgo.others id hs hid).trans hnew) hissued

/-- The ticket is one of a visit, and completed. -/
def Finished (id : Id) (s : Db) : Prop :=
  ∃ t, s.get .ticket id = some t ∧ t.visitId.isSome = true ∧ t.status = .completed

theorem keeps_finished (id : Id) : steady.Keeps (Finished id) := by
  rintro a b hab ⟨t, ht, hv, hs⟩
  obtain ⟨t', ht', hp, ho⟩ := hab id t ht
  exact ⟨t', ht', hp.visitId ▸ hv, (ho hv (by rw [hs]; rfl)).trans hs⟩

theorem GoesOn.finished {t t' n : Ticket} (h : GoesOn src id t t' n a b) (hs : Steady a b) :
    ¬ Finished src a ∧ Finished src b := by
  constructor
  · rintro ⟨u, hu, -, hst⟩
    have hact := h.active
    rw [h.source] at hu
    cases hu
    rw [hst] at hact
    cases hact
  · obtain ⟨u, hu, hp, -⟩ := hs src t h.source
    have hst := h.status
    rw [h.completed] at hu
    cases hu
    exact ⟨t', h.completed, hp.visitId ▸ h.ofVisit, hst⟩

/-! ## Active tickets of a visit -/

/-- The ticket `id` of the visit is active. -/
def ActiveIn (v id : Id) (s : Db) : Prop :=
  ∃ t, s.get .ticket id = some t ∧ t.visitId = some v ∧ t.status.active = true

def OneActive (v : Id) (s : Db) : Prop := ∀ id id', ActiveIn v id s → ActiveIn v id' s → id = id'

theorem ActiveIn.before (h : ActiveIn v id b) (hs : Steady a b) (ha : a.get .ticket id ≠ none) :
    ActiveIn v id a := by
  obtain ⟨t, ht, hv, hact⟩ := h
  obtain ⟨u, hu⟩ := Option.ne_none_iff_exists'.mp ha
  obtain ⟨t', ht', hp, ho⟩ := hs id u hu
  rw [ht] at ht'
  cases ht'
  have hvu : u.visitId = some v := hp.visitId.symm.trans hv
  refine ⟨u, hu, hvu, ?_⟩
  by_contra hover
  rw [Bool.not_eq_true] at hover
  rw [ho (by rw [hvu]; rfl) hover, hover] at hact
  cases hact

theorem NoneIssued.oneActive (hn : NoneIssued a b) (hs : Steady a b) (h : OneActive v a) :
    OneActive v b := by
  have hbefore : ∀ x, ActiveIn v x b → ActiveIn v x a := by
    intro x hx
    refine hx.before hs fun hnone => ?_
    obtain ⟨t, ht, -⟩ := hx
    rw [hn x hnone] at ht
    cases ht
  exact fun x y hx hy => h x y (hbefore x hx) (hbefore y hy)

theorem GoesOn.oneActive {t t' n : Ticket} (hgo : GoesOn src id t t' n a b) (hs : Steady a b)
    (h : OneActive v a) : OneActive v b := by
  have hover : ¬ ActiveIn v src b := by
    rintro ⟨u, hu, -, hact⟩
    rw [hgo.completed] at hu
    cases hu
    rw [hgo.status] at hact
    cases hact
  have hbefore : ∀ x, ActiveIn v x b → x ≠ id → ActiveIn v x a := by
    intro x hx hne
    refine hx.before hs fun hnone => ?_
    have hsrc : x ≠ src := by
      rintro rfl
      exact hover hx
    obtain ⟨u, hu, -⟩ := hx
    rw [hgo.others x hsrc hne, hnone] at hu
    cases hu
  have hnew : ActiveIn v id b → ActiveIn v src a := by
    rintro ⟨u, hu, hv, -⟩
    rw [hgo.issued] at hu
    cases hu
    exact ⟨t, hgo.source, hgo.sameVisit.symm.trans hv, hgo.active⟩
  have hother : ∀ x, ActiveIn v x b → x ≠ id → ¬ ActiveIn v id b := by
    intro x hx hne hid
    have hxs := h x src (hbefore x hx hne) (hnew hid)
    exact hover (hxs ▸ hx)
  intro x y hx hy
  by_cases hxid : x = id
  · by_cases hyid : y = id
    · exact hxid.trans hyid.symm
    · exact absurd (hxid ▸ hx) (hother y hy hyid)
  · by_cases hyid : y = id
    · exact absurd (hyid ▸ hy) (hother x hx hxid)
    · exact h x y (hbefore x hx hxid) (hbefore y hy hyid)

/-- The requests that end a ticket or take it to the next step. -/
def Request.advances : Request → Bool
  | .complete .. | .transfer .. | .noShow .. | .cancel .. => true
  | _ => false

theorem Allowed.oneActive {r : Request} (hr : r.advances = true) (hal : Allowed r a b)
    (hs : Steady a b) (h : OneActive v a) : OneActive v b := by
  have hcases : (∃ src, r.source = some src) ∨ r.issues = false := by
    cases r <;> simp [Request.source, Request.issues] <;> cases hr
  rcases hcases with ⟨src, hsrc⟩ | hi
  · rcases hal.1 src hsrc with hn | ⟨id, t, t', n, hgo⟩
    · exact hn.oneActive hs h
    · exact hgo.oneActive hs h
  · exact (hal.2 hi).oneActive hs h

/-! ## The headline -/

/-- **What an advance promises.** -/
structure OneFollowUp (requests : List Request) (s : Db) (c : Run) : Prop where
  once {src id id' : Id} {p q : ℕ} (hp : FollowUpAt requests c p src id)
    (hq : FollowUpAt requests c q src id') : p = q ∧ id = id'
  completed {src id : Id} {p : ℕ} (hp : FollowUpAt requests c p src id) : Finished src c.db
  /-- No visit comes to have two active tickets. -/
  single (hall : ∀ r ∈ requests, r.advances = true) {v : Id} (hs : OneActive v s) :
    OneActive v c.db

/-- **One follow-up per ticket**, in every run in which no transfer and no sweep writes over a ticket
of a visit that is over. -/
theorem reach_followUps (h : Reach (SparingVisits requests) (start s requests) c) :
    OneFollowUp requests s c where
  once {src id id' p q} hp hq := by
    have hkeep : ∀ (i : ℕ) a b, Commit c.trace i a b → Finished src a → Finished src b :=
      fun i a b hc => keeps_finished src a b (commit_allowed h hc).1
    obtain ⟨i, t, t', n, a, b, hab, hgo⟩ := hp.goesOn h
    obtain ⟨j, u, u', m, a', b', hab', hgo'⟩ := hq.goesOn h
    have hf := hgo.finished (commit_allowed h (List.mem_of_getElem? hab)).1
    have hf' := hgo'.finished (commit_allowed h (List.mem_of_getElem? hab')).1
    have hpq := (reach_linear h).once hkeep hab hab' hf.2 hf.1 hf'.2 hf'.1
    subst hpq
    rw [hab] at hab'
    cases hab'
    refine ⟨rfl, ?_⟩
    by_contra hne
    have hsrc : id' ≠ src := by
      rintro rfl
      have hnone := hgo'.new
      rw [hgo'.source] at hnone
      cases hnone
    have hsame := hgo.others id' hsrc (Ne.symm hne)
    rw [hgo'.issued, hgo'.new] at hsame
    cases hsame
  completed {src id p} hp := by
    obtain ⟨i, t, t', n, a, b, hab, hgo⟩ := hp.goesOn h
    exact ((reach_linear h).after hab).carry (fun j x y hc => keeps_finished src x y
      (commit_allowed h (List.mem_of_mem_drop hc)).1)
      (hgo.finished (commit_allowed h (List.mem_of_getElem? hab)).1).2
  single hall {v} hs := by
    refine (reach_linear h).carry (fun j a b hc ho => ?_) hs
    obtain ⟨hst, hal⟩ := commit_allowed h hc
    have hlt : j < requests.length := by
      simpa [calls] using reach_owned h hc
    exact (hal _ (List.getElem?_eq_getElem hlt)).oneActive (hall _ (List.getElem_mem hlt)) hst ho

end

/-! ## A ticket that is completed and then transferred -/

def isFollowUp (requests : List Request) (src id : Id) : Line → Bool
  | (i, .commit a b) => requests[i]?.bind Request.source == some src &&
      (a.get .ticket id).isNone && (b.get .ticket id).isSome
  | _ => false

theorem exists_followUpAt {requests : List Request} {c : Run} {src id : Id}
    (h : c.trace.any (isFollowUp requests src id) = true) :
    ∃ p, FollowUpAt requests c p src id := by
  obtain ⟨⟨i, e⟩, he, hf⟩ := List.any_eq_true.mp h
  obtain ⟨p, hp⟩ := List.getElem?_of_mem he
  cases e with
  | commit a b =>
    simp only [isFollowUp, Bool.and_eq_true, beq_iff_eq, Option.isNone_iff_eq_none] at hf
    exact ⟨p, i, a, b, hp, hf.1.1, hf.1.2, Option.isSome_iff_ne_none.mp hf.2⟩
  | _ => cases hf

def completeThenAdvance : List Request :=
  [.complete 1 1 none .classic, .transfer 1 1 none none none .classic]

/-- The first request issues the ticket 2. -/
def completesFirst : List (ℕ × Move Err) := turns 0 71 ++ [(0, .go 2)] ++ turns 0 14

/-- **Two follow-ups** of one ticket, both active, at the same step. -/
theorem transfer_issues_again : ∃ c, Reach Always (start journeyShop completeThenAdvance) c ∧
    (c.db.get .ticket 2).map (fun t => (t.stepIndex, t.status)) = some (some 1, .waiting) ∧
    (c.db.get .ticket 3).map (fun t => (t.stepIndex, t.status)) = some (some 1, .waiting) ∧
    ¬ OneFollowUp completeThenAdvance journeyShop c := by
  obtain ⟨c, hc, hp⟩ := exists_reach_anywhere
    (start journeyShop completeThenAdvance)
    (completesFirst ++ turns 1 24 ++ [(1, .go 3)] ++ turns 1 3)
    (fun c => c.trace.any (isFollowUp completeThenAdvance 1 2) &&
      c.trace.any (isFollowUp completeThenAdvance 1 3) && decide
      ((c.db.get .ticket 2).map (fun t => (t.stepIndex, t.status)) = some (some 1, .waiting) ∧
        (c.db.get .ticket 3).map (fun t => (t.stepIndex, t.status)) = some (some 1, .waiting)))
    (by decide +kernel)
  simp only [Bool.and_eq_true, decide_eq_true_eq] at hp
  obtain ⟨⟨h2, h3⟩, ht⟩ := hp
  obtain ⟨p, hfp⟩ := exists_followUpAt h2
  obtain ⟨q, hfq⟩ := exists_followUpAt h3
  exact ⟨c, hc, ht.1, ht.2, fun h => absurd (h.once hfp hfq).2 (by decide)⟩

/-- `complete`, twice: the second finds the ticket completed. -/
def completeTwice : List Request := [.complete 1 1 none .classic, .complete 1 1 none .classic]

theorem reach_followUps_complete : ∃ c,
    Reach (SparingVisits completeTwice) (start journeyShop completeTwice) c ∧
      answeredOk 0 c = true ∧ answeredOk 1 c = true ∧
      (c.db.get .ticket 2).map (·.status) = some .waiting ∧
      OneFollowUp completeTwice journeyShop c := by
  obtain ⟨c, hc, hp⟩ := exists_reach (o := Config.meets (sparingVisits completeTwice))
    (P := SparingVisits completeTwice) (fun _ _ h => Config.meets_of h)
    (start journeyShop completeTwice) (completesFirst ++ turns 1 41)
    (fun c => answeredOk 0 c && answeredOk 1 c &&
      decide ((c.db.get .ticket 2).map (·.status) = some .waiting)) (by decide +kernel)
  simp only [Bool.and_eq_true, decide_eq_true_eq] at hp
  exact ⟨c, hc, hp.1.1, hp.1.2, hp.2, reach_followUps hc⟩

/-! ## Whose ticket it is -/

/-- A ticket, if only its row marked as deleted, is the same patron's. -/
def Lasting (a b : Db) : Prop := ∀ id t, a.get .ticket id = some t → Has id t b

theorem Lasting.trans {a b c : Db} (h : Lasting a b) (h' : Lasting b c) : Lasting a c := by
  intro id t ht
  obtain ⟨t', ht', hs⟩ := h id t ht
  obtain ⟨t'', ht'', hs'⟩ := h' id t' ht'
  exact ⟨t'', ht'', hs.trans hs'⟩

def lasting : Guarantee Db := ⟨Lasting, fun _ _ t ht => ⟨t, ht, .refl t⟩, .trans⟩

theorem Effect.lasting {C : DbWrite → Bool} {r : Request} {a b : Db} (h : Effect C r a b) :
    Lasting a b := by
  intro id t ht
  cases h with
  | aside h => exact ⟨t, (h.untouched id).trans ht, .refl t⟩
  | moved h hm _ =>
    rcases h.row ht with ⟨rfl, ho, hb⟩ | hb
    · cases ho
      exact ⟨_, hb, hm.samePatron⟩
    · exact ⟨t, hb, .refl t⟩
  | overwritten _ h hw =>
    rcases h.row ht with ⟨rfl, ho, hb⟩ | hb
    · cases ho
      exact ⟨_, hb, hw.samePatron⟩
    · exact ⟨t, hb, .refl t⟩
  | issued _ h _ =>
    rcases h.row ht with ⟨-, ho, -⟩ | hb
    · cases ho
    · exact ⟨t, hb, .refl t⟩
  | queue _ h => exact ⟨t, (h.2.get_ne (by simp)).trans ht, .refl t⟩

theorem lasting_steps {E : Db → Db → Prop} (hE : ∀ a b, E a b → Lasting a b) {a b : Db}
    (h : ReflTransGen E a b) : Lasting a b := by
  induction h with
  | refl => exact lasting.refl a
  | tail _ hs ih => exact ih.trans (hE _ _ hs)

/-- **A ticket stays its patron's.** In every interleaving of any requests, from the start and from any
commit on, its visit, branch, service, customer, phone, language, consent and template never change. -/
theorem reach_lasting {requests : List Request} {s : Db} {c : Run}
    (h : Reach Always (start s requests) c) :
    Lasting s c.db ∧ ∀ (p i : ℕ) (a b : Db), c.trace[p]? = some (i, .commit a b) →
      Lasting b c.db := by
  have hcalm : ∀ (i : ℕ) d, (calls requests)[i]? = some d → Calm (fun _ => true) Err.recordNotFound
      lasting (fun _ _ => True) Answer d := by
    intro i d hd
    obtain ⟨r, -, rfl⟩ := getElem?_calls hd
    exact mild_run r _ _ _ fun a b hab => ⟨lasting_steps (fun _ _ he => he.lasting) hab, trivial⟩
  exact (reach_linear h).guaranteed lasting fun hc =>
    (reach_calm hcalm (fun _ _ => trivial) (fun c i _ => Config.meets_true c i) h hc).1

/-- Of a ticket that is completed and then transferred. -/
theorem reach_lasting_transfer : ∃ c : Run,
    (c.db.get .ticket 1).map (·.status) ≠ (journeyShop.get .ticket 1).map (·.status) ∧
      Lasting journeyShop c.db := by
  obtain ⟨c, hc, hp⟩ := exists_reach_anywhere (start journeyShop completeThenAdvance)
    (completesFirst ++ turns 1 24 ++ [(1, .go 3)] ++ turns 1 3)
    (fun c => decide ((c.db.get .ticket 1).map (·.status) ≠
      (journeyShop.get .ticket 1).map (·.status))) (by decide +kernel)
  exact ⟨c, of_decide_eq_true hp, (reach_lasting hc).1⟩

end PatronLoyalty.Ticketing
