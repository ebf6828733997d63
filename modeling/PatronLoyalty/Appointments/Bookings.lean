import Mathlib
import PatronLoyalty.Appointments.Specs

/-!
# No double booking

A booking looks for an appointment that overlaps it among those that start on the same calendar day of
the server, and then inserts its own; nothing is locked in between. An update may give an appointment
that was cancelled or missed its place back.

Headline: **`reach_noOverlap`**. As long as nobody gives an appointment its place back, and no
appointment that overlaps a booking has been booked since the booking last read the store, or starts on
another day, no two appointments ever overlap.
-/

namespace PatronLoyalty.Appointments

open Txn Relation
open Txn.Rel (Wrote)
open Loyalty (Id Err)

/-! ## Overlap -/

def span (a : Appointment) (bufferMinutes : ℤ) : Set Instant :=
  Set.Ico a.scheduledAt (appointmentEnd a bufferMinutes)

/-- Neither deleted nor cancelled nor missed. -/
def Appointment.active (a : Appointment) : Bool := !a.deleted && a.status.occupies

def SameDesk (x y : Appointment) : Prop := x.branchId = y.branchId ∧ x.serviceId = y.serviceId

instance (x y : Appointment) : Decidable (SameDesk x y) := inferInstanceAs (Decidable (_ ∧ _))

/-- **No double booking.** -/
def NoOverlap (s : Db) : Prop :=
  ∀ id id' x y service, id ≠ id' → s.get .appointment id = some x →
    s.get .appointment id' = some y → x.active = true → y.active = true → SameDesk x y →
    s.get .service x.serviceId = some service →
    Disjoint (span x service.appointmentBufferMinutes) (span y service.appointmentBufferMinutes)

variable {x : Appointment}

/-- Intervals that the overlap test passes share no instant. -/
theorem disjoint_span {y : Appointment} {bufferMinutes : ℤ}
    (h : intervalsOverlap x.scheduledAt (appointmentEnd x bufferMinutes) y.scheduledAt
      (appointmentEnd y bufferMinutes) = false) :
    Disjoint (span x bufferMinutes) (span y bufferMinutes) := by
  refine Set.disjoint_left.mpr fun t hx hy => ?_
  have hover : intervalsOverlap x.scheduledAt (appointmentEnd x bufferMinutes) y.scheduledAt
      (appointmentEnd y bufferMinutes) = true := by
    simp only [intervalsOverlap, Bool.and_eq_true, decide_eq_true_eq]
    exact ⟨hx.1.trans_lt hy.2, hy.1.trans_lt hx.2⟩
  rw [h] at hover
  cases hover

variable {new old : Appointment}

theorem SamePlace.span (h : SamePlace old new) (bufferMinutes : ℤ) :
    span new bufferMinutes = Appointments.span old bufferMinutes := by
  unfold Appointments.span appointmentEnd
  rw [h.scheduledAt, h.durationMinutes]

/-! ## The condition -/

/-- Nobody gives an appointment that was cancelled or missed its place back. -/
def noRevival : DbWrite → Bool
  | .put .appointment _ (some old) new => old.status.occupies || !new.status.occupies
  | _ => true

/-- **Undisturbed**: at the commit of a booking, an active appointment that overlaps it was already in
the store when the request last read it, and starts on the same calendar day of the server. -/
def Undisturbed (E : Environment) (h : List Line) (a b : Db) : Prop :=
  ∀ s₀, lastStore h = some s₀ → ∀ id x id' y service, a.get .appointment id = none →
    b.get .appointment id = some x → a.get .appointment id' = some y → y.active = true →
    SameDesk x y → a.get .service x.serviceId = some service →
    ¬ Disjoint (span x service.appointmentBufferMinutes)
      (span y service.appointmentBufferMinutes) →
    (s₀.get .appointment id').isSome = true ∧ E.dayStart x.scheduledAt ≤ y.scheduledAt ∧
      y.scheduledAt ≤ E.dayEnd x.scheduledAt

def Orderly (E : Environment) (c : Run) (i : ℕ) : Prop :=
  c.Meets (fun _ => noRevival) i ∧ c.CommitMeets (fun _ => Undisturbed E) i

/-! ## One commit -/

variable {E : Environment} {a b c : Db} {id : Id} {h : List Line}

/-- The appointment in its later state: in its place, and active only if it was. -/
structure Remains (x y : Appointment) : Prop where
  branchId : y.branchId = x.branchId
  serviceId : y.serviceId = x.serviceId
  scheduledAt : y.scheduledAt = x.scheduledAt
  durationMinutes : y.durationMinutes = x.durationMinutes
  active : y.active = true → x.active = true

theorem Remains.refl (x : Appointment) : Remains x x := ⟨rfl, rfl, rfl, rfl, id⟩

theorem Remains.trans {y z : Appointment} (h : Remains x y) (h' : Remains y z) :
    Remains x z where
  branchId := h'.branchId.trans h.branchId
  serviceId := h'.serviceId.trans h.serviceId
  scheduledAt := h'.scheduledAt.trans h.scheduledAt
  durationMinutes := h'.durationMinutes.trans h.durationMinutes
  active ha := h.active (h'.active ha)

theorem remains_of_wrote (hw : Wrote (k := Kind.appointment) noRevival id (some old) new a b)
    (hp : SamePlace old new) :
    Remains old new where
  branchId := hp.branchId
  serviceId := hp.serviceId
  scheduledAt := hp.scheduledAt
  durationMinutes := hp.durationMinutes
  active ha := by
    have hc : (old.status.occupies || !new.status.occupies) = true := hw.1
    simp only [Appointment.active, Bool.and_eq_true, Bool.not_eq_true'] at ha ⊢
    refine ⟨hp.live, ?_⟩
    simpa [ha.2] using hc

/-- **One statement** leaves every appointment where it is. -/
theorem Effect.remains (h : Effect noRevival a b)
    (hx : a.get .appointment id = some x) : ∃ y, b.get .appointment id = some y ∧ Remains x y := by
  cases h with
  | aside h => exact ⟨x, (h.get (by simp) id).trans hx, .refl x⟩
  | booked h =>
    rcases h.row hx with ⟨-, ho, -⟩ | hb
    · cases ho
    · exact ⟨x, hb, .refl x⟩
  | rewrote h hp =>
    rcases h.row hx with ⟨-, ho, hb⟩ | hb
    · cases ho
      exact ⟨_, hb, remains_of_wrote h hp⟩
    · exact ⟨x, hb, .refl x⟩

theorem effects_remains (h : (effects noRevival).rel a b)
    (hx : a.get .appointment id = some x) : ∃ y, b.get .appointment id = some y ∧ Remains x y := by
  induction h with
  | refl => exact ⟨x, hx, .refl x⟩
  | tail _ hs ih =>
    obtain ⟨y, hy, hxy⟩ := ih
    obtain ⟨z, hz, hyz⟩ := hs.remains hy
    exact ⟨z, hz, hxy.trans hyz⟩

theorem noOverlap_of_rewrote (hw : Wrote (k := Kind.appointment) noRevival id (some old) new a b)
    (hp : SamePlace old new) (ha : NoOverlap a) : NoOverlap b := by
  have hr := remains_of_wrote hw hp
  -- Every appointment of `b` remains from one of `a`, in the same span.
  have back : ∀ {i x}, b.get .appointment i = some x → ∃ x0, a.get .appointment i = some x0 ∧
      Remains x0 x ∧ ∀ n, span x n = span x0 n := by
    intro i x hx
    by_cases hi : i = id
    · subst hi
      rw [hw.2.get_self] at hx
      cases hx
      exact ⟨old, hw.2.get_old, hr, hp.span⟩
    · rw [hw.2.get_ne (by simp [hi])] at hx
      exact ⟨x, hx, .refl x, fun _ => rfl⟩
  intro i j x y service hij hx hy hax hay hd hs
  obtain ⟨x0, hx0, hrx, hsx⟩ := back hx
  obtain ⟨y0, hy0, hry, hsy⟩ := back hy
  rw [hsx, hsy]
  rw [hw.2.get_ne (by simp), hrx.serviceId] at hs
  refine ha i j x0 y0 service hij hx0 hy0 (hrx.active hax) (hry.active hay) ⟨?_, ?_⟩ hs
  · rw [← hrx.branchId, hd.1, hry.branchId]
  · rw [← hrx.serviceId, hd.2, hry.serviceId]

/-- **A booking** that nothing disturbs overlaps no appointment. -/
theorem noOverlap_of_booked {r : Id × Appointment} (hb : Booked E noRevival h r a b)
    (hu : Undisturbed E h a b) (ha : NoOverlap a) :
    NoOverlap b := by
  obtain ⟨⟨m, ham, hw⟩, hlive, hstatus⟩ := hb.books
  obtain ⟨s0, s, service, h0, hs0, hsa, hserv, hfree⟩ := hb.free
  have happ : ∀ i, m.get .appointment i = a.get .appointment i := fun i =>
    aside_get ham (k := .appointment) (by simp) i
  have hservice : ∀ i, b.get .service i = a.get .service i := fun i =>
    (hw.2.get_ne (by simp)).trans (aside_get ham (k := .service) (by simp) i)
  -- The new appointment overlaps none of the others.
  have clear : ∀ {i y service'}, i ≠ r.1 → b.get .appointment i = some y → y.active = true →
      SameDesk r.2 y → b.get .service r.2.serviceId = some service' →
      Disjoint (span r.2 service'.appointmentBufferMinutes)
        (span y service'.appointmentBufferMinutes) := by
    intro i y service' hi hy hay hd hs
    rw [hservice, effects_get (k := .service) hsa (by simp) (by simp), hserv] at hs
    cases hs
    rw [hw.2.get_ne (by simp [hi]), happ] at hy
    by_contra hover
    obtain ⟨hold, hday, hday'⟩ := hu s0 h0 r.1 r.2 i y service
      ((happ r.1).symm.trans hw.2.get_old) hw.2.get_self hy hay hd
      ((effects_get (k := .service) hsa (by simp) (by simp) _).trans hserv) hover
    -- It was in the store that the query has seen, as it is now.
    obtain ⟨y0, hy0⟩ := Option.isSome_iff_exists.mp hold
    obtain ⟨y1, hy1, -⟩ := effects_remains hs0 hy0
    obtain ⟨y2, hy2, hr⟩ := effects_remains hsa hy1
    rw [hy] at hy2
    cases hy2
    have hact := hr.active hay
    simp only [Appointment.active, Bool.and_eq_true, Bool.not_eq_true'] at hact
    refine hover ?_
    have hspan : span y service.appointmentBufferMinutes =
        span y1 service.appointmentBufferMinutes := by
      unfold span appointmentEnd
      rw [hr.scheduledAt, hr.durationMinutes]
    rw [hspan]
    rw [hr.scheduledAt] at hday hday'
    refine disjoint_span (hfree i y1 hy1 hact.1 ?_ hday hday')
    simp [occupying, hact.2, hd.1, hd.2, hr.branchId, hr.serviceId]
  intro i j x y service' hij hx hy hax hay hd hs
  by_cases hi : i = r.1
  · subst hi
    rw [hw.2.get_self] at hx
    cases hx
    exact clear (Ne.symm hij) hy hay hd hs
  · by_cases hj : j = r.1
    · subst hj
      rw [hw.2.get_self] at hy
      cases hy
      rw [hd.2] at hs
      exact (clear hi hx hax ⟨hd.1.symm, hd.2.symm⟩ hs).symm
    · rw [hw.2.get_ne (by simp [hi]), happ] at hx
      rw [hw.2.get_ne (by simp [hj]), happ] at hy
      rw [hservice] at hs
      exact ha i j x y service' hij hx hy hax hay hd hs

/-- **One commit** keeps appointments apart. -/
theorem Request.Does.noOverlap {r : Request} (hd : r.Does E noRevival h a b)
    (hu : Undisturbed E h a b) (ha : NoOverlap a) : NoOverlap b := by
  cases hd with
  | read he => exact he ▸ ha
  | booked hb => exact noOverlap_of_booked hb hu ha
  | rewrote hw hp => exact noOverlap_of_rewrote hw hp ha

/-! ## Runs -/

variable {s : Db} {requests : List Request} {c : Run}

/-- **No double booking** in every orderly run. -/
theorem reach_noOverlap (h : Reach (Orderly E) (start E s requests) c) (hs : NoOverlap s) :
    NoOverlap c.db := by
  refine (reach_linear h).carry (fun i a b hc ha => ?_) hs
  have hlt : i < requests.length := by
    have := reach_owned h hc
    rwa [calls, List.length_map] at this
  have hdoes := reach_does (fun _ _ hP => hP.1) h (List.getElem?_eq_getElem hlt)
  have hundisturbed := reach_commitMeets (K := fun _ => Undisturbed E) (fun _ _ hP => hP.2) h i
  obtain ⟨h1, h2, hsplit⟩ := List.append_of_mem (Config.mem_histOf.mpr hc)
  exact (hdoes h1 a b h2 hsplit).noOverlap (hundisturbed h1 a b h2 hsplit) ha

/-! ## Two bookings at a time -/

/-- Both appointments are active, for one service, at the instant. -/
def doubleBooked (id id' : Id) (t : Instant) (s : Db) : Bool :=
  match s.get .appointment id, s.get .appointment id' with
  | some x, some y => (s.get .service x.serviceId).any fun service =>
    x.active && y.active && decide (SameDesk x y) &&
      [x, y].all fun a => decide (a.scheduledAt ≤ t) &&
        decide (t < appointmentEnd a service.appointmentBufferMinutes)
  | _, _ => false

theorem not_noOverlap {id' : Id} {t : Instant} (hne : id ≠ id')
    (h : doubleBooked id id' t s = true) : ¬ NoOverlap s := by
  intro hs
  unfold doubleBooked at h
  split at h
  · rename_i x y hx hy
    obtain ⟨service, hservice, h⟩ := (Option.any_eq_true _ _).mp h
    simp only [List.all_cons, List.all_nil, Bool.and_eq_true, decide_eq_true_eq, and_true] at h
    obtain ⟨⟨⟨hax, hay⟩, hd⟩, hxt, hyt⟩ := h
    exact Set.disjoint_left.mp (hs id id' x y service hne hx hy hax hay hd hservice) hxt hyt
  · cases h

def atNine (customerName : String) : Request :=
  .book { branchId := 1, serviceId := 1, customerName, customerEmail := some "a@example.com"
          customerPhone := some "+15550001234", scheduledAt := some 32400000 }

def bookTwice : List Request := [atNine "Ada", atNine "Bob"]

/-- **Two bookings** both find the slot free before either inserts its appointment. -/
theorem book_twice : ∃ c : Run, Reach Always (start server (clinic []) bookTwice) c ∧
    NoOverlap (clinic []) ∧ ¬ NoOverlap c.db := by
  obtain ⟨c, hc, hp⟩ := exists_reach_anywhere
    (start server (clinic []) bookTwice)
    (turns 0 17 ++ turns 1 17 ++ turns 0 9 ++ List.replicate 8 (1, .go 1))
    (fun c => doubleBooked 0 1 32400000 c.db) (by decide +kernel)
  refine ⟨c, hc, fun i j x y service _ hx => ?_, not_noOverlap (by simp) hp⟩
  cases (show (clinic []).get .appointment i = none from rfl).symm.trans hx

/-! ## One after the other -/

/-- The condition on commits, computed for all pairs of rows. -/
def undisturbed (E : Environment) (h : List Line) (a b : Db) : Bool :=
  (b.rows .appointment fun id _ => (a.get .appointment id).isNone).all fun x =>
    (a.rows .appointment fun _ _ => true).all fun y =>
      (a.get .service x.2.serviceId).all fun service =>
        !(intervalsOverlap x.2.scheduledAt (appointmentEnd x.2 service.appointmentBufferMinutes)
            y.2.scheduledAt (appointmentEnd y.2 service.appointmentBufferMinutes)) ||
          (lastStore h).all fun s₀ => (s₀.get .appointment y.1).isSome &&
            decide (E.dayStart x.2.scheduledAt ≤ y.2.scheduledAt) &&
            decide (y.2.scheduledAt ≤ E.dayEnd x.2.scheduledAt)

theorem undisturbed_of (hu : undisturbed E h a b = true) : Undisturbed E h a b := by
  intro s0 h0 id x id' y service hnew hx hy _ _ hs hover
  unfold undisturbed at hu
  have hrow := List.all_eq_true.mp (List.all_eq_true.mp hu (id, x)
    (Rel.mem_rows.mpr ⟨hx, by simp [hnew]⟩)) (id', y) (Rel.mem_rows.mpr ⟨hy, rfl⟩)
  rw [hs, Option.all_some, h0, Option.all_some] at hrow
  cases hi : intervalsOverlap x.scheduledAt (appointmentEnd x service.appointmentBufferMinutes)
      y.scheduledAt (appointmentEnd y service.appointmentBufferMinutes) with
  | false => exact absurd (disjoint_span hi) hover
  | true => simpa [hi, and_assoc] using hrow

/-- The condition, computed. -/
def orderly (E : Environment) (c : Run) (i : ℕ) : Bool :=
  c.meets (fun _ => noRevival) i && c.commitMeets (fun _ => undisturbed E) i

theorem orderly_of {i : ℕ} (h : orderly E c i = true) :
    Orderly E c i := by
  unfold orderly at h
  rw [Bool.and_eq_true] at h
  exact ⟨Config.meets_of h.1, Config.commitMeets_of (fun _ _ _ _ => undisturbed_of) h.2⟩

theorem reach_noOverlap_bookOne : ∃ c : Run, Reach (Orderly server)
    (start server (clinic [(7, anHour .confirmed 28800000)]) [atNine "Ada"]) c ∧
      (c.db.get .appointment 0).isSome = true ∧ NoOverlap c.db := by
  have hs : NoOverlap (clinic [(7, anHour .confirmed 28800000)]) := by
    intro i j x y service hij hx hy
    have only : ∀ k z, (clinic [(7, anHour .confirmed 28800000)]).get .appointment k = some z →
        k = 7 := by
      intro k z hz
      by_contra hk
      have hnone : (clinic [(7, anHour .confirmed 28800000)]).get .appointment k = none :=
        lookup_table_eq_none (k := .appointment) (by simpa using hk)
      cases hnone.symm.trans hz
    exact absurd ((only i x hx).trans (only j y hy).symm) hij
  obtain ⟨c, hc, hp⟩ := exists_reach (o := orderly server) (P := Orderly server)
    (fun _ _ h => orderly_of h)
    (start server (clinic [(7, anHour .confirmed 28800000)]) [atNine "Ada"]) (turns 0 26)
    (fun c => (c.db.get .appointment 0).isSome) (by decide +kernel)
  exact ⟨c, hc, hp, reach_noOverlap hc hs⟩

/-! ## What lasts -/

/-- What no request changes of an appointment: where and when it is, and nothing once it is deleted. -/
structure Stays (x y : Appointment) : Prop where
  branchId : y.branchId = x.branchId
  serviceId : y.serviceId = x.serviceId
  scheduledAt : y.scheduledAt = x.scheduledAt
  durationMinutes : y.durationMinutes = x.durationMinutes
  deleted : x.deleted = true → y = x

theorem effects_stays {C : DbWrite → Bool} {a b : Db} {id : Id} {x : Appointment}
    (h : ReflTransGen (Effect C) a b) (hx : a.get .appointment id = some x) :
    ∃ y, b.get .appointment id = some y ∧ Stays x y := by
  induction h with
  | refl => exact ⟨x, hx, rfl, rfl, rfl, rfl, fun _ => rfl⟩
  | tail _ hs ih =>
    obtain ⟨y, hy, hst⟩ := ih
    cases hs with
    | aside h => exact ⟨y, (h.get (by decide) id).trans hy, hst⟩
    | booked h =>
      refine ⟨y, (h.2.get_ne fun he => ?_).trans hy, hst⟩
      cases he
      cases hy.symm.trans h.2.get_old
    | @rewrote i old new h hp =>
      by_cases hi : id = i
      · subst hi
        obtain rfl := Option.some.inj (hy.symm.trans h.2.get_old)
        refine ⟨new, h.2.get_self, hp.branchId.trans hst.branchId, hp.serviceId.trans hst.serviceId,
          hp.scheduledAt.trans hst.scheduledAt, hp.durationMinutes.trans hst.durationMinutes,
          fun hd => ?_⟩
        have hlive := hp.live
        rw [hst.deleted hd, hd] at hlive
        cases hlive
      · exact ⟨y, (h.2.get_ne (by simpa using hi)).trans hy, hst⟩

theorem Request.Does.effects {C : DbWrite → Bool} {h : List Line} {a b : Db} {r : Request}
    (hd : r.Does E C h a b) : ReflTransGen (Effect C) a b := by
  cases hd with
  | read he => exact he ▸ .refl
  | booked hb => exact hb.books.effects
  | rewrote hw hp => exact .single (.rewrote hw hp)

/-- **An appointment stays where and when it is**, in every interleaving of any requests, from the start
and from any commit on; the row of one that is deleted is not touched again. -/
theorem reach_stays (h : Reach Always (start E s requests) c) {id : Id} {x : Appointment} :
    (s.get .appointment id = some x → ∃ y, c.db.get .appointment id = some y ∧ Stays x y) ∧
      ∀ (p i : ℕ) (a b : Db), c.trace[p]? = some (i, .commit a b) →
        b.get .appointment id = some x → ∃ y, c.db.get .appointment id = some y ∧ Stays x y := by
  have hcommit : ∀ {i a b}, Commit c.trace i a b → (effects fun _ => true).rel a b := by
    intro i a b hc
    have hlt : i < requests.length := by
      have := reach_owned h hc
      rwa [calls, List.length_map] at this
    obtain ⟨h1, h2, hsplit⟩ := List.append_of_mem (Config.mem_histOf.mpr hc)
    exact (reach_does (fun c i _ => Config.meets_true c i) h (List.getElem?_eq_getElem hlt)
      h1 a b h2 hsplit).effects
  obtain ⟨hstart, hcommits⟩ := (reach_linear h).guaranteed _ hcommit
  exact ⟨effects_stays hstart, fun p i a b hp => effects_stays (hcommits p i a b hp)⟩

/-- Of an appointment beside which another is booked. -/
theorem reach_stays_bookOne : ∃ (c : Run) (y : Appointment),
    (c.db.get .appointment 0).isSome = true ∧ c.db.get .appointment 7 = some y ∧
      Stays (anHour .confirmed 28800000) y := by
  obtain ⟨c, hc, hp⟩ := exists_reach_anywhere
    (start server (clinic [(7, anHour .confirmed 28800000)]) [atNine "Ada"]) (turns 0 26)
    (fun c => (c.db.get .appointment 0).isSome) (by decide +kernel)
  obtain ⟨y, hy, hs⟩ := (reach_stays hc).1 (show (clinic _).get .appointment 7 = some _ from rfl)
  exact ⟨c, y, hp, hy, hs⟩

end PatronLoyalty.Appointments
