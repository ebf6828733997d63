import PatronLoyalty.Appointments.Services
import PatronLoyalty.Txn.Commits

/-!
# What the appointment requests write

One specification for each transaction of the appointment services, under any interference and any
check of its writes. A booking writes customers and consents, and inserts one appointment; the others
rewrite one appointment, in its place. Headline: **`reach_does`**, what every commit of a request is by
its history.
-/

namespace PatronLoyalty.Appointments

open Txn Relation
open Txn.Rel (Wrote Replaced Pushed)
open Loyalty (Id Err)

/-! ## Effects -/

variable {C : DbWrite → Bool} {e : Err} {G : Guarantee Db} {a b c : Db} {k : Kind}
  {E : Db → Db → Prop}

/-- A statement that is not about appointments. -/
inductive Aside (C : DbWrite → Bool) (a b : Db) : Prop
  | customer {id : Id} {old : Option Customer} {new : Customer}
      (h : Wrote (k := Kind.customer) C id old new a b)
  | ledger {l : ConsentLedgerEntry} (h : Pushed l a b)

structure SamePlace (old new : Appointment) : Prop where
  live : old.deleted = false
  branchId : new.branchId = old.branchId
  serviceId : new.serviceId = old.serviceId
  scheduledAt : new.scheduledAt = old.scheduledAt
  durationMinutes : new.durationMinutes = old.durationMinutes

/-- **One statement** of the appointment services. -/
inductive Effect (C : DbWrite → Bool) (a b : Db) : Prop
  | aside (h : Aside C a b)
  | booked {id : Id} {new : Appointment} (h : Wrote (k := Kind.appointment) C id none new a b)
  | rewrote {id : Id} {old new : Appointment}
      (h : Wrote (k := Kind.appointment) C id (some old) new a b) (hp : SamePlace old new)

theorem Aside.tables (h : Aside C a b) (hk : k ≠ .customer) : b.tables k = a.tables k := by
  cases h with
  | customer h => exact h.2.tables_ne hk
  | ledger h => rw [h.tables]

theorem Aside.get (h : Aside C a b) (hk : k ≠ .customer) (id : Id) :
    b.get k id = a.get k id := by
  rw [Rel.get, Rel.get, h.tables hk]

theorem aside_get (h : ReflTransGen (Aside C) a b) (hk : k ≠ .customer) (id : Id) :
    b.get k id = a.get k id := by
  induction h with
  | refl => rfl
  | tail _ hs ih => exact (hs.get hk id).trans ih

theorem Effect.get (h : Effect C a b) (hc : k ≠ .customer) (ha : k ≠ .appointment)
    (id : Id) : b.get k id = a.get k id := by
  cases h with
  | aside h => exact h.get hc id
  | booked h => exact h.2.get_ne (by simp [ha])
  | rewrote h => exact h.2.get_ne (by simp [ha])

/-- The settings of branches and services stay as they are. -/
theorem effects_get (h : ReflTransGen (Effect C) a b) (hc : k ≠ .customer) (ha : k ≠ .appointment)
    (id : Id) : b.get k id = a.get k id := by
  induction h with
  | refl => rfl
  | tail _ hs ih => exact (hs.get hc ha id).trans ih

/-! ## Statements -/

theorem confined_checkPolicy (scope : Scope) :
    Confined C e G E (checkPolicy scope) := by
  unfold checkPolicy
  exact Confined.ite (.pure ()) (.throw _)

theorem triple_checkPolicy (scope : Scope) {P : Db → Db → Prop} :
    Triple C e G P (checkPolicy scope) fun _ a c => scope.writes = true ∧ P a c := by
  unfold checkPolicy
  split
  · rename_i hw
    exact .pure fun _ _ hp => ⟨hw, hp⟩
  · exact .throw

theorem confined_findById (scope : Scope) (k : Kind) (id : Id)
    (p : Row k → Bool) : Confined C e G E (findById scope k id p) := .read _

theorem confined_findUnique (scope : Scope) (k : Kind) (p : Row k → Bool) :
    Confined C e G E (findUnique scope k p) := .read _

theorem confined_create (scope : Scope) (k : Kind) (r : Row k)
    (h : ∀ id a b, Wrote C k id none r a b → E a b) : Confined C e G E (create scope k r) :=
  .bind (confined_checkPolicy scope) fun _ => .bind .input fun id =>
    .bind (.insert (h id)) fun _ => .pure id

theorem confined_getWorkingHoursWindowForLocalDate (orgId branchId : Id) (localDate : LocalDate) :
    Confined C e G E (getWorkingHoursWindowForLocalDate orgId branchId localDate) := by
  refine .bind (confined_findUnique _ _ _) fun o => ?_
  cases o with
  | none => exact .bind (confined_findUnique _ _ _) fun _ => .pure _
  | some o => exact .pure _

theorem confined_upsertBookingCustomer (E : Environment) (orgId : Id)
    (data : AppointmentBookingInput) (email : String) (phone : Option String) :
    Confined C e G (Aside C) (upsertBookingCustomer E orgId data email phone) := by
  unfold upsertBookingCustomer
  cases phone with
  | none =>
    refine .bind (.findFirst _) fun o => .bind .now fun n => ?_
    cases o with
    | none => exact confined_create _ _ _ fun _ _ _ hw => .customer hw
    | some r => exact .bind (.modify fun _ _ _ _ _ hw => .customer hw) fun _ => .pure _
  | some phone =>
    refine .bind (.findFirst _) fun o => .bind .now fun n => ?_
    cases o with
    | none => exact confined_create _ _ _ fun _ _ _ hw => .customer hw
    | some r => exact .bind (.modify fun _ _ _ _ _ hw => .customer hw) fun _ => .pure _

theorem confined_recordConsent (consent : Option Bool) (entry : ConsentLedgerEntry) :
    Confined C e G (Aside C) (recordConsent consent entry) := by
  unfold recordConsent
  exact Confined.ite (.insertLog fun _ _ hp => .ledger hp) (.pure _)

/-- **An update of one appointment.** -/
theorem triple_updateAppointment {orgId id : Id} {f : Appointment → Appointment}
    {P : Db → Db → Prop} :
    Triple C e G P (updateAppointment orgId id f) fun r' a c => ∃ r m, P a m ∧ r.orgId = orgId ∧
      r.deleted = false ∧ r' = f r ∧ Wrote (k := Kind.appointment) C id (some r) r' m c := by
  refine Triple.modify fun r r' a m c hp hf hw => ?_
  split at hf
  · rename_i hr
    cases hf
    exact ⟨r, m, hp, hr.1, hr.2, rfl, hw⟩
  · cases hf

theorem triple_updateTx {orgId id : Id} {data : UpdateAppointment} :
    Triple C e G Eq (updateTx orgId id data) fun r' a c => ∃ r m, a = m ∧ r.orgId = orgId ∧
      r.deleted = false ∧ r' = data.apply r ∧
      Wrote (k := Kind.appointment) C id (some r) r' m c := by
  refine Triple.bind (Q := fun _ => Eq) ?_ fun _ => triple_updateAppointment
  unfold checkAssignedUser
  cases data.assignedUserId with
  | none => exact .pure fun _ _ hp => hp
  | some _ =>
    refine .bind (.input fun _ _ _ hp => hp) fun n => ?_
    split
    · exact .throw
    · exact .pure fun _ _ hp => hp

/-! ## The transaction of a booking -/

def FreeOnDay (E : Environment) (new : Appointment) (bufferMinutes : ℤ) (s : Db) : Prop :=
  ∀ id y, s.get .appointment id = some y → y.deleted = false →
    occupying new.branchId new.serviceId y = true → E.dayStart new.scheduledAt ≤ y.scheduledAt →
    y.scheduledAt ≤ E.dayEnd new.scheduledAt →
    intervalsOverlap new.scheduledAt (appointmentEnd new bufferMinutes) y.scheduledAt
      (appointmentEnd y bufferMinutes) = false

/-- The commit of a booking: some customers and consents, and one appointment. -/
structure Books (C : DbWrite → Bool) (r : Id × Appointment) (a c : Db) : Prop where
  wrote : ∃ m, ReflTransGen (Aside C) a m ∧ Wrote (k := Kind.appointment) C r.1 none r.2 m c
  live : r.2.deleted = false
  status : r.2.status = .confirmed

/-- **The transaction of a booking** has seen a store, at or after the last one the request had read
and at or before its commit, where the slot was free on the server's day. -/
theorem triple_bookTx {E : Environment} {branch : Branch} {service : Service}
    {data : AppointmentBookingInput} {email : String} {phone : Option String}
    {scheduledAt : Instant} {durationMinutes : ℤ} {P : Db → Prop} :
    Triple C e G (fun a c => P a ∧ a = c)
      (bookTx E branch service data email phone scheduledAt durationMinutes) fun r a c =>
        (∃ s, P s ∧ G.rel s a ∧ FreeOnDay E r.2 service.appointmentBufferMinutes s) ∧
          Books C r a c ∧ r.2.branchId = data.branchId ∧ r.2.serviceId = data.serviceId ∧
          r.2.scheduledAt = scheduledAt ∧ r.2.durationMinutes = durationMinutes := by
  -- What the query has seen, before anything is written.
  have query : Triple C e G (fun a c => P a ∧ a = c)
      (findOverlappingAppointment E data.branchId data.serviceId scheduledAt durationMinutes
        service.appointmentBufferMinutes)
      fun o a c => (o = none → E.bypassRls = true → ∃ s, P s ∧ G.rel s a ∧
        ∀ id y, s.get .appointment id = some y → y.deleted = false →
          occupying data.branchId data.serviceId y = true → E.dayStart scheduledAt ≤ y.scheduledAt →
          y.scheduledAt ≤ E.dayEnd scheduledAt →
          intervalsOverlap scheduledAt
            (scheduledAt + (durationMinutes + service.appointmentBufferMinutes) * minuteMs)
            y.scheduledAt (appointmentEnd y service.appointmentBufferMinutes) = false) ∧ a = c := by
    refine .bind (Triple.readFact (F := fun rows a => ∃ s, P s ∧ G.rel s a ∧
        rows = seen (.bare E.bypassRls) .appointment (fun _ (a : Appointment) =>
          occupying data.branchId data.serviceId a &&
            decide (E.dayStart scheduledAt ≤ a.scheduledAt) &&
            decide (a.scheduledAt ≤ E.dayEnd scheduledAt)) s)
      (fun rows a b hab ⟨s, hs, hsa, hr⟩ => ⟨s, hs, G.trans hsa hab, hr⟩)
      (fun a c ⟨ha, hac⟩ => ⟨a, ha, G.refl a, by rw [hac]⟩)) fun rows => ?_
    refine Triple.pure fun a c hf => ?_
    obtain ⟨⟨s, hs, hsa, rfl⟩, -, hac⟩ := hf
    refine ⟨fun hn hb => ⟨s, hs, hsa, fun id y hy hl ho hd1 hd2 => ?_⟩, hac⟩
    have hm : (id, y) ∈ seen (.bare E.bypassRls) .appointment (fun _ (a : Appointment) =>
        occupying data.branchId data.serviceId a &&
          decide (E.dayStart scheduledAt ≤ a.scheduledAt) &&
          decide (a.scheduledAt ≤ E.dayEnd scheduledAt)) s := by
      refine Rel.mem_rows.mpr ⟨hy, ?_⟩
      simp [visible, gone, hl, hb, ho, hd1, hd2]
    have := List.find?_eq_none.mp hn _ hm
    simpa using this
  refine query.bind fun o => ?_
  cases o with
  | some r => exact .throw
  | none =>
    -- The customer and the consents are written aside.
    have aside : ∀ {β : Type} {t : ATx β} {F : Db → Prop}, Confined C e G (Aside C) t →
        Triple C e G (fun a c => F a ∧ ReflTransGen (Aside C) a c) t
          fun _ a c => F a ∧ ReflTransGen (Aside C) a c := fun ht =>
      ht.triple fun _ _ _ _ hf hs => ⟨hf.1, hf.2.trans hs⟩
    refine Triple.bind ((aside (confined_upsertBookingCustomer E branch.orgId data email phone)).pre
      fun a c hac => ⟨hac.1, hac.2 ▸ .refl⟩) fun customerId => ?_
    refine (aside (confined_recordConsent _ _)).bind fun _ =>
      (aside (confined_recordConsent _ _)).bind fun _ => ?_
    refine .bind (Q := fun id a c => (∃ s, P s ∧ G.rel s a ∧ _) ∧ Books C (id, _) a c) ?_
      fun id => .pure fun a c hac => ⟨hac.1, hac.2, rfl, rfl, rfl, rfl⟩
    refine (triple_checkPolicy _).bind fun _ => .bind (.input fun _ _ _ hp => hp) fun id =>
      .bind (.insert fun a b c hp hw => ?_) fun _ => .pure fun _ _ hq => hq
    obtain ⟨hb, hf, hs⟩ := hp
    exact ⟨hf rfl hb, ⟨b, hs, hw⟩, rfl, rfl⟩

/-! ## The requests -/

/-- What the requests may do to the store. -/
abbrev effects (C : DbWrite → Bool) : Guarantee Db := .steps (Effect C)

/-- The commit of a booking, after the history `h`: the service as it was when `h` ended still is, and
at some store since then the slot was free on the server's day. -/
structure Booked (E : Environment) (C : DbWrite → Bool) (h : List Line) (r : Id × Appointment)
    (a b : Db) : Prop where
  books : Books C r a b
  free : ∃ s₀ s service, lastStore h = some s₀ ∧ (effects C).rel s₀ s ∧ (effects C).rel s a ∧
    s.get .service r.2.serviceId = some service ∧ FreeOnDay E r.2 service.appointmentBufferMinutes s

/-- The request may rewrite the status of an appointment. -/
def Request.restates : Request → Bool
  | .update .. | .cancelPublic _ => true
  | _ => false

/-- **What a commit of the request is**, after the history `h`. -/
inductive Request.Does (E : Environment) (C : DbWrite → Bool) (h : List Line) (a b : Db) :
    Request → Prop
  | read {r : Request} (he : a = b) : Does E C h a b r
  | booked {data : AppointmentBookingInput} {x : Id × Appointment} (hb : Booked E C h x a b) :
    Does E C h a b (.book data)
  | rewrote {r : Request} {id : Id} {old new : Appointment}
      (hw : Wrote (k := Kind.appointment) C id (some old) new a b) (hp : SamePlace old new)
      (hs : r.restates = false → new.status = old.status) : Does E C h a b r

theorem Books.effects {x : Id × Appointment} (h : Books C x a b) : (effects C).rel a b := by
  obtain ⟨m, ha, hw⟩ := h.wrote
  exact (ReflTransGen.mono (fun _ _ => Effect.aside) _ _ ha).tail (.booked hw)

theorem keeps_service (serviceId : Id) (F : Option Service → Prop) :
    (effects C).Keeps fun s => F (s.get .service serviceId) := fun a b hab hF => by
  beta_reduce
  rwa [effects_get (k := .service) hab (by simp) (by simp)]

section Requests

variable {D : List Line → Db → Db → Prop} {F : Db → Prop}

/-- A query outside any later transaction. -/
theorem describes_reads {α : Type} {t : ATx α} (hD : ∀ h a, D h a a)
    (ht : Confined C e G (fun _ _ => False) t) :
    Describes C e G D (fun _ => True) (withTenant t) fun _ _ => True :=
  (Describes.read (F := fun _ _ => True) hD (ht.still.post fun _ _ _ hp => ⟨trivial, hp⟩)).post
    fun _ _ _ => trivial

theorem describes_getBranch (hD : ∀ h a, D h a a) (branchId : Id) :
    Describes C e G D (fun _ => True) (getBranch branchId) fun _ _ => True := by
  refine (describes_reads hD (confined_findById _ _ _ _)).bind fun o => ?_
  cases o with
  | none => exact .throw
  | some branch => exact .pure fun _ _ => trivial

theorem describes_getBookableService (hD : ∀ h a, D h a a) (orgId serviceId : Id) :
    Describes C e (effects C) D (fun _ => True) (getBookableService orgId serviceId)
      fun service => Holds fun s => s.get .service serviceId = some service := by
  refine (Describes.read hD (F := fun o s => ∀ service : Service, o = some service →
    s.get .service serviceId = some service) (Triple.readFirst (fun o => ?_)
      fun s service hs => ?_)).bind fun o => ?_
  · exact keeps_service serviceId fun r => ∀ service : Service, o = some service → r = some service
  · exact (Option.filter_eq_some_iff.mp hs).1
  · cases o with
    | none => exact .throw
    | some service =>
      refine .pure fun h hh => ?_
      obtain ⟨s, hs, hF⟩ := hh
      exact ⟨s, hs, hF service rfl⟩

theorem describes_getBranchService (hD : ∀ h a, D h a a) (hF : G.Keeps F)
    (orgId branchId serviceId : Id) :
    Describes C e G D (Holds F) (getBranchService orgId branchId serviceId) fun _ => Holds F := by
  refine (Describes.still hD hF (confined_findUnique _ _ _)).bind fun o => ?_
  cases o with
  | none => exact .throw
  | some branchService =>
    dsimp only
    split
    · exact .pure fun _ hh => hh
    · exact .throw

theorem describes_getSubService (hD : ∀ h a, D h a a) (hF : G.Keeps F) (orgId serviceId : Id)
    (subServiceId : Option Id) :
    Describes C e G D (Holds F) (getSubService orgId serviceId subServiceId) fun _ => Holds F := by
  cases subServiceId with
  | none => exact .pure fun _ hh => hh
  | some id =>
    refine (Describes.still hD hF (confined_findById _ _ _ _)).bind fun o => ?_
    cases o with
    | none => exact .throw
    | some subService => exact .pure fun _ hh => hh

theorem describes_requireText {value : Option String} {message : String} :
    Describes C e G D (Holds F) (requireText value message) fun _ => Holds F := by
  unfold requireText
  split
  · exact .pure fun _ hh => hh
  · exact .throw

theorem describes_assertAppointmentSlotWithinWorkingHours (hD : ∀ h a, D h a a) (hF : G.Keeps F)
    (orgId branchId : Id) (zone : Zone) (scheduledAt : Instant) (durationMinutes : ℤ) :
    Describes C e G D (Holds F)
      (assertAppointmentSlotWithinWorkingHours orgId branchId zone scheduledAt durationMinutes)
      fun _ => Holds F := by
  refine (Describes.still hD hF (confined_getWorkingHoursWindowForLocalDate _ _ _)).bind
    fun window => ?_
  split
  · exact .pure fun _ hh => hh
  · exact .throw

theorem describes_getById (hD : ∀ h a, D h a a) (orgId id : Id) :
    Describes C e G D (fun _ => True) (getById orgId id) fun _ _ => True := by
  refine (describes_reads hD (confined_findById _ _ _ _)).bind fun o => ?_
  cases o with
  | none => exact .throw
  | some existing => exact .pure fun _ _ => trivial

theorem describes_book (E : Environment) (data : AppointmentBookingInput) :
    Describes C e (effects C) (fun h a b => Request.Does E C h a b (.book data)) (fun _ => True)
      (book E data) fun _ _ => True := by
  have hD : ∀ (h : List Line) a, Request.Does E C h a a (.book data) := fun _ _ => .read rfl
  refine (describes_getBranch hD _).bind fun branch =>
    (describes_getBookableService hD _ _).bind fun service => ?_
  have hF := keeps_service (C := C) data.serviceId (· = some service)
  refine (describes_getBranchService hD hF _ _ _).bind fun branchService =>
    describes_requireText.bind fun email => describes_requireText.bind fun phone =>
    (describes_getSubService hD hF _ _ _).bind fun subService => ?_
  refine Describes.bind (Ψ := fun _ => Holds fun s => s.get .service data.serviceId = some service)
    ?_ fun scheduledAt => ?_
  · cases data.scheduledAt with
    | none => exact .throw
    | some t => exact .pure fun _ hh => hh
  refine (Describes.input fun _ _ hh => hh).bind fun now =>
    (Describes.ofExcept fun _ _ _ hh => hh).bind fun _ =>
    (describes_assertAppointmentSlotWithinWorkingHours hD hF _ _ _ _ _).bind fun _ => ?_
  dsimp only
  split
  · exact .throw
  · refine .tx (R := fun h r a c => (∃ s, (∀ s0, lastStore h = some s0 → (effects C).rel s0 s) ∧
      (effects C).rel s a ∧ FreeOnDay E r.2 service.appointmentBufferMinutes s) ∧ Books C r a c ∧
        r.2.branchId = data.branchId ∧ r.2.serviceId = data.serviceId ∧
        r.2.scheduledAt = scheduledAt ∧ _) (fun h _ => triple_bookTx.pre fun a c hs => ⟨hs.1, hs.2⟩) ?_
    rintro h r a c ⟨s0, h0, hs⟩ ⟨⟨s, hsince, hsa, hfree⟩, hb, -, hserv, -⟩
    refine ⟨hb.effects, .booked ⟨hb, s0, s, service, h0, hsince s0 h0, hsa, ?_, hfree⟩, trivial⟩
    rw [hserv]
    exact hF _ _ (hsince s0 h0) hs

theorem describes_updateAppointment {E : Environment} {r : Request} {orgId id : Id}
    {f : Appointment → Appointment} (hf : ∀ x, x.deleted = false → SamePlace x (f x))
    (hs : r.restates = false → ∀ x, (f x).status = x.status) {t : ATx Appointment}
    (ht : Triple C e (effects C) Eq t fun r' a c => ∃ x m, a = m ∧ x.orgId = orgId ∧
      x.deleted = false ∧ r' = f x ∧ Wrote (k := Kind.appointment) C id (some x) r' m c) :
    Describes C e (effects C) (fun h a b => Request.Does E C h a b r) (fun _ => True)
      (withTenant t) fun _ _ => True := by
  refine .tx (fun h _ => ht.pre fun _ _ hp => hp.2) ?_
  rintro h r' a c - ⟨x, m, rfl, -, hl, rfl, hw⟩
  exact ⟨.single (.rewrote hw (hf x hl)), .rewrote hw (hf x hl) fun hr => hs hr x, trivial⟩

theorem describes_lifecycleUpdate (E : Environment) (orgId id : Id) (data : UpdateAppointment) :
    Describes C e (effects C) (fun h a b => Request.Does E C h a b (.update orgId id data))
      (fun _ => True) (lifecycleUpdate orgId id data) fun _ _ => True := by
  have hD : ∀ (h : List Line) a, Request.Does E C h a a (.update orgId id data) := fun _ _ => .read rfl
  exact (describes_getById hD _ _).bind fun existing =>
    (Describes.ofExcept (Ψ := fun _ _ => True) fun _ _ _ _ => trivial).bind fun status =>
    (describes_updateAppointment (f := data.apply) (fun x hl => ⟨hl, rfl, rfl, rfl, rfl⟩)
      (by simp [Request.restates]) triple_updateTx).bind fun updated =>
    (Describes.fireAll.post fun _ _ _ => trivial).bind fun _ => .pure fun _ _ => trivial

theorem describes_lifecycleDelete (E : Environment) (orgId id : Id) :
    Describes C e (effects C) (fun h a b => Request.Does E C h a b (.delete orgId id))
      (fun _ => True) (lifecycleDelete orgId id) fun _ _ => True := by
  have hD : ∀ (h : List Line) a, Request.Does E C h a a (.delete orgId id) := fun _ _ => .read rfl
  exact (describes_getById hD _ _).bind fun _ =>
    (describes_updateAppointment (f := fun a => { a with deleted := true })
      (fun x hl => ⟨hl, rfl, rfl, rfl, rfl⟩) (fun _ _ => rfl) triple_updateAppointment).bind
    fun _ => .pure fun _ _ => trivial

theorem describes_cancelPublic (E : Environment) (id : Id) :
    Describes C e (effects C) (fun h a b => Request.Does E C h a b (.cancelPublic id))
      (fun _ => True) (cancelPublic id) fun _ _ => True := by
  have hD : ∀ (h : List Line) a, Request.Does E C h a a (.cancelPublic id) := fun _ _ => .read rfl
  refine (describes_reads hD (confined_findById _ _ _ _)).bind fun o => ?_
  cases o with
  | none => exact .throw
  | some appt =>
    dsimp only
    split
    · exact describes_updateAppointment (f := fun a => { a with status := .cancelled })
        (fun x hl => ⟨hl, rfl, rfl, rfl, rfl⟩) (by simp [Request.restates])
        triple_updateAppointment
    · exact .throw

theorem describes_getAvailableSlots (E : Environment) (branchId serviceId : Id)
    (date : Option LocalDate) (subServiceId : Option Id) :
    Describes C e (effects C)
      (fun h a b => Request.Does E C h a b (.getAvailableSlots branchId serviceId date subServiceId))
      (fun _ => True) (getAvailableSlots E branchId serviceId date subServiceId)
      fun _ _ => True := by
  have hD : ∀ (h : List Line) a,
      Request.Does E C h a a (.getAvailableSlots branchId serviceId date subServiceId) :=
    fun _ _ => .read rfl
  have hF : (effects C).Keeps fun _ => True := fun _ _ _ _ => trivial
  refine (describes_getBranch hD _).bind fun branch =>
    ((describes_getBookableService hD _ _).post fun _ h hh => ?_).bind fun service =>
    (describes_getBranchService hD hF _ _ _).bind fun branchService =>
    (describes_getSubService hD hF _ _ _).bind fun subService => ?_
  · exact hh.imp fun _ hs => ⟨hs.1, trivial⟩
  refine Describes.bind (Ψ := fun _ _ => True) ?_ fun localDate =>
    (Describes.input (Ψ := fun _ _ => True) fun _ _ _ => trivial).bind fun searchedAt =>
    (Describes.ofExcept (Ψ := fun _ _ => True) fun _ _ _ _ => trivial).bind fun _ =>
    (describes_reads hD (confined_getWorkingHoursWindowForLocalDate _ _ _)).bind fun hours => ?_
  · cases date with
    | none => exact .throw
    | some date => exact .pure fun _ _ => trivial
  · cases hours with
    | none => exact .pure fun _ _ => trivial
    | some hours =>
      exact (describes_reads hD (.read _)).bind fun _ => (Describes.input fun _ _ _ => trivial).bind
        fun _ => .pure fun _ _ => trivial

/-- **Every commit of a request** is one of `Request.Does`. -/
theorem describes_run (E : Environment) (r : Request) :
    Describes C e (effects C) (fun h a b => r.Does E C h a b) (fun _ => True) (r.run E)
      fun _ _ => True := by
  cases r with
  | book data => exact (describes_book E data).bind fun _ => .pure fun _ _ => trivial
  | update orgId id data =>
    exact (describes_lifecycleUpdate E orgId id data).bind fun _ => .pure fun _ _ => trivial
  | delete orgId id =>
    exact (describes_lifecycleDelete E orgId id).bind fun _ => .pure fun _ _ => trivial
  | cancelPublic id =>
    exact (describes_cancelPublic E id).bind fun _ => .pure fun _ _ => trivial
  | getAvailableSlots branchId serviceId date subServiceId =>
    exact (describes_getAvailableSlots E branchId serviceId date subServiceId).bind fun _ =>
      .pure fun _ _ => trivial

end Requests

/-! ## Runs -/

/-- **The commits of a run** whose statements pass the check. -/
theorem reach_does {E : Environment} {s : Db} {requests : List Request} {c : Run}
    {P : Run → ℕ → Prop} (hP : ∀ c i, P c i → c.Meets (fun _ => C) i)
    (h : Reach P (start E s requests) c) {i : ℕ} {r : Request} (hr : requests[i]? = some r) :
    CommitsAs (fun h a b => r.Does E C h a b) (c.histOf i) := by
  let D : ℕ → List Line → Db → Db → Prop := fun i h a b =>
    ∀ r : Request, requests[i]? = some r → r.Does E C h a b
  have hD : ∀ {i r}, requests[i]? = some r → D i = fun h a b => r.Does E C h a b := by
    intro i r hr
    funext h a b
    simp [D, hr]
  have hd : ∀ i d, (calls E requests)[i]? = some d → Describes C Err.recordNotFound (effects C)
      (D i) (fun _ => True) d fun _ _ => True := by
    intro i d hd
    obtain ⟨r, hr, rfl⟩ := getElem?_calls hd
    rw [hD hr]
    exact describes_run E r
  have := (reach_describes hd hP h).2.2 i
  rwa [hD hr] at this

end PatronLoyalty.Appointments
