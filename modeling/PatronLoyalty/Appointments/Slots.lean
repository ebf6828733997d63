import PatronLoyalty.Appointments.Services
import PatronLoyalty.Txn.Alone

/-!
# Offered and bookable slots

`getAvailableSlots` lists the starts of a date that are free; `book` checks the start it is given. They
differ in three things. The list knows the appointments of the branch's date, the check those of the
server's calendar day; the list takes the opening hours of the date, the check those of the start's own
date; and the check has a limit in advance for every start, the list one for the date.

Headline: **`slots_agree_iff`**, the two agree on a date exactly if these differences come to nothing.
`slots_agree` is a case: a constant offset of the zone, the server in the same zone, and hours that end
by midnight.
-/

namespace PatronLoyalty.Appointments

open Txn
open Loyalty (Id Err truthy)
open Crm (normalizeSmsRecipient)

/-! ## The rows of a request -/

/-- What both requests read of the branch and the service. -/
structure Setting where
  branch : Branch
  service : Service
  branchService : BranchService
  subService : Option SubService

/-- They find these rows. -/
structure Setting.Found (S : Setting) (s : Db) (branchId serviceId : Id) (subServiceId : Option Id) :
    Prop where
  branch : s.get .branch branchId = some S.branch
  service : s.get .service serviceId = some S.service
  orgId : S.service.orgId = S.branch.orgId
  isActive : S.service.isActive = true
  appointmentEnabled : S.service.appointmentEnabled = true
  branchService : (seen (.tenant S.branch.orgId) .branchService (fun _ (r : BranchService) =>
    r.branchId == branchId && r.serviceId == serviceId) s).head?.map (·.2) = some S.branchService
  offered : S.branchService.isActive = true
  subService : match subServiceId with
    | none => S.subService = none
    | some id => ((s.get .subService id).filter fun (r : SubService) =>
        visible (.tenant S.branch.orgId) s .subService r && (r.serviceId == serviceId && r.isActive)) =
      S.subService ∧ S.subService.isSome = true

namespace Setting

def zone (S : Setting) (E : Environment) : Zone := normalizeTimeZone E S.branch.timezone

def durationMinutes (S : Setting) : ℤ :=
  resolveAppointmentDurationMinutes S.service S.branchService.customServiceEstimateLowMinutes
    S.branchService.customServiceEstimateHighMinutes (S.subService.bind (·.durationMinutes))

def slotIntervalMinutes (S : Setting) : ℤ :=
  (S.service.appointmentSlotInterval.map fun n : ℕ+ => (n : ℤ)).getD S.durationMinutes

def hours (S : Setting) (s : Db) (branchId : Id) (localDate : LocalDate) :
    Option BranchHoursWindow :=
  match (seen (.tenant S.branch.orgId) .dateOverride (fun _ (r : BranchDateOverride) =>
      r.branchId == branchId && r.date == localDate) s).head?.map (·.2) with
  | some dateOverride => dateOverride.window
  | none => (((seen (.tenant S.branch.orgId) .workingHours (fun _ (r : WorkingHours) =>
      r.branchId == branchId && r.dayOfWeek == toSchemaDayOfWeekFromIsoDate localDate)
        s).head?.map (·.2)).map (·.window)).filter fun w => !w.isClosed

end Setting

variable {E : Environment} {S : Setting} {s : Db} {branchId serviceId : Id}
  {subServiceId : Option Id} {localDate : LocalDate} {now : ℕ} {t : Instant} {env : Env} {n : ℕ}
  {w : BranchHoursWindow} {X : Err → Prop} {data : AppointmentBookingInput} {email number : String}

theorem Setting.hours_isClosed (h : S.hours s branchId localDate = some w) :
    w.isClosed = false := by
  unfold Setting.hours at h
  split at h
  · rename_i o _
    unfold BranchDateOverride.window at h
    split at h
    · rename_i hc _ _
      cases h
      exact hc
    · cases h
  · simpa using (Option.filter_eq_some_iff.mp h).2

/-! ## What the queries answer -/

section Queries

variable {α β : Type}

theorem eval_query {q : ATx α} {f : α → ACall β} {a : α} {m : ℕ}
    (h : q.eval env n [] s = (.ok (a, []), m)) :
    ((withTenant q).bind f).eval env n s = (f a).eval env m s :=
  Call.eval_bind_ok (Call.eval_readTx h)

theorem eval_findById {scope : Scope} {k : Kind} {id : Id} {p : Row k → Bool} :
    (findById scope k id p).eval env n [] s =
      (.ok ((s.get k id).filter fun r => visible scope s k r && p r, []), n) := by
  simp [findById]

theorem eval_findUnique {scope : Scope} {k : Kind} {p : Row k → Bool} :
    (findUnique scope k p).eval env n [] s =
      (.ok ((seen scope k (fun _ => p) s).head?.map (·.2), []), n) := by
  simp [findUnique]

theorem eval_getBranch (hf : S.Found s branchId serviceId subServiceId) :
    (getBranch branchId).eval env n s = ⟨.ok S.branch, s, [], n⟩ := by
  have hrow : ((s.get .branch branchId).filter fun r => visible (.bare true) s .branch r && true) =
      some S.branch := Option.filter_eq_some_iff.mpr ⟨hf.branch, by simp [visible, gone]⟩
  unfold getBranch
  rw [Call.bind_eq, eval_query eval_findById, hrow]
  rfl

theorem eval_getBookableService (hf : S.Found s branchId serviceId subServiceId) :
    (getBookableService S.branch.orgId serviceId).eval env n s = ⟨.ok S.service, s, [], n⟩ := by
  have hrow : ((s.get .service serviceId).filter fun (r : Service) =>
      visible (.tenant S.branch.orgId) s .service r &&
        (r.orgId == S.branch.orgId && r.isActive && r.appointmentEnabled)) = some S.service :=
    Option.filter_eq_some_iff.mpr ⟨hf.service, by
      simp [visible, gone, orgOf, hf.orgId, hf.isActive, hf.appointmentEnabled]⟩
  unfold getBookableService
  rw [Call.bind_eq, eval_query eval_findById, hrow]
  rfl

theorem eval_getBranchService (hf : S.Found s branchId serviceId subServiceId) :
    (getBranchService S.branch.orgId branchId serviceId).eval env n s =
      ⟨.ok S.branchService, s, [], n⟩ := by
  unfold getBranchService
  rw [Call.bind_eq, eval_query eval_findUnique, hf.branchService]
  dsimp only
  rw [if_pos hf.offered]
  rfl

theorem eval_getSubService (hf : S.Found s branchId serviceId subServiceId) :
    (getSubService S.branch.orgId serviceId subServiceId).eval env n s =
      ⟨.ok S.subService, s, [], n⟩ := by
  have hsub := hf.subService
  cases subServiceId with
  | none =>
    rw [hsub]
    rfl
  | some id =>
    obtain ⟨hsub, hsome⟩ := hsub
    obtain ⟨r, hr⟩ := Option.isSome_iff_exists.mp hsome
    rw [hr] at hsub ⊢
    change (Call.bind _ _).eval env n s = _
    rw [eval_query eval_findById, hsub]
    rfl

theorem eval_getWorkingHoursWindowForLocalDate :
    (getWorkingHoursWindowForLocalDate S.branch.orgId branchId localDate).eval env n [] s =
      (.ok (S.hours s branchId localDate, []), n) := by
  unfold getWorkingHoursWindowForLocalDate Setting.hours
  rw [Tx.bind_eq, Tx.eval_bind, eval_findUnique]
  dsimp only
  generalize Option.map _ (List.head? (seen _ .dateOverride _ s)) = o
  cases o with
  | some o => rfl
  | none =>
    dsimp only
    rw [Tx.bind_eq, Tx.eval_bind, eval_findUnique]
    rfl

end Queries

/-! ## The two checks -/

/-- The candidate at `t` overlaps the appointment, with the buffer of the service on either. -/
def Setting.overlaps (S : Setting) (t : Instant) (a : Appointment) : Bool :=
  intervalsOverlap t
    (t + (S.durationMinutes + S.service.appointmentBufferMinutes) * minuteMs) a.scheduledAt
    (appointmentEnd a S.service.appointmentBufferMinutes)

/-- The opening hours of the date admit a start at `t`. -/
def Setting.Admits (S : Setting) (E : Environment) (s : Db) (branchId : Id) (localDate : LocalDate)
    (t : Instant) : Prop :=
  evaluateAppointmentSlotAgainstWindow t S.durationMinutes (S.zone E) (S.hours s branchId localDate)
    localDate = .opened

/-- The start is taken by an appointment of the time span, of those the scope sees. -/
def Setting.Taken (S : Setting) (s : Db) (branchId serviceId : Id) (scope : Scope)
    (first last : Instant) (t : Instant) : Prop :=
  ∃ id a, (id, a) ∈ seen scope .appointment (fun _ (a : Appointment) =>
    occupying branchId serviceId a && decide (first ≤ a.scheduledAt) &&
      decide (a.scheduledAt ≤ last)) s ∧ S.overlaps t a = true

def Setting.TakenOnDate (S : Setting) (E : Environment) (s : Db) (branchId serviceId : Id)
    (localDate : LocalDate) : Instant → Prop :=
  S.Taken s branchId serviceId (.tenant S.branch.orgId)
    (getUtcRangeForZonedDate localDate (S.zone E)).1 (getUtcRangeForZonedDate localDate (S.zone E)).2

def Setting.TakenOnDay (S : Setting) (E : Environment) (s : Db) (branchId serviceId : Id)
    (t : Instant) : Prop :=
  S.Taken s branchId serviceId (.bare E.bypassRls) (E.dayStart t) (E.dayEnd t) t

def Setting.grid (S : Setting) (E : Environment) (s : Db) (branchId : Id) (localDate : LocalDate) :
    List Instant :=
  match S.hours s branchId localDate with
  | none => []
  | some w =>
    let bounds := resolveWindowUtcBounds localDate w (S.zone E)
    cursors bounds.openAtUtc bounds.closeAtUtc (S.slotIntervalMinutes * minuteMs)

/-! ## The list -/

theorem resolveAppointmentDurationMinutes_pos (service : Service) (low high sub : Option ℤ) :
    1 ≤ resolveAppointmentDurationMinutes service low high sub := by
  unfold resolveAppointmentDurationMinutes
  split
  · rename_i d hd
    simpa using (Option.filter_eq_some_iff.mp hd).2
  · dsimp only
    split
    · rename_i h
      unfold meanRounded
      omega
    · split
      · assumption
      · omega

theorem Setting.slotIntervalMinutes_pos (S : Setting) : 1 ≤ S.slotIntervalMinutes := by
  unfold Setting.slotIntervalMinutes
  cases S.service.appointmentSlotInterval with
  | none => exact resolveAppointmentDurationMinutes_pos _ _ _ _
  | some n => exact Int.ofNat_le.mpr n.pos

theorem mem_cursors {openAt closeAt step : ℤ} (hs : 0 < step) :
    t ∈ cursors openAt closeAt step ↔ (∃ k : ℕ, t = openAt + k * step) ∧ t < closeAt := by
  have hlt : ∀ k : ℕ, k < ((closeAt - openAt + (step - 1)) / step).toNat ↔
      openAt + k * step < closeAt := by
    intro k
    have hdiv := Int.le_ediv_iff_mul_le (a := (k : ℤ) + 1) (b := closeAt - openAt + (step - 1)) hs
    rw [Int.add_mul, Int.one_mul] at hdiv
    omega
  unfold cursors
  simp only [List.mem_map, List.mem_range, hlt]
  constructor
  · rintro ⟨k, hk, rfl⟩
    exact ⟨⟨k, rfl⟩, hk⟩
  · rintro ⟨⟨k, rfl⟩, hk⟩
    exact ⟨k, hk, rfl⟩

theorem le_of_mem_cursors {openAt closeAt step : ℤ} (hs : 0 < step)
    (h : t ∈ cursors openAt closeAt step) : openAt ≤ t := by
  obtain ⟨⟨k, rfl⟩, -⟩ := (mem_cursors hs).mp h
  have := Int.mul_nonneg (Int.natCast_nonneg k) hs.le
  omega

/-- The time checks of the list are those of the opening hours. -/
theorem admits_iff (hw : S.hours s branchId localDate = some w)
    (ht : t ∈ S.grid E s branchId localDate) : S.Admits E s branchId localDate t ↔
      ¬ t + S.durationMinutes * minuteMs > (resolveWindowUtcBounds localDate w (S.zone E)).closeAtUtc ∧
        overlapsBreak (resolveWindowUtcBounds localDate w (S.zone E)) t
          (t + S.durationMinutes * minuteMs) = false := by
  unfold Setting.grid at ht
  rw [hw] at ht
  have hstep : 0 < S.slotIntervalMinutes * minuteMs := by
    have := S.slotIntervalMinutes_pos
    unfold minuteMs
    omega
  have hopen := le_of_mem_cursors hstep ht
  unfold Setting.Admits evaluateAppointmentSlotAgainstWindow
  rw [hw]
  simp only [S.hours_isClosed hw, Bool.false_eq_true, if_false]
  split
  · rename_i h
    simp only [reduceCtorEq, false_iff, not_and]
    intro h'
    rcases h with h | h
    · exact absurd h (not_lt.mpr hopen)
    · exact absurd h h'
  · rename_i h
    rw [not_or] at h
    split
    · rename_i hb
      simp [hb]
    · rename_i hb
      simpa [hb] using h.2

/-- What the list looks at. -/
theorem offers_iff (hw : S.hours s branchId localDate = some w)
    (ht : t ∈ S.grid E s branchId localDate) {earliest : Instant} {first last : Instant}
    {scope : Scope} :
    offers (resolveWindowUtcBounds localDate w (S.zone E)) S.durationMinutes
      S.service.appointmentBufferMinutes earliest
      ((seen scope .appointment (fun _ (a : Appointment) => occupying branchId serviceId a &&
        decide (first ≤ a.scheduledAt) && decide (a.scheduledAt ≤ last)) s).map (·.2)) t = true ↔
      earliest ≤ t ∧ S.Admits E s branchId localDate t ∧
        ¬ S.Taken s branchId serviceId scope first last t := by
  have hover : ∀ a : Appointment, intervalsOverlap t
      (t + S.durationMinutes * minuteMs + S.service.appointmentBufferMinutes * minuteMs) a.scheduledAt
      (a.scheduledAt + a.durationMinutes * minuteMs + S.service.appointmentBufferMinutes * minuteMs) =
        S.overlaps t a := by
    intro a
    unfold Setting.overlaps appointmentEnd
    rw [Int.add_mul, Int.add_mul, Int.add_assoc, Int.add_assoc]
  rw [admits_iff hw ht]
  unfold offers Setting.Taken
  simp only [hover, Bool.and_eq_true, Bool.not_eq_true', decide_eq_false_iff_not, List.any_map,
    List.any_eq_false, Function.comp_apply, Prod.forall, not_exists, not_and, not_lt]
  tauto

/-- The appointments the list looks at. -/
def Setting.existing (S : Setting) (E : Environment) (s : Db) (branchId serviceId : Id)
    (localDate : LocalDate) : List Appointment :=
  (seen (.tenant S.branch.orgId) .appointment (fun _ (a : Appointment) =>
    occupying branchId serviceId a &&
      decide ((getUtcRangeForZonedDate localDate (S.zone E)).1 ≤ a.scheduledAt) &&
      decide (a.scheduledAt ≤ (getUtcRangeForZonedDate localDate (S.zone E)).2)) s).map (·.2)

def Setting.offered (S : Setting) (bounds : WindowBounds) (existing : List Appointment)
    (now : Instant) : List Instant :=
  (cursors bounds.openAtUtc bounds.closeAtUtc (S.slotIntervalMinutes * minuteMs)).filter
    (offers bounds S.durationMinutes S.service.appointmentBufferMinutes
      (earliestAllowed now S.service.appointmentLeadTimeMinutes) existing)

/-- **The answer of the list**: the date is rejected when it is out of the limit. -/
theorem answer_getAvailableSlots (hf : S.Found s branchId serviceId subServiceId) :
    ((getAvailableSlots E branchId serviceId (some localDate) subServiceId).eval env n s).answer =
      (validateAdvanceSearchWindow (env.pick n) (getUtcRangeForZonedDate localDate (S.zone E)).2
        S.service.appointmentMaxAdvanceDays).map fun _ => (S.hours s branchId localDate).elim []
          fun w => S.offered (resolveWindowUtcBounds localDate w (S.zone E))
            (S.existing E s branchId serviceId localDate) (env.pick (n + 1)) := by
  unfold getAvailableSlots
  simp only [Call.bind_eq]
  rw [Call.eval_bind_ok (eval_getBranch hf), Call.eval_bind_ok (eval_getBookableService hf),
    Call.eval_bind_ok (eval_getBranchService hf), Call.eval_bind_ok (eval_getSubService hf),
    show requireDate (some localDate) = Call.pure localDate from rfl,
    Call.eval_bind_ok (Call.eval_pure _ _ _), Call.eval_bind_ok (Call.eval_input _ _)]
  change (((Call.ofExcept (validateAdvanceSearchWindow _
    (getUtcRangeForZonedDate localDate (S.zone E)).2 _)).bind fun _ => _).eval env
      (n + 1) s).answer = _
  cases validateAdvanceSearchWindow (env.pick n) (getUtcRangeForZonedDate localDate (S.zone E)).2
      S.service.appointmentMaxAdvanceDays with
  | error e => rfl
  | ok u =>
    rw [Call.eval_bind_ok (Call.eval_ofExcept _ _ _),
      eval_query eval_getWorkingHoursWindowForLocalDate]
    cases S.hours s branchId localDate with
    | none => rfl
    | some w =>
      dsimp only
      rw [findMany, eval_query (Tx.eval_read _ _ _ _), Call.eval_bind_ok (Call.eval_input _ _)]
      rfl

/-- The starts of the list. -/
theorem eval_getAvailableSlots (hf : S.Found s branchId serviceId subServiceId)
    (hnow : ∀ m, env.pick m = now) (slots : List Instant) :
    ((getAvailableSlots E branchId serviceId (some localDate) subServiceId).eval env n
      s).answer = .ok slots → ∀ t, t ∈ slots ↔ t ∈ S.grid E s branchId localDate ∧
        earliestAllowed now S.service.appointmentLeadTimeMinutes ≤ t ∧
        S.Admits E s branchId localDate t ∧
        ¬ S.TakenOnDate E s branchId serviceId localDate t := by
  rw [answer_getAvailableSlots hf, hnow, hnow]
  cases validateAdvanceSearchWindow now (getUtcRangeForZonedDate localDate (S.zone E)).2
      S.service.appointmentMaxAdvanceDays with
  | error e => exact fun h => by cases h
  | ok u =>
    cases hw : S.hours s branchId localDate with
    | none =>
      intro h
      cases h
      simp [Setting.grid, hw]
    | some w =>
      intro h t
      cases h
      have hgrid : t ∈ S.grid E s branchId localDate ↔ t ∈ cursors
          (resolveWindowUtcBounds localDate w (S.zone E)).openAtUtc
          (resolveWindowUtcBounds localDate w (S.zone E)).closeAtUtc
          (S.slotIntervalMinutes * minuteMs) := by
        unfold Setting.grid
        rw [hw]
      dsimp only [Option.elim]
      rw [Setting.offered, List.mem_filter, ← hgrid]
      exact and_congr_right fun ht => offers_iff hw ht

/-! ## The check -/

/-- How `book` refuses a start: its time checks and its overlap check. -/
def slotRefusals : List Err :=
  [.badRequest "This appointment time is too soon to book",
    .badRequest "This appointment time is outside the advance booking window",
    .conflict "Selected time slot is no longer available"] ++
  [BranchAvailabilityReason.closedDay, .outsideHours, .duringBreak, .noSchedule].filterMap
    fun reason => (slotMessage reason).map .badRequest

/-- **The booking passes** the time checks and the overlap check at the time `now`, whatever else is
drawn for it. -/
def Passes (E : Environment) (s : Db) (now : ℕ) (data : AppointmentBookingInput) : Prop :=
  ∀ env : Env, env.pick 0 = now → ∀ e, ((book E data).eval env 0 s).answer = .error e →
    e ∉ slotRefusals

/-- Nothing but its start stands against the booking. -/
structure AppointmentBookingInput.Complete (data : AppointmentBookingInput) (email number : String) :
    Prop where
  email : truthy data.customerEmail = some email
  phone : truthy data.customerPhone = some number
  sms : data.transactionalSmsAllowed = some true → (normalizeSmsRecipient number).isSome = true

theorem throws_create {scope : Scope} {k : Kind} {r : Row k}
    (hpolicy : X (.database "new row violates row-level security policy"))
    (hdup : X .uniqueViolation) : (create scope k r).Throws X := by
  refine Tx.throws_bind ?_ fun _ => Tx.throws_bind (fun _ => trivial) fun id =>
    Tx.throws_bind (Rel.throws_insert hdup) fun _ => trivial
  unfold checkPolicy
  split
  · trivial
  · exact hpolicy

theorem throws_recordConsent {consent : Option Bool} {entry : ConsentLedgerEntry}
    (hdup : X .uniqueViolation) : (recordConsent consent entry).Throws X := by
  unfold recordConsent
  split
  · exact Rel.throws_insertLog hdup
  · trivial

theorem throws_upsertBookingCustomer {orgId : Id} {phone : Option String}
    (hpolicy : X (.database "new row violates row-level security policy"))
    (hdup : X .uniqueViolation) (hmiss : X .recordNotFound) :
    (upsertBookingCustomer E orgId data email phone).Throws X := by
  have hrest : ∀ (o : Option (Id × Customer)) (f : ℕ → Customer → Customer) (g : ℕ → Customer),
      (Tx.now.bind fun now => match o with
        | some (id, _) => (updateCustomer id (f now)).bind fun _ => Tx.pure id
        | none => create (.bare E.bypassRls) .customer (g now)).Throws X := by
    intro o f g
    refine Tx.throws_bind (fun _ => trivial) fun now => ?_
    cases o with
    | some r =>
      exact Tx.throws_bind (Rel.throws_modify hmiss hdup fun _ _ h => by cases h) fun _ => trivial
    | none => exact throws_create hpolicy hdup
  unfold upsertBookingCustomer
  cases phone with
  | none => exact Tx.throws_bind (fun _ => Tx.throws_read _) fun o => hrest o _ _
  | some phone => exact Tx.throws_bind (fun _ => Tx.throws_read _) fun o => hrest o _ _

theorem eval_findOverlappingAppointment {scheduledAt : Instant} :
    ∃ o, (findOverlappingAppointment E branchId serviceId scheduledAt S.durationMinutes
        S.service.appointmentBufferMinutes).eval env n [] s = (.ok (o, []), n) ∧
      (o.isSome = true ↔ S.TakenOnDay E s branchId serviceId scheduledAt) := by
  refine ⟨_, rfl, ?_⟩
  rw [List.find?_isSome]
  unfold Setting.TakenOnDay Setting.Taken Setting.overlaps
  simp only [Prod.exists]
  rfl

/-- **The booking transaction** refuses a start that is taken, and only such a one. -/
theorem eval_bookTx {phone : Option String} {scheduledAt : Instant} :
    (S.TakenOnDay E s data.branchId data.serviceId scheduledAt →
      ((withTenant (bookTx E S.branch S.service data email phone scheduledAt
        S.durationMinutes)).eval env n s).answer =
          .error (.conflict "Selected time slot is no longer available")) ∧
    (¬ S.TakenOnDay E s data.branchId data.serviceId scheduledAt → ∀ e,
      ((withTenant (bookTx E S.branch S.service data email phone scheduledAt
        S.durationMinutes)).eval env n s).answer = .error e → e ∉ slotRefusals) := by
  obtain ⟨o, ho, htaken⟩ := @eval_findOverlappingAppointment E S s data.branchId data.serviceId env n
    scheduledAt
  have hbody : ∀ f : Option (Id × Appointment) → ATx (Id × Appointment),
      ((findOverlappingAppointment E data.branchId data.serviceId scheduledAt S.durationMinutes
        S.service.appointmentBufferMinutes).bind f).eval env n [] s = (f o).eval env n [] s := by
    intro f
    rw [Tx.eval_bind, ho]
  constructor
  · intro ht
    have hbook : (bookTx E S.branch S.service data email phone scheduledAt
        S.durationMinutes).eval env n [] s =
          (.error (.conflict "Selected time slot is no longer available"), n) := by
      unfold bookTx
      rw [Tx.bind_eq, hbody, if_pos (htaken.mpr ht)]
      rfl
    unfold withTenant Call.withTx Call.eval
    rw [hbook]
    rfl
  · intro ht e he
    obtain ⟨m, he⟩ := Call.eval_withTx_error he
    unfold bookTx at he
    rw [Tx.bind_eq, hbody, if_neg (fun h => ht (htaken.mp h))] at he
    refine Tx.eval_throws (X := fun e => e ∉ slotRefusals) ?_ he
    refine Tx.throws_bind (throws_upsertBookingCustomer ?_ ?_ ?_) fun customerId =>
      Tx.throws_bind (throws_recordConsent ?_) fun _ =>
      Tx.throws_bind (throws_recordConsent ?_) fun _ =>
      Tx.throws_bind (throws_create ?_ ?_) fun id => trivial
    all_goals decide

theorem eval_assertAppointmentSlotWithinWorkingHours :
    (assertAppointmentSlotWithinWorkingHours S.branch.orgId branchId (S.zone E) t
      S.durationMinutes).eval env n s =
        match slotMessage (evaluateAppointmentSlotAgainstWindow t S.durationMinutes (S.zone E)
          (S.hours s branchId (getDateKeyInTimeZone t (S.zone E)))
          (getDateKeyInTimeZone t (S.zone E))) with
        | none => ⟨.ok (), s, [], n⟩
        | some message => ⟨.error (.badRequest message), s, [], n⟩ := by
  unfold assertAppointmentSlotWithinWorkingHours
  rw [Call.bind_eq, eval_query eval_getWorkingHoursWindowForLocalDate]
  generalize evaluateAppointmentSlotAgainstWindow t _ _ _ _ = reason
  cases reason with
  | opened | closedDay | outsideHours | duringBreak | noSchedule => rfl

/-- **The checks of a booking**, one after the other, up to its transaction. -/
theorem eval_book (hf : S.Found s data.branchId data.serviceId data.subServiceId)
    (hc : data.Complete email number) (ht : data.scheduledAt = some t) (hnow : env.pick 0 = now) :
    ((book E data).eval env 0 s).answer =
      (((Call.ofExcept (validateAdvanceWindow now t S.service.appointmentLeadTimeMinutes
        S.service.appointmentMaxAdvanceDays)).bind fun _ =>
        (assertAppointmentSlotWithinWorkingHours S.branch.orgId data.branchId (S.zone E) t
          S.durationMinutes).bind fun _ =>
        withTenant (bookTx E S.branch S.service data email (normalizeSmsRecipient number) t
          S.durationMinutes)).eval env 1 s).answer := by
  have hsms : (data.transactionalSmsAllowed == some true &&
      (normalizeSmsRecipient number).isNone) = false := by
    by_cases hs : data.transactionalSmsAllowed = some true
    · have := hc.sms hs
      simp [Option.isNone_eq_false_iff.mpr this]
    · simp [hs]
  unfold book
  simp only [Call.bind_eq]
  rw [Call.eval_bind_ok (eval_getBranch hf), Call.eval_bind_ok (eval_getBookableService hf),
    Call.eval_bind_ok (eval_getBranchService hf)]
  unfold requireText
  rw [hc.email, hc.phone]
  dsimp only
  rw [Call.pure_eq, Call.eval_bind_ok (Call.eval_pure _ _ _), Call.pure_eq,
    Call.eval_bind_ok (Call.eval_pure _ _ _), Call.eval_bind_ok (eval_getSubService hf), ht]
  rw [show requireInstant (some t) = Call.pure t from rfl,
    Call.eval_bind_ok (Call.eval_pure _ _ _), Call.eval_bind_ok (Call.eval_input _ _), hnow, hsms]
  rfl

theorem mem_slotRefusals {reason : BranchAvailabilityReason} {message : String}
    (h : slotMessage reason = some message) : .badRequest message ∈ slotRefusals := by
  refine List.mem_append_right _ (List.mem_filterMap.mpr ⟨reason, ?_, by rw [h]; rfl⟩)
  cases reason <;> simp [slotMessage] at h ⊢

theorem exists_slotMessage {reason : BranchAvailabilityReason} (h : reason ≠ .opened) :
    ∃ message, slotMessage reason = some message := by
  cases reason with
  | opened => exact absurd rfl h
  | closedDay | outsideHours | duringBreak | noSchedule => exact ⟨_, rfl⟩

/-- **What the check looks at.** -/
theorem passes_iff (hf : S.Found s data.branchId data.serviceId data.subServiceId)
    (hc : data.Complete email number) (ht : data.scheduledAt = some t) :
    Passes E s now data ↔ earliestAllowed now S.service.appointmentLeadTimeMinutes ≤ t ∧
      t ≤ latestAllowed now S.service.appointmentMaxAdvanceDays ∧
      S.Admits E s data.branchId (getDateKeyInTimeZone t (S.zone E)) t ∧
      ¬ S.TakenOnDay E s data.branchId data.serviceId t := by
  have refused : ∀ e ∈ slotRefusals,
      ((book E data).eval ⟨fun _ => now, now⟩ 0 s).answer = .error e → ¬ Passes E s now data :=
    fun e he h hp => hp ⟨fun _ => now, now⟩ rfl e h he
  by_cases hearly : earliestAllowed now S.service.appointmentLeadTimeMinutes ≤ t
  · by_cases hlate : t ≤ latestAllowed now S.service.appointmentMaxAdvanceDays
    · have hadvance : validateAdvanceWindow now t S.service.appointmentLeadTimeMinutes
          S.service.appointmentMaxAdvanceDays = .ok () := by
        unfold validateAdvanceWindow
        rw [if_neg (not_lt.mpr hearly), if_neg (not_lt.mpr hlate)]
      by_cases hopen : S.Admits E s data.branchId (getDateKeyInTimeZone t (S.zone E)) t
      · have heval : ∀ env : Env, env.pick 0 = now → ((book E data).eval env 0 s).answer =
            ((withTenant (bookTx E S.branch S.service data email (normalizeSmsRecipient number) t
              S.durationMinutes)).eval env 1 s).answer := by
          intro env hnow
          have hin : (assertAppointmentSlotWithinWorkingHours S.branch.orgId data.branchId
              (S.zone E) t S.durationMinutes).eval env 1 s = ⟨.ok (), s, [], 1⟩ := by
            rw [eval_assertAppointmentSlotWithinWorkingHours, hopen]
            rfl
          rw [eval_book hf hc ht hnow, hadvance, Call.eval_bind_ok (Call.eval_ofExcept _ _ _),
            Call.eval_bind_ok hin]
        by_cases htaken : S.TakenOnDay E s data.branchId data.serviceId t
        · refine iff_of_false (refused (.conflict "Selected time slot is no longer available")
            (by simp [slotRefusals]) ?_) fun h => h.2.2.2 htaken
          rw [heval _ rfl]
          exact eval_bookTx.1 htaken
        · refine iff_of_true (fun env hnow e he => ?_) ⟨hearly, hlate, hopen, htaken⟩
          rw [heval env hnow] at he
          exact eval_bookTx.2 htaken e he
      · obtain ⟨message, hmessage⟩ := exists_slotMessage hopen
        refine iff_of_false (refused _ (mem_slotRefusals hmessage) ?_) fun h => hopen h.2.2.1
        rw [eval_book hf hc ht rfl, hadvance, Call.eval_bind_ok (Call.eval_ofExcept _ _ _),
          Call.eval_bind, eval_assertAppointmentSlotWithinWorkingHours, hmessage]
        rfl
    · refine iff_of_false (refused (.badRequest
        "This appointment time is outside the advance booking window") (by simp [slotRefusals]) ?_)
        fun h => hlate h.2.1
      rw [eval_book hf hc ht rfl]
      unfold validateAdvanceWindow
      rw [if_neg (not_lt.mpr hearly), if_pos (not_le.mp hlate)]
      rfl
  · refine iff_of_false (refused (.badRequest "This appointment time is too soon to book")
      (by simp [slotRefusals]) ?_) fun h => hearly h.1
    rw [eval_book hf hc ht rfl]
    unfold validateAdvanceWindow
    rw [if_pos (not_le.mp hearly)]
    rfl

/-- The same, of a booking that is given its start. -/
theorem passes_at (hf : S.Found s data.branchId data.serviceId data.subServiceId)
    (hc : data.Complete email number) (t : Instant) :
    Passes E s now { data with scheduledAt := some t } ↔
      earliestAllowed now S.service.appointmentLeadTimeMinutes ≤ t ∧
      t ≤ latestAllowed now S.service.appointmentMaxAdvanceDays ∧
      S.Admits E s data.branchId (getDateKeyInTimeZone t (S.zone E)) t ∧
      ¬ S.TakenOnDay E s data.branchId data.serviceId t := by
  have ht : ({ data with scheduledAt := some t } : AppointmentBookingInput).scheduledAt = some t :=
    rfl
  exact passes_iff hf ⟨hc.email, hc.phone, hc.sms⟩ ht

/-! ## Agreement -/

/-- The check has nothing against the time of the start. -/
def Setting.Bookable (S : Setting) (E : Environment) (s : Db) (branchId : Id) (now : ℕ)
    (t : Instant) : Prop :=
  t ≤ latestAllowed now S.service.appointmentMaxAdvanceDays ∧
    S.Admits E s branchId (getDateKeyInTimeZone t (S.zone E)) t

/-- **The differences come to nothing** at the start. -/
structure Setting.AgreesAt (S : Setting) (E : Environment) (s : Db) (branchId serviceId : Id)
    (localDate : LocalDate) (now : ℕ) (t : Instant) : Prop where
  /-- Where both have nothing against the time, the appointments of the date and those of the server's
  day give the same answer. -/
  both : S.Admits E s branchId localDate t → S.Bookable E s branchId now t →
    (S.TakenOnDate E s branchId serviceId localDate t ↔ S.TakenOnDay E s branchId serviceId t)
  /-- Where only the list has nothing against the time, the start is taken for it. -/
  listed : S.Admits E s branchId localDate t → ¬ S.Bookable E s branchId now t →
    S.TakenOnDate E s branchId serviceId localDate t
  /-- Where only the check has nothing against the time, the start is taken for it. -/
  checked : ¬ S.Admits E s branchId localDate t → S.Bookable E s branchId now t →
    S.TakenOnDay E s branchId serviceId t

/-- **The list and the check agree** on a date exactly if their differences come to nothing at every
start of its grid that is not too soon. -/
theorem slots_agree_iff {data : AppointmentBookingInput} {email number : String}
    {slots : List Instant} (hf : S.Found s data.branchId data.serviceId data.subServiceId)
    (hc : data.Complete email number)
    (hs : ((getAvailableSlots E data.branchId data.serviceId (some localDate)
      data.subServiceId).eval ⟨fun _ => now, now⟩ 0 s).answer = .ok slots) :
    (∀ t ∈ S.grid E s data.branchId localDate,
      (t ∈ slots ↔ Passes E s now { data with scheduledAt := some t })) ↔
    ∀ t ∈ S.grid E s data.branchId localDate,
      earliestAllowed now S.service.appointmentLeadTimeMinutes ≤ t →
      S.AgreesAt E s data.branchId data.serviceId localDate now t := by
  have hmem := eval_getAvailableSlots hf (fun _ => rfl) slots hs
  refine forall₂_congr fun t ht => ?_
  rw [hmem t, passes_at hf hc t]
  constructor
  · intro h hearly
    refine ⟨fun ha hb => not_iff_not.mp ?_, fun ha hb => ?_, fun ha hb => ?_⟩
    · exact ⟨fun hx => (h.mp ⟨ht, hearly, ha, hx⟩).2.2.2,
        fun hx => (h.mpr ⟨hearly, hb.1, hb.2, hx⟩).2.2.2⟩
    · by_contra hx
      have := h.mp ⟨ht, hearly, ha, hx⟩
      exact hb ⟨this.2.1, this.2.2.1⟩
    · by_contra hx
      exact ha (h.mpr ⟨hearly, hb.1, hb.2, hx⟩).2.2.1
  · intro h
    constructor
    · rintro ⟨-, hearly, ha, hx⟩
      have hagree := h hearly
      by_cases hb : S.Bookable E s data.branchId now t
      · exact ⟨hearly, hb.1, hb.2, fun hy => hx ((hagree.both ha hb).mpr hy)⟩
      · exact absurd (hagree.listed ha hb) hx
    · rintro ⟨hearly, hlate, hown, hy⟩
      have hagree := h hearly
      by_cases ha : S.Admits E s data.branchId localDate t
      · exact ⟨ht, hearly, ha, fun hx => hy ((hagree.both ha ⟨hlate, hown⟩).mp hx)⟩
      · exact absurd (hagree.checked ha ⟨hlate, hown⟩) hy

/-! ## The server in the branch's zone -/

/-- The zone is `minutes` ahead of UTC all year, the server keeps the branch's days and sees its
appointments, and the hours end by midnight. -/
structure Setting.Aligned (S : Setting) (E : Environment) (s : Db) (branchId : Id) (minutes : ℤ) :
    Prop where
  offset (t : Instant) : (S.zone E).offset t = minutes * minuteMs
  dayStart (t : Instant) : E.dayStart t = getDateKeyInTimeZone t (S.zone E) * dayMs - minutes * minuteMs
  dayEnd (t : Instant) : E.dayEnd t = E.dayStart t + (dayMs - 1)
  sees : E.bypassRls = true
  orgId {id : Id} {a : Appointment} : s.get .appointment id = some a → a.branchId = branchId →
    a.orgId = S.branch.orgId
  closeTime {localDate : LocalDate} {w : BranchHoursWindow} :
    S.hours s branchId localDate = some w → w.closeTime ≤ 1440

namespace Setting.Aligned

variable {minutes : ℤ} (ha : S.Aligned E s branchId minutes)
include ha

/-- The seconds of the wall clock do not matter. -/
theorem getTimeZoneOffsetMinutes_eq (t : Instant) :
    getTimeZoneOffsetMinutes t (S.zone E) = minutes := by
  unfold getTimeZoneOffsetMinutes Zone.wall
  rw [ha.offset]
  unfold minuteMs
  dsimp only
  omega

theorem zonedDateTimeToUtc_eq (date : LocalDate) (time : TimeOfDay) :
    zonedDateTimeToUtc date time (S.zone E) =
      date * dayMs + time * minuteMs - minutes * minuteMs := by
  unfold zonedDateTimeToUtc
  simp only [ha.getTimeZoneOffsetMinutes_eq]

theorem getUtcRange_eq (date : LocalDate) :
    (getUtcRangeForZonedDate date (S.zone E)).1 = date * dayMs - minutes * minuteMs ∧
      (getUtcRangeForZonedDate date (S.zone E)).2 =
        date * dayMs - minutes * minuteMs + (dayMs - 1) := by
  unfold getUtcRangeForZonedDate
  simp only [ha.zonedDateTimeToUtc_eq]
  unfold minuteMs dayMs
  constructor
  · change (_ : ℤ) = _
    omega
  · change (_ : ℤ) = _
    omega

theorem getDateKey_of_grid (ht : t ∈ S.grid E s branchId localDate) :
    getDateKeyInTimeZone t (S.zone E) = localDate := by
  unfold Setting.grid at ht
  have hstep : 0 < S.slotIntervalMinutes * minuteMs := by
    have := S.slotIntervalMinutes_pos
    unfold minuteMs
    omega
  cases hw : S.hours s branchId localDate with
  | none =>
    rw [hw] at ht
    cases ht
  | some w =>
    rw [hw] at ht
    have hopen : localDate * dayMs + w.openTime * minuteMs - minutes * minuteMs ≤ (t : ℤ) := by
      rw [← ha.zonedDateTimeToUtc_eq]
      exact le_of_mem_cursors hstep ht
    have hclose : (t : ℤ) < localDate * dayMs + w.closeTime * minuteMs - minutes * minuteMs := by
      rw [← ha.zonedDateTimeToUtc_eq]
      exact ((mem_cursors hstep).mp ht).2
    have hmidnight : (w.closeTime : ℤ) ≤ 1440 := Int.ofNat_le.mpr (ha.closeTime hw)
    have hmorning : (0 : ℤ) ≤ w.openTime := Int.natCast_nonneg _
    unfold getDateKeyInTimeZone Zone.wall
    rw [ha.offset]
    unfold minuteMs dayMs at *
    change @Eq ℤ _ _
    change @LE.le ℤ _ _ _ at hopen
    change @LT.lt ℤ _ _ _ at hclose
    omega

theorem takenOnDate_iff (ht : getDateKeyInTimeZone t (S.zone E) = localDate) :
    S.TakenOnDate E s branchId serviceId localDate t ↔ S.TakenOnDay E s branchId serviceId t := by
  obtain ⟨hstart, hend⟩ := ha.getUtcRange_eq localDate
  rw [← ht, ← ha.dayStart] at hstart
  rw [← ht] at hend
  have hlast : getDateKeyInTimeZone t (S.zone E) * dayMs - minutes * minuteMs + (dayMs - 1) =
      E.dayEnd t := by
    rw [ha.dayEnd, ha.dayStart]
  unfold Setting.TakenOnDate Setting.TakenOnDay Setting.Taken
  rw [ht] at hstart hend hlast
  rw [hstart, hend, hlast]
  refine exists_congr fun id => exists_congr fun a => and_congr_left fun _ => ?_
  rw [seen, seen, Rel.mem_rows, Rel.mem_rows]
  refine and_congr_right fun hget => ?_
  by_cases hb : a.branchId = branchId
  · simp [visible, orgOf, gone, ha.sees, ha.orgId hget hb]
  · simp [occupying, hb]

end Setting.Aligned

/-- **They agree** when the server keeps the branch's days. -/
theorem slots_agree {minutes : ℤ} (ha : S.Aligned E s branchId minutes)
    (hd : (getUtcRangeForZonedDate localDate (S.zone E)).2 ≤
      latestAllowed now S.service.appointmentMaxAdvanceDays)
    (ht : t ∈ S.grid E s branchId localDate) :
    S.AgreesAt E s branchId serviceId localDate now t := by
  have hdate := ha.getDateKey_of_grid ht
  have hbookable : S.Bookable E s branchId now t ↔ S.Admits E s branchId localDate t := by
    unfold Setting.Bookable
    rw [hdate]
    refine and_iff_right (le_trans ?_ hd)
    rw [(ha.getUtcRange_eq localDate).2, ← hdate]
    unfold getDateKeyInTimeZone Zone.wall
    rw [ha.offset]
    unfold minuteMs dayMs
    change @LE.le ℤ _ _ _
    omega
  refine ⟨fun _ _ => ha.takenOnDate_iff hdate, fun h hn => ?_, fun h hn => ?_⟩
  · exact absurd (hbookable.mpr h) hn
  · exact absurd (hbookable.mp hn) h

/-! ## The server ahead of the branch -/

def serverAhead : Environment :=
  { server with
    dayStart := fun t => (t + 18000000) / dayMs * dayMs - 18000000
    dayEnd := fun t => (t + 18000000) / dayMs * dayMs - 18000000 + (dayMs - 1) }

def clinicSetting : Setting where
  branch := { orgId := 1 }
  service := { orgId := 1, durationMinutes := 60, queueEnabled := false, appointmentEnabled := true
               appointmentLeadTimeMinutes := 0 }
  branchService := { branchId := 1, serviceId := 1 }
  subService := none

theorem clinicSetting_found (l : List (Id × Appointment)) :
    clinicSetting.Found (clinic l) 1 1 none where
  branch := rfl
  service := rfl
  orgId := rfl
  isActive := rfl
  appointmentEnabled := rfl
  branchService := rfl
  offered := rfl
  subService := rfl

def clinicBooking : AppointmentBookingInput :=
  { branchId := 1, serviceId := 1, customerName := "Ada", customerEmail := some "a@example.com"
    customerPhone := some "+15550001234", scheduledAt := none }

theorem clinicBooking_complete : clinicBooking.Complete "a@example.com" "+15550001234" where
  email := by decide
  phone := by decide
  sms := by simp [clinicBooking]

def halfPastSix : Db := clinic [(7, anHour .confirmed 66600000)]

/-- **A start that is not offered passes the check.** At seven the server's next day begins: the
appointment at half past six takes the start away from the list, and is not seen by the check. -/
theorem seven_passes_unoffered : ∃ slots,
    ((getAvailableSlots serverAhead 1 1 (some 0) none).eval ⟨fun _ => 0, 0⟩ 0
      halfPastSix).answer = .ok slots ∧
    ¬ ∀ t ∈ clinicSetting.grid serverAhead halfPastSix 1 0,
      (t ∈ slots ↔ Passes serverAhead halfPastSix 0 { clinicBooking with scheduledAt := some t }) := by
  have hlist : (((getAvailableSlots serverAhead 1 1 (some 0) none).eval ⟨fun _ => 0, 0⟩ 0
      halfPastSix).answer.toOption.any fun l => !l.contains 68400000) = true := by decide +kernel
  obtain ⟨slots, hslots, hnot⟩ := (Option.any_eq_true _ _).mp hlist
  have hpasses : Passes serverAhead halfPastSix 0
      { clinicBooking with scheduledAt := some 68400000 } := by
    refine (passes_at (clinicSetting_found _) clinicBooking_complete 68400000).mpr
      ⟨by decide, by decide, ?_, ?_⟩
    · unfold Setting.Admits
      decide +kernel
    · rintro ⟨id, a, hm, -⟩
      have hnone : seen (.bare serverAhead.bypassRls) .appointment (fun _ (a : Appointment) =>
          occupying 1 1 a && decide (serverAhead.dayStart 68400000 ≤ a.scheduledAt) &&
            decide (a.scheduledAt ≤ serverAhead.dayEnd 68400000)) halfPastSix = [] := by
        decide +kernel
      have hm' := hnone ▸ hm
      cases hm'
  refine ⟨slots, ?_, fun h => ?_⟩
  · cases hanswer : ((getAvailableSlots serverAhead 1 1 (some 0) none).eval ⟨fun _ => 0, 0⟩ 0
        halfPastSix).answer with
    | error e => simp [hanswer, Except.toOption] at hslots
    | ok l => simpa [hanswer, Except.toOption] using hslots
  · have hgrid : (68400000 : ℤ) ∈ clinicSetting.grid serverAhead halfPastSix 1 0 := by
      decide +kernel
    simp [(h _ hgrid).mpr hpasses] at hnot

theorem clinic_aligned : clinicSetting.Aligned server halfPastSix 1 0 where
  offset _ := rfl
  dayStart t := by
    change t / dayMs * dayMs = (t + 0) / dayMs * dayMs - 0 * minuteMs
    rw [Int.add_zero, Int.zero_mul, Int.sub_zero]
  dayEnd _ := rfl
  sees := rfl
  orgId {id a} h _ := by
    by_cases hid : id = 7
    · subst hid
      cases h
      rfl
    · have hnone : halfPastSix.get .appointment id = none :=
        lookup_table_eq_none (k := .appointment) (by simpa using hid)
      cases hnone.symm.trans h
  closeTime {localDate w} h := by
    unfold Setting.hours at h
    split at h
    · rename_i o ho
      cases ho
    · obtain ⟨row, hrow, hw⟩ := Option.map_eq_some_iff.mp (Option.filter_eq_some_iff.mp h).1
      obtain ⟨⟨id, r⟩, hhead, rfl⟩ := Option.map_eq_some_iff.mp hrow
      rw [seen] at hhead
      have hget := (Rel.mem_rows.mp (List.mem_of_mem_head? hhead)).1
      subst hw
      by_cases hid : id = 1
      · subst hid
        cases hget
        decide
      · have hnone : halfPastSix.get .workingHours id = none :=
          lookup_table_eq_none (k := .workingHours) (by simpa using hid)
        cases hnone.symm.trans hget

theorem slots_agree_iff_clinic : ∃ slots,
    ((getAvailableSlots server 1 1 (some 0) none).eval ⟨fun _ => 0, 0⟩ 0
      halfPastSix).answer = .ok slots ∧
    ∀ t ∈ clinicSetting.grid server halfPastSix 1 0,
      (t ∈ slots ↔ Passes server halfPastSix 0 { clinicBooking with scheduledAt := some t }) := by
  cases hanswer : ((getAvailableSlots server 1 1 (some 0) none).eval ⟨fun _ => 0, 0⟩ 0
      halfPastSix).answer with
  | error e =>
    have hok : ((getAvailableSlots server 1 1 (some 0) none).eval ⟨fun _ => 0, 0⟩ 0
        halfPastSix).answer.toBool = true := by decide +kernel
    rw [hanswer] at hok
    cases hok
  | ok slots =>
    refine ⟨slots, rfl, (slots_agree_iff (clinicSetting_found _) clinicBooking_complete
      hanswer).mpr fun t ht _ => slots_agree clinic_aligned (by decide) ht⟩

end PatronLoyalty.Appointments
