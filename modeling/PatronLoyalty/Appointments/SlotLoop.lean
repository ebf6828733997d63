import PatronLoyalty.Appointments.Slots

/-!
# The slot loop

`getAvailableSlots` moves a cursor over the opening hours, by the service's interval or else by the
length of an appointment. Four branches skip a start, and all share the increment of the loop.

Headline: **`slotLoop_free_grid`**, the loop ends and leaves the free starts of the grid, in order.
-/

namespace PatronLoyalty.Appointments

open Txn
open Loyalty (Id)

/-! ## The loop -/

structure SlotLoop where
  cursor : Instant
  slots : List Instant := []
  deriving DecidableEq, Repr

namespace Setting

def pass (S : Setting) (bounds : WindowBounds) (existing : List Appointment) (now : Instant)
    (l : SlotLoop) : SlotLoop :=
  let slotEnd := l.cursor + S.durationMinutes * minuteMs
  let next := l.cursor + S.slotIntervalMinutes * minuteMs
  if slotEnd > bounds.closeAtUtc then { l with cursor := next }
  else if l.cursor < earliestAllowed now S.service.appointmentLeadTimeMinutes then
    { l with cursor := next }
  else if overlapsBreak bounds l.cursor slotEnd then { l with cursor := next }
  else
    let hasConflict := existing.any fun a =>
      let appointmentEnd := a.scheduledAt + a.durationMinutes * minuteMs +
        S.service.appointmentBufferMinutes * minuteMs
      let candidateEnd := slotEnd + S.service.appointmentBufferMinutes * minuteMs
      intervalsOverlap l.cursor candidateEnd a.scheduledAt appointmentEnd
    { cursor := next, slots := if hasConflict then l.slots else l.slots ++ [l.cursor] }

/-- The loop, for at most `fuel` tests of its condition: `none` when it has not ended by then. -/
def runLoop (S : Setting) (bounds : WindowBounds) (existing : List Appointment) (now : Instant) :
    ℕ → SlotLoop → Option (List Instant)
  | 0, _ => none
  | fuel + 1, l =>
    if l.cursor < bounds.closeAtUtc then S.runLoop bounds existing now fuel
      (S.pass bounds existing now l)
    else some l.slots

def slotLoop (S : Setting) (bounds : WindowBounds) (existing : List Appointment) (now : Instant)
    (fuel : ℕ) : Option (List Instant) :=
  S.runLoop bounds existing now fuel { cursor := bounds.openAtUtc }

structure FreeStart (S : Setting) (bounds : WindowBounds) (existing : List Appointment)
    (now t : Instant) : Prop where
  onGrid : ∃ k : ℕ, t = bounds.openAtUtc + k * (S.slotIntervalMinutes * minuteMs)
  ends : t + S.durationMinutes * minuteMs ≤ bounds.closeAtUtc
  early : now + S.service.appointmentLeadTimeMinutes * minuteMs ≤ t
  noBreak : ∀ start ∈ bounds.breakStartUtc, ∀ stop ∈ bounds.breakEndUtc,
    ¬ (t < stop ∧ start < t + S.durationMinutes * minuteMs)
  free : ∀ a ∈ existing,
    ¬ (t < a.scheduledAt + (a.durationMinutes + S.service.appointmentBufferMinutes) * minuteMs ∧
      a.scheduledAt < t + (S.durationMinutes + S.service.appointmentBufferMinutes) * minuteMs)

end Setting

/-! ## The grid -/

variable {S : Setting} {bounds : WindowBounds} {existing : List Appointment} {now t : Instant}
  {openAt closeAt step : ℤ}

theorem cursors_of_le (hs : 0 < step) (h : closeAt ≤ openAt) : cursors openAt closeAt step = [] := by
  refine List.eq_nil_iff_forall_not_mem.mpr fun t ht => ?_
  have hle := le_of_mem_cursors hs ht
  have hlt := ((mem_cursors hs).mp ht).2
  exact absurd (lt_of_le_of_lt hle hlt) (not_lt.mpr h)

theorem cursors_of_lt (hs : 0 < step) (h : openAt < closeAt) :
    cursors openAt closeAt step = openAt :: cursors (openAt + step) closeAt step := by
  have hcount : ((closeAt - openAt + (step - 1)) / step).toNat =
      ((closeAt - (openAt + step) + (step - 1)) / step).toNat + 1 := by
    have hdiv : (closeAt - openAt + (step - 1)) / step =
        (closeAt - (openAt + step) + (step - 1)) / step + 1 := by
      rw [← Int.add_mul_ediv_right _ 1 hs.ne']
      congr 1
      omega
    have hnonneg : 0 ≤ (closeAt - (openAt + step) + (step - 1)) / step :=
      Int.ediv_nonneg (by omega) hs.le
    omega
  unfold cursors
  rw [hcount, List.range_succ_eq_map, List.map_cons, List.map_map]
  congr 1
  · simp
  · refine List.map_congr_left fun k _ => ?_
    change openAt + ((k + 1 : ℕ) : ℤ) * step = openAt + step + k * step
    rw [Int.natCast_add, Int.natCast_one, Int.add_mul, Int.one_mul]
    omega

theorem cursors_pairwise (hs : 0 < step) : (cursors openAt closeAt step).Pairwise (· < ·) := by
  unfold cursors
  rw [List.pairwise_map]
  refine List.pairwise_lt_range.imp fun {i j} hij => ?_
  have hmul := Int.mul_lt_mul_of_pos_right (Int.ofNat_lt.mpr hij) hs
  exact Int.add_lt_add_left hmul openAt

theorem Setting.step_pos (S : Setting) : 0 < S.slotIntervalMinutes * minuteMs := by
  have := S.slotIntervalMinutes_pos
  unfold minuteMs
  omega

/-! ## The passes -/

theorem Setting.pass_eq (S : Setting) (bounds : WindowBounds) (existing : List Appointment)
    (now : Instant) (l : SlotLoop) : S.pass bounds existing now l =
      { cursor := l.cursor + S.slotIntervalMinutes * minuteMs
        slots := l.slots ++ [l.cursor].filter (offers bounds S.durationMinutes
          S.service.appointmentBufferMinutes
          (earliestAllowed now S.service.appointmentLeadTimeMinutes) existing) } := by
  unfold Setting.pass offers
  dsimp only
  by_cases hclose : l.cursor + S.durationMinutes * minuteMs > bounds.closeAtUtc
  · simp [hclose]
  · by_cases hearly : l.cursor < earliestAllowed now S.service.appointmentLeadTimeMinutes
    · simp [hclose, hearly]
    · cases hbreak : overlapsBreak bounds l.cursor (l.cursor + S.durationMinutes * minuteMs) with
      | true => simp [hclose, hearly, hbreak]
      | false =>
        rw [if_neg hclose, if_neg hearly, if_neg Bool.false_ne_true]
        rw [List.filter_singleton, decide_eq_false hclose, decide_eq_false hearly, hbreak]
        cases existing.any _ with
        | true => simp
        | false => simp

theorem Setting.runLoop_eq {fuel : ℕ} {l : SlotLoop}
    (h : (cursors l.cursor bounds.closeAtUtc (S.slotIntervalMinutes * minuteMs)).length < fuel) :
    S.runLoop bounds existing now fuel l = some (l.slots ++
      (cursors l.cursor bounds.closeAtUtc (S.slotIntervalMinutes * minuteMs)).filter
        (offers bounds S.durationMinutes S.service.appointmentBufferMinutes
          (earliestAllowed now S.service.appointmentLeadTimeMinutes) existing)) := by
  induction fuel generalizing l with
  | zero => exact absurd h (Nat.not_lt_zero _)
  | succ fuel ih =>
    unfold Setting.runLoop
    by_cases hlt : l.cursor < bounds.closeAtUtc
    · rw [cursors_of_lt S.step_pos hlt] at h ⊢
      rw [if_pos hlt, ih, S.pass_eq]
      · rw [List.append_assoc, ← List.filter_append, List.singleton_append]
      · rw [S.pass_eq]
        exact Nat.lt_of_succ_lt_succ h
    · rw [if_neg hlt, cursors_of_le S.step_pos (Int.not_lt.mp hlt), List.filter_nil, List.append_nil]

/-! ## The starts that are left -/

theorem overlapsBreak_eq_false {start stop : Instant} : overlapsBreak bounds start stop = false ↔
    ∀ first ∈ bounds.breakStartUtc, ∀ last ∈ bounds.breakEndUtc, ¬ (start < last ∧ first < stop) := by
  unfold overlapsBreak intervalsOverlap
  cases bounds.breakStartUtc with
  | none => simp
  | some first =>
    cases bounds.breakEndUtc with
    | none => simp
    | some last => simp

theorem Setting.mem_offered : t ∈ S.offered bounds existing now ↔ S.FreeStart bounds existing now t := by
  have hconflict : (existing.any fun a => intervalsOverlap t (t + S.durationMinutes * minuteMs +
      S.service.appointmentBufferMinutes * minuteMs) a.scheduledAt (a.scheduledAt +
        a.durationMinutes * minuteMs + S.service.appointmentBufferMinutes * minuteMs)) = false ↔
      ∀ a ∈ existing, ¬ (t < a.scheduledAt +
          (a.durationMinutes + S.service.appointmentBufferMinutes) * minuteMs ∧
        a.scheduledAt < t + (S.durationMinutes + S.service.appointmentBufferMinutes) * minuteMs) := by
    simp only [intervalsOverlap, List.any_eq_false, Bool.and_eq_true, decide_eq_true_eq, Int.add_mul,
      Int.add_assoc]
  have hduration : 0 < S.durationMinutes * minuteMs := by
    have := resolveAppointmentDurationMinutes_pos S.service
      S.branchService.customServiceEstimateLowMinutes S.branchService.customServiceEstimateHighMinutes
      (S.subService.bind (·.durationMinutes))
    unfold Setting.durationMinutes minuteMs
    omega
  unfold Setting.offered offers
  rw [List.mem_filter, mem_cursors S.step_pos]
  simp only [Bool.and_eq_true, Bool.not_eq_true', decide_eq_false_iff_not, hconflict,
    overlapsBreak_eq_false, not_lt]
  constructor
  · rintro ⟨⟨hgrid, -⟩, ⟨⟨hends, hearly⟩, hbreak⟩, hfree⟩
    exact ⟨hgrid, hends, hearly, hbreak, hfree⟩
  · rintro ⟨hgrid, hends, hearly, hbreak, hfree⟩
    -- A slot that ends by the closing time starts before it.
    exact ⟨⟨hgrid, lt_of_lt_of_le (Int.lt_add_of_pos_right t hduration) hends⟩,
      ⟨⟨hends, hearly⟩, hbreak⟩, hfree⟩

theorem Setting.slotLoop_eq {fuel : ℕ} (h : (cursors bounds.openAtUtc bounds.closeAtUtc
    (S.slotIntervalMinutes * minuteMs)).length < fuel) :
    S.slotLoop bounds existing now fuel = some (S.offered bounds existing now) :=
  Setting.runLoop_eq h

/-- **Slot generation ends with the free grid**: for every configuration, window, list of appointments
and time the loop ends, with the free starts of the grid in strictly increasing order; and what
`getAvailableSlots` answers is what the loop leaves, or nothing on a day without hours. -/
theorem slotLoop_free_grid (S : Setting) :
    (∀ bounds existing now, ∃ slots,
      (∃ n, ∀ fuel, n ≤ fuel → S.slotLoop bounds existing now fuel = some slots) ∧
      slots.Pairwise (· < ·) ∧ ∀ t, t ∈ slots ↔ S.FreeStart bounds existing now t) ∧
    ∀ E s branchId serviceId subServiceId, S.Found s branchId serviceId subServiceId →
      ∀ env n localDate slots, ((getAvailableSlots E branchId serviceId (some localDate)
          subServiceId).eval env n s).answer = .ok slots →
        S.hours s branchId localDate = none ∧ slots = [] ∨
        ∃ w, S.hours s branchId localDate = some w ∧ ∃ fuel,
          S.slotLoop (resolveWindowUtcBounds localDate w (S.zone E))
            (S.existing E s branchId serviceId localDate) (env.pick (n + 1)) fuel = some slots := by
  refine ⟨fun bounds existing now => ⟨S.offered bounds existing now, ⟨_, fun fuel h =>
    Setting.slotLoop_eq (Nat.lt_of_succ_le h)⟩, ?_, fun t => Setting.mem_offered⟩, ?_⟩
  · exact (cursors_pairwise S.step_pos).filter _
  · intro E s branchId serviceId subServiceId hf env n localDate slots h
    rw [answer_getAvailableSlots hf] at h
    cases hsearch : validateAdvanceSearchWindow (env.pick n)
        (getUtcRangeForZonedDate localDate (S.zone E)).2 S.service.appointmentMaxAdvanceDays with
    | error e =>
      rw [hsearch] at h
      cases h
    | ok u =>
      rw [hsearch] at h
      cases hw : S.hours s branchId localDate with
      | none =>
        rw [hw] at h
        cases h
        exact Or.inl ⟨rfl, rfl⟩
      | some w =>
        rw [hw] at h
        cases h
        exact Or.inr ⟨w, rfl, _, Setting.slotLoop_eq (Nat.lt_succ_self _)⟩

/-- Three hours, with a break in the second. -/
example : clinicSetting.slotLoop ⟨0, 10800000, some 3600000, some 5400000⟩ [] 0 9 =
    some [0, 7200000] := by decide

end PatronLoyalty.Appointments
