import PatronLoyalty.Appointments.Hours

/-!
# Slots and instants

`evaluateBranchAvailabilityAtInstant` tells whether a branch is open at an instant,
`evaluateAppointmentSlotAgainstWindow` whether a slot is. A window may be reversed: its break is then
none at any instant, but for a slot it is between its two ends.

Headline: **`opened_iff_open_throughout`**, a slot is open exactly if every instant of it is, unless it
lies over both ends of a break that does not end after its start. `exists_reversed_break` is such a slot.
-/

namespace PatronLoyalty.Appointments

structure BranchAvailabilityEvaluation where
  isOpen : Bool
  reason : BranchAvailabilityReason
  localDate : LocalDate
  window : Option BranchHoursWindow
  bounds : Option WindowBounds
  deriving DecidableEq, Repr

def duringBreak (bounds : WindowBounds) (t : Instant) : Bool :=
  match bounds.breakStartUtc, bounds.breakEndUtc with
  | some breakStart, some breakEnd => decide (breakStart ≤ t) && decide (t < breakEnd)
  | _, _ => false

/-- The window is none where the branch has no opening or closing time. -/
def evaluateBranchAvailabilityAtInstant (t : Instant) (zone : Zone)
    (window : Option BranchHoursWindow) (localDate : LocalDate) : BranchAvailabilityEvaluation :=
  match window with
  | none => ⟨false, .closedDay, localDate, none, none⟩
  | some window =>
    if window.isClosed then ⟨false, .closedDay, localDate, none, none⟩
    else
      let bounds := resolveWindowUtcBounds localDate window zone
      if t < bounds.openAtUtc ∨ bounds.closeAtUtc ≤ t then
        ⟨false, .outsideHours, localDate, some window, some bounds⟩
      else if duringBreak bounds t then ⟨false, .duringBreak, localDate, some window, some bounds⟩
      else ⟨true, .opened, localDate, some window, some bounds⟩

def OpenThroughout (scheduledAt : Instant) (durationMinutes : ℤ) (zone : Zone)
    (window : Option BranchHoursWindow) (localDate : LocalDate) : Prop :=
  ∀ t, scheduledAt ≤ t → t < scheduledAt + durationMinutes * minuteMs →
    (evaluateBranchAvailabilityAtInstant t zone window localDate).isOpen = true

/-- **The slot lies within the hours, and over a break that does not end after its start.** -/
def OverReversedBreak (scheduledAt : Instant) (durationMinutes : ℤ) (zone : Zone)
    (window : Option BranchHoursWindow) (localDate : LocalDate) : Prop :=
  ∃ w, window = some w ∧ w.isClosed = false ∧
    zonedDateTimeToUtc localDate w.openTime zone ≤ scheduledAt ∧
    scheduledAt + durationMinutes * minuteMs ≤ zonedDateTimeToUtc localDate w.closeTime zone ∧
    ∃ breakStart breakEnd, w.breakStart = some breakStart ∧ w.breakEnd = some breakEnd ∧
      zonedDateTimeToUtc localDate breakEnd zone ≤ zonedDateTimeToUtc localDate breakStart zone ∧
      scheduledAt < zonedDateTimeToUtc localDate breakEnd zone ∧
      zonedDateTimeToUtc localDate breakStart zone < scheduledAt + durationMinutes * minuteMs

section

variable {scheduledAt : Instant} {durationMinutes : ℤ} {zone : Zone} {localDate : LocalDate}
  {w : BranchHoursWindow} {window : Option BranchHoursWindow} {bounds : WindowBounds}

theorem opened_iff (hw : w.isClosed = false) :
    evaluateAppointmentSlotAgainstWindow scheduledAt durationMinutes zone (some w) localDate =
        .opened ↔
      (resolveWindowUtcBounds localDate w zone).openAtUtc ≤ scheduledAt ∧
      scheduledAt + durationMinutes * minuteMs ≤ (resolveWindowUtcBounds localDate w zone).closeAtUtc ∧
      overlapsBreak (resolveWindowUtcBounds localDate w zone) scheduledAt
        (scheduledAt + durationMinutes * minuteMs) = false := by
  unfold evaluateAppointmentSlotAgainstWindow
  dsimp only
  rw [hw, if_neg (by simp)]
  split
  · rename_i hout
    constructor
    · exact nofun
    · rintro ⟨hopen, hclose, -⟩
      rcases hout with h | h
      · exact absurd hopen (Int.not_le.mpr h)
      · exact absurd hclose (Int.not_le.mpr h)
  · rename_i hin
    rw [not_or, Int.not_lt, gt_iff_lt, Int.not_lt] at hin
    split
    · rename_i hbreak
      constructor
      · exact nofun
      · rintro ⟨-, -, h⟩
        rw [hbreak] at h
        cases h
    · rename_i hbreak
      exact ⟨fun _ => ⟨hin.1, hin.2, by simpa using hbreak⟩, fun _ => rfl⟩

theorem isOpen_iff (hw : w.isClosed = false) {t : Instant} :
    (evaluateBranchAvailabilityAtInstant t zone (some w) localDate).isOpen = true ↔
      (resolveWindowUtcBounds localDate w zone).openAtUtc ≤ t ∧
      t < (resolveWindowUtcBounds localDate w zone).closeAtUtc ∧
      duringBreak (resolveWindowUtcBounds localDate w zone) t = false := by
  unfold evaluateBranchAvailabilityAtInstant
  dsimp only
  rw [hw, if_neg (by simp)]
  split
  · rename_i hout
    constructor
    · exact nofun
    · rintro ⟨hopen, hclose, -⟩
      rcases hout with h | h
      · exact absurd hopen (Int.not_le.mpr h)
      · exact absurd hclose (Int.not_lt.mpr h)
  · rename_i hin
    rw [not_or, Int.not_lt, Int.not_le] at hin
    split
    · rename_i hbreak
      constructor
      · exact nofun
      · rintro ⟨-, -, h⟩
        rw [hbreak] at h
        cases h
    · rename_i hbreak
      exact ⟨fun _ => ⟨hin.1, hin.2, by simpa using hbreak⟩, fun _ => rfl⟩

/-- The break of the window does not end after its start, and the interval is over both. -/
def OverReversed (bounds : WindowBounds) (start stop : Instant) : Prop :=
  ∃ breakStart breakEnd, bounds.breakStartUtc = some breakStart ∧ bounds.breakEndUtc = some breakEnd ∧
    breakEnd ≤ breakStart ∧ start < breakEnd ∧ breakStart < stop

theorem OverReversed.duringBreak {start stop : Instant} (h : OverReversed bounds start stop)
    (t : Instant) : duringBreak bounds t = false := by
  obtain ⟨breakStart, breakEnd, h1, h2, hle, -, -⟩ := h
  unfold Appointments.duringBreak
  rw [h1, h2, Bool.and_eq_false_iff, decide_eq_false_iff_not, decide_eq_false_iff_not]
  by_cases ht : breakStart ≤ t
  · exact Or.inr (Int.not_lt.mpr (Int.le_trans hle ht))
  · exact Or.inl ht

/-- **An interval that does not overlap the break** has no instant in it, and is not over a reversed
one. -/
theorem overlapsBreak_iff {start stop : Instant} (hlt : start < stop) :
    overlapsBreak bounds start stop = false ↔
      (∀ t, start ≤ t → t < stop → duringBreak bounds t = false) ∧ ¬ OverReversed bounds start stop := by
  unfold overlapsBreak duringBreak OverReversed
  cases bounds.breakStartUtc with
  | none => simp
  | some breakStart =>
    cases bounds.breakEndUtc with
    | none => simp
    | some breakEnd =>
      simp only [intervalsOverlap, Bool.and_eq_false_iff, decide_eq_false_iff_not,
        Option.some.injEq]
      constructor
      · intro h
        refine ⟨fun t hst hts => ?_, ?_⟩
        · rcases h with h | h
          · exact Or.inr fun hb => h (Int.lt_of_le_of_lt hst hb)
          · exact Or.inl fun hb => h (Int.lt_of_le_of_lt hb hts)
        · rintro ⟨_, _, rfl, rfl, -, hs, he⟩
          exact h.elim (· hs) (· he)
      · rintro ⟨hall, hno⟩
        by_contra hboth
        rw [not_or, Decidable.not_not, Decidable.not_not] at hboth
        -- the later of the two starts is in the break, unless it is reversed
        by_cases hrev : breakEnd ≤ breakStart
        · exact hno ⟨_, _, rfl, rfl, hrev, hboth⟩
        · rcases Int.le_total start breakStart with hle | hle
          · exact (hall breakStart hle hboth.2).elim (· (Int.le_refl _)) (· (Int.not_le.mp hrev))
          · exact (hall start (Int.le_refl _) hlt).elim (· hle) (· hboth.1)

theorem openThroughout_iff (hw : w.isClosed = false)
    (hlt : scheduledAt < scheduledAt + durationMinutes * minuteMs) :
    OpenThroughout scheduledAt durationMinutes zone (some w) localDate ↔
      (resolveWindowUtcBounds localDate w zone).openAtUtc ≤ scheduledAt ∧
      scheduledAt + durationMinutes * minuteMs ≤ (resolveWindowUtcBounds localDate w zone).closeAtUtc ∧
      ∀ t, scheduledAt ≤ t → t < scheduledAt + durationMinutes * minuteMs →
        duringBreak (resolveWindowUtcBounds localDate w zone) t = false := by
  unfold OpenThroughout
  simp only [isOpen_iff hw]
  constructor
  · intro h
    have hlast := h (scheduledAt + durationMinutes * minuteMs - 1) (Int.le_sub_one_of_lt hlt)
      (Int.sub_lt_self _ (by decide))
    exact ⟨(h scheduledAt (Int.le_refl _) hlt).1, Int.le_of_sub_one_lt hlast.2.1,
      fun t hst hts => (h t hst hts).2.2⟩
  · rintro ⟨hopen, hclose, hbreak⟩ t hst hts
    exact ⟨Int.le_trans hopen hst, Int.lt_of_lt_of_le hts hclose, hbreak t hst hts⟩

theorem overReversedBreak_iff (hw : w.isClosed = false) :
    OverReversedBreak scheduledAt durationMinutes zone (some w) localDate ↔
      (resolveWindowUtcBounds localDate w zone).openAtUtc ≤ scheduledAt ∧
      scheduledAt + durationMinutes * minuteMs ≤ (resolveWindowUtcBounds localDate w zone).closeAtUtc ∧
      OverReversed (resolveWindowUtcBounds localDate w zone) scheduledAt
        (scheduledAt + durationMinutes * minuteMs) := by
  unfold OverReversedBreak OverReversed resolveWindowUtcBounds
  constructor
  · rintro ⟨_, heq, -, hopen, hclose, breakStart, breakEnd, h1, h2, hrest⟩
    cases heq
    exact ⟨hopen, hclose, _, _, by rw [h1]; rfl, by rw [h2]; rfl, hrest⟩
  · rintro ⟨hopen, hclose, _, _, h1, h2, hrest⟩
    obtain ⟨breakStart, hb1, rfl⟩ := Option.map_eq_some_iff.mp h1
    obtain ⟨breakEnd, hb2, rfl⟩ := Option.map_eq_some_iff.mp h2
    exact ⟨w, rfl, hw, hopen, hclose, breakStart, breakEnd, hb1, hb2, hrest⟩

/-- **A slot is open exactly if every instant of it is**, unless it is over a reversed break. -/
theorem opened_iff_open_throughout (hd : 0 < durationMinutes) :
    (evaluateAppointmentSlotAgainstWindow scheduledAt durationMinutes zone window localDate = .opened ↔
      OpenThroughout scheduledAt durationMinutes zone window localDate) ↔
    ¬ OverReversedBreak scheduledAt durationMinutes zone window localDate := by
  have hlt : scheduledAt < scheduledAt + durationMinutes * minuteMs :=
    Int.lt_add_of_pos_right _ (Int.mul_pos hd (by decide))
  cases window with
  | none =>
    have hno : ¬ OverReversedBreak scheduledAt durationMinutes zone none localDate := by
      rintro ⟨_, h, -⟩
      cases h
    refine iff_of_true ⟨nofun, fun h => ?_⟩ hno
    cases h scheduledAt (Int.le_refl _) hlt
  | some w =>
    cases hw : w.isClosed with
    | true =>
      have hno : ¬ OverReversedBreak scheduledAt durationMinutes zone (some w) localDate := by
        rintro ⟨_, heq, h, -⟩
        cases heq
        rw [hw] at h
        cases h
      refine iff_of_true ⟨fun h => ?_, fun h => ?_⟩ hno
      · unfold evaluateAppointmentSlotAgainstWindow at h
        dsimp only at h
        rw [hw, if_pos rfl] at h
        cases h
      · have hopen := h scheduledAt (Int.le_refl _) hlt
        unfold evaluateBranchAvailabilityAtInstant at hopen
        dsimp only at hopen
        rw [hw, if_pos rfl] at hopen
        cases hopen
    | false =>
      rw [opened_iff hw, openThroughout_iff hw hlt, overReversedBreak_iff hw, overlapsBreak_iff hlt]
      constructor
      · rintro h ⟨hopen, hclose, hrev⟩
        exact (h.mpr ⟨hopen, hclose, fun t _ _ => hrev.duringBreak t⟩).2.2.2 hrev
      · intro hno
        constructor
        · rintro ⟨hopen, hclose, hbreak, -⟩
          exact ⟨hopen, hclose, hbreak⟩
        · rintro ⟨hopen, hclose, hbreak⟩
          exact ⟨hopen, hclose, hbreak, fun hrev => hno ⟨hopen, hclose, hrev⟩⟩

end

/-! ## A reversed break -/

/-- From nine to five, with a break from one back to noon. -/
def reversedBreak : BranchHoursWindow :=
  { openTime := 540, closeTime := 1020, breakStart := some 780, breakEnd := some 720 }

def noonBreak : BranchHoursWindow := { reversedBreak with breakStart := some 720, breakEnd := some 780 }

theorem opened_iff_open_throughout_ten :
    OpenThroughout (zonedDateTimeToUtc 20000 600 utc) 30 utc (some noonBreak) 20000 := by
  have hno : ¬ OverReversedBreak (zonedDateTimeToUtc 20000 600 utc) 30 utc (some noonBreak) 20000 := by
    rintro ⟨_, heq, -, -, -, _, _, h1, h2, hrev, -⟩
    cases heq
    cases h1
    cases h2
    exact absurd hrev (by decide)
  exact ((opened_iff_open_throughout (by decide)).mpr hno).mp (by decide)

/-- **A slot over a reversed break** is refused, and no instant of it is. -/
theorem exists_reversed_break :
    evaluateAppointmentSlotAgainstWindow (zonedDateTimeToUtc 20000 660 utc) 180 utc
      (some reversedBreak) 20000 = .duringBreak ∧
    OpenThroughout (zonedDateTimeToUtc 20000 660 utc) 180 utc (some reversedBreak) 20000 ∧
    ¬ ∀ (scheduledAt : Instant) (durationMinutes : ℤ) (zone : Zone)
      (window : Option BranchHoursWindow) (localDate : LocalDate), 0 < durationMinutes →
        (evaluateAppointmentSlotAgainstWindow scheduledAt durationMinutes zone window localDate =
          .opened ↔ OpenThroughout scheduledAt durationMinutes zone window localDate) := by
  have hslot : evaluateAppointmentSlotAgainstWindow (zonedDateTimeToUtc 20000 660 utc) 180 utc
      (some reversedBreak) 20000 = .duringBreak := by decide
  have hrev : OverReversed (resolveWindowUtcBounds 20000 reversedBreak utc)
      (zonedDateTimeToUtc 20000 660 utc) (zonedDateTimeToUtc 20000 660 utc + 180 * minuteMs) :=
    ⟨_, _, rfl, rfl, by decide, by decide, by decide⟩
  have hopen : OpenThroughout (zonedDateTimeToUtc 20000 660 utc) 180 utc (some reversedBreak) 20000 :=
    (openThroughout_iff rfl (by decide)).mpr ⟨by decide, by decide, fun t _ _ => hrev.duringBreak t⟩
  refine ⟨hslot, hopen, fun h => ?_⟩
  have h' := (h _ _ _ _ _ (by decide)).mpr hopen
  rw [hslot] at h'
  cases h'

end PatronLoyalty.Appointments
