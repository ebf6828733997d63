import Mathlib.Data.Int.Basic

/-!
# Opening hours and time zones

The shared `branch-hours` utilities. An instant is a number of milliseconds since the epoch, an ISO
date a number of days, and a time of day `HH:MM` a number of minutes: the validators admit any two
digits on either side, so it may be past midnight. A zone says by how much its wall clock is ahead of
UTC at an instant, and is a parameter.
-/

namespace PatronLoyalty.Appointments

/-- Milliseconds since the epoch. -/
abbrev Instant := ℤ

/-- An ISO date, in days since the epoch. -/
abbrev LocalDate := ℤ

/-- `HH:MM`, in minutes. -/
abbrev TimeOfDay := ℕ

def minuteMs : ℤ := 60000

def dayMs : ℤ := 86400000

/-- A time zone: how far its wall clock is ahead of UTC, in milliseconds. -/
structure Zone where
  offset : Instant → ℤ

def utc : Zone := ⟨fun _ => 0⟩

def Zone.wall (zone : Zone) (date : Instant) : ℤ := date + zone.offset date

/-- The parts of the wall clock have no milliseconds; `Math.round` rounds halves up. -/
def getTimeZoneOffsetMinutes (date : Instant) (zone : Zone) : ℤ :=
  let asUtc := zone.wall date / 1000 * 1000
  (asUtc - date + minuteMs / 2) / minuteMs

def getDateKeyInTimeZone (date : Instant) (zone : Zone) : LocalDate := zone.wall date / dayMs

/-- Mon=0 … Sun=6; the epoch was a Thursday. -/
def toSchemaDayOfWeekFromIsoDate (date : LocalDate) : ℤ := (date + 3) % 7

def zonedDateTimeToUtc (date : LocalDate) (time : TimeOfDay) (zone : Zone) : Instant :=
  let baseUtc := date * dayMs + time * minuteMs
  let shift (candidate : Instant) := baseUtc - getTimeZoneOffsetMinutes candidate zone * minuteMs
  shift (shift baseUtc)

def getUtcRangeForZonedDate (date : LocalDate) (zone : Zone) : Instant × Instant :=
  (zonedDateTimeToUtc date 0 zone, zonedDateTimeToUtc (date + 1) 0 zone - 1)

def intervalsOverlap (startA endA startB endB : Instant) : Bool :=
  decide (startA < endB) && decide (startB < endA)

structure BranchHoursWindow where
  openTime : TimeOfDay
  closeTime : TimeOfDay
  isClosed : Bool := false
  breakStart : Option TimeOfDay := none
  breakEnd : Option TimeOfDay := none
  deriving DecidableEq, Repr

structure WindowBounds where
  openAtUtc : Instant
  closeAtUtc : Instant
  breakStartUtc : Option Instant
  breakEndUtc : Option Instant
  deriving DecidableEq, Repr

def resolveWindowUtcBounds (localDate : LocalDate) (window : BranchHoursWindow) (zone : Zone) :
    WindowBounds where
  openAtUtc := zonedDateTimeToUtc localDate window.openTime zone
  closeAtUtc := zonedDateTimeToUtc localDate window.closeTime zone
  breakStartUtc := window.breakStart.map (zonedDateTimeToUtc localDate · zone)
  breakEndUtc := window.breakEnd.map (zonedDateTimeToUtc localDate · zone)

/-- `breakStart && breakEnd && intervalsOverlap(…)`. -/
def overlapsBreak (bounds : WindowBounds) (start stop : Instant) : Bool :=
  match bounds.breakStartUtc, bounds.breakEndUtc with
  | some breakStart, some breakEnd => intervalsOverlap start stop breakStart breakEnd
  | _, _ => false

inductive BranchAvailabilityReason
  | opened | closedDay | outsideHours | duringBreak | noSchedule
  deriving DecidableEq, Repr

def evaluateAppointmentSlotAgainstWindow (scheduledAt : Instant) (durationMinutes : ℤ) (zone : Zone)
    (window : Option BranchHoursWindow) (localDate : LocalDate) : BranchAvailabilityReason :=
  match window with
  | none => .closedDay
  | some window =>
    if window.isClosed then .closedDay
    else
      let stop := scheduledAt + durationMinutes * minuteMs
      let bounds := resolveWindowUtcBounds localDate window zone
      if scheduledAt < bounds.openAtUtc ∨ stop > bounds.closeAtUtc then .outsideHours
      else if overlapsBreak bounds scheduledAt stop then .duringBreak
      else .opened

example : zonedDateTimeToUtc 20000 540 ⟨fun _ => -5 * 3600000⟩ = 20000 * dayMs + 14 * 3600000 := by
  decide

end PatronLoyalty.Appointments
