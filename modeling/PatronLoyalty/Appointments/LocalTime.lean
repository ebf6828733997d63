import PatronLoyalty.Appointments.Hours
import PatronLoyalty.Formats.WallClock

/-!
# Local times and dates

`Zone.Regular` is a zone whose offset is whole minutes, less than a day, and changes at instants more
than two days apart.

Results:
* **`zonedDateTimeToUtc_shows`**: a local date and time that occurs is converted to an instant at which
  the zone shows it.
* **`range_of_date`**: the UTC range of a date is the date, if and only if no change of the offset spoils
  the midnight at its start or its end; where no midnight is spoiled, the ranges part time.
  `exists_wrong_range` is a zone behind UTC whose clocks go forward at midnight: the range of the date
  starts an hour early.
-/

namespace PatronLoyalty.Appointments

open Formats (WallClock.Isolated WallClock.ChangesAt WallClock.Spoils)
open Formats.WallClock (search wall_search search_near le_wall_iff range_iff IsRange)

/-! ## Regular zones -/

structure Zone.Regular (zone : Zone) : Prop where
  whole (t : Instant) : zone.offset t % minuteMs = 0
  isolated : WallClock.Isolated dayMs zone.offset

def Shows (zone : Zone) (date : LocalDate) (time : TimeOfDay) (t : Instant) : Prop :=
  getDateKeyInTimeZone t zone = date ∧ zone.wall t % dayMs = time * minuteMs

def midnight (date : LocalDate) : ℤ := date * dayMs

/-- No change of the offset spoils the midnight at the start of the date. -/
def CleanMidnight (zone : Zone) (date : LocalDate) : Prop :=
  ∀ τ, ¬ WallClock.Spoils zone.offset τ (midnight date)

def InRange (zone : Zone) (date : LocalDate) (t : Instant) : Prop :=
  (getUtcRangeForZonedDate date zone).1 ≤ t ∧ t ≤ (getUtcRangeForZonedDate date zone).2

def RangeOfDate (zone : Zone) (date : LocalDate) : Prop :=
  ∀ t, InRange zone date t ↔ getDateKeyInTimeZone t zone = date

section

variable {zone : Zone} {date : LocalDate} {time : TimeOfDay} {t : Instant}

theorem getTimeZoneOffsetMinutes_mul (hz : zone.Regular) (t : Instant) :
    getTimeZoneOffsetMinutes t zone * minuteMs = zone.offset t := by
  have hw := hz.whole t
  unfold getTimeZoneOffsetMinutes Zone.wall
  unfold minuteMs at hw ⊢
  dsimp only
  omega

/-- The conversion is a search on the wall clock. -/
theorem zonedDateTimeToUtc_eq (hz : zone.Regular) : zonedDateTimeToUtc date time zone =
    search zone.offset (midnight date + time * minuteMs) := by
  unfold zonedDateTimeToUtc search midnight
  dsimp only
  rw [getTimeZoneOffsetMinutes_mul hz, getTimeZoneOffsetMinutes_mul hz]

theorem shows_iff : Shows zone date time t ↔
    time * minuteMs < dayMs ∧ Formats.WallClock.wall zone.offset t = midnight date + time * minuteMs := by
  unfold Shows getDateKeyInTimeZone Zone.wall Formats.WallClock.wall midnight dayMs minuteMs
  show @Eq ℤ _ _ ∧ _ ↔ _
  omega

/-- **Local time is converted right** whenever it occurs. -/
theorem zonedDateTimeToUtc_shows (hz : zone.Regular) (h : ∃ t, Shows zone date time t) :
    Shows zone date time (zonedDateTimeToUtc date time zone) := by
  obtain ⟨t, ht⟩ := h
  obtain ⟨htime, hwall⟩ := shows_iff.mp ht
  rw [shows_iff, zonedDateTimeToUtc_eq hz]
  exact ⟨htime, wall_search hz.isolated ⟨t, hwall⟩⟩

theorem getUtcRangeForZonedDate_eq (hz : zone.Regular) : getUtcRangeForZonedDate date zone =
    (search zone.offset (midnight date), search zone.offset (midnight date + dayMs) - 1) := by
  have hnext : midnight (date + 1) = midnight date + dayMs := by
    unfold midnight dayMs
    omega
  unfold getUtcRangeForZonedDate
  rw [zonedDateTimeToUtc_eq hz, zonedDateTimeToUtc_eq hz, hnext]
  simp

theorem dateKey_iff : getDateKeyInTimeZone t zone = date ↔
    midnight date ≤ Formats.WallClock.wall zone.offset t ∧
      Formats.WallClock.wall zone.offset t < midnight date + dayMs := by
  unfold getDateKeyInTimeZone Zone.wall Formats.WallClock.wall midnight dayMs
  show @Eq ℤ _ _ ↔ _
  omega

theorem rangeOfDate_iff_isRange (hz : zone.Regular) :
    RangeOfDate zone date ↔ IsRange zone.offset (midnight date) dayMs := by
  unfold RangeOfDate InRange IsRange
  rw [getUtcRangeForZonedDate_eq hz]
  exact forall_congr' fun t => by rw [dateKey_iff]

/-- **The range of a date**, and of all dates. -/
theorem range_of_date (hz : zone.Regular) :
    (∀ date, RangeOfDate zone date ↔ CleanMidnight zone date ∧ CleanMidnight zone (date + 1)) ∧
      ((∀ date, CleanMidnight zone date) → ∀ t, ∃! date, InRange zone date t) := by
  have hdate : ∀ date, RangeOfDate zone date ↔
      CleanMidnight zone date ∧ CleanMidnight zone (date + 1) := by
    intro date
    have hnext : midnight (date + 1) = midnight date + dayMs := by
      unfold midnight dayMs
      omega
    rw [rangeOfDate_iff_isRange hz, range_iff hz.isolated]
    unfold CleanMidnight
    rw [hnext]
  refine ⟨hdate, fun hclean t => ?_⟩
  have hin : ∀ date, InRange zone date t ↔ getDateKeyInTimeZone t zone = date :=
    fun date => (hdate date).mpr ⟨hclean date, hclean (date + 1)⟩ t
  exact ⟨_, (hin _).mpr rfl, fun date h => ((hin date).mp h).symm⟩

end

/-! ## Zones with one change -/

/-- The offset is `a` before `τ`, and `b` from `τ` on. -/
def changing (a b τ : ℤ) : Zone := ⟨fun t => if t < τ then a else b⟩

section

variable {a b τ t : ℤ}

theorem changing_before (h : t < τ) : (changing a b τ).offset t = a := if_pos h

theorem changing_after (h : τ ≤ t) : (changing a b τ).offset t = b := if_neg (Int.not_lt.mpr h)

theorem eq_of_changesAt (h : WallClock.ChangesAt (changing a b τ).offset t) : t = τ := by
  by_contra hne
  refine h ?_
  by_cases ht : t < τ
  · rw [changing_before ht, changing_before (by omega)]
  · rw [changing_after (by omega), changing_after (by omega)]

theorem changing_regular (ha : a % minuteMs = 0) (hb : b % minuteMs = 0)
    (ha' : -dayMs < a ∧ a < dayMs) (hb' : -dayMs < b ∧ b < dayMs) : (changing a b τ).Regular := by
  have hvalue : ∀ t, (changing a b τ).offset t = a ∨ (changing a b τ).offset t = b := by
    intro t
    by_cases ht : t < τ
    · exact Or.inl (changing_before ht)
    · exact Or.inr (changing_after (Int.not_lt.mp ht))
  refine ⟨fun t => ?_, fun t => ?_, fun t => ?_, fun {s t} hs ht hlt => ?_⟩
  · rcases hvalue t with h | h <;> rw [h] <;> assumption
  · rcases hvalue t with h | h <;> omega
  · rcases hvalue t with h | h <;> omega
  · rw [eq_of_changesAt hs, eq_of_changesAt ht] at hlt
    exact absurd hlt (Int.lt_irrefl τ)

end

/-- Four hours behind UTC, and three from the midnight of a date on. -/
def forwardAtMidnight : Zone :=
  changing (-14400000) (-10800000) (midnight 20000 + 14400000)

theorem forwardAtMidnight_regular : forwardAtMidnight.Regular :=
  changing_regular (by decide) (by decide) (by decide) (by decide)

theorem zonedDateTimeToUtc_shows_forward :
    Shows forwardAtMidnight 20000 60 (zonedDateTimeToUtc 20000 60 forwardAtMidnight) :=
  zonedDateTimeToUtc_shows forwardAtMidnight_regular ⟨midnight 20000 + 14400000, by decide, by decide⟩

/-- **The range of that date** starts an hour before it. -/
theorem exists_wrong_range : InRange forwardAtMidnight 20000 (midnight 20000 + 10800000) ∧
    getDateKeyInTimeZone (midnight 20000 + 10800000) forwardAtMidnight = 19999 ∧
    ¬ ∀ zone : Zone, zone.Regular → ∀ date, RangeOfDate zone date := by
  have hin : InRange forwardAtMidnight 20000 (midnight 20000 + 10800000) := ⟨by decide, by decide⟩
  have hkey : getDateKeyInTimeZone (midnight 20000 + 10800000) forwardAtMidnight = 19999 := by decide
  refine ⟨hin, hkey, fun h => ?_⟩
  have hdate := (h forwardAtMidnight forwardAtMidnight_regular 20000 _).mp hin
  rw [hkey] at hdate
  cases hdate

/-- Two hours ahead of UTC, and three from one hour after midnight on. -/
def forwardAtNight : Zone := changing 7200000 10800000 (midnight 20000 - 3600000)

theorem range_of_date_forward : RangeOfDate forwardAtNight 20000 := by
  have hz : forwardAtNight.Regular :=
    changing_regular (by decide) (by decide) (by decide) (by decide)
  have hclean : ∀ date, date = 20000 ∨ date = 20001 → CleanMidnight forwardAtNight date := by
    intro date hdate τ hs
    obtain rfl := eq_of_changesAt hs.changesAt
    unfold Formats.WallClock.Spoils Formats.WallClock.Skips Formats.WallClock.Repeats at hs
    rcases hdate with rfl | rfl <;> exact absurd hs (by decide)
  exact ((range_of_date hz).1 20000).mpr ⟨hclean _ (Or.inl rfl), hclean _ (Or.inr rfl)⟩

end PatronLoyalty.Appointments
