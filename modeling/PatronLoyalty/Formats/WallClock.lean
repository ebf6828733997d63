import Mathlib.Data.Int.Init

/-!
# Wall clocks

A wall clock is ahead of time by an offset that may change. `Isolated` says that the offset is below a
bound and that its changes are more than twice that bound apart, so that near any instant there is one
change at most: before it the offset is one value, from it on another (`off_of_near`).

`search` looks for the instant at which the wall shows a reading, from the reading itself and in two
steps.

Results:
* **`wall_search`**: it finds one, if there is one.
* **`range_iff`**: the instants between what it finds for the two ends of a period are those whose
  reading is in the period, if and only if no change spoils an end (`Spoils`): a reading that is skipped
  or repeated does, but for the first of those that the change skips where the offset was not negative,
  and the first of those it repeats where the offset becomes negative.
-/

namespace PatronLoyalty.Formats.WallClock

/-! ## Offsets -/

def wall (off : ℤ → ℤ) (t : ℤ) : ℤ := t + off t

/-- The offset changes at `t`. -/
def ChangesAt (off : ℤ → ℤ) (t : ℤ) : Prop := off (t - 1) ≠ off t

/-- **Small offsets**, whose changes are far apart. -/
structure Isolated (bound : ℤ) (off : ℤ → ℤ) : Prop where
  above (t : ℤ) : -bound < off t
  below (t : ℤ) : off t < bound
  apart {s t : ℤ} : ChangesAt off s → ChangesAt off t → s < t → 2 * bound < t - s

/-- The instant at which the wall shows `base`, in two steps. -/
def search (off : ℤ → ℤ) (base : ℤ) : ℤ :=
  let shift (t : ℤ) := base - off t
  shift (shift base)

section

variable {off : ℤ → ℤ} {bound base s t τ : ℤ}

theorem off_eq_of_unchanged (hst : s ≤ t) (h : ∀ u, s < u → u ≤ t → ¬ ChangesAt off u) :
    off t = off s := by
  induction t, hst using Int.leInduction with
  | base => rfl
  | succ t hst ih =>
    have hlast : off t = off (t + 1) := by
      have hno := h (t + 1) (by omega) (Int.le_refl _)
      unfold ChangesAt at hno
      rw [Decidable.not_not, show t + 1 - 1 = t from by omega] at hno
      exact hno
    rw [← hlast]
    exact ih fun u hu hut => h u hu (by omega)

theorem off_of_near (h : Isolated bound off) (hτ : ChangesAt off τ) (hle : τ - 2 * bound ≤ t)
    (hge : t ≤ τ + 2 * bound) : off t = if t < τ then off (τ - 1) else off τ := by
  split
  · refine (off_eq_of_unchanged (by omega) fun u hu hut hc => ?_).symm
    have := h.apart hc hτ (by omega)
    omega
  · refine off_eq_of_unchanged (by omega) fun u hu hut hc => ?_
    have := h.apart hτ hc (by omega)
    omega

/-- **Around a reading**: the offset is one value, or there is one change between two. -/
theorem regimes (h : Isolated bound off) (base : ℤ) :
    (∀ t, base - bound ≤ t → t ≤ base + bound → off t = off base) ∨
      ∃ τ, ChangesAt off τ ∧ base - bound ≤ τ ∧ τ ≤ base + bound ∧
        ∀ t, base - bound ≤ t → t ≤ base + bound → off t = if t < τ then off (τ - 1) else off τ := by
  by_cases hc : ∃ τ, ChangesAt off τ ∧ base - bound < τ ∧ τ ≤ base + bound
  · obtain ⟨τ, hτ, hlo, hhi⟩ := hc
    refine Or.inr ⟨τ, hτ, by omega, hhi, fun t hle hge => off_of_near h hτ (by omega) (by omega)⟩
  · have hno : ∀ u, base - bound < u → u ≤ base + bound → ¬ ChangesAt off u :=
      fun u hlo hhi hu => hc ⟨u, hu, hlo, hhi⟩
    have hpos := h.above base
    have hneg := h.below base
    have hconst : ∀ t, base - bound ≤ t → t ≤ base + bound → off t = off (base - bound) :=
      fun t hle hge => off_eq_of_unchanged hle fun u hlo hhi => hno u hlo (by omega)
    refine Or.inl fun t hle hge => ?_
    rw [hconst t hle hge, hconst base (by omega) (by omega)]

/-! ## Searching -/

theorem search_near (h : Isolated bound off) (base : ℤ) :
    base - bound < search off base ∧ search off base < base + bound := by
  have hlo := h.above (base - off base)
  have hhi := h.below (base - off base)
  unfold search
  dsimp only
  omega

/-- **The search finds the reading**, if it is one. -/
theorem wall_search (h : Isolated bound off) (hx : ∃ t, wall off t = base) :
    wall off (search off base) = base := by
  obtain ⟨t, ht⟩ := hx
  unfold wall at ht ⊢
  have hnear := search_near h base
  have htlo := h.above t
  have hthi := h.below t
  have hblo := h.above base
  have hbhi := h.below base
  rcases regimes h base with hconst | ⟨τ, -, -, -, hτ⟩
  · have h1 := hconst (base - off base) (by omega) (by omega)
    have h2 := hconst (search off base) (by omega) (by omega)
    unfold search at h2 ⊢
    dsimp only at h2 ⊢
    omega
  · have h0 := hτ base (by omega) (by omega)
    have h1 := hτ (base - off base) (by omega) (by omega)
    have h2 := hτ (search off base) (by omega) (by omega)
    have h3 := hτ t (by omega) (by omega)
    unfold search at h2 ⊢
    dsimp only at h2 ⊢
    split at h0 <;> split at h1 <;> split at h2 <;> split at h3 <;> omega

end

/-! ## Periods -/

/-- The reading is skipped at `τ`. -/
def Skips (off : ℤ → ℤ) (τ base : ℤ) : Prop := τ + off (τ - 1) ≤ base ∧ base < τ + off τ

/-- The reading is repeated from `τ` on. -/
def Repeats (off : ℤ → ℤ) (τ base : ℤ) : Prop := τ + off τ ≤ base ∧ base < τ + off (τ - 1)

/-- **The change at `τ` spoils the reading** as the end of a period. -/
def Spoils (off : ℤ → ℤ) (τ base : ℤ) : Prop :=
  Skips off τ base ∧ (base = τ + off (τ - 1) → off (τ - 1) < 0) ∨
    Repeats off τ base ∧ (base = τ + off τ → 0 ≤ off τ)

section

variable {off : ℤ → ℤ} {bound base s t τ : ℤ}

theorem Spoils.changesAt (h : Spoils off τ base) : ChangesAt off τ := by
  unfold Spoils Skips Repeats at h
  unfold ChangesAt
  omega

theorem Spoils.near (hs : Spoils off τ base) (h : Isolated bound off) :
    τ - bound ≤ base ∧ base ≤ τ + bound := by
  have halo := h.above (τ - 1)
  have hahi := h.below (τ - 1)
  have hblo := h.above τ
  have hbhi := h.below τ
  unfold Spoils Skips Repeats at hs
  omega

/-- A reading that no change spoils parts time. -/
theorem le_wall_iff (h : Isolated bound off) (hs : ∀ τ, ¬ Spoils off τ base) (t : ℤ) :
    base ≤ wall off t ↔ search off base ≤ t := by
  unfold wall
  have hnear := search_near h base
  have htlo := h.above t
  have hthi := h.below t
  have hblo := h.above base
  have hbhi := h.below base
  by_cases hin : base - bound ≤ t ∧ t ≤ base + bound
  · rcases regimes h base with hconst | ⟨τ, -, -, -, hτ⟩
    · have h1 := hconst (base - off base) (by omega) (by omega)
      have h3 := hconst t hin.1 hin.2
      unfold search
      dsimp only
      omega
    · have hno := hs τ
      have h0 := hτ base (by omega) (by omega)
      have h1 := hτ (base - off base) (by omega) (by omega)
      have h3 := hτ t hin.1 hin.2
      unfold Spoils Skips Repeats at hno
      unfold search
      dsimp only
      split at h0 <;> split at h1 <;> split at h3 <;> omega
  · omega

/-- The instants of the period from `base` on are those between the two searches. -/
def IsRange (off : ℤ → ℤ) (base len : ℤ) : Prop :=
  ∀ t, search off base ≤ t ∧ t ≤ search off (base + len) - 1 ↔
    base ≤ wall off t ∧ wall off t < base + len

/-- The value of the offset at an instant near a change. -/
theorem off_cases (h : Isolated bound off) (hτ : ChangesAt off τ) (hle : τ - 2 * bound ≤ t)
    (hge : t ≤ τ + 2 * bound) : t < τ ∧ off t = off (τ - 1) ∨ τ ≤ t ∧ off t = off τ := by
  have ht := off_of_near h hτ hle hge
  split at ht
  · exact Or.inl ⟨by assumption, ht⟩
  · exact Or.inr ⟨by omega, ht⟩

theorem IsRange.not_spoils (hr : IsRange off base bound) (h : Isolated bound off) (τ : ℤ) :
    ¬ Spoils off τ base := by
  intro hs
  have hτ := hs.changesAt
  have halo := h.above (τ - 1)
  have hahi := h.below (τ - 1)
  have hblo := h.above τ
  have hbhi := h.below τ
  unfold IsRange wall at hr
  have hnear := hs.near h
  have h0 := off_cases (t := base) h hτ (by omega) (by omega)
  have h1 := off_cases (t := base - off base) h hτ (by omega) (by omega)
  have hstart : search off base = base - off (base - off base) := rfl
  rcases hs with ⟨⟨hlo, hhi⟩, hfirst⟩ | ⟨⟨hlo, hhi⟩, hfirst⟩
  · by_cases hbefore : base < τ
    · -- the range would begin before the change, with a reading that is too early
      have hs := off_cases (t := base - off τ) h hτ (by omega) (by omega)
      have hend : search off (base + bound) =
        base + bound - off (base + bound - off (base + bound)) := rfl
      have h2 := off_cases (t := base + bound) h hτ (by omega) (by omega)
      have h3 := off_cases (t := base + bound - off (base + bound)) h hτ (by omega) (by omega)
      have hin := hr (base - off τ)
      omega
    · have hin := hr τ
      omega
  · by_cases hbefore : base < τ
    · have hs := off_cases (t := base - off τ) h hτ (by omega) (by omega)
      have hin := hr τ
      have hin' := hr (base - off τ)
      omega
    · have hs := off_cases (t := base - off (τ - 1)) h hτ (by omega) (by omega)
      have hin := hr (base - off (τ - 1))
      omega

theorem IsRange.not_spoils_end (hr : IsRange off base bound) (h : Isolated bound off) (τ : ℤ) :
    ¬ Spoils off τ (base + bound) := by
  intro hs
  have hτ := hs.changesAt
  have hbase := hr.not_spoils h τ
  have halo := h.above (τ - 1)
  have hahi := h.below (τ - 1)
  have hblo := h.above τ
  have hbhi := h.below τ
  unfold IsRange wall at hr
  unfold Spoils Skips Repeats at hbase
  have hend : search off (base + bound) =
    base + bound - off (base + bound - off (base + bound)) := rfl
  have hnear := hs.near h
  have h2 := off_cases (t := base + bound) h hτ (by omega) (by omega)
  have h3 := off_cases (t := base + bound - off (base + bound)) h hτ (by omega) (by omega)
  rcases hs with ⟨⟨hlo, hhi⟩, hfirst⟩ | ⟨⟨hlo, hhi⟩, hfirst⟩
  · by_cases hbefore : base + bound < τ
    · -- the last instant before the change is missing
      have hs := off_cases (t := τ - 1) h hτ (by omega) (by omega)
      have hin := hr (τ - 1)
      omega
    · -- what follows the change is in the range
      have hstart : search off base = base - off (base - off base) := rfl
      have hblo' := h.above base
      have hbhi' := h.below base
      have h1 := off_cases (t := base - off base) h hτ (by omega) (by omega)
      have hsearch := search_near h base
      have hs := off_cases (t := search off base) h hτ (by omega) (by omega)
      have hin := hr τ
      have hin' := hr (search off base)
      omega
  · by_cases hbefore : base + bound < τ
    · have hin := hr τ
      omega
    · have hs := off_cases (t := base + bound - off (τ - 1)) h hτ (by omega) (by omega)
      have hs' := off_cases (t := base + bound - off (τ - 1) - 1) h hτ (by omega) (by omega)
      have hin := hr (base + bound - off (τ - 1))
      have hin' := hr (base + bound - off (τ - 1) - 1)
      omega

/-- **A range is the period** if and only if no change spoils one of its ends. -/
theorem range_iff (h : Isolated bound off) : IsRange off base bound ↔
    (∀ τ, ¬ Spoils off τ base) ∧ ∀ τ, ¬ Spoils off τ (base + bound) := by
  constructor
  · exact fun hr => ⟨hr.not_spoils h, hr.not_spoils_end h⟩
  · rintro ⟨hstart, hend⟩ t
    have h1 := le_wall_iff h hstart t
    have h2 := le_wall_iff h hend t
    omega

end

end PatronLoyalty.Formats.WallClock
