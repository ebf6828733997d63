import Mathlib.Data.List.DropRight

/-!
# UTF-16 texts

A JavaScript string is the list of its code units. `trim` drops white space at both ends.
-/

namespace PatronLoyalty.Formats

abbrev Units := List UInt16

def units (s : String) : Units := s.toList.map fun c => c.val.toUInt16

/-- White space and line terminators. -/
def isSpaceUnit (c : UInt16) : Bool :=
  (9 ≤ c && c ≤ 13) || c == 0x20 || c == 0xA0 || c == 0x1680 || (0x2000 ≤ c && c ≤ 0x200A) ||
    c == 0x2028 || c == 0x2029 || c == 0x202F || c == 0x205F || c == 0x3000 || c == 0xFEFF

def trimText (s : Units) : Units := (s.dropWhile isSpaceUnit).rdropWhile isSpaceUnit

/-- Neither end is white space. -/
def Trimmed (s : Units) : Prop :=
  (∀ c, s.head? = some c → isSpaceUnit c = false) ∧ ∀ c, s.getLast? = some c → isSpaceUnit c = false

theorem trimText_of_trimmed {s : Units} (h : Trimmed s) : trimText s = s := by
  have hd : s.dropWhile isSpaceUnit = s := by
    cases s with
    | nil => rfl
    | cons c s => rw [List.dropWhile_cons_of_neg (by rw [h.1 c rfl]; exact Bool.false_ne_true)]
  unfold trimText
  rw [hd, List.rdropWhile_eq_self_iff]
  intro hl
  rw [h.2 (s.getLast hl) (List.getLast?_eq_some_getLast hl)]
  exact Bool.false_ne_true

theorem head?_rdropWhile {s : Units} {p : UInt16 → Bool} {c : UInt16}
    (h : (s.rdropWhile p).head? = some c) : s.head? = some c := by
  obtain ⟨t, ht⟩ := List.rdropWhile_prefix p (l := s)
  cases hs : s.rdropWhile p with
  | nil =>
    rw [hs] at h
    cases h
  | cons d r =>
    rw [hs] at h ht
    rw [← ht]
    exact h

theorem trimmed_trimText (s : Units) : Trimmed (trimText s) := by
  constructor
  · intro c hc
    have hhead := head?_rdropWhile hc
    have hno := List.head?_dropWhile_not isSpaceUnit s
    rw [hhead] at hno
    simpa using hno
  · intro c hc
    have hne : trimText s ≠ [] := by
      intro hnil
      rw [hnil] at hc
      cases hc
    have hno := List.rdropWhile_last_not isSpaceUnit (s.dropWhile isSpaceUnit) hne
    rw [List.getLast?_eq_some_getLast hne] at hc
    cases hc
    exact Bool.eq_false_iff.mpr hno

theorem trimText_trimText (s : Units) : trimText (trimText s) = trimText s :=
  trimText_of_trimmed (trimmed_trimText s)

end PatronLoyalty.Formats
