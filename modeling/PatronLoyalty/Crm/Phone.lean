import PatronLoyalty.Loyalty.Schema

/-!
# Phone numbers

`normalizeSmsRecipient` of the shared package: E.164, with the country code 1 for ten digits and a
leading `00` for `+`. What is neither is no number.

Headline: **`normalizeSmsRecipient_canonical`**, what is found is a canonical form.
-/

namespace PatronLoyalty.Crm

open Loyalty (isSpace trimChars)

/-- `/[\s().-]/` -/
def isPhonePunctuation (c : Char) : Bool := isSpace c || ['(', ')', '.', '-'].contains c

/-- `00` at the start is `+`. -/
def withPlusPrefix : List Char → List Char
  | '0' :: '0' :: cs => '+' :: cs
  | cs => cs

def withCountryCode (cs : List Char) : Option (List Char) :=
  if cs.head? = some '+' then some cs
  else if cs.all Char.isDigit && cs.length == 11 && cs.head? == some '1' then some ('+' :: cs)
  else if cs.all Char.isDigit && cs.length == 10 then some ('+' :: '1' :: cs)
  else none

/-- `/^\+[1-9]\d{7,14}$/` -/
def isE164 : List Char → Bool
  | '+' :: c :: cs => c.isDigit && c != '0' && cs.all Char.isDigit && 7 ≤ cs.length && cs.length ≤ 14
  | _ => false

def normalizeSmsRecipient (phone : String) : Option String :=
  match withCountryCode
    (withPlusPrefix ((trimChars phone.toList).filter fun c => !isPhonePunctuation c)) with
  | some cs => if isE164 cs then some (String.ofList cs) else none
  | none => none

example : normalizeSmsRecipient "+1 (415) 555-2671" = some "+14155552671" := by decide

example : normalizeSmsRecipient "442079460000" = none := by decide

variable {phone r : String} {cs ds : List Char}

/-! ## What is trimmed -/

theorem filter_dropWhile {q keep : Char → Bool} (h : ∀ c, q c = true → keep c = false) :
    (cs.dropWhile q).filter keep = cs.filter keep := by
  induction cs with
  | nil => rfl
  | cons c cs ih =>
    by_cases hc : q c = true
    · rw [List.dropWhile_cons_of_pos hc, ih, List.filter_cons_of_neg (by simp [h c hc])]
    · rw [List.dropWhile_cons_of_neg hc]

theorem filter_trimChars {keep : Char → Bool} (h : ∀ c, isSpace c = true → keep c = false) :
    (trimChars cs).filter keep = cs.filter keep := by
  unfold trimChars
  rw [List.filter_reverse, filter_dropWhile h, List.filter_reverse, List.reverse_reverse,
    filter_dropWhile h]

theorem isDigit_of_isSpace {c : Char} (h : isSpace c = true) : c.isDigit = false := by
  rw [← Bool.not_eq_true]
  intro hd
  have hcode : 48 ≤ c.toNat ∧ c.toNat ≤ 57 := by
    simp only [Char.isDigit, Bool.and_eq_true, decide_eq_true_eq] at hd
    exact hd
  simp only [isSpace, Bool.or_eq_true, Bool.and_eq_true, decide_eq_true_eq, List.contains_eq_mem,
    List.mem_cons, List.not_mem_nil, or_false] at h
  omega

theorem isDigit_of_punctuation {c : Char} (h : isPhonePunctuation c = true) : c.isDigit = false := by
  unfold isPhonePunctuation at h
  rw [Bool.or_eq_true] at h
  rcases h with h | h
  · exact isDigit_of_isSpace h
  · simp only [List.contains_eq_mem, List.mem_cons, List.not_mem_nil, or_false,
      decide_eq_true_eq] at h
    rcases h with rfl | rfl | rfl | rfl <;> decide

/-! ## Spellings -/

def compact (phone : String) : List Char :=
  phone.toList.filter fun c => !isPhonePunctuation c

theorem normalize_eq : normalizeSmsRecipient phone =
    (withCountryCode (withPlusPrefix (compact phone))).bind fun cs =>
      if isE164 cs then some (String.ofList cs) else none := by
  have hcompact : ((trimChars phone.toList).filter fun c => !isPhonePunctuation c) =
      compact phone := by
    refine filter_trimChars fun c hc => ?_
    simp [isPhonePunctuation, hc]
  unfold normalizeSmsRecipient
  rw [hcompact]
  cases withCountryCode (withPlusPrefix (compact phone)) with
  | none => rfl
  | some cs => rfl

theorem compact_of_digits (h : ∀ c ∈ phone.toList, c = '+' ∨ c.isDigit = true) :
    compact phone = phone.toList := by
  refine List.filter_eq_self.mpr fun c hc => ?_
  rcases h c hc with rfl | hd
  · decide
  · rw [Bool.not_eq_true', ← Bool.not_eq_true]
    intro hp
    rw [isDigit_of_punctuation hp] at hd
    cases hd

/-! ## Canonical numbers -/

/-- `+`, a digit from 1 to 9, and seven to fourteen digits. -/
def E164 (r : String) : Prop :=
  ∃ c ds, r.toList = '+' :: c :: ds ∧ c.isDigit = true ∧ c ≠ '0' ∧
    (∀ d ∈ ds, d.isDigit = true) ∧ 7 ≤ ds.length ∧ ds.length ≤ 14

theorem isE164_iff : isE164 r.toList = true ↔ E164 r := by
  unfold isE164 E164
  constructor
  · intro h
    split at h
    · rename_i c ds heq
      simp only [Bool.and_eq_true, List.all_eq_true, bne_iff_ne, decide_eq_true_eq] at h
      obtain ⟨⟨⟨⟨hc, h0⟩, hds⟩, hlo⟩, hhi⟩ := h
      exact ⟨c, ds, heq, hc, h0, hds, hlo, hhi⟩
    · cases h
  · rintro ⟨c, ds, heq, hc, h0, hds, hlo, hhi⟩
    rw [heq]
    simp only [hc, Bool.true_and, Bool.and_eq_true, List.all_eq_true, bne_iff_ne, decide_eq_true_eq]
    exact ⟨⟨⟨h0, hds⟩, hlo⟩, hhi⟩

theorem e164_of_normalize (h : normalizeSmsRecipient phone = some r) : E164 r := by
  rw [normalize_eq] at h
  obtain ⟨cs, -, h⟩ := Option.bind_eq_some_iff.mp h
  split at h
  · rename_i he
    cases h
    rw [← isE164_iff, String.toList_ofList]
    exact he
  · cases h

/-- **A canonical number** is itself. -/
theorem normalize_of_e164 (h : E164 r) : normalizeSmsRecipient r = some r := by
  have he := isE164_iff.mpr h
  obtain ⟨c, ds, heq, hc, -, hds, -, -⟩ := h
  have hcompact : compact r = r.toList := by
    refine compact_of_digits fun x hx => ?_
    rw [heq] at hx
    rcases List.mem_cons.mp hx with rfl | hx
    · exact Or.inl rfl
    · rcases List.mem_cons.mp hx with rfl | hx
      · exact Or.inr hc
      · exact Or.inr (hds x hx)
  have hwritten : withCountryCode (withPlusPrefix r.toList) = some r.toList := by
    rw [heq]
    rfl
  rw [normalize_eq, hcompact, hwritten, Option.bind_some, if_pos he, String.ofList_toList]

/-- Punctuation does not matter, wherever it stands. -/
theorem normalize_insert {c : Char} (hc : isPhonePunctuation c = true) (before after : List Char) :
    normalizeSmsRecipient (String.ofList (before ++ c :: after)) =
      normalizeSmsRecipient (String.ofList (before ++ after)) := by
  have hcompact : compact (String.ofList (before ++ c :: after)) =
      compact (String.ofList (before ++ after)) := by
    unfold compact
    rw [String.toList_ofList, String.toList_ofList, List.filter_append, List.filter_append,
      List.filter_cons_of_neg (by simp [hc])]
  rw [normalize_eq, normalize_eq, hcompact]

theorem withPlusPrefix_of_not_prefix (h : ¬ ['0', '0'] <+: cs) : withPlusPrefix cs = cs := by
  unfold withPlusPrefix
  split
  · exact absurd ⟨_, rfl⟩ h
  · rfl

theorem lead_digits {c : Char} {lead : String} (hlead : lead ∈ ["", "1", "+1", "001"])
    (hc : c ∈ lead.toList) : c = '+' ∨ c.isDigit = true := by
  simp only [List.mem_cons, List.not_mem_nil, or_false] at hlead
  rcases hlead with rfl | rfl | rfl | rfl
  · cases hc
  · obtain rfl := List.mem_singleton.mp hc
    exact Or.inr rfl
  · rcases List.mem_pair.mp hc with rfl | rfl
    · exact Or.inl rfl
    · exact Or.inr rfl
  · obtain rfl | hc := List.mem_cons.mp hc
    · exact Or.inr rfl
    · rcases List.mem_pair.mp hc with rfl | rfl <;> exact Or.inr rfl

/-- **Ten digits** are of the country code 1, with or without it. -/
theorem normalize_national (hlen : ds.length = 10) (hds : ∀ c ∈ ds, c.isDigit = true)
    (h00 : ¬ ['0', '0'] <+: ds) {lead : String} (hlead : lead ∈ ["", "1", "+1", "001"]) :
    normalizeSmsRecipient (lead ++ String.ofList ds) = some ("+1" ++ String.ofList ds) := by
  have hwhole : ("+1" ++ String.ofList ds).toList = '+' :: '1' :: ds := by
    rw [String.toList_append]
    exact congrArg (['+', '1'] ++ ·) String.toList_ofList
  have he : E164 ("+1" ++ String.ofList ds) :=
    ⟨'1', ds, hwhole, by decide, by decide, hds, by omega, by omega⟩
  have hcompact : compact (lead ++ String.ofList ds) = lead.toList ++ ds := by
    rw [compact_of_digits, String.toList_append, String.toList_ofList]
    intro c hc
    rw [String.toList_append, String.toList_ofList] at hc
    rcases List.mem_append.mp hc with hc | hc
    · exact lead_digits hlead hc
    · exact Or.inr (hds c hc)
  have hplus : ds.head? ≠ some '+' := by
    intro h
    have hd := hds '+' (List.mem_of_mem_head? h)
    cases hd
  have hall : ds.all Char.isDigit = true := List.all_eq_true.mpr hds
  have hwritten : withCountryCode (withPlusPrefix (lead.toList ++ ds)) = some ('+' :: '1' :: ds) := by
    simp only [List.mem_cons, List.not_mem_nil, or_false] at hlead
    rcases hlead with rfl | rfl | rfl | rfl
    · rw [show "".toList ++ ds = ds from rfl, withPlusPrefix_of_not_prefix h00]
      simp [withCountryCode, hplus, hall, hlen]
    · rw [show "1".toList ++ ds = '1' :: ds from rfl,
        withPlusPrefix_of_not_prefix (by simp [List.cons_prefix_cons])]
      simp [withCountryCode, hall, hlen, Char.isDigit]
    · rfl
    · rfl
  rw [normalize_eq, hcompact, hwritten, Option.bind_some, ← hwhole, if_pos (isE164_iff.mpr he),
    String.ofList_toList]

/-- **The normal form is canonical**: it is E.164 and its own normal form, punctuation does not
change it, and the spellings of a North American number have one. -/
theorem normalizeSmsRecipient_canonical :
    (∀ phone r, normalizeSmsRecipient phone = some r → E164 r ∧ normalizeSmsRecipient r = some r) ∧
    (∀ c before after, isPhonePunctuation c = true →
      normalizeSmsRecipient (String.ofList (before ++ c :: after)) =
        normalizeSmsRecipient (String.ofList (before ++ after))) ∧
    ∀ ds : List Char, ds.length = 10 → (∀ c ∈ ds, c.isDigit = true) → ¬ ['0', '0'] <+: ds →
      ∀ lead ∈ ["", "1", "+1", "001"],
        normalizeSmsRecipient (lead ++ String.ofList ds) = some ("+1" ++ String.ofList ds) := by
  refine ⟨fun phone r h => ?_, fun c before after hc => normalize_insert hc before after, ?_⟩
  · have he := e164_of_normalize h
    exact ⟨he, normalize_of_e164 he⟩
  · exact fun ds hlen hds h00 lead hlead => normalize_national hlen hds h00 hlead

end PatronLoyalty.Crm
