import Mathlib.Data.List.Infix
import PatronLoyalty.Crm.Import
import PatronLoyalty.Crm.Phone
import PatronLoyalty.Txn.Alone

/-!
# Finding a patron by phone

`customerPhoneOr` looks for a phone as it is written, or for its last ten digits anywhere in a stored
phone. The integration, the import and the events of the queue find their patron with it.

A phone that is a number is written with the digits of the number, without the country code 1, or with
`00` before them (`digits_of_normalized`); so what a lookup confuses is a matter of digits.

Results:
* `gives_find`: what a lookup selects, exactly.
* **`found_by_phone`**: where the stored phone is a number it is the one looked for, or has its last ten
  digits in a row; two North American numbers are never confused.
* `exists_confused`: two numbers that are.
-/

namespace PatronLoyalty.Crm

open Txn Loyalty

/-! ## Lookups -/

inductive PhoneClause
  | equals (phone : String)
  | contains (digits : String)
  deriving DecidableEq, Repr

def PhoneClause.admits (c : Customer) : PhoneClause → Bool
  | .equals phone => c.phone == some phone
  | .contains digits => c.phone.any (containsText · digits)

def customerPhoneOr (phone : String) : List PhoneClause :=
  let trimmed := trim phone
  if trimmed = "" then []
  else
    let normalized := digits trimmed
    .equals trimmed ::
      if 10 ≤ normalized.length then [.contains (lastChars 10 normalized)] else []

/-- The lookup of `resolveCustomerId` and `resolveCustomerIdFromEvent`, which compare e-mails in
different ways. -/
def resolveCustomerIdTx (sameEmail : String → String → Bool) (orgId : Id)
    (phone email : Option String) : LTx (Option Id) := do
  if (truthy phone).isNone && (truthy email).isNone then pure none
  else
    let phoneOr := (truthy phone).elim [] customerPhoneOr
    let customer ← findFirst orgId .customer fun _ c =>
      phoneOr.any (·.admits c) || (truthy email).any fun e => c.email.any (sameEmail e)
    pure (customer.map (·.1))

inductive PhoneLookup
  | integration (legacyMetadataLookup : Bool)
  | fileRow (data : CustomerImportRow)
  | event (sameEmail : String → String → Bool)

def PhoneLookup.find (orgId : Id) (phone : String) : PhoneLookup → LTx (Option Id)
  | .integration legacyMetadataLookup => do
    let found ← resolveCustomerTx orgId legacyMetadataLookup { phone }
    pure (found.map (·.1))
  | .fileRow data => do
    let found ← resolveMatch orgId { data with email := none, phone, externalId := none }
    pure (found.map (·.1))
  | .event sameEmail => resolveCustomerIdTx sameEmail orgId phone none

def lastTen (phone : String) : List Char :=
  (phone.toList.filter Char.isDigit).drop ((phone.toList.filter Char.isDigit).length - 10)

/-- A phone has ten digits, and the last of them stand in a row in the other one. -/
structure EndsWithin (phone stored : String) : Prop where
  ten : 10 ≤ (phone.toList.filter Char.isDigit).length
  within : lastTen phone <:+: stored.toList

/-- **What a lookup selects**: the phone as it is written, or its last ten digits. -/
def Selected (phone stored : String) : Prop := stored = trim phone ∨ EndsWithin phone stored

/-- `+1` and ten digits. -/
def NorthAmerican (p : String) (national : List Char) : Prop :=
  p.toList = '+' :: '1' :: national ∧ national.length = 10

variable {orgId id : Id} {s s' : Db} {phone stored p r : String} {c : Customer} {cs ds : List Char}

theorem filter_isDigit_trim : (trim phone).toList.filter Char.isDigit =
    phone.toList.filter Char.isDigit := by
  unfold trim
  rw [String.toList_ofList]
  exact filter_trimChars fun c => isDigit_of_isSpace

/-! ## The digits of a number -/

theorem normalize_trim : normalizeSmsRecipient (trim phone) = normalizeSmsRecipient phone := by
  have hcompact : compact (trim phone) = compact phone := by
    unfold compact trim
    rw [String.toList_ofList]
    refine filter_trimChars fun c hc => ?_
    simp [isPhonePunctuation, hc]
  rw [normalize_eq, normalize_eq, hcompact]

theorem filter_isDigit_compact : (compact phone).filter Char.isDigit =
    phone.toList.filter Char.isDigit := by
  unfold compact
  rw [List.filter_filter]
  refine List.filter_congr fun c _ => ?_
  cases hp : isPhonePunctuation c with
  | false => simp
  | true => simp [isDigit_of_punctuation hp]

theorem isE164_eq_true (h : isE164 cs = true) :
    ∃ ds, cs = '+' :: ds ∧ ∀ c ∈ ds, c.isDigit = true := by
  unfold isE164 at h
  split at h
  · rename_i c ds
    simp only [Bool.and_eq_true, List.all_eq_true] at h
    obtain ⟨⟨⟨⟨hc, -⟩, hds⟩, -⟩, -⟩ := h
    refine ⟨c :: ds, rfl, fun x hx => ?_⟩
    rcases List.mem_cons.mp hx with rfl | hx
    · exact hc
    · exact hds x hx
  · cases h

/-- The digits a phone is written with, of a number with the digits `ds`. -/
inductive Writes (ds : List Char) : List Char → Prop
  | number : Writes ds ds
  | zeros : Writes ds ('0' :: '0' :: ds)
  | national {xs : List Char} (hds : ds = '1' :: xs) (hlen : xs.length = 10) : Writes ds xs

theorem writes_compact (h : withCountryCode (withPlusPrefix cs) = some ('+' :: ds))
    (hds : ∀ c ∈ ds, c.isDigit = true) : Writes ds (cs.filter Char.isDigit) := by
  have hfilter : ds.filter Char.isDigit = ds := List.filter_eq_self.mpr hds
  unfold withPlusPrefix at h
  split at h
  · rename_i rest
    obtain rfl : rest = ds := by simpa [withCountryCode] using h
    have hwritten : ('0' :: '0' :: rest).filter Char.isDigit = '0' :: '0' :: rest := by
      rw [List.filter_cons_of_pos (by decide), List.filter_cons_of_pos (by decide), hfilter]
    rw [hwritten]
    exact .zeros
  · unfold withCountryCode at h
    split at h
    · obtain rfl := Option.some.inj h
      rw [List.filter_cons_of_neg (by decide), hfilter]
      exact .number
    · split at h
      · have hcs : cs = ds := by simpa using h
        rw [hcs, hfilter]
        exact .number
      · split at h
        · rename_i hten
          have hcs : '1' :: cs = ds := by simpa using h
          rw [Bool.and_eq_true, List.all_eq_true, beq_iff_eq] at hten
          rw [List.filter_eq_self.mpr hten.1]
          exact .national hcs.symm hten.2
        · cases h

/-- **The digits of a number.** -/
theorem digits_of_normalized (h : normalizeSmsRecipient phone = some r) :
    ∃ ds, r.toList = '+' :: ds ∧ Writes ds (phone.toList.filter Char.isDigit) := by
  rw [normalize_eq, Option.bind_eq_some_iff] at h
  obtain ⟨cs, hcs, h⟩ := h
  split at h
  · rename_i he
    cases h
    obtain ⟨ds, rfl, hds⟩ := isE164_eq_true he
    refine ⟨ds, String.toList_ofList, ?_⟩
    rw [← filter_isDigit_compact]
    exact writes_compact hcs hds
  · cases h

/-! ## What is confused -/

theorem EndsWithin.digits (h : EndsWithin phone stored) :
    lastTen phone <:+: stored.toList.filter Char.isDigit := by
  have hdigits : (lastTen phone).filter Char.isDigit = lastTen phone := by
    refine List.filter_eq_self.mpr fun c hc => ?_
    exact (List.mem_filter.mp (List.mem_of_mem_drop hc)).2
  rw [← hdigits]
  exact h.within.filter _

/-- What does not begin a list stands after its first. -/
theorem infix_of_cons {x : Char} {xs ys : List Char} (h : xs <:+: x :: ys)
    (hne : xs ≠ []) (hx : xs.head? ≠ some x) : xs <:+: ys := by
  rcases List.infix_cons_iff.mp h with hpre | hin
  · obtain ⟨t, ht⟩ := hpre
    cases xs with
    | nil => exact absurd rfl hne
    | cons y xs =>
      rw [List.cons_append, List.cons.injEq] at ht
      exact absurd (congrArg some ht.1) hx
  · exact hin

theorem lastTen_of_northAmerican {a : List Char} (hp : normalizeSmsRecipient phone = some p)
    (ha : NorthAmerican p a) : lastTen phone = a := by
  obtain ⟨ds, hds, hw⟩ := digits_of_normalized hp
  obtain rfl : ds = '1' :: a := (List.cons.inj (hds.symm.trans ha.1)).2
  unfold lastTen
  generalize phone.toList.filter Char.isDigit = xs at hw
  cases hw with
  | number => simp [ha.2]
  | zeros => simp [ha.2]
  | national hxs _ =>
    obtain rfl := (List.cons.inj hxs).2
    simp [ha.2]

/-- **Two North American numbers** are not confused. -/
theorem eq_of_northAmerican {a b : List Char} (hp : normalizeSmsRecipient phone = some p)
    (hr : normalizeSmsRecipient stored = some r) (h : EndsWithin phone stored)
    (ha : NorthAmerican p a) (hb : NorthAmerican r b) (hzero : a.head? ≠ some '0')
    (hone : a.head? ≠ some '1') : r = p := by
  have hin := h.digits
  rw [lastTen_of_northAmerican hp ha] at hin
  have hne : a ≠ [] := by
    rintro rfl
    exact absurd ha.2 (by decide)
  obtain ⟨ds, hds, hw⟩ := digits_of_normalized hr
  obtain rfl : ds = '1' :: b := (List.cons.inj (hds.symm.trans hb.1)).2
  have hab : a <:+: b := by
    generalize stored.toList.filter Char.isDigit = xs at hw hin
    cases hw with
    | number => exact infix_of_cons hin hne hone
    | zeros => exact infix_of_cons (infix_of_cons (infix_of_cons hin hne hzero) hne hzero) hne hone
    | national hxs _ =>
      obtain rfl := (List.cons.inj hxs).2
      exact hin
  obtain rfl := hab.eq_of_length (ha.2.trans hb.2.symm)
  exact String.toList_inj.mp (hb.1.trans ha.1.symm)

/-! ## What a lookup finds -/

theorem containsText_iff {t : String} : containsText stored t = true ↔ t.toList <:+: stored.toList := by
  simp only [containsText, List.any_eq_true, List.mem_tails, List.isPrefixOf_iff_prefix]
  rw [List.infix_iff_prefix_suffix]
  exact ⟨fun h => h.imp fun _ h => ⟨h.2, h.1⟩, fun h => h.imp fun _ h => ⟨h.2, h.1⟩⟩

theorem toList_lastChars_digits : (lastChars 10 (digits (trim phone))).toList = lastTen phone := by
  unfold lastChars digits lastTen
  rw [String.toList_ofList, String.toList_ofList, String.length_ofList, filter_isDigit_trim]

theorem length_digits_trim :
    (digits (trim phone)).length = (phone.toList.filter Char.isDigit).length := by
  unfold digits
  rw [String.length_ofList, filter_isDigit_trim]

theorem any_customerPhoneOr : (customerPhoneOr phone).any (·.admits c) = phoneMatches phone c := by
  unfold customerPhoneOr phoneMatches
  by_cases ht : trim phone = ""
  · simp [ht]
  · by_cases hten : 10 ≤ (digits (trim phone)).length
    · simp [ht, hten, PhoneClause.admits]
    · simp [ht, hten, PhoneClause.admits]

/-- **The customers that match a phone.** -/
theorem phoneMatches_iff (hne : trim phone ≠ "") :
    phoneMatches phone c = true ↔ ∃ stored, c.phone = some stored ∧ Selected phone stored := by
  have hten (stored : String) : EndsWithin phone stored ↔ 10 ≤ (digits (trim phone)).length ∧
      containsText stored (lastChars 10 (digits (trim phone))) = true := by
    rw [containsText_iff, toList_lastChars_digits, length_digits_trim]
    exact ⟨fun h => ⟨h.1, h.2⟩, fun h => ⟨h.1, h.2⟩⟩
  unfold phoneMatches
  cases c.phone with
  | none => simp
  | some q => simp [hne, Selected, hten]

def Found (orgId : Id) (phone : String) (s : Db) (id : Id) : Prop :=
  ∃ c stored, s.get .customer id = some c ∧ c.orgId = orgId ∧ c.phone = some stored ∧
    Selected phone stored

theorem visible_customer : visible orgId .customer c = true ↔ c.orgId = orgId := by
  simp [visible, tenantPolicy, orgOf]

theorem gives_byPhone {q : Id → Customer → Bool} (hne : trim phone ≠ "")
    (hq : ∀ id c, q id c = phoneMatches phone c) :
    (∃ x, (findFirst orgId .customer q).gives s (some x) s' ∧ x.1 = id) ↔
      s' = s ∧ Found orgId phone s id := by
  have hrow (c : Customer) : (id, c) ∈ s.rows .customer (fun i r => visible orgId .customer r && q i r) ↔
      s.get .customer id = some c ∧ c.orgId = orgId ∧
        ∃ stored, c.phone = some stored ∧ Selected phone stored := by
    rw [Rel.mem_rows, Bool.and_eq_true, visible_customer, hq, phoneMatches_iff hne]
  constructor
  · rintro ⟨⟨i, c⟩, hx, rfl⟩
    obtain ⟨rfl, ⟨hnone, -⟩ | ⟨r, hr, hsome⟩⟩ := Tx.gives_findFirst.mp hx
    · cases hnone
    · cases hsome
      obtain ⟨hc, ho, stored, hph, hsel⟩ := (hrow c).mp hr
      exact ⟨rfl, c, stored, hc, ho, hph, hsel⟩
  · rintro ⟨rfl, c, stored, hc, ho, hph, hsel⟩
    exact ⟨(id, c), Tx.gives_findFirst.mpr
      ⟨rfl, Or.inr ⟨_, (hrow c).mpr ⟨hc, ho, stored, hph, hsel⟩, rfl⟩⟩, rfl⟩

theorem gives_id {t : LTx (Option (Id × Customer))} :
    (t.bind fun found => pure (found.map (·.1))).gives s (some id) s' ↔
      ∃ x, t.gives s (some x) s' ∧ x.1 = id := by
  rw [Tx.gives_bind]
  constructor
  · rintro ⟨o, m, ho, hid, rfl⟩
    obtain ⟨x, rfl, hx⟩ := Option.map_eq_some_iff.mp hid.symm
    exact ⟨x, ho, hx⟩
  · rintro ⟨x, hx, rfl⟩
    exact ⟨some x, s', hx, rfl, rfl⟩

theorem gives_lastly {t : LTx (Option (Id × Customer))} {o : Option (Id × Customer)}
    {f : Option (Id × Customer) → LTx (Option (Id × Customer))} (hf : ∀ o, f o = Tx.pure o) :
    (t.bind f).gives s o s' ↔ t.gives s o s' := by
  rw [Tx.gives_bind]
  constructor
  · rintro ⟨o', m, ho, h⟩
    rw [hf] at h
    obtain ⟨rfl, rfl⟩ := h
    exact ho
  · intro h
    refine ⟨o, s', h, ?_⟩
    rw [hf]
    exact ⟨rfl, rfl⟩

/-- **What a lookup finds.** -/
theorem gives_find (hne : trim phone ≠ "") (lookup : PhoneLookup) :
    (lookup.find orgId phone).gives s (some id) s' ↔ s' = s ∧ Found orgId phone s id := by
  have hphone : truthy (some phone) = some phone := truthy_some fun h => hne (by rw [h]; rfl)
  cases lookup with
  | integration legacyMetadataLookup =>
    rw [PhoneLookup.find, Tx.bind_eq, gives_id, ← gives_byPhone hne fun _ _ => rfl]
    have hby : resolveByPhone orgId { phone := some phone } =
        findFirst orgId .customer fun _ c => phoneMatches phone c := by
      unfold resolveByPhone
      rw [hphone]
    have hresolve (x : Id × Customer) :
        (resolveCustomerTx orgId legacyMetadataLookup { phone := some phone }).gives s (some x) s' ↔
          (findFirst orgId .customer fun _ c => phoneMatches phone c).gives s (some x) s' := by
      rw [← hby]
      have hlast : resolveCustomerTx orgId legacyMetadataLookup { phone := some phone } =
          (resolveByPhone orgId { phone := some phone }).bind fun found =>
            found.elim (resolveByExternalId orgId legacyMetadataLookup { phone := some phone })
              fun found => pure (some found) := by
        have hemail : resolveByEmail orgId { phone := some phone } = Tx.pure none := rfl
        unfold resolveCustomerTx
        dsimp only
        rw [hemail, Tx.bind_eq, Tx.bind, Tx.bind_eq]
        refine congrArg (Tx.bind _) (funext fun found => ?_)
        cases found with
        | none => rfl
        | some found => rfl
      rw [hlast]
      refine gives_lastly fun found => ?_
      cases found with
      | none => rfl
      | some found => rfl
    simp only [hresolve]
  | fileRow data =>
    rw [PhoneLookup.find, Tx.bind_eq, gives_id, ← gives_byPhone hne fun _ _ => rfl]
    have hmatch : resolveMatch orgId
        { data with email := none, phone := some phone, externalId := none } =
          findFirst orgId .customer fun _ c => phoneMatches phone c := by
      show findBy orgId (some phone) phoneMatches = _
      unfold findBy
      rw [hphone]
    rw [hmatch]
  | event sameEmail =>
    have hquery : PhoneLookup.find orgId phone (.event sameEmail) =
        (findFirst orgId .customer fun _ c => (customerPhoneOr phone).any (·.admits c) || false).bind
          fun found => pure (found.map (·.1)) := by
      unfold PhoneLookup.find resolveCustomerIdTx
      rw [hphone]
      rfl
    rw [hquery, gives_id]
    exact gives_byPhone hne fun _ c => by rw [Bool.or_false, any_customerPhoneOr]

/-! ## Whose number it is -/

/-- **Finding by phone.** A lookup selects the customers of the organisation whose stored phone is the one
looked for, or has its last ten digits in a row. A stored phone that is a number is then the number looked
for, or another one with these ten digits among its own; it is never another North American number, where
the area code of the one looked for begins with neither 0 nor 1. -/
theorem found_by_phone (hp : normalizeSmsRecipient phone = some p) (lookup : PhoneLookup) :
    (∀ orgId s id s', (lookup.find orgId phone).gives s (some id) s' ↔
      s' = s ∧ Found orgId phone s id) ∧
    ∀ stored r, Selected phone stored → normalizeSmsRecipient stored = some r →
      (r = p ∨ EndsWithin phone stored ∧ lastTen phone <:+: stored.toList.filter Char.isDigit) ∧
      ∀ a b, NorthAmerican p a → NorthAmerican r b → a.head? ≠ some '0' → a.head? ≠ some '1' →
        r = p := by
  have hne : trim phone ≠ "" := by
    intro h
    have hnone : normalizeSmsRecipient "" = none := by decide
    rw [← normalize_trim, h, hnone] at hp
    cases hp
  refine ⟨fun orgId s id s' => gives_find hne lookup, fun stored r hsel hr => ?_⟩
  have hsame : stored = trim phone → r = p := by
    rintro rfl
    rw [normalize_trim] at hr
    exact Option.some.inj (hr.symm.trans hp)
  refine ⟨hsel.imp hsame fun h => ⟨h, h.digits⟩, fun a b ha hb hzero hone => ?_⟩
  rcases hsel with h | h
  · exact hsame h
  · exact eq_of_northAmerican hp hr h ha hb hzero hone

/-- Ada, and a patron with a number of another country. -/
def phoneBook : Db :=
  (Rel.empty.set .customer 1 { orgId := 1, name := "Ada", phone := some "+14155552671" }).set
    .customer 2 { orgId := 1, name := "Bo", phone := some "+444155552671" }

theorem normalize_local : normalizeSmsRecipient "(415) 555-2671" = some "+14155552671" := by decide

theorem endsWithin_local (code : List Char) (h : "+" ++ String.ofList code ++ "4155552671" = stored) :
    EndsWithin "(415) 555-2671" stored where
  ten := by decide
  within := by
    subst h
    refine ⟨'+' :: code, [], ?_⟩
    have hten : lastTen "(415) 555-2671" = "4155552671".toList := by decide
    rw [hten]
    simp

theorem found_by_phone_ada :
    (PhoneLookup.find 1 "(415) 555-2671" (.integration false)).gives phoneBook (some 1) phoneBook :=
  ((found_by_phone normalize_local (.integration false)).1 1 phoneBook 1 phoneBook).mpr
    ⟨rfl, _, _, rfl, rfl, rfl, Or.inr (endsWithin_local ['1'] rfl)⟩

/-- **Another number is selected**: one with the same last ten digits. -/
theorem exists_confused : ¬ ∀ (orgId : Id) (s : Db) (phone p : String) (lookup : PhoneLookup)
    (id : Id) (s' : Db) (c : Customer) (stored r : String),
      normalizeSmsRecipient phone = some p → (lookup.find orgId phone).gives s (some id) s' →
        s.get .customer id = some c → c.phone = some stored →
          normalizeSmsRecipient stored = some r → r = p := by
  intro h
  have hfound : (PhoneLookup.find 1 "(415) 555-2671" (.integration false)).gives phoneBook (some 2)
      phoneBook := by
    refine (gives_find (by decide) _).mpr ⟨rfl, ?_⟩
    exact ⟨_, _, rfl, rfl, rfl, Or.inr (endsWithin_local ['4', '4'] rfl)⟩
  have hnumber : normalizeSmsRecipient "+444155552671" = some "+444155552671" := by decide
  have hsame := h 1 phoneBook _ _ _ 2 phoneBook _ _ _ normalize_local hfound rfl rfl hnumber
  exact absurd hsame (by decide)

end PatronLoyalty.Crm
