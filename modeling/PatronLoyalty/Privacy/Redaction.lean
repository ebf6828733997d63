import PatronLoyalty.Formats.Utf16

/-!
# Redaction

`redactConnectorPayload` keeps the structure of an integration payload for support,
`scrubSensitiveRecord` cleans what is sent to observability. Both hide what is stored under sensitive
keys, each by its own pattern; the first drops arrays and cuts long strings, and both stop at a depth.

A string is its UTF-16 code units. An object is its own enumerable fields in their order; assigning
`__proto__` makes none.

Headline: **`redaction_noninterfering`**, two payloads that agree but for values under sensitive keys
have one result, redacting twice is redacting once, and a redacted connector payload has no array and no
string of more than 120 code units.
-/

namespace PatronLoyalty.Privacy

open Formats (Units units)

/-- A payload; numbers are carried along, and so are functions and symbols. -/
inductive Payload (Num : Type)
  | null
  | undefined
  | bool (b : Bool)
  | number (n : Num)
  | text (s : Units)
  | other (n : Num)
  | array (items : List (Payload Num))
  | object (fields : List (Units × Payload Num))

/-! ## Sensitive keys -/

/-- The `i` flag: a letter of the pattern matches its two cases. -/
def fold (c : UInt16) : UInt16 := if 65 ≤ c ∧ c ≤ 90 then c + 32 else c

def connectorKeys : List String :=
  ["phone", "email", "name", "to", "body", "subject", "accessToken", "apiKey", "password", "token",
    "secret", "authorization"]

/-- `/^(phone|…)$/i`. -/
def connectorSensitive (key : Units) : Bool :=
  connectorKeys.any fun word => key.map fold == (units word).map fold

/-- `api[_-]?key` is three words. -/
def recordKeys : List String :=
  ["password", "secret", "token", "authorization", "cookie", "apikey", "api_key", "api-key",
    "customerphone", "customer_phone", "phone", "email", "ssn", "credit"]

/-- `/password|…/i`. -/
def recordSensitive (key : Units) : Bool :=
  recordKeys.any fun word => (key.map fold).tails.any fun rest => (units word).isPrefixOf rest

/-! ## Redacting -/

variable {Num : Type}

def assign (key : Units) (value : Payload Num) (out : List (Units × Payload Num)) :
    List (Units × Payload Num) :=
  if key = units "__proto__" then out else (key, value) :: out

/-- `value.length > 120 ? value.slice(0, 117) + '...' : value`. -/
def shorten (s : Units) : Units := if 120 < s.length then s.take 117 ++ units "..." else s

mutual

/-- The field of a key that is not sensitive, unless there is none. -/
def redactValue (depth : ℕ) : Payload Num → Option (Payload Num)
  | .object fields => if 3 < depth then none else some (.object (redactFields depth fields))
  | .text s => some (.text (shorten s))
  | .null => some .null
  | .bool b => some (.bool b)
  | .number n => some (.number n)
  | .undefined | .other _ | .array _ => none

def redactFields (depth : ℕ) : List (Units × Payload Num) → List (Units × Payload Num)
  | [] => []
  | field :: fields =>
    match redactField depth field with
    | some value => assign field.1 value (redactFields depth fields)
    | none => redactFields depth fields

def redactField (depth : ℕ) : Units × Payload Num → Option (Payload Num)
  | (key, value) =>
    if connectorSensitive key then some (.text (units "[redacted]")) else redactValue (depth + 1) value

end

def redactConnectorPayload : Payload Num → Option (List (Units × Payload Num))
  | .object fields => some (redactFields 0 fields)
  | _ => none

/-- The result as a value: an object, or `null`. -/
def resultOf : Option (List (Units × Payload Num)) → Payload Num
  | none => .null
  | some fields => .object fields

def truncated : Payload Num := .text (units "[Truncated]")

mutual

def scrubValue (depth : ℕ) : Payload Num → Payload Num
  | .array items => if 8 < depth then truncated else .array (scrubItems (depth + 1) items)
  | .object fields => if 8 < depth then truncated else .object (scrubFields (depth + 1) fields)
  | value => if 8 < depth then truncated else value

def scrubItems (depth : ℕ) : List (Payload Num) → List (Payload Num)
  | [] => []
  | item :: items => scrubValue depth item :: scrubItems depth items

def scrubFields (depth : ℕ) : List (Units × Payload Num) → List (Units × Payload Num)
  | [] => []
  | field :: fields => assign field.1 (scrubField depth field) (scrubFields depth fields)

def scrubField (depth : ℕ) : Units × Payload Num → Payload Num
  | (key, value) =>
    if recordSensitive key then .text (units "[Redacted]") else scrubValue depth value

end

def scrubSensitiveRecord (value : Payload Num) : Payload Num := scrubValue 0 value

/-! ## Payloads that differ in secrets -/

mutual

/-- **The payloads agree**, but for values under sensitive keys. -/
inductive Agree (sensitive : Units → Bool) : Payload Num → Payload Num → Prop
  | same (value : Payload Num) : Agree sensitive value value
  | array {items items' : List (Payload Num)} (h : AgreeItems sensitive items items') :
      Agree sensitive (.array items) (.array items')
  | object {fields fields' : List (Units × Payload Num)} (h : AgreeFields sensitive fields fields') :
      Agree sensitive (.object fields) (.object fields')

inductive AgreeItems (sensitive : Units → Bool) : List (Payload Num) → List (Payload Num) → Prop
  | nil : AgreeItems sensitive [] []
  | cons {item item' : Payload Num} {items items' : List (Payload Num)}
      (h : Agree sensitive item item') (hs : AgreeItems sensitive items items') :
      AgreeItems sensitive (item :: items) (item' :: items')

inductive AgreeFields (sensitive : Units → Bool) :
    List (Units × Payload Num) → List (Units × Payload Num) → Prop
  | nil : AgreeFields sensitive [] []
  | secret {key : Units} {fields fields' : List (Units × Payload Num)} (hk : sensitive key = true)
      (value value' : Payload Num) (hs : AgreeFields sensitive fields fields') :
      AgreeFields sensitive ((key, value) :: fields) ((key, value') :: fields')
  | field {key : Units} {value value' : Payload Num} {fields fields' : List (Units × Payload Num)}
      (h : Agree sensitive value value') (hs : AgreeFields sensitive fields fields') :
      AgreeFields sensitive ((key, value) :: fields) ((key, value') :: fields')

end

mutual

theorem redactValue_agree {v w : Payload Num} (depth : ℕ) (h : Agree connectorSensitive v w) :
    redactValue depth v = redactValue depth w := by
  cases h with
  | same => rfl
  | array => rfl
  | object h =>
    unfold redactValue
    rw [redactFields_agree depth h]

theorem redactFields_agree {fs gs : List (Units × Payload Num)} (depth : ℕ)
    (h : AgreeFields connectorSensitive fs gs) : redactFields depth fs = redactFields depth gs := by
  cases h with
  | nil => rfl
  | secret hk v w hs =>
    unfold redactFields redactField
    rw [if_pos hk, if_pos hk, redactFields_agree depth hs]
  | field h hs =>
    unfold redactFields redactField
    rw [redactValue_agree (depth + 1) h, redactFields_agree depth hs]

end

mutual

theorem scrubValue_agree {v w : Payload Num} (depth : ℕ) (h : Agree recordSensitive v w) :
    scrubValue depth v = scrubValue depth w := by
  cases h with
  | same => rfl
  | array h =>
    unfold scrubValue
    rw [scrubItems_agree (depth + 1) h]
  | object h =>
    unfold scrubValue
    rw [scrubFields_agree (depth + 1) h]

theorem scrubItems_agree {vs ws : List (Payload Num)} (depth : ℕ)
    (h : AgreeItems recordSensitive vs ws) : scrubItems depth vs = scrubItems depth ws := by
  cases h with
  | nil => rfl
  | cons h hs =>
    unfold scrubItems
    rw [scrubValue_agree depth h, scrubItems_agree depth hs]

theorem scrubFields_agree {fs gs : List (Units × Payload Num)} (depth : ℕ)
    (h : AgreeFields recordSensitive fs gs) : scrubFields depth fs = scrubFields depth gs := by
  cases h with
  | nil => rfl
  | secret hk v w hs =>
    unfold scrubFields scrubField
    rw [if_pos hk, if_pos hk, scrubFields_agree depth hs]
  | field h hs =>
    unfold scrubFields scrubField
    rw [scrubValue_agree depth h, scrubFields_agree depth hs]

end

/-! ## Twice is once -/

theorem length_shorten (s : Units) : (shorten s).length ≤ 120 := by
  unfold shorten
  split
  · rw [List.length_append, List.length_take]
    show min 117 s.length + 3 ≤ 120
    omega
  · omega

theorem shorten_shorten (s : Units) : shorten (shorten s) = shorten s :=
  if_neg (Nat.not_lt.mpr (length_shorten s))

mutual

theorem redactValue_twice {v w : Payload Num} (depth : ℕ) (h : redactValue depth v = some w) :
    redactValue depth w = some w := by
  cases v with
  | object fields =>
    unfold redactValue at h
    split at h
    · cases h
    · rename_i hdepth
      cases h
      unfold redactValue
      rw [if_neg hdepth, redactFields_twice depth fields]
  | text s =>
    cases h
    unfold redactValue
    rw [shorten_shorten]
  | null => cases h; rfl
  | bool b => cases h; rfl
  | number n => cases h; rfl
  | undefined => cases h
  | other n => cases h
  | array items => cases h

theorem redactFields_twice (depth : ℕ) (fields : List (Units × Payload Num)) :
    redactFields depth (redactFields depth fields) = redactFields depth fields := by
  cases fields with
  | nil => rfl
  | cons field fields =>
    have ih := redactFields_twice depth fields
    rw [redactFields]
    split
    · rename_i value hvalue
      unfold assign
      split
      · exact ih
      · rename_i hkey
        rw [redactFields, redactField_twice depth field hvalue]
        dsimp only
        rw [assign, if_neg hkey, ih]
    · exact ih

theorem redactField_twice (depth : ℕ) (field : Units × Payload Num) {value : Payload Num}
    (h : redactField depth field = some value) :
    redactField depth (field.1, value) = some value := by
  obtain ⟨key, v⟩ := field
  unfold redactField at h ⊢
  split at h
  · rename_i hk
    rw [if_pos hk, h]
  · rename_i hk
    rw [if_neg hk, redactValue_twice (depth + 1) h]

end

theorem redactConnectorPayload_twice (v : Payload Num) :
    redactConnectorPayload (resultOf (redactConnectorPayload v)) = redactConnectorPayload v := by
  cases v with
  | object fields => exact congrArg some (redactFields_twice 0 fields)
  | null | undefined | bool | number | text | other | array => rfl

mutual

theorem scrubValue_twice (depth : ℕ) (v : Payload Num) :
    scrubValue depth (scrubValue depth v) = scrubValue depth v := by
  by_cases hdepth : 8 < depth
  · have hcut : ∀ w : Payload Num, scrubValue depth w = truncated := by
      intro w
      cases w <;> exact if_pos hdepth
    rw [hcut v, hcut]
  · cases v with
    | array items =>
      have hin : ∀ items : List (Payload Num), scrubValue depth (.array items) =
          .array (scrubItems (depth + 1) items) := fun _ => if_neg hdepth
      rw [hin, hin, scrubItems_twice (depth + 1) items]
    | object fields =>
      have hin : ∀ fields : List (Units × Payload Num), scrubValue depth (.object fields) =
          .object (scrubFields (depth + 1) fields) := fun _ => if_neg hdepth
      rw [hin, hin, scrubFields_twice (depth + 1) fields]
    | null => exact congrArg (scrubValue depth) (if_neg hdepth)
    | undefined => exact congrArg (scrubValue depth) (if_neg hdepth)
    | bool b => exact congrArg (scrubValue depth) (if_neg hdepth)
    | number n => exact congrArg (scrubValue depth) (if_neg hdepth)
    | text s => exact congrArg (scrubValue depth) (if_neg hdepth)
    | other n => exact congrArg (scrubValue depth) (if_neg hdepth)

theorem scrubItems_twice (depth : ℕ) (items : List (Payload Num)) :
    scrubItems depth (scrubItems depth items) = scrubItems depth items := by
  cases items with
  | nil => rfl
  | cons item items =>
    rw [scrubItems, scrubItems, scrubValue_twice depth item, scrubItems_twice depth items]

theorem scrubFields_twice (depth : ℕ) (fields : List (Units × Payload Num)) :
    scrubFields depth (scrubFields depth fields) = scrubFields depth fields := by
  cases fields with
  | nil => rfl
  | cons field fields =>
    have ih := scrubFields_twice depth fields
    rw [scrubFields, assign]
    split
    · exact ih
    · rename_i hkey
      rw [scrubFields, assign, if_neg hkey, scrubField_twice depth field, ih]

theorem scrubField_twice (depth : ℕ) (field : Units × Payload Num) :
    scrubField depth (field.1, scrubField depth field) = scrubField depth field := by
  obtain ⟨key, v⟩ := field
  unfold scrubField
  split
  · rfl
  · rename_i hk
    rw [scrubField, if_neg hk, scrubValue_twice depth v]

end

theorem scrubSensitiveRecord_twice (v : Payload Num) :
    scrubSensitiveRecord (scrubSensitiveRecord v) = scrubSensitiveRecord v := scrubValue_twice 0 v

/-! ## What a redacted payload has -/

inductive Occurs (x : Payload Num) : Payload Num → Prop
  | self : Occurs x x
  | item {item : Payload Num} {items : List (Payload Num)} (hm : item ∈ items)
      (h : Occurs x item) : Occurs x (.array items)
  | field {field : Units × Payload Num} {fields : List (Units × Payload Num)} (hm : field ∈ fields)
      (h : Occurs x field.2) : Occurs x (.object fields)

/-- No array and no string of more than 120 code units. -/
def Short : Payload Num → Prop
  | .array _ => False
  | .text s => s.length ≤ 120
  | _ => True

mutual

theorem short_of_redactValue {v w x : Payload Num} (depth : ℕ) (h : redactValue depth v = some w)
    (hx : Occurs x w) : Short x := by
  cases v with
  | object fields =>
    unfold redactValue at h
    split at h
    · cases h
    · cases h
      cases hx with
      | self => trivial
      | field hm hx => exact short_of_redactFields depth fields hm hx
  | text s =>
    cases h
    cases hx
    exact length_shorten s
  | null => cases h; cases hx; trivial
  | bool b => cases h; cases hx; trivial
  | number n => cases h; cases hx; trivial
  | undefined => cases h
  | other n => cases h
  | array items => cases h

theorem short_of_redactFields {x : Payload Num} (depth : ℕ) (fields : List (Units × Payload Num))
    {field : Units × Payload Num} (hm : field ∈ redactFields depth fields) (hx : Occurs x field.2) :
    Short x := by
  cases fields with
  | nil => cases hm
  | cons first rest =>
    rw [redactFields] at hm
    split at hm
    · rename_i value hvalue
      unfold assign at hm
      split at hm
      · exact short_of_redactFields depth rest hm hx
      · rcases List.mem_cons.mp hm with rfl | hm
        · exact short_of_redactField depth first hvalue hx
        · exact short_of_redactFields depth rest hm hx
    · exact short_of_redactFields depth rest hm hx

theorem short_of_redactField {x : Payload Num} (depth : ℕ) (field : Units × Payload Num)
    {value : Payload Num} (h : redactField depth field = some value) (hx : Occurs x value) :
    Short x := by
  obtain ⟨key, v⟩ := field
  unfold redactField at h
  split at h
  · cases h
    cases hx
    show (units "[redacted]").length ≤ 120
    decide
  · exact short_of_redactValue (depth + 1) h hx

end

theorem short_of_redacted {v x : Payload Num} (hx : Occurs x (resultOf (redactConnectorPayload v))) :
    Short x := by
  cases v with
  | object fields =>
    cases hx with
    | self => trivial
    | field hm hx => exact short_of_redactFields 0 fields hm hx
  | null | undefined | bool | number | text | other | array =>
    cases hx
    trivial

/-- **Redaction is noninterfering**, idempotent and short. -/
theorem redaction_noninterfering :
    (∀ v w : Payload Num, Agree connectorSensitive v w →
      redactConnectorPayload v = redactConnectorPayload w) ∧
    (∀ v w : Payload Num, Agree recordSensitive v w →
      scrubSensitiveRecord v = scrubSensitiveRecord w) ∧
    (∀ v : Payload Num, redactConnectorPayload (resultOf (redactConnectorPayload v)) =
      redactConnectorPayload v) ∧
    (∀ v : Payload Num, scrubSensitiveRecord (scrubSensitiveRecord v) = scrubSensitiveRecord v) ∧
    ∀ v x : Payload Num, Occurs x (resultOf (redactConnectorPayload v)) → Short x := by
  refine ⟨?_, fun v w h => scrubValue_agree 0 h, redactConnectorPayload_twice,
    scrubSensitiveRecord_twice, fun v x hx => short_of_redacted hx⟩
  intro v w h
  cases h with
  | same => rfl
  | array => rfl
  | object h => exact congrArg some (redactFields_agree 0 h)

/-- A phone in an array, two numbers of it. -/
theorem redaction_noninterfering_phone :
    scrubSensitiveRecord (.array [.object [(units "guestPhone", .number 1)]]) =
      scrubSensitiveRecord (.array [.object [(units "guestPhone", .number 2)]]) :=
  redaction_noninterfering.2.1 _ _
    (.array (.cons (.object (.secret (by decide +kernel) (.number 1) (.number 2) .nil)) .nil))

end PatronLoyalty.Privacy
