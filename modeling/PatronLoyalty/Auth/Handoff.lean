import PatronLoyalty.Formats.Base64

/-!
# The impersonation handoff

`encodeImpersonationHandoff` writes a payload as JSON in URL-safe base64, and
`decodeImpersonationHandoff` reads it, each with `Buffer` or with what a browser has (`Runtime`).
`buildImpersonationLaunchUrl` puts it into the fragment of a URL.

Headline: **`handoff_round_trip`**, for either runtime on either side.

`JSON` is a parameter (`Platform`), and so is how bytes that are no UTF-8 are read. A text of
`JSON.stringify` has no lone surrogates, and is a list of characters; the texts of a payload, and
URLs, are UTF-16.
-/

namespace PatronLoyalty.Auth.Handoff

open Formats Formats.Base64

/-! ## Payloads -/

inductive JsonValue
  | null
  | bool (b : Bool)
  | text (s : Units)
  | object (fields : List (String × JsonValue))

/-- `value?.[key]` -/
def JsonValue.get : JsonValue → String → Option JsonValue
  | .object fields, key => fields.lookup key
  | _, _ => none

/-- `typeof value === 'string'` -/
def isString : Option JsonValue → Bool
  | some (.text _) => true
  | _ => false

structure Operator where
  id : Units
  email : Units
  /-- Absent, null or a text. -/
  firstName : Option (Option Units) := none
  lastName : Option (Option Units) := none

structure ImpersonationHandoffPayload where
  accessToken : Units
  orgId : Units
  orgName : Units
  operatorOrgSlug : Units
  role : Units
  roleSimulation : Option Bool := none
  simulatedBranchId : Option Units := none
  simulatedBranchName : Option Units := none
  returnUrl : Option Units := none
  operator : Operator

def property (key : String) (value : Option JsonValue) : List (String × JsonValue) :=
  value.toList.map fun v => (key, v)

def nullable : Option Units → JsonValue
  | none => .null
  | some s => .text s

def Operator.toJson (o : Operator) : JsonValue :=
  .object ([("id", .text o.id), ("email", .text o.email)] ++
    property "firstName" (o.firstName.map nullable) ++
    property "lastName" (o.lastName.map nullable))

/-- The object, without the properties that are undefined. -/
def ImpersonationHandoffPayload.toJson (p : ImpersonationHandoffPayload) : JsonValue :=
  .object ([("accessToken", .text p.accessToken), ("orgId", .text p.orgId),
    ("orgName", .text p.orgName), ("operatorOrgSlug", .text p.operatorOrgSlug),
    ("role", .text p.role), ("operator", p.operator.toJson)] ++
    property "roleSimulation" (p.roleSimulation.map .bool) ++
    property "simulatedBranchId" (p.simulatedBranchId.map .text) ++
    property "simulatedBranchName" (p.simulatedBranchName.map .text) ++
    property "returnUrl" (p.returnUrl.map .text))

/-! ## Encoding -/

inductive Runtime
  | buffer | browser
  deriving DecidableEq, Repr

structure Platform where
  stringify : JsonValue → List Char
  parse : List Char → Option JsonValue
  /-- The text of bytes that are no UTF-8. -/
  replaced : List ℕ → List Char

/-- **`JSON.parse` inverts `JSON.stringify`** on the payload, which is an object. -/
structure Platform.Inverts (P : Platform) (p : ImpersonationHandoffPayload) : Prop where
  parse : P.parse (P.stringify p.toJson) = some p.toJson
  object : ∃ rest, P.stringify p.toJson = '\x7b' :: rest

def utf8Bytes (s : List Char) : List ℕ := (s.flatMap String.utf8EncodeChar).map UInt8.toNat

def utf8Text (P : Platform) (bytes : List ℕ) : List Char :=
  ((bytes.map UInt8.ofNat).toByteArray.utf8Decode?).elim (P.replaced bytes) Array.toList

def plus : UInt16 := 43

def minus : UInt16 := 45

def slash : UInt16 := 47

def underscore : UInt16 := 95

def equals : UInt16 := 61

def hashMark : UInt16 := 35

/-- Signs of padding, up to a multiple of four letters. -/
def padded (s : Units) : Units := s ++ List.replicate ((4 - s.length % 4) % 4) equals

/-- `btoa` of the characters of the bytes. -/
def btoa (bytes : List ℕ) : Units := padded ((sextets bytes).map (letter "+/"))

/-- `s.replace(/a/g, b)`, on a unit. -/
def replaceUnit (a b c : UInt16) : UInt16 := if c = a then b else c

def toBase64Url (r : Runtime) (value : List Char) : Units :=
  match r with
  | .buffer => (sextets (utf8Bytes value)).map (letter "-_")
  | .browser => (((btoa (utf8Bytes value)).map (replaceUnit plus minus)).map
      (replaceUnit slash underscore)).rdropWhile (· == equals)

/-- Up to two signs of padding at the end. -/
def dropPadding (s : Units) : Units :=
  match s.reverse with
  | 61 :: 61 :: t => t.reverse
  | 61 :: t => t.reverse
  | _ => s

/-- `atob`, with the characters of the result as bytes; `none` when it throws. -/
def atob (s : Units) : Option (List ℕ) :=
  let data := s.filter fun c => !(c == 9 || c == 10 || c == 12 || c == 13 || c == 32)
  let data := if data.length % 4 = 0 then dropPadding data else data
  if data.length % 4 = 1 then none else (data.mapM letterValue).map octets

/-- `Buffer.from(s, 'base64')`: it knows both alphabets, and skips what is no letter. -/
def bufferFrom (s : Units) : List ℕ :=
  octets (s.filterMap fun c =>
    letterValue (replaceUnit minus plus (replaceUnit underscore slash c)))

/-- `TextDecoder` drops a byte order mark. -/
def dropMark (bytes : List ℕ) : List ℕ :=
  if [0xEF, 0xBB, 0xBF].isPrefixOf bytes then bytes.drop 3 else bytes

def fromBase64Url (P : Platform) (r : Runtime) (value : Units) : Option (List Char) :=
  let normalized := (value.map (replaceUnit minus plus)).map (replaceUnit underscore slash)
  match r with
  | .buffer => some (utf8Text P (bufferFrom (padded normalized)))
  | .browser => (atob (padded normalized)).map fun bytes => utf8Text P (dropMark bytes)

def encodeImpersonationHandoff (P : Platform) (r : Runtime) (p : ImpersonationHandoffPayload) :
    Units :=
  toBase64Url r (P.stringify p.toJson)

/-- `null` and an exception are one. -/
def decodeImpersonationHandoff (P : Platform) (r : Runtime) (encoded : Units) :
    Option JsonValue := do
  let parsed ← P.parse (← fromBase64Url P r encoded)
  let operator := (parsed.get "operator").getD .null
  if isString (parsed.get "accessToken") && isString (parsed.get "orgId") &&
      isString (parsed.get "orgName") && isString (parsed.get "operatorOrgSlug") &&
      isString (parsed.get "role") && isString (operator.get "id") &&
      isString (operator.get "email")
  then some parsed else none

/-! ## URLs -/

def handoffPrefix : Units := units "#qp-imp="

def dropSlash (s : Units) : Units := if s.getLast? = some slash then s.dropLast else s

def buildImpersonationLaunchUrl (P : Platform) (r : Runtime) (appBaseUrl path : Units)
    (p : ImpersonationHandoffPayload) : Units :=
  let normalizedPath := if path.head? = some slash then path else slash :: path
  dropSlash appBaseUrl ++ normalizedPath ++ (handoffPrefix ++ encodeImpersonationHandoff P r p)

def parseImpersonationHandoffFromHash (P : Platform) (r : Runtime) (hash : Units) :
    Option JsonValue :=
  if handoffPrefix.isPrefixOf hash then
    decodeImpersonationHandoff P r (hash.drop handoffPrefix.length)
  else none

def fragment (url : Units) : Units := url.dropWhile (· != hashMark)

/-! ## Round trips -/

variable {P : Platform} {p : ImpersonationHandoffPayload} {s : List Char} {x : ℕ} {l : List ℕ}

theorem utf8Bytes_lt : ∀ b ∈ utf8Bytes s, b < 256 := by
  intro b hb
  obtain ⟨u, -, rfl⟩ := List.mem_map.mp hb
  exact u.toNat_lt

theorem utf8Text_utf8Bytes : utf8Text P (utf8Bytes s) = s := by
  have hbytes : (utf8Bytes s).map UInt8.ofNat = s.flatMap String.utf8EncodeChar := by
    unfold utf8Bytes
    rw [List.map_map]
    exact (List.map_congr_left fun u _ => UInt8.ofNat_toNat).trans (List.map_id _)
  have hdecode : ((s.flatMap String.utf8EncodeChar).toByteArray).utf8Decode? = some s.toArray :=
    List.utf8Decode?_utf8Encode
  unfold utf8Text
  rw [hbytes, hdecode]
  rfl

theorem dropMark_utf8Bytes {rest : List Char} : dropMark (utf8Bytes ('\x7b' :: rest)) =
    utf8Bytes ('\x7b' :: rest) := rfl

/-- **The letters**: what each replacement makes of them. -/
theorem letters (h : x < 64) :
    replaceUnit slash underscore (replaceUnit plus minus (letter "+/" x)) = letter "-_" x ∧
    replaceUnit underscore slash (replaceUnit minus plus (letter "-_" x)) = letter "+/" x ∧
    replaceUnit minus plus (replaceUnit underscore slash (letter "+/" x)) = letter "+/" x ∧
    letter "-_" x ≠ equals ∧ letter "+/" x ≠ equals ∧
    (!(letter "+/" x == 9 || letter "+/" x == 10 || letter "+/" x == 12 || letter "+/" x == 13 ||
      letter "+/" x == 32)) = true := by
  have hall : ∀ x < 64,
      replaceUnit slash underscore (replaceUnit plus minus (letter "+/" x)) = letter "-_" x ∧
      replaceUnit underscore slash (replaceUnit minus plus (letter "-_" x)) = letter "+/" x ∧
      replaceUnit minus plus (replaceUnit underscore slash (letter "+/" x)) = letter "+/" x ∧
      letter "-_" x ≠ equals ∧ letter "+/" x ≠ equals ∧
      (!(letter "+/" x == 9 || letter "+/" x == 10 || letter "+/" x == 12 || letter "+/" x == 13 ||
        letter "+/" x == 32)) = true := by decide +kernel
  exact hall x h

theorem rdropWhile_equals {xs : Units} (h : ∀ c ∈ xs, c ≠ equals) (k : ℕ) :
    (xs ++ List.replicate k equals).rdropWhile (· == equals) = xs := by
  induction k with
  | zero =>
    rw [List.replicate_zero, List.append_nil, List.rdropWhile_eq_self_iff]
    intro hl hlast
    exact h _ (List.getLast_mem hl) (eq_of_beq hlast)
  | succ k ih =>
    rw [List.replicate_succ', ← List.append_assoc]
    exact (List.rdropWhile_concat_pos (· == equals) _ equals rfl).trans ih

/-- **Both runtimes** write the letters of the groups. -/
theorem toBase64Url_eq (r : Runtime) (s : List Char) :
    toBase64Url r s = (sextets (utf8Bytes s)).map (letter "-_") := by
  have hlt := sextets_lt (utf8Bytes_lt (s := s))
  cases r with
  | buffer => rfl
  | browser =>
    have hpad (k : ℕ) : ((List.replicate k equals).map (replaceUnit plus minus)).map
        (replaceUnit slash underscore) = List.replicate k equals := by
      rw [List.map_replicate, List.map_replicate]
      rfl
    have hmap : (((sextets (utf8Bytes s)).map (letter "+/")).map (replaceUnit plus minus)).map
        (replaceUnit slash underscore) = (sextets (utf8Bytes s)).map (letter "-_") := by
      rw [List.map_map, List.map_map]
      exact List.map_congr_left fun x hx => (letters (hlt x hx)).1
    unfold toBase64Url btoa padded
    simp only [List.map_append]
    rw [hpad, hmap]
    refine rdropWhile_equals (fun c hc => ?_) _
    obtain ⟨x, hx, rfl⟩ := List.mem_map.mp hc
    exact (letters (hlt x hx)).2.2.2.1

theorem normalized_letters (h : ∀ x ∈ l, x < 64) :
    ((l.map (letter "-_")).map (replaceUnit minus plus)).map (replaceUnit underscore slash) =
      l.map (letter "+/") := by
  rw [List.map_map, List.map_map]
  exact List.map_congr_left fun x hx => (letters (h x hx)).2.1

theorem bufferFrom_padded (h : ∀ x ∈ l, x < 64) :
    bufferFrom (padded (l.map (letter "+/"))) = octets l := by
  have hpad (k : ℕ) : (List.replicate k equals).filterMap (fun c =>
      letterValue (replaceUnit minus plus (replaceUnit underscore slash c))) = [] := by
    refine List.filterMap_eq_nil_iff.mpr fun c hc => ?_
    rw [List.eq_of_mem_replicate hc]
    decide +kernel
  have hletters : (l.map (letter "+/")).filterMap (fun c =>
      letterValue (replaceUnit minus plus (replaceUnit underscore slash c))) = l := by
    rw [List.filterMap_map]
    refine (List.filterMap_congr fun x hx => ?_).trans List.filterMap_some
    rw [Function.comp_apply, (letters (h x hx)).2.2.1, letterValue_letter (h x hx)]
  unfold bufferFrom padded
  rw [List.filterMap_append, hletters, hpad, List.append_nil]

theorem dropPadding_letters {xs : Units} (h : ∀ c ∈ xs, c ≠ equals) {k : ℕ} (hk : k ≤ 2) :
    dropPadding (xs ++ List.replicate k equals) = xs := by
  have hrev : ∀ c ∈ xs.reverse, c ≠ equals := fun c hc => h c (List.mem_reverse.mp hc)
  unfold dropPadding
  obtain rfl | rfl | rfl : k = 0 ∨ k = 1 ∨ k = 2 := by omega
  · rw [List.replicate_zero, List.append_nil]
    split
    next t ht => exact absurd rfl (hrev 61 (ht ▸ List.mem_cons_self))
    next t _ ht => exact absurd rfl (hrev 61 (ht ▸ List.mem_cons_self))
    next => rfl
  · rw [List.reverse_append]
    split
    next t ht =>
      have hx : xs.reverse = 61 :: t := (List.cons.inj ht).2
      exact absurd rfl (hrev 61 (hx ▸ List.mem_cons_self))
    next t _ ht =>
      have hx : xs.reverse = t := (List.cons.inj ht).2
      rw [← hx, List.reverse_reverse]
    next _ hnone => exact absurd rfl (hnone xs.reverse)
  · rw [List.reverse_append]
    exact List.reverse_reverse xs

theorem mapM_eq_self {f : ℕ → Option ℕ} (h : ∀ x ∈ l, f x = some x) : l.mapM f = some l := by
  induction l with
  | nil => rfl
  | cons x l ih =>
    rw [List.mapM_cons, h x List.mem_cons_self, ih fun y hy => h y (List.mem_cons_of_mem _ hy)]
    rfl

theorem atob_padded (h : ∀ x ∈ l, x < 64) (hlen : l.length % 4 ≠ 1) :
    atob (padded (l.map (letter "+/"))) = some (octets l) := by
  have hkept : (padded (l.map (letter "+/"))).filter (fun c =>
      !(c == 9 || c == 10 || c == 12 || c == 13 || c == 32)) = padded (l.map (letter "+/")) := by
    refine List.filter_eq_self.mpr fun c hc => ?_
    rcases List.mem_append.mp hc with hc | hc
    · obtain ⟨x, hx, rfl⟩ := List.mem_map.mp hc
      exact (letters (h x hx)).2.2.2.2.2
    · rw [List.eq_of_mem_replicate hc]
      rfl
  have hmod : (padded (l.map (letter "+/"))).length % 4 = 0 := by
    simp only [padded, List.length_append, List.length_map, List.length_replicate]
    omega
  have hdrop : dropPadding (padded (l.map (letter "+/"))) = l.map (letter "+/") := by
    refine dropPadding_letters (fun c hc => ?_) ?_
    · obtain ⟨x, hx, rfl⟩ := List.mem_map.mp hc
      exact (letters (h x hx)).2.2.2.2.1
    · rw [List.length_map]
      omega
  have hvalues : (l.map (letter "+/")).mapM letterValue = some l := by
    rw [List.mapM_map]
    exact mapM_eq_self fun x hx => letterValue_letter (h x hx)
  unfold atob
  simp only [hkept, hmod, if_true, hdrop, List.length_map, if_neg hlen, hvalues, Option.map_some]

/-- **Either runtime** reads what either has written. -/
theorem fromBase64Url_toBase64Url (r r' : Runtime) (rest : List Char) :
    fromBase64Url P r' (toBase64Url r ('\x7b' :: rest)) = some ('\x7b' :: rest) := by
  have hlt := sextets_lt (utf8Bytes_lt (s := '\x7b' :: rest))
  have hoctets := octets_sextets (utf8Bytes_lt (s := '\x7b' :: rest))
  unfold fromBase64Url
  rw [toBase64Url_eq, normalized_letters hlt]
  cases r' with
  | buffer => simp only [bufferFrom_padded hlt, hoctets, utf8Text_utf8Bytes]
  | browser =>
    simp only [atob_padded hlt (length_sextets _), hoctets, Option.map_some, dropMark_utf8Bytes,
      utf8Text_utf8Bytes]

theorem decode_encode (r r' : Runtime) (h : P.Inverts p) :
    decodeImpersonationHandoff P r' (encodeImpersonationHandoff P r p) = some p.toJson := by
  obtain ⟨rest, hrest⟩ := h.object
  have hparse := h.parse
  rw [hrest] at hparse
  unfold decodeImpersonationHandoff encodeImpersonationHandoff
  rw [hrest, fromBase64Url_toBase64Url]
  simp only [Option.bind_eq_bind, Option.bind_some, hparse]
  rfl

theorem dropWhile_hashMark {xs ys : Units} (h : hashMark ∉ xs) :
    (xs ++ ys).dropWhile (· != hashMark) = ys.dropWhile (· != hashMark) :=
  List.dropWhile_append_of_pos fun _ hc => bne_iff_ne.mpr fun heq => h (heq ▸ hc)

theorem fragment_launchUrl (r : Runtime) {base path : Units} (hbase : hashMark ∉ base)
    (hpath : hashMark ∉ path) : fragment (buildImpersonationLaunchUrl P r base path p) =
      handoffPrefix ++ encodeImpersonationHandoff P r p := by
  have hslash : hashMark ∉ dropSlash base := by
    unfold dropSlash
    split
    · exact fun hm => hbase (List.dropLast_subset _ hm)
    · exact hbase
  have hnormalized : hashMark ∉ if path.head? = some slash then path else slash :: path := by
    split
    · exact hpath
    · exact List.not_mem_cons_of_ne_of_not_mem (by decide) hpath
  unfold fragment buildImpersonationLaunchUrl
  rw [List.append_assoc, dropWhile_hashMark hslash, dropWhile_hashMark hnormalized]
  rfl

/-- **The handoff round-trips**, whatever runtimes write and read it, and the text is URL-safe. -/
theorem handoff_round_trip (P : Platform) (p : ImpersonationHandoffPayload) (h : P.Inverts p)
    (r r' : Runtime) :
    decodeImpersonationHandoff P r' (encodeImpersonationHandoff P r p) = some p.toJson ∧
    (∀ base path : Units, hashMark ∉ base → hashMark ∉ path →
      parseImpersonationHandoffFromHash P r'
        (fragment (buildImpersonationLaunchUrl P r base path p)) = some p.toJson) ∧
    ∀ c ∈ encodeImpersonationHandoff P r p, ∃ x < 64, c = letter "-_" x := by
  refine ⟨decode_encode r r' h, fun base path hbase hpath => ?_, fun c hc => ?_⟩
  · rw [fragment_launchUrl r hbase hpath]
    unfold parseImpersonationHandoffFromHash
    rw [if_pos (List.isPrefixOf_iff_prefix.mpr (List.prefix_append _ _)), List.drop_left]
    exact decode_encode r r' h
  · unfold encodeImpersonationHandoff at hc
    rw [toBase64Url_eq] at hc
    obtain ⟨x, hx, rfl⟩ := List.mem_map.mp hc
    exact ⟨x, sextets_lt utf8Bytes_lt x hx, rfl⟩

/-! ## An instance -/

/-- A payload of Latin letters, one with an accent, and of a lone surrogate. -/
def josePayload : ImpersonationHandoffPayload where
  accessToken := units "t"
  orgId := units "o"
  orgName := units "José"
  operatorOrgSlug := units "s"
  role := units "r"
  returnUrl := some [0xD800]
  operator := { id := units "u", email := units "e", lastName := some none }

/-- What `JSON.stringify` gives for it, after the first brace. -/
def joseText : List Char :=
  ("\"accessToken\":\"t\",\"orgId\":\"o\",\"orgName\":\"José\",\"operatorOrgSlug\":\"s\"," ++
    "\"role\":\"r\",\"operator\":\x7b\"id\":\"u\",\"email\":\"e\",\"lastName\":null\x7d," ++
    "\"returnUrl\":\"\\ud800\"\x7d").toList

def josePlatform : Platform where
  stringify := fun _ => '\x7b' :: joseText
  parse := fun text => if text = '\x7b' :: joseText then some josePayload.toJson else none
  replaced := fun _ => []

theorem josePlatform_stringify (v : JsonValue) :
    josePlatform.stringify v = '\x7b' :: joseText := rfl

theorem josePlatform_parse :
    josePlatform.parse ('\x7b' :: joseText) = some josePayload.toJson := by
  simp only [josePlatform, if_true]

theorem handoff_round_trip_jose :
    josePlatform.Inverts josePayload ∧
    decodeImpersonationHandoff josePlatform .browser
      (encodeImpersonationHandoff josePlatform .buffer josePayload) = some josePayload.toJson := by
  have h : josePlatform.Inverts josePayload :=
    { parse := by rw [josePlatform_stringify, josePlatform_parse]
      object := ⟨joseText, josePlatform_stringify _⟩ }
  exact ⟨h, (handoff_round_trip josePlatform josePayload h .buffer .browser).1⟩

end PatronLoyalty.Auth.Handoff
