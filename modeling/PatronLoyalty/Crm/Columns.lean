import PatronLoyalty.Crm.Csv

/-!
# The records of a CSV text

`csvRowsToObjects`: the cells of each row that is not blank, under the fields that the header's cells name.

`recordsOf`: the records of the text, blank ones counted; `dataRows`: those after the header that are not
blank, with their places. Headline: **`records_sound_iff`**. The condition: no empty line comes before a row
that is not blank, and where a row has something in one of the columns of a field, it has something in the
last of them.
-/

namespace PatronLoyalty.Crm.Csv

open Formats

/-! ## Headers -/

/-- White space and line terminators, as `\s` and `trim` have them. -/
def isSpace (c : Char) : Bool :=
  let n := c.toNat
  n == 0x20 || (0x09 ≤ n && n ≤ 0x0D) || n == 0xA0 || n == 0x1680 || (0x2000 ≤ n && n ≤ 0x200A) ||
    n == 0x2028 || n == 0x2029 || n == 0x202F || n == 0x205F || n == 0x3000 || n == 0xFEFF

def trimStart : Text → Text := List.dropWhile isSpace

def trim (text : Text) : Text := (trimStart (trimStart text).reverse).reverse

/-- `toLowerCase`, as far as it gives ASCII letters: `normalizeCsvHeader` drops what else it gives. -/
def toLowerCase (text : Text) : Text := text.flatMap fun c =>
  if 'A' ≤ c ∧ c ≤ 'Z' then [Char.ofNat (c.toNat + 32)]
  else if c = '\u212A' then ['k']
  else if c = '\u0130' then ['i', '\u0307']
  else [c]

/-- `.replace(/[\s-]+/g, '_')`; `after`: the last character was one of them. -/
def underscores (after : Bool) : Text → Text
  | [] => []
  | c :: text =>
    if isSpace c || c == '-' then
      if after then underscores true text else '_' :: underscores true text
    else c :: underscores false text

/-- `[a-z0-9_]` -/
def isKeyChar (c : Char) : Bool :=
  decide ('a' ≤ c ∧ c ≤ 'z') || decide ('0' ≤ c ∧ c ≤ '9') || c == '_'

def normalizeCsvHeader (header : Text) : Text :=
  (underscores false (toLowerCase (trim header))).filter isKeyChar

def headerAliases : List (String × String) :=
  [("name", "name"), ("email", "email"), ("phone", "phone"), ("phonenumber", "phone"),
    ("mobile", "phone"), ("external_id", "externalId"), ("externalid", "externalId"),
    ("tags", "tags"), ("notes", "notes"), ("birthday", "birthday"), ("birthdate", "birthday"),
    ("dob", "birthday"), ("gender", "gender"), ("address_line1", "addressLine1"),
    ("address", "addressLine1"), ("address1", "addressLine1"), ("city", "city"),
    ("region", "region"), ("state", "region"), ("postal_code", "postalCode"),
    ("postalcode", "postalCode"), ("zip", "postalCode"), ("zipcode", "postalCode"),
    ("country", "country"), ("marketing_sms_consent", "marketingSmsConsent"),
    ("marketing_email_consent", "marketingEmailConsent"), ("sms_consent", "marketingSmsConsent"),
    ("email_consent", "marketingEmailConsent"), ("opening_points", "openingPoints"),
    ("points", "openingPoints"), ("points_balance", "openingPoints")]

/-- What every object inherits, under the keys that a normalized header can be, as a property name. -/
def inherited : List (String × String) :=
  [("constructor", "function Object() \x7b [native code] \x7d"), ("__proto__", "[object Object]")]

def mapCsvHeaderToField (header : Text) : Option String :=
  (headerAliases ++ inherited).lookup (String.ofList (normalizeCsvHeader header))

example : mapCsvHeaderToField "External ID".toList = some "externalId" := by decide +kernel

/-! ## Records -/

abbrev Record := String → Option Text

structure ImportRecord where
  rowNumber : ℕ
  record : Record

/-- `cells.every((c) => !c || !c.trim())` -/
def isBlank (cells : Row) : Bool := cells.all fun c => (trim c).isEmpty

/-- The loop over the columns. -/
def fill : List (Option String) → Row → Record → Record
  | [], _, record => record
  | none :: keys, cells, record => fill keys cells.tail record
  | some key :: keys, cells, record =>
    fill keys cells.tail (Function.update record key (some (trim (cells.headD []))))

/-- The loop over the rows: `r` is the index of the first. -/
def readRows (fieldKeys : List (Option String)) : ℕ → List Row → List ImportRecord
  | _, [] => []
  | r, cells :: rows =>
    if isBlank cells then readRows fieldKeys (r + 1) rows
    else ⟨r + 1, fill fieldKeys cells fun _ => none⟩ :: readRows fieldKeys (r + 1) rows

def csvRowsToObjects : List Row → List ImportRecord
  | [] => []
  | headerCells :: rows => readRows (headerCells.map mapCsvHeaderToField) 1 rows

/-! ## What is to hold -/

def keepRow (rows : List Row) (row : Row) : List Row := rows ++ [row]

/-- **The records of the text**, empty lines among them. -/
def recordsOf (text : Text) : List Row := (scan keepRow (stripBom text) {}).finish keepRow

/-- The rows that are not blank, with their places; `n` is the place of the first row. -/
def numbered : ℕ → List Row → List (ℕ × Row)
  | _, [] => []
  | n, cells :: rows => if isBlank cells then numbered (n + 1) rows else (n, cells) :: numbered (n + 1) rows

/-- The rows after the header that are not blank, with their places in the text. -/
def dataRows (text : Text) : List (ℕ × Row) := numbered 2 (recordsOf text).tail

def fieldKeys (text : Text) : List (Option String) :=
  ((recordsOf text).headD []).map mapCsvHeaderToField

def cellAt (cells : Row) (c : ℕ) : Text := trim (cells.getD c [])

/-- **A field's value** is what the row has in one of the field's columns, and something if it has something
in one of them. -/
def Valued (keys : List (Option String)) (cells : Row) (field : String) (value : Option Text) : Prop :=
  (value = none ∧ some field ∉ keys) ∨
    ∃ v, value = some v ∧ (∃ c, keys[c]? = some (some field) ∧ v = cellAt cells c) ∧
      ∀ c, keys[c]? = some (some field) → cellAt cells c ≠ [] → v ≠ []

structure Sound (keys : List (Option String)) (d : ℕ × Row) (o : ImportRecord) : Prop where
  rowNumber : o.rowNumber = d.1
  values (field : String) : Valued keys d.2 field (o.record field)

/-- No empty line comes before a row that is not blank. -/
def Compact : List Row → Prop
  | [] => True
  | cells :: rows => (cells = [[]] → ∀ row ∈ rows, isBlank row = true) ∧ Compact rows

def LastFilled (keys : List (Option String)) (cells : Row) : Prop := ∀ field c c',
  keys[c]? = some (some field) → cellAt cells c ≠ [] → keys[c']? = some (some field) →
  (∀ c'', c' < c'' → keys[c'']? ≠ some (some field)) → cellAt cells c' ≠ []

/-! ## What the parser skips -/

variable {text : Text} {rows : List Row} {row cells : Row} {keys : List (Option String)}
  {record : Record} {field : String} {n r m c : ℕ}

/-- What the parser makes of the records. -/
def skipEmpty : List Row → List Row
  | [] => []
  | first :: rows => first :: rows.filter (· ≠ [[]])

theorem skipEmpty_append (rows : List Row) (row : Row) :
    skipEmpty (keepRow rows row) = pushRow (skipEmpty rows) row := by
  unfold keepRow
  cases rows with
  | nil =>
    rw [List.nil_append, skipEmpty, skipEmpty, pushRow, if_neg fun h => h.2 rfl]
    rfl
  | cons first rows =>
    rw [List.cons_append, skipEmpty, skipEmpty, List.filter_append, pushRow]
    by_cases hr : row = [[]]
    · rw [if_pos ⟨hr, by simp⟩]
      simp [hr]
    · rw [if_neg fun h => hr h.1]
      simp [hr]

def Scanner.mapRows (f : List Row → List Row) (s : Scanner) : Scanner := { s with rows := f s.rows }

theorem scan_mapRows {push push' : List Row → Row → List Row} {f : List Row → List Row}
    (hf : ∀ rows row, f (push rows row) = push' (f rows) row) (text : Text) (s : Scanner) :
    scan push' text (s.mapRows f) = (scan push text s).mapRows f := by
  have hend : ∀ s : Scanner, (s.mapRows f).pushField.endRow push' =
      (s.pushField.endRow push).mapRows f := by
    intro s
    simp only [Scanner.mapRows, Scanner.pushField, Scanner.endRow, hf]
  fun_induction scan push text s with
  | case1 s => rfl
  | case2 s hq => exact scan_closing (s := s.mapRows f) hq (by simp)
  | case3 s hq rest ih => exact (scan_doubled (s := s.mapRows f) hq).trans ih
  | case4 s hq next rest hne ih =>
    exact (scan_closing (s := s.mapRows f) hq (by simpa using hne)).trans ih
  | case5 ch input s hq hne ih => exact (scan_inside (s := s.mapRows f) hq hne).trans ih
  | case6 input s hq ih =>
    rw [scan_outside (s := s.mapRows f) (eq_false_of_ne_true hq), if_pos rfl]
    exact ih
  | case7 input s hq _ ih =>
    exact (scan_comma (s := s.mapRows f) (eq_false_of_ne_true hq)).trans ih
  | case8 input s hq _ _ ih =>
    rw [scan_lf (s := s.mapRows f) (eq_false_of_ne_true hq), hend]
    exact ih
  | case9 input s hq _ _ _ ih =>
    exact (scan_cr (s := s.mapRows f) (eq_false_of_ne_true hq)).trans ih
  | case10 ch input s hq h1 h2 h3 h4 ih =>
    exact (scan_plain (s := s.mapRows f) (eq_false_of_ne_true hq)
      (by simp [special, h1, h2, h3, h4])).trans ih

theorem finish_mapRows {push push' : List Row → Row → List Row} {f : List Row → List Row}
    (hf : ∀ rows row, f (push rows row) = push' (f rows) row) (s : Scanner) :
    (s.mapRows f).finish push' = f (s.finish push) := by
  unfold Scanner.finish
  by_cases hc : s.field ≠ [] ∨ s.row ≠ []
  · rw [if_pos hc]
    exact (if_pos hc).trans (hf _ _).symm
  · rw [if_neg hc]
    exact if_neg hc

/-- **The parser gives the records**, but for empty lines after the first. -/
theorem parseCsvText_eq (text : Text) : parseCsvText text = skipEmpty (recordsOf text) := by
  have hscan := scan_mapRows skipEmpty_append (stripBom text) {}
  rw [show Scanner.mapRows skipEmpty {} = {} from rfl] at hscan
  unfold parseCsvText recordsOf
  rw [hscan]
  exact finish_mapRows skipEmpty_append _

/-! ## What a record has under a field -/

theorem cellAt_tail : cellAt cells.tail c = cellAt cells (c + 1) := by
  unfold cellAt
  cases cells <;> simp

theorem fill_of_notMem (h : some field ∉ keys) : fill keys cells record field = record field := by
  induction keys generalizing cells record with
  | nil => rfl
  | cons key keys ih =>
    rw [List.mem_cons, not_or] at h
    cases key with
    | none => exact ih h.2
    | some key =>
      refine (ih h.2).trans (Function.update_of_ne ?_ _ _)
      rintro rfl
      exact h.1 rfl

/-- **The last column** of a field gives its value. -/
theorem fill_last (hc : keys[c]? = some (some field))
    (hlast : ∀ c', c < c' → keys[c']? ≠ some (some field)) :
    fill keys cells record field = some (cellAt cells c) := by
  induction keys generalizing cells record c with
  | nil => cases hc
  | cons key keys ih =>
    cases c with
    | zero =>
      cases hc
      have hnot : some field ∉ keys := by
        intro hmem
        obtain ⟨c, hc⟩ := List.getElem?_of_mem hmem
        exact hlast (c + 1) (Nat.succ_pos c) hc
      rw [fill, fill_of_notMem hnot, Function.update_self]
      cases cells <;> rfl
    | succ c =>
      have hlast' : ∀ c', c < c' → keys[c']? ≠ some (some field) :=
        fun c' hc' => hlast (c' + 1) (Nat.succ_lt_succ hc')
      rw [← cellAt_tail]
      cases key with
      | none => exact ih hc hlast'
      | some key => exact ih hc hlast'

theorem exists_last (h : some field ∈ keys) : ∃ c : ℕ, keys[c]? = some (some field) ∧
    ∀ c' : ℕ, c < c' → keys[c']? ≠ some (some field) := by
  induction keys with
  | nil => cases h
  | cons key keys ih =>
    by_cases hmem : some field ∈ keys
    · obtain ⟨c, hc, hlast⟩ := ih hmem
      refine ⟨c + 1, hc, fun c' hc' => ?_⟩
      cases c' with
      | zero => cases hc'
      | succ c' => exact hlast c' (Nat.lt_of_succ_lt_succ hc')
    · obtain rfl := (List.mem_cons.mp h).resolve_right hmem
      refine ⟨0, rfl, fun c' hc' he => ?_⟩
      cases c' with
      | zero => cases hc'
      | succ c' => exact hmem (List.mem_of_getElem? he)

/-- **The values of a row.** -/
theorem valued_iff : (∀ field, Valued keys cells field (fill keys cells (fun _ => none) field)) ↔
    LastFilled keys cells := by
  constructor
  · intro h field c c' hc hne hc' hlast
    rcases h field with ⟨-, hnot⟩ | ⟨v, hv, -, hfilled⟩
    · exact absurd (List.mem_of_getElem? hc) hnot
    · rw [fill_last hc' hlast] at hv
      cases hv
      exact hfilled c hc hne
  · intro h field
    by_cases hmem : some field ∈ keys
    · obtain ⟨c, hc, hlast⟩ := exists_last hmem
      exact Or.inr ⟨_, fill_last hc hlast, ⟨c, hc, rfl⟩, fun c' hc' hne => h field c' c hc' hne hc hlast⟩
    · exact Or.inl ⟨fill_of_notMem hmem, hmem⟩

/-! ## Rows and records -/

theorem sound_iff {place : ℕ} : Sound keys (place, cells) ⟨n, fill keys cells fun _ => none⟩ ↔
    n = place ∧ LastFilled keys cells :=
  ⟨fun h => ⟨h.rowNumber, valued_iff.mp h.values⟩, fun h => ⟨h.1, valued_iff.mpr h.2⟩⟩

theorem isBlank_empty : isBlank [[]] = true := rfl

/-- **The rows of a text**: `m` is the place of the first of them, and `r` its index for the code. -/
theorem forall₂_sound_iff (h : r + 1 ≤ m) :
    List.Forall₂ (Sound keys) (numbered m rows) (readRows keys r (rows.filter (· ≠ [[]]))) ↔
      (r + 1 < m → ∀ row ∈ rows, isBlank row = true) ∧ Compact rows ∧
        ∀ row ∈ rows, isBlank row = false → LastFilled keys row := by
  induction rows generalizing r m with
  | nil => simp [numbered, readRows, Compact]
  | cons cells rows ih =>
    simp only [Compact, List.forall_mem_cons]
    by_cases hempty : cells = [[]]
    · subst hempty
      rw [numbered, if_pos isBlank_empty, List.filter_cons_of_neg (by simp),
        ih (Nat.le_succ_of_le h), isBlank_empty]
      constructor
      · rintro ⟨hblank, hcompact, hfilled⟩
        have hall := hblank (Nat.lt_succ_of_le h)
        exact ⟨fun _ => ⟨rfl, hall⟩, ⟨fun _ => hall, hcompact⟩, nofun, hfilled⟩
      · rintro ⟨-, ⟨hall, hcompact⟩, -, hfilled⟩
        exact ⟨fun _ => hall rfl, hcompact, hfilled⟩
    · rw [List.filter_cons_of_pos (by simpa using hempty), numbered, readRows]
      cases hb : isBlank cells with
      | true =>
        rw [if_pos rfl, if_pos rfl, ih (Nat.succ_le_succ h)]
        simp [hempty]
      | false =>
        rw [if_neg (by simp), if_neg (by simp), List.forall₂_cons, sound_iff,
          ih (Nat.succ_le_succ h)]
        simp only [hempty, Bool.false_eq_true, false_and, false_implies, true_and, forall_const]
        constructor
        · rintro ⟨⟨rfl, hlast⟩, hblank, hcompact, hfilled⟩
          exact ⟨fun hlt => absurd hlt (Nat.lt_irrefl _), hcompact, hlast, hfilled⟩
        · rintro ⟨hlt, hcompact, hlast, hfilled⟩
          have hm : r + 1 = m := Nat.le_antisymm h (Nat.le_of_not_lt hlt)
          exact ⟨⟨hm, hlast⟩, fun hlt' => absurd hlt' (by omega), hcompact, hfilled⟩

theorem mem_numbered {d : ℕ × Row} (h : d ∈ numbered n rows) : d.2 ∈ rows ∧ isBlank d.2 = false := by
  induction rows generalizing n with
  | nil => cases h
  | cons cells rows ih =>
    rw [numbered] at h
    split at h
    · exact ⟨List.mem_cons_of_mem _ (ih h).1, (ih h).2⟩
    · rename_i hb
      rcases List.mem_cons.mp h with rfl | h
      · exact ⟨List.mem_cons_self, by simpa using hb⟩
      · exact ⟨List.mem_cons_of_mem _ (ih h).1, (ih h).2⟩

theorem exists_numbered (h : row ∈ rows) (hb : isBlank row = false) :
    ∃ place, (place, row) ∈ numbered n rows := by
  induction rows generalizing n with
  | nil => cases h
  | cons cells rows ih =>
    rw [numbered]
    rcases List.mem_cons.mp h with rfl | h
    · rw [hb, if_neg (by simp)]
      exact ⟨n, List.mem_cons_self⟩
    · obtain ⟨place, hp⟩ := ih (n := n + 1) h
      split
      · exact ⟨place, hp⟩
      · exact ⟨place, List.mem_cons_of_mem _ hp⟩

/-- **When the records are those of the text**: each with the place of its row, and with what the row has
under each field. -/
theorem records_sound_iff (text : Text) :
    List.Forall₂ (Sound (fieldKeys text)) (dataRows text) (csvRowsToObjects (parseCsvText text)) ↔
      Compact (recordsOf text).tail ∧ ∀ d ∈ dataRows text, LastFilled (fieldKeys text) d.2 := by
  rw [parseCsvText_eq]
  unfold dataRows fieldKeys
  cases recordsOf text with
  | nil => simp [skipEmpty, csvRowsToObjects, numbered, Compact]
  | cons header rows =>
    rw [skipEmpty, csvRowsToObjects, List.tail_cons, List.headD_cons,
      forall₂_sound_iff (Nat.le_refl 2)]
    constructor
    · rintro ⟨-, hcompact, hfilled⟩
      exact ⟨hcompact, fun d hd => hfilled _ (mem_numbered hd).1 (mem_numbered hd).2⟩
    · rintro ⟨hcompact, hfilled⟩
      refine ⟨fun hlt => absurd hlt (Nat.lt_irrefl _), hcompact, fun row hrow hb => ?_⟩
      obtain ⟨place, hp⟩ := exists_numbered hrow hb
      exact hfilled _ hp

/-- **Not every text gives its records**: after an empty line the row numbers are too small. -/
theorem exists_unsound : ¬ ∀ text : Text,
    List.Forall₂ (Sound (fieldKeys text)) (dataRows text) (csvRowsToObjects (parseCsvText text)) := by
  intro h
  have ht := h ['n', 'a', 'm', 'e', '\n', '\n', 'A']
  have hr : recordsOf ['n', 'a', 'm', 'e', '\n', '\n', 'A'] =
      [[['n', 'a', 'm', 'e']], [[]], [['A']]] := by decide
  rw [parseCsvText_eq] at ht
  unfold dataRows fieldKeys at ht
  rw [hr] at ht
  have hc := ((forall₂_sound_iff (Nat.le_refl 2)).mp ht).2.1
  exact absurd (hc.1 rfl [['A']] (by decide)) (by decide)

end PatronLoyalty.Crm.Csv
