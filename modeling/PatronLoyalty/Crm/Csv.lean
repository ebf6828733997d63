import PatronLoyalty.Formats.Rfc4180

/-!
# Parsing a CSV text

`parseCsvText` of the patron import: one pass over the text, with the rows that are complete, the row and
the field that are not, and whether a quote is open.

Headline: **`parseCsvText_renders`**: whatever way a table is written, the parser gives it back.
-/

namespace PatronLoyalty.Crm.Csv

open Formats

/-! ## The parser -/

/-- What the loop carries. -/
structure Scanner where
  rows : List Row := []
  row : Row := []
  field : Text := []
  inQuotes : Bool := false
  deriving DecidableEq, Repr

def Scanner.pushField (s : Scanner) : Scanner := { s with row := s.row ++ [s.field], field := [] }

/-- `pushRow`: a row of one empty field is skipped, unless it is the first. -/
def pushRow (rows : List Row) (row : Row) : List Row :=
  if row = [[]] ∧ rows ≠ [] then rows else rows ++ [row]

/-- The row is complete: `push` puts it to the others. -/
def Scanner.endRow (push : List Row → Row → List Row) (s : Scanner) : Scanner :=
  { s with rows := push s.rows s.row, row := [] }

def Scanner.add (s : Scanner) (ch : Char) : Scanner := { s with field := s.field ++ [ch] }

/-- The loop. -/
def scan (push : List Row → Row → List Row) : Text → Scanner → Scanner
  | [], s => s
  | ch :: input, s =>
    if s.inQuotes then
      if ch = '"' then
        match input with
        | [] => { s with inQuotes := false }
        | next :: rest =>
          if next = '"' then scan push rest (s.add '"')
          else scan push (next :: rest) { s with inQuotes := false }
      else scan push input (s.add ch)
    else if ch = '"' then scan push input { s with inQuotes := true }
    else if ch = ',' then scan push input s.pushField
    else if ch = '\n' then scan push input (s.pushField.endRow push)
    else if ch = '\r' then scan push input s
    else scan push input (s.add ch)

/-- What is left at the end is a row too. -/
def Scanner.finish (push : List Row → Row → List Row) (s : Scanner) : List Row :=
  if s.field ≠ [] ∨ s.row ≠ [] then (s.pushField.endRow push).rows else s.rows

/-- `text.replace(/^\uFEFF/, '')` -/
def stripBom : Text → Text
  | [] => []
  | c :: text => if c = bom then text else c :: text

def parseCsvText (text : Text) : List Row := (scan pushRow (stripBom text) {}).finish pushRow

/-! ## One character -/

variable {push : List Row → Row → List Row} {s : Scanner} {cell text rest input : Text} {row : Row}
  {rows table : List Row} {ch : Char}

theorem scan_nil : scan push [] s = s := rfl

theorem scan_outside (hs : s.inQuotes = false) : scan push (ch :: input) s =
    if ch = '"' then scan push input { s with inQuotes := true }
    else if ch = ',' then scan push input s.pushField
    else if ch = '\n' then scan push input (s.pushField.endRow push)
    else if ch = '\r' then scan push input s
    else scan push input (s.add ch) := by
  rw [scan.eq_def]
  simp only [hs]
  rfl

theorem scan_inside (hs : s.inQuotes = true) (hc : ch ≠ '"') :
    scan push (ch :: input) s = scan push input (s.add ch) := by
  rw [scan.eq_def]
  simp only [hs, hc, if_true, if_false]

theorem scan_doubled (hs : s.inQuotes = true) :
    scan push ('"' :: '"' :: input) s = scan push input (s.add '"') := by
  rw [scan.eq_def]
  simp only [hs, if_true]

theorem scan_closing (hs : s.inQuotes = true) (hr : input.head? ≠ some '"') :
    scan push ('"' :: input) s = scan push input { s with inQuotes := false } := by
  rw [scan.eq_def]
  simp only [hs, if_true]
  cases input with
  | nil => rfl
  | cons c rest =>
    have hc : c ≠ '"' := fun he => hr (by rw [he, List.head?_cons])
    simp only [hc, if_false]

theorem scan_comma (hs : s.inQuotes = false) :
    scan push (',' :: input) s = scan push input s.pushField := by
  rw [scan_outside hs, if_neg (by decide), if_pos rfl]

theorem scan_lf (hs : s.inQuotes = false) :
    scan push ('\n' :: input) s = scan push input (s.pushField.endRow push) := by
  rw [scan_outside hs, if_neg (by decide), if_neg (by decide), if_pos rfl]

theorem scan_cr (hs : s.inQuotes = false) : scan push ('\r' :: input) s = scan push input s := by
  rw [scan_outside hs, if_neg (by decide), if_neg (by decide), if_neg (by decide), if_pos rfl]

theorem scan_plain (hs : s.inQuotes = false) (hc : special ch = false) :
    scan push (ch :: input) s = scan push input (s.add ch) := by
  simp only [special, Bool.or_eq_false_iff, beq_eq_false_iff_ne] at hc
  obtain ⟨⟨⟨hcomma, hquote⟩, hcr⟩, hlf⟩ := hc
  rw [scan_outside hs, if_neg hquote, if_neg hcomma, if_neg hlf, if_neg hcr]

/-! ## What the scanner makes of a rendering -/

theorem scan_bare (hs : s.inQuotes = false) (h : ∀ c ∈ cell, special c = false) :
    scan push (cell ++ rest) s = scan push rest { s with field := s.field ++ cell } := by
  induction cell generalizing s with
  | nil =>
    rw [List.append_nil]
    rfl
  | cons c cell ih =>
    rw [List.cons_append, scan_plain hs (h c List.mem_cons_self),
      ih (s := s.add c) hs fun d hd => h d (List.mem_cons_of_mem _ hd)]
    simp only [Scanner.add, List.append_assoc, List.cons_append, List.nil_append]

theorem scan_quoted (hs : s.inQuotes = true) (hr : rest.head? ≠ some '"') :
    scan push (doubled cell ++ '"' :: rest) s =
      scan push rest { s with field := s.field ++ cell, inQuotes := false } := by
  induction cell generalizing s with
  | nil =>
    rw [doubled, List.nil_append, scan_closing hs hr, List.append_nil]
  | cons c cell ih =>
    rw [doubled]
    by_cases hc : c = '"'
    · subst hc
      rw [if_pos rfl, List.cons_append, List.cons_append, scan_doubled hs, ih (s := s.add '"') hs]
      simp only [Scanner.add, List.append_assoc, List.cons_append, List.nil_append]
    · rw [if_neg hc, List.cons_append, scan_inside hs hc, ih (s := s.add c) hs]
      simp only [Scanner.add, List.append_assoc, List.cons_append, List.nil_append]

/-- **A cell.** -/
theorem scan_cell (h : RendersCell cell text) (hs : s.inQuotes = false) (hf : s.field = [])
    (hr : rest.head? ≠ some '"') :
    scan push (text ++ rest) s = scan push rest { s with field := cell } := by
  cases h with
  | bare h => rw [scan_bare hs h, hf, List.nil_append]
  | quoted =>
    rw [List.append_assoc, List.cons_append, scan_outside hs, if_pos rfl, List.singleton_append,
      scan_quoted rfl hr]
    simp only [hf, List.nil_append, ← hs]

/-- **A row**: at its end, only the last field is still to be pushed. -/
theorem scan_row (push : List Row → Row → List Row) (rest : Text) (h : RendersRow row text)
    (hr : rest.head? ≠ some '"') :
    ∀ {s : Scanner}, s.inQuotes = false → s.field = [] → ∃ s' : Scanner,
      scan push (text ++ rest) s = scan push rest s' ∧ s'.inQuotes = false ∧
      s'.pushField = { s with row := s.row ++ row } := by
  induction h with
  | last h =>
    intro s hs hf
    refine ⟨_, scan_cell h hs hf hr, hs, ?_⟩
    simp only [Scanner.pushField, ← hf]
  | @cons cell text row rest' h _ ih =>
    intro s hs hf
    obtain ⟨s', hscan, hs', hpush⟩ := ih (s := { s with row := s.row ++ [cell] }) hs hf
    refine ⟨s', ?_, hs', ?_⟩
    · rw [List.append_assoc, List.cons_append, scan_cell h hs hf (by simp),
        scan_comma (s := { s with field := cell }) hs, ← hscan]
      simp only [Scanner.pushField, ← hf]
    · rw [hpush, List.append_assoc, List.singleton_append]

theorem scan_break {br : Text} (push : List Row → Row → List Row) (rest : Text) (h : LineBreak br)
    (hs : s.inQuotes = false) :
    scan push (br ++ rest) s = scan push rest (s.pushField.endRow push) := by
  cases h with
  | lf => rw [List.singleton_append, scan_lf hs]
  | crlf => rw [List.cons_append, List.singleton_append, scan_cr hs, scan_lf hs]

theorem pushRow_of_ne (h : row ≠ [[]]) : pushRow rows row = rows ++ [row] :=
  if_neg fun hr => h hr.1

theorem finish_row (h : s.pushField = { rows, row }) (hrow : row ≠ [[]]) :
    s.finish pushRow = rows ++ [row] := by
  have hne : s.field ≠ [] ∨ s.row ≠ [] := by
    by_contra hc
    simp only [not_or, not_not] at hc
    have hr := congrArg Scanner.row h
    simp only [Scanner.pushField, hc.1, hc.2, List.nil_append] at hr
    exact hrow hr.symm
  unfold Scanner.finish
  rw [if_pos hne, h]
  exact pushRow_of_ne hrow

theorem head_break_ne_quote {br : Text} (h : LineBreak br) : (br ++ rest).head? ≠ some '"' := by
  cases h <;> simp

/-- **The rows**, after those that are complete. -/
theorem finish_scan (h : RendersRows table text) : ∀ {rows : List Row},
    (∀ row ∈ table, row ≠ [[]]) → (scan pushRow text { rows }).finish pushRow = rows ++ table := by
  induction h with
  | @last row text h =>
    intro rows hne
    obtain ⟨s, hscan, -, hpush⟩ := scan_row pushRow [] h (by simp) (s := { rows }) rfl rfl
    rw [List.append_nil] at hscan
    rw [hscan, scan_nil]
    exact finish_row (by rw [hpush]; rfl) (hne _ List.mem_cons_self)
  | @ended row text br h hb =>
    intro rows hne
    obtain ⟨s, hscan, hs, hpush⟩ := scan_row pushRow (br ++ []) h
      (head_break_ne_quote hb) (s := { rows }) rfl rfl
    rw [List.append_nil] at hscan
    rw [hscan]
    have hbreak := scan_break pushRow [] hb hs
    rw [List.append_nil] at hbreak
    rw [hbreak, scan_nil, hpush]
    exact pushRow_of_ne (hne _ List.mem_cons_self)
  | @cons row table text br rest h hb _ ih =>
    intro rows hne
    obtain ⟨s, hscan, hs, hpush⟩ := scan_row pushRow (br ++ rest) h
      (head_break_ne_quote hb) (s := { rows }) rfl rfl
    rw [hscan, scan_break pushRow rest hb hs, hpush]
    have hrow : ({ rows, row := [] ++ row } : Scanner).endRow pushRow = { rows := rows ++ [row] } := by
      simp only [Scanner.endRow, List.nil_append, pushRow_of_ne (hne row List.mem_cons_self)]
    rw [hrow, ih fun r hr => hne r (List.mem_cons_of_mem _ hr), List.append_assoc,
      List.singleton_append]

theorem stripBom_of_ne (h : text.head? ≠ some bom) : stripBom text = text := by
  cases text with
  | nil => rfl
  | cons c text => exact if_neg fun he => h (by rw [he, List.head?_cons])

/-- **Parsing undoes writing.** -/
theorem parseCsvText_renders (h : Renders table text) (hblank : ∀ row ∈ table, row ≠ [[]])
    (hbom : ∀ row ∈ table.head?, ∀ cell ∈ row.head?, cell.head? ≠ some bom) :
    parseCsvText text = table := by
  cases h with
  | plain h =>
    unfold parseCsvText
    rw [stripBom_of_ne (h.head_ne_bom hbom)]
    exact finish_scan h hblank
  | marked h =>
    unfold parseCsvText
    rw [stripBom, if_pos rfl]
    exact finish_scan h hblank

/-- A quoted cell with a comma, an empty one, both line breaks. -/
theorem parseCsvText_renders_quoted :
    parseCsvText ['"', 'a', ',', '"', ',', '\r', '\n', 'b', '\n'] =
      [[['a', ','], []], [['b']]] :=
  parseCsvText_renders
    (.plain (.cons (.cons (.quoted ['a', ',']) (.last (.bare (by simp)))) .crlf
      (.ended (.last (.bare fun c hc => by rw [List.mem_singleton.mp hc]; rfl)) .lf)))
    (by decide) (by decide)

end PatronLoyalty.Crm.Csv
