import Mathlib.Data.List.Basic

/-!
# Comma-separated values

What it is for a text to say a table, after RFC 4180: a cell stands for itself, or between quotes with its
quotes doubled; commas separate the cells of a row, and line breaks the rows. The last row may end with a
line break, and a byte order mark may stand before the first.

`Renders table text`: the text says the table, in one of these ways.
-/

namespace PatronLoyalty.Formats

abbrev Text := List Char

abbrev Row := List Text

/-- The byte order mark. -/
def bom : Char := '\uFEFF'

/-- The characters that a cell without quotes cannot have. -/
def special (c : Char) : Bool := c == ',' || c == '"' || c == '\r' || c == '\n'

def doubled : Text → Text
  | [] => []
  | c :: cell => if c = '"' then '"' :: '"' :: doubled cell else c :: doubled cell

inductive RendersCell : Text → Text → Prop
  | bare {cell : Text} (h : ∀ c ∈ cell, special c = false) : RendersCell cell cell
  | quoted (cell : Text) : RendersCell cell ('"' :: doubled cell ++ ['"'])

inductive RendersRow : Row → Text → Prop
  | last {cell text : Text} (h : RendersCell cell text) : RendersRow [cell] text
  | cons {cell text : Text} {row : Row} {rest : Text} (h : RendersCell cell text)
      (hs : RendersRow row rest) : RendersRow (cell :: row) (text ++ ',' :: rest)

inductive LineBreak : Text → Prop
  | lf : LineBreak ['\n']
  | crlf : LineBreak ['\r', '\n']

inductive RendersRows : List Row → Text → Prop
  | last {row : Row} {text : Text} (h : RendersRow row text) : RendersRows [row] text
  | ended {row : Row} {text br : Text} (h : RendersRow row text) (hb : LineBreak br) :
      RendersRows [row] (text ++ br)
  | cons {row : Row} {rows : List Row} {text br rest : Text} (h : RendersRow row text)
      (hb : LineBreak br) (hs : RendersRows rows rest) : RendersRows (row :: rows) (text ++ (br ++ rest))

/-- **The text says the table.** -/
inductive Renders (table : List Row) : Text → Prop
  | plain {text : Text} (h : RendersRows table text) : Renders table text
  | marked {text : Text} (h : RendersRows table text) : Renders table (bom :: text)

/-! ## How a text begins -/

variable {cell text : Text} {row : Row} {table : List Row}

theorem RendersCell.head_ne_bom (h : RendersCell cell text) (hc : cell.head? ≠ some bom) :
    text.head? ≠ some bom := by
  cases h with
  | bare => exact hc
  | quoted =>
    simp only [List.cons_append, List.head?_cons, ne_eq, Option.some.injEq]
    decide

theorem head_append_ne_bom {rest : Text} (ht : text.head? ≠ some bom)
    (hr : rest.head? ≠ some bom) : (text ++ rest).head? ≠ some bom := by
  cases text with
  | nil => exact hr
  | cons c text => exact ht

theorem LineBreak.head_ne_bom {br : Text} (h : LineBreak br) : br.head? ≠ some bom := by
  cases h <;> decide

theorem LineBreak.ne_nil {br : Text} (h : LineBreak br) : br ≠ [] := by
  cases h <;> simp

theorem RendersRow.head_ne_bom (h : RendersRow row text)
    (hc : ∀ cell ∈ row.head?, cell.head? ≠ some bom) : text.head? ≠ some bom := by
  cases h with
  | last h => exact h.head_ne_bom (hc _ rfl)
  | cons h hs =>
    refine head_append_ne_bom (h.head_ne_bom (hc _ rfl)) ?_
    simp only [List.head?_cons, ne_eq, Option.some.injEq]
    decide

theorem RendersRows.head_ne_bom (h : RendersRows table text)
    (hc : ∀ row ∈ table.head?, ∀ cell ∈ row.head?, cell.head? ≠ some bom) :
    text.head? ≠ some bom := by
  cases h with
  | last h => exact h.head_ne_bom (hc _ rfl)
  | ended h hb =>
    exact head_append_ne_bom (h.head_ne_bom (hc _ rfl)) hb.head_ne_bom
  | cons h hb _ =>
    refine head_append_ne_bom (h.head_ne_bom (hc _ rfl)) ?_
    rw [List.head?_append_of_ne_nil _ hb.ne_nil]
    exact hb.head_ne_bom

end PatronLoyalty.Formats
