import PatronLoyalty.Crm.Csv
import PatronLoyalty.Loyalty.Schema
import Mathlib

/-!
# Exported reports

`rowsToCsv`, and the export of the points report: the ledger of an organisation, by type.

Headline: **`exportPointsReport_read`**, the parser of the patron import reads the export as the report,
which has each type that occurs once, with what its ledger rows come to.
-/

namespace PatronLoyalty.Reports

open Formats Crm.Csv
open Loyalty (Id Db LedgerType LoyaltyPointLedger ledgerWhere)

/-! ## CSV -/

/-- `csvEscape`: `null` and `undefined` are empty, a number is `String(value)`. -/
def csvEscape : Option Text → Text
  | none => []
  | some s => if s.any special then '"' :: doubled s ++ ['"'] else s

def rowsToCsv (headers : Row) (rows : List (List (Option Text))) : Text :=
  ['\n'].intercalate ((headers.map some :: rows).map fun row => [','].intercalate (row.map csvEscape))

def cellText (value : Option Text) : Text := value.getD []

theorem renders_csvEscape (value : Option Text) : RendersCell (cellText value) (csvEscape value) := by
  cases value with
  | none => exact .bare fun c hc => by cases hc
  | some s =>
    change RendersCell s (if s.any special then _ else s)
    split
    · exact .quoted s
    · rename_i h
      refine .bare fun c hc => ?_
      by_contra hspecial
      exact h (List.any_eq_true.mpr ⟨c, hc, by simpa using hspecial⟩)

theorem renders_row {row : List (Option Text)} (h : row ≠ []) :
    RendersRow (row.map cellText) ([','].intercalate (row.map csvEscape)) := by
  induction row with
  | nil => exact absurd rfl h
  | cons value row ih =>
    cases row with
    | nil => simpa [List.intercalate] using RendersRow.last (renders_csvEscape value)
    | cons next row =>
      have hrest := ih (List.cons_ne_nil _ _)
      simpa [List.intercalate] using RendersRow.cons (renders_csvEscape value) hrest

theorem renders_rows {table : List (List (Option Text))} (hne : table ≠ [])
    (h : ∀ row ∈ table, row ≠ []) : RendersRows (table.map (·.map cellText))
      (['\n'].intercalate (table.map fun row => [','].intercalate (row.map csvEscape))) := by
  induction table with
  | nil => exact absurd rfl hne
  | cons row table ih =>
    have hrow := renders_row (h row List.mem_cons_self)
    cases table with
    | nil => simpa [List.intercalate] using RendersRows.last hrow
    | cons next table =>
      have hrest := ih (List.cons_ne_nil _ _) fun r hr => h r (List.mem_cons_of_mem _ hr)
      simpa [List.intercalate] using RendersRows.cons hrow .lf hrest

/-- **An export is read as its table**, whatever its cells hold. A row with one empty cell would be a
blank line to the parser. -/
theorem parse_rowsToCsv {headers : Row} {rows : List (List (Option Text))}
    (hlong : ∀ row ∈ headers.map some :: rows, 2 ≤ row.length)
    (hbom : ∀ cell ∈ headers.head?, cell.head? ≠ some bom) :
    parseCsvText (rowsToCsv headers rows) = headers :: rows.map (·.map cellText) := by
  have htable : (headers.map some :: rows).map (·.map cellText) =
      headers :: rows.map (·.map cellText) := by
    rw [List.map_cons, List.map_map]
    exact congrArg (· :: _) (List.map_id _)
  have hrenders : RendersRows (headers :: rows.map (·.map cellText)) (rowsToCsv headers rows) := by
    rw [← htable]
    refine renders_rows (List.cons_ne_nil _ _) fun row hr he => ?_
    have hlength := hlong row hr
    rw [he] at hlength
    cases hlength
  unfold parseCsvText
  rw [stripBom_of_ne (hrenders.head_ne_bom fun row hr => by cases hr; exact hbom)]
  refine finish_scan hrenders fun row hr he => ?_
  rw [← htable] at hr
  obtain ⟨cells, hcells, rfl⟩ := List.mem_map.mp hr
  have hlength := hlong cells hcells
  rw [← List.length_map cellText, he] at hlength
  exact absurd hlength (by decide)

/-! ## The points report -/

/-- `LOYALTY_POINT_LEDGER_TYPES` -/
def ledgerTypeText : LedgerType → String
  | .earn => "EARN"
  | .burn => "BURN"
  | .expire => "EXPIRE"
  | .bonus => "BONUS"
  | .adjust => "ADJUST"

structure PointsByType where
  type : LedgerType
  points : Option ℤ
  count : ℕ
  deriving DecidableEq, Repr

def ofType (orgId : Id) (type : LedgerType) (s : Db) : List LoyaltyPointLedger :=
  ledgerWhere orgId (·.type == type) s

/-- `groupBy` by type; the groups come in no order that the code asks for. -/
def getPointsReport (orgId : Id) (s : Db) : List PointsByType :=
  ((ledgerWhere orgId (fun _ => true) s).map (·.type)).dedup.map fun type =>
    { type, points := some ((ofType orgId type s).map (·.points)).sum
      count := (ofType orgId type s).length }

def reportRow (row : PointsByType) : Row :=
  [(ledgerTypeText row.type).toList, (toString (row.points.getD 0)).toList, (toString row.count).toList]

def reportHeaders : Row := ["type".toList, "total_points".toList, "entry_count".toList]

def exportPointsReport (orgId : Id) (s : Db) : Text :=
  rowsToCsv reportHeaders ((getPointsReport orgId s).map fun row => (reportRow row).map some)

/-- **The exported report is read as it was**: a row for each type of the organisation's ledger, and for
no type two. -/
theorem exportPointsReport_read (orgId : Id) (s : Db) :
    parseCsvText (exportPointsReport orgId s) =
        reportHeaders :: (getPointsReport orgId s).map reportRow ∧
      ((getPointsReport orgId s).map (·.type)).Nodup ∧
      (∀ type, type ∈ (getPointsReport orgId s).map (·.type) ↔
        ∃ l ∈ s.log, l.orgId = orgId ∧ l.type = type) ∧
      (∀ row ∈ getPointsReport orgId s,
        row.points = some ((ofType orgId row.type s).map (·.points)).sum ∧
          row.count = (ofType orgId row.type s).length) ∧
      ((getPointsReport orgId s).map (·.count)).sum =
        (ledgerWhere orgId (fun _ => true) s).length := by
  have htypes : (getPointsReport orgId s).map (·.type) =
      ((ledgerWhere orgId (fun _ => true) s).map (·.type)).dedup := by
    simp only [getPointsReport, List.map_map]
    exact List.map_id _
  have hsum : ((getPointsReport orgId s).map (·.count)).sum =
      (ledgerWhere orgId (fun _ => true) s).length := by
    rw [← List.length_map (·.type), ← List.sum_map_count_dedup_eq_length]
    simp only [getPointsReport, List.map_map]
    refine congrArg List.sum (List.map_congr_left fun type _ => ?_)
    rw [List.count, List.countP_map, List.countP_eq_length_filter]
    simp only [ofType, ledgerWhere, List.filter_filter, Function.comp_def]
    exact congrArg List.length (List.filter_congr fun l _ => by rw [Bool.and_true, Bool.and_comm])
  refine ⟨?_, htypes ▸ List.nodup_dedup _, fun type => ?_, fun row hr => ?_, hsum⟩
  · unfold exportPointsReport
    rw [parse_rowsToCsv, List.map_map]
    · refine congrArg _ (List.map_congr_left fun row _ => ?_)
      rfl
    · intro row hr
      rcases List.mem_cons.mp hr with rfl | hr
      · decide
      · obtain ⟨r, -, rfl⟩ := List.mem_map.mp hr
        exact (by decide : 2 ≤ 3)
    · rintro cell ⟨⟩
      decide
  · rw [htypes, List.mem_dedup, List.mem_map]
    simp [ledgerWhere, and_assoc]
  · obtain ⟨type, -, rfl⟩ := List.mem_map.mp hr
    exact ⟨rfl, rfl⟩

end PatronLoyalty.Reports
