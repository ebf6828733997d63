import PatronLoyalty.Crm.Columns
import PatronLoyalty.Loyalty.Earn

/-!
# The import of patrons

`CustomerImportService`: a CSV file of patrons, row by row. A row that parses is matched to a customer of
the organisation, which is updated, or creates one, which is enrolled and credited with its opening
points. Each of these is a transaction of its own. A row that fails is reported and the next one is
processed.

What the schema makes of a record is an input: `parse`.
-/

namespace PatronLoyalty.Crm

open Txn Loyalty

/-! ## Rows -/

/-- `CustomerImportRow`: a record that has been parsed. -/
structure CustomerImportRow where
  name : String
  email : Option String := none
  phone : Option String := none
  externalId : Option String := none
  tags : Option (List String) := none
  notes : Option String := none
  profile : CustomerProfile := {}
  marketingSmsConsent : Option Bool := none
  marketingEmailConsent : Option Bool := none
  openingPoints : Option ℤ := none
  deriving DecidableEq, Repr

/-- What becomes of a row: its status, and the customer or the error. -/
inductive RowResult
  | created (customerId : Id)
  | updated (customerId : Id)
  | error (message : String)
  deriving DecidableEq, Repr

structure CustomerImportResult where
  created : ℕ := 0
  updated : ℕ := 0
  errors : ℕ := 0
  rows : List (ℕ × RowResult) := []
  deriving DecidableEq, Repr

def fileDupKey (data : CustomerImportRow) : List String :=
  ((truthy data.externalId).map fun e => "ext:" ++ e.toLower).toList ++
    ((truthy data.email).map ("email:" ++ ·)).toList ++
    ((truthy data.phone).map ("phone:" ++ ·)).toList

def importErrorMessage : Err → String
  | .uniqueViolation => "A patron with this email, phone, or external_id already exists"
  | .badRequest m | .notFound m | .forbidden m | .conflict m | .database m => m
  | .foreignKeyViolation | .recordNotFound | .invalidQuery => "Import failed"

/-! ## The patron of a row -/

/-- `findFirst` by a field of the row, if the row has it. -/
def findBy (orgId : Id) (value : Option String) (p : String → Customer → Bool) :
    LTx (Option (Id × Customer)) :=
  match truthy value with
  | none => pure none
  | some v => findFirst orgId .customer fun _ c => p v c

def resolveMatch (orgId : Id) (data : CustomerImportRow) : LTx (Option (Id × Customer)) := do
  match ← findBy orgId data.externalId fun e c => c.externalId == some e with
  | some byExt => pure (some byExt)
  | none =>
    match ← findBy orgId data.email fun e c => c.email == some e with
    | some byEmail => pure (some byEmail)
    | none => findBy orgId data.phone phoneMatches

def granted (given : Bool) : String := if given then "GRANTED" else "REVOKED"

/-- `mergeCustomerMetadata(null, …)`, as `parseCustomerMetadata` reads it. -/
def CustomerImportRow.metadata (data : CustomerImportRow) : CustomerMetadata where
  tags := data.tags.getD []
  notes := data.notes.getD ""
  externalId := data.externalId

def CustomerImportRow.customer (orgId : Id) (data : CustomerImportRow) : Customer where
  orgId := orgId
  name := data.name
  email := data.email
  phone := data.phone
  externalId := data.externalId
  metadata := some data.metadata
  marketingSmsConsent := granted (data.marketingSmsConsent == some true)
  marketingEmailConsent := granted (data.marketingEmailConsent == some true)
  marketingConsentSource := some "csv_import"
  profile := data.profile

def createPatron (orgId : Id) (data : CustomerImportRow) : LTx Id :=
  create .customer (data.customer orgId)

def CustomerImportRow.merged (data : CustomerImportRow) (existing : Option CustomerMetadata) :
    CustomerMetadata :=
  let parsedMeta := existing.getD {}
  { tags := data.tags.getD parsedMeta.tags
    notes := data.notes.getD parsedMeta.notes
    externalId := data.externalId.or parsedMeta.externalId }

def CustomerProfile.patched (p given : CustomerProfile) : CustomerProfile where
  birthday := given.birthday.or p.birthday
  gender := given.gender.or p.gender
  addressLine1 := given.addressLine1.or p.addressLine1
  city := given.city.or p.city
  region := given.region.or p.region
  postalCode := given.postalCode.or p.postalCode
  country := given.country.or p.country

/-- `consentPatch`, and the other fields of the row, over the metadata that was read. -/
def CustomerImportRow.patch (data : CustomerImportRow) (existing : Option CustomerMetadata)
    (c : Customer) : Customer :=
  { c with
    name := data.name
    email := data.email.or c.email
    phone := data.phone.or c.phone
    externalId := data.externalId.or c.externalId
    metadata := some (data.merged existing)
    marketingSmsConsent := (data.marketingSmsConsent.map granted).getD c.marketingSmsConsent
    marketingEmailConsent := (data.marketingEmailConsent.map granted).getD c.marketingEmailConsent
    marketingConsentSource :=
      if data.marketingSmsConsent.isSome || data.marketingEmailConsent.isSome then some "csv_import"
      else c.marketingConsentSource
    profile := CustomerProfile.patched c.profile data.profile }

def applyUpdate (orgId customerId : Id) (existing : Option CustomerMetadata)
    (data : CustomerImportRow) : LTx Customer :=
  update orgId .customer customerId (data.patch existing)

def creditOpening (orgId customerId : Id) (data : CustomerImportRow) : LCall Unit :=
  if 0 < data.openingPoints.getD 0 then do
    let _ ← adjustPoints orgId customerId (data.openingPoints.getD 0)
      (some "CSV import opening balance")
    pure ()
  else pure ()

/-- The patron of a row: matched and updated, or created, enrolled and credited. -/
def importPatron (orgId : Id) (data : CustomerImportRow) : LCall RowResult := do
  match ← withTenant (resolveMatch orgId data) with
  | some (customerId, existing) =>
    let _ ← withTenant (applyUpdate orgId customerId existing.metadata data)
    let _ ← ensureAccount orgId customerId
    pure (.updated customerId)
  | none =>
    let customerId ← withTenant (createPatron orgId data)
    let _ ← ensureAccount orgId customerId
    creditOpening orgId customerId data
    pure (.created customerId)

/-! ## The file -/

/-- A row of the file, with its number: what the schema makes of it, or why it does not parse. -/
abbrev FileRow := ℕ × Except String CustomerImportRow

def repeats (seenKeys : List String) (data : CustomerImportRow) : Bool :=
  (fileDupKey data).any seenKeys.contains

/-- `importOneRow`; `seenKeys` are those of the rows before. -/
def importOneRow (orgId : Id) (seenKeys : List String) : Except String CustomerImportRow →
    LCall RowResult
  | .error message => pure (.error message)
  | .ok data =>
    if repeats seenKeys data then pure (.error "Duplicate identity within this CSV file")
    else (importPatron orgId data).handle fun err => pure (.error (importErrorMessage err))

def seenAfter (seenKeys : List String) : Except String CustomerImportRow → List String
  | .error _ => seenKeys
  | .ok data => if repeats seenKeys data then seenKeys else seenKeys ++ fileDupKey data

def importRows (orgId : Id) : List FileRow → List String → LCall (List (ℕ × RowResult))
  | [], _ => pure []
  | (rowNumber, row) :: rows, seenKeys => do
    let result ← importOneRow orgId seenKeys row
    let rest ← importRows orgId rows (seenAfter seenKeys row)
    pure ((rowNumber, result) :: rest)

def CustomerImportResult.add (summary : CustomerImportResult) (row : ℕ × RowResult) :
    CustomerImportResult :=
  match row.2 with
  | .created _ => { summary with created := summary.created + 1, rows := summary.rows ++ [row] }
  | .updated _ => { summary with updated := summary.updated + 1, rows := summary.rows ++ [row] }
  | .error _ => { summary with errors := summary.errors + 1, rows := summary.rows ++ [row] }

def summaryOf (rows : List (ℕ × RowResult)) : CustomerImportResult :=
  rows.foldl CustomerImportResult.add {}

def customerImportMaxBytes : ℕ := 2 * 1024 * 1024

def customerImportMaxRows : ℕ := 2000

/-- The records of an upload of `size` bytes that decode to `text`. -/
def importRecords (size : ℕ) (text : Formats.Text) : Except Err (List Csv.ImportRecord) :=
  if size = 0 then .error (.badRequest "Upload a CSV file")
  else if customerImportMaxBytes < size then .error (.badRequest "CSV is too large (max 2MB)")
  else
    let matrix := Csv.parseCsvText text
    let records := Csv.csvRowsToObjects matrix
    if matrix.length < 2 then
      .error (.badRequest "CSV must include a header row and at least one data row")
    else if records.isEmpty then .error (.badRequest "CSV has no data rows")
    else if customerImportMaxRows < records.length then
      .error (.badRequest
        s!"CSV has {records.length} rows; maximum is {customerImportMaxRows} per upload")
    else .ok records

def fileRows (parse : Csv.Record → Except String CustomerImportRow)
    (records : List Csv.ImportRecord) : List FileRow :=
  records.map fun r => (r.rowNumber, parse r.record)

def importCsv (parse : Csv.Record → Except String CustomerImportRow) (orgId : Id) (size : ℕ)
    (text : Formats.Text) : LCall CustomerImportResult := do
  requireEnabled orgId
  let records ← Call.ofExcept (importRecords size text)
  let rows ← importRows orgId (fileRows parse records) []
  pure (summaryOf rows)

end PatronLoyalty.Crm
