import Mathlib.Algebra.Group.Nat.Defs
import PatronLoyalty.Accounts.Schema
import PatronLoyalty.Txn.Serving

/-!
# Integration keys

`LoyaltyApiKeyService`. The key of an organisation is one row of the settings table, and the digest of
the key and the time of its last use are one JSON value, which every writer replaces as a whole. The row
is found, and then created or updated: the unique index of the table does not cover settings of an
organisation, whose `scopeId` is null.

`resolveOrgId` starts the update of the last use and does not wait for it. The update is a request of its
own here. Whether an organisation has the loyalty product is fixed (`Features`).
-/

namespace PatronLoyalty.ApiKeys

open Txn
open Loyalty (Id trim)
open Accounts (Err Sha256 sha256)

/-! ## Rows -/

structure StoredApiKey where
  hash : Sha256 String
  keyPrefix : String
  createdAt : ℕ
  lastUsedAt : Option ℕ := none
  deriving DecidableEq, Repr

/-- A row of the settings. The value is `none` when it is not the object of a key. -/
structure Setting where
  orgId : Id
  key : String
  value : Option StoredApiKey := none
  scope : String := "org"
  scopeId : Option Id := none
  deleted : Bool := false
  deriving DecidableEq, Repr

inductive Kind
  | setting
  deriving DecidableEq, Repr

abbrev Row : Kind → Type
  | .setting => Setting

instance : (k : Kind) → DecidableEq (Row k)
  | .setting => inferInstanceAs (DecidableEq Setting)

/-- An entry of the index on `orgId`, `key`, `scope` and `scopeId`. -/
structure UniqueKey where
  orgId : Id
  key : String
  scope : String
  scopeId : Id
  deriving DecidableEq, Repr

/-- A null is equal to no other. -/
def uniqueKeys : (k : Kind) → Row k → List UniqueKey
  | .setting, r => if r.deleted then [] else
    (r.scopeId.map fun scopeId => ⟨r.orgId, r.key, r.scope, scopeId⟩).toList

instance : Keyed Row Empty UniqueKey where
  keys := uniqueKeys
  logKeys _ := []

abbrev Db := Rel Row Empty
abbrev DbWrite := Rel.Write Row Empty

/-- A transaction of the service. -/
abbrev KTx := Tx Db DbWrite Err

/-- What a request leaves in its history. -/
inductive Mark
  /-- It has generated the key: for the proofs alone. -/
  | generated (raw : String)
  /-- It has started an update of the last use. -/
  | touches (orgId : Id)
  deriving DecidableEq, Repr

abbrev KCall := Call Db DbWrite Err Mark

/-- The organisations that have the loyalty product. -/
abbrev Features := Id → Bool

/-! ## Statements -/

/-- The rows a query sees. -/
def seen (p : Setting → Bool) (s : Db) : List (Id × Setting) :=
  s.rows .setting fun _ (r : Setting) => !r.deleted && p r

def findFirst (p : Setting → Bool) : KTx (Option (Id × Setting)) := Tx.findFirst (seen p)

/-- `setting.create`, under a generated identifier. -/
def create (r : Setting) : KTx Unit := do
  let id ← Tx.input
  Rel.insert Err.uniqueViolation Kind.setting id r

/-- `setting.update`, by the identifier. -/
def update (id : Id) (f : Setting → Setting) : KTx Setting :=
  Rel.modify (k := Kind.setting) Err.recordNotFound Err.uniqueViolation id fun (r : Setting) =>
    if !r.deleted then .ok (f r) else .error .recordNotFound

def deleteMany (p : Setting → Bool) : KTx ℕ :=
  Rel.modifyAll Err.uniqueViolation Kind.setting (fun _ (r : Setting) => !r.deleted && p r)
    fun (r : Setting) => { r with deleted := true }

/-! ## The service -/

def loyaltyIntegrationApiKeySetting : String := "loyalty_integration_api_key"

/-- Where `key` is the setting's, `scope` is `org` and `scopeId` is null. -/
def isApiKey (r : Setting) : Bool :=
  r.key == loyaltyIntegrationApiKeySetting && r.scope == "org" && r.scopeId == none

/-- The same, of the organisation. -/
def isApiKeyOf (orgId : Id) (r : Setting) : Bool := r.orgId == orgId && isApiKey r

def hashKey (raw : String) : Sha256 String := sha256 raw

def hexDigits (bytes : ℕ) : List Char :=
  (List.range 64).map fun i => Nat.digitChar (bytes / 16 ^ (63 - i) % 16)

/-- `generateRawKey`, from the random bytes. -/
def generateRawKey (bytes : ℕ) : String := String.ofList ("lms_".toList ++ hexDigits bytes)

/-- `patronCrmFeature.requireEnabled`. -/
def requireEnabled (enabled : Features) (orgId : Id) : Except Err Unit :=
  if enabled orgId then .ok () else .error (.forbidden ("Patron CRM is not enabled for this " ++
    "organization. Contact your platform administrator to enable it."))

/-- The transaction of `rotateKey`. -/
def storeKey (orgId : Id) (payload : StoredApiKey) : KTx Unit := do
  match ← findFirst (isApiKeyOf orgId) with
  | some existing => do
    let _ ← update existing.1 fun r => { r with value := some payload }
    pure ()
  | none => create { orgId, key := loyaltyIntegrationApiKeySetting, value := some payload }

structure RotatedKey where
  apiKey : String
  keyPrefix : String
  createdAt : ℕ
  deriving DecidableEq, Repr

def rotateKey (enabled : Features) (orgId : Id) : KCall RotatedKey := do
  Call.ofExcept (requireEnabled enabled orgId)
  let bytes ← Call.input
  let raw := generateRawKey bytes
  let keyPrefix := String.ofList (raw.toList.take 12)
  let createdAt ← Call.input
  Call.fire (.generated raw)
  Call.withTx (storeKey orgId { hash := hashKey raw, keyPrefix, createdAt })
  pure { apiKey := raw, keyPrefix, createdAt }

def revokeKey (orgId : Id) : KCall Unit := do
  let _ ← Call.withTx (deleteMany (isApiKeyOf orgId))
  pure ()

/-- `value: { path: ['hash'], equals: hash }` -/
def hasHash (hash : Sha256 String) (r : Setting) : Bool :=
  (r.value.map fun v => v.hash) == some hash

@[irreducible] def startsWithLms (trimmed : String) : Bool :=
  "lms_".toList.isPrefixOf trimmed.toList

def resolveOrgId (enabled : Features) (rawKey : String) : KCall (Option Id) := do
  let trimmed := trim rawKey
  if startsWithLms trimmed = false then pure none
  else do
    match ← Call.withTx (findFirst fun r => isApiKey r && hasHash (hashKey trimmed) r) with
    | none => pure none
    | some (_, found) =>
      if enabled found.orgId then do
        Call.fire (.touches found.orgId)
        pure (some found.orgId)
      else pure none

def readStored (orgId : Id) : KCall (Option StoredApiKey) := do
  let row ← Call.withTx (findFirst (isApiKeyOf orgId))
  pure (row.bind fun r => r.2.value)

/-- The transaction of `touchLastUsedAt`. -/
def storeLastUse (orgId : Id) (payload : StoredApiKey) : KTx Unit := do
  match ← findFirst (isApiKeyOf orgId) with
  | none => pure ()
  | some existing => do
    let _ ← update existing.1 fun r => { r with value := some payload }
    pure ()

def touchLastUsedAt (orgId : Id) : KCall Unit := do
  match ← readStored orgId with
  | none => pure ()
  | some stored => do
    let lastUsedAt ← Call.input
    (Call.withTx (storeLastUse orgId { stored with lastUsedAt := some lastUsedAt })).handle
      fun _ => pure ()

structure KeyStatus where
  configured : Bool
  keyPrefix : Option String := none
  createdAt : Option ℕ := none
  lastUsedAt : Option ℕ := none
  deriving DecidableEq, Repr

def getStatus (orgId : Id) : KCall KeyStatus := do
  match ← readStored orgId with
  | none => pure { configured := false }
  | some stored => pure { configured := true, keyPrefix := some stored.keyPrefix
                          createdAt := some stored.createdAt, lastUsedAt := stored.lastUsedAt }

/-! ## Requests -/

inductive Request
  | rotateKey (orgId : Id)
  | revokeKey (orgId : Id)
  | resolveOrgId (rawKey : String)
  | touchLastUsedAt (orgId : Id)
  | getStatus (orgId : Id)
  deriving DecidableEq, Repr

inductive Answer
  | rotated (key : RotatedKey)
  | revoked
  | resolved (orgId : Option Id)
  | touched
  | status (status : KeyStatus)
  deriving DecidableEq, Repr

def Request.run (enabled : Features) : Request → KCall Answer
  | .rotateKey orgId => (ApiKeys.rotateKey enabled orgId).bind fun key => .pure (.rotated key)
  | .revokeKey orgId => (ApiKeys.revokeKey orgId).bind fun _ => .pure .revoked
  | .resolveOrgId rawKey =>
    (ApiKeys.resolveOrgId enabled rawKey).bind fun orgId => .pure (.resolved orgId)
  | .touchLastUsedAt orgId => (ApiKeys.touchLastUsedAt orgId).bind fun _ => .pure .touched
  | .getStatus orgId => (ApiKeys.getStatus orgId).bind fun status => .pure (.status status)

abbrev Run := Config Db DbWrite Err Mark Answer

abbrev Line := Entry Db Err Mark Answer

def start (enabled : Features) (s : Db) (requests : List Request) : Run :=
  serve (Request.run enabled) s requests

/-- `n` steps of request `i`, with the input `k`. -/
def turns (i n k : ℕ) : List (ℕ × Move Err) := List.replicate n (i, .go k)

end PatronLoyalty.ApiKeys
