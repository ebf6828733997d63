import Mathlib.Data.List.Basic

/-!
# POS connections and their webhooks

`LoyaltyPosConnectionService` and the two webhook receivers of `LoyaltyPosController`. A connection
row holds the key that inbound webhooks are signed with. Staff set it by `upsertSquare` and
`upsertClover`; the OAuth callbacks keep the key of the row they find, and create the row with the
literal `pending_setup` where they find none.

An OAuth callback is two transactions, a read of the old config and an upsert, with anything in
between. `PosState.configured` is a ghost: the keys staff have set so far.

Results: **`step_keyed`**, the step lemma; **`reach_webhook_keyed`**, as long as no callback creates
a row, a webhook that is processed is signed under a key staff have set; **`pendingSetup_accepted`**,
a run in which one is not.

What is not under `src` is a parameter (`Platform`): HMAC-SHA256, AES-256-GCM under the process's
`POS_ENCRYPTION_KEY`, and `JSON.parse`.
-/

namespace PatronLoyalty.Pos

/-- `LOYALTY_POS_PROVIDERS`. -/
inductive PosProvider
  | square | clover
  deriving DecidableEq, Repr

inductive DigestEncoding
  | base64 | hex
  deriving DecidableEq, Repr

/-- Node's `crypto` and `JSON`. -/
structure Platform (Body Payload : Type) where
  /-- `createHmac('sha256', key).update(rawBody).digest(encoding)` -/
  hmac : DigestEncoding → String → Body → String
  /-- Under a random initialisation vector; throws when `POS_ENCRYPTION_KEY` is not set. -/
  encrypt : ℕ → String → Option String
  decrypt : String → Option String
  parseJson : Body → Option Payload

/-- The JSON column `config`. -/
structure PosConfig where
  locationId : Option String := none
  merchantId : Option String := none
  encryptedAccessToken : Option String := none
  encryptedRefreshToken : Option String := none
  deriving DecidableEq, Repr

structure LoyaltyPosConnection where
  status : String := "active"
  webhookSignatureKey : String
  config : PosConfig
  deriving DecidableEq, Repr

/-- The table: at most one row for an organisation and a provider. -/
abbrev Connections := String → PosProvider → Option LoyaltyPosConnection

def Connections.set (t : Connections) (orgId : String) (provider : PosProvider)
    (row : Option LoyaltyPosConnection) : Connections := fun o p =>
  if o = orgId ∧ p = provider then row else t o p

/-- `loyaltyPosConnection.upsert`. -/
def Connections.upsert (t : Connections) (orgId : String) (provider : PosProvider)
    (created : LoyaltyPosConnection) (updated : LoyaltyPosConnection → LoyaltyPosConnection) :
    Connections :=
  t.set orgId provider (some ((t orgId provider).elim created updated))

/-- `LoyaltySquareConnectionInput`. -/
structure SquareInput where
  locationId : String
  accessToken : String
  webhookSignatureKey : String
  deriving DecidableEq, Repr

/-- `LoyaltyCloverConnectionInput`. -/
structure CloverInput where
  merchantId : String
  accessToken : String
  webhookSignatureKey : String
  deriving DecidableEq, Repr

/-- What an OAuth callback writes: `locationId` and `refreshToken` for Square, `merchantId` for
Clover. -/
structure OAuthData where
  accessToken : String
  locationId : Option String := none
  refreshToken : Option String := none
  merchantId : Option String := none
  deriving DecidableEq, Repr

/-- An OAuth callback between its read and its upsert. -/
structure OAuthCallback where
  provider : PosProvider
  orgId : String
  existing : Option PosConfig
  data : OAuthData
  deriving DecidableEq, Repr

/-- A key that staff of an organisation have set for a provider. -/
structure TenantKey where
  orgId : String
  provider : PosProvider
  webhookSignatureKey : String
  deriving DecidableEq, Repr

structure PosState where
  connections : Connections := fun _ _ => none
  callbacks : List OAuthCallback := []
  configured : List TenantKey := []

/-- The key of a row that an OAuth callback creates. -/
def pendingSetup : String := "pending_setup"

section

variable {Body Payload : Type} (p : Platform Body Payload)

/-! ## The service -/

/-- `upsertSquare` and `upsertClover`: the key and the config are the staff's. -/
def upsertConnection (s : PosState) (orgId : String) (provider : PosProvider)
    (webhookSignatureKey : String) (config : PosConfig) : PosState :=
  { s with
    connections := s.connections.upsert orgId provider { webhookSignatureKey, config }
      fun row => { row with webhookSignatureKey, config, status := "active" }
    configured := s.configured ++ [⟨orgId, provider, webhookSignatureKey⟩] }

def upsertSquare (s : PosState) (orgId : String) (input : SquareInput) (iv : ℕ) :
    Option PosState := do
  let encryptedToken ← p.encrypt iv input.accessToken
  pure (upsertConnection s orgId .square input.webhookSignatureKey
    { locationId := input.locationId, encryptedAccessToken := encryptedToken })

def upsertClover (s : PosState) (orgId : String) (input : CloverInput) (iv : ℕ) :
    Option PosState := do
  let encryptedToken ← p.encrypt iv input.accessToken
  pure (upsertConnection s orgId .clover input.webhookSignatureKey
    { merchantId := input.merchantId, encryptedAccessToken := encryptedToken })

/-- The first transaction of `updateSquareOAuth` and `updateCloverOAuth`. -/
def readOAuth (s : PosState) (provider : PosProvider) (orgId : String) (data : OAuthData) :
    PosState :=
  { s with callbacks := s.callbacks ++
      [⟨provider, orgId, (s.connections orgId provider).map (·.config), data⟩] }

/-- `if (x)` of an optional string. -/
def given : Option String → Option String
  | some "" => none
  | x => x

/-- The config of `updateSquareOAuth`. -/
def squareOAuthConfig (existing : Option PosConfig) (data : OAuthData) (iv iv' : ℕ) :
    Option PosConfig := do
  let config := existing.getD {}
  let encryptedAccessToken ← p.encrypt iv data.accessToken
  let config := { config with encryptedAccessToken := some encryptedAccessToken }
  let config ← match given data.refreshToken with
    | some refreshToken => do
      let encryptedRefreshToken ← p.encrypt iv' refreshToken
      pure { config with encryptedRefreshToken := some encryptedRefreshToken }
    | none => pure config
  match given data.locationId with
  | some locationId => pure { config with locationId := some locationId }
  | none => pure config

/-- The config of `updateCloverOAuth`. -/
def cloverOAuthConfig (existing : Option PosConfig) (data : OAuthData) (iv : ℕ) :
    Option PosConfig := do
  let config := existing.getD {}
  let encryptedAccessToken ← p.encrypt iv data.accessToken
  let config := { config with encryptedAccessToken := some encryptedAccessToken }
  match given data.merchantId with
  | some merchantId => pure { config with merchantId := some merchantId }
  | none => pure config

def OAuthCallback.config (cb : OAuthCallback) (iv iv' : ℕ) : Option PosConfig :=
  match cb.provider with
  | .square => squareOAuthConfig p cb.existing cb.data iv iv'
  | .clover => cloverOAuthConfig p cb.existing cb.data iv

/-- The second transaction of `updateSquareOAuth` and `updateCloverOAuth`. -/
def upsertOAuth (s : PosState) (n iv iv' : ℕ) : Option PosState := do
  let cb ← s.callbacks[n]?
  let config ← cb.config p iv iv'
  pure { s with
    connections := s.connections.upsert cb.orgId cb.provider
      { config, status := "active", webhookSignatureKey := pendingSetup }
      fun row => { row with config, status := "active" }
    callbacks := s.callbacks.eraseIdx n }

/-- Throws when there was nothing to delete. -/
def deleteConnection (s : PosState) (orgId : String) (provider : PosProvider) : Option PosState :=
  if (s.connections orgId provider).isSome then
    some { s with connections := s.connections.set orgId provider none }
  else none

/-- The writers of the table. -/
inductive Op
  | upsertSquare (orgId : String) (input : SquareInput) (iv : ℕ)
  | upsertClover (orgId : String) (input : CloverInput) (iv : ℕ)
  | readOAuth (provider : PosProvider) (orgId : String) (data : OAuthData)
  | upsertOAuth (n iv iv' : ℕ)
  | deleteConnection (orgId : String) (provider : PosProvider)

/-- One operation; `none` when it throws, and then it has written nothing. -/
def step (s : PosState) : Op → Option PosState
  | .upsertSquare orgId input iv => upsertSquare p s orgId input iv
  | .upsertClover orgId input iv => upsertClover p s orgId input iv
  | .readOAuth provider orgId data => some (readOAuth s provider orgId data)
  | .upsertOAuth n iv iv' => upsertOAuth p s n iv iv'
  | .deleteConnection orgId provider => deleteConnection s orgId provider

/-! ## The webhook receivers -/

def verifySquareSignature (rawBody : Body) (signature sigKey : String) : Bool :=
  p.hmac .base64 sigKey rawBody == signature

def verifyCloverSignature (rawBody : Body) (signature sigKey : String) : Bool :=
  p.hmac .hex sigKey rawBody == signature

def verifySignature (provider : PosProvider) (rawBody : Body) (signature sigKey : String) : Bool :=
  match provider with
  | .square => verifySquareSignature p rawBody signature sigKey
  | .clover => verifyCloverSignature p rawBody signature sigKey

def findConnectionByOrgAndProvider (s : PosState) (orgId : String) (provider : PosProvider) :
    Option LoyaltyPosConnection :=
  (s.connections orgId provider).filter (·.status == "active")

def decryptAccessToken (row : LoyaltyPosConnection) : Option String :=
  match given row.config.encryptedAccessToken with
  | none => none
  | some encoded => p.decrypt encoded

structure WebhookRequest (Body : Type) where
  orgId : Option String
  signature : Option String
  rawBody : Option Body

inductive WebhookOutcome (Payload : Type)
  /-- `{ ok: true }`, without an effect -/
  | ignored
  | unauthorized
  /-- The body or the stored token could not be read. -/
  | failed
  /-- Handed to `processEvent`, by Clover with the merchant. -/
  | processed (orgId : String) (payload : Payload) (accessToken : String)
      (merchantId : Option String)
  deriving DecidableEq, Repr

def merchantOf (provider : PosProvider) (config : PosConfig) : Option String :=
  match provider with
  | .square => none
  | .clover => config.merchantId

/-- `squareWebhook` and `cloverWebhook`. -/
def receiveWebhook (provider : PosProvider) (s : PosState) (req : WebhookRequest Body) :
    WebhookOutcome Payload :=
  match given req.orgId with
  | none => .ignored
  | some orgId =>
    match findConnectionByOrgAndProvider s orgId provider with
    | none => .ignored
    | some connection =>
      match req.rawBody with
      | none => .unauthorized
      | some rawBody =>
        if verifySignature p provider rawBody (req.signature.getD "")
            connection.webhookSignatureKey then
          match p.parseJson rawBody, decryptAccessToken p connection with
          | some payload, some accessToken =>
            .processed orgId payload accessToken (merchantOf provider connection.config)
          | _, _ => .failed
        else .unauthorized

def squareWebhook (s : PosState) (req : WebhookRequest Body) : WebhookOutcome Payload :=
  receiveWebhook p .square s req

def cloverWebhook (s : PosState) (req : WebhookRequest Body) : WebhookOutcome Payload :=
  receiveWebhook p .clover s req

/-! ## Whose keys the rows hold -/

/-- Every row holds a key that staff have set. -/
def Keyed (s : PosState) : Prop :=
  ∀ (orgId : String) (provider : PosProvider) (row : LoyaltyPosConnection),
    s.connections orgId provider = some row →
      ⟨orgId, provider, row.webhookSignatureKey⟩ ∈ s.configured

/-- The operation is an OAuth callback that creates the row, under a key staff have not set. -/
def opens (s : PosState) : Op → Bool
  | .upsertOAuth n _ _ =>
    s.callbacks[n]?.any fun cb => (s.connections cb.orgId cb.provider).isNone &&
      !s.configured.contains ⟨cb.orgId, cb.provider, pendingSetup⟩
  | _ => false

/-- **The states of the runs** from the empty table in which every operation meets `ok`. -/
inductive Reach (ok : PosState → Op → Prop) : PosState → Prop
  | init : Reach ok {}
  | tail {s s' : PosState} {op : Op} : Reach ok s → ok s op → step p s op = some s' → Reach ok s'

/-- Run operations, as long as none throws and each meets `ok`. -/
def runOps (ok : PosState → Op → Bool) : PosState → List Op → Option PosState
  | s, [] => some s
  | s, op :: ops => if ok s op then (step p s op).bind fun s' => runOps ok s' ops else none

def SignedUnder (provider : PosProvider) (req : WebhookRequest Body) (key : String) : Prop :=
  ∃ rawBody, req.rawBody = some rawBody ∧
    verifySignature p provider rawBody (req.signature.getD "") key = true

end

section

variable {s s' : PosState}

theorem given_eq_some {x : Option String} {y : String} (h : given x = some y) : x = some y := by
  unfold given at h
  split at h
  · cases h
  · exact h

theorem keyed_empty : Keyed {} := fun _ _ _ h => by cases h

theorem Connections.set_eq_some {t : Connections} {orgId o : String} {provider q : PosProvider}
    {row : Option LoyaltyPosConnection} {x : LoyaltyPosConnection}
    (h : t.set orgId provider row o q = some x) :
    o = orgId ∧ q = provider ∧ row = some x ∨ t o q = some x := by
  unfold Connections.set at h
  split at h
  · rename_i hid
    exact Or.inl ⟨hid.1, hid.2, h⟩
  · exact Or.inr h

theorem Keyed.upsert {orgId : String} {provider : PosProvider} {created : LoyaltyPosConnection}
    {updated : LoyaltyPosConnection → LoyaltyPosConnection} (hs : Keyed s)
    (hc : s'.connections = s.connections.upsert orgId provider created updated)
    (hsub : s.configured ⊆ s'.configured)
    (hkey : ⟨orgId, provider,
      ((s.connections orgId provider).elim created updated).webhookSignatureKey⟩ ∈ s'.configured) :
    Keyed s' := by
  intro o q row hrow
  rw [hc, Connections.upsert] at hrow
  rcases Connections.set_eq_some hrow with ⟨rfl, rfl, hx⟩ | hx
  · cases hx
    exact hkey
  · exact hsub (hs o q row hx)

theorem Keyed.upsertConnection {orgId key : String} {provider : PosProvider} {config : PosConfig}
    (hs : Keyed s) : Keyed (upsertConnection s orgId provider key config) := by
  refine hs.upsert rfl (List.subset_append_left _ _) ?_
  have hmem : ⟨orgId, provider, key⟩ ∈ s.configured ++ [⟨orgId, provider, key⟩] := by simp
  cases s.connections orgId provider with
  | none => exact hmem
  | some row => exact hmem

variable {Body Payload : Type} {p : Platform Body Payload} {op : Op}

/-- **Every operation but one that opens a row** leaves only keys staff have set. -/
theorem step_keyed (hs : Keyed s) (ho : opens s op = false) (h : step p s op = some s') :
    Keyed s' := by
  cases op with
  | upsertSquare orgId input iv =>
    obtain ⟨token, -, h⟩ := Option.bind_eq_some_iff.mp h
    cases h
    exact hs.upsertConnection
  | upsertClover orgId input iv =>
    obtain ⟨token, -, h⟩ := Option.bind_eq_some_iff.mp h
    cases h
    exact hs.upsertConnection
  | readOAuth provider orgId data =>
    cases h
    exact hs
  | upsertOAuth n iv iv' =>
    obtain ⟨cb, hcb, h⟩ := Option.bind_eq_some_iff.mp h
    obtain ⟨config, -, h⟩ := Option.bind_eq_some_iff.mp h
    cases h
    refine hs.upsert rfl (List.Subset.refl _) ?_
    cases hrow : s.connections cb.orgId cb.provider with
    | some row => exact hs _ _ row hrow
    | none =>
      -- the callback creates the row, so staff have set its key
      simp only [opens] at ho
      rw [hcb, Option.any_some, hrow] at ho
      simpa using ho
  | deleteConnection orgId provider =>
    obtain ⟨-, h⟩ := (Option.ite_none_right_eq_some).mp h
    cases h
    intro o q row hrow
    rcases Connections.set_eq_some hrow with ⟨-, -, hx⟩ | hx
    · cases hx
    · exact hs o q row hx

theorem reach_keyed (h : Reach p (fun s op => opens s op = false) s) : Keyed s := by
  induction h with
  | init => exact keyed_empty
  | tail _ ho hs ih => exact step_keyed ih ho hs

theorem reach_of_runOps {P : PosState → Op → Prop} {o : PosState → Op → Bool}
    (hok : ∀ s op, o s op = true → P s op) {ops : List Op} (hs : Reach p P s)
    (h : runOps p o s ops = some s') : Reach p P s' := by
  induction ops generalizing s with
  | nil =>
    cases h
    exact hs
  | cons op ops ih =>
    obtain ⟨ho, h⟩ := Option.ite_none_right_eq_some.mp h
    obtain ⟨m, hm, h⟩ := Option.bind_eq_some_iff.mp h
    exact ih (.tail hs (hok s op ho) hm) h

theorem exists_reach_runOps {P : PosState → Op → Prop} {o : PosState → Op → Bool}
    (hok : ∀ s op, o s op = true → P s op) (ops : List Op) (q : PosState → Bool)
    (h : (runOps p o {} ops).any q = true) : ∃ s, Reach p P s ∧ q s = true := by
  obtain ⟨s, hs, hq⟩ := (Option.any_eq_true _ _).mp h
  exact ⟨s, reach_of_runOps hok .init hs, hq⟩

/-- **A processed webhook** is signed under the key of the active row of its organisation. -/
theorem receiveWebhook_processed {provider : PosProvider} {req : WebhookRequest Body}
    {orgId accessToken : String} {payload : Payload} {merchantId : Option String}
    (h : receiveWebhook p provider s req = .processed orgId payload accessToken merchantId) :
    req.orgId = some orgId ∧ ∃ row, s.connections orgId provider = some row ∧
      row.status = "active" ∧ SignedUnder p provider req row.webhookSignatureKey := by
  unfold receiveWebhook at h
  cases hg : given req.orgId with
  | none =>
    rw [hg] at h
    cases h
  | some o =>
    rw [hg] at h
    dsimp only at h
    cases hc : findConnectionByOrgAndProvider s o provider with
    | none =>
      rw [hc] at h
      cases h
    | some row =>
      obtain ⟨hrow, hactive⟩ := Option.filter_eq_some_iff.mp hc
      rw [hc] at h
      dsimp only at h
      cases hb : req.rawBody with
      | none =>
        rw [hb] at h
        cases h
      | some rawBody =>
        rw [hb] at h
        dsimp only at h
        split at h
        · rename_i hv
          split at h
          · cases h
            exact ⟨given_eq_some hg, row, hrow, eq_of_beq hactive, rawBody, hb, hv⟩
          · cases h
        · cases h

/-- **Webhooks are processed under staff's keys only**, in every run in which no OAuth callback
creates a row under a key staff have not set. In particular the literal key of such a row is
accepted only if staff have set it. -/
theorem reach_webhook_keyed (h : Reach p (fun s op => opens s op = false) s)
    (provider : PosProvider) (req : WebhookRequest Body) (orgId accessToken : String)
    (payload : Payload) (merchantId : Option String)
    (hp : receiveWebhook p provider s req = .processed orgId payload accessToken merchantId) :
    ∃ row, s.connections orgId provider = some row ∧
      SignedUnder p provider req row.webhookSignatureKey ∧
      ⟨orgId, provider, row.webhookSignatureKey⟩ ∈ s.configured := by
  obtain ⟨-, row, hrow, -, hsigned⟩ := receiveWebhook_processed hp
  exact ⟨row, hrow, hsigned, reach_keyed h orgId provider row hrow⟩

end

/-! ## Two runs -/

def emptyObject : String := "\x7b\x7d"

/-- `Platform` where the two runs use it: `POS_ENCRYPTION_KEY` is `00112233…eeff` twice over, and
the initialisation vectors are 1 and 2. -/
def sample : Platform String String where
  hmac encoding sigKey rawBody :=
    if encoding = .base64 ∧ rawBody = emptyObject then
      if sigKey = "pending_setup" then "qtLK2asXpBaRKsfuP5FDwoDUMKP2VKqs8vnWsSeVco8="
      else if sigKey = "sq-signature-key-1" then "NGJF+qM/8yyqlRZooAUMjZ+af2pqXzKcCgV2awI6JKs="
      else ""
    else ""
  encrypt iv plaintext :=
    if iv = 1 ∧ plaintext = "EAAA-oauth-token" then
      some "AAAAAAAAAAAAAAABhCKHrOZBv91kJTfcIsDoa5Dk05P3aP/KNvB1DSs0CeU="
    else if iv = 2 ∧ plaintext = "EAAA-staff-token" then
      some "AAAAAAAAAAAAAAACGON25dNArOhBh8aS714ocXe6Q1GTvtnNQbQrSwt6CQY="
    else none
  decrypt encoded :=
    if encoded = "AAAAAAAAAAAAAAABhCKHrOZBv91kJTfcIsDoa5Dk05P3aP/KNvB1DSs0CeU=" then
      some "EAAA-oauth-token"
    else if encoded = "AAAAAAAAAAAAAAACGON25dNArOhBh8aS714ocXe6Q1GTvtnNQbQrSwt6CQY=" then
      some "EAAA-staff-token"
    else none
  parseJson rawBody := if rawBody = emptyObject then some rawBody else none

/-- A webhook for `org-1` with an empty object for a body. -/
def signedWith (signature : String) : WebhookRequest String :=
  ⟨some "org-1", some signature, some emptyObject⟩

/-- Staff connect Square, then an OAuth callback renews the token. -/
def connectThenOAuth : List Op :=
  [.upsertSquare "org-1" ⟨"L1", "EAAA-staff-token", "sq-signature-key-1"⟩ 2,
   .readOAuth .square "org-1" { accessToken := "EAAA-oauth-token", locationId := "M1" },
   .upsertOAuth 0 1 0]

/-- An OAuth callback where there is no connection. -/
def oauthOnly : List Op :=
  [.readOAuth .square "org-1" { accessToken := "EAAA-oauth-token", locationId := "M1" },
   .upsertOAuth 0 1 0]

/-- Square's signature under the key `sq-signature-key-1`. -/
def staffSigned : WebhookRequest String := signedWith "NGJF+qM/8yyqlRZooAUMjZ+af2pqXzKcCgV2awI6JKs="

/-- Anybody's signature under the key `pending_setup`. -/
def pendingSigned : WebhookRequest String :=
  signedWith "qtLK2asXpBaRKsfuP5FDwoDUMKP2VKqs8vnWsSeVco8="

theorem reach_webhook_keyed_connectThenOAuth : ∃ s : PosState,
    Reach sample (fun s op => opens s op = false) s ∧
      squareWebhook sample s staffSigned =
        .processed "org-1" emptyObject "EAAA-oauth-token" none ∧
      ∃ row, s.connections "org-1" .square = some row ∧
        SignedUnder sample .square staffSigned row.webhookSignatureKey ∧
        ⟨"org-1", .square, row.webhookSignatureKey⟩ ∈ s.configured := by
  obtain ⟨s, hs, hq⟩ := exists_reach_runOps (p := sample) (P := fun s op => opens s op = false)
    (o := fun s op => !opens s op) (fun _ _ h => by simpa using h) connectThenOAuth
    (fun s => decide (squareWebhook sample s staffSigned =
      .processed "org-1" emptyObject "EAAA-oauth-token" none)) (by decide +kernel)
  have hp := of_decide_eq_true hq
  exact ⟨s, hs, hp, reach_webhook_keyed hs .square staffSigned _ _ _ _ hp⟩

/-- **The literal key is accepted**: after an OAuth callback alone, a webhook that anybody can sign
is processed, though staff have set no key at all. -/
theorem pendingSetup_accepted : ∃ s : PosState, Reach sample (fun _ _ => True) s ∧
    s.configured = [] ∧
    squareWebhook sample s pendingSigned =
      .processed "org-1" emptyObject "EAAA-oauth-token" none ∧
    SignedUnder sample .square pendingSigned pendingSetup := by
  obtain ⟨s, hs, hq⟩ := exists_reach_runOps (p := sample) (P := fun _ _ => True)
    (o := fun _ _ => true) (fun _ _ _ => trivial) oauthOnly
    (fun s => decide (s.configured = []) && decide (squareWebhook sample s pendingSigned =
      .processed "org-1" emptyObject "EAAA-oauth-token" none)) (by decide +kernel)
  obtain ⟨hc, hp⟩ := Bool.and_eq_true_iff.mp hq
  exact ⟨s, hs, of_decide_eq_true hc, of_decide_eq_true hp, emptyObject, rfl, by decide +kernel⟩

end PatronLoyalty.Pos
