import PatronLoyalty.Async.Pool
import PatronLoyalty.Async.Redis
import PatronLoyalty.Loyalty.Schema

/-!
# Display devices

`DisplayService`, as far as pairing, tokens, heartbeats and revocation go, `DisplayAuthGuard`, and what
`RealtimeService` does with the presence of a device. A task is a request. Its commands are those of Redis,
which may fail without anybody being told, and those of the database; a transaction makes its one write
when it commits.

`log`: what has happened, latest first.
-/

namespace PatronLoyalty.Display

open Async
open Loyalty (Id truthy trim)

/-! ## Records -/

/-- A row of `displayDevice`. -/
structure Device where
  orgId : Id
  branchId : Option Id
  status : String
  apiKeyHash : Option String
  fingerprintHash : Option String := none
  deriving DecidableEq, Repr

/-- What the guard caches of a device. -/
structure Cached where
  orgId : Id
  branchId : Option Id
  status : String
  deriving DecidableEq, Repr

/-- `DisplayTokenPayload`, which is all there is to a token that verifies. -/
structure DisplayTokenPayload where
  did : Id
  oid : Id
  bid : Id
  typ : String := "display"
  deriving DecidableEq, Repr

inductive PairingStatus
  | pending
  | linked
  deriving DecidableEq, Repr

structure PairingRedisPayload where
  mode : String := "reverse"
  sessionId : Id
  status : PairingStatus
  orgId : Option Id := none
  branchId : Option Id := none
  deviceId : Option Id := none
  deriving DecidableEq, Repr

structure PairingSessionRedis where
  code : String
  status : PairingStatus
  deviceId : Option Id := none
  orgId : Option Id := none
  apiKey : Option String := none
  sessionToken : Option DisplayTokenPayload := none
  deriving DecidableEq, Repr

/-- `display:auth:…`, `pairing:…`, `pairing:session:…`. -/
inductive Key
  | auth (deviceId : Id)
  | code (code : String)
  | session (sessionId : Id)
  deriving DecidableEq, Repr

inductive Value
  | auth (c : Cached)
  | code (p : PairingRedisPayload)
  | session (p : PairingSessionRedis)
  deriving DecidableEq, Repr

inductive Event
  | requested (sessionId : Id) (code : String) (time : ℕ)
  | found (code : String) (sessionId : Id) (time : ℕ)
  | linked (id : Id) (apiKey : String)
  /-- A link has succeeded. -/
  | paired (sessionId orgId branchId id : Id) (apiKey : String)
  | claimed (id : Id) (fingerprint : Option String)
  /-- A claim has returned the credentials, and the row of their device. -/
  | handedOver (sessionId id : Id) (device : Device) (apiKey : String)
      (sessionToken : DisplayTokenPayload)
  | revoked (id : Id) (time : ℕ)
  | deleted (id : Id)
  | admitted (id : Id) (missed : Bool) (time : ℕ)
  | refreshed (id : Id) (apiKey : String)
  | turnedAway (apiKey : String) (fingerprint : Option String) (message : String)
  /-- A refresh has found the device, which is not there any more. -/
  | gone (id : Id)
  deriving DecidableEq, Repr

def Event.device? : Event → Option Id
  | linked id _ | paired _ _ _ id _ | claimed id _ | handedOver _ id _ _ _ | revoked id _ | deleted id
  | admitted id _ _ | refreshed id _ | gone id => some id
  | requested .. | found .. | turnedAway .. => none

def Event.session? : Event → Option Id
  | requested sid _ _ | found _ sid _ | paired sid _ _ _ _ | handedOver sid _ _ _ _ => some sid
  | _ => none

structure Fleet where
  redis : Redis Key Value
  devices : AList fun _ : Id => Device
  log : List Event

/-- SHA-256, the configuration, the branches with their organisations, and the plans' limits. -/
structure Deployment where
  sha256 : String → String
  displayCodeExpiryMinutes : ℕ := 15
  branchOrg : Id → Option Id
  maxDevices : Id → Option ℕ

/-- `getPairingExpirySeconds` -/
def Deployment.pairingExpirySeconds (cfg : Deployment) : ℕ := cfg.displayCodeExpiryMinutes * 60

def Fleet.count (s : Fleet) (orgId : Id) : ℕ := s.devices.entries.countP fun e => e.2.orgId == orgId

/-- `checkLimit(orgId, 'maxDevices', …)` -/
def Deployment.allows (cfg : Deployment) (orgId : Id) (current : ℕ) : Bool :=
  (cfg.maxDevices orgId).all (current < ·)

namespace Fleet

def cached (s : Fleet) (id : Id) : Option Cached :=
  match s.redis.get (.auth id) with
  | some (.auth c) => some c
  | _ => none

/-- `getJson` of a code. -/
def pairing (s : Fleet) (code : String) : Option PairingRedisPayload :=
  match s.redis.get (.code code) with
  | some (.code p) => some p
  | _ => none

/-- `getJson` of a session. -/
def session (s : Fleet) (sessionId : Id) : Option PairingSessionRedis :=
  match s.redis.get (.session sessionId) with
  | some (.session p) => some p
  | _ => none

/-- `setJson`: no time, no expiry. -/
def setJson (s : Fleet) (k : Key) (v : Value) (ttlSeconds : ℕ) : Fleet :=
  { s with redis := if ttlSeconds = 0 then s.redis.set k v else s.redis.setex k ttlSeconds v }

def del (s : Fleet) (k : Key) : Fleet := { s with redis := s.redis.del k }

def write (s : Fleet) (id : Id) (d : Device) : Fleet :=
  { s with devices := s.devices.insert id d }

def note (s : Fleet) (e : Event) : Fleet := { s with log := e :: s.log }

def taken (s : Fleet) (id : Id) (apiKeyHash : String) : Bool :=
  s.devices.entries.any fun e => e.1 != id && e.2.apiKeyHash == some apiKeyHash

def byKey (s : Fleet) (apiKeyHash : String) : Option (Σ _ : Id, Device) :=
  s.devices.entries.find? fun e => e.2.apiKeyHash == some apiKeyHash

/-- The ids of devices and sessions do not repeat. -/
def unusedDevice (s : Fleet) (id : Id) : Bool :=
  (s.devices.lookup id).isNone && s.log.all (·.device? != some id)

def unusedSession (s : Fleet) (sessionId : Id) : Bool := s.log.all (·.session? != some sessionId)

theorem setJson_eq (s : Fleet) (k : Key) (v : Value) (n : ℕ) : s.setJson k v n = { s with
    redis := s.redis.put k ⟨v, if n = 0 then none else some (s.redis.now + 1000 * n)⟩ } := by
  unfold setJson
  split <;> rfl

end Fleet

/-- A status that the guard and `refreshToken` accept. -/
def isActive (status : String) : Bool := ["online", "paired"].contains status

/-- What a task meets at its next command. -/
inductive Move
  | go
  | created (id : Id)
  /-- A command of Redis fails, and nobody is told. -/
  | lost
  /-- Row-level security rejects a write without the tenant's id. -/
  | rejected
  /-- A command of the database throws, or the process dies. -/
  | fails
  deriving DecidableEq, Repr

/-! ## Pairing -/

def alphabet : List Char := "ABCDEFGHJKLMNPQRSTUVWXYZ23456789".toList

def generatePairingCodeString (bytes : List ℕ) : String :=
  String.ofList (bytes.map fun b => alphabet.getD (b % alphabet.length) 'A')

@[irreducible] def normalizePairingCode (code : String) : String := trim code.toUpper

/-- Where `requestReversePairingCode` stands: before this command. -/
inductive RequestPoint
  | setCode
  | setSession
  | ended
  deriving DecidableEq, Repr

structure Request where
  bytes : List ℕ
  sessionId : Id
  point : RequestPoint := .setCode
  deriving DecidableEq, Repr

def Request.code (t : Request) : String := generatePairingCodeString t.bytes

def Request.next (cfg : Deployment) (s : Fleet) (t : Request) : Move → Option (Fleet × RequestPoint)
  | .go =>
    match t.point with
    | .setCode =>
      if s.unusedSession t.sessionId then
        some ((s.setJson (.code t.code) (.code { sessionId := t.sessionId, status := .pending })
          cfg.pairingExpirySeconds).note (.requested t.sessionId t.code s.redis.now), .setSession)
      else none
    | .setSession =>
      some (s.setJson (.session t.sessionId) (.session { code := t.code, status := .pending })
        cfg.pairingExpirySeconds, .ended)
    | .ended => none
  | .lost =>
    match t.point with
    | .setCode =>
      if s.unusedSession t.sessionId then
        some (s.note (.requested t.sessionId t.code s.redis.now), .setSession)
      else none
    | .setSession => some (s, .ended)
    | .ended => none
  | .fails => if t.point = .ended then none else some (s, .ended)
  | .created _ | .rejected => none

/-- Where `linkScreen` stands: before this command. -/
inductive LinkPoint
  | start
  | branch (sessionId : Id)
  | find (sessionId : Id) (deviceId : Id)
  | del (sessionId : Id) (id : Id)
  | update (sessionId : Id) (id : Id)
  | count (sessionId : Id)
  | create (sessionId : Id)
  | setCode (sessionId : Id) (id : Id)
  | setSession (sessionId : Id) (id : Id)
  | ended
  deriving DecidableEq, Repr

/-- A link, with the random part of the key that it draws. -/
structure Link where
  orgId : Id
  code : String
  branchId : Id
  deviceId : Option Id := none
  hex : String
  point : LinkPoint := .start
  deriving DecidableEq, Repr

/-- `generateApiKey` -/
def Link.apiKey (t : Link) : String := "dsp_" ++ t.hex

def Link.normalizedCode (t : Link) : String := normalizePairingCode t.code

def Deployment.claimTtlSeconds (cfg : Deployment) : ℕ := min 120 cfg.pairingExpirySeconds

def Link.payload (t : Link) (sessionId id : Id) : PairingRedisPayload where
  sessionId := sessionId
  status := .linked
  orgId := some t.orgId
  branchId := some t.branchId
  deviceId := some id

def Link.credentials (t : Link) (id : Id) : PairingSessionRedis where
  code := t.normalizedCode
  status := .linked
  deviceId := some id
  orgId := some t.orgId
  apiKey := some t.apiKey
  sessionToken := some { did := id, oid := t.orgId, bid := t.branchId }

def Link.next (cfg : Deployment) (s : Fleet) (t : Link) : Move → Option (Fleet × LinkPoint)
  | .go =>
    match t.point with
    | .start =>
      some (match s.pairing t.normalizedCode with
        | none => (s, .ended)
        | some p =>
          if p.mode ≠ "reverse" ∨ p.status ≠ .pending then (s, .ended)
          else (s.note (.found t.normalizedCode p.sessionId s.redis.now), .branch p.sessionId))
    | .branch sid =>
      some (s, if cfg.branchOrg t.branchId = some t.orgId then
          match t.deviceId with
          | some id => .find sid id
          | none => .count sid
        else .ended)
    | .find sid id =>
      some (s, match s.devices.lookup id with
        | none => .ended
        | some d =>
          if d.orgId ≠ t.orgId ∨ d.branchId.any (· != t.branchId) = true then .ended
          else .del sid id)
    | .del sid id => some (s.del (.auth id), .update sid id)
    | .update sid id =>
      some (match s.devices.lookup id with
        | none => (s, .ended)
        | some d =>
          if s.taken id (cfg.sha256 t.apiKey) then (s, .ended)
          else ((s.write id { d with
              branchId := some t.branchId
              apiKeyHash := some (cfg.sha256 t.apiKey)
              status := "online" }).note (.linked id t.apiKey), .setCode sid id))
    | .count sid => some (s, if cfg.allows t.orgId (s.count t.orgId) then .create sid else .ended)
    | .setCode sid id =>
      some (s.setJson (.code t.normalizedCode) (.code (t.payload sid id)) cfg.claimTtlSeconds,
        .setSession sid id)
    | .setSession sid id =>
      some ((s.setJson (.session sid) (.session (t.credentials id)) cfg.claimTtlSeconds).note
        (.paired sid t.orgId t.branchId id t.apiKey), .ended)
    | .create _ | .ended => none
  | .created id =>
    match t.point with
    | .create sid =>
      if s.unusedDevice id then
        some (if s.taken id (cfg.sha256 t.apiKey) then (s, .ended)
          else ((s.write id {
              orgId := t.orgId
              branchId := some t.branchId
              apiKeyHash := some (cfg.sha256 t.apiKey)
              status := "online" }).note (.linked id t.apiKey), .setCode sid id))
      else none
    | _ => none
  | .lost =>
    match t.point with
    | .start => some (s, .ended)
    | .del sid id => some (s, .update sid id)
    | .setCode sid id => some (s, .setSession sid id)
    | .setSession sid id => some (s.note (.paired sid t.orgId t.branchId id t.apiKey), .ended)
    | _ => none
  | .fails => if t.point = .ended then none else some (s, .ended)
  | .rejected => none

structure Credentials where
  code : String
  deviceId : Id
  orgId : Option Id
  apiKey : String
  sessionToken : DisplayTokenPayload
  deriving DecidableEq, Repr

def PairingSessionRedis.credentials? (p : PairingSessionRedis) : Option Credentials :=
  match p.status, truthy p.apiKey, p.sessionToken, p.deviceId with
  | .linked, some apiKey, some sessionToken, some deviceId =>
    some ⟨p.code, deviceId, p.orgId, apiKey, sessionToken⟩
  | _, _, _, _ => none

/-- Where `claimReversePairing` stands: before this command. -/
inductive ClaimPoint
  | start
  | resolve (c : Credentials)
  | update (c : Credentials) (orgId : Option Id)
  | delSession (c : Credentials) (device : Device)
  | delCode (c : Credentials) (device : Device)
  | ended
  deriving DecidableEq, Repr

structure Claim where
  sessionId : Id
  deviceFingerprint : Option String
  point : ClaimPoint := .start
  deriving DecidableEq, Repr

def Claim.hand (s : Fleet) (t : Claim) (c : Credentials) (d : Device) : Fleet :=
  s.note (.handedOver t.sessionId c.deviceId d c.apiKey c.sessionToken)

def Claim.next (cfg : Deployment) (s : Fleet) (t : Claim) : Move → Option (Fleet × ClaimPoint)
  | .go =>
    match t.point with
    | .start =>
      some (s, match (s.session t.sessionId).bind (·.credentials?) with
        | none => .ended
        | some c => if c.orgId.isSome then .update c c.orgId else .resolve c)
    | .resolve c => some (s, .update c ((s.devices.lookup c.deviceId).map (·.orgId)))
    | .update c orgId =>
      some (match s.devices.lookup c.deviceId with
        | none => (s, .ended)
        | some d =>
          if orgId.any (· != d.orgId) = true then (s, .ended)
          else
            let d' := { d with
              fingerprintHash := (truthy t.deviceFingerprint).map cfg.sha256
              status := "online" }
            ((s.write c.deviceId d').note (.claimed c.deviceId (truthy t.deviceFingerprint)),
              .delSession c d'))
    | .delSession c d => some (s.del (.session t.sessionId), .delCode c d)
    | .delCode c d =>
      some (t.hand (if c.code = "" then s else s.del (.code c.code)) c d, .ended)
    | .ended => none
  | .rejected =>
    match t.point with
    | .update _ none => some (s, .ended)
    | _ => none
  | .lost =>
    match t.point with
    | .start => some (s, .ended)
    | .delSession c d => some (s, .delCode c d)
    | .delCode c d => some (t.hand s c d, .ended)
    | _ => none
  | .fails => if t.point = .ended then none else some (s, .ended)
  | .created _ => none

/-! ## Tokens -/

/-- Where `refreshToken` stands: before this command. -/
inductive RefreshPoint
  | start
  | touch (id : Id)
  | ended
  deriving DecidableEq, Repr

structure Refresh where
  apiKey : String
  deviceFingerprint : Option String := none
  point : RefreshPoint := .start
  deriving DecidableEq, Repr

/-- The fingerprint is compared if there are two. -/
def Refresh.mismatch (cfg : Deployment) (t : Refresh) (d : Device) : Bool :=
  match d.fingerprintHash, truthy t.deviceFingerprint with
  | some stored, some fingerprint => cfg.sha256 fingerprint != stored
  | _, _ => false

def Refresh.refusal (cfg : Deployment) (t : Refresh) (d : Device) : Option String :=
  if isActive d.status = false then some "Device has been revoked"
  else if t.mismatch cfg d = true then some "Device fingerprint mismatch"
  else if d.branchId = none then some "Device is not assigned to a branch"
  else none

def Refresh.next (cfg : Deployment) (s : Fleet) (t : Refresh) : Move → Option (Fleet × RefreshPoint)
  | .go =>
    match t.point with
    | .start =>
      some (match s.byKey (cfg.sha256 t.apiKey) with
        | none => (s.note (.turnedAway t.apiKey t.deviceFingerprint "Invalid API key"), .ended)
        | some e =>
          match t.refusal cfg e.2 with
          | some message => (s.note (.turnedAway t.apiKey t.deviceFingerprint message), .ended)
          | none => (s, .touch e.1))
    | .touch id =>
      some (if (s.devices.lookup id).isSome then s.note (.refreshed id t.apiKey)
        else s.note (.gone id), .ended)
    | .ended => none
  | .fails => if t.point = .ended then none else some (s, .ended)
  | .created _ | .lost | .rejected => none

/-! ## The guard -/

/-- Where a request with a token stands: before this command. -/
inductive CheckPoint
  | start
  | read (token : DisplayTokenPayload)
  | store (id : Id) (d : Device)
  | beat (id : Id) (orgId : Id)
  | ended
  deriving DecidableEq, Repr

/-- A request with what its token verifies to, if it does, and whether it is a heartbeat. -/
structure Check where
  token : Option DisplayTokenPayload
  heartbeat : Bool := false
  point : CheckPoint := .start
  deriving DecidableEq, Repr

/-- The guard admits the request. -/
def Check.attach (s : Fleet) (t : Check) (id orgId : Id) (missed : Bool) : Fleet × CheckPoint :=
  (s.note (.admitted id missed s.redis.now), if t.heartbeat then .beat id orgId else .ended)

def Check.next (s : Fleet) (t : Check) : Move → Option (Fleet × CheckPoint)
  | .go =>
    match t.point with
    | .start =>
      some (match t.token with
        | none => (s, .ended)
        | some token =>
          if token.typ ≠ "display" then (s, .ended)
          else
            match s.cached token.did with
            | none => (s, .read token)
            | some c => if isActive c.status then t.attach s token.did c.orgId false else (s, .ended))
    | .read token =>
      some (s, match s.devices.lookup token.did with
        | none => .ended
        | some d => if isActive d.status = true ∧ d.orgId = token.oid then .store token.did d else .ended)
    | .store id d =>
      some (t.attach (s.setJson (.auth id) (.auth ⟨d.orgId, d.branchId, d.status⟩) 60) id d.orgId true)
    | .beat id orgId =>
      some (match s.devices.lookup id with
        | none => s
        | some d => if d.orgId = orgId then s.write id { d with status := "online" } else s, .ended)
    | .ended => none
  | .lost =>
    match t.point with
    | .start =>
      match t.token with
      | none => none
      | some token => if token.typ ≠ "display" then none else some (s, .read token)
    | .store id d => some (t.attach s id d.orgId true)
    | _ => none
  | .fails => if t.point = .ended then none else some (s, .ended)
  | .created _ | .rejected => none

/-! ## Presence -/

inductive Presence
  | connect
  | disconnect
  deriving DecidableEq, Repr

def Presence.status : Presence → String
  | connect => "online"
  | disconnect => "offline"

/-- Where `handlePresenceWebhook` stands: before this command. -/
inductive WebhookPoint
  | find
  | update
  | ended
  deriving DecidableEq, Repr

structure Webhook where
  event : Presence
  userId : Id
  point : WebhookPoint := .find
  deriving DecidableEq, Repr

def Webhook.next (s : Fleet) (t : Webhook) : Move → Option (Fleet × WebhookPoint)
  | .go =>
    match t.point with
    | .find => some (s, if (s.devices.lookup t.userId).isSome then .update else .ended)
    | .update =>
      some (match s.devices.lookup t.userId with
        | none => s
        | some d => s.write t.userId { d with status := t.event.status }, .ended)
    | .ended => none
  | .rejected => if t.point = .update then some (s, .ended) else none
  | .fails => if t.point = .ended then none else some (s, .ended)
  | .created _ | .lost => none

/-! ## Revocation -/

/-- Where `revoke` and `delete` stand: before this command. -/
inductive RemovalPoint
  | find
  | del
  | write
  | ended
  deriving DecidableEq, Repr

/-- A `revoke`, or a `delete`. -/
structure Removal where
  orgId : Id
  deviceId : Id
  delete : Bool := false
  point : RemovalPoint := .find
  deriving DecidableEq, Repr

def Removal.next (s : Fleet) (t : Removal) : Move → Option (Fleet × RemovalPoint)
  | .go =>
    match t.point with
    | .find =>
      some (s, if (s.devices.lookup t.deviceId).any (·.orgId == t.orgId) = true then .del else .ended)
    | .del => some (s.del (.auth t.deviceId), .write)
    | .write =>
      some (match s.devices.lookup t.deviceId with
        | none => s
        | some d =>
          if d.orgId ≠ t.orgId then s
          else if t.delete then
            { s with devices := s.devices.erase t.deviceId }.note (.deleted t.deviceId)
          else (s.write t.deviceId { d with status := "revoked", apiKeyHash := none }).note
            (.revoked t.deviceId s.redis.now), .ended)
    | .ended => none
  | .lost => if t.point = .del then some (s, .write) else none
  | .fails => if t.point = .ended then none else some (s, .ended)
  | .created _ | .rejected => none

/-! ## The system -/

inductive Task
  | request (t : Request)
  | link (t : Link)
  | claim (t : Claim)
  | refresh (t : Refresh)
  | check (t : Check)
  | webhook (t : Webhook)
  | removal (t : Removal)
  deriving DecidableEq, Repr

/-- **One step of a task.** -/
def next (cfg : Deployment) (s : Fleet) : Task → Move → Option (Fleet × Task)
  | .request t, x => (t.next cfg s x).map fun r => (r.1, .request { t with point := r.2 })
  | .link t, x => (t.next cfg s x).map fun r => (r.1, .link { t with point := r.2 })
  | .claim t, x => (t.next cfg s x).map fun r => (r.1, .claim { t with point := r.2 })
  | .refresh t, x => (t.next cfg s x).map fun r => (r.1, .refresh { t with point := r.2 })
  | .check t, x => (t.next s x).map fun r => (r.1, .check { t with point := r.2 })
  | .webhook t, x => (t.next s x).map fun r => (r.1, .webhook { t with point := r.2 })
  | .removal t, x => (t.next s x).map fun r => (r.1, .removal { t with point := r.2 })

/-- **Requests of televisions and administrators together**, while time passes. -/
def displays (cfg : Deployment) : System Fleet Task Move ℕ where
  next := next cfg
  world s n := some { s with redis := s.redis.later n }

def Task.begins : Task → Bool
  | .request t => t.point == .setCode
  | .link t => t.point == .start
  | .claim t => t.point == .start
  | .refresh t => t.point == .start
  | .check t => t.point == .start
  | .webhook t => t.point == .find
  | .removal t => t.point == .find

/-- **Nothing has happened yet.** -/
structure Fresh (p : Pool Fleet Task) : Prop where
  devices : p.shared.devices = ∅
  entries (k : Key) : p.shared.redis.entries k = none
  log : p.shared.log = []
  begins {t : Task} : t ∈ p.tasks → t.begins = true

end PatronLoyalty.Display
