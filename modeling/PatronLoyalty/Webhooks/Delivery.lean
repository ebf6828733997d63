import Mathlib.Data.List.Basic

/-!
# Webhook deliveries

`WebhookService`: the endpoints of an organisation, and what `dispatchEvent` sends to them. Before each
delivery `assertSafeWebhookUrl` resolves the host of the URL and tests the texts of its addresses;
`fetch` then resolves the host itself, and follows redirects. An operation carries what DNS and the
remote server do in it, and the state is given the addresses that were connected to (`connections`).

Headline: **`reach_external`**, no connection goes to an internal address in runs in which `fetch` finds
the addresses the check has found, none of them is of a kind the test overlooks (`Overlooked`), and no
redirect leads to an internal address. `redirect_internal` is a run in which one does.

What is not under `src` is a parameter (`Platform`): `new URL`, and how IPv6 addresses are written.
-/

namespace PatronLoyalty.Webhooks

/-! ## Addresses -/

abbrev Groups := Vector (Fin 65536) 8

inductive IpAddress
  | v4 (a b c d : Fin 256)
  | v6 (w : Groups)
  deriving DecidableEq

def unspecified : Groups := #v[0, 0, 0, 0, 0, 0, 0, 0]

def loopback : Groups := #v[0, 0, 0, 0, 0, 0, 0, 1]

def InternalV4 (a b c d : ℕ) : Prop :=
  a = 0 ∧ b = 0 ∧ c = 0 ∧ d = 0 ∨ a = 127 ∨ a = 10 ∨ a = 172 ∧ 16 ≤ b ∧ b ≤ 31 ∨
    a = 192 ∧ b = 168 ∨ a = 169 ∧ b = 254

/-- `::ffff:0:0/96`, and the address of IPv4 it stands for is internal. -/
def MappedInternal (w : Groups) : Prop :=
  (w[0] = 0 ∧ w[1] = 0 ∧ w[2] = 0 ∧ w[3] = 0 ∧ w[4] = 0 ∧ w[5] = 65535) ∧
    InternalV4 (w[6] / 256 : ℕ) (w[6] % 256 : ℕ) (w[7] / 256 : ℕ) (w[7] % 256 : ℕ)

/-- **An internal address**: unspecified, loopback, private, unique-local or link-local. -/
def Internal : IpAddress → Prop
  | .v4 a b c d => InternalV4 a b c d
  | .v6 w => w = unspecified ∨ w = loopback ∨ 0xfc00 ≤ (w[0] : ℕ) ∧ (w[0] : ℕ) < 0xfe00 ∨
      0xfe80 ≤ (w[0] : ℕ) ∧ (w[0] : ℕ) < 0xfec0 ∨ MappedInternal w

/-- The internal addresses that the test of the texts overlooks: the unspecified ones, those that stand
for internal addresses of IPv4, and the link-local ones but for the group `fe80`. -/
def Overlooked : IpAddress → Prop
  | .v4 a b c d => a = 0 ∧ b = 0 ∧ c = 0 ∧ d = 0
  | .v6 w => w = unspecified ∨ 0xfe80 < (w[0] : ℕ) ∧ (w[0] : ℕ) < 0xfec0 ∨ MappedInternal w

/-- A host, as `new URL` reads it: the text of an IPv6 address is in brackets. -/
inductive Host
  | ipv4 (a b c d : Fin 256)
  | ipv6 (w : Groups)
  | name (hostname : String)

structure Url where
  protocol : String
  host : Host

structure Platform where
  /-- `new URL(url)` -/
  parseUrl : String → Option Url
  /-- The text `lookup` gives of an IPv6 address. -/
  ntop : Groups → List Char

def decimal (n : ℕ) : List Char := Nat.toDigits 10 n

def dotted (a b c d : ℕ) : List Char :=
  decimal a ++ '.' :: (decimal b ++ '.' :: (decimal c ++ '.' :: decimal d))

def IpAddress.text (P : Platform) : IpAddress → List Char
  | .v4 a b c d => dotted a b c d
  | .v6 w => P.ntop w

def hexGroup (n : ℕ) : List Char :=
  [n / 4096, n / 256 % 16, n / 16 % 16, n % 16].map Nat.digitChar

/-- **How IPv6 addresses are written**: `::1`, and a first group of four digits stands in front. -/
structure Platform.Writes (P : Platform) : Prop where
  loopback : P.ntop loopback = "::1".toList
  first (w : Groups) : 4096 ≤ (w[0] : ℕ) → ∃ rest, P.ntop w = hexGroup w[0] ++ ':' :: rest

/-! ## The check -/

/-- `Number.parseInt(text, 10)`, of the digits an address has. -/
def parseInt (text : List Char) : Option ℕ :=
  match text.takeWhile Char.isDigit with
  | [] => none
  | digits => some (digits.foldl (fun n c => 10 * n + (c.toNat - '0'.toNat)) 0)

/-- `text.split('.')[1] ?? ''` -/
def secondPart (text : List Char) : List Char :=
  ((text.dropWhile (· != '.')).drop 1).takeWhile (· != '.')

def isDisallowedIpAddress (ip : List Char) : Bool :=
  ip == "::1".toList || "127.".toList.isPrefixOf ip || "10.".toList.isPrefixOf ip ||
    "192.168.".toList.isPrefixOf ip || "169.254.".toList.isPrefixOf ip ||
    ("172.".toList.isPrefixOf ip &&
      (parseInt (secondPart ip)).any fun second => decide (16 ≤ second ∧ second ≤ 31)) ||
    "fc".toList.isPrefixOf (ip.map Char.toLower) || "fd".toList.isPrefixOf (ip.map Char.toLower) ||
    "fe80:".toList.isPrefixOf (ip.map Char.toLower)

/-- The answer of `lookup`, `none` when it throws. -/
abbrev Lookup := Option (List IpAddress)

section

variable (P : Platform) (nodeEnv : String)

def Host.isLocal : Host → Bool
  | .name hostname => hostname == "localhost" || ".local".toList.isSuffixOf hostname.toList
  | _ => false

/-- `isIP(hostname) ? hostname : null` -/
def Host.directIp : Host → Option (List Char)
  | .ipv4 a b c d => some (dotted a b c d)
  | _ => none

def assertResolved : Lookup → Except String Unit
  | none => .error "Webhook host could not be resolved"
  | some [] => .error "Webhook host did not resolve to an IP address"
  | some resolved =>
    if resolved.any fun address => isDisallowedIpAddress (address.text P) then
      .error "Webhook URL cannot target private or link-local network addresses"
    else .ok ()

def assertSafeWebhookUrl (urlRaw : String) (lookup : Lookup) : Except String Unit :=
  match P.parseUrl urlRaw with
  | none => .error "Invalid URL"
  | some parsed =>
    if parsed.protocol ≠ "https:" then .error "Webhook URL must use HTTPS"
    else if parsed.host.isLocal then
      .error "Webhook URL cannot target localhost/private network hosts"
    else
      match parsed.host.directIp with
      | some directIp =>
        if isDisallowedIpAddress directIp then
          .error "Webhook URL cannot target private or loopback IP addresses"
        else .ok ()
      | none => if nodeEnv = "test" then .ok () else assertResolved P lookup

/-! ## Deliveries -/

/-- What `fetch` may connect to for a host. -/
def Host.opened : Host → Lookup → List IpAddress
  | .ipv4 a b c d, _ => [.v4 a b c d]
  | .ipv6 w, _ => [.v6 w]
  | .name _, lookup => lookup.getD []

/-- What DNS and the remote server do in a delivery: the answer to the check, the answer to `fetch`, and
the hosts of the redirects with theirs. -/
structure Behaviour where
  checked : Lookup
  fetched : Lookup
  redirects : List (Host × Lookup) := []

structure WebhookEndpoint where
  orgId : ℕ
  url : String
  events : List String
  status : String := "active"

structure State where
  endpoints : ℕ → Option WebhookEndpoint := fun _ => none
  connections : List IpAddress := []

def deliver (url : String) (d : Behaviour) : List IpAddress :=
  match assertSafeWebhookUrl P nodeEnv url d.checked, P.parseUrl url with
  | .ok _, some parsed => parsed.host.opened d.fetched ++ d.redirects.flatMap fun r => r.1.opened r.2
  | _, _ => []

def WebhookEndpoint.Matches (ep : WebhookEndpoint) (orgId : ℕ) (eventType : String) : Prop :=
  ep.orgId = orgId ∧ ep.status = "active" ∧ ("*" ∈ ep.events ∨ eventType ∈ ep.events)

instance (ep : WebhookEndpoint) (orgId : ℕ) (eventType : String) :
    Decidable (ep.Matches orgId eventType) := by
  unfold WebhookEndpoint.Matches
  infer_instance

inductive Op
  | create (id orgId : ℕ) (url : String) (events : List String) (lookup : Lookup)
  | update (id orgId : ℕ) (url : Option String) (events : Option (List String))
      (status : Option String) (lookup : Lookup)
  | delete (id orgId : ℕ)
  /-- To the endpoints of these ids, in the order in which they are found. -/
  | dispatchEvent (orgId : ℕ) (eventType : String) (deliveries : List (ℕ × Behaviour))

def State.set (s : State) (id : ℕ) (ep : Option WebhookEndpoint) : State :=
  { s with endpoints := fun i => if i = id then ep else s.endpoints i }

/-- `if (typeof data.url === 'string' && data.url.trim()) await assertSafeWebhookUrl(data.url)`. -/
def checkedUpdate (url : Option String) (lookup : Lookup) : Bool :=
  url.all fun url => url.toList.all Char.isWhitespace ||
    (assertSafeWebhookUrl P nodeEnv url lookup).isOk

/-- `findFirst({ where: { id, orgId } })`. -/
def State.find (s : State) (id orgId : ℕ) : Option WebhookEndpoint :=
  (s.endpoints id).filter (·.orgId == orgId)

/-- The connections of `dispatchEvent`. -/
def dispatchEvent (s : State) (orgId : ℕ) (eventType : String) (deliveries : List (ℕ × Behaviour)) :
    List IpAddress :=
  deliveries.flatMap fun d =>
    ((s.endpoints d.1).filter fun ep => ep.Matches orgId eventType).elim [] fun ep =>
      deliver P nodeEnv ep.url d.2

/-- One operation; `none` when it throws. -/
def step (s : State) : Op → Option State
  | .create id orgId url events lookup =>
    if (assertSafeWebhookUrl P nodeEnv url lookup).isOk ∧ s.endpoints id = none then
      some (s.set id (some { orgId, url, events }))
    else none
  | .update id orgId url events status lookup => do
    let ep ← s.find id orgId
    if checkedUpdate P nodeEnv url lookup then
      some (s.set id (some
        { ep with
          url := url.getD ep.url
          events := events.getD ep.events
          status := status.getD ep.status }))
    else none
  | .delete id orgId => (s.find id orgId).map fun _ => s.set id none
  | .dispatchEvent orgId eventType deliveries =>
    some { s with connections := s.connections ++ dispatchEvent P nodeEnv s orgId eventType deliveries }

/-! ## Which deliveries are safe -/

/-- **Nothing gets around the check** of a delivery to the URL: `fetch` connects to addresses that were
checked, none of which the test overlooks, and no redirect leads to an internal address. -/
structure Behaviour.Honest (url : String) (d : Behaviour) : Prop where
  sameAnswer : ∀ parsed, P.parseUrl url = some parsed → parsed.host.directIp = none →
    nodeEnv ≠ "test" ∧ ∀ x ∈ parsed.host.opened d.fetched, x ∈ d.checked.getD []
  recognised : ∀ parsed, P.parseUrl url = some parsed →
    ∀ x ∈ parsed.host.opened d.fetched, ¬ Overlooked x
  redirects : ∀ r ∈ d.redirects, ∀ x ∈ r.1.opened r.2, ¬ Internal x

/-- Every delivery of the operation. -/
def HonestOp (s : State) : Op → Prop
  | .dispatchEvent orgId eventType deliveries => ∀ d ∈ deliveries, ∀ ep, s.endpoints d.1 = some ep →
      ep.Matches orgId eventType → d.2.Honest P nodeEnv ep.url
  | _ => True

/-- The states of the runs whose operations meet `ok`. -/
inductive Reach (ok : State → Op → Prop) : State → Prop
  | init : Reach ok {}
  | tail {s s' : State} {op : Op} : Reach ok s → ok s op → step P nodeEnv s op = some s' →
      Reach ok s'

end

section

variable {P : Platform} {nodeEnv url : String} {s s' : State} {d : Behaviour} {a b c e : Fin 256}
  {w : Groups} {x : IpAddress}

theorem isPrefixOf_append (l m : List Char) : l.isPrefixOf (l ++ m) = true :=
  List.isPrefixOf_iff_prefix.mpr (List.prefix_append _ _)

theorem parseInt_secondPart (b c e : Fin 256) :
    parseInt (secondPart (dotted 172 b c e)) = some (b : ℕ) := by
  have hdigits : ∀ b : Fin 256, (decimal b).all (· != '.') = true ∧
      parseInt (decimal b) = some (b : ℕ) := by decide +kernel
  have hsecond : secondPart (dotted 172 b c e) = decimal b := by
    change ((decimal b ++ '.' :: (decimal c ++ '.' :: decimal e)).takeWhile (· != '.')) = decimal b
    rw [List.takeWhile_append_of_pos (List.all_eq_true.mp (hdigits b).1)]
    simp
  rw [hsecond]
  exact (hdigits b).2

/-- **IPv4**: the test overlooks the unspecified address only. -/
theorem disallowed_v4 (h : InternalV4 a b c e) (hx : ¬ Overlooked (.v4 a b c e)) :
    isDisallowedIpAddress (dotted a b c e) = true := by
  unfold isDisallowedIpAddress
  simp only [Bool.or_eq_true, Bool.and_eq_true]
  rcases h with h | h | h | ⟨ha, hb⟩ | ⟨ha, hb⟩ | ⟨ha, hb⟩
  · exact absurd ⟨Fin.ext h.1, Fin.ext h.2.1, Fin.ext h.2.2.1, Fin.ext h.2.2.2⟩ hx
  · rw [h]
    exact Or.inl (Or.inl (Or.inl (Or.inl (Or.inl (Or.inl (Or.inl (Or.inr
      (isPrefixOf_append "127.".toList _))))))))
  · rw [h]
    exact Or.inl (Or.inl (Or.inl (Or.inl (Or.inl (Or.inl (Or.inr
      (isPrefixOf_append "10.".toList _)))))))
  · rw [ha]
    refine Or.inl (Or.inl (Or.inl (Or.inr ⟨isPrefixOf_append "172.".toList _, ?_⟩)))
    rw [parseInt_secondPart]
    exact decide_eq_true hb
  · rw [ha, hb]
    exact Or.inl (Or.inl (Or.inl (Or.inl (Or.inl (Or.inr
      (isPrefixOf_append "192.168.".toList _))))))
  · rw [ha, hb]
    exact Or.inl (Or.inl (Or.inl (Or.inl (Or.inr
      (isPrefixOf_append "169.254.".toList _)))))

/-- A text that begins with the two digits of a unique-local address, or with `fe80:`. -/
theorem disallowed_of_first {rest : List Char} (h : 0xfc00 ≤ (w[0] : ℕ) ∧ (w[0] : ℕ) ≤ 0xfe80)
    (hx : (w[0] : ℕ) < 0xfe00 ∨ (w[0] : ℕ) = 0xfe80) (ht : P.ntop w = hexGroup w[0] ++ ':' :: rest) :
    isDisallowedIpAddress (P.ntop w) = true := by
  unfold isDisallowedIpAddress
  simp only [Bool.or_eq_true]
  rw [ht]
  have h1 : (w[0] : ℕ) / 4096 = 15 := by omega
  rcases hx with hx | hx
  · have h2 : (w[0] : ℕ) / 256 % 16 = 12 ∨ (w[0] : ℕ) / 256 % 16 = 13 := by omega
    unfold hexGroup
    rw [h1]
    rcases h2 with h2 | h2
    · rw [h2]
      exact Or.inl (Or.inl (Or.inr (isPrefixOf_append "fc".toList _)))
    · rw [h2]
      exact Or.inl (Or.inr (isPrefixOf_append "fd".toList _))
  · rw [hx]
    exact Or.inr (isPrefixOf_append "fe80:".toList _)

/-- **The test of the texts** finds the internal addresses it does not overlook. -/
theorem disallowed_of_internal (hP : P.Writes) (h : Internal x) (hx : ¬ Overlooked x) :
    isDisallowedIpAddress (x.text P) = true := by
  cases x with
  | v4 a b c e => exact disallowed_v4 h hx
  | v6 w =>
    have hfirst := hP.first w
    rcases h with h | rfl | h | h | h
    · exact absurd (Or.inl h) hx
    · change isDisallowedIpAddress (P.ntop loopback) = true
      rw [hP.loopback]
      decide
    · obtain ⟨rest, ht⟩ := hfirst (by omega)
      exact disallowed_of_first (by omega) (by omega) ht
    · obtain ⟨rest, ht⟩ := hfirst (by omega)
      by_cases hw : (w[0] : ℕ) = 0xfe80
      · exact disallowed_of_first (by omega) (Or.inr hw) ht
      · exact absurd (Or.inr (Or.inl ⟨by omega, h.2⟩)) hx
    · exact absurd (Or.inr (Or.inr h)) hx

theorem allowed_of_assertResolved {lookup : Lookup} (h : assertResolved P lookup = .ok ())
    (hx : x ∈ lookup.getD []) : isDisallowedIpAddress (x.text P) = false := by
  unfold assertResolved at h
  split at h
  · cases h
  · cases h
  · split at h
    · cases h
    · rename_i hany
      exact Bool.eq_false_iff.mpr fun hd => hany (List.any_eq_true.mpr ⟨x, hx, hd⟩)

/-- What the check admits: the address of the URL, or those it has found. -/
theorem allowed_of_assertSafe {lookup : Lookup} {parsed : Url} (hp : P.parseUrl url = some parsed)
    (h : assertSafeWebhookUrl P nodeEnv url lookup = .ok ()) :
    (∀ ip, parsed.host.directIp = some ip → isDisallowedIpAddress ip = false) ∧
      (parsed.host.directIp = none → nodeEnv ≠ "test" → assertResolved P lookup = .ok ()) := by
  unfold assertSafeWebhookUrl at h
  rw [hp] at h
  dsimp only at h
  split at h
  · cases h
  · split at h
    · cases h
    · cases hd : parsed.host.directIp with
      | some ip =>
        rw [hd] at h
        refine ⟨fun ip' he => ?_, fun hne => (by cases hne)⟩
        cases he
        dsimp only at h
        split at h
        · cases h
        · rename_i hok
          exact Bool.eq_false_iff.mpr hok
      | none =>
        rw [hd] at h
        refine ⟨fun ip he => (by cases he), fun _ htest => ?_⟩
        dsimp only at h
        rwa [if_neg htest] at h

/-- **An honest delivery** connects to no internal address. -/
theorem deliver_external (hP : P.Writes) (hd : d.Honest P nodeEnv url)
    (hx : x ∈ deliver P nodeEnv url d) : ¬ Internal x := by
  unfold deliver at hx
  split at hx
  · rename_i parsed hsafe hp
    obtain ⟨hv4, hfound⟩ := allowed_of_assertSafe hp hsafe
    rcases List.mem_append.mp hx with hx | hx
    · intro hi
      have hdis := disallowed_of_internal hP hi (hd.recognised parsed hp x hx)
      cases hdirect : parsed.host.directIp with
      | some ip =>
        -- The host is an address of IPv4, and `fetch` connects to it.
        have hip := hv4 ip hdirect
        cases hhost : parsed.host with
        | ipv4 a b c e =>
          rw [hhost] at hx hdirect
          cases hdirect
          obtain rfl := List.mem_singleton.mp hx
          exact absurd hdis (Bool.eq_false_iff.mp hip)
        | _ => rw [hhost] at hdirect; cases hdirect
      | none =>
        obtain ⟨htest, hsame⟩ := hd.sameAnswer parsed hp hdirect
        exact absurd hdis (Bool.eq_false_iff.mp
          (allowed_of_assertResolved (hfound hdirect htest) (hsame x hx)))
    · obtain ⟨r, hr, hx⟩ := List.mem_flatMap.mp hx
      exact hd.redirects r hr x hx
  · cases hx

theorem step_external {op : Op} (hP : P.Writes) (hs : ∀ x ∈ s.connections, ¬ Internal x)
    (ho : HonestOp P nodeEnv s op) (h : step P nodeEnv s op = some s') :
    ∀ x ∈ s'.connections, ¬ Internal x := by
  cases op with
  | create id orgId url events lookup =>
    obtain ⟨-, h⟩ := Option.ite_none_right_eq_some.mp h
    cases h
    exact hs
  | update id orgId url events status lookup =>
    obtain ⟨ep, -, h⟩ := Option.bind_eq_some_iff.mp h
    obtain ⟨-, h⟩ := Option.ite_none_right_eq_some.mp h
    cases h
    exact hs
  | delete id orgId =>
    obtain ⟨ep, -, h⟩ := Option.map_eq_some_iff.mp h
    cases h
    exact hs
  | dispatchEvent orgId eventType deliveries =>
    cases h
    intro x hx
    rcases List.mem_append.mp hx with hx | hx
    · exact hs x hx
    · obtain ⟨d, hd, hx⟩ := List.mem_flatMap.mp hx
      cases hep : (s.endpoints d.1).filter fun ep => ep.Matches orgId eventType with
      | none =>
        rw [hep] at hx
        cases hx
      | some ep =>
        rw [hep] at hx
        obtain ⟨hrow, hm⟩ := Option.filter_eq_some_iff.mp hep
        exact deliver_external hP (ho d hd ep hrow (of_decide_eq_true hm)) hx

/-- **Deliveries stay outside**: in every run in which nothing gets around the check, no connection goes
to an internal address. -/
theorem reach_external (hP : P.Writes) (h : Reach P nodeEnv (HonestOp P nodeEnv) s) :
    ∀ x ∈ s.connections, ¬ Internal x := by
  induction h with
  | init => exact fun x hx => by cases hx
  | tail _ ho hs ih => exact step_external hP ih ho hs

end

/-! ## Two runs -/

/-- The URL of the runs; `::1` is the only address of theirs that has no first group. -/
def sample : Platform where
  parseUrl url :=
    if url = "https://hooks.example/" then some ⟨"https:", .name "hooks.example"⟩ else none
  ntop w := if w = loopback then "::1".toList else hexGroup w[0] ++ "::".toList

theorem sample_writes : sample.Writes where
  loopback := by decide +kernel
  first w h := by
    refine ⟨[':'], if_neg fun hw => ?_⟩
    rw [hw] at h
    exact absurd h (by decide)

def publicAddress : IpAddress := .v4 93 184 216 34

def metadataAddress : IpAddress := .v4 169 254 169 254

def hook : WebhookEndpoint := { orgId := 1, url := "https://hooks.example/", events := ["*"] }

/-- It is created, and gets an event. -/
theorem reach_hook (ok : State → Op → Prop) (d : Behaviour)
    (h1 : ∀ s, ok s (.create 1 1 hook.url hook.events (some [publicAddress])))
    (h2 : ok (({} : State).set 1 (some hook)) (.dispatchEvent 1 "ticket.created" [(1, d)])) :
    ∃ s, Reach sample "production" ok s ∧
      s.connections = deliver sample "production" hook.url d ++ [] := by
  have hcreate : step sample "production" {} (.create 1 1 hook.url hook.events
      (some [publicAddress])) = some (({} : State).set 1 (some hook)) := by
    unfold step
    exact if_pos ⟨by decide +kernel, rfl⟩
  exact ⟨_, .tail (.tail .init (h1 {}) hcreate) h2 rfl, rfl⟩

theorem reach_external_hook : ∃ s, Reach sample "production" (HonestOp sample "production") s ∧
    s.connections = [publicAddress] ∧ ∀ x ∈ s.connections, ¬ Internal x := by
  have hopened : ∀ parsed, sample.parseUrl hook.url = some parsed →
      parsed.host.opened (some [publicAddress]) = [publicAddress] := by
    intro parsed hp
    cases hp
    rfl
  obtain ⟨s, hs, hc⟩ := reach_hook (HonestOp sample "production")
    { checked := some [publicAddress], fetched := some [publicAddress] } (fun _ => trivial)
    (fun d hd ep hep _ => by
      obtain rfl := List.mem_singleton.mp hd
      cases hep
      refine ⟨fun parsed hp _ => ⟨by decide, fun x hx => ?_⟩, fun parsed hp x hx => ?_,
        fun r hr => by cases hr⟩
      · rwa [hopened parsed hp] at hx
      · rw [hopened parsed hp] at hx
        obtain rfl := List.mem_singleton.mp hx
        exact fun hx => absurd hx.1 (by decide))
  exact ⟨s, hs, hc.trans (by decide +kernel), reach_external sample_writes hs⟩

/-- **A redirect leads inside**: the remote server answers with a location of its own choice. -/
theorem redirect_internal : ∃ s, Reach sample "production" (fun _ _ => True) s ∧
    metadataAddress ∈ s.connections ∧ Internal metadataAddress := by
  obtain ⟨s, hs, hc⟩ := reach_hook (fun _ _ => True)
    { checked := some [publicAddress], fetched := some [publicAddress]
      redirects := [(.ipv4 169 254 169 254, none)] } (fun _ => trivial) trivial
  refine ⟨s, hs, ?_, Or.inr (Or.inr (Or.inr (Or.inr (Or.inr ⟨rfl, rfl⟩))))⟩
  rw [hc]
  decide +kernel

end PatronLoyalty.Webhooks
