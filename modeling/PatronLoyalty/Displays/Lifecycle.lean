import PatronLoyalty.Displays.Devices

/-!
# From a linking to a revocation

What a revocation stops, and what a linking promises. `revokedAt`: a device has been revoked since it was
last linked, and when. `currentKey`: the key of its last linking, unless it has been revoked or deleted
since.

Headline: **`admitted_lawfully`**. A device that is revoked is admitted from the cache alone, for a minute;
a device with a key is given a token for it. The condition: nothing writes `online` to a device that is
revoked, no check of a device stands between the row and the cache when the device is revoked, and
`refreshToken` reads no device that a disconnection has set offline.
-/

namespace PatronLoyalty.Display

open Async
open Loyalty (Id truthy)

/-! ## What the log says of a device -/

section

variable {α : Type} {f : Event → Option (Option α)} {e : Event} {log : List Event} {v : Option α}

def latest (f : Event → Option (Option α)) (log : List Event) : Option α := (log.findSome? f).join

theorem latest_of_none (h : f e = none) : latest f (e :: log) = latest f log := by
  unfold latest
  rw [List.findSome?_cons, h]

theorem latest_of_some (h : f e = some v) : latest f (e :: log) = v := by
  unfold latest
  rw [List.findSome?_cons, h]
  rfl

end

/-- A revocation says when, a linking that it is over. -/
def Event.revocation (id : Id) : Event → Option (Option ℕ)
  | revoked i t => if i = id then some (some t) else none
  | linked i _ => if i = id then some none else none
  | _ => none

/-- A linking says the key, a revocation and a deletion that there is none. -/
def Event.key (id : Id) : Event → Option (Option String)
  | linked i k => if i = id then some (some k) else none
  | revoked i _ => if i = id then some none else none
  | deleted i => if i = id then some none else none
  | _ => none

def Event.fingerprint (id : Id) : Event → Option (Option String)
  | claimed i f => if i = id then some f else none
  | _ => none

/-- When it has been revoked, unless it has been linked since. -/
def revokedAt (id : Id) : List Event → Option ℕ := latest (Event.revocation id)

/-- The key of its last linking, unless it has been revoked or deleted since. -/
def currentKey (id : Id) : List Event → Option String := latest (Event.key id)

def fingerprintOf (id : Id) : List Event → Option String := latest (Event.fingerprint id)

structure Event.Silent (e : Event) (id : Id) : Prop where
  revocation : e.revocation id = none
  key : e.key id = none
  fingerprint : e.fingerprint id = none

/-- Two logs say the same of the device. -/
structure Agree (id : Id) (log log' : List Event) : Prop where
  revokedAt : revokedAt id log' = revokedAt id log
  currentKey : currentKey id log' = currentKey id log
  fingerprintOf : fingerprintOf id log' = fingerprintOf id log

section

variable {e : Event} {id : Id} {log log' : List Event}

theorem Agree.refl : Agree id log log := ⟨rfl, rfl, rfl⟩

theorem Event.Silent.agree (h : e.Silent id) : Agree id log (e :: log) :=
  ⟨latest_of_none h.revocation, latest_of_none h.key, latest_of_none h.fingerprint⟩

theorem Event.silent_of_ne (h : e.device? ≠ some id) : e.Silent id := by
  cases e with
  | linked i k =>
    exact ⟨if_neg fun hi => h (congrArg some hi), if_neg fun hi => h (congrArg some hi), rfl⟩
  | claimed i f => exact ⟨rfl, rfl, if_neg fun hi => h (congrArg some hi)⟩
  | revoked i t =>
    exact ⟨if_neg fun hi => h (congrArg some hi), if_neg fun hi => h (congrArg some hi), rfl⟩
  | deleted i => exact ⟨rfl, if_neg fun hi => h (congrArg some hi), rfl⟩
  | requested | found | paired | handedOver | admitted | refreshed | turnedAway | gone =>
    exact ⟨rfl, rfl, rfl⟩

end

theorem agree_of_ne {e : Event} {id j : Id} {log : List Event} (he : e.device? = some id)
    (hj : j ≠ id) : Agree j log (e :: log) :=
  (Event.silent_of_ne fun h => hj (Option.some.inj (h.symm.trans he))).agree

/-! ## What is to hold -/

/-- There are not two fingerprints, or they are the same. -/
def Matches (given stored : Option String) : Prop :=
  ∀ f ∈ truthy given, ∀ g ∈ stored, f = g

def cacheLifetime : ℕ := 60 * 1000

/-- **What an event is to respect**: a device that is revoked is not admitted by a check that misses the
cache, nor later than the cache lifetime; a device with a key is not turned away with it. -/
def Event.Lawful (log : List Event) : Event → Prop
  | admitted id missed now =>
    ∀ t, revokedAt id log = some t → missed = false ∧ now ≤ t + cacheLifetime
  | turnedAway k f _ => ∀ id, currentKey id log = some k → ¬ Matches f (fingerprintOf id log)
  | gone id => currentKey id log = none
  | _ => True

def Lawful : List Event → Prop
  | [] => True
  | e :: log => e.Lawful log ∧ Lawful log

/-! ## The condition -/

/-- The device that the task is about to set online. -/
def Task.raises : Task → Option Id
  | .claim t =>
    match t.point with
    | .update c _ => some c.deviceId
    | _ => none
  | .check t =>
    match t.point with
    | .beat id _ => some id
    | _ => none
  | .webhook t => if t.event = .connect ∧ t.point = .update then some t.userId else none
  | _ => none

/-- The device whose row is about to be cached. -/
def Task.stores : Task → Option Id
  | .check t =>
    match t.point with
    | .store id _ => some id
    | _ => none
  | _ => none

def Task.revokes : Task → Option Id
  | .removal t => if t.delete = false ∧ t.point = .write then some t.deviceId else none
  | _ => none

/-- A refresh is about to read a device that is offline. -/
def Task.findsOffline (cfg : Deployment) (s : Fleet) : Task → Bool
  | .refresh t => t.point == .start && (s.byKey (cfg.sha256 t.apiKey)).any (·.2.status == "offline")
  | _ => false

/-- A device with a row has been revoked, and not been linked since. -/
def Fleet.barred (s : Fleet) (id : Id) : Bool :=
  (s.devices.lookup id).isSome && (revokedAt id s.log).isSome

/-- **The condition on the steps of a run.** -/
abbrev undisturbed (cfg : Deployment) : System.Condition Fleet Task Move ℕ where
  task s t x := x = .go → t.raises.any s.barred = false ∧ t.findsOffline cfg s = false
  others _ t x u := x = .go → ∀ id ∈ t.revokes, u.stores ≠ some id

/-! ## What is known -/

structure Device.Known (cfg : Deployment) (log : List Event) (id : Id) (d : Device) : Prop where
  assigned : d.branchId ≠ none
  fingerprint : d.fingerprintHash = (fingerprintOf id log).map cfg.sha256
  barred {t : ℕ} : revokedAt id log = some t → isActive d.status = false
  key {k : String} : currentKey id log = some k → d.apiKeyHash = some (cfg.sha256 k) ∧
    (isActive d.status = true ∨ d.status = "offline")

/-- What is known of an entry of the guard's cache. -/
def Expiring (now : ℕ) (revoked : Option ℕ) (e : Entry Value) : Prop :=
  ∃ t, e.expiresAt = some t ∧ t ≤ now + cacheLifetime ∧ ∀ r, revoked = some r → t ≤ r + cacheLifetime

/-- What is known of devices, cache and log. -/
structure Kept (cfg : Deployment) (s : Fleet) : Prop where
  lawful : Lawful s.log
  row {id : Id} {d : Device} : s.devices.lookup id = some d → d.Known cfg s.log id
  present {id : Id} {k : String} : currentKey id s.log = some k → s.devices.lookup id ≠ none
  unique {i j : Id} {d e : Device} {h : String} : s.devices.lookup i = some d →
    s.devices.lookup j = some e → d.apiKeyHash = some h → e.apiKeyHash = some h → i = j
  cache {id : Id} {e : Entry Value} : s.redis.entries (.auth id) = some e →
    Expiring s.redis.now (revokedAt id s.log) e

/-- A check that is about to cache a row: the device is not revoked. -/
def Task.Known (s : Fleet) (t : Task) : Prop := ∀ id ∈ t.stores, revokedAt id s.log = none

/-- A step keeps what is known, and revokes nothing. -/
structure Keeps (cfg : Deployment) (s s' : Fleet) : Prop where
  kept : Kept cfg s'
  spares {id : Id} : revokedAt id s.log = none → revokedAt id s'.log = none

section

variable {cfg : Deployment} {s s' m : Fleet} {e : Event} {id : Id} {d : Device} {k : Key} {v : Value}

theorem Kept.keeps (h : Kept cfg s) : Keeps cfg s s := ⟨h, fun h => h⟩

theorem Keeps.trans (h : Keeps cfg s m) (h' : Kept cfg m → Keeps cfg m s') : Keeps cfg s s' :=
  ⟨(h' h.kept).kept, fun hr => (h' h.kept).spares (h.spares hr)⟩

theorem Device.Known.congr {log log' : List Event} (h : d.Known cfg log id) (ha : Agree id log log') :
    d.Known cfg log' id where
  assigned := h.assigned
  fingerprint := by
    rw [ha.fingerprintOf]
    exact h.fingerprint
  barred ht := h.barred (ha.revokedAt ▸ ht)
  key hk := h.key (ha.currentKey ▸ hk)

/-- **An event that says nothing of any device.** -/
theorem Kept.note (h : Kept cfg s) (he : ∀ id, e.Silent id) (hl : e.Lawful s.log) :
    Keeps cfg s (s.note e) := by
  have ha : ∀ id, Agree id s.log (e :: s.log) := fun id => (he id).agree
  refine ⟨⟨⟨hl, h.lawful⟩, fun hd => (h.row hd).congr (ha _), fun {id k} hk => ?_, h.unique,
    fun {id x} hx => ?_⟩, fun {id} hr => (ha id).revokedAt.trans hr⟩
  · exact h.present ((ha id).currentKey ▸ hk)
  · show Expiring _ (revokedAt id (e :: s.log)) _
    rw [(ha id).revokedAt]
    exact h.cache hx

/-- The entries of the cache have not been written to. -/
theorem Kept.congr (h : Kept cfg s) {r : Redis Key Value} (hn : s.redis.now ≤ r.now)
    (hr : ∀ id e, r.entries (.auth id) = some e → s.redis.entries (.auth id) = some e) :
    Keeps cfg s { s with redis := r } := by
  refine ⟨⟨h.lawful, h.row, h.present, h.unique, fun {id x} hx => ?_⟩, fun hr => hr⟩
  obtain ⟨t, ht, hle, hrev⟩ := h.cache (hr _ _ hx)
  exact ⟨t, ht, by
    show t ≤ r.now + cacheLifetime
    omega, hrev⟩

theorem entries_put {r : Redis Key Value} {x : Entry Value} (hk : k ≠ .auth id) :
    (r.put k x).entries (.auth id) = r.entries (.auth id) :=
  Redis.entries_put_ne (Ne.symm hk)

theorem Kept.setJson (h : Kept cfg s) (n : ℕ) (hk : ∀ id, k ≠ .auth id) :
    Keeps cfg s (s.setJson k v n) := by
  rw [Fleet.setJson_eq]
  refine h.congr (Nat.le_refl _) fun i y hy => ?_
  rw [entries_put (hk i)] at hy
  exact hy

theorem Kept.del (h : Kept cfg s) (k : Key) : Keeps cfg s (s.del k) := by
  refine h.congr (Nat.le_refl _) fun i y hy => ?_
  by_cases hk : Key.auth i = k
  · subst hk
    rw [Redis.entries_del_self] at hy
    cases hy
  · rw [Redis.entries_del_ne hk] at hy
    exact hy

/-- **The guard stores a row** of a device that is not revoked. -/
theorem Kept.store (h : Kept cfg s) (c : Cached) (hr : revokedAt id s.log = none) :
    Keeps cfg s (s.setJson (.auth id) (.auth c) 60) := by
  refine ⟨⟨h.lawful, h.row, h.present, h.unique, fun {i x} hx => ?_⟩, fun hr => hr⟩
  by_cases hi : i = id
  · subst hi
    have hx' : some (⟨Value.auth c, some (s.redis.now + 1000 * 60)⟩ : Entry Value) = some x :=
      (Redis.entries_put_self (r := s.redis)).symm.trans hx
    cases hx'
    refine ⟨_, rfl, Nat.le_refl _, fun t ht => ?_⟩
    have ht' : revokedAt i s.log = some t := ht
    rw [hr] at ht'
    cases ht'
  · have hx' : s.redis.entries (.auth i) = some x :=
      (Redis.entries_put_ne (r := s.redis) fun he => hi (Key.auth.inj he)).symm.trans hx
    exact h.cache hx'

/-- No other row has the key of this one. -/
def Sole (s : Fleet) (id : Id) (d : Device) : Prop :=
  ∀ j e h, j ≠ id → s.devices.lookup j = some e → d.apiKeyHash = some h → e.apiKeyHash ≠ some h

theorem Kept.sole (h : Kept cfg s) (hd : s.devices.lookup id = some d) {d' : Device}
    (hk : d'.apiKeyHash = d.apiKeyHash ∨ d'.apiKeyHash = none) : Sole s id d' := by
  intro j e x hj he hx hex
  rcases hk with hk | hk
  · exact hj (h.unique he hd hex (hk ▸ hx))
  · rw [hk] at hx
    cases hx

theorem sole_of_taken {hash : String} (h : s.taken id hash = false) (hd : d.apiKeyHash = some hash) :
    Sole s id d := by
  intro j e x hj he hx hex
  rw [hd] at hx
  cases hx
  have hmem : (⟨j, e⟩ : Σ _ : Id, Device) ∈ s.devices.entries := AList.mem_lookup_iff.mp he
  have hno := List.any_eq_false.mp h _ hmem
  exact hno (by simp [hj, hex])

/-- **A row is written**, and what is said of it. -/
theorem Kept.change (h : Kept cfg s) {log : List Event} (hl : Lawful log)
    (ha : ∀ j, j ≠ id → Agree j s.log log) (hd : d.Known cfg log id) (hs : Sole s id d)
    (hr : ∀ t, revokedAt id log = some t → revokedAt id s.log = some t ∨ t = s.redis.now) :
    Kept cfg { s with devices := s.devices.insert id d, log := log } := by
  have hne : ∀ j, j ≠ id → (s.devices.insert id d).lookup j = s.devices.lookup j :=
    fun j hj => AList.lookup_insert_ne hj
  have hrow : ∀ {j : Id} {e : Device}, (s.devices.insert id d).lookup j = some e →
      j = id ∧ e = d ∨ j ≠ id ∧ s.devices.lookup j = some e := by
    intro j e he
    by_cases hj : j = id
    · subst hj
      rw [AList.lookup_insert] at he
      exact Or.inl ⟨rfl, (Option.some.inj he).symm⟩
    · rw [hne j hj] at he
      exact Or.inr ⟨hj, he⟩
  refine ⟨hl, fun {j e} he => ?_, fun {j k} hk => ?_, fun {i j e e' x} he he' hx hx' => ?_,
    fun {j x} hx => ?_⟩
  · rcases hrow he with ⟨rfl, rfl⟩ | ⟨hj, he⟩
    · exact hd
    · exact (h.row he).congr (ha j hj)
  · show (s.devices.insert id d).lookup j ≠ none
    by_cases hj : j = id
    · subst hj
      rw [AList.lookup_insert]
      exact Option.some_ne_none _
    · rw [hne j hj]
      exact h.present ((ha j hj).currentKey ▸ hk)
  · rcases hrow he with ⟨rfl, rfl⟩ | ⟨hi, hli⟩
    · rcases hrow he' with ⟨rfl, -⟩ | ⟨hj, hlj⟩
      · rfl
      · exact absurd hx' (hs _ _ _ hj hlj hx)
    · rcases hrow he' with ⟨rfl, rfl⟩ | ⟨hj, hlj⟩
      · exact absurd hx (hs _ _ _ hi hli hx')
      · exact h.unique hli hlj hx hx'
  · obtain ⟨t, ht, hle, hrev⟩ := h.cache hx
    refine ⟨t, ht, hle, fun r hr' => ?_⟩
    by_cases hj : j = id
    · subst hj
      rcases hr r hr' with hr' | rfl
      · exact hrev r hr'
      · exact hle
    · exact hrev r ((ha j hj).revokedAt ▸ hr')

theorem Kept.changeNote (h : Kept cfg s) (hl : e.Lawful s.log)
    (ha : ∀ j, j ≠ id → Agree j s.log (e :: s.log)) (hd : d.Known cfg (e :: s.log) id)
    (hs : Sole s id d) (hr : ∀ t, revokedAt id (e :: s.log) = some t →
      revokedAt id s.log = some t ∨ t = s.redis.now) :
    Kept cfg ((s.write id d).note e) :=
  h.change ⟨hl, h.lawful⟩ ha hd hs hr

theorem Kept.setStatus (h : Kept cfg s) (hd : s.devices.lookup id = some d) {status : String}
    (hb : revokedAt id s.log = none ∨ isActive status = false)
    (hk : isActive status = true ∨ status = "offline") :
    Keeps cfg s (s.write id { d with status }) := by
  have hrow := h.row hd
  refine ⟨h.change h.lawful (fun _ _ => .refl) ⟨hrow.assigned, hrow.fingerprint, fun {t} ht => ?_,
    fun hkey => ⟨(hrow.key hkey).1, hk⟩⟩ (h.sole hd (Or.inl rfl)) fun _ ht => Or.inl ht, fun hr => hr⟩
  rcases hb with hb | hb
  · rw [hb] at ht
    cases ht
  · exact hb

/-- **A device is linked.** -/
theorem Kept.linked (h : Kept cfg s) {key : String} (hb : d.branchId ≠ none)
    (hf : d.fingerprintHash = (fingerprintOf id s.log).map cfg.sha256)
    (hk : d.apiKeyHash = some (cfg.sha256 key)) (hs : isActive d.status = true)
    (ht : s.taken id (cfg.sha256 key) = false) :
    Keeps cfg s ((s.write id d).note (.linked id key)) := by
  have ha : ∀ j, j ≠ id → Agree j s.log (.linked id key :: s.log) :=
    fun _ hj => agree_of_ne rfl hj
  have hrev : revokedAt id (.linked id key :: s.log) = none := latest_of_some (if_pos rfl)
  have hkey : currentKey id (.linked id key :: s.log) = some key := latest_of_some (if_pos rfl)
  refine ⟨h.changeNote trivial ha ⟨hb, hf, fun {t} hr => ?_, fun {k} hc => ?_⟩
    (sole_of_taken ht hk) fun t hr => ?_, fun {j} hr => ?_⟩
  · rw [hrev] at hr
    cases hr
  · rw [hkey] at hc
    cases hc
    exact ⟨hk, Or.inl hs⟩
  · rw [hrev] at hr
    cases hr
  · by_cases hj : j = id
    · subst hj
      exact hrev
    · exact (ha j hj).revokedAt.trans hr

/-- **A device that is not revoked is claimed.** -/
theorem Kept.claimed (h : Kept cfg s) (hd : s.devices.lookup id = some d)
    (hr : revokedAt id s.log = none) (f : Option String) :
    Keeps cfg s ((s.write id { d with
      fingerprintHash := f.map cfg.sha256, status := "online" }).note (.claimed id f)) := by
  have ha : ∀ j, j ≠ id → Agree j s.log (.claimed id f :: s.log) :=
    fun _ hj => agree_of_ne rfl hj
  have hrow := h.row hd
  refine ⟨h.changeNote trivial ha ⟨hrow.assigned, ?_, fun {t} ht => ?_, fun hk => ?_⟩
    (h.sole hd (Or.inl rfl)) fun _ ht => Or.inl ht, fun hr => hr⟩
  · rw [show fingerprintOf id (.claimed id f :: s.log) = f from latest_of_some (if_pos rfl)]
  · rw [show revokedAt id (.claimed id f :: s.log) = revokedAt id s.log from rfl, hr] at ht
    cases ht
  · exact ⟨(hrow.key hk).1, Or.inl (by show isActive "online" = true; decide)⟩

/-- **A device is revoked.** -/
theorem Kept.revoked (h : Kept cfg s) (hd : s.devices.lookup id = some d) :
    Kept cfg ((s.write id { d with status := "revoked", apiKeyHash := none }).note
        (.revoked id s.redis.now)) ∧
      ∀ j, j ≠ id → revokedAt j (.revoked id s.redis.now :: s.log) = revokedAt j s.log := by
  have ha : ∀ j, j ≠ id → Agree j s.log (.revoked id s.redis.now :: s.log) :=
    fun _ hj => agree_of_ne rfl hj
  have hrow := h.row hd
  refine ⟨h.changeNote trivial ha ⟨hrow.assigned, hrow.fingerprint, fun _ => by
    show isActive "revoked" = false
    decide, fun {k} hk => ?_⟩ (h.sole hd (Or.inr rfl)) fun t ht => ?_, fun j hj => (ha j hj).revokedAt⟩
  · rw [show currentKey id (.revoked id s.redis.now :: s.log) = none from
      latest_of_some (if_pos rfl)] at hk
    cases hk
  · rw [show revokedAt id (.revoked id s.redis.now :: s.log) = some s.redis.now from
      latest_of_some (if_pos rfl)] at ht
    exact Or.inr (Option.some.inj ht).symm

/-- **A device is deleted.** -/
theorem Kept.deleted (h : Kept cfg s) (id : Id) :
    Keeps cfg s (Fleet.note { s with devices := s.devices.erase id } (.deleted id)) := by
  have ha : ∀ j, j ≠ id → Agree j s.log (.deleted id :: s.log) :=
    fun _ hj => agree_of_ne rfl hj
  have hrow : ∀ {j : Id} {e : Device}, (s.devices.erase id).lookup j = some e →
      j ≠ id ∧ s.devices.lookup j = some e := by
    intro j e he
    have hj : j ≠ id := by
      rintro rfl
      rw [AList.lookup_erase] at he
      cases he
    rw [AList.lookup_erase_ne hj] at he
    exact ⟨hj, he⟩
  refine ⟨⟨⟨trivial, h.lawful⟩, fun {j e} he => ?_, fun {j k} hk => ?_, fun he he' => ?_,
    h.cache⟩, fun hr => hr⟩
  · obtain ⟨hj, he⟩ := hrow he
    exact (h.row he).congr (ha j hj)
  · have hj : j ≠ id := by
      rintro rfl
      have hk' : currentKey j (.deleted j :: s.log) = some k := hk
      rw [show currentKey j (.deleted j :: s.log) = none from latest_of_some (if_pos rfl)] at hk'
      cases hk'
    show (s.devices.erase id).lookup j ≠ none
    rw [AList.lookup_erase_ne hj]
    exact h.present ((ha j hj).currentKey ▸ hk)
  · exact h.unique (hrow he).2 (hrow he').2

end

/-! ## Steps -/

section

variable {cfg : Deployment} {s s' : Fleet} {x : Move} {t : Task} {d : Device} {id : Id}

theorem Request.keeps {t : Request} {q : RequestPoint} (h : Kept cfg s)
    (hn : t.next cfg s x = some (s', q)) : Keeps cfg s s' := by
  have hnote : ∀ {m : Fleet}, Kept cfg m →
      Keeps cfg m (m.note (.requested t.sessionId t.code s.redis.now)) :=
    fun hm => hm.note (fun _ => ⟨rfl, rfl, rfl⟩) trivial
  cases x with
  | go =>
    cases hp : t.point with
    | setCode =>
      simp only [Request.next, hp] at hn
      split at hn
      · cases hn
        exact (h.setJson _ (by simp)).trans hnote
      · cases hn
    | setSession =>
      simp only [Request.next, hp] at hn
      cases hn
      exact h.setJson _ (by simp)
    | ended =>
      simp only [Request.next, hp] at hn
      cases hn
  | lost =>
    cases hp : t.point with
    | setCode =>
      simp only [Request.next, hp] at hn
      split at hn
      · cases hn
        exact hnote h
      · cases hn
    | setSession =>
      simp only [Request.next, hp] at hn
      cases hn
      exact h.keeps
    | ended =>
      simp only [Request.next, hp] at hn
      cases hn
  | fails =>
    obtain ⟨rfl, rfl⟩ := ended_of_fails hn
    exact h.keeps
  | created id => cases hn
  | rejected => cases hn

theorem fingerprintOf_of_unused (h : s.unusedDevice id = true) :
    fingerprintOf id s.log = none := by
  have hall := (Bool.and_eq_true_iff.mp h).2
  unfold fingerprintOf latest
  rw [List.findSome?_eq_none_iff.mpr]
  · rfl
  · intro e he
    exact (Event.silent_of_ne (bne_iff_ne.mp (List.all_eq_true.mp hall e he))).fingerprint

theorem Link.keeps_go {t : Link} {q : LinkPoint} (h : Kept cfg s)
    (hn : t.next cfg s .go = some (s', q)) : Keeps cfg s s' := by
  have hnote : ∀ {m : Fleet} {sid id : Id}, Kept cfg m →
      Keeps cfg m (m.note (.paired sid t.orgId t.branchId id t.apiKey)) :=
    fun hm => hm.note (fun _ => ⟨rfl, rfl, rfl⟩) trivial
  cases hp : t.point with
  | start =>
    simp only [Link.next, hp, Option.some.injEq] at hn
    split at hn
    · cases hn
      exact h.keeps
    · split at hn
      · cases hn
        exact h.keeps
      · cases hn
        exact h.note (fun _ => ⟨rfl, rfl, rfl⟩) trivial
  | branch sid =>
    simp only [Link.next, hp] at hn
    cases hn
    exact h.keeps
  | find sid id =>
    simp only [Link.next, hp] at hn
    cases hn
    exact h.keeps
  | del sid id =>
    simp only [Link.next, hp] at hn
    cases hn
    exact h.del _
  | update sid id =>
    simp only [Link.next, hp, Option.some.injEq] at hn
    cases hd : s.devices.lookup id with
    | none =>
      simp only [hd] at hn
      cases hn
      exact h.keeps
    | some d =>
      simp only [hd] at hn
      split at hn
      · cases hn
        exact h.keeps
      · rename_i ht
        cases hn
        exact h.linked (Option.some_ne_none _) (h.row hd).fingerprint rfl
          (by show isActive "online" = true; decide) (Bool.eq_false_iff.mpr ht)
  | count sid =>
    simp only [Link.next, hp] at hn
    cases hn
    exact h.keeps
  | create sid =>
    simp only [Link.next, hp] at hn
    cases hn
  | setCode sid id =>
    simp only [Link.next, hp] at hn
    cases hn
    exact h.setJson _ (by simp)
  | setSession sid id =>
    simp only [Link.next, hp] at hn
    cases hn
    exact (h.setJson _ (by simp)).trans hnote
  | ended =>
    simp only [Link.next, hp] at hn
    cases hn

theorem Link.keeps {t : Link} {q : LinkPoint} (h : Kept cfg s)
    (hn : t.next cfg s x = some (s', q)) : Keeps cfg s s' := by
  cases x with
  | go => exact t.keeps_go h hn
  | created id =>
    simp only [Link.next] at hn
    split at hn
    · split at hn
      · rename_i hid
        simp only [Option.some.injEq] at hn
        split at hn
        · cases hn
          exact h.keeps
        · rename_i ht
          cases hn
          refine h.linked (Option.some_ne_none _) ?_ rfl (by show isActive "online" = true; decide)
            (Bool.eq_false_iff.mpr ht)
          rw [fingerprintOf_of_unused hid]
          rfl
      · cases hn
    · cases hn
  | lost =>
    simp only [Link.next] at hn
    split at hn
    · cases hn
      exact h.keeps
    · cases hn
      exact h.keeps
    · cases hn
      exact h.keeps
    · cases hn
      exact h.note (fun _ => ⟨rfl, rfl, rfl⟩) trivial
    · cases hn
  | fails =>
    obtain ⟨rfl, rfl⟩ := ended_of_fails hn
    exact h.keeps
  | rejected => cases hn

/-- What the condition says of a step that sets a device online. -/
theorem revokedAt_of_raises (ht : t.raises = some id) (hx : t.raises.any s.barred = false)
    (hd : s.devices.lookup id = some d) :
    revokedAt id s.log = none := by
  rw [ht] at hx
  have hx' : ((s.devices.lookup id).isSome && (revokedAt id s.log).isSome) = false := hx
  rw [hd] at hx'
  exact Option.not_isSome_iff_eq_none.mp (Bool.eq_false_iff.mp hx')

theorem Claim.keeps {t : Claim} {q : ClaimPoint} (h : Kept cfg s)
    (hx : x = .go → (Task.claim t).raises.any s.barred = false)
    (hn : t.next cfg s x = some (s', q)) : Keeps cfg s s' := by
  have hhand : ∀ {m : Fleet} {c : Credentials} {d : Device}, Kept cfg m →
      Keeps cfg m (t.hand m c d) :=
    fun hm => hm.note (fun _ => ⟨rfl, rfl, rfl⟩) trivial
  cases x with
  | go =>
    cases hp : t.point with
    | start =>
      simp only [Claim.next, hp] at hn
      cases hn
      exact h.keeps
    | resolve c =>
      simp only [Claim.next, hp] at hn
      cases hn
      exact h.keeps
    | update c orgId =>
      simp only [Claim.next, hp, Option.some.injEq] at hn
      cases hd : s.devices.lookup c.deviceId with
      | none =>
        simp only [hd] at hn
        cases hn
        exact h.keeps
      | some d =>
        simp only [hd] at hn
        split at hn
        · cases hn
          exact h.keeps
        · cases hn
          refine h.claimed hd (revokedAt_of_raises (t := .claim t) ?_ (hx rfl) hd) _
          simp only [Task.raises, hp]
    | delSession c d =>
      simp only [Claim.next, hp] at hn
      cases hn
      exact h.del _
    | delCode c d =>
      simp only [Claim.next, hp] at hn
      cases hn
      split
      · exact hhand h
      · exact (h.del _).trans hhand
    | ended =>
      simp only [Claim.next, hp] at hn
      cases hn
  | rejected =>
    simp only [Claim.next] at hn
    split at hn
    · cases hn
      exact h.keeps
    · cases hn
  | lost =>
    simp only [Claim.next] at hn
    split at hn
    · cases hn
      exact h.keeps
    · cases hn
      exact h.keeps
    · cases hn
      exact hhand h
    · cases hn
  | fails =>
    obtain ⟨rfl, rfl⟩ := ended_of_fails hn
    exact h.keeps
  | created id => cases hn

theorem Kept.byKey (h : Kept cfg s) {k : String} (hk : currentKey id s.log = some k) :
    ∃ d, s.devices.lookup id = some d ∧ s.byKey (cfg.sha256 k) = some ⟨id, d⟩ := by
  obtain ⟨d, hd⟩ := Option.ne_none_iff_exists'.mp (h.present hk)
  have hhash := ((h.row hd).key hk).1
  have hmem : (⟨id, d⟩ : Σ _ : Id, Device) ∈ s.devices.entries := AList.mem_lookup_iff.mp hd
  cases hf : s.byKey (cfg.sha256 k) with
  | none =>
    have hno := List.find?_eq_none.mp hf _ hmem
    exact absurd (by simp [hhash]) hno
  | some e =>
    have he : s.devices.lookup e.1 = some e.2 := AList.mem_lookup_iff.mpr (List.mem_of_find?_eq_some hf)
    have hehash : e.2.apiKeyHash = some (cfg.sha256 k) := eq_of_beq
      (List.find?_some (p := fun e : Σ _ : Id, Device => e.2.apiKeyHash == some (cfg.sha256 k)) hf)
    obtain rfl := h.unique he hd hehash hhash
    rw [hd] at he
    cases he
    exact ⟨_, hd, rfl⟩

/-- **A key that is current is turned away for another fingerprint only.** -/
theorem Kept.matches_of_refusal (h : Kept cfg s) {t : Refresh}
    (hk : currentKey id s.log = some t.apiKey) (hd : s.devices.lookup id = some d)
    (ho : d.status ≠ "offline") {message : String} (hr : t.refusal cfg d = some message) :
    ¬ Matches t.deviceFingerprint (fingerprintOf id s.log) := by
  have hrow := h.row hd
  have hactive : isActive d.status = true := ((hrow.key hk).2).resolve_right ho
  intro hm
  have hmis : t.mismatch cfg d = false := by
    unfold Refresh.mismatch
    rw [hrow.fingerprint]
    cases hf : fingerprintOf id s.log with
    | none => rfl
    | some g =>
      cases hg : truthy t.deviceFingerprint with
      | none => rfl
      | some f =>
        obtain rfl := hm f hg g hf
        simp
  unfold Refresh.refusal at hr
  rw [if_neg (by rw [hactive]; decide), if_neg (by rw [hmis]; decide), if_neg hrow.assigned] at hr
  cases hr

theorem Refresh.keeps {t : Refresh} {q : RefreshPoint} (h : Kept cfg s)
    (hx : x = .go → (Task.refresh t).findsOffline cfg s = false)
    (hn : t.next cfg s x = some (s', q)) : Keeps cfg s s' := by
  cases x with
  | go =>
    cases hp : t.point with
    | start =>
      have ho : (s.byKey (cfg.sha256 t.apiKey)).any (·.2.status == "offline") = false := by
        have hoff := hx rfl
        simp only [Task.findsOffline, hp, beq_self_eq_true, Bool.true_and] at hoff
        exact hoff
      have hturn : ∀ message, (∀ e, s.byKey (cfg.sha256 t.apiKey) = some e →
          t.refusal cfg e.2 = some message) →
          Keeps cfg s (s.note (.turnedAway t.apiKey t.deviceFingerprint message)) := by
        intro message hm
        refine h.note (fun _ => ⟨rfl, rfl, rfl⟩) fun id hk => ?_
        obtain ⟨d, hd, hb⟩ := h.byKey hk
        rw [hb] at ho
        exact h.matches_of_refusal hk hd (beq_eq_false_iff_ne.mp ho) (hm _ hb)
      simp only [Refresh.next, hp, Option.some.injEq] at hn
      cases hb : s.byKey (cfg.sha256 t.apiKey) with
      | none =>
        simp only [hb] at hn
        cases hn
        exact hturn _ fun e he => by rw [hb] at he; cases he
      | some e =>
        simp only [hb] at hn
        cases hr : t.refusal cfg e.2 with
        | none =>
          simp only [hr] at hn
          cases hn
          exact h.keeps
        | some message =>
          simp only [hr] at hn
          cases hn
          exact hturn _ fun e' he => by
            rw [hb] at he
            cases he
            exact hr
    | touch id =>
      simp only [Refresh.next, hp] at hn
      cases hn
      split
      · exact h.note (fun _ => ⟨rfl, rfl, rfl⟩) trivial
      · rename_i hd
        refine h.note (fun _ => ⟨rfl, rfl, rfl⟩) ?_
        show currentKey id s.log = none
        by_contra hc
        obtain ⟨k, hk⟩ := Option.ne_none_iff_exists'.mp hc
        exact h.present hk (Option.not_isSome_iff_eq_none.mp hd)
    | ended =>
      simp only [Refresh.next, hp] at hn
      cases hn
  | fails =>
    obtain ⟨rfl, rfl⟩ := ended_of_fails hn
    exact h.keeps
  | created id => cases hn
  | lost => cases hn
  | rejected => cases hn

theorem Kept.now_le_of_cached (h : Kept cfg s) {c : Cached} (hc : s.cached id = some c) {t : ℕ}
    (ht : revokedAt id s.log = some t) : s.redis.now ≤ t + cacheLifetime := by
  unfold Fleet.cached Redis.get at hc
  cases hl : s.redis.live (.auth id) with
  | none =>
    rw [hl] at hc
    cases hc
  | some e =>
    obtain ⟨he, hlive⟩ := Redis.live_eq_some.mp hl
    obtain ⟨n, hn, -, hrev⟩ := h.cache he
    exact le_trans (Nat.le_of_lt (hlive n hn)) (hrev t ht)

/-- **The guard admits a request** that the log allows. -/
theorem Check.keeps_attach {t : Check} {orgId : Id} {b : Bool} (h : Kept cfg s)
    (hb : ∀ n, revokedAt id s.log = some n → b = false ∧ s.redis.now ≤ n + cacheLifetime) :
    Keeps cfg s (t.attach s id orgId b).1 ∧ ∀ n d, (t.attach s id orgId b).2 ≠ .store n d := by
  refine ⟨h.note (fun _ => ⟨rfl, rfl, rfl⟩) hb, fun n d => ?_⟩
  unfold Check.attach
  dsimp only
  split
  · exact nofun
  · exact nofun

/-- **One step of a request with a token.** -/
theorem Check.keeps {t : Check} {q : CheckPoint} (h : Kept cfg s)
    (ht : Task.Known s (.check t)) (hx : x = .go → (Task.check t).raises.any s.barred = false)
    (hn : t.next s x = some (s', q)) :
    Keeps cfg s s' ∧ ∀ id d, q = .store id d → revokedAt id s'.log = none := by
  have hidle : ∀ q', (∀ id d, q' ≠ .store id d) → (s, q') = (s', q) →
      Keeps cfg s s' ∧ ∀ id d, q = .store id d → revokedAt id s'.log = none := by
    intro q' hq he
    cases he
    exact ⟨h.keeps, fun id d hs => absurd hs (hq id d)⟩
  have hattach : ∀ {m : Fleet} {id orgId : Id} {b : Bool}, Keeps cfg s m →
      (∀ n, revokedAt id m.log = some n → b = false ∧ m.redis.now ≤ n + cacheLifetime) →
      t.attach m id orgId b = (s', q) →
      Keeps cfg s s' ∧ ∀ id d, q = .store id d → revokedAt id s'.log = none := by
    intro m id orgId b hm hb he
    have hadm : Keeps cfg m (t.attach m id orgId b).1 ∧
        ∀ n d, (t.attach m id orgId b).2 ≠ .store n d := t.keeps_attach hm.kept hb
    rw [he] at hadm
    obtain ⟨hk, hq⟩ := hadm
    exact ⟨hm.trans fun _ => hk, fun i d hs => absurd hs (hq i d)⟩
  cases x with
  | go =>
    cases hp : t.point with
    | start =>
      simp only [Check.next, hp, Option.some.injEq] at hn
      split at hn
      · exact hidle _ (by simp) hn
      · rename_i token _
        split at hn
        · exact hidle _ (by simp) hn
        · cases hc : s.cached token.did with
          | none =>
            simp only [hc] at hn
            exact hidle _ (by simp) hn
          | some c =>
            simp only [hc] at hn
            split at hn
            · exact hattach h.keeps (fun n hr => ⟨rfl, h.now_le_of_cached hc hr⟩) hn
            · exact hidle _ (by simp) hn
    | read token =>
      simp only [Check.next, hp] at hn
      cases hn
      refine ⟨h.keeps, fun id d hs => ?_⟩
      cases hd : s.devices.lookup token.did with
      | none =>
        simp only [hd] at hs
        cases hs
      | some e =>
        simp only [hd] at hs
        split at hs
        · rename_i hactive
          cases hs
          cases hr : revokedAt token.did s.log with
          | none => rfl
          | some n => exact absurd hactive.1 (by rw [(h.row hd).barred hr]; decide)
        · cases hs
    | store id d =>
      simp only [Check.next, hp, Option.some.injEq] at hn
      have hr : revokedAt id s.log = none := ht id (by simp [Task.stores, hp])
      have hk := h.store ⟨d.orgId, d.branchId, d.status⟩ hr
      exact hattach hk (fun n hs => by rw [hk.spares hr] at hs; cases hs) hn
    | beat id orgId =>
      simp only [Check.next, hp] at hn
      cases hn
      refine ⟨?_, nofun⟩
      cases hd : s.devices.lookup id with
      | none => exact h.keeps
      | some d =>
        simp only
        split
        · exact h.setStatus hd (Or.inl (revokedAt_of_raises (t := .check t)
            (by simp only [Task.raises, hp]) (hx rfl) hd)) (Or.inl (by decide))
        · exact h.keeps
    | ended =>
      simp only [Check.next, hp] at hn
      cases hn
  | lost =>
    cases hp : t.point with
    | start =>
      simp only [Check.next, hp] at hn
      split at hn
      · cases hn
      · split at hn
        · cases hn
        · exact hidle _ (by simp) (Option.some.inj hn)
    | store id d =>
      simp only [Check.next, hp, Option.some.injEq] at hn
      have hr : revokedAt id s.log = none := ht id (by simp [Task.stores, hp])
      exact hattach h.keeps (fun n hs => by rw [hr] at hs; cases hs) hn
    | read token =>
      simp only [Check.next, hp] at hn
      cases hn
    | beat id orgId =>
      simp only [Check.next, hp] at hn
      cases hn
    | ended =>
      simp only [Check.next, hp] at hn
      cases hn
  | fails =>
    simp only [Check.next] at hn
    split at hn
    · cases hn
    · exact hidle _ (by simp) (Option.some.inj hn)
  | created id => cases hn
  | rejected => cases hn

theorem Webhook.keeps {t : Webhook} {q : WebhookPoint} (h : Kept cfg s)
    (hx : x = .go → (Task.webhook t).raises.any s.barred = false)
    (hn : t.next s x = some (s', q)) : Keeps cfg s s' := by
  cases x with
  | go =>
    cases hp : t.point with
    | find =>
      simp only [Webhook.next, hp] at hn
      cases hn
      exact h.keeps
    | update =>
      simp only [Webhook.next, hp] at hn
      cases hn
      cases hd : s.devices.lookup t.userId with
      | none => exact h.keeps
      | some d =>
        cases he : t.event with
        | connect =>
          exact h.setStatus hd (Or.inl (revokedAt_of_raises (t := .webhook t)
            (if_pos ⟨he, hp⟩) (hx rfl) hd)) (Or.inl (by decide))
        | disconnect => exact h.setStatus hd (Or.inr (by decide)) (Or.inr rfl)
    | ended =>
      simp only [Webhook.next, hp] at hn
      cases hn
  | rejected =>
    simp only [Webhook.next] at hn
    split at hn
    · cases hn
      exact h.keeps
    · cases hn
  | fails =>
    obtain ⟨rfl, rfl⟩ := ended_of_fails hn
    exact h.keeps
  | created id => cases hn
  | lost => cases hn

/-- **One step of a removal**: no other device is revoked. -/
theorem Removal.keeps {t : Removal} {q : RemovalPoint} (h : Kept cfg s)
    (hn : t.next s x = some (s', q)) : Kept cfg s' ∧ ∀ id,
      revokedAt id s.log = none → revokedAt id s'.log = none ∨
        x = .go ∧ (Task.removal t).revokes = some id := by
  have hidle : ∀ {m : Fleet}, Keeps cfg s m → Kept cfg m ∧ ∀ id,
      revokedAt id s.log = none → revokedAt id m.log = none ∨
        x = .go ∧ (Task.removal t).revokes = some id :=
    fun hm => ⟨hm.kept, fun _ hr => Or.inl (hm.spares hr)⟩
  cases x with
  | go =>
    cases hp : t.point with
    | find =>
      simp only [Removal.next, hp] at hn
      cases hn
      exact hidle h.keeps
    | del =>
      simp only [Removal.next, hp] at hn
      cases hn
      exact hidle (h.del _)
    | write =>
      simp only [Removal.next, hp] at hn
      cases hn
      cases hd : s.devices.lookup t.deviceId with
      | none => exact hidle h.keeps
      | some d =>
        dsimp only
        split
        · exact hidle h.keeps
        · split
          · exact hidle (h.deleted _)
          · rename_i hdel
            obtain ⟨hk, hne⟩ := h.revoked hd
            refine ⟨hk, fun id hr => ?_⟩
            by_cases hid : id = t.deviceId
            · subst hid
              exact Or.inr ⟨rfl, if_pos ⟨Bool.eq_false_iff.mpr hdel, hp⟩⟩
            · exact Or.inl ((hne id hid).trans hr)
    | ended =>
      simp only [Removal.next, hp] at hn
      cases hn
  | lost =>
    simp only [Removal.next] at hn
    split at hn
    · cases hn
      exact hidle h.keeps
    · cases hn
  | fails =>
    obtain ⟨rfl, rfl⟩ := ended_of_fails hn
    exact hidle h.keeps
  | created id => cases hn
  | rejected => cases hn

/-- What is known of the other tasks, after a step that revokes no device they are about to cache. -/
theorem keptBy_of_spares {t' : Task} {R : Task → Prop} (hk : Kept cfg s') (ht : t'.Known s')
    (hu : ∀ u, R u → ∀ id ∈ u.stores, revokedAt id s.log = none → revokedAt id s'.log = none) :
    System.KeptBy (Kept cfg) (fun s t => Task.Known s t) (fun _ _ => True) R s t s' t' :=
  ⟨hk, ht, fun hR hJ _ _ => ⟨fun id hid => hu _ hR id hid (hJ id hid), trivial, trivial⟩⟩

/-- **One step.** -/
theorem keptBy_next {t' : Task} (hs : Kept cfg s) (ht : t.Known s)
    (hx : (undisturbed cfg).task s t x) (hn : next cfg s t x = some (s', t')) :
    System.KeptBy (Kept cfg) (fun s t => Task.Known s t) (fun _ _ => True)
      ((undisturbed cfg).others s t x) s t s' t' := by
  have hkeeps : Keeps cfg s s' → t'.Known s' →
      System.KeptBy (Kept cfg) (fun s t => Task.Known s t) (fun _ _ => True)
        ((undisturbed cfg).others s t x) s t s' t' :=
    fun hk ht' => keptBy_of_spares hk.kept ht' fun _ _ _ _ hr => hk.spares hr
  cases t with
  | request t =>
    obtain ⟨⟨m, q⟩, hn', he⟩ := Option.map_eq_some_iff.mp hn
    cases he
    exact hkeeps (Request.keeps hs hn') nofun
  | link t =>
    obtain ⟨⟨m, q⟩, hn', he⟩ := Option.map_eq_some_iff.mp hn
    cases he
    exact hkeeps (Link.keeps hs hn') nofun
  | claim t =>
    obtain ⟨⟨m, q⟩, hn', he⟩ := Option.map_eq_some_iff.mp hn
    cases he
    exact hkeeps (Claim.keeps hs (fun hg => (hx hg).1) hn') nofun
  | refresh t =>
    obtain ⟨⟨m, q⟩, hn', he⟩ := Option.map_eq_some_iff.mp hn
    cases he
    exact hkeeps (Refresh.keeps hs (fun hg => (hx hg).2) hn') nofun
  | check t =>
    obtain ⟨⟨m, q⟩, hn', he⟩ := Option.map_eq_some_iff.mp hn
    cases he
    obtain ⟨hk, hq⟩ := Check.keeps hs ht (fun hg => (hx hg).1) hn'
    refine hkeeps hk fun id hid => ?_
    cases q with
    | store i d =>
      cases hid
      exact hq _ d rfl
    | start | read | beat | ended => cases hid
  | webhook t =>
    obtain ⟨⟨m, q⟩, hn', he⟩ := Option.map_eq_some_iff.mp hn
    cases he
    exact hkeeps (Webhook.keeps hs (fun hg => (hx hg).1) hn') nofun
  | removal t =>
    obtain ⟨⟨m, q⟩, hn', he⟩ := Option.map_eq_some_iff.mp hn
    cases he
    obtain ⟨hk, hr⟩ := Removal.keeps hs hn'
    refine keptBy_of_spares hk nofun fun u hR id hid hnone => ?_
    rcases hr id hnone with hr | ⟨hg, hrev⟩
    · exact hr
    · exact absurd hid (hR hg id hrev)

/-- Time passes. -/
theorem kept_later {n : ℕ} (hs : Kept cfg s) (hw : (displays cfg).world s n = some s') :
    Kept cfg s' ∧ ∀ u : Task, u.Known s → u.Known s' := by
  cases hw
  exact ⟨(hs.congr (r := s.redis.later n) (Nat.le_add_right _ _) fun _ _ h => h).kept,
    fun _ hu => hu⟩

/-- **A refresh with a current key is served**: the row is found, and a token issued. -/
theorem Kept.serves (h : Kept cfg s) {t : Refresh} (hk : currentKey id s.log = some t.apiKey)
    (hm : Matches t.deviceFingerprint (fingerprintOf id s.log)) (hd : s.devices.lookup id = some d)
    (ho : d.status ≠ "offline") :
    Refresh.next cfg s { t with point := .start } .go = some (s, .touch id) ∧
      Refresh.next cfg s { t with point := .touch id } .go =
        some (s.note (.refreshed id t.apiKey), .ended) := by
  obtain ⟨e, he, hb⟩ := h.byKey hk
  rw [hd] at he
  cases he
  constructor
  · simp only [Refresh.next, hb]
    cases hr : Refresh.refusal cfg { t with point := .start } d with
    | none => rfl
    | some message => exact absurd hm (h.matches_of_refusal hk hd ho hr)
  · simp only [Refresh.next, hd]
    rfl

end

/-! ## Runs -/

section

variable {cfg : Deployment} {p p' : Pool Fleet Task}

theorem Fresh.kept (h : Fresh p) : System.Invariant (Kept cfg) (fun s t => Task.Known s t)
    (fun _ _ => True) p where
  shared := by
    refine ⟨?_, fun hd => ?_, fun hk => ?_, fun hd => ?_, fun he => ?_⟩
    · rw [h.log]
      trivial
    · rw [h.devices] at hd
      cases hd
    · rw [h.log] at hk
      cases hk
    · rw [h.devices] at hd
      cases hd
    · rw [h.entries] at he
      cases he
  task {i t} hi := by
    have ht := h.begins (List.mem_of_getElem? hi)
    cases t with
    | check t =>
      have hp : t.point = .start := eq_of_beq ht
      intro id hid
      simp only [Task.stores, hp] at hid
      cases hid
    | request | link | claim | refresh | webhook | removal => exact nofun
  pair _ _ _ := trivial

theorem Fresh.kept_of_reaches (h0 : Fresh p)
    (h : System.Reaches (displays cfg) (undisturbed cfg).Meets p p') : Kept cfg p'.shared :=
  (h.invariant h0.kept (fun _ _ _ _ _ hs ht hx hn => keptBy_next hs ht hx hn)
    fun _ _ _ hs _ hw => kept_later hs hw).shared

/-- **A device that is revoked is admitted from the cache alone, for a minute; a device with a key is never
turned away with it.** -/
theorem admitted_lawfully (h0 : Fresh p)
    (h : System.Reaches (displays cfg) (undisturbed cfg).Meets p p') : Lawful p'.shared.log :=
  (h0.kept_of_reaches h).lawful

end

/-! ## One television -/

/-- One branch; digests are the texts themselves. -/
def oneBranch : Deployment where
  sha256 := id
  branchOrg id := if id = 10 then some 1 else none
  maxDevices _ := some 1

def screenToken : DisplayTokenPayload := { did := 5, oid := 1, bid := 10 }

def television : Pool Fleet Task where
  shared := { redis := ⟨0, fun _ => none⟩, devices := ∅, log := [] }
  tasks :=
    [.request { bytes := [0, 1, 2, 3, 4, 5], sessionId := 1 },
      .link { orgId := 1, code := " abcdef", branchId := 10, hex := "k" },
      .claim { sessionId := 1, deviceFingerprint := some "tv" },
      .check { token := some screenToken, heartbeat := true },
      .refresh { apiKey := "dsp_k", deviceFingerprint := some "tv" },
      .removal { orgId := 1, deviceId := 5 },
      .check { token := some screenToken },
      .check { token := some screenToken },
      .webhook { event := .connect, userId := 5 },
      .webhook { event := .disconnect, userId := 5 }]

theorem fresh_television : Fresh television where
  devices := rfl
  entries _ := rfl
  log := rfl
  begins {t} ht := (show ∀ t ∈ television.tasks, t.begins = true by decide) t ht

/-- A task goes on for `n` steps. -/
def goes (i n : ℕ) : List (Label Move ℕ) := List.replicate n (.task i .go)

/-- The television is paired: requested, linked as a new device, and claimed. -/
def pairs : List (Label Move ℕ) :=
  goes 0 2 ++ goes 1 3 ++ [.task 1 (.created 5)] ++ goes 1 2 ++ goes 2 4

/-- The television is paired, sends a heartbeat and gets a token. When it is revoked, and the cache does not
hear of it, it is admitted once more, and not a minute later. -/
theorem admitted_lawfully_television : ∃ p' : Pool Fleet Task, Lawful p'.shared.log ∧
    p'.shared.log.take 4 = [.admitted 5 false 1000, .revoked 5 1000, .refreshed 5 "dsp_k",
      .admitted 5 true 0] := by
  obtain ⟨p', hreach, hp⟩ := System.exists_meets (S := displays oneBranch) (undisturbed oneBranch)
    television (pairs ++ goes 3 4 ++ goes 4 2 ++ [.world 1000] ++ goes 5 1 ++ [.task 5 .lost] ++
      goes 5 1 ++ goes 6 1 ++ [.world 60000] ++ goes 7 2)
    (fun p => decide (p.shared.log.take 4 = [.admitted 5 false 1000, .revoked 5 1000,
      .refreshed 5 "dsp_k", .admitted 5 true 0]))
    (by decide +kernel)
  exact ⟨p', admitted_lawfully fresh_television hreach, of_decide_eq_true hp⟩

/-- **A current key is served.** After such a run no two devices share the key of one's last linking,
and a refresh with it is given a token, unless the fingerprint differs or the device is offline. -/
theorem current_key_served {cfg : Deployment} {p p' : Pool Fleet Task} (h0 : Fresh p)
    (h : System.Reaches (displays cfg) (undisturbed cfg).Meets p p') {id : Id} {t : Refresh}
    (hk : currentKey id p'.shared.log = some t.apiKey) :
    ∃ d, p'.shared.byKey (cfg.sha256 t.apiKey) = some ⟨id, d⟩ ∧ d.branchId ≠ none ∧
      (∀ j e, p'.shared.devices.lookup j = some e →
        e.apiKeyHash = some (cfg.sha256 t.apiKey) → j = id) ∧
      (Matches t.deviceFingerprint (fingerprintOf id p'.shared.log) → d.status ≠ "offline" →
        Refresh.next cfg p'.shared { t with point := .start } .go =
          some (p'.shared, .touch id) ∧
        Refresh.next cfg p'.shared { t with point := .touch id } .go =
          some (p'.shared.note (.refreshed id t.apiKey), .ended)) := by
  have hs := h0.kept_of_reaches h
  obtain ⟨d, hd, hb⟩ := hs.byKey hk
  exact ⟨d, hb, (hs.row hd).assigned, fun j e he hj => hs.unique he hd hj ((hs.row hd).key hk).1,
    fun hm ho => hs.serves hk hm hd ho⟩

theorem current_key_served_television : ∃ (p' : Pool Fleet Task) (d : Device),
    p'.shared.byKey "dsp_k" = some ⟨5, d⟩ ∧ d.branchId ≠ none := by
  obtain ⟨p', hreach, hp⟩ := System.exists_meets (S := displays oneBranch) (undisturbed oneBranch)
    television pairs (fun p => decide (currentKey 5 p.shared.log = some "dsp_k")) (by decide +kernel)
  obtain ⟨d, hd, hb, -⟩ := current_key_served (t := { apiKey := "dsp_k" }) fresh_television hreach
    (of_decide_eq_true hp)
  exact ⟨p', d, hd, hb⟩

/-- **Not every run is lawful**: the connection of a device that has been revoked brings it back. -/
theorem exists_admitted_after_revoke : ¬ ∀ (cfg : Deployment) (p p' : Pool Fleet Task), Fresh p →
    System.Reaches (displays cfg) (fun _ _ => True) p p' → Lawful p'.shared.log := by
  intro h
  obtain ⟨p', hreach, hp⟩ := System.exists_reaches (S := displays oneBranch) (P := fun _ _ => True)
    (fun _ _ => true) (fun _ _ _ => trivial) television
    (pairs ++ goes 5 3 ++ goes 8 2 ++ [.world 60000] ++ goes 7 3)
    (fun p => decide (p.shared.log.take 2 = [.admitted 5 true 60000, .revoked 5 0]))
    (by decide +kernel)
  have hl := h _ _ _ fresh_television hreach
  rw [← List.take_append_drop 2 p'.shared.log, of_decide_eq_true hp] at hl
  exact absurd (hl.1 0 (latest_of_some rfl)).1 (by decide)

end PatronLoyalty.Display
