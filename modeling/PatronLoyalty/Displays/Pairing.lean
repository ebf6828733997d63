import PatronLoyalty.Async.Table
import PatronLoyalty.Displays.Devices

/-!
# One code, one device, one hand-over

What pairing promises over the runs of all requests of displays.

* a code that a link reads belongs to one session that waits: the one it was drawn for;
* a session is linked by one link that succeeds, and its credentials are handed over once, to it;
* they name a device of the organisation and the branch of that link;
* an organisation has no more devices than its plan allows.

Headline: **`handed_over_once`**. The condition: no code is drawn with which another session waits, a link
reads no session that another link has read, a claim none that another claim has read, neither loses the
command of Redis that says so, and a device is created where the plan allows another.
-/

namespace PatronLoyalty.Display.Pairing

open Async
open Loyalty (Id truthy)

/-! ## What the log says of a session -/

/-- A link of the session has succeeded. -/
def pairs (sid : Id) : Event → Bool
  | .paired i _ _ _ _ => i == sid
  | _ => false

/-- The credentials of the session have been handed over. -/
def hands (sid : Id) : Event → Bool
  | .handedOver i _ _ _ _ => i == sid
  | _ => false

/-- No link of the session has succeeded. -/
def Unpaired (log : List Event) (sid : Id) : Prop := log.any (pairs sid) = false

/-- The credentials of the session have not been handed over. -/
def Unhanded (log : List Event) (sid : Id) : Prop := log.any (hands sid) = false

def valid (cfg : Deployment) (time now : ℕ) : Bool :=
  cfg.pairingExpirySeconds == 0 || now < time + 1000 * cfg.pairingExpirySeconds

structure Waits (cfg : Deployment) (log : List Event) (now : ℕ) (code : String) (sid : Id) : Prop where
  requested : ∃ time, .requested sid code time ∈ log ∧ valid cfg time now = true
  unpaired : Unpaired log sid

def awaits (cfg : Deployment) (s : Fleet) (code : String) : Event → Bool
  | .requested sid c time => c == code && valid cfg time s.redis.now && !s.log.any (pairs sid)
  | _ => false

/-! ## What is to hold -/

/-- **What an event is to respect.** -/
def Sound (cfg : Deployment) (log : List Event) : Event → Prop
  | .found code sid now => ∀ i, Waits cfg log now code i ↔ i = sid
  | .paired sid _ _ _ _ => Unpaired log sid ∧ ∃ code time, .found code sid time ∈ log
  | .handedOver sid id d apiKey token => Unhanded log sid ∧ ∃ orgId branchId,
      .paired sid orgId branchId id apiKey ∈ log ∧
      token = { did := id, oid := orgId, bid := branchId } ∧
      d.orgId = orgId ∧ d.branchId = some branchId
  | _ => True

def AllSound (cfg : Deployment) : List Event → Prop
  | [] => True
  | e :: log => Sound cfg log e ∧ AllSound cfg log

/-- Every organisation has as many devices as its plan allows, at most. -/
def Within (cfg : Deployment) (s : Fleet) : Prop :=
  ∀ orgId limit, cfg.maxDevices orgId = some limit → s.count orgId ≤ limit

/-! ## Who holds what -/

def LinkPoint.session? : LinkPoint → Option Id
  | .branch sid | .find sid _ | .del sid _ | .update sid _ | .count sid | .create sid | .setCode sid _
  | .setSession sid _ => some sid
  | .start | .ended => none

def LinkPoint.device? : LinkPoint → Option Id
  | .del _ id | .update _ id | .setCode _ id | .setSession _ id => some id
  | _ => none

def LinkPoint.overwritten? : LinkPoint → Option Id
  | .setSession sid _ => some sid
  | _ => none

def ClaimPoint.credentials? : ClaimPoint → Option Credentials
  | .resolve c | .update c _ | .delSession c _ | .delCode c _ => some c
  | .start | .ended => none

def ClaimPoint.device? : ClaimPoint → Option Device
  | .delSession _ d | .delCode _ d => some d
  | _ => none

def linking : Task → Option Id
  | .link t => LinkPoint.session? t.point
  | _ => none

def claiming : Task → Option Id
  | .claim t => (ClaimPoint.credentials? t.point).map fun _ => t.sessionId
  | _ => none

/-! ## The condition -/

def findsSession (s : Fleet) : Task → Option Id
  | .link t =>
    if t.point = .start then
      (s.pairing t.normalizedCode).bind fun p => if p.status = .pending then some p.sessionId else none
    else none
  | _ => none

/-- The session whose credentials a claim is about to read. -/
def findsCredentials (s : Fleet) : Task → Option Id
  | .claim t =>
    if t.point = .start then ((s.session t.sessionId).bind (·.credentials?)).map fun _ => t.sessionId
    else none
  | _ => none

/-- **The condition on a step**: no code is drawn with which a session waits, a device is created where the
plan allows another, and no command of Redis is lost that ends a code or a session. -/
def orderly (cfg : Deployment) (s : Fleet) (t : Task) (x : Move) : Bool :=
  match t with
  | .request t => t.point != .setCode || x == .fails || !s.log.any (awaits cfg s t.code)
  | .link t =>
    match t.point, x with
    | .setCode _ _, .lost => false
    | .create _, .created _ => cfg.allows t.orgId (s.count t.orgId)
    | _, _ => true
  | .claim t =>
    match t.point, x with
    | .delSession _ _, .lost => false
    | _, _ => true
  | _ => true

/-- **The condition on the steps of a run**: and nobody reads what another is about to end. -/
abbrev inOrder (cfg : Deployment) : System.Condition Fleet Task Move ℕ where
  task s t x := orderly cfg s t x = true
  others s t x u := x = .go → (∀ sid ∈ findsSession s t, linking u ≠ some sid) ∧
    ∀ sid ∈ findsCredentials s t, claiming u ≠ some sid

/-! ## What is known -/

/-- The code is there for a session that is not linked. -/
def Pending (s : Fleet) (code : String) (sid : Id) (e : Entry Value) : Prop :=
  s.redis.entries (.code code) = some e ∧ ∃ p, e.value = .code p ∧ p.status = .pending ∧
    p.sessionId = sid

def Ready (s : Fleet) (sid : Id) (c : Credentials) : Prop :=
  ∃ e p, s.redis.entries (.session sid) = some e ∧ e.value = .session p ∧ p.credentials? = some c

/-- The device is known, and if it is there it is of this organisation and branch. -/
structure Placed (s : Fleet) (id orgId branchId : Id) : Prop where
  known : ∃ e ∈ s.log, e.device? = some id
  row {d : Device} : s.devices.lookup id = some d → d.orgId = orgId ∧ d.branchId = some branchId

/-- The credentials are those of a link of the session that has succeeded. -/
def Backed (log : List Event) (sid : Id) (c : Credentials) : Prop :=
  ∃ orgId branchId, .paired sid orgId branchId c.deviceId c.apiKey ∈ log ∧
    c.sessionToken = { did := c.deviceId, oid := orgId, bid := branchId }

/-- What is known of codes, sessions, devices and log. -/
structure Kept (cfg : Deployment) (s : Fleet) : Prop where
  sound : AllSound cfg s.log
  within : Within cfg s
  drawn {sid : Id} {c c' : String} {n n' : ℕ} : .requested sid c n ∈ s.log →
    .requested sid c' n' ∈ s.log → c = c' ∧ n = n'
  single {code : String} {i j : Id} : Waits cfg s.log s.redis.now code i →
    Waits cfg s.log s.redis.now code j → i = j
  pending {code : String} {sid : Id} {e : Entry Value} : Pending s code sid e → Unpaired s.log sid ∧
    ∃ time, .requested sid code time ∈ s.log ∧ (cfg.pairingExpirySeconds ≠ 0 →
      e.expiresAt = some (time + 1000 * cfg.pairingExpirySeconds))
  ready {sid : Id} {c : Credentials} : Ready s sid c → Backed s.log sid c ∧ Unhanded s.log sid
  known {id : Id} {d : Device} : s.devices.lookup id = some d →
    d.branchId ≠ none ∧ ∃ e ∈ s.log, e.device? = some id
  placed {sid orgId branchId id : Id} {apiKey : String} :
    .paired sid orgId branchId id apiKey ∈ s.log → Placed s id orgId branchId

structure LinkKnown (s : Fleet) (t : Link) : Prop where
  session {sid : Id} : LinkPoint.session? t.point = some sid → Unpaired s.log sid ∧
    (∃ time, .found t.normalizedCode sid time ∈ s.log) ∧
    ∃ time, .requested sid t.normalizedCode time ∈ s.log
  device {id : Id} : LinkPoint.device? t.point = some id → Placed s id t.orgId t.branchId
  overwritten {sid : Id} : LinkPoint.overwritten? t.point = some sid → ∀ code e, ¬ Pending s code sid e

structure ClaimKnown (s : Fleet) (t : Claim) : Prop where
  credentials {c : Credentials} : ClaimPoint.credentials? t.point = some c →
    Backed s.log t.sessionId c ∧ Unhanded s.log t.sessionId
  device {d : Device} : ClaimPoint.device? t.point = some d → ∀ c,
    ClaimPoint.credentials? t.point = some c →
      d.orgId = c.sessionToken.oid ∧ d.branchId = some c.sessionToken.bid
  deleted {c : Credentials} {d : Device} : t.point = .delCode c d → ∀ c', ¬ Ready s t.sessionId c'

def Known (s : Fleet) : Task → Prop
  | .link t => LinkKnown s t
  | .claim t => ClaimKnown s t
  | _ => True

/-- No two links hold a session, and no two claims. -/
def Apart (t u : Task) : Prop :=
  (∀ sid ∈ linking t, linking u ≠ some sid) ∧ ∀ sid ∈ claiming t, claiming u ≠ some sid

theorem Apart.symm {t u : Task} (h : Apart t u) : Apart u t :=
  ⟨fun sid hu ht => h.1 sid ht hu, fun sid hu ht => h.2 sid ht hu⟩

/-! ## What a step does -/

section

variable {cfg : Deployment} {s s' m : Fleet} {e : Event} {log : List Event} {sid id : Id}
  {c : Credentials} {code : String} {n : ℕ} {k : Key} {x : Entry Value}

theorem unpaired_cons : Unpaired (e :: log) sid ↔ pairs sid e = false ∧ Unpaired log sid := by
  unfold Unpaired
  rw [List.any_cons, Bool.or_eq_false_iff]

theorem unhanded_cons : Unhanded (e :: log) sid ↔ hands sid e = false ∧ Unhanded log sid := by
  unfold Unhanded
  rw [List.any_cons, Bool.or_eq_false_iff]

theorem Backed.paired (h : Backed log sid c) : ¬ Unpaired log sid := by
  obtain ⟨orgId, branchId, hmem, -⟩ := h
  intro hu
  have hno := List.any_eq_false.mp hu _ hmem
  exact hno (beq_self_eq_true sid)

/-- Nothing has been said of a session that is new. -/
theorem unpaired_of_unused (h : s.unusedSession sid = true) : Unpaired s.log sid := by
  refine List.any_eq_false.mpr fun e he hp => ?_
  have hne : e.session? ≠ some sid := bne_iff_ne.mp (List.all_eq_true.mp h e he)
  cases e with
  | paired i _ _ _ _ => exact hne (congrArg some (eq_of_beq hp))
  | requested | found | linked | claimed | handedOver | revoked | deleted | admitted | refreshed
  | turnedAway | gone => cases hp

theorem not_requested_of_unused (h : s.unusedSession sid = true) :
    Event.requested sid code n ∉ s.log :=
  fun he => bne_iff_ne.mp (List.all_eq_true.mp h _ he) rfl

/-- **What a step may do**: link `pair`, hand over `hand`, and draw a code for `draw`. -/
structure Effect (pair hand draw : Option Id) (s s' : Fleet) : Prop where
  log {e : Event} : e ∈ s.log → e ∈ s'.log
  unpaired {sid : Id} : Unpaired s.log sid → pair ≠ some sid → Unpaired s'.log sid
  unhanded {sid : Id} : Unhanded s.log sid → hand ≠ some sid → Unhanded s'.log sid
  placed {id orgId branchId : Id} : Placed s id orgId branchId → Placed s' id orgId branchId
  pending {code : String} {sid : Id} {e : Entry Value} : Pending s' code sid e →
    Pending s code sid e ∨ draw = some sid
  ready {sid : Id} {c : Credentials} : Ready s' sid c → Ready s sid c ∨ pair = some sid

variable {pair hand draw : Option Id}

theorem Effect.refl : Effect pair hand draw s s :=
  ⟨fun h => h, fun h _ => h, fun h _ => h, fun h => h, Or.inl, Or.inl⟩

theorem Effect.trans (h : Effect pair hand draw s m) (h' : Effect pair hand draw m s') :
    Effect pair hand draw s s' where
  log he := h'.log (h.log he)
  unpaired hu hp := h'.unpaired (h.unpaired hu hp) hp
  unhanded hu hp := h'.unhanded (h.unhanded hu hp) hp
  placed hp := h'.placed (h.placed hp)
  pending hp := (h'.pending hp).elim h.pending Or.inr
  ready hr := (h'.ready hr).elim h.ready Or.inr

theorem Placed.note {orgId branchId : Id} (h : Placed s id orgId branchId) :
    Placed (s.note e) id orgId branchId := by
  obtain ⟨x, hx, hid⟩ := h.known
  exact ⟨⟨x, List.mem_cons_of_mem _ hx, hid⟩, h.row⟩

/-- An event. -/
theorem Effect.note (hp : ∀ sid, pairs sid e = true → pair = some sid)
    (hh : ∀ sid, hands sid e = true → hand = some sid) : Effect pair hand draw s (s.note e) where
  log := List.mem_cons_of_mem _
  unpaired hu hne := unpaired_cons.mpr ⟨Bool.eq_false_iff.mpr fun ht => hne (hp _ ht), hu⟩
  unhanded hu hne := unhanded_cons.mpr ⟨Bool.eq_false_iff.mpr fun ht => hne (hh _ ht), hu⟩
  placed := Placed.note
  pending := Or.inl
  ready := Or.inl

theorem Effect.redis {r : Redis Key Value}
    (hp : ∀ code sid e, Pending { s with redis := r } code sid e → Pending s code sid e ∨ draw = some sid)
    (hr : ∀ sid c, Ready { s with redis := r } sid c → Ready s sid c ∨ pair = some sid) :
    Effect pair hand draw s { s with redis := r } :=
  ⟨fun h => h, fun h _ => h, fun h _ => h, fun h => ⟨h.known, h.row⟩, hp _ _ _, hr _ _⟩

/-- What is stored for a code. -/
theorem pending_setJson {v : Value}
    (h : Pending (s.setJson k v n) code sid x) : Pending s code sid x ∨ k = .code code ∧
      x = ⟨v, if n = 0 then none else some (s.redis.now + 1000 * n)⟩ := by
  rw [Fleet.setJson_eq] at h
  by_cases hk : Key.code code = k
  · subst hk
    have hx := h.1
    rw [show _ = _ from Redis.entries_put_self] at hx
    exact Or.inr ⟨rfl, (Option.some.inj hx).symm⟩
  · exact Or.inl ⟨(Redis.entries_put_ne hk).symm.trans h.1, h.2⟩

/-- What is stored for a session. -/
theorem ready_setJson {v : Value} (h : Ready (s.setJson k v n) sid c) :
    Ready s sid c ∨ k = .session sid ∧ ∃ p, v = .session p ∧ p.credentials? = some c := by
  rw [Fleet.setJson_eq] at h
  obtain ⟨x, p, hx, hv, hc⟩ := h
  by_cases hk : Key.session sid = k
  · subst hk
    rw [show _ = _ from Redis.entries_put_self] at hx
    cases hx
    exact Or.inr ⟨rfl, p, hv, hc⟩
  · exact Or.inl ⟨x, p, (Redis.entries_put_ne hk).symm.trans hx, hv, hc⟩

theorem entries_of_del {k' : Key} (h : (s.redis.del k).entries k' = some x) :
    k' ≠ k ∧ s.redis.entries k' = some x := by
  by_cases hk : k' = k
  · subst hk
    rw [Redis.entries_del_self] at h
    cases h
  · rw [Redis.entries_del_ne hk] at h
    exact ⟨hk, h⟩

theorem pending_del (h : Pending (s.del k) code sid x) :
    Pending s code sid x :=
  ⟨(entries_of_del h.1).2, h.2⟩

theorem ready_del (h : Ready (s.del k) sid c) : k ≠ .session sid ∧ Ready s sid c := by
  obtain ⟨x, p, hx, hrest⟩ := h
  obtain ⟨hne, hx⟩ := entries_of_del hx
  exact ⟨Ne.symm hne, x, p, hx, hrest⟩

theorem Effect.write {d d' : Device} (hd : s.devices.lookup id = some d)
    (ho : d'.orgId = d.orgId) (hb : d'.branchId = d.branchId) :
    Effect pair hand draw s (s.write id d') := by
  refine ⟨fun h => h, fun h _ => h, fun h _ => h, fun {i _ _} h => ⟨h.known, fun {e} he => ?_⟩,
    Or.inl, Or.inl⟩
  have he' : (s.devices.insert id d').lookup i = some e := he
  by_cases hi : i = id
  · subst hi
    rw [AList.lookup_insert] at he'
    cases he'
    rw [ho, hb]
    exact h.row hd
  · rw [AList.lookup_insert_ne hi] at he'
    exact h.row he'

/-- A row is made, for a new id. -/
theorem Effect.create {d : Device} (hu : s.unusedDevice id = true) :
    Effect pair hand draw s (s.write id d) := by
  refine ⟨fun h => h, fun h _ => h, fun h _ => h, fun {i _ _} h => ⟨h.known, fun {e} he => ?_⟩,
    Or.inl, Or.inl⟩
  have he' : (s.devices.insert id d).lookup i = some e := he
  have hi : i ≠ id := by
    rintro rfl
    obtain ⟨y, hy, hid⟩ := h.known
    exact bne_iff_ne.mp (List.all_eq_true.mp (Bool.and_eq_true_iff.mp hu).2 y hy) hid
  rw [AList.lookup_insert_ne hi] at he'
  exact h.row he'

/-- A row is deleted. -/
theorem Effect.erase : Effect pair hand draw s { s with devices := s.devices.erase id } := by
  refine ⟨fun h => h, fun h _ => h, fun h _ => h, fun {i _ _} h => ⟨h.known, fun {e} he => ?_⟩,
    Or.inl, Or.inl⟩
  have he' : (s.devices.erase id).lookup i = some e := he
  by_cases hi : i = id
  · subst hi
    rw [AList.lookup_erase] at he'
    cases he'
  · rw [AList.lookup_erase_ne hi] at he'
    exact h.row he'

end

/-! ## What is kept -/

section

variable {cfg : Deployment} {s s' m : Fleet} {e : Event} {log : List Event} {sid id : Id}
  {c : Credentials} {code : String} {d d' : Device} {n : ℕ}

theorem valid_of_le {time n' : ℕ} (h : valid cfg time n' = true) (hle : n ≤ n') :
    valid cfg time n = true := by
  unfold valid at *
  rcases Bool.or_eq_true_iff.mp h with h | h
  · rw [h, Bool.true_or]
  · rw [decide_eq_true (lt_of_le_of_lt hle (of_decide_eq_true h)), Bool.or_true]

theorem Waits.sooner {n' : ℕ} (h : Waits cfg log n' code sid) (hle : n ≤ n') :
    Waits cfg log n code sid := by
  obtain ⟨⟨time, hm, hv⟩, hu⟩ := h
  exact ⟨⟨time, hm, valid_of_le hv hle⟩, hu⟩

theorem Waits.of_cons (h : Waits cfg (e :: log) n code sid)
    (he : ∀ c t, e ≠ .requested sid c t) : Waits cfg log n code sid := by
  obtain ⟨⟨time, hmem, hv⟩, hu⟩ := h
  rcases List.mem_cons.mp hmem with hm | hm
  · exact absurd hm.symm (he _ _)
  · exact ⟨⟨time, hm, hv⟩, (unpaired_cons.mp hu).2⟩

/-- **Redis changes**, and brings nothing. -/
theorem Kept.redis (h : Kept cfg s) {r : Redis Key Value} (hn : s.redis.now ≤ r.now)
    (hp : ∀ code sid e, Pending { s with redis := r } code sid e → Pending s code sid e)
    (hr : ∀ sid c, Ready { s with redis := r } sid c → Ready s sid c) :
    Kept cfg { s with redis := r } where
  sound := h.sound
  within := h.within
  drawn := h.drawn
  single hi hj := h.single (hi.sooner hn) (hj.sooner hn)
  pending hx := h.pending (hp _ _ _ hx)
  ready hx := h.ready (hr _ _ hx)
  known := h.known
  placed hx := ⟨(h.placed hx).known, (h.placed hx).row⟩

/-- **An event** that draws no code, links no session and hands nothing over. -/
theorem Kept.note (h : Kept cfg s) (hs : Sound cfg s.log e) (hr : ∀ i c t, e ≠ .requested i c t)
    (hp : ∀ i, pairs i e = false) (hh : ∀ i, hands i e = false) : Kept cfg (s.note e) where
  sound := ⟨hs, h.sound⟩
  within := h.within
  drawn hi hj := by
    rcases List.mem_cons.mp hi with hi | hi
    · exact absurd hi.symm (hr _ _ _)
    · rcases List.mem_cons.mp hj with hj | hj
      · exact absurd hj.symm (hr _ _ _)
      · exact h.drawn hi hj
  single hi hj := h.single (hi.of_cons (hr _)) (hj.of_cons (hr _))
  pending hx := by
    obtain ⟨hu, time, hm, hexp⟩ := h.pending hx
    exact ⟨unpaired_cons.mpr ⟨hp _, hu⟩, time, List.mem_cons_of_mem _ hm, hexp⟩
  ready hx := by
    obtain ⟨⟨o, b, hm, ht⟩, hu⟩ := h.ready hx
    exact ⟨⟨o, b, List.mem_cons_of_mem _ hm, ht⟩, unhanded_cons.mpr ⟨hh _, hu⟩⟩
  known hd := by
    obtain ⟨hb, y, hy, hid⟩ := h.known hd
    exact ⟨hb, y, List.mem_cons_of_mem _ hy, hid⟩
  placed hx := by
    rcases List.mem_cons.mp hx with hx | hx
    · subst hx
      exact absurd (hp _) (Bool.eq_false_iff.not.mpr (not_not.mpr (beq_self_eq_true _)))
    · exact (h.placed hx).note

/-- **A code is drawn** with which no session waits. -/
theorem Kept.requested (h : Kept cfg s) (hu : s.unusedSession sid = true)
    (hw : ∀ i, ¬ Waits cfg s.log s.redis.now code i) :
    Kept cfg (s.note (.requested sid code s.redis.now)) where
  sound := ⟨trivial, h.sound⟩
  within := h.within
  drawn hi hj := by
    rcases List.mem_cons.mp hi with hi | hi
    · rcases List.mem_cons.mp hj with hj | hj
      · cases hi
        cases hj
        exact ⟨rfl, rfl⟩
      · cases hi
        exact absurd hj (not_requested_of_unused hu)
    · rcases List.mem_cons.mp hj with hj | hj
      · cases hj
        exact absurd hi (not_requested_of_unused hu)
      · exact h.drawn hi hj
  single {x i j} hi hj := by
    have hcases : ∀ {k : Id}, Waits cfg (.requested sid code s.redis.now :: s.log) s.redis.now x k →
        k = sid ∧ x = code ∨ Waits cfg s.log s.redis.now x k := by
      intro k hk
      obtain ⟨⟨time, hm, hv⟩, hun⟩ := hk
      rcases List.mem_cons.mp hm with hm | hm
      · cases hm
        exact Or.inl ⟨rfl, rfl⟩
      · exact Or.inr ⟨⟨time, hm, hv⟩, (unpaired_cons.mp hun).2⟩
    rcases hcases hi with ⟨rfl, rfl⟩ | hi'
    · rcases hcases hj with ⟨rfl, -⟩ | hj'
      · rfl
      · exact absurd hj' (hw _)
    · rcases hcases hj with ⟨rfl, rfl⟩ | hj'
      · exact absurd hi' (hw _)
      · exact h.single hi' hj'
  pending hx := by
    obtain ⟨hun, time, hm, hexp⟩ := h.pending hx
    exact ⟨unpaired_cons.mpr ⟨rfl, hun⟩, time, List.mem_cons_of_mem _ hm, hexp⟩
  ready hx := by
    obtain ⟨⟨o, b, hm, ht⟩, hun⟩ := h.ready hx
    exact ⟨⟨o, b, List.mem_cons_of_mem _ hm, ht⟩, unhanded_cons.mpr ⟨rfl, hun⟩⟩
  known hd := by
    obtain ⟨hb, y, hy, hid⟩ := h.known hd
    exact ⟨hb, y, List.mem_cons_of_mem _ hy, hid⟩
  placed hx := by
    rcases List.mem_cons.mp hx with hx | hx
    · cases hx
    · exact (h.placed hx).note

theorem Kept.setCode (h : Kept cfg s) {p : PairingRedisPayload} (hu : Unpaired s.log p.sessionId)
    (hm : .requested p.sessionId code s.redis.now ∈ s.log) :
    Kept cfg (s.setJson (.code code) (.code p) cfg.pairingExpirySeconds) := by
  have hready : ∀ i c, Ready (s.setJson (.code code) (.code p) cfg.pairingExpirySeconds) i c →
      Ready s i c := by
    intro i c hx
    rcases ready_setJson hx with hx | ⟨hk, -⟩
    · exact hx
    · cases hk
  have hpend : ∀ x i y, Pending (s.setJson (.code code) (.code p) cfg.pairingExpirySeconds) x i y →
      Unpaired s.log i ∧ ∃ time, .requested i x time ∈ s.log ∧ (cfg.pairingExpirySeconds ≠ 0 →
        y.expiresAt = some (time + 1000 * cfg.pairingExpirySeconds)) := by
    intro x i y hx
    rcases pending_setJson hx with hx' | ⟨hk, rfl⟩
    · exact h.pending hx'
    · cases hk
      obtain ⟨-, q, hq, -, rfl⟩ := hx
      cases hq
      exact ⟨hu, _, hm, fun hne => if_neg hne⟩
  rw [Fleet.setJson_eq] at hready hpend ⊢
  exact {
    sound := h.sound
    within := h.within
    drawn := h.drawn
    single := h.single
    pending := hpend _ _ _
    ready := fun hx => h.ready (hready _ _ hx)
    known := h.known
    placed := fun hx => ⟨(h.placed hx).known, (h.placed hx).row⟩ }

/-- **A link of a session succeeds**, for which no code is stored any more. -/
theorem Kept.paired (h : Kept cfg s) {orgId branchId : Id} {apiKey : String}
    (hu : Unpaired s.log sid) (hf : ∃ code time, .found code sid time ∈ s.log)
    (hp : ∀ code e, ¬ Pending s code sid e) (hd : Placed s id orgId branchId) :
    Kept cfg (s.note (.paired sid orgId branchId id apiKey)) where
  sound := ⟨⟨hu, hf⟩, h.sound⟩
  within := h.within
  drawn hi hj := by
    rcases List.mem_cons.mp hi with hi | hi
    · cases hi
    · rcases List.mem_cons.mp hj with hj | hj
      · cases hj
      · exact h.drawn hi hj
  single hi hj := h.single (hi.of_cons (by simp)) (hj.of_cons (by simp))
  pending {x i y} hx := by
    obtain ⟨hun, time, hm, hexp⟩ := h.pending hx
    refine ⟨unpaired_cons.mpr ⟨beq_eq_false_iff_ne.mpr ?_, hun⟩, time, List.mem_cons_of_mem _ hm,
      hexp⟩
    rintro rfl
    exact hp _ _ hx
  ready hx := by
    obtain ⟨⟨o, b, hm, ht⟩, hun⟩ := h.ready hx
    exact ⟨⟨o, b, List.mem_cons_of_mem _ hm, ht⟩, unhanded_cons.mpr ⟨rfl, hun⟩⟩
  known hd := by
    obtain ⟨hb, y, hy, hid⟩ := h.known hd
    exact ⟨hb, y, List.mem_cons_of_mem _ hy, hid⟩
  placed hx := by
    rcases List.mem_cons.mp hx with hx | hx
    · cases hx
      exact hd.note
    · exact (h.placed hx).note

/-- Credentials that are handed over are those of a link that has succeeded. -/
theorem AllSound.unhanded (h : AllSound cfg log) (hu : Unpaired log sid) : Unhanded log sid := by
  induction log with
  | nil => rfl
  | cons e log ih =>
    obtain ⟨hpe, hu'⟩ := unpaired_cons.mp hu
    refine unhanded_cons.mpr ⟨Bool.eq_false_iff.mpr fun hh => ?_, ih h.2 hu'⟩
    cases e with
    | handedOver i x y k t =>
      obtain rfl := eq_of_beq hh
      obtain ⟨-, o, b, hm, -⟩ := h.1
      exact List.any_eq_false.mp hu' _ hm (beq_self_eq_true _)
    | requested | found | linked | claimed | paired | revoked | deleted | admitted | refreshed
    | turnedAway | gone => cases hh

theorem Kept.setSession (h : Kept cfg s) {p : PairingSessionRedis}
    (hp : ∀ c, p.credentials? = some c → Backed s.log sid c ∧ Unhanded s.log sid) :
    Kept cfg (s.setJson (.session sid) (.session p) n) := by
  have hpend : ∀ x i y, Pending (s.setJson (.session sid) (.session p) n) x i y → Pending s x i y := by
    intro x i y hx
    rcases pending_setJson hx with hx | ⟨hk, -⟩
    · exact hx
    · cases hk
  have hready : ∀ i c, Ready (s.setJson (.session sid) (.session p) n) i c →
      Backed s.log i c ∧ Unhanded s.log i := by
    intro i c hx
    rcases ready_setJson hx with hx | ⟨hk, q, hq, hc⟩
    · exact h.ready hx
    · cases hk
      cases hq
      exact hp c hc
  rw [Fleet.setJson_eq] at hpend hready ⊢
  exact {
    sound := h.sound
    within := h.within
    drawn := h.drawn
    single := h.single
    pending := fun hx => h.pending (hpend _ _ _ hx)
    ready := hready _ _
    known := h.known
    placed := fun hx => ⟨(h.placed hx).known, (h.placed hx).row⟩ }

/-- **Credentials are handed over**, which are not stored any more. -/
theorem Kept.handed (h : Kept cfg s) (hb : Backed s.log sid c) (hu : Unhanded s.log sid)
    (ho : d.orgId = c.sessionToken.oid) (hd : d.branchId = some c.sessionToken.bid)
    (hr : ∀ c', ¬ Ready s sid c') :
    Kept cfg (s.note (.handedOver sid c.deviceId d c.apiKey c.sessionToken)) where
  sound := by
    obtain ⟨o, b, hm, ht⟩ := hb
    rw [ht] at ho hd ⊢
    exact ⟨⟨hu, o, b, hm, rfl, ho, hd⟩, h.sound⟩
  within := h.within
  drawn hi hj := by
    rcases List.mem_cons.mp hi with hi | hi
    · cases hi
    · rcases List.mem_cons.mp hj with hj | hj
      · cases hj
      · exact h.drawn hi hj
  single hi hj := h.single (hi.of_cons (by simp)) (hj.of_cons (by simp))
  pending hx := by
    obtain ⟨hun, time, hm, hexp⟩ := h.pending hx
    exact ⟨unpaired_cons.mpr ⟨rfl, hun⟩, time, List.mem_cons_of_mem _ hm, hexp⟩
  ready {i x} hx := by
    obtain ⟨⟨o, b, hm, ht⟩, hun⟩ := h.ready hx
    refine ⟨⟨o, b, List.mem_cons_of_mem _ hm, ht⟩, unhanded_cons.mpr
      ⟨beq_eq_false_iff_ne.mpr ?_, hun⟩⟩
    rintro rfl
    exact hr _ hx
  known hd := by
    obtain ⟨hb, y, hy, hid⟩ := h.known hd
    exact ⟨hb, y, List.mem_cons_of_mem _ hy, hid⟩
  placed hx := by
    rcases List.mem_cons.mp hx with hx | hx
    · cases hx
    · exact (h.placed hx).note

/-- **The rows change.** -/
theorem Kept.devices (h : Kept cfg s) {t : AList fun _ : Id => Device}
    (hp : ∀ {i o b}, Placed s i o b → Placed { s with devices := t } i o b)
    (hw : Within cfg { s with devices := t })
    (hk : ∀ {i e}, t.lookup i = some e → e.branchId ≠ none ∧ ∃ y ∈ s.log, y.device? = some i) :
    Kept cfg { s with devices := t } where
  sound := h.sound
  within := hw
  drawn := h.drawn
  single := h.single
  pending := h.pending
  ready := h.ready
  known := hk
  placed hx := hp (h.placed hx)

theorem Kept.write (h : Kept cfg s) (hd : s.devices.lookup id = some d)
    (ho : d'.orgId = d.orgId) (hb : d'.branchId = d.branchId) : Kept cfg (s.write id d') := by
  have hw : Effect none none none s (s.write id d') := .write hd ho hb
  refine h.devices hw.placed (fun orgId limit hl => ?_) fun {i e} he => ?_
  · have hc := Async.countP_insert_row (w := d') (fun e => e.2.orgId == orgId) hd
    simp only [ho] at hc
    have hle := h.within orgId limit hl
    show (s.devices.insert id d').entries.countP _ ≤ limit
    unfold Fleet.count at hle
    omega
  · by_cases hi : i = id
    · subst hi
      rw [AList.lookup_insert] at he
      cases he
      rw [hb]
      exact h.known hd
    · rw [AList.lookup_insert_ne hi] at he
      exact h.known he

/-- A row is deleted. -/
theorem Kept.erase (h : Kept cfg s) : Kept cfg { s with devices := s.devices.erase id } := by
  have hw : Effect none none none s { s with devices := s.devices.erase id } := .erase
  refine h.devices hw.placed (fun orgId limit hl => ?_) fun {i e} he => ?_
  · exact le_trans (List.kerase_sublist id s.devices.entries).countP_le (h.within orgId limit hl)
  · by_cases hi : i = id
    · subst hi
      rw [AList.lookup_erase] at he
      cases he
    · rw [AList.lookup_erase_ne hi] at he
      exact h.known he

/-- **A row is made**, where the plan allows another. -/
theorem Kept.create (h : Kept cfg s) (hu : s.unusedDevice id = true) (hb : d.branchId ≠ none)
    (hl : cfg.allows d.orgId (s.count d.orgId) = true) {apiKey : String} :
    Kept cfg ((s.write id d).note (.linked id apiKey)) := by
  have hnew : s.devices.lookup id = none := Option.isNone_iff_eq_none.mp (Bool.and_eq_true_iff.mp hu).1
  have hw : Effect none none none s (s.write id d) := .create hu
  have hn : Kept cfg (s.note (.linked id apiKey)) :=
    h.note trivial (fun _ _ _ => by simp) (fun _ => rfl) fun _ => rfl
  exact {
    sound := hn.sound
    within := fun orgId limit hlim => by
      have hc := Async.countP_insert_new (v := d) (fun e => e.2.orgId == orgId) hnew
      have hle := h.within orgId limit hlim
      show (s.devices.insert id d).entries.countP _ ≤ limit
      rw [hc]
      split
      · rename_i ho
        obtain rfl := eq_of_beq ho
        unfold Deployment.allows at hl
        rw [hlim, Option.all_some, decide_eq_true_eq] at hl
        exact hl
      · exact hle
    drawn := hn.drawn
    single := hn.single
    pending := hn.pending
    ready := hn.ready
    known := fun {i e} he => by
      have he' : (s.devices.insert id d).lookup i = some e := he
      by_cases hi : i = id
      · subst hi
        rw [AList.lookup_insert] at he'
        cases he'
        exact ⟨hb, _, List.mem_cons_self, rfl⟩
      · rw [AList.lookup_insert_ne hi] at he'
        exact hn.known he'
    placed := fun hx => by
      rcases List.mem_cons.mp hx with hx | hx
      · cases hx
      · exact (hw.placed (h.placed hx)).note }

end

/-! ## Steps that neither link nor hand over -/

def quiet : Event → Bool
  | .requested .. | .found .. | .paired .. | .handedOver .. => false
  | _ => true

/-- The value is neither a code to link nor credentials. -/
def inert : Value → Prop
  | .code p => p.status ≠ .pending
  | .session p => p.credentials? = none
  | .auth _ => True

/-- A step keeps what is known, and does no more than this. -/
structure Keeps (cfg : Deployment) (pair hand draw : Option Id) (s s' : Fleet) : Prop where
  kept : Kept cfg s'
  effect : Effect pair hand draw s s'

section

variable {cfg : Deployment} {s s' m : Fleet} {e : Event} {id : Id} {d d' : Device}
  {pair hand draw : Option Id} {x : Move}

theorem Kept.keeps (h : Kept cfg s) : Keeps cfg pair hand draw s s := ⟨h, .refl⟩

theorem Keeps.trans (h : Keeps cfg pair hand draw s m)
    (h' : Kept cfg m → Keeps cfg pair hand draw m s') : Keeps cfg pair hand draw s s' :=
  ⟨(h' h.kept).kept, h.effect.trans (h' h.kept).effect⟩

theorem Effect.setJson {k : Key} {v : Value} {n : ℕ}
    (hp : ∀ code p, k = .code code → v = .code p → p.status = .pending → draw = some p.sessionId)
    (hr : ∀ sid p c, k = .session sid → v = .session p → p.credentials? = some c → pair = some sid) :
    Effect pair hand draw s (s.setJson k v n) := by
  have hpend : ∀ code sid y, Pending (s.setJson k v n) code sid y →
      Pending s code sid y ∨ draw = some sid := by
    intro code sid y hx
    rcases pending_setJson hx with hx' | ⟨hk, rfl⟩
    · exact Or.inl hx'
    · obtain ⟨-, q, hv, hs, rfl⟩ := hx
      exact Or.inr (hp _ _ hk hv hs)
  have hready : ∀ sid c, Ready (s.setJson k v n) sid c → Ready s sid c ∨ pair = some sid := by
    intro sid c hx
    rcases ready_setJson hx with hx | ⟨hk, q, hv, hc⟩
    · exact Or.inl hx
    · exact Or.inr (hr _ _ _ hk hv hc)
  rw [Fleet.setJson_eq] at hpend hready ⊢
  exact Effect.redis hpend hready

theorem Kept.keeps_setJson (h : Kept cfg s) {k : Key} {v : Value} (n : ℕ) (hv : inert v) :
    Keeps cfg pair hand draw s (s.setJson k v n) := by
  have hp : ∀ code p, k = .code code → v = .code p → p.status = .pending → False := by
    rintro code p - rfl hs
    exact hv hs
  have hr : ∀ sid p c, k = .session sid → v = .session p → p.credentials? = some c → False := by
    rintro sid p c - rfl hc
    rw [show p.credentials? = none from hv] at hc
    cases hc
  refine ⟨?_, Effect.setJson (fun _ _ hk hw hs => (hp _ _ hk hw hs).elim)
    fun _ _ _ hk hw hc => (hr _ _ _ hk hw hc).elim⟩
  have hpend : ∀ code sid y, Pending (s.setJson k v n) code sid y → Pending s code sid y := by
    intro code sid y hx
    rcases pending_setJson hx with hx' | ⟨hk, rfl⟩
    · exact hx'
    · obtain ⟨-, q, hw, hs, -⟩ := hx
      exact (hp _ _ hk hw hs).elim
  have hready : ∀ sid c, Ready (s.setJson k v n) sid c → Ready s sid c := by
    intro sid c hx
    rcases ready_setJson hx with hx | ⟨hk, q, hw, hc⟩
    · exact hx
    · exact (hr _ _ _ hk hw hc).elim
  rw [Fleet.setJson_eq] at hpend hready ⊢
  exact h.redis (Nat.le_refl _) hpend hready

theorem Kept.keeps_del (h : Kept cfg s) (k : Key) : Keeps cfg pair hand draw s (s.del k) :=
  ⟨h.redis (Nat.le_refl _) (fun _ _ _ => pending_del) fun _ _ hx => (ready_del hx).2,
    Effect.redis (fun _ _ _ hx => Or.inl (pending_del hx)) fun _ _ hx => Or.inl (ready_del hx).2⟩

theorem not_pairs_of_quiet (h : quiet e = true) (sid : Id) : pairs sid e = false := by
  cases e with
  | paired => cases h
  | requested | found | linked | claimed | handedOver | revoked | deleted | admitted | refreshed
  | turnedAway | gone => rfl

theorem not_hands_of_quiet (h : quiet e = true) (sid : Id) : hands sid e = false := by
  cases e with
  | handedOver => cases h
  | requested | found | linked | claimed | paired | revoked | deleted | admitted | refreshed
  | turnedAway | gone => rfl

theorem Kept.keeps_note (h : Kept cfg s) (he : quiet e = true) :
    Keeps cfg pair hand draw s (s.note e) := by
  refine ⟨h.note ?_ ?_ (not_pairs_of_quiet he) (not_hands_of_quiet he),
    Effect.note (fun sid hp => ?_) fun sid hh => ?_⟩
  · cases e with
    | requested | found | paired | handedOver => cases he
    | linked | claimed | revoked | deleted | admitted | refreshed | turnedAway | gone => trivial
  · rintro i c t rfl
    cases he
  · rw [not_pairs_of_quiet he] at hp
    cases hp
  · rw [not_hands_of_quiet he] at hh
    cases hh

theorem Kept.keeps_write (h : Kept cfg s) (hd : s.devices.lookup id = some d)
    (ho : d'.orgId = d.orgId) (hb : d'.branchId = d.branchId) :
    Keeps cfg pair hand draw s (s.write id d') :=
  ⟨h.write hd ho hb, .write hd ho hb⟩

theorem keeps_refresh {t : Refresh} {q : RefreshPoint} (h : Kept cfg s)
    (hn : t.next cfg s x = some (s', q)) : Keeps cfg pair hand draw s s' := by
  cases x with
  | go =>
    cases hp : t.point with
    | start =>
      simp only [Refresh.next, hp, Option.some.injEq] at hn
      split at hn
      · cases hn
        exact h.keeps_note rfl
      · split at hn
        · cases hn
          exact h.keeps_note rfl
        · cases hn
          exact h.keeps
    | touch id =>
      simp only [Refresh.next, hp] at hn
      cases hn
      split
      · exact h.keeps_note rfl
      · exact h.keeps_note rfl
    | ended =>
      simp only [Refresh.next, hp] at hn
      cases hn
  | fails =>
    obtain ⟨rfl, rfl⟩ := ended_of_fails hn
    exact h.keeps
  | created id => cases hn
  | lost => cases hn
  | rejected => cases hn

theorem keeps_check {t : Check} {q : CheckPoint} (h : Kept cfg s)
    (hn : t.next s x = some (s', q)) : Keeps cfg pair hand draw s s' := by
  have hattach : ∀ {m : Fleet} {id orgId : Id} {b : Bool}, Keeps cfg pair hand draw s m →
      t.attach m id orgId b = (s', q) → Keeps cfg pair hand draw s s' := by
    intro m id orgId b hm he
    cases he
    exact hm.trans fun hk => hk.keeps_note rfl
  cases x with
  | go =>
    cases hp : t.point with
    | start =>
      simp only [Check.next, hp, Option.some.injEq] at hn
      split at hn
      · cases hn
        exact h.keeps
      · split at hn
        · cases hn
          exact h.keeps
        · split at hn
          · cases hn
            exact h.keeps
          · split at hn
            · exact hattach h.keeps hn
            · cases hn
              exact h.keeps
    | read token =>
      simp only [Check.next, hp] at hn
      cases hn
      exact h.keeps
    | store id d =>
      simp only [Check.next, hp, Option.some.injEq] at hn
      exact hattach (h.keeps_setJson (v := .auth ⟨d.orgId, d.branchId, d.status⟩) _ trivial) hn
    | beat id orgId =>
      simp only [Check.next, hp] at hn
      cases hn
      split
      · exact h.keeps
      · rename_i d hd
        split
        · exact h.keeps_write hd rfl rfl
        · exact h.keeps
    | ended =>
      simp only [Check.next, hp] at hn
      cases hn
  | lost =>
    simp only [Check.next] at hn
    split at hn
    · split at hn
      · cases hn
      · split at hn
        · cases hn
        · cases hn
          exact h.keeps
    · exact hattach h.keeps (Option.some.inj hn)
    · cases hn
  | fails =>
    obtain ⟨rfl, rfl⟩ := ended_of_fails hn
    exact h.keeps
  | created id => cases hn
  | rejected => cases hn

theorem keeps_webhook {t : Webhook} {q : WebhookPoint} (h : Kept cfg s)
    (hn : t.next s x = some (s', q)) : Keeps cfg pair hand draw s s' := by
  cases x with
  | go =>
    cases hp : t.point with
    | find =>
      simp only [Webhook.next, hp] at hn
      cases hn
      exact h.keeps
    | update =>
      simp only [Webhook.next, hp] at hn
      cases hn
      split
      · exact h.keeps
      · rename_i d hd
        exact h.keeps_write hd rfl rfl
    | ended =>
      simp only [Webhook.next, hp] at hn
      cases hn
  | rejected =>
    simp only [Webhook.next] at hn
    split at hn
    · cases hn
      exact h.keeps
    · cases hn
  | fails =>
    obtain ⟨rfl, rfl⟩ := ended_of_fails hn
    exact h.keeps
  | created id => cases hn
  | lost => cases hn

theorem keeps_removal {t : Removal} {q : RemovalPoint} (h : Kept cfg s)
    (hn : t.next s x = some (s', q)) : Keeps cfg pair hand draw s s' := by
  cases x with
  | go =>
    cases hp : t.point with
    | find =>
      simp only [Removal.next, hp] at hn
      cases hn
      exact h.keeps
    | del =>
      simp only [Removal.next, hp] at hn
      cases hn
      exact h.keeps_del _
    | write =>
      simp only [Removal.next, hp] at hn
      cases hn
      split
      · exact h.keeps
      · rename_i d hd
        split
        · exact h.keeps
        · split
          · exact Keeps.trans ⟨h.erase, .erase⟩ fun hk => hk.keeps_note rfl
          · refine Keeps.trans ?_ fun hk => hk.keeps_note rfl
            exact h.keeps_write hd rfl rfl
    | ended =>
      simp only [Removal.next, hp] at hn
      cases hn
  | lost =>
    simp only [Removal.next] at hn
    split at hn
    · cases hn
      exact h.keeps
    · cases hn
  | fails =>
    obtain ⟨rfl, rfl⟩ := ended_of_fails hn
    exact h.keeps
  | created id => cases hn
  | rejected => cases hn

end

/-! ## Requests, links and claims -/

def drawing (s : Fleet) : Task → Option Id
  | .request t => if s.unusedSession t.sessionId then some t.sessionId else none
  | _ => none

/-- **What a step of a task is to show.** -/
structure Step (cfg : Deployment) (s s' : Fleet) (t t' : Task) (x : Move) : Prop where
  keeps : Keeps cfg (linking t) (claiming t) (drawing s t) s s'
  known : Known s' t'
  linking {sid : Id} : linking t' = some sid →
    Pairing.linking t = some sid ∨ x = .go ∧ findsSession s t = some sid
  claiming {sid : Id} : claiming t' = some sid →
    Pairing.claiming t = some sid ∨ x = .go ∧ findsCredentials s t = some sid

section

variable {cfg : Deployment} {s s' : Fleet} {x : Move} {code : String} {p : PairingRedisPayload}
  {id sid : Id} {c : Credentials} {t : Link} {q : LinkPoint} {draw : Option Id} {t' : Task}

theorem live_of_pairing (h : s.pairing code = some p) :
    ∃ e, s.redis.live (.code code) = some e ∧ e.value = .code p := by
  unfold Fleet.pairing Redis.get at h
  cases hl : s.redis.live (.code code) with
  | none =>
    rw [hl] at h
    cases h
  | some e =>
    rw [hl] at h
    cases hv : e.value with
    | code q =>
      simp only [Option.map_some, hv, Option.some.injEq] at h
      exact ⟨e, rfl, by rw [hv, h]⟩
    | auth | session =>
      simp only [Option.map_some, hv] at h
      cases h

theorem live_of_session {p : PairingSessionRedis} (h : s.session sid = some p) :
    ∃ e, s.redis.live (.session sid) = some e ∧ e.value = .session p := by
  unfold Fleet.session Redis.get at h
  cases hl : s.redis.live (.session sid) with
  | none =>
    rw [hl] at h
    cases h
  | some e =>
    rw [hl] at h
    cases hv : e.value with
    | session q =>
      simp only [Option.map_some, hv, Option.some.injEq] at h
      exact ⟨e, rfl, by rw [hv, h]⟩
    | auth | code =>
      simp only [Option.map_some, hv] at h
      cases h

/-- **A code that is there is one with which its session waits, and no other.** -/
theorem Kept.waits_iff (h : Kept cfg s) (hp : s.pairing code = some p) (hs : p.status = .pending)
    (i : Id) :
    Waits cfg s.log s.redis.now code i ↔ i = p.sessionId := by
  obtain ⟨e, hl, hv⟩ := live_of_pairing hp
  obtain ⟨he, hlive⟩ := Redis.live_eq_some.mp hl
  obtain ⟨hu, time, hm, hexp⟩ := h.pending ⟨he, p, hv, hs, rfl⟩
  have hw : Waits cfg s.log s.redis.now code p.sessionId := by
    refine ⟨⟨time, hm, ?_⟩, hu⟩
    unfold valid
    by_cases h0 : cfg.pairingExpirySeconds = 0
    · rw [h0]
      rfl
    · rw [decide_eq_true (hlive _ (hexp h0)), Bool.or_true]
  exact ⟨fun hi => h.single hi hw, fun hi => hi ▸ hw⟩

theorem pending_of_pairing (hp : s.pairing code = some p)
    (hs : p.status = .pending) : ∃ e, Pending s code p.sessionId e := by
  obtain ⟨e, hl, hv⟩ := live_of_pairing hp
  exact ⟨e, (Redis.live_eq_some.mp hl).1, p, hv, hs, rfl⟩

theorem ready_of_session (h : (s.session sid).bind (·.credentials?) = some c) : Ready s sid c := by
  obtain ⟨p, hp, hc⟩ := Option.bind_eq_some_iff.mp h
  obtain ⟨e, hl, hv⟩ := live_of_session hp
  exact ⟨e, p, (Redis.live_eq_some.mp hl).1, hv, hc⟩

theorem not_waits (h : s.log.any (awaits cfg s code) = false) (i : Id) :
    ¬ Waits cfg s.log s.redis.now code i := by
  rintro ⟨⟨time, hm, hv⟩, hu⟩
  refine List.any_eq_false.mp h _ hm ?_
  show (code == code && valid cfg time s.redis.now && !s.log.any (pairs i)) = true
  rw [beq_self_eq_true, hv, show s.log.any (pairs i) = false from hu]
  rfl

/-- **A step of a request.** -/
theorem step_request {t : Request} {q : RequestPoint} (h : Kept cfg s)
    (hx : orderly cfg s (.request t) x = true) (hn : t.next cfg s x = some (s', q)) :
    Step cfg s s' (.request t) (.request { t with point := q }) x := by
  refine ⟨?_, trivial, nofun, nofun⟩
  have hrequested : t.point = .setCode → x ≠ .fails → s.unusedSession t.sessionId = true →
      Keeps cfg none none (some t.sessionId) s
        (s.note (.requested t.sessionId t.code s.redis.now)) := by
    intro hp hf hu
    refine ⟨h.requested hu (not_waits ?_), Effect.note (fun _ => nofun) fun _ => nofun⟩
    unfold orderly at hx
    simp only [hp, bne_self_eq_false, Bool.false_or, beq_eq_false_iff_ne.mpr hf,
      Bool.not_eq_true'] at hx
    exact hx
  cases x with
  | go =>
    cases hp : t.point with
    | setCode =>
      simp only [Request.next, hp] at hn
      split at hn
      · rename_i hu
        cases hn
        have hd : drawing s (.request t) = some t.sessionId := if_pos hu
        rw [hd]
        have hm := hrequested hp (by simp) hu
        refine Keeps.trans hm fun hk => ?_
        refine ⟨hk.setCode (unpaired_cons.mpr ⟨rfl, unpaired_of_unused hu⟩) List.mem_cons_self,
          Effect.setJson (fun code p _ hv _ => ?_) fun _ _ _ hk => nomatch hk⟩
        cases hv
        rfl
      · cases hn
    | setSession =>
      simp only [Request.next, hp] at hn
      cases hn
      exact h.keeps_setJson _ rfl
    | ended =>
      simp only [Request.next, hp] at hn
      cases hn
  | lost =>
    cases hp : t.point with
    | setCode =>
      simp only [Request.next, hp] at hn
      split at hn
      · rename_i hu
        cases hn
        have hd : drawing s (.request t) = some t.sessionId := if_pos hu
        rw [hd]
        exact hrequested hp (by simp) hu
      · cases hn
    | setSession =>
      simp only [Request.next, hp] at hn
      cases hn
      exact h.keeps
    | ended =>
      simp only [Request.next, hp] at hn
      cases hn
  | fails =>
    obtain ⟨rfl, rfl⟩ := ended_of_fails hn
    exact h.keeps
  | created id => cases hn
  | rejected => cases hn

theorem LinkKnown.advance (h : LinkKnown s t) (he : Effect none none none s s')
    (hs : ∀ sid, LinkPoint.session? q = some sid → LinkPoint.session? t.point = some sid)
    (hd : ∀ id, LinkPoint.device? q = some id → Placed s' id t.orgId t.branchId)
    (ho : ∀ sid, LinkPoint.overwritten? q = some sid → ∀ code e, ¬ Pending s' code sid e) :
    LinkKnown s' { t with point := q } where
  session hq := by
    obtain ⟨hu, ⟨n, hf⟩, k, hr⟩ := h.session (hs _ hq)
    exact ⟨he.unpaired hu nofun, ⟨n, he.log hf⟩, k, he.log hr⟩
  device hq := hd _ hq
  overwritten hq := ho _ hq

theorem step_of_link (ht : LinkKnown s t)
    (hk : ∀ {pair hand draw : Option Id}, Keeps cfg pair hand draw s s')
    (hs : ∀ sid, LinkPoint.session? q = some sid → LinkPoint.session? t.point = some sid)
    (hd : ∀ id, LinkPoint.device? q = some id → Placed s' id t.orgId t.branchId)
    (ho : ∀ sid, LinkPoint.overwritten? q = some sid → ∀ code e, ¬ Pending s' code sid e) :
    Step cfg s s' (.link t) (.link { t with point := q }) x :=
  ⟨hk, ht.advance hk.effect hs hd ho, fun hq => Or.inl (hs _ hq), nofun⟩

theorem step_of_ended (h : Keeps cfg (linking (.link t)) none none s s') :
    Step cfg s s' (.link t) (.link { t with point := .ended }) x :=
  ⟨h, ⟨nofun, nofun, nofun⟩, nofun, nofun⟩

theorem apiKey_ne (t : Link) : t.apiKey ≠ "" := by
  intro h
  have hl := congrArg String.toList h
  rw [Link.apiKey, String.toList_append] at hl
  exact absurd (List.append_eq_nil_iff.mp hl).1 (by decide)

theorem backed_credentials {log : List Event} (h : (t.credentials id).credentials? = some c)
    (hm : .paired sid t.orgId t.branchId id t.apiKey ∈ log) : Backed log sid c := by
  unfold PairingSessionRedis.credentials? Link.credentials at h
  simp only [Loyalty.truthy_some (apiKey_ne t), Option.some.injEq] at h
  subst h
  exact ⟨_, _, hm, rfl⟩

/-- **A link succeeds.** -/
theorem keeps_paired (h : Kept cfg s) (ht : LinkKnown s t) (hp : t.point = .setSession sid id) :
    Keeps cfg (linking (.link t)) none draw s
      (s.note (.paired sid t.orgId t.branchId id t.apiKey)) := by
  have hlink : linking (.link t) = some sid := by
    show LinkPoint.session? t.point = some sid
    rw [hp]
    rfl
  obtain ⟨hu, hf, -⟩ := ht.session hlink
  refine ⟨h.paired hu ⟨_, hf⟩ (ht.overwritten (by rw [hp]; rfl)) (ht.device (by rw [hp]; rfl)),
    Effect.note (fun i hi => ?_) fun _ => nofun⟩
  rw [hlink, eq_of_beq hi]

theorem step_link_setSession (h : Kept cfg s) (ht : LinkKnown s t)
    (hp : t.point = .setSession sid id) :
    Step cfg s ((s.setJson (.session sid) (.session (t.credentials id)) cfg.claimTtlSeconds).note
      (.paired sid t.orgId t.branchId id t.apiKey)) (.link t) (.link { t with point := .ended }) x := by
  have hm : Keeps cfg (linking (.link t)) none none s
      (s.note (.paired sid t.orgId t.branchId id t.apiKey)) := keeps_paired h ht hp
  have hlink : linking (.link t) = some sid := by
    show LinkPoint.session? t.point = some sid
    rw [hp]
    rfl
  obtain ⟨hu, -, -⟩ := ht.session hlink
  refine step_of_ended (hm.trans fun hk => ?_)
  refine ⟨hk.setSession fun c hc => ⟨backed_credentials hc List.mem_cons_self,
    unhanded_cons.mpr ⟨rfl, h.sound.unhanded hu⟩⟩, Effect.setJson (fun _ _ hk => nomatch hk)
    fun i _ _ hk _ _ => ?_⟩
  cases hk
  exact hlink

theorem not_pending_of_setCode {n : ℕ} (h : Kept cfg s)
    (hr : ∃ time, .requested sid t.normalizedCode time ∈ s.log) (code : String) (e : Entry Value) :
    ¬ Pending (s.setJson (.code t.normalizedCode) (.code (t.payload sid id)) n) code sid e := by
  intro hpend
  have hpend' := hpend
  rcases pending_setJson hpend with hx | ⟨-, rfl⟩
  · obtain ⟨-, k, hm, -⟩ := h.pending hx
    obtain ⟨time, hr⟩ := hr
    obtain ⟨rfl, -⟩ := h.drawn hr hm
    obtain ⟨he, p, hv, hs, -⟩ := hpend'
    rw [Fleet.setJson_eq] at he
    rw [show _ = _ from Redis.entries_put_self] at he
    cases he
    cases hv
    cases hs
  · obtain ⟨-, p, hv, hs, -⟩ := hpend'
    cases hv
    cases hs

/-- **A step of a link.** -/
theorem step_link_go (h : Kept cfg s) (ht : LinkKnown s t) (hn : t.next cfg s .go = some (s', q)) :
    Step cfg s s' (.link t) (.link { t with point := q }) .go := by
  cases hp : t.point with
  | start =>
    simp only [Link.next, hp, Option.some.injEq] at hn
    cases hf : s.pairing t.normalizedCode with
    | none =>
      simp only [hf] at hn
      cases hn
      exact step_of_ended h.keeps
    | some p =>
      simp only [hf] at hn
      split at hn
      · cases hn
        exact step_of_ended h.keeps
      · rename_i hno
        cases hn
        have hs : p.status = .pending := by
          cases hst : p.status with
          | pending => rfl
          | linked => exact absurd (Or.inr (by rw [hst]; decide)) hno
        obtain ⟨e, hpend⟩ := pending_of_pairing hf hs
        obtain ⟨hu, k, hm, -⟩ := h.pending hpend
        refine ⟨⟨h.note (h.waits_iff hf hs) (by simp) (fun _ => rfl) fun _ => rfl,
          Effect.note (fun _ => nofun) fun _ => nofun⟩, ⟨fun hq => ?_, nofun, nofun⟩, fun hq => ?_,
          nofun⟩
        · cases hq
          exact ⟨unpaired_cons.mpr ⟨rfl, hu⟩, ⟨_, List.mem_cons_self⟩, k, List.mem_cons_of_mem _ hm⟩
        · refine Or.inr ⟨rfl, ?_⟩
          cases hq
          simp [findsSession, hp, hf, hs]
  | branch sid =>
    simp only [Link.next, hp] at hn
    cases hn
    split
    · split
      · exact step_of_link ht h.keeps (fun _ hq => by rw [hp]; exact hq) nofun nofun
      · exact step_of_link ht h.keeps (fun _ hq => by rw [hp]; exact hq) nofun nofun
    · exact step_of_ended h.keeps
  | find sid id =>
    simp only [Link.next, hp] at hn
    cases hn
    split
    · exact step_of_ended h.keeps
    · rename_i d hd
      split
      · exact step_of_ended h.keeps
      · rename_i hno
        obtain ⟨hno, hbr⟩ := not_or.mp hno
        refine step_of_link ht h.keeps (fun _ hq => by rw [hp]; exact hq) (fun i hi => ?_) nofun
        cases hi
        obtain ⟨hb, hk⟩ := h.known hd
        refine ⟨hk, fun {e} he => ?_⟩
        rw [hd] at he
        cases he
        refine ⟨not_not.mp hno, ?_⟩
        obtain ⟨b, hb⟩ := Option.ne_none_iff_exists'.mp hb
        rw [hb] at hbr ⊢
        rw [not_not.mp (bne_iff_ne.not.mp hbr)]
  | del sid id =>
    simp only [Link.next, hp] at hn
    cases hn
    have hk : Keeps cfg none none none s (s.del (.auth id)) := h.keeps_del _
    exact step_of_link ht (h.keeps_del _) (fun _ hq => by rw [hp]; exact hq)
      (fun i hi => hk.effect.placed (ht.device (by rw [hp]; exact hi))) nofun
  | update sid id =>
    simp only [Link.next, hp, Option.some.injEq] at hn
    cases hd : s.devices.lookup id with
    | none =>
      simp only [hd] at hn
      cases hn
      exact step_of_ended h.keeps
    | some d =>
      simp only [hd] at hn
      split at hn
      · cases hn
        exact step_of_ended h.keeps
      · cases hn
        have hpl : Placed s id t.orgId t.branchId := ht.device (by rw [hp]; rfl)
        have hk : ∀ {pair hand draw : Option Id}, Keeps cfg pair hand draw s
            ((s.write id { d with
              branchId := some t.branchId
              apiKeyHash := some (cfg.sha256 t.apiKey)
              status := "online" }).note (.linked id t.apiKey)) := by
          intro pair hand draw
          refine Keeps.trans ?_ fun hm => hm.keeps_note rfl
          exact h.keeps_write hd rfl (hpl.row hd).2.symm
        have he : Effect none none none s _ := hk.effect
        exact step_of_link ht hk (fun _ hq => by rw [hp]; exact hq)
          (fun i hi => he.placed (ht.device (by rw [hp]; exact hi))) nofun
  | count sid =>
    simp only [Link.next, hp] at hn
    cases hn
    split
    · exact step_of_link ht h.keeps (fun _ hq => by rw [hp]; exact hq) nofun nofun
    · exact step_of_ended h.keeps
  | create sid =>
    simp only [Link.next, hp] at hn
    cases hn
  | setCode sid id =>
    simp only [Link.next, hp] at hn
    cases hn
    have hk : ∀ {pair hand draw : Option Id}, Keeps cfg pair hand draw s
        (s.setJson (.code t.normalizedCode) (.code (t.payload sid id)) cfg.claimTtlSeconds) :=
      fun {_ _ _} => h.keeps_setJson _ (by show PairingStatus.linked ≠ .pending; decide)
    refine step_of_link ht hk (fun _ hq => by rw [hp]; exact hq) (fun i hi => ?_) fun i hi => ?_
    · have he : Effect none none none s _ := hk.effect
      exact he.placed (ht.device (by rw [hp]; exact hi))
    · cases hi
      exact not_pending_of_setCode h (ht.session (by rw [hp]; rfl)).2.2
  | setSession sid id =>
    simp only [Link.next, hp] at hn
    cases hn
    exact step_link_setSession h ht hp
  | ended =>
    simp only [Link.next, hp] at hn
    cases hn

theorem step_link (h : Kept cfg s) (ht : LinkKnown s t) (hx : orderly cfg s (.link t) x = true)
    (hn : t.next cfg s x = some (s', q)) :
    Step cfg s s' (.link t) (.link { t with point := q }) x := by
  cases x with
  | go => exact step_link_go h ht hn
  | created id =>
    simp only [Link.next] at hn
    split at hn
    · rename_i sid hp
      split at hn
      · rename_i hid
        simp only [Option.some.injEq] at hn
        split at hn
        · cases hn
          exact step_of_ended h.keeps
        · cases hn
          have hallows : cfg.allows t.orgId (s.count t.orgId) = true := by
            unfold orderly at hx
            simp only [hp] at hx
            exact hx
          have hk : ∀ {pair hand draw : Option Id}, Keeps cfg pair hand draw s ((s.write id {
                orgId := t.orgId
                branchId := some t.branchId
                apiKeyHash := some (cfg.sha256 t.apiKey)
                status := "online" }).note (.linked id t.apiKey)) :=
            fun {_ _ _} => ⟨h.create hid (Option.some_ne_none _) hallows,
              (Effect.create hid).trans (Effect.note (fun _ => nofun) fun _ => nofun)⟩
          refine step_of_link ht hk (fun _ hq => by rw [hp]; exact hq) (fun i hi => ?_) nofun
          cases hi
          refine ⟨⟨_, List.mem_cons_self, rfl⟩, fun {e} he => ?_⟩
          have he' : (s.devices.insert id _).lookup id = some e := he
          rw [AList.lookup_insert] at he'
          cases he'
          exact ⟨rfl, rfl⟩
      · cases hn
    · cases hn
  | lost =>
    cases hp : t.point with
    | start =>
      simp only [Link.next, hp] at hn
      cases hn
      exact step_of_ended h.keeps
    | del sid id =>
      simp only [Link.next, hp] at hn
      cases hn
      exact step_of_link ht h.keeps (fun _ hq => by rw [hp]; exact hq)
        (fun i hi => ht.device (by rw [hp]; exact hi)) nofun
    | setCode sid id =>
      unfold orderly at hx
      simp only [hp] at hx
      cases hx
    | setSession sid id =>
      simp only [Link.next, hp] at hn
      cases hn
      exact step_of_ended (keeps_paired h ht hp)
    | branch | find | update | count | create | ended =>
      simp only [Link.next, hp] at hn
      cases hn
  | fails =>
    obtain ⟨rfl, rfl⟩ := ended_of_fails hn
    exact step_of_ended h.keeps
  | rejected => cases hn

/-- **What is known of a link** while another task makes a step. -/
theorem LinkKnown.mono {u : Link} {pair hand : Option Id} (h : LinkKnown s u)
    (he : Effect pair hand draw s s') (hp : ∀ sid, linking (.link u) = some sid → pair ≠ some sid)
    (hd : ∀ sid, draw = some sid → s.unusedSession sid = true) : LinkKnown s' u where
  session hq := by
    obtain ⟨hu, ⟨n, hf⟩, k, hr⟩ := h.session hq
    exact ⟨he.unpaired hu (hp _ hq), ⟨n, he.log hf⟩, k, he.log hr⟩
  device hq := he.placed (h.device hq)
  overwritten {sid} hq code e hpend := by
    have hs : LinkPoint.session? u.point = some sid := by
      cases hpt : u.point with
      | setSession =>
        rw [hpt] at hq
        exact hq
      | start | branch | find | del | update | count | create | setCode | ended =>
        rw [hpt] at hq
        cases hq
    rcases he.pending hpend with hpend | hdraw
    · exact h.overwritten hq code e hpend
    · obtain ⟨-, -, k, hr⟩ := h.session hs
      exact not_requested_of_unused (hd sid hdraw) hr

/-- **What is known of a claim** while another task makes a step. -/
theorem ClaimKnown.mono {u : Claim} {pair hand : Option Id} (h : ClaimKnown s u)
    (he : Effect pair hand draw s s') (hh : ∀ sid, claiming (.claim u) = some sid → hand ≠ some sid)
    (hp : ∀ sid, pair = some sid → Unpaired s.log sid) : ClaimKnown s' u where
  credentials {c} hq := by
    obtain ⟨⟨o, b, hm, ht⟩, hu⟩ := h.credentials hq
    refine ⟨⟨o, b, he.log hm, ht⟩, he.unhanded hu (hh _ ?_)⟩
    show (ClaimPoint.credentials? u.point).map (fun _ => u.sessionId) = some u.sessionId
    rw [hq]
    rfl
  device hq := h.device hq
  deleted {c d} hq c' hr := by
    rcases he.ready hr with hr | hpair
    · exact h.deleted hq c' hr
    · exact (h.credentials (c := c) (by rw [hq]; rfl)).1.paired (hp _ hpair)

theorem step_of_claim {t : Claim} {q : ClaimPoint} (ht : ClaimKnown s t)
    (hk : ∀ {pair hand draw : Option Id}, Keeps cfg pair hand draw s s')
    (hc : ClaimPoint.credentials? q = ClaimPoint.credentials? t.point)
    (hd : ∀ d, ClaimPoint.device? q = some d → ∀ c, ClaimPoint.credentials? t.point = some c →
      d.orgId = c.sessionToken.oid ∧ d.branchId = some c.sessionToken.bid)
    (hr : ∀ c d, q = .delCode c d → ∀ c', ¬ Ready s' t.sessionId c') :
    Step cfg s s' (.claim t) (.claim { t with point := q }) x := by
  refine ⟨hk, ⟨fun {c} hq => ?_, fun {d} hq c hcr => hd d hq c (hc ▸ hcr), fun {c d} hq => hr c d hq⟩,
    nofun, fun {sid} hq => Or.inl ?_⟩
  · obtain ⟨⟨o, b, hm, htok⟩, hu⟩ := ht.credentials (hc ▸ hq)
    have he : Effect none none none s s' := hk.effect
    exact ⟨⟨o, b, he.log hm, htok⟩, he.unhanded hu nofun⟩
  · have hq' : (ClaimPoint.credentials? q).map (fun _ => t.sessionId) = some sid := hq
    rw [hc] at hq'
    exact hq'

theorem step_of_claimed {t : Claim} (h : Keeps cfg none (claiming (.claim t)) none s s') :
    Step cfg s s' (.claim t) (.claim { t with point := .ended }) x :=
  ⟨h, ⟨nofun, nofun, nofun⟩, nofun, nofun⟩

/-- **The credentials are handed over**, after they have been deleted. -/
theorem keeps_handed {t : Claim} {d : Device} (h : Kept cfg s) (ht : ClaimKnown s t)
    (hp : t.point = .delCode c d) :
    Keeps cfg none (claiming (.claim t)) none s (t.hand s c d) := by
  have hc : ClaimPoint.credentials? t.point = some c := by
    rw [hp]
    rfl
  obtain ⟨hb, hu⟩ := ht.credentials hc
  obtain ⟨ho, hbr⟩ := ht.device (d := d) (by rw [hp]; rfl) c hc
  refine ⟨h.handed hb hu ho hbr (ht.deleted hp), Effect.note (fun _ => nofun) fun i hi => ?_⟩
  show (ClaimPoint.credentials? t.point).map (fun _ => t.sessionId) = some i
  rw [hc, ← eq_of_beq hi]
  rfl

/-- **A step of a claim.** -/
theorem step_claim {t : Claim} {q : ClaimPoint} (h : Kept cfg s) (ht : ClaimKnown s t)
    (hx : orderly cfg s (.claim t) x = true) (hn : t.next cfg s x = some (s', q)) :
    Step cfg s s' (.claim t) (.claim { t with point := q }) x := by
  cases x with
  | go =>
    cases hp : t.point with
    | start =>
      simp only [Claim.next, hp] at hn
      cases hn
      cases hf : (s.session t.sessionId).bind (·.credentials?) with
      | none => exact step_of_claimed h.keeps
      | some c =>
        dsimp only
        obtain ⟨hb, hu⟩ := h.ready (ready_of_session hf)
        have hfind : findsCredentials s (.claim t) = some t.sessionId := by
          simp [findsCredentials, hp, hf]
        split
        · refine ⟨h.keeps, ⟨fun hq => ?_, nofun, nofun⟩, nofun, fun hq => Or.inr ⟨rfl, ?_⟩⟩
          · cases hq
            exact ⟨hb, hu⟩
          · cases hq
            exact hfind
        · refine ⟨h.keeps, ⟨fun hq => ?_, nofun, nofun⟩, nofun, fun hq => Or.inr ⟨rfl, ?_⟩⟩
          · cases hq
            exact ⟨hb, hu⟩
          · cases hq
            exact hfind
    | resolve c =>
      simp only [Claim.next, hp] at hn
      cases hn
      exact step_of_claim ht h.keeps (by rw [hp]; rfl) nofun nofun
    | update c orgId =>
      simp only [Claim.next, hp, Option.some.injEq] at hn
      cases hd : s.devices.lookup c.deviceId with
      | none =>
        simp only [hd] at hn
        cases hn
        exact step_of_claimed h.keeps
      | some d =>
        simp only [hd] at hn
        split at hn
        · cases hn
          exact step_of_claimed h.keeps
        · cases hn
          obtain ⟨⟨o, b, hm, htok⟩, -⟩ := ht.credentials (c := c) (by rw [hp]; rfl)
          obtain ⟨ho, hb⟩ := (h.placed hm).row hd
          refine step_of_claim ht ?_ (by rw [hp]; rfl) (fun e he c' hc' => ?_) nofun
          · refine Keeps.trans ?_ fun hm => hm.keeps_note rfl
            exact h.keeps_write hd rfl rfl
          · rw [hp] at hc'
            cases hc'
            cases he
            rw [htok]
            exact ⟨ho, hb⟩
    | delSession c d =>
      simp only [Claim.next, hp] at hn
      cases hn
      refine step_of_claim ht (h.keeps_del _) (by rw [hp]; rfl) (fun e he => ?_)
        fun _ _ _ c' hr => (ready_del hr).1 rfl
      exact ht.device (by rw [hp]; exact he)
    | delCode c d =>
      simp only [Claim.next, hp] at hn
      cases hn
      refine step_of_claimed ?_
      split
      · exact keeps_handed h ht hp
      · have hk : Keeps cfg none none none s (s.del (.code c.code)) := h.keeps_del _
        have ht' : ClaimKnown (s.del (.code c.code)) t :=
          ht.mono hk.effect (fun _ _ => nofun) fun _ => nofun
        exact Keeps.trans (h.keeps_del _) fun hm => keeps_handed hm ht' hp
    | ended =>
      simp only [Claim.next, hp] at hn
      cases hn
  | rejected =>
    simp only [Claim.next] at hn
    split at hn
    · cases hn
      exact step_of_claimed h.keeps
    · cases hn
  | lost =>
    cases hp : t.point with
    | start =>
      simp only [Claim.next, hp] at hn
      cases hn
      exact step_of_claimed h.keeps
    | delSession c d =>
      unfold orderly at hx
      simp only [hp] at hx
      cases hx
    | delCode c d =>
      simp only [Claim.next, hp] at hn
      cases hn
      exact step_of_claimed (keeps_handed h ht hp)
    | resolve | update | ended =>
      simp only [Claim.next, hp] at hn
      cases hn
  | fails =>
    obtain ⟨rfl, rfl⟩ := ended_of_fails hn
    exact step_of_claimed h.keeps
  | created id => cases hn

/-- A task that pairing does not concern. -/
theorem step_other {t : Task} (hk : Keeps cfg (linking t) (claiming t) (drawing s t) s s')
    (ht : Known s' t') (hl : linking t' = none) (hc : claiming t' = none) :
    Step cfg s s' t t' x :=
  ⟨hk, ht, fun hq => (by rw [hl] at hq; cases hq), fun hq => (by rw [hc] at hq; cases hq)⟩

/-- **One step.** -/
theorem step_next {t : Task} (hs : Kept cfg s) (ht : Known s t) (hx : orderly cfg s t x = true)
    (hn : next cfg s t x = some (s', t')) : Step cfg s s' t t' x := by
  cases t with
  | request t =>
    obtain ⟨⟨m, q⟩, hn', he⟩ := Option.map_eq_some_iff.mp hn
    cases he
    exact step_request hs hx hn'
  | link t =>
    obtain ⟨⟨m, q⟩, hn', he⟩ := Option.map_eq_some_iff.mp hn
    cases he
    exact step_link hs ht hx hn'
  | claim t =>
    obtain ⟨⟨m, q⟩, hn', he⟩ := Option.map_eq_some_iff.mp hn
    cases he
    exact step_claim hs ht hx hn'
  | refresh t =>
    obtain ⟨⟨m, q⟩, hn', he⟩ := Option.map_eq_some_iff.mp hn
    cases he
    exact step_other (keeps_refresh hs hn') trivial rfl rfl
  | check t =>
    obtain ⟨⟨m, q⟩, hn', he⟩ := Option.map_eq_some_iff.mp hn
    cases he
    exact step_other (keeps_check hs hn') trivial rfl rfl
  | webhook t =>
    obtain ⟨⟨m, q⟩, hn', he⟩ := Option.map_eq_some_iff.mp hn
    cases he
    exact step_other (keeps_webhook hs hn') trivial rfl rfl
  | removal t =>
    obtain ⟨⟨m, q⟩, hn', he⟩ := Option.map_eq_some_iff.mp hn
    cases he
    exact step_other (keeps_removal hs hn') trivial rfl rfl

theorem Known.unpaired {t : Task} (h : Known s t) (hl : linking t = some sid) :
    Unpaired s.log sid := by
  cases t with
  | link t => exact (LinkKnown.session h hl).1
  | request | claim | refresh | check | webhook | removal => cases hl

theorem unused_of_drawing {t : Task} (h : drawing s t = some sid) :
    s.unusedSession sid = true := by
  cases t with
  | request t =>
    have h' : (if s.unusedSession t.sessionId then some t.sessionId else none) = some sid := h
    split at h'
    · rename_i hu
      cases h'
      exact hu
    · cases h'
  | link | claim | refresh | check | webhook | removal => cases h

/-- **What a step of a task keeps.** -/
theorem keptBy_next {t : Task} (hs : Kept cfg s) (ht : Known s t) (hx : orderly cfg s t x = true)
    (hn : next cfg s t x = some (s', t')) :
    System.KeptBy (Kept cfg) Known Apart ((inOrder cfg).others s t x) s t s' t' := by
  have hstep := step_next hs ht hx hn
  refine ⟨hstep.keeps.kept, hstep.known, fun {u} hR hu htu _ => ?_⟩
  have hap : Apart t' u := by
    refine ⟨fun sid hl => ?_, fun sid hc => ?_⟩
    · rcases hstep.linking hl with hl | ⟨hg, hf⟩
      · exact htu.1 sid hl
      · exact (hR hg).1 sid hf
    · rcases hstep.claiming hc with hc | ⟨hg, hf⟩
      · exact htu.2 sid hc
      · exact (hR hg).2 sid hf
  refine ⟨?_, hap, hap.symm⟩
  cases u with
  | link u =>
    exact LinkKnown.mono hu hstep.keeps.effect (fun sid hl ht' => htu.1 sid ht' hl)
      fun _ => unused_of_drawing
  | claim u =>
    exact ClaimKnown.mono hu hstep.keeps.effect (fun sid hc ht' => htu.2 sid ht' hc)
      fun _ => ht.unpaired
  | request | refresh | check | webhook | removal => trivial

/-- Time passes. -/
theorem kept_later {n : ℕ} (hs : Kept cfg s) (hw : (displays cfg).world s n = some s') :
    Kept cfg s' ∧ ∀ u : Task, Known s u → Known s' u := by
  cases hw
  have he : Effect none none none s { s with redis := s.redis.later n } :=
    Effect.redis (fun _ _ _ h => Or.inl h) fun _ _ h => Or.inl h
  refine ⟨hs.redis (Nat.le_add_right _ _) (fun _ _ _ h => h) fun _ _ h => h, fun u hu => ?_⟩
  cases u with
  | link u => exact LinkKnown.mono hu he (fun _ _ => nofun) fun _ => nofun
  | claim u => exact ClaimKnown.mono hu he (fun _ _ => nofun) fun _ => nofun
  | request | refresh | check | webhook | removal => trivial

end

/-! ## Runs -/

section

variable {cfg : Deployment} {p p' : Pool Fleet Task}

theorem invariant_of_fresh (h : Fresh p) : System.Invariant (Kept cfg) Known Apart p where
  shared := {
    sound := by
      rw [h.log]
      trivial
    within := fun orgId limit _ => by
      unfold Fleet.count
      rw [h.devices]
      exact Nat.zero_le _
    drawn := fun hm => by
      rw [h.log] at hm
      cases hm
    single := fun hw => by
      obtain ⟨n, hm, -⟩ := hw.requested
      rw [h.log] at hm
      cases hm
    pending := fun hx => by
      have he := hx.1
      rw [h.entries] at he
      cases he
    ready := fun hx => by
      obtain ⟨e, q, he, -⟩ := hx
      rw [h.entries] at he
      cases he
    known := fun hd => by
      rw [h.devices] at hd
      cases hd
    placed := fun hm => by
      rw [h.log] at hm
      cases hm }
  task {i t} hi := by
    have ht := h.begins (List.mem_of_getElem? hi)
    cases t with
    | link t =>
      have hp : t.point = .start := eq_of_beq ht
      refine ⟨fun hq => ?_, fun hq => ?_, fun hq => ?_⟩
      · rw [hp] at hq
        cases hq
      · rw [hp] at hq
        cases hq
      · rw [hp] at hq
        cases hq
    | claim t =>
      have hp : t.point = .start := eq_of_beq ht
      refine ⟨fun hq => ?_, fun hq => ?_, fun hq => ?_⟩
      · rw [hp] at hq
        cases hq
      · rw [hp] at hq
        cases hq
      · rw [hp] at hq
        cases hq
    | request | refresh | check | webhook | removal => trivial
  pair {i j t u} _ hi _ := by
    have ht := h.begins (List.mem_of_getElem? hi)
    cases t with
    | link t =>
      have hp : t.point = .start := eq_of_beq ht
      refine ⟨fun sid hl => ?_, nofun⟩
      have hl' : LinkPoint.session? t.point = some sid := hl
      rw [hp] at hl'
      cases hl'
    | claim t =>
      have hp : t.point = .start := eq_of_beq ht
      refine ⟨nofun, fun sid hc => ?_⟩
      have hc' : (ClaimPoint.credentials? t.point).map (fun _ => t.sessionId) = some sid := hc
      rw [hp] at hc'
      cases hc'
    | request | refresh | check | webhook | removal => exact ⟨nofun, nofun⟩

/-- **One code, one device, one hand-over**, and no more devices than the plan allows. -/
theorem handed_over_once (h0 : Fresh p)
    (h : System.Reaches (displays cfg) (inOrder cfg).Meets p p') :
    AllSound cfg p'.shared.log ∧ Within cfg p'.shared := by
  have hinv := h.invariant (invariant_of_fresh h0)
    (fun _ _ _ _ _ hs ht hx hn => keptBy_next hs ht hx hn) fun _ _ _ hs _ hw => kept_later hs hw
  exact ⟨hinv.shared.sound, hinv.shared.within⟩

end

/-! ## Two televisions -/

def twoBranches : Deployment where
  sha256 := id
  branchOrg id := if id = 10 ∨ id = 11 then some 1 else none
  maxDevices _ := some 2

/-- A television, its code linked to two branches, and its credentials claimed twice. -/
def oneCode : Pool Fleet Task where
  shared := { redis := ⟨0, fun _ => none⟩, devices := ∅, log := [] }
  tasks :=
    [.request { bytes := [0, 1, 2, 3, 4, 5], sessionId := 1 },
      .link { orgId := 1, code := "abcdef", branchId := 10, hex := "k" },
      .link { orgId := 1, code := "abcdef", branchId := 11, hex := "l" },
      .claim { sessionId := 1, deviceFingerprint := none },
      .claim { sessionId := 1, deviceFingerprint := none }]

theorem fresh_oneCode : Fresh oneCode where
  devices := rfl
  entries _ := rfl
  log := rfl
  begins {t} ht := (show ∀ t ∈ oneCode.tasks, t.begins = true by decide) t ht

/-- A task goes on for `n` steps. -/
def moves (i n : ℕ) : List (Label Move ℕ) := List.replicate n (.task i .go)

/-- What the second television is told. -/
def handsOver (sid id : Id) (e : Event) : Bool :=
  match e with
  | .handedOver i j _ _ _ => i == sid && j == id
  | _ => false

instance (cfg : Deployment) (p : Pool Fleet Task) (l : Label Move ℕ) :
    Decidable ((inOrder cfg).Meets p l) :=
  inferInstance

/-- One link after the other, and one claim after the other: the second link is refused, and so is the second
claim. -/
theorem handed_over_once_oneCode : ∃ p' : Pool Fleet Task,
    (AllSound twoBranches p'.shared.log ∧ Within twoBranches p'.shared) ∧
      (p'.shared.log.filter (handsOver 1 5)).length = 1 ∧ p'.shared.count 1 = 1 := by
  obtain ⟨p', hreach, hp⟩ := System.exists_meets (S := displays twoBranches) (inOrder twoBranches)
    oneCode (moves 0 2 ++ moves 1 3 ++ [.task 1 (.created 5)] ++ moves 1 2 ++ moves 2 1 ++
      moves 3 4 ++ moves 4 1)
    (fun p => decide ((p.shared.log.filter (handsOver 1 5)).length = 1) &&
      decide (p.shared.count 1 = 1))
    (by decide +kernel)
  obtain ⟨hh, hc⟩ := Bool.and_eq_true_iff.mp hp
  exact ⟨p', handed_over_once fresh_oneCode hreach, of_decide_eq_true hh, of_decide_eq_true hc⟩

/-- **Not every run hands over once**: two links that overlap both find the code, and both succeed. -/
theorem exists_paired_twice : ¬ ∀ (cfg : Deployment) (p p' : Pool Fleet Task), Fresh p →
    System.Reaches (displays cfg) (fun _ _ => True) p p' →
      AllSound cfg p'.shared.log ∧ Within cfg p'.shared := by
  intro h
  obtain ⟨p', hreach, hp⟩ := System.exists_reaches (S := displays twoBranches)
    (P := fun _ _ => True) (fun _ _ => true) (fun _ _ _ => trivial) oneCode
    (moves 0 2 ++ moves 1 1 ++ moves 2 3 ++ [.task 2 (.created 6)] ++ moves 1 2 ++
      [.task 1 (.created 5)] ++ moves 1 2 ++ moves 2 2)
    (fun p => decide (p.shared.log.take 2 = [.paired 1 1 11 6 "dsp_l", .paired 1 1 10 5 "dsp_k"]))
    (by decide +kernel)
  have hl := (h _ _ _ fresh_oneCode hreach).1
  rw [← List.take_append_drop 2 p'.shared.log, of_decide_eq_true hp] at hl
  exact List.any_eq_false.mp hl.1.1 _ List.mem_cons_self (beq_self_eq_true 1)

end PatronLoyalty.Display.Pairing
