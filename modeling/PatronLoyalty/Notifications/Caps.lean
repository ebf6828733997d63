import PatronLoyalty.Async.Pool
import PatronLoyalty.Async.Redis
import PatronLoyalty.Loyalty.Referral

/-!
# Caps on the frequency of text messages

`NotificationService.send` of a text message, as far as it counts: `enforceA2pRegistrationPolicy` counts the
messages of an unregistered organisation in each second, and `enforceTransactionalSmsFrequencyCaps` those
of a ticket and of an appointment. A counter is incremented, and whoever finds it at one sets it again, with an
expiry; these are two commands. A send may be stopped anywhere, a `SETEX` may be lost, and an `INCR` may
fail after it has been made.

`since k`: how many have passed counter `k` since it was created, `total k`: how many in all. Headline:
**`caps_kept`**, in runs whose counters are created without disturbance.
-/

namespace PatronLoyalty.Notifications

open Async
open Loyalty (Id trim)

/-! ## Counters -/

inductive Key
  | throttle (orgId : Id) (bucket : ℕ)
  | ticket (orgId : Id) (ticketId : String)
  | appointment (orgId : Id) (appointmentId : String)
  deriving DecidableEq, Repr

/-- `TXN_SMS_TICKET_CAP`, `TXN_SMS_APPOINTMENT_CAP`, and one message in a second. -/
def Key.cap : Key → ℕ
  | .throttle .. => 1
  | .ticket .. | .appointment .. => 3

/-- The seconds for which a counter counts. -/
def Key.ttl : Key → ℕ
  | .throttle .. => 2
  | .ticket .. | .appointment .. => 60 * 60 * 12

def Key.message : Key → String
  | .throttle .. =>
    "SMS is temporarily throttled while A2P registration is pending/unregistered " ++
      "(max 1 message/second)."
  | .ticket _ ticketId =>
    "Transactional SMS cap reached for ticket " ++ ticketId ++ " (max 3 per active ticket)."
  | .appointment _ appointmentId =>
    "Transactional SMS cap reached for appointment " ++ appointmentId ++
      " (max 3 per appointment window)."

/-! ## Sends -/

/-- The value of `sms_a2p_registration_status`: a text, an object with a `status`, or something else. -/
inductive SettingValue
  | text (value : String)
  | object (status : Option String)
  | other
  deriving DecidableEq, Repr

def normalizeA2pStatus (raw : Option String) : String :=
  (raw.map fun value => (trim value).toUpper).getD "UNREGISTERED"

def getOrgA2pStatus : Option SettingValue → String
  | some (.text value) => normalizeA2pStatus (some value)
  | some (.object status) => normalizeA2pStatus status
  | some .other | none => "UNREGISTERED"

/-- What `send` is asked for, of a text message, and the country of the organisation. -/
structure SmsData where
  orgId : Id
  country : Option String := some "US"
  transactional : Bool := true
  ticketId : Option String := none
  appointmentId : Option String := none
  deriving DecidableEq, Repr

/-- Where a send stands: before this command. -/
inductive Point
  | setting
  | incr (key : Key)
  | set (key : Key)
  /-- `assertCanSendSms` and `assertNotSuppressed`. -/
  | checks
  | accepted
  | refused (message : String)
  | stopped
  deriving DecidableEq, Repr

structure Send where
  data : SmsData
  point : Point := .setting
  deriving DecidableEq, Repr

/-- The counters, the settings, and what has passed. -/
structure Caps where
  redis : Redis Key ℕ
  settings : Id → Option SettingValue
  since : Key → ℕ
  total : Key → ℕ

/-- A text that is not blank. -/
def nonblank (value : Option String) : Option String := value.filter fun v => trim v != ""

def appointmentCap (d : SmsData) : Point :=
  match nonblank d.appointmentId with
  | some appointmentId => .incr (.appointment d.orgId appointmentId)
  | none => .accepted

/-- `enforceTransactionalSmsFrequencyCaps`. -/
def frequencyCaps (d : SmsData) : Point :=
  match nonblank d.ticketId with
  | some ticketId => .incr (.ticket d.orgId ticketId)
  | none => appointmentCap d

/-- `enforceA2pRegistrationPolicy`, up to its counter. -/
def enforceA2pRegistrationPolicy (s : Caps) (d : SmsData) : Point :=
  if d.country.map String.toUpper ≠ some "US" then .checks
  else
    let status := getOrgA2pStatus (s.settings d.orgId)
    if status = "APPROVED" then .checks
    else if status = "REJECTED" ∨ status = "SUSPENDED" then
      .refused ("SMS is blocked because your A2P registration status is " ++ status ++
        ". Update registration status before sending.")
    else .incr (.throttle d.orgId (s.redis.now / 1000))

def afterCounter (d : SmsData) : Key → Point
  | .throttle .. => .checks
  | .ticket .. => appointmentCap d
  | .appointment .. => .accepted

/-- A send has passed the counter. -/
def Caps.pass (s : Caps) (k : Key) : Caps :=
  { s with
    since := Function.update s.since k (s.since k + 1)
    total := Function.update s.total k (s.total k + 1) }

/-- `if (count > cap) throw`. -/
def checkCount (s : Caps) (t : Send) (k : Key) (count : ℕ) : Caps × Send :=
  if k.cap < count then (s, { t with point := .refused k.message })
  else (s.pass k, { t with point := afterCounter t.data k })

/-- The store after `INCR`. -/
def Caps.incremented (s : Caps) (k : Key) : Caps :=
  { s with
    redis := (s.redis.incr k).2
    since := if s.redis.live k = none then Function.update s.since k 0 else s.since }

/-- What a send meets at its next command. -/
inductive Move
  | go
  | refuse (message : String)
  /-- `INCR` fails, before or after it has been made. -/
  | fails (made : Bool)
  /-- `SETEX` is lost. -/
  | lost
  /-- The process dies. -/
  | stop
  deriving DecidableEq, Repr

/-- **One step of a send.** -/
def next (s : Caps) (t : Send) : Move → Option (Caps × Send)
  | .go =>
    match t.point with
    | .setting => some (s, { t with point := enforceA2pRegistrationPolicy s t.data })
    | .incr k =>
      if (s.redis.incr k).1 = 1 then some (s.incremented k, { t with point := .set k })
      else some (checkCount (s.incremented k) t k (s.redis.incr k).1)
    | .set k => some (checkCount { s with redis := s.redis.setex k k.ttl 1 } t k 1)
    | .checks =>
      some (s, { t with point := if t.data.transactional then frequencyCaps t.data else .accepted })
    | .accepted | .refused _ | .stopped => none
  | .refuse message =>
    if t.point = .checks then some (s, { t with point := .refused message }) else none
  | .fails made =>
    match t.point with
    | .incr k =>
      some (if made then s.incremented k else s, { t with point := .refused "Command timed out" })
    | _ => none
  | .lost =>
    match t.point with
    | .set k => some (checkCount s t k 1)
    | _ => none
  | .stop => some (s, { t with point := .stopped })

/-- What happens without a send. -/
inductive Surroundings
  | later (ms : ℕ)
  | setting (orgId : Id) (value : Option SettingValue)

/-- **Sends that count together.** -/
def sending : System Caps Send Move Surroundings where
  next := next
  world s
    | .later ms => some { s with redis := s.redis.later ms }
    | .setting orgId value => some { s with settings := Function.update s.settings orgId value }

/-! ## The condition on a step -/

variable {s s' : Caps} {t t' u : Send} {k k' : Key} {x : Move}

/-- The counter is not being created. -/
def Settled (s : Caps) (k : Key) : Prop := ∀ e, s.redis.live k = some e → e.expiresAt ≠ none

/-- A message is counted in the second it is of, and no ticket or appointment while its counter is being
created. -/
def Timely (s : Caps) : Key → Prop
  | .throttle _ bucket => s.redis.now / 1000 = bucket
  | k => Settled s k

/-- The condition on a step, before which the send stands here. -/
def UndisturbedAt (s : Caps) (x : Move) : Point → Prop
  | .incr k => (x = .go → Timely s k) ∧ (x = .fails true → s.redis.live k ≠ none)
  | .set _ => x = .go
  | _ => True

/-- **The condition on a step**: counters are incremented in time, and whoever creates one sets it. -/
def Undisturbed (s : Caps) (t : Send) (x : Move) : Prop := UndisturbedAt s x t.point

instance : DecidablePred (Settled s) := fun k =>
  decidable_of_iff ((s.redis.live k).all (·.expiresAt.isSome) = true) (by
    unfold Settled
    cases s.redis.live k <;> simp [Option.isSome_iff_ne_none])

instance : DecidablePred (Timely s)
  | .throttle _ bucket => inferInstanceAs (Decidable (s.redis.now / 1000 = bucket))
  | .ticket orgId ticketId => inferInstanceAs (Decidable (Settled s (.ticket orgId ticketId)))
  | .appointment orgId appointmentId =>
    inferInstanceAs (Decidable (Settled s (.appointment orgId appointmentId)))

instance : DecidablePred (UndisturbedAt s x)
  | .incr k => inferInstanceAs (Decidable
      ((x = .go → Timely s k) ∧ (x = .fails true → s.redis.live k ≠ none)))
  | .set _ => inferInstanceAs (Decidable (x = .go))
  | .setting | .checks | .accepted | .refused _ | .stopped => .isTrue trivial

instance : Decidable (Undisturbed s t x) := inferInstanceAs (Decidable (UndisturbedAt s x t.point))

/-! ## What a step does -/

def Caps.write (s : Caps) (k : Key) (e : Entry ℕ) (n m : ℕ) : Caps :=
  { s with
    redis := s.redis.put k e
    since := Function.update s.since k n
    total := Function.update s.total k m }

section

variable (s : Caps) (k : Key) (e : Entry ℕ) (n m : ℕ)

@[simp] theorem since_write_self : (s.write k e n m).since k = n := Function.update_self _ _ _

@[simp] theorem total_write_self : (s.write k e n m).total k = m := Function.update_self _ _ _

@[simp] theorem entries_write_self : (s.write k e n m).redis.entries k = some e :=
  Redis.entries_put_self

variable {k}

theorem since_write_ne (h : k' ≠ k) : (s.write k e n m).since k' = s.since k' :=
  Function.update_of_ne h _ _

theorem total_write_ne (h : k' ≠ k) : (s.write k e n m).total k' = s.total k' :=
  Function.update_of_ne h _ _

theorem entries_write_ne (h : k' ≠ k) :
    (s.write k e n m).redis.entries k' = s.redis.entries k' := Redis.entries_put_ne h

end

/-- A counter that is created. -/
theorem incremented_of_none (h : s.redis.live k = none) :
    (s.redis.incr k).1 = 1 ∧ s.incremented k = s.write k { value := 1 } 0 (s.total k) := by
  simp [Caps.incremented, Caps.write, Redis.incr, h]

/-- A counter that counts on. -/
theorem incremented_of_some {e : Entry ℕ} (h : s.redis.live k = some e) :
    (s.redis.incr k).1 = e.value + 1 ∧
      s.incremented k = s.write k { e with value := e.value + 1 } (s.since k) (s.total k) := by
  simp [Caps.incremented, Caps.write, Redis.incr, h]

theorem pass_write (s : Caps) (k : Key) (e : Entry ℕ) (n m : ℕ) :
    (s.write k e n m).pass k = s.write k e (n + 1) (m + 1) := by
  simp [Caps.write, Caps.pass]

theorem setex_eq_write (s : Caps) (k : Key) :
    { s with redis := s.redis.setex k k.ttl 1 } = s.write k
      { value := 1, expiresAt := some (s.redis.now + 1000 * k.ttl) } (s.since k) (s.total k) := by
  simp [Caps.write, Redis.setex]

/-! ## The invariant -/

structure Bounded (s : Caps) : Prop where
  cap (k : Key) : s.since k ≤ k.cap
  value {k : Key} {e : Entry ℕ} : s.redis.entries k = some e → 1 ≤ e.value ∧ s.since k ≤ e.value
  once (orgId : Id) (b : ℕ) : s.total (.throttle orgId b) ≤ 1
  /-- The counter of a second outlives it. -/
  lasts {orgId : Id} {b : ℕ} : s.total (.throttle orgId b) ≠ 0 →
    ∃ e, s.redis.entries (.throttle orgId b) = some e ∧
      ∀ x, e.expiresAt = some x → (b + 2) * 1000 ≤ x

structure Creating (s : Caps) (k : Key) : Prop where
  entry : ∃ v, s.redis.entries k = some { value := v } ∧ 1 ≤ v
  since : s.since k = 0
  total {orgId : Id} {b : ℕ} : k = .throttle orgId b → s.total k = 0

def Standing (s : Caps) (t : Send) : Prop :=
  (∀ k, t.point = .set k → Creating s k) ∧
    ∀ orgId b, t.point = .incr (.throttle orgId b) ∨ t.point = .set (.throttle orgId b) →
      b * 1000 ≤ s.redis.now

/-- No counter is created by two. -/
def Apart (t u : Send) : Prop := ∀ k, t.point = .set k → u.point ≠ .set k

theorem Creating.live (h : Creating s k) :
    ∃ v, s.redis.live k = some { value := v } := by
  obtain ⟨v, he, -⟩ := h.entry
  exact ⟨v, Redis.live_eq_some.mpr ⟨he, fun t ht => by cases ht⟩⟩

theorem Creating.ne (h : Creating s k') (hk : Settled s k) : k' ≠ k := by
  rintro rfl
  obtain ⟨v, hv⟩ := h.live
  exact hk _ hv rfl

theorem settled_of_none (h : s.redis.live k = none) : Settled s k := by
  intro e he
  rw [h] at he
  cases he

/-- A counter somewhere else. -/
theorem Creating.write (h : Creating s k') (hne : k' ≠ k) (e : Entry ℕ) (n m : ℕ) :
    Creating (s.write k e n m) k' where
  entry := by
    rw [entries_write_ne s e n m hne]
    exact h.entry
  since := (since_write_ne s e n m hne).trans h.since
  total hk := (total_write_ne s e n m hne).trans (h.total hk)

/-- **A counter that is written** within its bounds. -/
theorem Bounded.write (h : Bounded s) {e : Entry ℕ} {n m : ℕ} (hn : n ≤ k.cap) (hv : 1 ≤ e.value)
    (hnv : n ≤ e.value) (hm : ∀ orgId b, k = .throttle orgId b →
      m ≤ 1 ∧ (m ≠ 0 → ∀ x, e.expiresAt = some x → (b + 2) * 1000 ≤ x)) :
    Bounded (s.write k e n m) where
  cap k' := by
    by_cases hk : k' = k
    · subst hk
      rw [since_write_self]
      exact hn
    · rw [since_write_ne s e n m hk]
      exact h.cap k'
  value {k' e'} he := by
    by_cases hk : k' = k
    · subst hk
      rw [entries_write_self] at he
      cases he
      rw [since_write_self]
      exact ⟨hv, hnv⟩
    · rw [entries_write_ne s e n m hk] at he
      rw [since_write_ne s e n m hk]
      exact h.value he
  once orgId b := by
    by_cases hk : Key.throttle orgId b = k
    · subst hk
      rw [total_write_self]
      exact (hm orgId b rfl).1
    · rw [total_write_ne s e n m hk]
      exact h.once orgId b
  lasts {orgId b} hne := by
    by_cases hk : Key.throttle orgId b = k
    · subst hk
      rw [total_write_self] at hne
      exact ⟨e, entries_write_self _ _ _ _ _, (hm orgId b rfl).2 hne⟩
    · rw [total_write_ne s e n m hk] at hne
      rw [entries_write_ne s e n m hk]
      exact h.lasts hne

theorem Standing.write {e : Entry ℕ} {n m : ℕ} (h : Standing s u)
    (hk : u.point = .set k → Creating (s.write k e n m) k) : Standing (s.write k e n m) u where
  left k' hk' := by
    by_cases hkk : k' = k
    · subst hkk
      exact hk hk'
    · exact (h.1 k' hk').write hkk e n m
  right := h.2

/-- The counter of a second is there throughout it. -/
theorem Bounded.total_of_none (h : Bounded s) (hl : s.redis.live k = none) (hk : Timely s k)
    {orgId : Id} {b : ℕ} (hkey : k = .throttle orgId b) : s.total k = 0 := by
  subst hkey
  by_contra hne
  obtain ⟨e, he, hx⟩ := h.lasts hne
  have hlive : s.redis.live (.throttle orgId b) = some e := by
    refine Redis.live_eq_some.mpr ⟨he, fun x hex => ?_⟩
    have hb : s.redis.now / 1000 = b := hk
    have hle := hx x hex
    omega
  rw [hl] at hlive
  cases hlive

/-! ## Points that are no commands on counters -/

def Point.free : Point → Bool
  | .incr (.throttle ..) | .set _ => false
  | _ => true

theorem standing_of_free (h : t.point.free = true) : Standing s t := by
  constructor
  · intro k hk
    rw [hk] at h
    cases h
  · rintro orgId b (hk | hk) <;>
    · rw [hk] at h
      cases h

theorem apart_of_ne (h : ∀ k, t.point ≠ .set k) : Apart t u ∧ Apart u t :=
  ⟨fun k hk => absurd hk (h k), fun k _ hk => h k hk⟩

theorem ne_set_of_free (h : t.point.free = true) (k : Key) : t.point ≠ .set k := by
  intro hk
  rw [hk] at h
  cases h

theorem free_appointmentCap (d : SmsData) : (appointmentCap d).free = true := by
  unfold appointmentCap
  split <;> rfl

theorem free_frequencyCaps (d : SmsData) : (frequencyCaps d).free = true := by
  unfold frequencyCaps
  split
  · rfl
  · exact free_appointmentCap d

theorem free_afterCounter (d : SmsData) (k : Key) : (afterCounter d k).free = true := by
  cases k with
  | throttle => rfl
  | ticket => exact free_appointmentCap d
  | appointment => rfl

theorem free_checkCount (s : Caps) (t : Send) (k : Key) (n : ℕ) :
    (checkCount s t k n).2.point.free = true := by
  unfold checkCount
  split
  · rfl
  · exact free_afterCounter _ _

/-- A step that leaves the counters. -/
theorem keptBy_of_free (hs : Bounded s) (h : t'.point.free = true) :
    System.KeptBy Bounded Standing Apart (fun _ => True) s t s t' where
  shared := hs
  task := standing_of_free h
  others _ hu _ _ := ⟨hu, apart_of_ne (ne_set_of_free h)⟩

theorem enforceA2pRegistrationPolicy_cases (s : Caps) (d : SmsData) :
    (enforceA2pRegistrationPolicy s d).free = true ∨
      enforceA2pRegistrationPolicy s d = .incr (.throttle d.orgId (s.redis.now / 1000)) := by
  unfold enforceA2pRegistrationPolicy
  dsimp only
  split
  · exact Or.inl rfl
  · split
    · exact Or.inl rfl
    · split
      · exact Or.inl rfl
      · exact Or.inr rfl

/-- The status of the organisation is read. -/
theorem keptBy_setting (hs : Bounded s) : System.KeptBy Bounded Standing Apart (fun _ => True) s t s
    { t with point := enforceA2pRegistrationPolicy s t.data } := by
  rcases enforceA2pRegistrationPolicy_cases s t.data with h | h
  · exact keptBy_of_free hs h
  · rw [h]
    refine ⟨hs, ⟨fun k hk => (by cases hk), fun orgId b hk => ?_⟩,
      fun _ hu _ _ => ⟨hu, apart_of_ne fun k hk => (by cases hk)⟩⟩
    rcases hk with hk | hk
    · cases hk
      exact Nat.div_mul_le_self _ _
    · cases hk

/-! ## Steps -/

theorem keptBy_created (hs : Bounded s) (ht : Standing s t) (hp : t.point = .incr k)
    (hl : s.redis.live k = none) (hk : Timely s k) :
    System.KeptBy Bounded Standing Apart (fun _ => True) s t (s.incremented k) { t with point := .set k } := by
  have htotal {orgId : Id} {b : ℕ} (hkey : k = .throttle orgId b) : s.total k = 0 :=
    hs.total_of_none hl hk hkey
  have hcreating : Creating (s.write k { value := 1 } 0 (s.total k)) k :=
    ⟨⟨1, entries_write_self _ _ _ _ _, Nat.le_refl 1⟩, since_write_self _ _ _ _ _, fun hkey =>
      (total_write_self _ _ _ _ _).trans (htotal hkey)⟩
  -- Nobody else is about to set the counter.
  have hnone : ∀ {u : Send}, Standing s u → u.point ≠ .set k := fun hu he =>
    (hu.1 k he).ne (settled_of_none hl) rfl
  rw [(incremented_of_none hl).2]
  refine ⟨hs.write (Nat.zero_le _) (Nat.le_refl 1) (Nat.zero_le _) fun orgId b hkey => ?_, ⟨?_, ?_⟩,
    fun _ hu _ _ => ⟨hu.write fun he => absurd he (hnone hu), ?_, ?_⟩⟩
  · rw [htotal hkey]
    exact ⟨Nat.zero_le _, fun h0 => absurd rfl h0⟩
  · rintro k' hk'
    cases hk'
    exact hcreating
  · rintro orgId b (hk' | hk')
    · cases hk'
    · cases hk'
      exact ht.2 orgId b (Or.inl hp)
  · rintro k' hk' he
    cases hk'
    exact hnone hu he
  · rintro k' he hk'
    cases hk'
    exact hnone hu he

theorem Creating.counted {e : Entry ℕ} (h : Creating s k) (hl : s.redis.live k = some e) :
    Creating (s.write k { e with value := e.value + 1 } (s.since k) (s.total k)) k where
  entry := by
    obtain ⟨v, he, -⟩ := h.entry
    cases he.symm.trans (Redis.live_eq_some.mp hl).1
    exact ⟨_, entries_write_self _ _ _ _ _, Nat.le_add_left 1 v⟩
  since := (since_write_self _ _ _ _ _).trans h.since
  total hk := (total_write_self _ _ _ _ _).trans (h.total hk)

theorem Bounded.counted {e : Entry ℕ} (hs : Bounded s) (hl : s.redis.live k = some e) {orgId : Id}
    {b : ℕ} (hkey : k = .throttle orgId b) :
    s.total k ≤ 1 ∧ (s.total k ≠ 0 → ∀ x, e.expiresAt = some x → (b + 2) * 1000 ≤ x) := by
  subst hkey
  refine ⟨hs.once orgId b, fun hne x hx => ?_⟩
  obtain ⟨e', he, hle⟩ := hs.lasts hne
  cases he.symm.trans (Redis.live_eq_some.mp hl).1
  exact hle x hx

theorem keptBy_counted {e : Entry ℕ} (hs : Bounded s) (hl : s.redis.live k = some e)
    (hf : t'.point.free = true) :
    System.KeptBy Bounded Standing Apart (fun _ => True) s t (s.incremented k) t' := by
  have hv := hs.value (Redis.live_eq_some.mp hl).1
  rw [(incremented_of_some hl).2]
  exact ⟨hs.write (hs.cap k) (Nat.le_add_left 1 _) (Nat.le_succ_of_le hv.2) fun orgId b hkey =>
    hs.counted hl hkey, standing_of_free hf, fun _ hu _ _ => ⟨hu.write fun he =>
      (hu.1 k he).counted hl, apart_of_ne (ne_set_of_free hf)⟩⟩

theorem keptBy_passed {e : Entry ℕ} (hs : Bounded s) (hk : Timely s k)
    (hl : s.redis.live k = some e) (hle : e.value + 1 ≤ k.cap) (hf : t'.point.free = true) :
    System.KeptBy Bounded Standing Apart (fun _ => True) s t ((s.incremented k).pass k) t' := by
  have hv := hs.value (Redis.live_eq_some.mp hl).1
  have hnot : ∀ {orgId : Id} {b : ℕ}, k ≠ .throttle orgId b := by
    rintro orgId b rfl
    have h1 : e.value + 1 ≤ 1 := hle
    omega
  have hsettled : Settled s k := by
    cases k with
    | throttle => exact absurd rfl hnot
    | ticket => exact hk
    | appointment => exact hk
  rw [(incremented_of_some hl).2, pass_write]
  refine ⟨hs.write (Nat.le_trans (Nat.succ_le_succ hv.2) hle) (Nat.le_add_left 1 _)
    (Nat.succ_le_succ hv.2) fun orgId b hkey => absurd hkey hnot, standing_of_free hf,
      fun _ hu _ _ => ⟨hu.write fun he => absurd rfl ((hu.1 k he).ne hsettled),
        apart_of_ne (ne_set_of_free hf)⟩⟩

/-- Two seconds from now, a second that has begun is over. -/
theorem outlives {b n : ℕ} (h : b * 1000 ≤ n) : (b + 2) * 1000 ≤ n + 1000 * 2 := by
  rw [Nat.add_mul]
  exact Nat.add_le_add_right h _

theorem keptBy_set (hs : Bounded s) (ht : Standing s t) (hp : t.point = .set k)
    (hf : t'.point.free = true) : System.KeptBy Bounded Standing Apart (fun _ => True) s t
      (({ s with redis := s.redis.setex k k.ttl 1 } : Caps).pass k) t' := by
  have hc := ht.1 k hp
  rw [setex_eq_write, pass_write, hc.since]
  have hcap : 0 + 1 ≤ k.cap := by
    cases k <;> simp [Key.cap]
  refine ⟨hs.write hcap (Nat.le_refl 1) (Nat.le_refl 1) fun orgId b hkey => ?_,
    standing_of_free hf, fun _ hu htu _ => ⟨hu.write fun he => absurd he (htu k hp),
      apart_of_ne (ne_set_of_free hf)⟩⟩
  rw [hc.total hkey]
  subst hkey
  refine ⟨Nat.le_refl 1, fun _ x hx => ?_⟩
  rw [← Option.some.inj hx]
  exact outlives (ht.2 orgId b (Or.inr hp))

theorem keptBy_checkCount {e : Entry ℕ} (hs : Bounded s) (hk : Timely s k)
    (hl : s.redis.live k = some e) (hc : checkCount (s.incremented k) t k (e.value + 1) = (s', t')) :
    System.KeptBy Bounded Standing Apart (fun _ => True) s t s' t' := by
  have hf : t'.point.free = true := by
    have h := free_checkCount (s.incremented k) t k (e.value + 1)
    rw [hc] at h
    exact h
  unfold checkCount at hc
  split at hc
  · cases hc
    exact keptBy_counted hs hl hf
  · rename_i hle
    cases hc
    exact keptBy_passed hs hk hl (Nat.le_of_not_lt hle) hf

/-- **One step.** -/
theorem keptBy_next (hs : Bounded s) (ht : Standing s t) (hx : Undisturbed s t x)
    (hn : next s t x = some (s', t')) : System.KeptBy Bounded Standing Apart (fun _ => True) s t s' t' := by
  unfold Undisturbed at hx
  cases hp : t.point with
  | setting =>
    cases x with
    | go =>
      simp only [next, hp] at hn
      cases hn
      exact keptBy_setting hs
    | stop =>
      cases hn
      exact keptBy_of_free hs rfl
    | _ => simp [next, hp] at hn
  | incr k =>
    rw [hp] at hx
    cases x with
    | go =>
      simp only [next, hp] at hn
      cases hl : s.redis.live k with
      | none =>
        rw [if_pos (incremented_of_none hl).1] at hn
        cases hn
        exact keptBy_created hs ht hp hl (hx.1 rfl)
      | some e =>
        have hv := (hs.value (Redis.live_eq_some.mp hl).1).1
        rw [if_neg (by rw [(incremented_of_some hl).1]; omega), (incremented_of_some hl).1] at hn
        exact keptBy_checkCount hs (hx.1 rfl) hl (Option.some.inj hn)
    | fails made =>
      simp only [next, hp] at hn
      cases hn
      cases made with
      | false => exact keptBy_of_free hs rfl
      | true =>
        cases hl : s.redis.live k with
        | none => exact absurd hl (hx.2 rfl)
        | some e => exact keptBy_counted hs hl rfl
    | stop =>
      cases hn
      exact keptBy_of_free hs rfl
    | _ => simp [next, hp] at hn
  | set k =>
    rw [hp] at hx
    subst hx
    simp only [next, hp] at hn
    have hcap : ¬ k.cap < 1 := by
      cases k <;> simp [Key.cap]
    unfold checkCount at hn
    rw [if_neg hcap] at hn
    cases hn
    exact keptBy_set hs ht hp (free_afterCounter _ _)
  | checks =>
    cases x with
    | go =>
      simp only [next, hp] at hn
      cases hn
      refine keptBy_of_free hs ?_
      show (if t.data.transactional = true then frequencyCaps t.data else .accepted).free = true
      split
      · exact free_frequencyCaps _
      · rfl
    | refuse message =>
      simp only [next, hp, if_true] at hn
      cases hn
      exact keptBy_of_free hs rfl
    | stop =>
      cases hn
      exact keptBy_of_free hs rfl
    | _ => simp [next, hp] at hn
  | _ =>
    cases x with
    | stop =>
      cases hn
      exact keptBy_of_free hs rfl
    | _ => simp [next, hp] at hn

/-! ## Who creates a counter -/

/-- The counter has no expiry. -/
def Unexpiring (s : Caps) (k : Key) : Prop :=
  ∃ e, s.redis.live k = some e ∧ e.expiresAt = none

theorem live_write_ne {e : Entry ℕ} {n m : ℕ} (h : k' ≠ k) :
    (s.write k e n m).redis.live k' = s.redis.live k' := Redis.live_put_ne h

/-- A counter without an expiry, once a send has counted. -/
theorem unexpired_of_incremented {e : Entry ℕ} (he : (s.incremented k').redis.live k = some e)
    (hno : e.expiresAt = none) :
    (k = k' ∧ s.redis.live k = none) ∨ Unexpiring s k := by
  by_cases hk : k = k'
  · subst hk
    cases hl : s.redis.live k with
    | none => exact Or.inl ⟨rfl, rfl⟩
    | some e' =>
      rw [(incremented_of_some hl).2, Redis.live_eq_some, entries_write_self] at he
      cases he.1
      exact Or.inr ⟨e', hl, hno⟩
  · cases hl : s.redis.live k' with
    | none =>
      rw [(incremented_of_none hl).2, live_write_ne hk] at he
      exact Or.inr ⟨e, he, hno⟩
    | some e' =>
      rw [(incremented_of_some hl).2, live_write_ne hk] at he
      exact Or.inr ⟨e, he, hno⟩

theorem live_checkCount (n : ℕ) (hc : checkCount s t k' n = (s', t')) :
    s'.redis.live k = s.redis.live k := by
  unfold checkCount at hc
  split at hc
  · cases hc
    rfl
  · cases hc
    rfl

/-- Only the commands on counters change the store. -/
theorem shared_of_next (hi : ∀ k, t.point ≠ .incr k) (hk : ∀ k, t.point ≠ .set k)
    (hn : next s t x = some (s', t')) : s' = s := by
  cases x with
  | go =>
    cases hp : t.point with
    | incr k => exact absurd hp (hi k)
    | set k => exact absurd hp (hk k)
    | setting =>
      simp only [next, hp] at hn
      cases hn
      rfl
    | checks =>
      simp only [next, hp] at hn
      cases hn
      rfl
    | _ => simp [next, hp] at hn
  | refuse message =>
    simp only [next] at hn
    split at hn
    · cases hn
      rfl
    · cases hn
  | fails made =>
    simp only [next] at hn
    cases hn
  | lost =>
    simp only [next] at hn
    cases hn
  | stop =>
    cases hn
    rfl

/-- **A counter that has no expiry after a step** is created in it, or had none before, and then the step
is not that of the send that sets it. -/
theorem next_unexpiring (hx : Undisturbed s t x) (hn : next s t x = some (s', t'))
    (h : Unexpiring s' k) : t'.point = .set k ∨ Unexpiring s k ∧ t.point ≠ .set k := by
  obtain ⟨e, he, hno⟩ := h
  unfold Undisturbed at hx
  cases hp : t.point with
  | incr k' =>
    rw [hp] at hx
    refine Or.imp_right (fun h => ⟨h, fun hk => (by cases hk)⟩) ?_
    cases x with
    | go =>
      simp only [next, hp] at hn
      split at hn
      · cases hn
        rcases unexpired_of_incremented he hno with ⟨rfl, -⟩ | h
        · exact Or.inl rfl
        · exact Or.inr h
      · rename_i hne
        rw [live_checkCount _ (Option.some.inj hn)] at he
        rcases unexpired_of_incremented he hno with ⟨rfl, hnone⟩ | h
        · exact absurd (incremented_of_none hnone).1 hne
        · exact Or.inr h
    | fails made =>
      simp only [next, hp] at hn
      cases hn
      cases made with
      | false => exact Or.inr ⟨e, he, hno⟩
      | true =>
        rcases unexpired_of_incremented he hno with ⟨rfl, hnone⟩ | h
        · exact absurd hnone (hx.2 rfl)
        · exact Or.inr h
    | stop =>
      cases hn
      exact Or.inr ⟨e, he, hno⟩
    | _ => simp [next, hp] at hn
  | set k' =>
    rw [hp] at hx
    subst hx
    simp only [next, hp] at hn
    rw [live_checkCount _ (Option.some.inj hn)] at he
    by_cases hk : k = k'
    · subst hk
      rw [setex_eq_write, Redis.live_eq_some, entries_write_self] at he
      cases he.1
      cases hno
    · rw [setex_eq_write, live_write_ne hk] at he
      exact Or.inr ⟨⟨e, he, hno⟩, fun hk' => hk (by cases hk'; rfl)⟩
  | _ =>
    obtain rfl := shared_of_next (by simp [hp]) (by simp [hp]) hn
    exact Or.inr ⟨⟨e, he, hno⟩, fun hk => (by cases hk)⟩

/-! ## Runs -/

/-- Nothing has been counted. -/
def Fresh (p : Pool Caps Send) : Prop :=
  (∀ k, p.shared.redis.entries k = none ∧ p.shared.since k = 0 ∧ p.shared.total k = 0) ∧
    ∀ t ∈ p.tasks, t.point = .setting

/-- **The caps hold**: since the counter of a ticket or an appointment was created at most three have
passed, a counter that has no expiry is being created, and of one second at most one has passed. -/
structure CapsHold (p : Pool Caps Send) : Prop where
  cap (k : Key) : p.shared.since k ≤ k.cap
  expires : System.Owned Unexpiring (fun t k => t.point = .set k) p
  once (orgId : Id) (bucket : ℕ) : p.shared.total (.throttle orgId bucket) ≤ 1

theorem Fresh.invariant {p : Pool Caps Send} (h : Fresh p) :
    System.Invariant Bounded Standing Apart p where
  shared := {
    cap := fun k => by
      rw [(h.1 k).2.1]
      exact Nat.zero_le _
    value := fun he => by
      rw [(h.1 _).1] at he
      cases he
    once := fun orgId b => by
      rw [(h.1 _).2.2]
      exact Nat.zero_le _
    lasts := fun hne => absurd (h.1 _).2.2 hne }
  task hi := by
    have hp := h.2 _ (List.mem_of_getElem? hi)
    exact standing_of_free (by rw [hp]; rfl)
  pair _ hi _ := by
    have hp := h.2 _ (List.mem_of_getElem? hi)
    exact (apart_of_ne fun k hk => by rw [hp] at hk; cases hk).1

abbrev undisturbed : System.Condition Caps Send Move Surroundings := { task := Undisturbed }

/-- **The caps on text messages hold** in every run whose counters are incremented in time and created
without disturbance. -/
theorem caps_kept {p p' : Pool Caps Send} (h0 : Fresh p)
    (h : System.Reaches sending undisturbed.Meets p p') : CapsHold p' := by
  have hinv := h.invariant h0.invariant (fun s t x s' t' hs ht hx hn => keptBy_next hs ht hx hn)
    fun s x s' hs _ hw => by
      cases x with
      | later ms =>
        cases hw
        exact ⟨⟨hs.cap, hs.value, hs.once, hs.lasts⟩, fun u hu => ⟨fun k hk =>
          ⟨(hu.1 k hk).entry, (hu.1 k hk).since, (hu.1 k hk).total⟩, fun orgId b hk =>
            Nat.le_trans (hu.2 orgId b hk) (Nat.le_add_right _ _)⟩⟩
      | setting orgId value =>
        cases hw
        exact ⟨⟨hs.cap, hs.value, hs.once, hs.lasts⟩, fun u hu => ⟨fun k hk =>
          ⟨(hu.1 k hk).entry, (hu.1 k hk).since, (hu.1 k hk).total⟩, hu.2⟩⟩
  have howned := h.owned (A := Unexpiring) (B := fun t k => t.point = .set k)
    (fun k hk => by
      obtain ⟨e, he, -⟩ := hk
      rw [Redis.live_eq_some, (h0.1 k).1] at he
      cases he.1)
    (fun s t x s' t' k hx hn hk => next_unexpiring hx hn hk)
    fun s x s' k hw hk => by
      obtain ⟨e, he, hno⟩ := hk
      cases x with
      | later ms =>
        cases hw
        exact ⟨e, Redis.live_of_live_later he, hno⟩
      | setting orgId value =>
        cases hw
        exact ⟨e, he, hno⟩
  exact ⟨hinv.shared.cap, howned, hinv.shared.once⟩

/-! ## Messages about one ticket -/

/-- Messages of an organisation elsewhere about a ticket, before anything is counted. -/
def aboutTicket (n : ℕ) : Pool Caps Send where
  shared :=
    { redis := ⟨0, fun _ => none⟩, settings := fun _ => none, since := fun _ => 0
      total := fun _ => 0 }
  tasks := List.replicate n { data := { orgId := 1, country := some "CA", ticketId := some "t1" } }

theorem fresh_aboutTicket (n : ℕ) : Fresh (aboutTicket n) :=
  ⟨fun _ => ⟨rfl, rfl, rfl⟩, fun _ ht => (List.eq_of_mem_replicate ht) ▸ rfl⟩

/-- A send goes on for `n` steps. -/
def goes (i n : ℕ) : List (Label Move Surroundings) := List.replicate n (.task i .go)

theorem caps_kept_twoMessages : ∃ p', CapsHold p' ∧ p'.shared.since (.ticket 1 "t1") = 2 := by
  obtain ⟨p', hreach, hp⟩ := System.exists_meets (S := sending) undisturbed (aboutTicket 2)
    (goes 0 4 ++ goes 1 3) (fun p => p.shared.since (.ticket 1 "t1") == 2) (by decide +kernel)
  exact ⟨p', caps_kept (fresh_aboutTicket 2) hreach, by simpa using hp⟩

/-- **Not every run keeps the caps**: five messages about one ticket pass, two of them while the counter is
being created. -/
theorem exists_over_cap : ¬ ∀ p p' : Pool Caps Send, Fresh p →
    System.Reaches sending (fun _ _ => True) p p' → ∀ k, p'.shared.since k ≤ k.cap := by
  intro h
  obtain ⟨p', hreach, hp⟩ := System.exists_reaches (S := sending) (P := fun _ _ => True)
    (fun _ _ => true) (fun _ _ _ => trivial) (aboutTicket 5)
    (goes 0 3 ++ goes 1 3 ++ goes 2 3 ++ goes 0 1 ++ goes 3 3 ++ goes 4 3)
    (fun p => p.shared.since (.ticket 1 "t1") == 5) (by decide +kernel)
  have hle := h _ p' (fresh_aboutTicket 5) hreach (.ticket 1 "t1")
  rw [show p'.shared.since (.ticket 1 "t1") = 5 by simpa using hp] at hle
  exact absurd hle (by decide)

end PatronLoyalty.Notifications
