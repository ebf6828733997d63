import PatronLoyalty.Async.Pool
import PatronLoyalty.Async.Redis
import PatronLoyalty.Loyalty.Referral

/-!
# Appointment reminders

`AppointmentReminderService.sendDueReminders`: a scan takes the time once, and for each threshold asks for
the appointments that begin so many minutes later, or up to a window more; for each of them it looks for
the key of the reminder, sends the reminder if there is none, and then sets the key. The scans of all
instances run together.

`times s k`: how often reminder `k` has been sent. Headline: **`reminded_once`**, in runs in which no two
scans handle a reminder together, no answer of Redis is lost, and a window holds at most 250 appointments.
-/

namespace PatronLoyalty.Reminders

open Async
open Loyalty (Id truthy)

/-! ## Scans -/

/-- `APPOINTMENT_REMINDER_MINUTES` and `APPOINTMENT_REMINDER_SCAN_WINDOW_MINUTES`, parsed. -/
structure ReminderConfig where
  thresholds : List ℕ := [1440, 60]
  scanWindowMinutes : ℕ := 15

def minutes (n : ℕ) : ℕ := n * 60 * 1000

def ReminderConfig.window (cfg : ReminderConfig) : ℕ := minutes (max cfg.scanWindowMinutes 5)

structure Appointment where
  orgId : Id
  status : String
  scheduledAt : ℕ
  customerPhone : Option String := none
  customerEmail : Option String := none
  deriving DecidableEq, Repr

/-- The key of a reminder: the appointment, and the minutes before it. -/
abbrev Key := Id × ℕ

/-- A reminder that has been handed on, with the consent that was found. -/
structure Reminder where
  appointmentId : Id
  reminderMinutes : ℕ
  transactionalSmsAllowed : Bool
  deriving DecidableEq, Repr

def Reminder.key (r : Reminder) : Key := (r.appointmentId, r.reminderMinutes)

structure Office where
  redis : Redis Key Unit
  appointments : List (Id × Appointment)
  /-- `transactionalSmsAllowed` of the customers of an organisation with a phone number. -/
  customers : Id → String → List Bool
  sent : List Reminder

structure Loop where
  now : ℕ
  reminderMinutes : ℕ
  rest : List ℕ
  appointment : Id × Appointment
  appointments : List (Id × Appointment)

def Loop.key (l : Loop) : Key := (l.appointment.1, l.reminderMinutes)

inductive Command
  | get
  | customer (phone : String)
  | notify (transactionalSmsAllowed : Bool)
  | set

/-- Where a scan stands: before this command. -/
inductive Point
  | start
  | query (now reminderMinutes : ℕ) (rest : List ℕ)
  | loop (c : Command) (l : Loop)
  | finished (now : ℕ)
  | died

structure Scan where
  orgId : Option Id := none
  point : Point := .start

/-- The appointment falls into the window of a scan that was begun at `now`. -/
def ReminderConfig.covers (cfg : ReminderConfig) (now reminderMinutes scheduledAt : ℕ) : Bool :=
  decide (now + minutes reminderMinutes ≤ scheduledAt) &&
    decide (scheduledAt < now + minutes reminderMinutes + cfg.window)

def Appointment.eligible (a : Appointment) : Bool :=
  ["pending", "confirmed"].contains a.status && (a.customerPhone.isSome || a.customerEmail.isSome)

/-- What the query asks for. -/
def due (cfg : ReminderConfig) (s : Office) (orgId : Option Id) (now reminderMinutes : ℕ) :
    List (Id × Appointment) :=
  s.appointments.filter fun x => orgId.all (x.2.orgId == ·) && x.2.eligible &&
    cfg.covers now reminderMinutes x.2.scheduledAt

def nextThreshold (now : ℕ) : List ℕ → Point
  | [] => .finished now
  | reminderMinutes :: rest => .query now reminderMinutes rest

def nextAppointment (now reminderMinutes : ℕ) (rest : List ℕ) : List (Id × Appointment) → Point
  | [] => nextThreshold now rest
  | appointment :: appointments =>
    .loop .get { now, reminderMinutes, rest, appointment, appointments }

def Loop.next (l : Loop) : Point := nextAppointment l.now l.reminderMinutes l.rest l.appointments

/-- The reminder has not been found to be sent. -/
def Loop.unsent (l : Loop) : Point :=
  match truthy l.appointment.2.customerPhone with
  | some phone => .loop (.customer phone) l
  | none => .loop (.notify false) l

/-- What a scan meets at its next command. -/
inductive Move
  | go
  /-- What the query answers, of which 250 are taken. -/
  | found (order : List (Id × Appointment))
  | customer (n : ℕ)
  /-- A command of Redis fails, and nobody is told. -/
  | lost
  | die
  deriving DecidableEq

/-- **One step of a scan.** -/
def next (cfg : ReminderConfig) (s : Office) (t : Scan) : Move → Option (Office × Scan)
  | .go =>
    match t.point with
    | .start => some (s, { t with point := nextThreshold s.redis.now cfg.thresholds })
    | .loop .get l =>
      some (s, { t with point := if (s.redis.get l.key).isSome then l.next else l.unsent })
    | .loop (.notify transactionalSmsAllowed) l =>
      some ({ s with sent := s.sent ++
        [⟨l.appointment.1, l.reminderMinutes, transactionalSmsAllowed⟩] },
        { t with point := .loop .set l })
    | .loop .set l =>
      some ({ s with redis := s.redis.setex l.key (14 * 24 * 60 * 60) () },
        { t with point := l.next })
    | _ => none
  | .found order =>
    match t.point with
    | .query now reminderMinutes rest =>
      if order.Perm (due cfg s t.orgId now reminderMinutes) then
        some (s, { t with point := nextAppointment now reminderMinutes rest (order.take 250) })
      else none
    | _ => none
  | .customer n =>
    match t.point with
    | .loop (.customer phone) l =>
      let allowed := (s.customers l.appointment.2.orgId phone)[n]?.getD false
      some (s, { t with point := .loop (.notify allowed) l })
    | _ => none
  | .lost =>
    match t.point with
    | .loop .get l => some (s, { t with point := l.unsent })
    | .loop .set l => some (s, { t with point := l.next })
    | _ => none
  | .die =>
    match t.point with
    | .finished _ => none
    | _ => some (s, { t with point := .died })

/-- What happens without a scan. -/
inductive Surroundings
  | later (ms : ℕ)
  | appointments (appointments : List (Id × Appointment))
  | customers (customers : Id → String → List Bool)

/-- **Scans that run together.** -/
def scanning (cfg : ReminderConfig) : System Office Scan Move Surroundings where
  next := next cfg
  world s
    | .later ms => some { s with redis := s.redis.later ms }
    | .appointments appointments => some { s with appointments }
    | .customers customers => some { s with customers }

/-! ## At most once -/

variable {cfg : ReminderConfig} {s s' : Office} {t t' u : Scan} {k : Key} {x : Move}
  {p p' : Pool Office Scan} {R : Scan → Prop}

/-- How often a reminder has been sent. -/
def times (s : Office) (k : Key) : ℕ := s.sent.countP fun r => decide (r.key = k)

/-- The reminder that a scan is handling: it has not found it sent, and is not done with it. -/
def Point.handles : Point → Option Key
  | .loop .get _ => none
  | .loop _ l => some l.key
  | _ => none

def Point.sets : Point → Option Key
  | .loop .set l => some l.key
  | _ => none

def Point.asks : Point → Option Key
  | .loop .get l => some l.key
  | _ => none

/-- **The condition on the commands**: Redis answers, a scan that has sent a reminder sets its key, and the
key has not expired when it is asked for. -/
structure Attentive (s : Office) (t : Scan) (x : Move) : Prop where
  set : t.point.sets ≠ none → x = .go
  get : t.point.asks ≠ none → x ≠ .lost
  lasting : ∀ k ∈ t.point.asks, s.redis.entries k ≠ none → s.redis.live k ≠ none

instance : Decidable (Attentive s t x) :=
  decidable_of_iff ((t.point.sets ≠ none → x = .go) ∧ (t.point.asks ≠ none → x ≠ .lost) ∧
      ∀ k ∈ t.point.asks, s.redis.entries k ≠ none → s.redis.live k ≠ none)
    ⟨fun h => ⟨h.1, h.2.1, h.2.2⟩, fun h => ⟨h.set, h.get, h.lasting⟩⟩

/-- **The condition on two scans**: what one asks for, the other is not handling. -/
abbrev Alone (_ : Office) (t : Scan) (_ : Move) (u : Scan) : Prop :=
  ∀ k ∈ t.point.asks, k ∉ u.point.handles

/-- Sent, and the key is not set yet. -/
def Unset (s : Office) (k : Key) : Prop := times s k ≠ 0 ∧ s.redis.entries k = none

/-- What is known of the reminders. -/
structure Counted (s : Office) : Prop where
  once (k : Key) : times s k ≤ 1
  set {k : Key} : s.redis.entries k ≠ none → times s k = 1

/-- What holds of a scan: what it has yet to send has not been sent. -/
def Handling (s : Office) (t : Scan) : Prop :=
  ∀ k ∈ t.point.handles, times s k = if t.point.sets = some k then 1 else 0

def Apart (t u : Scan) : Prop := ∀ k ∈ t.point.handles, k ∉ u.point.handles

/-! ## What a step does -/

/-- **What a scan may do in a step.** -/
inductive Does (cfg : ReminderConfig) (s : Office) (t : Scan) : Move → Office → Scan → Prop
  | start (h : t.point = .start) :
      Does cfg s t .go s { t with point := nextThreshold s.redis.now cfg.thresholds }
  | query {now m : ℕ} {rest : List ℕ} {order : List (Id × Appointment)}
      (h : t.point = .query now m rest) (ho : order.Perm (due cfg s t.orgId now m)) :
      Does cfg s t (.found order) s
        { t with point := nextAppointment now m rest (order.take 250) }
  | skip {l : Loop} (h : t.point = .loop .get l) (hg : (s.redis.get l.key).isSome = true) :
      Does cfg s t .go s { t with point := l.next }
  | unsent {l : Loop} (h : t.point = .loop .get l) (hg : (s.redis.get l.key).isSome = false) :
      Does cfg s t .go s { t with point := l.unsent }
  | getLost {l : Loop} (h : t.point = .loop .get l) :
      Does cfg s t .lost s { t with point := l.unsent }
  | customer {l : Loop} {phone : String} {n : ℕ} {allowed : Bool}
      (h : t.point = .loop (.customer phone) l) :
      Does cfg s t (.customer n) s { t with point := .loop (.notify allowed) l }
  | notify {l : Loop} {allowed : Bool} (h : t.point = .loop (.notify allowed) l) :
      Does cfg s t .go
        { s with sent := s.sent ++ [⟨l.appointment.1, l.reminderMinutes, allowed⟩] }
        { t with point := .loop .set l }
  | set {l : Loop} (h : t.point = .loop .set l) :
      Does cfg s t .go { s with redis := s.redis.setex l.key (14 * 24 * 60 * 60) () }
        { t with point := l.next }
  | setLost {l : Loop} (h : t.point = .loop .set l) :
      Does cfg s t .lost s { t with point := l.next }
  | die : Does cfg s t .die s { t with point := .died }

theorem does_of_next (h : next cfg s t x = some (s', t')) : Does cfg s t x s' t' := by
  cases x with
  | go =>
    simp only [next] at h
    split at h
    · rename_i hp
      cases h
      exact .start hp
    · rename_i l hp
      cases h
      cases hg : (s.redis.get l.key).isSome with
      | true => exact .skip hp hg
      | false => exact .unsent hp hg
    · rename_i hp
      cases h
      exact .notify hp
    · rename_i hp
      cases h
      exact .set hp
    · cases h
  | found order =>
    simp only [next] at h
    split at h
    · rename_i hp
      split at h
      · rename_i ho
        cases h
        exact .query hp ho
      · cases h
    · cases h
  | customer n =>
    simp only [next] at h
    split at h
    · rename_i hp
      cases h
      exact .customer hp
    · cases h
  | lost =>
    simp only [next] at h
    split at h
    · rename_i hp
      cases h
      exact .getLost hp
    · rename_i hp
      cases h
      exact .setLost hp
    · cases h
  | die =>
    simp only [next] at h
    split at h
    · cases h
    · cases h
      exact .die

theorem handles_nextThreshold (now : ℕ) (rest : List ℕ) : (nextThreshold now rest).handles = none := by
  cases rest <;> rfl

theorem handles_nextAppointment (now m : ℕ) (rest : List ℕ) (as : List (Id × Appointment)) :
    (nextAppointment now m rest as).handles = none := by
  cases as with
  | nil => exact handles_nextThreshold now rest
  | cons a as => rfl

theorem handles_unsent (l : Loop) : l.unsent.handles = some l.key ∧ l.unsent.sets = none := by
  unfold Loop.unsent
  split <;> exact ⟨rfl, rfl⟩

theorem handles_of_sets {q : Point} (h : q.sets = some k) : q.handles = some k := by
  cases q with
  | loop c l =>
    cases c with
    | set => exact h
    | _ => cases h
  | _ => cases h

theorem times_append (s : Office) (r : Reminder) (k : Key) :
    times { s with sent := s.sent ++ [r] } k = times s k + if r.key = k then 1 else 0 := by
  simp [times, List.countP_append, List.countP_cons]

theorem times_notify (s : Office) (l : Loop) (allowed : Bool) (k : Key) :
    times { s with sent := s.sent ++ [⟨l.appointment.1, l.reminderMinutes, allowed⟩] } k =
      times s k + if l.key = k then 1 else 0 := times_append s _ k

/-! ## Steps -/

/-- A step that leaves what is sent, after which the scan handles nothing. -/
theorem keptBy_of_idle (hs : Counted s') (ht : times s' = times s)
    (h : t'.point.handles = none) : System.KeptBy Counted Handling Apart R s t s' t' where
  shared := hs
  task k hk := by
    rw [h] at hk
    cases hk
  others _ hu _ _ := by
    refine ⟨fun k hk => (congrFun ht k).trans (hu k hk), fun k hk => ?_, fun k hk hk' => ?_⟩
    · rw [h] at hk
      cases hk
    · rw [h] at hk'
      cases hk'

/-- A scan takes up a reminder that has not been sent. -/
theorem keptBy_unsent {l : Loop} (hs : Counted s) (h0 : times s l.key = 0)
    (hR : ∀ u, R u → l.key ∉ u.point.handles) :
    System.KeptBy Counted Handling Apart R s t s { t with point := l.unsent } where
  shared := hs
  task k hk := by
    have hkey : l.key = k := by
      have hk' : l.unsent.handles = some k := hk
      rw [(handles_unsent l).1] at hk'
      exact Option.some.inj hk'
    subst hkey
    rw [h0, if_neg]
    show ¬ l.unsent.sets = some l.key
    rw [(handles_unsent l).2]
    exact fun hf => (by cases hf)
  others hu hJ _ _ := by
    have hkey : ∀ k ∈ l.unsent.handles, k = l.key := by
      intro k hk
      rw [(handles_unsent l).1] at hk
      exact (Option.some.inj hk).symm
    refine ⟨hJ, fun k hk => ?_, fun k hk hk' => ?_⟩
    · rw [hkey k hk]
      exact hR _ hu
    · rw [hkey k hk'] at hk
      exact hR _ hu hk

theorem keptBy_same (hs : Counted s) (ht : Handling s t) (h : t'.point.handles = t.point.handles)
    (hset : t'.point.sets = t.point.sets) :
    System.KeptBy Counted Handling Apart R s t s t' where
  shared := hs
  task k hk := by
    rw [hset]
    exact ht k (h ▸ hk)
  others _ hu htu hut := ⟨hu, fun k hk => htu k (h ▸ hk), fun k hk hk' => hut k hk (h ▸ hk')⟩

/-- A reminder is sent. -/
theorem keptBy_notify {l : Loop} {allowed : Bool} (hs : Counted s) (ht : Handling s t)
    (hp : t.point = .loop (.notify allowed) l) :
    System.KeptBy Counted Handling Apart R s t
      { s with sent := s.sent ++ [⟨l.appointment.1, l.reminderMinutes, allowed⟩] }
      { t with point := .loop .set l } := by
  have h0 : times s l.key = 0 := by
    have h := ht l.key (by rw [hp]; rfl)
    rw [hp] at h
    exact h
  refine ⟨⟨fun k => ?_, fun {k} hk => ?_⟩, fun k hk => ?_, fun _ hu htu hut => ⟨fun k hk => ?_, ?_, ?_⟩⟩
  · rw [times_notify]
    by_cases hkey : l.key = k
    · subst hkey
      rw [if_pos rfl, h0]
    · rw [if_neg hkey]
      exact hs.once k
  · rw [times_notify]
    by_cases hkey : l.key = k
    · subst hkey
      have h1 := hs.set hk
      omega
    · rw [if_neg hkey]
      exact hs.set hk
  · cases hk
    rw [times_notify, if_pos rfl, h0]
    exact (if_pos rfl).symm
  · have hne : l.key ≠ k := by
      rintro rfl
      exact htu l.key (by rw [hp]; rfl) hk
    rw [times_notify, if_neg hne]
    exact hu k hk
  · intro k hk
    cases hk
    exact htu l.key (by rw [hp]; rfl)
  · intro k hk hk'
    cases hk'
    exact hut l.key hk (by rw [hp]; rfl)

/-- The key of a reminder is set. -/
theorem counted_setex {n : ℕ} (hs : Counted s) (h1 : times s k = 1) :
    Counted { s with redis := s.redis.setex k n () } where
  once := hs.once
  set {k'} hk := by
    by_cases hkey : k' = k
    · subst hkey
      exact h1
    · exact hs.set (by rwa [Redis.setex, Redis.entries_put_ne hkey] at hk)

def Clear (s : Office) (t : Scan) : Prop := ∀ k ∈ t.point.asks, ¬ Unset s k

/-- **One step.** -/
theorem keptBy_next (hs : Counted s) (ht : Handling s t) (hx : Attentive s t x) (hc : Clear s t)
    (hn : next cfg s t x = some (s', t')) :
    System.KeptBy Counted Handling Apart (Alone s t x) s t s' t' := by
  cases does_of_next hn with
  | start h => exact keptBy_of_idle hs rfl (handles_nextThreshold _ _)
  | query h ho => exact keptBy_of_idle hs rfl (handles_nextAppointment _ _ _ _)
  | skip h hg => exact keptBy_of_idle hs rfl (handles_nextAppointment _ _ _ _)
  | @unsent l h hg =>
    have hasks : l.key ∈ t.point.asks := by
      rw [h]
      rfl
    have hentry : s.redis.entries l.key = none := by
      by_contra hne
      have hl := hx.lasting _ hasks hne
      rw [Redis.get, Option.isSome_map, Option.isSome_eq_false_iff, Option.isNone_iff_eq_none] at hg
      exact hl hg
    have h0 : times s l.key = 0 := by
      by_contra hne
      exact hc _ hasks ⟨hne, hentry⟩
    exact keptBy_unsent hs h0 fun u hu => hu _ hasks
  | @getLost l h => exact absurd rfl (hx.get (by rw [h]; exact fun hf => by cases hf))
  | customer h =>
    exact keptBy_same hs ht (by rw [h]; rfl) (by rw [h]; rfl)
  | notify h => exact keptBy_notify hs ht h
  | @set l h =>
    have h1 : times s l.key = 1 := by
      have hl := ht l.key (by rw [h]; rfl)
      rw [h] at hl
      exact hl.trans (if_pos rfl)
    exact keptBy_of_idle (counted_setex hs h1) rfl (handles_nextAppointment _ _ _ _)
  | setLost h =>
    have hgo := hx.set (by rw [h]; exact fun hf => by cases hf)
    cases hgo
  | die => exact keptBy_of_idle hs rfl rfl

/-- **Whose key is not set yet**, a scan is about to set it. -/
theorem next_unset (hx : Attentive s t x) (hn : next cfg s t x = some (s', t'))
    (h : Unset s' k) : t'.point.sets = some k ∨ Unset s k ∧ t.point.sets ≠ some k := by
  have hnot : t.point.sets = some k → x = .go := by
    intro hk
    refine hx.set ?_
    rw [hk]
    exact fun hf => (by cases hf)
  cases does_of_next hn with
  | @notify l allowed hp =>
    by_cases hkey : l.key = k
    · exact Or.inl (congrArg some hkey)
    · refine Or.inr ⟨⟨?_, h.2⟩, by rw [hp]; exact fun hf => by cases hf⟩
      have h1 := h.1
      rw [times_notify, if_neg hkey] at h1
      exact h1
  | @set l hp =>
    have hne : k ≠ l.key := by
      rintro rfl
      have h2 := h.2
      rw [Redis.setex, Redis.entries_put_self] at h2
      cases h2
    refine Or.inr ⟨⟨h.1, ?_⟩, by rw [hp]; exact fun hf => hne (Option.some.inj hf).symm⟩
    have h2 := h.2
    rwa [Redis.setex, Redis.entries_put_ne hne] at h2
  | start hp => exact Or.inr ⟨h, by rw [hp]; exact fun hf => by cases hf⟩
  | skip hp hg => exact Or.inr ⟨h, by rw [hp]; exact fun hf => by cases hf⟩
  | unsent hp hg => exact Or.inr ⟨h, by rw [hp]; exact fun hf => by cases hf⟩
  | query hp ho => exact Or.inr ⟨h, by rw [hp]; exact fun hf => by cases hf⟩
  | customer hp => exact Or.inr ⟨h, by rw [hp]; exact fun hf => by cases hf⟩
  | getLost hp => exact Or.inr ⟨h, by rw [hp]; exact fun hf => by cases hf⟩
  | setLost hp => exact Or.inr ⟨h, fun hk => (by cases hnot hk)⟩
  | die => exact Or.inr ⟨h, fun hk => (by cases hnot hk)⟩

/-! ## At least once -/

/-- The commands for an appointment have still to be made when a scan is at it. -/
def Loop.left (l : Loop) : List (Id × Appointment) := l.appointment :: l.appointments

def Scan.covers (cfg : ReminderConfig) (t : Scan) (a : Appointment) (now m : ℕ) : Bool :=
  t.orgId.all (a.orgId == ·) && cfg.covers now m a.scheduledAt

/-- The scan is about to ask for the appointments of a reminder. -/
def Point.queries (m : ℕ) : Point → Option ℕ
  | .query now m' _ => if m' = m then some now else none
  | _ => none

/-- **The condition on a query** for reminder `m` of the appointment: it is booked while a window that
it falls into is asked for, and no more fall into it than are taken. -/
abbrev Asked (cfg : ReminderConfig) (a : Id × Appointment) (m : ℕ) (s : Office) (t : Scan) : Prop :=
  ∀ now ∈ t.point.queries m, t.covers cfg a.2 now m = true →
    a ∈ due cfg s t.orgId now m ∧ (due cfg s t.orgId now m).length ≤ 250

/-- What a scan whose window holds the appointment has yet to do about reminder `m`, or it is sent. -/
def Pending (cfg : ReminderConfig) (a : Id × Appointment) (m : ℕ) (s : Office) (t : Scan) : Prop :=
  match t.point with
  | .start | .died => True
  | .query now m' rest => t.covers cfg a.2 now m = true → m = m' ∨ m ∈ rest ∨ times s (a.1, m) ≠ 0
  | .loop _ l => t.covers cfg a.2 l.now m = true →
      m ∈ l.rest ∨ l.reminderMinutes = m ∧ a ∈ l.left ∨ times s (a.1, m) ≠ 0
  | .finished now => t.covers cfg a.2 now m = true → times s (a.1, m) ≠ 0

section

variable {a : Id × Appointment} {m : ℕ}

theorem Pending.mono (h : Pending cfg a m s t) (hs : ∀ k, times s k ≠ 0 → times s' k ≠ 0) :
    Pending cfg a m s' t := by
  unfold Pending at h ⊢
  cases hp : t.point with
  | start => trivial
  | died => trivial
  | query now m' rest =>
    simp only [hp] at h ⊢
    exact fun hc => (h hc).imp_right (Or.imp_right (hs _))
  | loop c l =>
    simp only [hp] at h ⊢
    exact fun hc => (h hc).imp_right (Or.imp_right (hs _))
  | finished now =>
    simp only [hp] at h ⊢
    exact fun hc => hs _ (h hc)

theorem pending_nextThreshold {now : ℕ} {rest : List ℕ}
    (h : t.covers cfg a.2 now m = true → m ∈ rest ∨ times s (a.1, m) ≠ 0) :
    Pending cfg a m s { t with point := nextThreshold now rest } := by
  cases rest with
  | nil => exact fun hc => (h hc).resolve_left List.not_mem_nil
  | cons m' rest =>
    intro hc
    rcases h hc with hm | ht
    · exact (List.mem_cons.mp hm).imp_right Or.inl
    · exact Or.inr (Or.inr ht)

theorem pending_nextAppointment {now m' : ℕ} {rest : List ℕ} {as : List (Id × Appointment)}
    (h : t.covers cfg a.2 now m = true → m ∈ rest ∨ m' = m ∧ a ∈ as ∨ times s (a.1, m) ≠ 0) :
    Pending cfg a m s { t with point := nextAppointment now m' rest as } := by
  cases as with
  | nil =>
    refine pending_nextThreshold fun hc => ?_
    rcases h hc with hm | ⟨-, ha⟩ | ht
    · exact Or.inl hm
    · cases ha
    · exact Or.inr ht
  | cons x as => exact h

/-- A scan is done with an appointment: its reminder is sent. -/
theorem pending_next {l : Loop} {c : Command} (h : Pending cfg a m s t)
    (hp : t.point = .loop c l) (ht : times s l.key ≠ 0) :
    Pending cfg a m s { t with point := l.next } := by
  unfold Pending at h
  simp only [hp] at h
  refine pending_nextAppointment fun hc => ?_
  rcases h hc with hm | ⟨hm, ha⟩ | h1
  · exact Or.inl hm
  · rcases List.mem_cons.mp ha with rfl | ha
    · refine Or.inr (Or.inr ?_)
      rw [← hm]
      exact ht
    · exact Or.inr (Or.inl ⟨hm, ha⟩)
  · exact Or.inr (Or.inr h1)

theorem pending_stay {l : Loop} {c d : Command} (h : Pending cfg a m s t)
    (hp : t.point = .loop c l) (hp' : t'.point = .loop d l) (ho : t'.orgId = t.orgId) :
    Pending cfg a m s t' := by
  unfold Pending at h ⊢
  simp only [hp] at h
  simp only [hp']
  unfold Scan.covers at h ⊢
  rw [ho]
  exact h

theorem exists_unsent (l : Loop) : ∃ c, l.unsent = .loop c l := by
  unfold Loop.unsent
  split <;> exact ⟨_, rfl⟩

/-- **One step** towards the reminder. -/
theorem pending_of_next (h : Pending cfg a m s t) (hm : m ∈ cfg.thresholds) (hs : Counted s)
    (ht : Handling s t) (hx : Attentive s t x) (ha : Asked cfg a m s t)
    (hn : next cfg s t x = some (s', t')) : Pending cfg a m s' t' := by
  cases does_of_next hn with
  | start hp => exact pending_nextThreshold fun _ => Or.inl hm
  | @query now m' rest order hp ho =>
    refine pending_nextAppointment fun hc => ?_
    unfold Pending at h
    simp only [hp] at h
    rcases h hc with rfl | hr | h1
    · obtain ⟨hmem, hlen⟩ := ha now (by rw [hp]; exact if_pos rfl) hc
      refine Or.inr (Or.inl ⟨rfl, ?_⟩)
      rw [List.take_of_length_le (ho.length_eq ▸ hlen)]
      exact ho.mem_iff.mpr hmem
    · exact Or.inl hr
    · exact Or.inr (Or.inr h1)
  | @skip l hp hg =>
    refine pending_next h hp ?_
    have hne : s.redis.entries l.key ≠ none := by
      obtain ⟨v, hv⟩ := Option.isSome_iff_exists.mp hg
      obtain ⟨e, he, -⟩ := Option.map_eq_some_iff.mp hv
      rw [(Redis.live_eq_some.mp he).1]
      exact fun hf => by cases hf
    rw [hs.set hne]
    exact Nat.one_ne_zero
  | @unsent l hp hg =>
    obtain ⟨c, hc⟩ := exists_unsent l
    exact pending_stay h hp hc rfl
  | @getLost l hp =>
    obtain ⟨c, hc⟩ := exists_unsent l
    exact pending_stay h hp hc rfl
  | customer hp => exact pending_stay h hp rfl rfl
  | notify hp =>
    refine Pending.mono (pending_stay (d := .set) h hp rfl rfl) fun k hk => ?_
    rw [times_notify]
    omega
  | @set l hp =>
    have h1 : times s l.key = 1 := by
      have hl := ht l.key (by rw [hp]; rfl)
      rw [hp] at hl
      exact hl.trans (if_pos rfl)
    exact (pending_next h hp (by rw [h1]; exact Nat.one_ne_zero)).mono fun _ hk => hk
  | setLost hp =>
    have hgo := hx.set (by rw [hp]; exact fun hf => by cases hf)
    cases hgo
  | die => trivial

/-- Nothing is unsent. -/
theorem times_of_next (hn : next cfg s t x = some (s', t')) (hk : times s k ≠ 0) :
    times s' k ≠ 0 := by
  cases does_of_next hn with
  | notify hp =>
    rw [times_notify]
    omega
  | _ => exact hk

end

/-! ## Runs -/

structure Fresh (p : Pool Office Scan) : Prop where
  entries (k : Key) : p.shared.redis.entries k = none
  sent : p.shared.sent = []
  tasks {t : Scan} : t ∈ p.tasks → t.point = .start

/-- **The condition on the steps of a run**, for a reminder of an appointment. -/
abbrev attentive (cfg : ReminderConfig) (a : Id × Appointment) (m : ℕ) :
    System.Condition Office Scan Move Surroundings where
  task s t x := Attentive s t x ∧ Asked cfg a m s t
  others := Alone

instance (cfg : ReminderConfig) (a : Id × Appointment) (m : ℕ) (p : Pool Office Scan)
    (l : Label Move Surroundings) : Decidable ((attentive cfg a m).Meets p l) := inferInstance

/-- Scans begin once in this time: `*/15 * * * *`. -/
def scanInterval : ℕ := minutes 15

/-- The scans of an instance have begun at these times, each no more than an interval after the one before,
from before the reminder was due until after it, and they are finished. -/
structure Scanned (p : Pool Office Scan) (a : Appointment) (m : ℕ) (starts : List ℕ) : Prop where
  finished {now : ℕ} : now ∈ starts → ∃ t ∈ p.tasks, t.point = .finished now ∧
    t.orgId.all (a.orgId == ·) = true
  steps : starts.IsChain fun n n' => n' ≤ n + scanInterval
  before : ∃ n ∈ starts.head?, n + minutes m ≤ a.scheduledAt
  after : ∃ n ∈ starts, a.scheduledAt < n + minutes m

/-- One of them covers the appointment. -/
theorem exists_between {b d T : ℕ} {l : List ℕ} (h : l.IsChain fun n n' => n' ≤ n + d)
    (h0 : ∃ n ∈ l.head?, n + b ≤ T) (h1 : ∃ n ∈ l, T < n + b) :
    ∃ n ∈ l, n + b ≤ T ∧ T < n + b + d := by
  induction l with
  | nil =>
    obtain ⟨n, hn, -⟩ := h1
    cases hn
  | cons n l ih =>
    obtain ⟨n', hn', hle⟩ := h0
    cases hn'
    cases l with
    | nil =>
      obtain ⟨n', hn', hlt⟩ := h1
      cases List.mem_singleton.mp hn'
      omega
    | cons n2 l =>
      rw [List.isChain_cons_cons] at h
      by_cases hle2 : n2 + b ≤ T
      · have h1' : ∃ n ∈ n2 :: l, T < n + b := by
          obtain ⟨n', hn', hlt⟩ := h1
          rcases List.mem_cons.mp hn' with rfl | hn'
          · omega
          · exact ⟨n', hn', hlt⟩
        obtain ⟨k, hk, hkT⟩ := ih h.2 ⟨n2, rfl, hle2⟩ h1'
        exact ⟨k, List.mem_cons_of_mem _ hk, hkT⟩
      · exact ⟨n, List.mem_cons_self, hle, by omega⟩

theorem Fresh.times (h : Fresh p) (k : Key) : times p.shared k = 0 := by
  rw [Reminders.times, h.sent]
  rfl

theorem Fresh.invariant (h : Fresh p) :
    System.Invariant Counted Handling Apart p where
  shared :=
    ⟨fun k => by rw [h.times]; exact Nat.zero_le 1, fun {k} hk => absurd (h.entries k) hk⟩
  task hi k hk := by
    rw [h.tasks (List.mem_of_getElem? hi)] at hk
    cases hk
  pair _ hi _ k hk := by
    rw [h.tasks (List.mem_of_getElem? hi)] at hk
    cases hk

/-- Without a scan nothing is sent, and no key is set. -/
theorem world_leaves {y : Surroundings} (h : (scanning cfg).world s y = some s') :
    times s' = times s ∧ s'.redis.entries = s.redis.entries := by
  cases y with
  | later ms =>
    cases h
    exact ⟨rfl, rfl⟩
  | appointments l =>
    cases h
    exact ⟨rfl, rfl⟩
  | customers c =>
    cases h
    exact ⟨rfl, rfl⟩

section

variable {a : Id × Appointment} {m : ℕ}

/-- Every pool on the way: whose key is not set, a scan is about to set it. -/
theorem owned_of_reaches (h0 : Fresh p)
    (h : System.Reaches (scanning cfg) (attentive cfg a m).Meets p p') :
    System.Owned Unset (fun t k => t.point.sets = some k) p' := by
  refine h.owned (fun k hk => absurd (h0.times k) hk.1)
    (fun s t x s' t' k hx hn hk => next_unset hx.1 hn hk) fun s y s' k hw hk => ?_
  obtain ⟨ht, he⟩ := world_leaves hw
  exact ⟨ht ▸ hk.1, he ▸ hk.2⟩

/-- The condition, and what is known when a step meets it. -/
def clearly (cfg : ReminderConfig) (a : Id × Appointment) (m : ℕ) :
    System.Condition Office Scan Move Surroundings where
  task s t x := (Attentive s t x ∧ Asked cfg a m s t) ∧ Clear s t
  others := Alone

/-- **Whoever asks for a key finds it, if the reminder is sent**: else somebody would be about to set it. -/
theorem reaches_clearly (h0 : Fresh p)
    (h : System.Reaches (scanning cfg) (attentive cfg a m).Meets p p') :
    System.Reaches (scanning cfg) (clearly cfg a m).Meets p p' := by
  refine h.imp fun q l hq hl => ?_
  cases l with
  | world y => trivial
  | task i x =>
    intro t hi
    refine ⟨⟨hl.task hi, fun k hk hun => ?_⟩, (hl t hi).2⟩
    obtain ⟨u, hu, hsets⟩ := owned_of_reaches h0 hq k hun
    obtain ⟨j, hj⟩ := List.getElem?_of_mem hu
    by_cases hij : j = i
    · subst hij
      have htu : t = u := Option.some.inj (hi.symm.trans hj)
      subst htu
      cases hp : t.point with
      | loop c l =>
        rw [hp] at hk hsets
        cases c with
        | set => cases hk
        | _ => cases hsets
      | _ =>
        rw [hp] at hk
        cases hk
    · exact hl.others hi hij hj k hk (handles_of_sets hsets)

/-- **The invariant of a run.** -/
theorem invariant_of_reaches (h0 : Fresh p)
    (h : System.Reaches (scanning cfg) (attentive cfg a m).Meets p p') :
    System.Invariant Counted Handling Apart p' := by
  refine (reaches_clearly h0 h).invariant h0.invariant
    (fun s t x s' t' hs ht hx hn => keptBy_next hs ht hx.1.1 hx.2 hn) fun s y s' hs _ hw => ?_
  obtain ⟨ht, he⟩ := world_leaves hw
  exact ⟨⟨fun k => ht ▸ hs.once k, fun {k} hk => ht ▸ hs.set (he ▸ hk)⟩,
    fun u hu k hk => ht ▸ hu k hk⟩

/-- **A scan in whose window the appointment lies has sent the reminder**, unless it has yet to. -/
theorem pending_of_reaches (h0 : Fresh p) (hm : m ∈ cfg.thresholds)
    (h : System.Reaches (scanning cfg) (attentive cfg a m).Meets p p')
    (hu : u ∈ p'.tasks) : Pending cfg a m p'.shared u := by
  have hinv : System.Invariant (fun _ => True) (Pending cfg a m) (fun _ _ => True) p' := by
    have h' : System.Reaches (scanning cfg) (System.Condition.Meets
        { task := fun s t x => (Attentive s t x ∧ Asked cfg a m s t) ∧ Counted s ∧ Handling s t })
        p p' := by
      refine h.imp fun q l hq hl => ?_
      have hinv := invariant_of_reaches h0 hq
      cases l with
      | world y => trivial
      | task i x =>
        exact fun t hi => ⟨⟨hl.task hi, hinv.shared, hinv.task hi⟩, fun _ _ _ _ _ => trivial⟩
    refine h'.invariant ⟨trivial, fun {i t} hi => ?_, fun _ _ _ => trivial⟩
      (fun s t x s' t' _ ht hx hn => ⟨trivial, pending_of_next ht hm hx.2.1 hx.2.2 hx.1.1 hx.1.2 hn,
        fun _ hv _ _ => ⟨hv.mono fun k hk => times_of_next hn hk, trivial, trivial⟩⟩)
      fun s y s' _ _ hw => ⟨trivial, fun v hv => hv.mono fun k hk => ?_⟩
    · unfold Pending
      rw [h0.tasks (List.mem_of_getElem? hi)]
      trivial
    · rw [(world_leaves hw).1]
      exact hk
  obtain ⟨i, hi⟩ := List.getElem?_of_mem hu
  exact hinv.task hi

/-- **A reminder is sent once**: in runs whose scans are attentive and alone with what they handle, no
reminder is sent twice; and the reminder of an appointment, which is booked whenever a window that it falls
into is asked for, is sent when the scans from before it is due until after it are finished, if the window
is no shorter than the time between scans. -/
theorem reminded_once {cfg : ReminderConfig} {a : Id × Appointment} {m : ℕ}
    {p p' : Pool Office Scan} (h0 : Fresh p) (hm : m ∈ cfg.thresholds)
    (hw : scanInterval ≤ cfg.window)
    (h : System.Reaches (scanning cfg) (attentive cfg a m).Meets p p') :
    (∀ k, times p'.shared k ≤ 1) ∧
      ∀ starts, Scanned p' a.2 m starts → times p'.shared (a.1, m) = 1 := by
  have hinv := invariant_of_reaches h0 h
  refine ⟨hinv.shared.once, fun starts hs => ?_⟩
  obtain ⟨now, hnow, hle, hlt⟩ := exists_between hs.steps hs.before hs.after
  obtain ⟨t, ht, hp, horg⟩ := hs.finished hnow
  have hpend := pending_of_reaches h0 hm h ht
  unfold Pending at hpend
  simp only [hp] at hpend
  have hne : times p'.shared (a.1, m) ≠ 0 := by
    refine hpend ?_
    rw [Scan.covers, horg, ReminderConfig.covers, decide_eq_true hle,
      decide_eq_true (Nat.lt_of_lt_of_le hlt (Nat.add_le_add_left hw _))]
    rfl
  have hone := hinv.shared.once (a.1, m)
  omega

end

/-! ## One appointment -/

def hourAhead (scans : ℕ) : Pool Office Scan where
  shared :=
    { redis := ⟨0, fun _ => none⟩
      appointments := [(1, ⟨1, "confirmed", minutes 60, some "+12025550100", none⟩)]
      customers := fun _ _ => []
      sent := [] }
  tasks := List.replicate scans {}

theorem fresh_hourAhead (scans : ℕ) : Fresh (hourAhead scans) :=
  ⟨fun _ => rfl, rfl, fun ht => List.eq_of_mem_replicate ht ▸ rfl⟩

/-- A scan begins, and finds these appointments for the first and for the second reminder. -/
def asks (i : ℕ) (order : List (Id × Appointment)) : List (Label Move Surroundings) :=
  [.task i .go, .task i (.found []), .task i (.found order)]

/-- The scan finds no customer with the phone number, sends the reminder and sets the key. -/
def reminds (i : ℕ) : List (Label Move Surroundings) :=
  [.task i .go, .task i (.customer 0), .task i .go, .task i .go]

def Point.began : Point → Option ℕ
  | .finished now => some now
  | _ => none

theorem reminded_once_hourAhead : ∃ p', times p'.shared (1, 60) = 1 ∧
    Scanned p' ⟨1, "confirmed", minutes 60, some "+12025550100", none⟩ 60 [0, minutes 15] := by
  obtain ⟨p', hreach, hp⟩ := System.exists_meets (S := scanning {})
    (attentive {} (1, ⟨1, "confirmed", minutes 60, some "+12025550100", none⟩) 60) (hourAhead 2)
    (asks 0 (hourAhead 2).shared.appointments ++ reminds 0 ++
      .world (.later (minutes 15)) :: asks 1 [])
    (fun p => decide (p.tasks.map (fun t => (t.orgId, t.point.began)) =
      [(none, some 0), (none, some (minutes 15))])) (by decide +kernel)
  have hs : Scanned p' ⟨1, "confirmed", minutes 60, some "+12025550100", none⟩ 60
      [0, minutes 15] := by
    refine ⟨fun {now} hnow => ?_, by decide, by decide, by decide⟩
    have hmem : (none, some now) ∈ p'.tasks.map fun t => (t.orgId, t.point.began) := by
      rw [of_decide_eq_true hp]
      simpa using hnow
    obtain ⟨t, ht, he⟩ := List.mem_map.mp hmem
    obtain ⟨ho, hb⟩ := Prod.mk.inj he
    refine ⟨t, ht, ?_, by rw [ho]; rfl⟩
    cases hpt : t.point with
    | finished n =>
      rw [hpt] at hb
      rw [Option.some.inj hb]
    | _ =>
      rw [hpt] at hb
      cases hb
  exact ⟨p', (reminded_once (fresh_hourAhead 2) (by decide) (by decide) hreach).2 _ hs, hs⟩

/-- **Not every run reminds once**: two scans ask for the key before either sets it. -/
theorem exists_reminded_twice : ¬ ∀ (cfg : ReminderConfig) (p p' : Pool Office Scan), Fresh p →
    System.Reaches (scanning cfg) (fun _ _ => True) p p' → ∀ k, times p'.shared k ≤ 1 := by
  intro h
  obtain ⟨p', hreach, hp⟩ := System.exists_reaches (S := scanning {}) (P := fun _ _ => True)
    (fun _ _ => true) (fun _ _ _ => trivial) (hourAhead 2)
    (asks 0 (hourAhead 2).shared.appointments ++ asks 1 (hourAhead 2).shared.appointments ++
      [.task 0 .go, .task 1 .go, .task 0 (.customer 0), .task 1 (.customer 0), .task 0 .go,
        .task 1 .go])
    (fun p => decide (times p.shared (1, 60) = 2)) (by decide +kernel)
  have hle := h {} _ p' (fresh_hourAhead 2) hreach (1, 60)
  rw [of_decide_eq_true hp] at hle
  exact absurd hle (by decide)

end PatronLoyalty.Reminders
