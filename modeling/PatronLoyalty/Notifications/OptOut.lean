import PatronLoyalty.Async.Pool
import PatronLoyalty.Crm.Phone

/-!
# STOP and START

`handleInboundSms` with `syncSmsConsentByPhone`, beside `NotificationService.send` of a text message from
`assertNotSuppressed` on and the attempts of its job. STOP writes a suppression and then takes the consent of
all customers and active tickets with the number, START deletes the suppression and sets it again.

`log`: which numbers have been stopped and started, and what has been enqueued and handed over, latest first.
`Honoured`: nothing for a number that is stopped. `given`: what START has set to true, and whether STOP had
taken it. Headline: **`honoured`**.
-/

namespace PatronLoyalty.OptOut

open Async
open Crm (normalizeSmsRecipient)
open Loyalty (Id trim)

/-! ## Records -/

/-- SHA-256, and `ENCRYPTION_KEY`. -/
structure Hashing where
  sha256 : String → String
  pepper : String

def Hashing.contactHash (cfg : Hashing) (phone : String) : String :=
  cfg.sha256 (phone ++ (":" ++ cfg.pepper))

structure Suppression where
  id : Id
  orgId : Option Id
  contactHash : String
  channel : String
  source : String
  reason : String
  deriving DecidableEq, Repr

structure Customer where
  id : Id
  orgId : Id
  phone : Option String
  transactionalSmsAllowed : Bool
  deriving DecidableEq, Repr

structure Ticket where
  id : Id
  orgId : Id
  customerPhone : Option String
  status : String
  transactionalSmsAllowed : Bool
  deriving DecidableEq, Repr

/-- A customer, or a ticket. -/
inductive Holder
  | customer (id : Id)
  | ticket (id : Id)
  deriving DecidableEq, Repr

inductive Event
  | stopped (phone : String)
  | started (phone : String)
  | enqueued (phone : String)
  | handedOver (phone : String)
  deriving DecidableEq, Repr

/-- A consent that START has set. -/
structure Given where
  phone : String
  holder : Holder
  /-- It was true immediately before the latest STOP. -/
  taken : Bool
  deriving DecidableEq, Repr

structure Registry where
  suppressions : List Suppression
  customers : List Customer
  tickets : List Ticket
  log : List Event
  /-- Whose consent was true immediately before the latest STOP of the number. -/
  taken : String → List Holder
  /-- STOP took the consent of all with the number, and no other has come to have it. -/
  intact : String → Bool
  given : List Given

def isActive (status : String) : Bool := ["waiting", "called", "serving"].contains status

/-- The customers and active tickets with the number, with their consent. -/
def Registry.carriers (s : Registry) (phone : String) : List (Holder × Bool) :=
  (s.customers.filter (·.phone == some phone)).map
      (fun c => (.customer c.id, c.transactionalSmsAllowed)) ++
    (s.tickets.filter fun t => t.customerPhone == some phone && isActive t.status).map
      fun t => (.ticket t.id, t.transactionalSmsAllowed)

/-- The updates of `syncSmsConsentByPhone`. -/
def Registry.setConsent (s : Registry) (phone : String) (transactionalSmsAllowed : Bool) : Registry :=
  { s with
    customers := s.customers.map fun c =>
      if c.phone = some phone then { c with transactionalSmsAllowed } else c
    tickets := s.tickets.map fun t =>
      if t.customerPhone = some phone ∧ isActive t.status = true then
        { t with transactionalSmsAllowed }
      else t }

/-- `syncSmsConsentByPhone`, with what is remembered of it. -/
def syncSmsConsentByPhone (s : Registry) (phone : String) : Bool → Registry
  | false =>
    { s.setConsent phone false with
      taken := Function.update s.taken phone
        (((s.carriers phone).filter (·.2)).map Prod.fst)
      intact := Function.update s.intact phone ((s.carriers phone).all (·.2)) }
  | true =>
    { s.setConsent phone true with
      given := s.given ++ (s.carriers phone).map fun h =>
        ⟨phone, h.1, (s.taken phone).contains h.1⟩ }

def Suppression.isGlobal (r : Suppression) (contactHash : String) : Bool :=
  r.orgId.isNone && r.contactHash == contactHash && r.channel == "SMS"

def Registry.suppressed (s : Registry) (contactHash : String) : Bool :=
  s.suppressions.any (·.isGlobal contactHash)

/-! ## Messages that come in -/

inductive Keyword
  | help
  | optOut (text : String)
  | optIn (text : String)
  | other
  deriving DecidableEq, Repr

def keyword (body : String) : Keyword :=
  let text := (trim body).toUpper
  if text = "HELP" then .help
  else if ["STOP", "UNSUBSCRIBE", "ARRET", "QUIT", "CANCEL"].contains text then .optOut text
  else if ["START", "UNSTOP"].contains text then .optIn text
  else .other

/-- Where the answer to a message stands: before this command. -/
inductive InboundPoint
  | start
  | find (phone text : String)
  | update (phone text : String) (id : Id)
  | create (phone text : String)
  | remove (phone : String)
  | sync (phone : String) (transactionalSmsAllowed : Bool)
  | audit (phone : String) (transactionalSmsAllowed : Bool)
  | ended
  deriving DecidableEq, Repr

structure Inbound where
  sender : String
  body : String
  point : InboundPoint := .start
  deriving DecidableEq, Repr

/-! ## Messages that go out -/

/-- Where a send stands: before this command. -/
inductive SendPoint
  | start
  | check (recipient : String)
  | create (recipient : String)
  | enqueue (recipient : String)
  | waiting (recipient : String) (attemptsMade : ℕ)
  | provide (recipient : String) (attemptsMade : ℕ)
  /-- What the worker does after the provider. -/
  | record (recipient : String) (attemptsMade : ℕ)
  | ended
  deriving DecidableEq, Repr

structure Send where
  orgId : Id
  recipient : String
  point : SendPoint := .start
  deriving DecidableEq, Repr

inductive Task
  | inbound (t : Inbound)
  | send (t : Send)
  deriving DecidableEq, Repr

def attempts : ℕ := 3

/-- What a task meets at its next command. -/
inductive Move
  | go
  | created (id : Id)
  | refuse
  /-- The command throws. -/
  | fails
  /-- The process dies. -/
  | stop
  deriving DecidableEq, Repr

def failAttempt (recipient : String) (attemptsMade : ℕ) : SendPoint :=
  if attemptsMade + 1 < attempts then .waiting recipient (attemptsMade + 1) else .ended

/-- `assertNotSuppressed` finds a suppression. -/
def Registry.refuses (s : Registry) (contactHash : String) (orgId : Id) : Bool :=
  s.suppressions.any fun r => r.contactHash == contactHash && r.channel == "SMS" &&
    (r.orgId.isNone || r.orgId == some orgId)

def Registry.note (s : Registry) (e : Event) : Registry := { s with log := e :: s.log }

/-- **One step of a send.** -/
def Send.next (cfg : Hashing) (s : Registry) (t : Send) : Move → Option (Registry × SendPoint)
  | .go =>
    match t.point with
    | .start =>
      some (s, match normalizeSmsRecipient t.recipient with
        | some recipient => .check recipient
        | none => .ended)
    | .check recipient =>
      some (s, if cfg.pepper = "" ∨ s.refuses (cfg.contactHash recipient) t.orgId = true then .ended
        else .create recipient)
    | .create recipient => some (s, .enqueue recipient)
    | .enqueue recipient => some (s.note (.enqueued recipient), .waiting recipient 0)
    | .waiting recipient n => some (s, .provide recipient n)
    | .provide recipient n => some (s.note (.handedOver recipient), .record recipient n)
    | .record _ _ => some (s, .ended)
    | .ended => none
  | .refuse =>
    match t.point with
    | .start | .check _ | .create _ => some (s, .ended)
    | _ => none
  | .fails =>
    match t.point with
    | .provide recipient n | .record recipient n => some (s, failAttempt recipient n)
    | .waiting _ _ | .ended => none
    | _ => some (s, .ended)
  | .stop =>
    match t.point with
    | .provide recipient n | .record recipient n => some (s, .waiting recipient n)
    | .waiting _ _ | .ended => none
    | _ => some (s, .ended)
  | .created _ => none

/-- `User sent … keyword via SMS` -/
def stopReason (text : String) : String := "User sent " ++ text ++ " keyword via SMS"

/-- **One step of the answer to a message.** -/
def Inbound.next (cfg : Hashing) (s : Registry) (t : Inbound) :
    Move → Option (Registry × InboundPoint)
  | .go =>
    match t.point with
    | .start =>
      some (s, match normalizeSmsRecipient t.sender with
        | none => .ended
        | some phone =>
          match keyword t.body with
          | .help | .other => .ended
          | .optOut text => if cfg.pepper = "" then .ended else .find phone text
          | .optIn _ => if cfg.pepper = "" then .ended else .remove phone)
    | .find phone text =>
      some (s, match s.suppressions.find? (·.isGlobal (cfg.contactHash phone)) with
        | some existing => .update phone text existing.id
        | none => .create phone text)
    | .update phone text id =>
      if s.suppressions.any (·.id == id) then
        some ({ s with
          suppressions := s.suppressions.map fun r =>
            if r.id = id then { r with source := "WEBHOOK_STOP", reason := stopReason text } else r },
          .sync phone false)
      else some (s, .ended)
    | .remove phone =>
      some ({ s with
        suppressions := s.suppressions.filter (!·.isGlobal (cfg.contactHash phone))
        log := .started phone :: s.log }, .sync phone true)
    | .sync phone transactionalSmsAllowed =>
      some (syncSmsConsentByPhone s phone transactionalSmsAllowed,
        .audit phone transactionalSmsAllowed)
    | .audit phone transactionalSmsAllowed =>
      some (if transactionalSmsAllowed then s else s.note (.stopped phone), .ended)
    | .create _ _ | .ended => none
  | .created id =>
    match t.point with
    | .create phone text =>
      if s.suppressions.any (·.id == id) then none
      else
        some ({ s with
          suppressions := s.suppressions ++ [{
            id, orgId := none, contactHash := cfg.contactHash phone, channel := "SMS"
            source := "WEBHOOK_STOP", reason := stopReason text }] }, .sync phone false)
    | _ => none
  | .fails | .stop => if t.point = .ended then none else some (s, .ended)
  | .refuse => none

/-- **One step of a task.** -/
def next (cfg : Hashing) (s : Registry) : Task → Move → Option (Registry × Task)
  | .send t, x => (t.next cfg s x).map fun r => (r.1, .send { t with point := r.2 })
  | .inbound t, x => (t.next cfg s x).map fun r => (r.1, .inbound { t with point := r.2 })

/-- The customers and tickets change. -/
structure Surroundings where
  customers : List Customer
  tickets : List Ticket

/-- What is known of a number after the customers and tickets have changed. -/
def Registry.stillIntact (s s' : Registry) (phone : String) : Bool :=
  s.intact phone && ((s'.carriers phone).map Prod.fst).all
    (((s.carriers phone).map Prod.fst).contains ·)

/-- **Messages that come in and go out together.** -/
def texting (cfg : Hashing) : System Registry Task Move Surroundings where
  next := next cfg
  world s y :=
    let s' := { s with customers := y.customers, tickets := y.tickets }
    some { s' with intact := s.stillIntact s' }

/-! ## What is to hold -/

/-- The latest STOP or START of the number that has been processed is a STOP. -/
def quiet (phone : String) : List Event → Bool
  | [] => false
  | .stopped p :: log => p == phone || quiet phone log
  | .started p :: log => p != phone && quiet phone log
  | .enqueued _ :: log | .handedOver _ :: log => quiet phone log

/-- **Nothing is enqueued or handed over** for a number that is stopped. -/
def Honoured : List Event → Prop
  | [] => True
  | .enqueued p :: log | .handedOver p :: log => quiet p log = false ∧ Honoured log
  | .stopped _ :: log | .started _ :: log => Honoured log

/-! ## The condition -/

/-- The number of a send that has passed the check and is not finished. -/
def SendPoint.unfinished : SendPoint → Option String
  | .create r | .enqueue r | .waiting r _ | .provide r _ | .record r _ => some r
  | .start | .check _ | .ended => none

/-- The number that a keyword is being processed for. -/
def InboundPoint.busy : InboundPoint → Option String
  | .find p _ | .update p _ _ | .create p _ | .remove p | .sync p _ | .audit p _ => some p
  | .start | .ended => none

/-- The number that a keyword is about to be processed for. -/
def Inbound.begins (t : Inbound) : Option String :=
  match t.point, normalizeSmsRecipient t.sender, keyword t.body with
  | .start, some phone, .optOut _ | .start, some phone, .optIn _ => some phone
  | _, _, _ => none

/-- **The condition on START**: STOP took the consent of all with the number, and no other has come to have
it; or nobody has it. -/
def returnsOnly (s : Registry) : Task → Bool
  | .inbound t =>
    match t.point with
    | .sync phone true => s.intact phone || (s.carriers phone).isEmpty
    | _ => true
  | .send _ => true

/-- **The condition on two tasks**: the keywords of a number are processed one by one, and no send to it is
unfinished when a STOP has been processed. -/
def inOrder : Task → Task → Bool
  | .inbound t, .inbound u => t.begins.all fun phone => u.point.busy != some phone
  | .inbound t, .send u =>
    match t.point with
    | .audit phone false => u.point.unfinished != some phone
    | _ => true
  | .send _, _ => true

/-- **The condition on the steps of a run.** -/
abbrev orderly : System.Condition Registry Task Move Surroundings where
  task s t _ := returnsOnly s t = true
  others _ t _ u := inOrder t u = true

/-! ## What is known -/

section

variable {cfg : Hashing} {s s' : Registry} {phone : String} {log : List Event} {t : Inbound}
  {q : InboundPoint} {contactHash : String} {R : Task → Prop} {x : Move}

structure Kept (cfg : Hashing) (s : Registry) : Prop where
  honoured : Honoured s.log
  stopped {phone : String} : quiet phone s.log = true → s.suppressed (cfg.contactHash phone) = true
  intact {phone : String} : s.intact phone = true →
    ∀ h ∈ (s.carriers phone).map Prod.fst, h ∈ s.taken phone
  given {g : Given} : g ∈ s.given → g.taken = true

/-- What is known while a keyword is being processed. -/
def InboundPoint.Known (cfg : Hashing) (s : Registry) : InboundPoint → Prop
  | .update phone _ id => ∃ r ∈ s.suppressions, r.id = id ∧ r.isGlobal (cfg.contactHash phone) = true
  | .sync phone false | .audit phone false => s.suppressed (cfg.contactHash phone) = true
  | _ => True

def Task.Known (cfg : Hashing) (s : Registry) : Task → Prop
  | .send t => ∀ phone ∈ t.point.unfinished, quiet phone s.log = false
  | .inbound t => t.point.Known cfg s

/-- No two keywords of a number are being processed. -/
def Apart : Task → Task → Prop
  | .inbound t, .inbound u => ∀ phone ∈ t.point.busy, phone ∉ u.point.busy
  | _, _ => True

theorem Apart.symm {t u : Task} (h : Apart t u) : Apart u t := by
  cases t with
  | send t => cases u <;> trivial
  | inbound t =>
    cases u with
    | send u => trivial
    | inbound u => exact fun phone hu ht => h phone ht hu

theorem contactHash_inj (hinj : Function.Injective cfg.sha256) {p q : String}
    (h : cfg.contactHash p = cfg.contactHash q) : p = q := by
  have he := congrArg String.toList (hinj h)
  simp only [String.toList_append] at he
  exact String.toList_inj.mp (List.append_cancel_right he)

theorem refuses_of_suppressed (orgId : Id) (h : s.suppressed contactHash = true) :
    s.refuses contactHash orgId = true := by
  obtain ⟨r, hr, hg⟩ := List.any_eq_true.mp h
  refine List.any_eq_true.mpr ⟨r, hr, ?_⟩
  simp only [Suppression.isGlobal, Bool.and_eq_true] at hg ⊢
  exact ⟨⟨hg.1.2, hg.2⟩, by rw [hg.1.1]; rfl⟩

/-- The customers and tickets with a number are the same after a keyword. -/
theorem carriers_setConsent (s : Registry) (phone q : String) (b : Bool) :
    ((s.setConsent phone b).carriers q).map Prod.fst = (s.carriers q).map Prod.fst := by
  unfold Registry.carriers Registry.setConsent
  simp only [List.map_append, List.map_map, List.filter_map]
  congr 1
  · congr 1
    · funext c
      simp only [Function.comp]
      split <;> rfl
    · refine List.filter_congr fun c _ => ?_
      simp only [Function.comp]
      split <;> rfl
  · congr 1
    · funext t
      simp only [Function.comp]
      split <;> rfl
    · refine List.filter_congr fun t _ => ?_
      simp only [Function.comp]
      split <;> rfl

def Remain (s s' : Registry) (contactHash : String) : Prop :=
  ∀ r ∈ s.suppressions, r.isGlobal contactHash = true →
    ∃ r' ∈ s'.suppressions, r'.id = r.id ∧ r'.isGlobal contactHash = true

theorem Remain.of_eq (h : s'.suppressions = s.suppressions) :
    Remain s s' contactHash := fun r hr hg => ⟨r, h ▸ hr, rfl, hg⟩

theorem Remain.suppressed (h : Remain s s' contactHash)
    (hs : s.suppressed contactHash = true) : s'.suppressed contactHash = true := by
  obtain ⟨r, hr, hg⟩ := List.any_eq_true.mp hs
  obtain ⟨r', hr', -, hg'⟩ := h r hr hg
  exact List.any_eq_true.mpr ⟨r', hr', hg'⟩

theorem InboundPoint.Known.mono (h : q.Known cfg s)
    (hsup : ∀ p ∈ q.busy, Remain s s' (cfg.contactHash p)) : q.Known cfg s' := by
  cases q with
  | update p text id =>
    obtain ⟨r, hr, hid, hg⟩ := h
    obtain ⟨r', hr', hid', hg'⟩ := hsup p rfl r hr hg
    exact ⟨r', hr', hid'.trans hid, hg'⟩
  | sync p b =>
    cases b with
    | false => exact (hsup p rfl).suppressed h
    | true => trivial
  | audit p b =>
    cases b with
    | false => exact (hsup p rfl).suppressed h
    | true => trivial
  | _ => trivial

/-- **What the others know** after a step. -/
theorem Task.Known.mono {u : Task} (h : u.Known cfg s)
    (hlog : ∀ t, u = .send t → ∀ p ∈ t.point.unfinished, quiet p s.log = false →
      quiet p s'.log = false)
    (hsup : ∀ t, u = .inbound t → ∀ p ∈ t.point.busy, Remain s s' (cfg.contactHash p)) :
    u.Known cfg s' := by
  cases u with
  | send t => exact fun p hp => hlog t rfl p hp (h p hp)
  | inbound t => exact InboundPoint.Known.mono h (hsup t rfl)

/-! ## Steps -/

theorem keptBy_send {t : Send} {q : SendPoint} (hs : Kept cfg s')
    (hlog : ∀ p, quiet p s'.log = quiet p s.log) (hsup : s'.suppressions = s.suppressions)
    (ht : ∀ p ∈ q.unfinished, quiet p s.log = false) :
    System.KeptBy (Kept cfg) (Task.Known cfg) Apart R s (.send t) s' (.send { t with point := q }) where
  shared := hs
  task p hp := (hlog p).trans (ht p hp)
  others {u} _ hu _ _ := by
    refine ⟨hu.mono (fun _ _ p _ hq => (hlog p).trans hq) fun _ _ _ _ => .of_eq hsup, trivial, ?_⟩
    cases u <;> trivial

/-- What a send says goes into the log. -/
theorem Kept.note {e : Event} (hs : Kept cfg s) (he : Honoured (e :: s.log))
    (hlog : ∀ p, quiet p (e :: s.log) = quiet p s.log) : Kept cfg (s.note e) where
  honoured := he
  stopped hq := hs.stopped ((hlog _).symm.trans hq)
  intact := hs.intact
  given := hs.given

/-- **A step of a send.** -/
theorem keptBy_of_send {t : Send} {q : SendPoint} (hs : Kept cfg s)
    (ht : Task.Known cfg s (.send t)) (h : t.next cfg s x = some (s', q)) :
    System.KeptBy (Kept cfg) (Task.Known cfg) Apart R s (.send t) s'
      (.send { t with point := q }) := by
  have hquiet : ∀ {p}, t.point.unfinished = some p → quiet p s.log = false := fun hp => ht _ hp
  have hstay : ∀ {p d}, t.point.unfinished = some p → d.unfinished = some p →
      ∀ p' ∈ SendPoint.unfinished d, quiet p' s.log = false := by
    intro p d hp hd p' hp'
    rw [hd] at hp'
    cases hp'
    exact hquiet hp
  have hended : ∀ p' ∈ SendPoint.unfinished .ended, quiet p' s.log = false :=
    fun p' hp' => (by cases hp')
  cases x with
  | go =>
    simp only [Send.next] at h
    split at h
    · cases h
      refine keptBy_send hs (fun _ => rfl) rfl fun p hp => ?_
      cases hn : normalizeSmsRecipient t.recipient with
      | none =>
        rw [hn] at hp
        cases hp
      | some r =>
        rw [hn] at hp
        cases hp
    · rename_i r hp
      cases h
      refine keptBy_send hs (fun _ => rfl) rfl fun p hp' => ?_
      split at hp'
      · cases hp'
      · rename_i hno
        cases hp'
        cases hq : quiet r s.log with
        | false => rfl
        | true => exact absurd (refuses_of_suppressed t.orgId (hs.stopped hq)) fun hr => hno (Or.inr hr)
    · rename_i r hp
      cases h
      exact keptBy_send hs (fun _ => rfl) rfl (hstay (by rw [hp]; rfl) rfl)
    · rename_i r hp
      cases h
      exact keptBy_send (hs.note ⟨hquiet (by rw [hp]; rfl), hs.honoured⟩ fun _ => rfl)
        (fun _ => rfl) rfl (hstay (by rw [hp]; rfl) rfl)
    · rename_i r n hp
      cases h
      exact keptBy_send hs (fun _ => rfl) rfl (hstay (by rw [hp]; rfl) rfl)
    · rename_i r n hp
      cases h
      exact keptBy_send (hs.note ⟨hquiet (by rw [hp]; rfl), hs.honoured⟩ fun _ => rfl)
        (fun _ => rfl) rfl (hstay (by rw [hp]; rfl) rfl)
    · cases h
      exact keptBy_send hs (fun _ => rfl) rfl hended
    · cases h
  | created id => cases h
  | refuse =>
    simp only [Send.next] at h
    split at h
    all_goals cases h
    all_goals exact keptBy_send hs (fun _ => rfl) rfl hended
  | fails =>
    have hfail : ∀ {r n}, t.point.unfinished = some r →
        ∀ p' ∈ (failAttempt r n).unfinished, quiet p' s.log = false := by
      intro r n hp p' hp'
      unfold failAttempt at hp'
      split at hp'
      · exact hstay hp (d := .waiting r (n + 1)) rfl p' hp'
      · cases hp'
    simp only [Send.next] at h
    split at h
    · rename_i hp
      cases h
      exact keptBy_send hs (fun _ => rfl) rfl (hfail (by rw [hp]; rfl))
    · rename_i hp
      cases h
      exact keptBy_send hs (fun _ => rfl) rfl (hfail (by rw [hp]; rfl))
    · cases h
    · cases h
    · cases h
      exact keptBy_send hs (fun _ => rfl) rfl hended
  | stop =>
    simp only [Send.next] at h
    split at h
    · rename_i hp
      cases h
      exact keptBy_send hs (fun _ => rfl) rfl (hstay (by rw [hp]; rfl) rfl)
    · rename_i hp
      cases h
      exact keptBy_send hs (fun _ => rfl) rfl (hstay (by rw [hp]; rfl) rfl)
    · cases h
    · cases h
    · cases h
      exact keptBy_send hs (fun _ => rfl) rfl hended

/-- A step of the answer to a message. -/
theorem keptBy_inbound (hs : Kept cfg s') (hq : q.Known cfg s')
    (hlog : ∀ u : Send, R (.send u) → ∀ p ∈ u.point.unfinished, quiet p s.log = false →
      quiet p s'.log = false)
    (hsup : ∀ u : Inbound, Apart (.inbound t) (.inbound u) → ∀ p ∈ u.point.busy,
      Remain s s' (cfg.contactHash p))
    (hap : ∀ u : Inbound, R (.inbound u) → Apart (.inbound t) (.inbound u) →
      ∀ p ∈ q.busy, p ∉ u.point.busy) :
    System.KeptBy (Kept cfg) (Task.Known cfg) Apart R s (.inbound t) s'
      (.inbound { t with point := q }) where
  shared := hs
  task := hq
  others {u} hR hu htu _ := by
    have hnew : Apart (.inbound { t with point := q }) u := by
      cases u with
      | send u => trivial
      | inbound u => exact hap u hR htu
    refine ⟨hu.mono (fun v hv => ?_) fun v hv => ?_, hnew, hnew.symm⟩
    · subst hv
      exact hlog v hR
    · subst hv
      exact hsup v htu

/-- The answer goes on with its number, or is over. -/
theorem apart_of_busy {u : Inbound} (h : Apart (.inbound t) (.inbound u))
    (hq : q.busy = none ∨ q.busy = t.point.busy) : ∀ p ∈ q.busy, p ∉ u.point.busy := by
  intro p hp
  rcases hq with hq | hq
  · rw [hq] at hp
    cases hp
  · exact h p (hq ▸ hp)

/-- The registry is left as it is. -/
theorem keptBy_idle (hs : Kept cfg s) (hq : q.Known cfg s)
    (hb : q.busy = none ∨ q.busy = t.point.busy) :
    System.KeptBy (Kept cfg) (Task.Known cfg) Apart R s (.inbound t) s
      (.inbound { t with point := q }) :=
  keptBy_inbound hs hq (fun _ _ _ _ h => h) (fun _ _ _ _ => .of_eq rfl)
    fun _ _ h => apart_of_busy h hb

theorem keptBy_suppress {l : List Suppression} (hs : Kept cfg s)
    (hl : ∀ contactHash, Remain s { s with suppressions := l } contactHash)
    (hq : q.Known cfg { s with suppressions := l }) (hb : q.busy = t.point.busy) :
    System.KeptBy (Kept cfg) (Task.Known cfg) Apart R s (.inbound t) { s with suppressions := l }
      (.inbound { t with point := q }) := by
  refine keptBy_inbound ⟨hs.honoured, fun hquiet => ?_, hs.intact, hs.given⟩ hq
    (fun _ _ _ _ h => h) (fun _ _ _ _ => hl _) fun _ _ h => apart_of_busy h (Or.inr hb)
  exact (hl _).suppressed (hs.stopped hquiet)

theorem isGlobal_mark (r : Suppression) (id : Id) (reason contactHash : String) :
    Suppression.isGlobal (if r.id = id then { r with source := "WEBHOOK_STOP", reason } else r)
      contactHash = r.isGlobal contactHash := by
  split <;> rfl

/-- START deletes the suppression of its number, and of no other. -/
theorem remain_remove (hinj : Function.Injective cfg.sha256) {p : String} (hne : p ≠ phone)
    (log : List Event) : Remain s
      { s with suppressions := s.suppressions.filter (!·.isGlobal (cfg.contactHash phone)), log }
      (cfg.contactHash p) := by
  refine fun r hr hg => ⟨r, List.mem_filter.mpr ⟨hr, ?_⟩, rfl, hg⟩
  cases hb : r.isGlobal (cfg.contactHash phone) with
  | false => rfl
  | true =>
    unfold Suppression.isGlobal at hg hb
    simp only [Bool.and_eq_true, beq_iff_eq] at hg hb
    exact absurd (contactHash_inj hinj (hg.1.2.symm.trans hb.1.2)) hne

/-- **START** deletes the suppression. -/
theorem keptBy_remove (hinj : Function.Injective cfg.sha256) (hs : Kept cfg s)
    (hp : t.point = .remove phone) :
    System.KeptBy (Kept cfg) (Task.Known cfg) Apart R s (.inbound t)
      { s with
        suppressions := s.suppressions.filter (!·.isGlobal (cfg.contactHash phone))
        log := .started phone :: s.log }
      (.inbound { t with point := .sync phone true }) := by
  refine keptBy_inbound ⟨hs.honoured, fun {p} hquiet => ?_, hs.intact, hs.given⟩ trivial
    (fun _ _ p _ hq => ?_) (fun u hap p hu => ?_) fun _ _ h => apart_of_busy h (Or.inr (by rw [hp]; rfl))
  · obtain ⟨hne, hq⟩ := Bool.and_eq_true_iff.mp hquiet
    exact (remain_remove hinj (Ne.symm (bne_iff_ne.mp hne)) _).suppressed (hs.stopped hq)
  · show (phone != p && quiet p s.log) = false
    rw [hq, Bool.and_false]
  · refine remain_remove hinj ?_ _
    rintro rfl
    exact hap p (by rw [hp]; rfl) hu

/-- **The consents of a number are set.** -/
theorem keptBy_sync {b : Bool} (hs : Kept cfg s) (ht : Task.Known cfg s (.inbound t))
    (hp : t.point = .sync phone b)
    (hb : b = true → (s.intact phone || (s.carriers phone).isEmpty) = true) :
    System.KeptBy (Kept cfg) (Task.Known cfg) Apart R s (.inbound t)
      (syncSmsConsentByPhone s phone b) (.inbound { t with point := .audit phone b }) := by
  have hbusy : InboundPoint.busy (.audit phone b) = t.point.busy := by
    rw [hp]
    rfl
  cases b with
  | false =>
    have hsupp : s.suppressed (cfg.contactHash phone) = true := by
      have ht' : t.point.Known cfg s := ht
      rw [hp] at ht'
      exact ht'
    refine keptBy_inbound ⟨hs.honoured, hs.stopped, fun {p} hi h hh => ?_, hs.given⟩ hsupp
      (fun _ _ _ _ h => h) (fun _ _ _ _ => .of_eq rfl) fun _ _ h => apart_of_busy h (Or.inr hbusy)
    have hh' : h ∈ (s.carriers p).map Prod.fst := by
      rw [← carriers_setConsent s phone p false]
      exact hh
    show h ∈ Function.update s.taken phone _ p
    have hi' : Function.update s.intact phone ((s.carriers phone).all (·.2)) p = true := hi
    by_cases hpp : p = phone
    · subst hpp
      rw [Function.update_self] at hi' ⊢
      obtain ⟨c, hc, rfl⟩ := List.mem_map.mp hh'
      exact List.mem_map.mpr ⟨c, List.mem_filter.mpr ⟨hc, List.all_eq_true.mp hi' c hc⟩, rfl⟩
    · rw [Function.update_of_ne hpp] at hi' ⊢
      exact hs.intact hi' h hh'
  | true =>
    refine keptBy_inbound ⟨hs.honoured, hs.stopped, fun {p} hi h hh => ?_, fun {g} hg => ?_⟩ trivial
      (fun _ _ _ _ h => h) (fun _ _ _ _ => .of_eq rfl) fun _ _ h => apart_of_busy h (Or.inr hbusy)
    · refine hs.intact hi h ?_
      rw [← carriers_setConsent s phone p true]
      exact hh
    · rcases List.mem_append.mp hg with hg | hg
      · exact hs.given hg
      · obtain ⟨c, hc, rfl⟩ := List.mem_map.mp hg
        rcases Bool.or_eq_true_iff.mp (hb rfl) with hi | he
        · rw [List.contains_eq_mem, decide_eq_true_eq]
          exact hs.intact hi _ (List.mem_map.mpr ⟨c, hc, rfl⟩)
        · rw [List.isEmpty_iff.mp he] at hc
          cases hc

/-- **STOP has been processed.** -/
theorem keptBy_audit (hs : Kept cfg s) (ht : Task.Known cfg s (.inbound t))
    (hp : t.point = .audit phone false) :
    System.KeptBy (Kept cfg) (Task.Known cfg) Apart (fun u => inOrder (.inbound t) u = true) s
      (.inbound t) (s.note (.stopped phone)) (.inbound { t with point := .ended }) := by
  have hsupp : s.suppressed (cfg.contactHash phone) = true := by
    have ht' : t.point.Known cfg s := ht
    rw [hp] at ht'
    exact ht'
  refine keptBy_inbound ⟨hs.honoured, fun {p} hquiet => ?_, hs.intact, hs.given⟩ trivial
    (fun u hR p hu hq => ?_) (fun _ _ _ _ => .of_eq rfl) fun _ _ h => apart_of_busy h (Or.inl rfl)
  · rcases Bool.or_eq_true_iff.mp hquiet with he | hq
    · rw [← eq_of_beq he]
      exact hsupp
    · exact hs.stopped hq
  · show (phone == p || quiet p s.log) = false
    unfold inOrder at hR
    simp only [hp, bne_iff_ne] at hR
    rw [hq, Bool.or_false, beq_eq_false_iff_ne]
    rintro rfl
    exact hR hu

theorem begins_of_start (hp : t.point = .start) (h : t.next cfg s .go = some (s', q)) :
    s' = s ∧ q.Known cfg s ∧ (q.busy = none ∨ q.busy = t.begins) := by
  simp only [Inbound.next, hp] at h
  cases h
  refine ⟨rfl, ?_⟩
  unfold Inbound.begins
  rw [hp]
  cases hn : normalizeSmsRecipient t.sender with
  | none => exact ⟨trivial, Or.inl rfl⟩
  | some phone =>
    cases hk : keyword t.body with
    | help => exact ⟨trivial, Or.inl rfl⟩
    | other => exact ⟨trivial, Or.inl rfl⟩
    | optOut text =>
      simp only
      split
      · exact ⟨trivial, Or.inl rfl⟩
      · exact ⟨trivial, Or.inr rfl⟩
    | optIn text =>
      simp only
      split
      · exact ⟨trivial, Or.inl rfl⟩
      · exact ⟨trivial, Or.inr rfl⟩

/-- **A step of the answer to a message.** -/
theorem keptBy_of_inbound (hinj : Function.Injective cfg.sha256) (hs : Kept cfg s)
    (ht : Task.Known cfg s (.inbound t)) (hx : returnsOnly s (.inbound t) = true)
    (h : t.next cfg s x = some (s', q)) :
    System.KeptBy (Kept cfg) (Task.Known cfg) Apart (fun u => inOrder (.inbound t) u = true) s
      (.inbound t) s' (.inbound { t with point := q }) := by
  cases x with
  | go =>
    cases hp : t.point with
    | start =>
      obtain ⟨rfl, hq, hb⟩ := begins_of_start hp h
      refine keptBy_inbound hs hq (fun _ _ _ _ h => h) (fun _ _ _ _ => .of_eq rfl)
        fun u hR _ p hpq hu => ?_
      rcases hb with hb | hb
      · rw [hb] at hpq
        cases hpq
      · rw [hb] at hpq
        have hR' : (t.begins.all fun phone => u.point.busy != some phone) = true := hR
        rw [show t.begins = some p from hpq, Option.all_some, bne_iff_ne] at hR'
        exact hR' hu
    | find phone text =>
      simp only [Inbound.next, hp] at h
      cases h
      cases hf : s.suppressions.find? (·.isGlobal (cfg.contactHash phone)) with
      | none => exact keptBy_idle hs trivial (Or.inr (by rw [hp]; rfl))
      | some r =>
        exact keptBy_idle hs
          ⟨r, List.mem_of_find?_eq_some hf, rfl, by simpa using List.find?_some hf⟩
          (Or.inr (by rw [hp]; rfl))
    | update phone text id =>
      simp only [Inbound.next, hp] at h
      split at h
      · cases h
        have hremain : ∀ contactHash, Remain s
            { s with
              suppressions := s.suppressions.map fun r =>
                if r.id = id then
                  { r with source := "WEBHOOK_STOP", reason := stopReason text }
                else r } contactHash := by
          intro contactHash r hr hg
          refine ⟨_, List.mem_map.mpr ⟨r, hr, rfl⟩, ?_, ?_⟩
          · split <;> rfl
          · rw [isGlobal_mark]
            exact hg
        refine keptBy_suppress hs hremain ?_ (by rw [hp]; rfl)
        have ht' : t.point.Known cfg s := ht
        rw [hp] at ht'
        obtain ⟨r, hr, -, hg⟩ := ht'
        exact (hremain _).suppressed (List.any_eq_true.mpr ⟨r, hr, hg⟩)
      · cases h
        exact keptBy_idle hs trivial (Or.inl rfl)
    | create phone text =>
      simp only [Inbound.next, hp] at h
      cases h
    | remove phone =>
      simp only [Inbound.next, hp] at h
      cases h
      exact keptBy_remove hinj hs hp
    | sync phone b =>
      simp only [Inbound.next, hp] at h
      cases h
      refine keptBy_sync hs ht hp fun hb => ?_
      subst hb
      unfold returnsOnly at hx
      simp only [hp] at hx
      exact hx
    | audit phone b =>
      simp only [Inbound.next, hp] at h
      cases h
      cases b with
      | false => exact keptBy_audit hs ht hp
      | true => exact keptBy_idle hs trivial (Or.inl rfl)
    | ended =>
      simp only [Inbound.next, hp] at h
      cases h
  | created id =>
    simp only [Inbound.next] at h
    split at h
    · rename_i phone text hp
      split at h
      · cases h
      · cases h
        refine keptBy_suppress hs (fun _ r hr hg => ⟨r, List.mem_append_left _ hr, rfl, hg⟩) ?_
          (by rw [hp]; rfl)
        refine List.any_eq_true.mpr ⟨_, List.mem_append_right _ (List.mem_singleton_self _), ?_⟩
        simp [Suppression.isGlobal]
    · cases h
  | fails =>
    simp only [Inbound.next] at h
    split at h
    · cases h
    · cases h
      exact keptBy_idle hs trivial (Or.inl rfl)
  | stop =>
    simp only [Inbound.next] at h
    split at h
    · cases h
    · cases h
      exact keptBy_idle hs trivial (Or.inl rfl)
  | refuse => cases h

/-- **One step.** -/
theorem keptBy_next {t t' : Task} (hinj : Function.Injective cfg.sha256) (hs : Kept cfg s)
    (ht : t.Known cfg s) (hx : returnsOnly s t = true) (h : next cfg s t x = some (s', t')) :
    System.KeptBy (Kept cfg) (Task.Known cfg) Apart (fun u => inOrder t u = true) s t s' t' := by
  cases t with
  | send t =>
    obtain ⟨⟨s1, q⟩, hn, he⟩ := Option.map_eq_some_iff.mp h
    cases he
    exact keptBy_of_send hs ht hn
  | inbound t =>
    obtain ⟨⟨s1, q⟩, hn, he⟩ := Option.map_eq_some_iff.mp h
    cases he
    exact keptBy_of_inbound hinj hs ht hx hn

/-- The customers and tickets change. -/
theorem kept_world {y : Surroundings} (hs : Kept cfg s) (h : (texting cfg).world s y = some s') :
    Kept cfg s' ∧ ∀ u : Task, u.Known cfg s → u.Known cfg s' := by
  cases h
  refine ⟨⟨hs.honoured, hs.stopped, fun {p} hi c hc => ?_, hs.given⟩,
    fun u hu => hu.mono (fun _ _ _ _ h => h) fun _ _ _ _ => .of_eq rfl⟩
  obtain ⟨hi', hall⟩ := Bool.and_eq_true_iff.mp hi
  have hmem := List.all_eq_true.mp hall c hc
  rw [List.contains_eq_mem, decide_eq_true_eq] at hmem
  exact hs.intact hi' c hmem

end

/-! ## Runs -/

/-- Nothing has come in, and nothing gone out. -/
structure Fresh (p : Pool Registry Task) : Prop where
  log : p.shared.log = []
  given : p.shared.given = []
  intact (phone : String) : p.shared.intact phone = false
  send {t : Send} : .send t ∈ p.tasks → t.point = .start
  inbound {t : Inbound} : .inbound t ∈ p.tasks → t.point = .start

section

variable {cfg : Hashing} {p p' : Pool Registry Task}

theorem Fresh.invariant (h : Fresh p) :
    System.Invariant (Kept cfg) (Task.Known cfg) Apart p where
  shared := by
    refine ⟨?_, fun hq => ?_, fun hi => ?_, fun hg => ?_⟩
    · rw [h.log]
      trivial
    · rw [h.log] at hq
      cases hq
    · rw [h.intact] at hi
      cases hi
    · rw [h.given] at hg
      cases hg
  task {i t} hi := by
    have ht := List.mem_of_getElem? hi
    cases t with
    | send t =>
      intro phone hp
      rw [h.send ht] at hp
      cases hp
    | inbound t =>
      show t.point.Known cfg p.shared
      rw [h.inbound ht]
      trivial
  pair {i j t u} _ hi _ := by
    have ht := List.mem_of_getElem? hi
    cases t with
    | send t => cases u <;> trivial
    | inbound t =>
      cases u with
      | send u => trivial
      | inbound u =>
        intro phone hp
        rw [h.inbound ht] at hp
        cases hp

/-- **STOP is honoured, and START gives back what STOP took**: nothing is enqueued or handed over for a number
that is stopped, and START sets no consent that was not true before the STOP. -/
theorem honoured {cfg : Hashing} {p p' : Pool Registry Task} (hinj : Function.Injective cfg.sha256)
    (h0 : Fresh p) (h : System.Reaches (texting cfg) orderly.Meets p p') :
    Honoured p'.shared.log ∧ ∀ g ∈ p'.shared.given, g.taken = true := by
  have hinv := h.invariant h0.invariant
    (fun _ _ _ _ _ hs ht hx hn => keptBy_next hinj hs ht hx hn)
    fun _ _ _ hs _ hw => kept_world hs hw
  exact ⟨hinv.shared.honoured, fun _ hg => hinv.shared.given hg⟩

end

/-! ## One customer -/

/-- A deployment whose digests are the texts themselves. -/
def plain : Hashing := ⟨id, "pepper"⟩

/-- A number without consent, to which a STOP and a START come, and a send goes. -/
def oneNumber (transactionalSmsAllowed : Bool) : Pool Registry Task where
  shared :=
    { suppressions := []
      customers := [⟨1, 1, some "+14155552671", transactionalSmsAllowed⟩]
      tickets := []
      log := []
      taken := fun _ => []
      intact := fun _ => false
      given := [] }
  tasks :=
    [.inbound { sender := "+14155552671", body := "stop" },
      .inbound { sender := "+14155552671", body := "START" },
      .send { orgId := 1, recipient := "(415) 555-2671" }]

theorem fresh_oneNumber (b : Bool) : Fresh (oneNumber b) := by
  refine ⟨rfl, rfl, fun _ => rfl, fun {t} ht => ?_, fun {t} ht => ?_⟩
  · simp only [oneNumber, List.mem_cons, Task.send.injEq, reduceCtorEq, List.not_mem_nil,
      or_false, false_or] at ht
    rw [ht]
  · simp only [oneNumber, List.mem_cons, Task.inbound.injEq, reduceCtorEq, List.not_mem_nil,
      or_false] at ht
    rcases ht with rfl | rfl <;> rfl

/-- A task goes on for `n` steps. -/
def goes (i n : ℕ) : List (Label Move Surroundings) := List.replicate n (.task i .go)

def stopsAndStarts : List (Label Move Surroundings) :=
  goes 0 2 ++ [.task 0 (.created 7)] ++ goes 0 2 ++ goes 1 4

/-- The consent that STOP takes, START returns; then a message is sent. -/
theorem honoured_oneNumber : ∃ p' : Pool Registry Task, (Honoured p'.shared.log ∧
      ∀ g ∈ p'.shared.given, g.taken = true) ∧
    p'.shared.given = [⟨"+14155552671", .customer 1, true⟩] ∧
    p'.shared.log = [.handedOver "+14155552671", .enqueued "+14155552671",
      .started "+14155552671", .stopped "+14155552671"] := by
  obtain ⟨p', hreach, hp⟩ := System.exists_meets (S := texting plain) orderly (oneNumber true)
    (stopsAndStarts ++ goes 2 6)
    (fun p => decide (p.shared.given = [⟨"+14155552671", .customer 1, true⟩]) &&
      decide (p.shared.log = [.handedOver "+14155552671", .enqueued "+14155552671",
        .started "+14155552671", .stopped "+14155552671"]))
    (by decide +kernel)
  obtain ⟨hg, hlog⟩ := Bool.and_eq_true_iff.mp hp
  exact ⟨p', honoured Function.injective_id (fresh_oneNumber true) hreach, of_decide_eq_true hg,
    of_decide_eq_true hlog⟩

/-- **Not every run honours STOP**: a message that has been checked before is enqueued and handed over
after it; and the START after it sets a consent that was never given. -/
theorem exists_unhonoured : ¬ ∀ (cfg : Hashing) (p p' : Pool Registry Task),
    Function.Injective cfg.sha256 → Fresh p →
      System.Reaches (texting cfg) (fun _ _ => True) p p' →
        Honoured p'.shared.log ∧ ∀ g ∈ p'.shared.given, g.taken = true := by
  intro h
  obtain ⟨p', hreach, hp⟩ := System.exists_reaches (S := texting plain) (P := fun _ _ => True)
    (fun _ _ => true) (fun _ _ _ => trivial) (oneNumber false)
    (goes 2 2 ++ goes 0 2 ++ [.task 0 (.created 7)] ++ goes 0 2 ++ goes 2 4 ++ goes 1 4)
    (fun p => decide (p.shared.given = [⟨"+14155552671", .customer 1, false⟩]) &&
      decide (p.shared.log = [.started "+14155552671", .handedOver "+14155552671",
        .enqueued "+14155552671", .stopped "+14155552671"]))
    (by decide +kernel)
  have hlog := (h plain _ p' Function.injective_id (fresh_oneNumber false) hreach).1
  rw [of_decide_eq_true (Bool.and_eq_true_iff.mp hp).2] at hlog
  exact absurd hlog.1 (by decide)

end PatronLoyalty.OptOut
