import PatronLoyalty.Async.Pool
import PatronLoyalty.Async.Redis
import PatronLoyalty.Loyalty.Referral

/-!
# From a send to the provider's reports

`NotificationService.send` as far as the allowance, the record and the job go, the worker that takes the
job up to three times, and `handleTwilioStatusCallback`. A task is a send, followed by the attempts of its
job, or a callback. Its commands are the reads and writes of the database, of the usage key in Redis, and
the call of the provider, whose answer may be lost; an attempt may fail at any of them.

`accepted`: what the provider has accepted, of every notification.
-/

namespace PatronLoyalty.Delivery

open Async
open Loyalty (Id truthy)

/-! ## Records -/

/-- What the provider answers. -/
inductive SendResult
  | accepted (providerMessageId : Option String)
  | refused (error : String)
  deriving DecidableEq, Repr

namespace SendResult

def success : SendResult → Bool
  | accepted _ => true
  | refused _ => false

def providerMessageId : SendResult → Option String
  | accepted sid => sid
  | refused _ => none

def error : SendResult → Option String
  | accepted _ => none
  | refused error => some error

end SendResult

structure Notification where
  orgId : Id
  channel : String
  status : String := "pending"
  providerMessageId : Option String := none
  errorMessage : Option String := none
  deriving DecidableEq, Repr

structure Messaging where
  notifications : AList fun _ : Id => Notification
  /-- The notifications whose jobs are not finished. -/
  jobs : List Id
  /-- `smsLifetimeUsageKey`, of each organisation. -/
  usage : Redis Id ℕ
  accepted : List (Id × Option String)

/-- `startsWith: 'SM'` -/
def startsWithSM (providerMessageId : String) : Bool :=
  ['S', 'M'].isPrefixOf providerMessageId.toList

/-- `isBillableSmsProviderMessageId`: `/^SM[a-f0-9]{32}$/i`. -/
def isBillableSmsProviderMessageId (providerMessageId : String) : Bool :=
  match providerMessageId.toList with
  | s :: m :: cs => s.toUpper == 'S' && m.toUpper == 'M' && cs.length == 32 &&
      cs.all fun c => c.isDigit || ('a' ≤ c.toLower && c.toLower ≤ 'f')
  | _ => false

/-- A text message of the organisation. -/
def Notification.isSms (n : Notification) (orgId : Id) : Bool :=
  n.orgId == orgId && n.channel == "sms"

/-- The provider has accepted it, and no failure is reported. -/
def Notification.billable (n : Notification) : Bool :=
  ["sent", "delivered"].contains n.status && n.providerMessageId.any startsWithSM

def Messaging.count (s : Messaging) (orgId : Id) (q : Id → Notification → Bool) : ℕ :=
  s.notifications.entries.countP fun e => e.2.isSms orgId && q e.1 e.2

def Messaging.countBillableFromDb (s : Messaging) (orgId : Id) : ℕ :=
  s.count orgId fun _ n => n.billable

def Messaging.countPendingSms (s : Messaging) (orgId : Id) : ℕ :=
  s.count orgId fun _ n => n.status == "pending"

def Messaging.update (s : Messaging) (id : Id) (f : Notification → Notification) : Messaging :=
  match s.notifications.lookup id with
  | some n => { s with notifications := s.notifications.insert id (f n) }
  | none => s

/-- What the worker writes. -/
def Notification.result (n : Notification) (r : SendResult) : Notification :=
  { n with
    status := if r.success then "sent" else "failed"
    errorMessage := r.error.or n.errorMessage
    providerMessageId := (truthy r.providerMessageId).or n.providerMessageId }

/-! ## Sends -/

/-- Where `getUsedCount` stands. -/
inductive Used
  | get
  | recount
  | cache (count : ℕ)
  | known (used : ℕ)
  deriving DecidableEq, Repr

inductive Work
  | template
  | provide
  | find (result : SendResult)
  | update (result : SendResult)
  | campaign (result : SendResult)
  | count (result : SendResult)
  | set (result : SendResult) (billableCount : ℕ)
  | log (result : SendResult)
  deriving DecidableEq, Repr

/-- Where a send stands: before this command. -/
inductive Point
  | start
  /-- `assertSmsCreditsAvailable`: both counts at once. -/
  | allowance (used : Used) (pending : Option ℕ)
  | create
  | enqueue (id : Id)
  | waiting (id : Id) (attemptsMade : ℕ)
  | working (id : Id) (attemptsMade : ℕ) (work : Work)
  | ended
  deriving DecidableEq, Repr

structure Send where
  orgId : Id
  channel : String
  skipSmsPlanGate : Bool := false
  /-- It has a `loyaltyCampaignSendId`. -/
  campaign : Bool := false
  point : Point := .start
  deriving DecidableEq, Repr

/-- `assertSmsCreditsAvailable`, as soon as both counts are known. -/
def assertSmsCreditsAvailable (creditLimit : ℕ) : Used → Option ℕ → Point
  | .known used, some pending => if creditLimit ≤ used + pending then .ended else .create
  | used, pending => .allowance used pending

def attempts : ℕ := 3

def Messaging.finish (s : Messaging) (id : Id) : Messaging := { s with jobs := s.jobs.erase id }

def failAttempt (s : Messaging) (id : Id) (attemptsMade : ℕ) : Messaging × Point :=
  if attemptsMade + 1 < attempts then (s, .waiting id (attemptsMade + 1)) else (s.finish id, .ended)

def Work.perform (s : Messaging) (orgId id : Id) : Work → Messaging
  | .update r => s.update id (·.result r)
  | .set _ billableCount => { s with usage := s.usage.set orgId billableCount }
  | _ => s

def provided (channel : String) : Bool := ["email", "sms", "whatsapp"].contains channel

def unsupported (channel : String) : SendResult :=
  .refused (if channel = "push" then "Push provider not configured"
    else "Unknown channel: " ++ channel)

def Send.afterCampaign (t : Send) (r : SendResult) : Work :=
  if t.channel = "sms" ∧ r.success = true ∧
      r.providerMessageId.any isBillableSmsProviderMessageId = true then .count r
  else .log r

/-- **What comes after a command** of an attempt. -/
def Send.afterWork (t : Send) (s : Messaging) (id : Id) (attemptsMade : ℕ) :
    Work → Messaging × Point
  | .template => (s, .working id attemptsMade .provide)
  | .provide => (s, .working id attemptsMade (.find (unsupported t.channel)))
  | .find r =>
    match s.notifications.lookup id with
    | some _ => (s, .working id attemptsMade (.update r))
    | none => (s.finish id, .ended)
  | .update r =>
    (s, .working id attemptsMade (if t.campaign then .campaign r else t.afterCampaign r))
  | .campaign r => (s, .working id attemptsMade (t.afterCampaign r))
  | .count r => (s, .working id attemptsMade (.set r (s.countBillableFromDb t.orgId)))
  | .set r _ => (s, .working id attemptsMade (.log r))
  | .log r => if r.success then (s.finish id, .ended) else failAttempt s id attemptsMade

/-- What a task meets at its next command. -/
inductive Move
  | go
  /-- `countPendingSms` answers. -/
  | pending
  | refuse
  | created (id : Id)
  | accepts (providerMessageId : Option String)
  | refuses (error : String)
  /-- The provider accepts, and its answer does not arrive. -/
  | loses (providerMessageId : Option String) (error : String)
  /-- The command throws, before or after it has been made. -/
  | fails (made : Bool)
  /-- A command of Redis fails, and nobody is told. -/
  | lost
  /-- The process dies. -/
  | stop
  deriving DecidableEq, Repr

def Messaging.fresh (s : Messaging) (providerMessageId : Option String) : Bool :=
  providerMessageId.all fun sid => sid != "" && !(s.accepted.map (·.2)).contains (some sid)

/-- **One step of a send**, where it goes then. -/
def Send.next (limit : Id → ℕ) (s : Messaging) (t : Send) : Move → Option (Messaging × Point)
  | .go =>
    match t.point with
    | .start =>
      some (s, if t.channel = "sms" ∧ t.skipSmsPlanGate = false then .allowance .get none
        else .create)
    | .allowance .get pending =>
      match s.usage.get t.orgId with
      | some used => some (s, assertSmsCreditsAvailable (limit t.orgId) (.known used) pending)
      | none => some (s, .allowance .recount pending)
    | .allowance .recount pending =>
      some (s, .allowance (.cache (s.countBillableFromDb t.orgId)) pending)
    | .allowance (.cache count) pending =>
      some ({ s with usage := s.usage.set t.orgId count },
        assertSmsCreditsAvailable (limit t.orgId) (.known count) pending)
    | .enqueue id => some ({ s with jobs := id :: s.jobs }, .waiting id 0)
    | .waiting id n => some (s, .working id n .template)
    | .working id n w =>
      if w = .provide ∧ provided t.channel then none
      else some (t.afterWork (w.perform s t.orgId id) id n w)
    | .allowance (.known _) _ | .create | .ended => none
  | .pending =>
    match t.point with
    | .allowance used none =>
      some (s, assertSmsCreditsAvailable (limit t.orgId) used (some (s.countPendingSms t.orgId)))
    | _ => none
  | .refuse =>
    match t.point with
    | .start | .allowance .. | .create => some (s, .ended)
    | _ => none
  | .created id =>
    if t.point = .create ∧ s.notifications.lookup id = none then
      some ({ s with
        notifications := s.notifications.insert id { orgId := t.orgId, channel := t.channel } },
        .enqueue id)
    else none
  | .accepts sid =>
    match t.point with
    | .working id n .provide =>
      if provided t.channel && s.fresh sid then
        some ({ s with accepted := s.accepted ++ [(id, sid)] },
          .working id n (.find (.accepted sid)))
      else none
    | _ => none
  | .refuses error =>
    match t.point with
    | .working id n .provide =>
      some (s, .working id n (.find (.refused error)))
    | _ => none
  | .loses sid error =>
    match t.point with
    | .working id n .provide =>
      if provided t.channel && s.fresh sid then
        some ({ s with accepted := s.accepted ++ [(id, sid)] },
          .working id n (.find (.refused error)))
      else none
    | _ => none
  | .fails made =>
    match t.point with
    | .working id n w =>
      if w = .provide ∧ made = true then none
      else some (failAttempt (if made then w.perform s t.orgId id else s) id n)
    | .enqueue id =>
      some (if made then ({ s with jobs := id :: s.jobs }, .waiting id 0) else (s, .ended))
    | .start | .allowance .. | .create => some (s, .ended)
    | _ => none
  | .lost =>
    match t.point with
    | .allowance .get pending => some (s, .allowance .recount pending)
    | .allowance (.cache count) pending =>
      some (s, assertSmsCreditsAvailable (limit t.orgId) (.known count) pending)
    | _ => none
  | .stop =>
    match t.point with
    | .working id n _ => some (s, .waiting id n)
    | .start | .allowance .. | .create | .enqueue _ => some (s, .ended)
    | _ => none

/-! ## Callbacks -/

def internalStatus (messageStatus : String) : Option String :=
  if messageStatus = "delivered" ∨ messageStatus = "read" then some "delivered"
  else if messageStatus = "failed" ∨ messageStatus = "undelivered" then some "failed"
  else none

/-- Where a callback stands: before this command. -/
inductive CallbackPoint
  | lookup
  | write (id : Id) (orgId : Id)
  | log (orgId : Id)
  /-- `syncUsageCacheFromDb`, and whether `getUsedCount` follows. -/
  | sync (orgId : Id) (snapshot : Bool)
  | cache (orgId : Id) (snapshot : Bool) (count : ℕ)
  | used (orgId : Id) (used : Used)
  | done
  deriving DecidableEq, Repr

structure Callback where
  messageSid : String
  messageStatus : String
  errorCode : Option String := none
  errorMessage : Option String := none
  point : CallbackPoint := .lookup
  deriving DecidableEq, Repr

def Callback.errorText (c : Callback) : Option String :=
  (truthy c.errorCode).map fun code => "Twilio " ++ c.messageStatus ++ " — code " ++ code ++
    ((truthy c.errorMessage).map (": " ++ ·)).getD ""

def Messaging.findByMessageId (s : Messaging) (messageSid : String) : Option (Id × Notification) :=
  (s.notifications.entries.find? fun e => e.2.providerMessageId == some messageSid).map
    fun e => (e.1, e.2)

def Callback.afterLog (c : Callback) (orgId : Id) : CallbackPoint :=
  if c.messageStatus = "sent" ∨ c.messageStatus = "delivered" then .sync orgId true
  else if internalStatus c.messageStatus = some "failed" then .sync orgId false
  else .done

def Callback.report (c : Callback) (status : String) (n : Notification) : Notification :=
  { n with status, errorMessage := c.errorText.or n.errorMessage }

/-- **One step of a callback**, where it goes then. -/
def Callback.next (s : Messaging) (c : Callback) : Move → Option (Messaging × CallbackPoint)
  | .go =>
    match c.point with
    | .lookup =>
      match s.findByMessageId c.messageSid with
      | none => some (s, .done)
      | some (id, n) =>
        some (s, if (internalStatus c.messageStatus).isSome then .write id n.orgId
          else .log n.orgId)
    | .write id orgId =>
      match internalStatus c.messageStatus with
      | some status => some (s.update id (c.report status), .log orgId)
      | none => none
    | .log orgId => some (s, c.afterLog orgId)
    | .sync orgId snapshot => some (s, .cache orgId snapshot (s.countBillableFromDb orgId))
    | .cache orgId snapshot count =>
      some ({ s with usage := s.usage.set orgId count },
        if snapshot then .used orgId .get else .done)
    | .used orgId .get =>
      some (s, if (s.usage.get orgId).isSome then .done else .used orgId .recount)
    | .used orgId .recount => some (s, .used orgId (.cache (s.countBillableFromDb orgId)))
    | .used orgId (.cache count) => some ({ s with usage := s.usage.set orgId count }, .done)
    | .used _ (.known _) | .done => none
  | .lost =>
    match c.point with
    | .cache orgId snapshot _ => some (s, if snapshot then .used orgId .get else .done)
    | .used orgId .get => some (s, .used orgId .recount)
    | .used _ (.cache _) => some (s, .done)
    | _ => none
  | .fails made =>
    match c.point with
    | .write id _ =>
      match internalStatus c.messageStatus with
      | some status => some (if made then s.update id (c.report status) else s, .done)
      | none => none
    | .done => none
    | _ => some (s, .done)
  | .stop => if c.point = .done then none else some (s, .done)
  | _ => none

/-! ## Tasks -/

inductive Task
  | send (t : Send)
  | callback (c : Callback)
  deriving DecidableEq, Repr

/-- **One step of a task.** -/
def next (limit : Id → ℕ) (s : Messaging) : Task → Move → Option (Messaging × Task)
  | .send t, x => (t.next limit s x).map fun r => (r.1, .send { t with point := r.2 })
  | .callback c, x => (c.next s x).map fun r => (r.1, .callback { c with point := r.2 })

/-- What happens without a task. -/
inductive Surroundings
  | later (ms : ℕ)
  /-- A usage key is gone. -/
  | flushed (orgId : Id)

/-- **Sends and callbacks that run together**, with the limit of each organisation. -/
def messaging (limit : Id → ℕ) : System Messaging Task Move Surroundings where
  next := next limit
  world s
    | .later ms => some { s with usage := s.usage.later ms }
    | .flushed orgId => some { s with usage := s.usage.del orgId }

end PatronLoyalty.Delivery
