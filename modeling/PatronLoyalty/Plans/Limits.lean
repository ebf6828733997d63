import PatronLoyalty.Async.Pool
import PatronLoyalty.Async.Redis
import PatronLoyalty.Async.Table
import PatronLoyalty.Loyalty.Schema

/-!
# Plan limits

The requests that add to what a plan limits, from their count to their write: `QueueService.create`,
`UserService.invite`, `activate` and `setPasswordForUser`, and `TicketIssuanceService.issueTicket` with the
cached number of tickets of the month. Each counts first and writes later, in another statement; the
number of tickets is incremented by a command that nobody waits for.

`Resource`: what is limited. Headline: **`within_limits`**. The condition: who adds to a resource has passed
the check of this resource, or there is room; a cached number of tickets passes the check only if the
number issued does; and a write leaves room for the others that have passed the check already.
-/

namespace PatronLoyalty.Limits

open Async
open Loyalty (Id)

/-! ## Records -/

structure Queue where
  orgId : Id
  branchId : Id
  /-- `QueueService.create` has made it. -/
  created : Bool
  deriving DecidableEq, Repr

structure User where
  orgId : Id
  status : String
  deriving DecidableEq, Repr

structure Ticket where
  orgId : Id
  bookedAt : ℕ
  /-- `TicketIssuanceService.issueTicket` has made it. -/
  issued : Bool
  deriving DecidableEq, Repr

structure Office where
  queues : AList fun _ : Id => Queue
  users : AList fun _ : Id => User
  tickets : List Ticket
  /-- `org:…:tickets-count:…` -/
  counts : Redis (Id × ℕ) ℕ

structure PlanLimits where
  maxQueuesPerBranch : Option ℕ := none
  maxUsers : Option ℕ := none
  maxTicketsPerMonth : Option ℕ := none
  deriving DecidableEq, Repr

/-- The plans of the organisations, and the months of the calendar. -/
structure Deployment where
  limits : Id → PlanLimits
  monthOf : ℕ → ℕ

structure LimitCheckResult where
  allowed : Bool
  limitReached : Bool
  limit : ℤ
  current : ℕ
  deriving DecidableEq, Repr

/-- `PlanLimitService.checkLimit` -/
def checkLimit (limit : Option ℕ) (currentCount : ℕ) : LimitCheckResult :=
  let limitReached := limit.any (· ≤ currentCount)
  { allowed := !limitReached
    limitReached
    limit := limit.elim (-1) Int.ofNat
    current := currentCount }

/-! ## What is limited -/

inductive Resource
  | queues (orgId branchId : Id)
  | seats (orgId : Id)
  | tickets (orgId : Id) (month : ℕ)
  deriving DecidableEq, Repr

def Deployment.limit (cfg : Deployment) : Resource → Option ℕ
  | .queues orgId _ => (cfg.limits orgId).maxQueuesPerBranch
  | .seats orgId => (cfg.limits orgId).maxUsers
  | .tickets orgId _ => (cfg.limits orgId).maxTicketsPerMonth

/-- How many there are, of those that the requests have made. -/
def Office.used (cfg : Deployment) (s : Office) : Resource → ℕ
  | .queues orgId branchId => s.queues.entries.countP fun e =>
      e.2.orgId == orgId && e.2.branchId == branchId && e.2.created
  | .seats orgId => s.users.entries.countP fun e => e.2.orgId == orgId && e.2.status == "active"
  | .tickets orgId month => s.tickets.countP fun t =>
      t.orgId == orgId && t.issued && cfg.monthOf t.bookedAt == month

def Office.room (cfg : Deployment) (s : Office) (r : Resource) (n : ℕ) : Bool :=
  (cfg.limit r).all (s.used cfg r + n ≤ ·)

/-! ## Requests -/

/-- Where a request that makes a row stands: before this command. -/
inductive CreatePoint
  | count
  | create
  | ended
  deriving DecidableEq, Repr

/-- `QueueService.create`, after its checks of branch, service and prefix. -/
structure Create where
  orgId : Id
  branchId : Id
  point : CreatePoint := .count
  deriving DecidableEq, Repr

/-- `UserService.invite`, after its checks of role and address. -/
structure Invite where
  orgId : Id
  point : CreatePoint := .count
  deriving DecidableEq, Repr

/-- Where `activate` stands, and whether it has passed the check. -/
inductive ActivatePoint
  | find
  | count
  | update (checked : Bool)
  | ended
  deriving DecidableEq, Repr

structure Activate where
  orgId : Id
  userId : Id
  point : ActivatePoint := .find
  deriving DecidableEq, Repr

/-- Where `setPasswordForUser` stands. -/
inductive SetPoint
  | find
  | update
  | ended
  deriving DecidableEq, Repr

structure SetPassword where
  orgId : Id
  userId : Id
  point : SetPoint := .find
  deriving DecidableEq, Repr

/-- Where `issueTicket` stands, with the month it counts. -/
inductive IssuePoint
  | cached
  | count (month : ℕ)
  | cache (month count : ℕ)
  | create (month : ℕ)
  | incr
  | ended
  deriving DecidableEq, Repr

structure Issue where
  orgId : Id
  point : IssuePoint := .cached
  deriving DecidableEq, Repr

inductive Task
  | create (t : Create)
  | invite (t : Invite)
  | activate (t : Activate)
  | setPassword (t : SetPassword)
  | issue (t : Issue)
  deriving DecidableEq, Repr

/-- What a task meets at its next command. -/
inductive Move
  | go
  | created (id : Id)
  /-- A command of Redis fails, and nobody is told. -/
  | lost
  /-- A command of the database throws, another check refuses, or the process dies. -/
  | fails
  deriving DecidableEq, Repr

def passes (limit : Option ℕ) (count : ℕ) : Bool := !(checkLimit limit count).limitReached

def Create.next (cfg : Deployment) (s : Office) (t : Create) : Move → Option (Office × CreatePoint)
  | .go =>
    match t.point with
    | .count =>
      let currentQueueCount := s.queues.entries.countP fun e =>
        e.2.branchId == t.branchId && e.2.orgId == t.orgId
      some (s, if passes (cfg.limits t.orgId).maxQueuesPerBranch currentQueueCount then .create
        else .ended)
    | .create | .ended => none
  | .created id =>
    if t.point = .create ∧ s.queues.lookup id = none then
      some ({ s with queues := s.queues.insert id ⟨t.orgId, t.branchId, true⟩ }, .ended)
    else none
  | .fails => if t.point = .ended then none else some (s, .ended)
  | .lost => none

/-- `count({ where: { orgId, status: 'active' } })` -/
def Office.activeSeatCount (s : Office) (orgId : Id) : ℕ :=
  s.users.entries.countP fun e => e.2.orgId == orgId && e.2.status == "active"

def Invite.next (cfg : Deployment) (s : Office) (t : Invite) : Move → Option (Office × CreatePoint)
  | .go =>
    match t.point with
    | .count =>
      some (s, if passes (cfg.limits t.orgId).maxUsers (s.activeSeatCount t.orgId) then .create
        else .ended)
    | .create | .ended => none
  | .created id =>
    if t.point = .create ∧ s.users.lookup id = none then
      some ({ s with users := s.users.insert id ⟨t.orgId, "active"⟩ }, .ended)
    else none
  | .fails => if t.point = .ended then none else some (s, .ended)
  | .lost => none

/-- `update({ where: { id }, data: { status: 'active' } })`, under the organisation's policy. -/
def Office.activate (s : Office) (orgId userId : Id) : Office :=
  match s.users.lookup userId with
  | some u =>
    if u.orgId = orgId then { s with users := s.users.insert userId { u with status := "active" } }
    else s
  | none => s

def Activate.next (cfg : Deployment) (s : Office) (t : Activate) :
    Move → Option (Office × ActivatePoint)
  | .go =>
    match t.point with
    | .find =>
      some (s, match s.users.lookup t.userId with
        | none => .ended
        | some u =>
          if u.orgId ≠ t.orgId then .ended
          else if u.status ≠ "active" then .count
          else .update false)
    | .count =>
      some (s, if passes (cfg.limits t.orgId).maxUsers (s.activeSeatCount t.orgId) then .update true
        else .ended)
    | .update _ => some (s.activate t.orgId t.userId, .ended)
    | .ended => none
  | .fails => if t.point = .ended then none else some (s, .ended)
  | .created _ | .lost => none

def SetPassword.next (s : Office) (t : SetPassword) : Move → Option (Office × SetPoint)
  | .go =>
    match t.point with
    | .find =>
      some (s, if (s.users.lookup t.userId).any (·.orgId == t.orgId) = true then .update else .ended)
    | .update => some (s.activate t.orgId t.userId, .ended)
    | .ended => none
  | .fails => if t.point = .ended then none else some (s, .ended)
  | .created _ | .lost => none

def Issue.checked (cfg : Deployment) (t : Issue) (month ticketsThisMonth : ℕ) : IssuePoint :=
  if passes (cfg.limits t.orgId).maxTicketsPerMonth ticketsThisMonth then .create month else .ended

/-- The count of `getMonthlyTicketCount`: since the month began. -/
def Office.ticketsSince (cfg : Deployment) (s : Office) (orgId month : ℕ) : ℕ :=
  s.tickets.countP fun t => t.orgId == orgId && decide (month ≤ cfg.monthOf t.bookedAt)

/-- `86400 * 32` -/
def countTtlSeconds : ℕ := 86400 * 32

def Issue.next (cfg : Deployment) (s : Office) (t : Issue) : Move → Option (Office × IssuePoint)
  | .go =>
    match t.point with
    | .cached =>
      let month := cfg.monthOf s.counts.now
      some (s, match s.counts.get (t.orgId, month) with
        | some cached => t.checked cfg month cached
        | none => .count month)
    | .count month => some (s, .cache month (s.ticketsSince cfg t.orgId month))
    | .cache month count =>
      some ({ s with counts := s.counts.setex (t.orgId, month) countTtlSeconds count },
        t.checked cfg month count)
    | .create _ =>
      some ({ s with tickets := ⟨t.orgId, s.counts.now, true⟩ :: s.tickets }, .incr)
    | .incr =>
      some ({ s with counts := (s.counts.incr (t.orgId, cfg.monthOf s.counts.now)).2 }, .ended)
    | .ended => none
  | .lost =>
    match t.point with
    | .cached => some (s, .count (cfg.monthOf s.counts.now))
    | .cache month count => some (s, t.checked cfg month count)
    | _ => none
  | .fails => if t.point = .ended then none else some (s, .ended)
  | .created _ => none

/-- **One step of a request.** -/
def next (cfg : Deployment) (s : Office) : Task → Move → Option (Office × Task)
  | .create t, x => (t.next cfg s x).map fun r => (r.1, .create { t with point := r.2 })
  | .invite t, x => (t.next cfg s x).map fun r => (r.1, .invite { t with point := r.2 })
  | .activate t, x => (t.next cfg s x).map fun r => (r.1, .activate { t with point := r.2 })
  | .setPassword t, x => (t.next s x).map fun r => (r.1, .setPassword { t with point := r.2 })
  | .issue t, x => (t.next cfg s x).map fun r => (r.1, .issue { t with point := r.2 })

/-- What happens without these requests. -/
inductive World
  | later (n : ℕ)
  /-- A queue that the guided setup makes. -/
  | queue (id : Id) (orgId branchId : Id)
  | queueDeleted (id : Id)
  | deactivated (id : Id)
  | userDeleted (id : Id)
  /-- A ticket of a journey's next step, or of a transfer. -/
  | ticket (orgId : Id)
  deriving DecidableEq, Repr

def world (s : Office) : World → Option Office
  | .later n => some { s with counts := s.counts.later n }
  | .queue id orgId branchId =>
    if s.queues.lookup id = none then
      some { s with queues := s.queues.insert id ⟨orgId, branchId, false⟩ }
    else none
  | .queueDeleted id => some { s with queues := s.queues.erase id }
  | .deactivated id =>
    match s.users.lookup id with
    | some u => some { s with users := s.users.insert id { u with status := "inactive" } }
    | none => none
  | .userDeleted id => some { s with users := s.users.erase id }
  | .ticket orgId => some { s with tickets := ⟨orgId, s.counts.now, false⟩ :: s.tickets }

/-- **Requests that add to what is limited, together.** -/
def growing (cfg : Deployment) : System Office Task Move World where
  next := next cfg
  world := world

/-! ## What is to hold, and the condition -/

/-- **No limit is exceeded.** -/
def Within (cfg : Deployment) (s : Office) : Prop := ∀ r, s.room cfg r 0 = true

def Task.passed (cfg : Deployment) : Task → Option Resource
  | .create t => if t.point = .create then some (.queues t.orgId t.branchId) else none
  | .invite t => if t.point = .create then some (.seats t.orgId) else none
  | .activate t => if t.point = .update true then some (.seats t.orgId) else none
  | .setPassword _ => none
  | .issue t =>
    match t.point with
    | .cache month count =>
      if passes (cfg.limits t.orgId).maxTicketsPerMonth count then some (.tickets t.orgId month)
      else none
    | .create month => some (.tickets t.orgId month)
    | _ => none

/-- The seat that an update takes: that of a user who is not active. -/
def Office.seat (s : Office) (orgId userId : Id) : Option Resource :=
  match s.users.lookup userId with
  | some u => if u.orgId = orgId ∧ u.status ≠ "active" then some (.seats orgId) else none
  | none => none

def Task.adds (cfg : Deployment) (s : Office) : Task → Option Resource
  | .create t => if t.point = .create then some (.queues t.orgId t.branchId) else none
  | .invite t => if t.point = .create then some (.seats t.orgId) else none
  | .activate t =>
    match t.point with
    | .update _ => s.seat t.orgId t.userId
    | _ => none
  | .setPassword t => if t.point = .update then s.seat t.orgId t.userId else none
  | .issue t =>
    match t.point with
    | .create _ => some (.tickets t.orgId (cfg.monthOf s.counts.now))
    | _ => none

/-- The resource whose check passes on a cached number. -/
def Task.trusts (cfg : Deployment) (s : Office) : Task → Option Resource
  | .issue t =>
    if t.point = .cached then
      match s.counts.get (t.orgId, cfg.monthOf s.counts.now) with
      | some cached =>
        if passes (cfg.limits t.orgId).maxTicketsPerMonth cached then
          some (.tickets t.orgId (cfg.monthOf s.counts.now))
        else none
      | none => none
    else none
  | _ => none

/-- **The condition on the steps of a run.** -/
abbrev admissible (cfg : Deployment) : System.Condition Office Task Move World where
  task s t x := (x ≠ .fails → ∀ r ∈ t.adds cfg s, t.passed cfg = some r ∨ s.room cfg r 1 = true) ∧
    (x = .go → ∀ r ∈ t.trusts cfg s, s.room cfg r 1 = true)
  others s t x u := x ≠ .fails → ∀ r ∈ t.adds cfg s, u.passed cfg = some r → s.room cfg r 2 = true

/-! ## What is known -/

section

variable {cfg : Deployment} {s s' : Office} {r : Resource} {t t' : Task} {x : Move}

theorem room_iff {n : ℕ} : s.room cfg r n = true ↔ ∀ l, cfg.limit r = some l → s.used cfg r + n ≤ l := by
  unfold Office.room
  cases cfg.limit r with
  | none => simp
  | some l => simp

theorem room_of_le {n n' : ℕ} (h : s.room cfg r n = true) (hu : s'.used cfg r + n' ≤ s.used cfg r + n) :
    s'.room cfg r n' = true :=
  room_iff.mpr fun l hl => le_trans hu (room_iff.mp h l hl)

theorem room_of_passes {count : ℕ} (h : passes (cfg.limit r) count = true)
    (hu : s.used cfg r ≤ count) : s.room cfg r 1 = true := by
  refine room_iff.mpr fun l hl => ?_
  unfold passes checkLimit at h
  rw [hl] at h
  simp only [Option.any_some, Bool.not_eq_true', decide_eq_false_iff_not] at h
  omega

/-- What a step does to what there is. -/
structure Adds (cfg : Deployment) (s s' : Office) (a : Option Resource) : Prop where
  used (r : Resource) : s'.used cfg r ≤ s.used cfg r + if a = some r then 1 else 0

theorem Adds.refl {a : Option Resource} : Adds cfg s s a := ⟨fun _ => Nat.le_add_right _ _⟩

/-- Only the cache changes. -/
theorem adds_counts {c : Redis (Id × ℕ) ℕ} {a : Option Resource} :
    Adds cfg s { s with counts := c } a :=
  ⟨fun r => by cases r <;> exact Nat.le_add_right _ _⟩

theorem adds_queue {id : Id} {q : Queue} (h : s.queues.lookup id = none) :
    Adds cfg s { s with queues := s.queues.insert id q }
      (if q.created then some (.queues q.orgId q.branchId) else none) := by
  refine ⟨fun r => ?_⟩
  cases r with
  | queues orgId branchId =>
    show (s.queues.insert id q).entries.countP _ ≤ _
    rw [countP_insert_new _ h]
    refine Nat.add_le_add_left ?_ _
    split
    · rename_i hq
      simp only [Bool.and_eq_true, beq_iff_eq] at hq
      obtain ⟨⟨ho, hb⟩, hc⟩ := hq
      rw [if_pos (by rw [if_pos hc, ho, hb])]
    · exact Nat.zero_le _
  | seats | tickets => exact Nat.le_add_right _ _

theorem adds_user {id : Id} {u : User} (h : s.users.lookup id = none) :
    Adds cfg s { s with users := s.users.insert id u } (some (.seats u.orgId)) := by
  refine ⟨fun r => ?_⟩
  cases r with
  | seats orgId =>
    show (s.users.insert id u).entries.countP _ ≤ _
    rw [countP_insert_new _ h]
    refine Nat.add_le_add_left ?_ _
    split
    · rename_i hq
      rw [if_pos (by rw [eq_of_beq (Bool.and_eq_true_iff.mp hq).1])]
    · exact Nat.zero_le _
  | queues | tickets => exact Nat.le_add_right _ _

theorem adds_status {id : Id} {u : User} (h : s.users.lookup id = some u) (status : String) :
    Adds cfg s { s with users := s.users.insert id { u with status } }
      (if u.status ≠ "active" ∧ status = "active" then some (.seats u.orgId) else none) := by
  refine ⟨fun r => ?_⟩
  cases r with
  | seats orgId =>
    show (s.users.insert id { u with status }).entries.countP _ ≤ _
    have hc := countP_insert_row (w := { u with status })
      (fun e => e.2.orgId == orgId && e.2.status == "active") h
    by_cases hs : u.orgId = orgId ∧ status = "active"
    · obtain ⟨rfl, rfl⟩ := hs
      by_cases hu : u.status = "active"
      · simp only [hu, beq_self_eq_true, Bool.and_self, if_true] at hc
        refine le_trans (Nat.le_of_eq ?_) (Nat.le_add_right _ _)
        exact Nat.add_right_cancel hc
      · rw [if_pos (if_pos ⟨hu, rfl⟩)]
        simp only [beq_eq_false_iff_ne.mpr hu, beq_self_eq_true, Bool.and_self, Bool.and_false,
          if_true] at hc
        exact Nat.le_of_eq hc
    · refine le_trans ?_ (Nat.le_add_right _ _)
      have h0 : (u.orgId == orgId && status == "active") = false := by
        by_contra hne
        simp only [Bool.not_eq_false, Bool.and_eq_true, beq_iff_eq] at hne
        exact hs hne
      simp only [h0] at hc
      exact le_trans (Nat.le_add_right _ _) (Nat.le_of_eq hc)
  | queues | tickets => exact Nat.le_add_right _ _

theorem adds_ticket {orgId : Id} {issued : Bool} :
    Adds cfg s { s with tickets := ⟨orgId, s.counts.now, issued⟩ :: s.tickets }
      (if issued then some (.tickets orgId (cfg.monthOf s.counts.now)) else none) := by
  refine ⟨fun r => ?_⟩
  cases r with
  | tickets o month =>
    show List.countP _ (_ :: s.tickets) ≤ _
    rw [List.countP_cons]
    refine Nat.add_le_add_left ?_ _
    split
    · rename_i hq
      simp only [Bool.and_eq_true, beq_iff_eq] at hq
      obtain ⟨⟨ho, hi⟩, hm⟩ := hq
      rw [if_pos (by rw [if_pos hi, ho, hm])]
    · exact Nat.zero_le _
  | queues | seats => exact Nat.le_add_right _ _

theorem adds_activate (orgId userId : Id) :
    Adds cfg s (s.activate orgId userId) (s.seat orgId userId) := by
  unfold Office.activate Office.seat
  cases hu : s.users.lookup userId with
  | none => exact .refl
  | some u =>
    dsimp only
    split
    · rename_i ho
      refine ⟨fun r => le_trans ((adds_status hu "active").used r) (Nat.add_le_add_left ?_ _)⟩
      subst ho
      by_cases ha : u.status = "active"
      · rw [if_neg (by simp [ha])]
        exact Nat.zero_le _
      · simp [ha]
    · exact .refl

/-! ## Steps -/

/-- **What a step is to show**: what it adds, and that a check it passes leaves room. -/
structure Step (cfg : Deployment) (s s' : Office) (t t' : Task) (x : Move) : Prop where
  adds : Adds cfg s s' (if x = .fails then none else t.adds cfg s)
  passed {r : Resource} : t'.passed cfg = some r →
    t.passed cfg = some r ∧ t.adds cfg s = none ∨ s' = s ∧ s.room cfg r 1 = true

/-- A request that ends without a write. -/
theorem step_idle (h : t'.passed cfg = none) : Step cfg s s t t' x :=
  ⟨.refl, fun hp => by rw [h] at hp; cases hp⟩

/-- A request that makes its row, or its update. -/
theorem step_adds (ha : Adds cfg s s' (t.adds cfg s)) (hx : x ≠ .fails) (h : t'.passed cfg = none) :
    Step cfg s s' t t' x :=
  ⟨by rw [if_neg hx]; exact ha, fun hp => by rw [h] at hp; cases hp⟩

theorem step_checked (h : ∀ r, t'.passed cfg = some r → s.room cfg r 1 = true) :
    Step cfg s s t t' x :=
  ⟨.refl, fun hp => Or.inr ⟨rfl, h _ hp⟩⟩

theorem step_create {t : Create} {q : CreatePoint} (hn : t.next cfg s x = some (s', q)) :
    Step cfg s s' (.create t) (.create { t with point := q }) x := by
  cases x with
  | go =>
    cases hp : t.point with
    | count =>
      simp only [Create.next, hp] at hn
      cases hn
      split
      · rename_i hpass
        refine step_checked fun r hr => ?_
        cases hr
        refine room_of_passes hpass ?_
        refine List.countP_mono_left fun e _ he => ?_
        simp only [Bool.and_eq_true] at he ⊢
        exact ⟨he.1.2, he.1.1⟩
      · exact step_idle rfl
    | create =>
      simp only [Create.next, hp] at hn
      cases hn
    | ended =>
      simp only [Create.next, hp] at hn
      cases hn
  | created id =>
    simp only [Create.next] at hn
    split at hn
    · rename_i hid
      cases hn
      refine step_adds ?_ (by simp) rfl
      rw [show Task.adds cfg s (.create t) = some (.queues t.orgId t.branchId) from if_pos hid.1]
      exact adds_queue (q := ⟨t.orgId, t.branchId, true⟩) hid.2
    · cases hn
  | fails =>
    obtain ⟨rfl, rfl⟩ := ended_of_fails hn
    exact step_idle rfl
  | lost => cases hn

theorem step_invite {t : Invite} {q : CreatePoint} (hn : t.next cfg s x = some (s', q)) :
    Step cfg s s' (.invite t) (.invite { t with point := q }) x := by
  cases x with
  | go =>
    cases hp : t.point with
    | count =>
      simp only [Invite.next, hp] at hn
      cases hn
      split
      · rename_i hpass
        refine step_checked fun r hr => ?_
        cases hr
        exact room_of_passes hpass (Nat.le_refl _)
      · exact step_idle rfl
    | create =>
      simp only [Invite.next, hp] at hn
      cases hn
    | ended =>
      simp only [Invite.next, hp] at hn
      cases hn
  | created id =>
    simp only [Invite.next] at hn
    split at hn
    · rename_i hid
      cases hn
      refine step_adds ?_ (by simp) rfl
      rw [show Task.adds cfg s (.invite t) = some (.seats t.orgId) from if_pos hid.1]
      exact adds_user hid.2
    · cases hn
  | fails =>
    obtain ⟨rfl, rfl⟩ := ended_of_fails hn
    exact step_idle rfl
  | lost => cases hn

theorem step_activate {t : Activate} {q : ActivatePoint} (hn : t.next cfg s x = some (s', q)) :
    Step cfg s s' (.activate t) (.activate { t with point := q }) x := by
  cases x with
  | go =>
    cases hp : t.point with
    | find =>
      simp only [Activate.next, hp] at hn
      cases hn
      split
      · exact step_idle rfl
      · split
        · exact step_idle rfl
        · split
          · exact step_idle rfl
          · exact step_idle rfl
    | count =>
      simp only [Activate.next, hp] at hn
      cases hn
      split
      · rename_i hpass
        refine step_checked fun r hr => ?_
        cases hr
        exact room_of_passes hpass (Nat.le_refl _)
      · exact step_idle rfl
    | update checked =>
      simp only [Activate.next, hp] at hn
      cases hn
      refine step_adds ?_ (by simp) rfl
      have ha : Task.adds cfg s (.activate t) = s.seat t.orgId t.userId := by
        simp only [Task.adds, hp]
      rw [ha]
      exact adds_activate _ _
    | ended =>
      simp only [Activate.next, hp] at hn
      cases hn
  | fails =>
    obtain ⟨rfl, rfl⟩ := ended_of_fails hn
    exact step_idle rfl
  | created id => cases hn
  | lost => cases hn

theorem step_setPassword {t : SetPassword} {q : SetPoint} (hn : t.next s x = some (s', q)) :
    Step cfg s s' (.setPassword t) (.setPassword { t with point := q }) x := by
  cases x with
  | go =>
    cases hp : t.point with
    | find =>
      simp only [SetPassword.next, hp] at hn
      cases hn
      exact step_idle rfl
    | update =>
      simp only [SetPassword.next, hp] at hn
      cases hn
      refine step_adds ?_ (by simp) rfl
      rw [show Task.adds cfg s (.setPassword t) = s.seat t.orgId t.userId from if_pos hp]
      exact adds_activate _ _
    | ended =>
      simp only [SetPassword.next, hp] at hn
      cases hn
  | fails =>
    obtain ⟨rfl, rfl⟩ := ended_of_fails hn
    exact step_idle rfl
  | created id => cases hn
  | lost => cases hn

theorem used_le_ticketsSince (orgId month : ℕ) :
    s.used cfg (.tickets orgId month) ≤ s.ticketsSince cfg orgId month := by
  refine List.countP_mono_left fun t _ ht => ?_
  simp only [Bool.and_eq_true, beq_iff_eq, decide_eq_true_eq] at ht ⊢
  exact ⟨ht.1.1, Nat.le_of_eq ht.2.symm⟩

theorem passed_of_checked {t : Issue} {month count : ℕ} (hp : t.point = .cache month count)
    (h : (Task.issue { t with point := t.checked cfg month count }).passed cfg = some r) :
    (Task.issue t).passed cfg = some r ∧ (Task.issue t).adds cfg s = none := by
  constructor
  · unfold Issue.checked at h
    simp only [Task.passed, hp]
    split at h
    · rename_i hpass
      rw [if_pos hpass]
      exact h
    · cases h
  · simp only [Task.adds, hp]

theorem step_issue {t : Issue} {q : IssuePoint}
    (hx : x = .go → ∀ r ∈ (Task.issue t).trusts cfg s, s.room cfg r 1 = true)
    (hn : t.next cfg s x = some (s', q)) :
    Step cfg s s' (.issue t) (.issue { t with point := q }) x := by
  cases x with
  | go =>
    cases hp : t.point with
    | cached =>
      simp only [Issue.next, hp] at hn
      cases hn
      cases hc : s.counts.get (t.orgId, cfg.monthOf s.counts.now) with
      | none => exact step_idle rfl
      | some cached =>
        refine step_checked fun r hr => hx rfl r ?_
        simp only [Issue.checked] at hr
        simp only [Task.trusts, hp, if_true, hc]
        split at hr
        · rename_i hpass
          rw [if_pos hpass]
          exact hr
        · cases hr
    | count month =>
      simp only [Issue.next, hp] at hn
      cases hn
      refine step_checked fun r hr => ?_
      simp only [Task.passed] at hr
      split at hr
      · rename_i hpass
        cases hr
        exact room_of_passes hpass (used_le_ticketsSince _ _)
      · cases hr
    | cache month count =>
      simp only [Issue.next, hp] at hn
      cases hn
      exact ⟨adds_counts, fun hr => Or.inl (passed_of_checked hp hr)⟩
    | create month =>
      simp only [Issue.next, hp] at hn
      cases hn
      refine step_adds ?_ (by simp) rfl
      have ha : Task.adds cfg s (.issue t) = some (.tickets t.orgId (cfg.monthOf s.counts.now)) := by
        simp only [Task.adds, hp]
      rw [ha]
      exact adds_ticket
    | incr =>
      simp only [Issue.next, hp] at hn
      cases hn
      exact ⟨adds_counts, nofun⟩
    | ended =>
      simp only [Issue.next, hp] at hn
      cases hn
  | lost =>
    cases hp : t.point with
    | cached =>
      simp only [Issue.next, hp] at hn
      cases hn
      exact step_idle rfl
    | cache month count =>
      simp only [Issue.next, hp] at hn
      cases hn
      exact ⟨.refl, fun hr => Or.inl (passed_of_checked hp hr)⟩
    | count | create | incr | ended =>
      simp only [Issue.next, hp] at hn
      cases hn
  | fails =>
    obtain ⟨rfl, rfl⟩ := ended_of_fails hn
    exact step_idle rfl
  | created id => cases hn

/-- **One step.** -/
theorem step_next (hx : x = .go → ∀ r ∈ t.trusts cfg s, s.room cfg r 1 = true)
    (hn : next cfg s t x = some (s', t')) : Step cfg s s' t t' x := by
  cases t with
  | create t =>
    obtain ⟨⟨m, q⟩, hn', he⟩ := Option.map_eq_some_iff.mp hn
    cases he
    exact step_create hn'
  | invite t =>
    obtain ⟨⟨m, q⟩, hn', he⟩ := Option.map_eq_some_iff.mp hn
    cases he
    exact step_invite hn'
  | activate t =>
    obtain ⟨⟨m, q⟩, hn', he⟩ := Option.map_eq_some_iff.mp hn
    cases he
    exact step_activate hn'
  | setPassword t =>
    obtain ⟨⟨m, q⟩, hn', he⟩ := Option.map_eq_some_iff.mp hn
    cases he
    exact step_setPassword hn'
  | issue t =>
    obtain ⟨⟨m, q⟩, hn', he⟩ := Option.map_eq_some_iff.mp hn
    cases he
    exact step_issue hx hn'

theorem Step.used_le (h : Step cfg s s' t t' x) (r : Resource) : s'.used cfg r ≤ s.used cfg r ∨
    x ≠ .fails ∧ t.adds cfg s = some r ∧ s'.used cfg r ≤ s.used cfg r + 1 := by
  have hle := h.adds.used r
  by_cases hf : x = .fails
  · rw [if_pos hf, if_neg (by simp)] at hle
    exact Or.inl hle
  · rw [if_neg hf] at hle
    by_cases ha : t.adds cfg s = some r
    · rw [if_pos ha] at hle
      exact Or.inr ⟨hf, ha, hle⟩
    · rw [if_neg ha] at hle
      exact Or.inl hle

/-- Who has passed the check finds room. -/
def Cleared (cfg : Deployment) (s : Office) (t : Task) : Prop :=
  ∀ r ∈ t.passed cfg, s.room cfg r 1 = true

/-- **What a step keeps**: the limits, and room for those who have passed the check. -/
theorem keptBy_next (hs : Within cfg s) (ht : Cleared cfg s t) (hx : (admissible cfg).task s t x)
    (hn : next cfg s t x = some (s', t')) :
    System.KeptBy (Within cfg) (Cleared cfg) (fun _ _ => True) ((admissible cfg).others s t x) s t
      s' t' := by
  have hstep := step_next hx.2 hn
  refine ⟨fun r => ?_, fun r hr => ?_, fun {u} hR hu _ _ => ⟨fun r hr => ?_, trivial, trivial⟩⟩
  · rcases hstep.used_le r with hle | ⟨hf, ha, hle⟩
    · exact room_of_le (hs r) hle
    · rcases hx.1 hf r ha with hp | hroom
      · exact room_of_le (ht r hp) hle
      · exact room_of_le hroom hle
  · rcases hstep.passed hr with ⟨hp, ha⟩ | ⟨rfl, hroom⟩
    · rcases hstep.used_le r with hle | ⟨-, ha', -⟩
      · exact room_of_le (ht r hp) (Nat.add_le_add_right hle 1)
      · rw [ha] at ha'
        cases ha'
    · exact hroom
  · rcases hstep.used_le r with hle | ⟨hf, ha, hle⟩
    · exact room_of_le (hu r hr) (Nat.add_le_add_right hle 1)
    · exact room_of_le (hR hf r ha hr) (Nat.add_le_add_right hle 1)

theorem adds_world {w : World} (hw : world s w = some s') : Adds cfg s s' none := by
  cases w with
  | later n =>
    cases hw
    exact adds_counts
  | queue id orgId branchId =>
    simp only [world] at hw
    split at hw
    · rename_i hid
      cases hw
      exact adds_queue (q := ⟨orgId, branchId, false⟩) hid
    · cases hw
  | queueDeleted id =>
    cases hw
    refine ⟨fun r => ?_⟩
    cases r with
    | queues =>
      exact le_trans (List.kerase_sublist id s.queues.entries).countP_le (Nat.le_add_right _ _)
    | seats | tickets => exact Nat.le_add_right _ _
  | deactivated id =>
    simp only [world] at hw
    split at hw
    · rename_i u hu
      cases hw
      have ha : Adds cfg s _ _ := adds_status hu "inactive"
      rw [if_neg (by simp)] at ha
      exact ha
    · cases hw
  | userDeleted id =>
    cases hw
    refine ⟨fun r => ?_⟩
    cases r with
    | seats =>
      exact le_trans (List.kerase_sublist id s.users.entries).countP_le (Nat.le_add_right _ _)
    | queues | tickets => exact Nat.le_add_right _ _
  | ticket orgId =>
    cases hw
    have ha : Adds cfg s { s with tickets := ⟨orgId, s.counts.now, false⟩ :: s.tickets } none :=
      adds_ticket
    exact ha

end

/-! ## Runs -/

/-- Nobody has begun, and no limit is exceeded. -/
structure Fresh (cfg : Deployment) (p : Pool Office Task) : Prop where
  within : Within cfg p.shared
  begins {t : Task} : t ∈ p.tasks → t.passed cfg = none

section

variable {cfg : Deployment} {p p' : Pool Office Task}

/-- **No limit is exceeded.** -/
theorem within_limits (h0 : Fresh cfg p)
    (h : System.Reaches (growing cfg) (admissible cfg).Meets p p') : Within cfg p'.shared := by
  have hinv : System.Invariant (Within cfg) (Cleared cfg) (fun _ _ => True) p := by
    refine ⟨h0.within, fun {i t} hi r hr => ?_, fun _ _ _ => trivial⟩
    rw [h0.begins (List.mem_of_getElem? hi)] at hr
    cases hr
  refine (h.invariant hinv (fun _ _ _ _ _ hs ht hx hn => keptBy_next hs ht hx hn)
    fun s w s' hs _ hw => ?_).shared
  have ha : Adds cfg s s' none := adds_world hw
  have hle := ha.used
  simp only [reduceCtorEq, if_false] at hle
  exact ⟨fun r => room_of_le (hs r) (Nat.add_le_add_right (hle r) 0),
    fun u hu r hr => room_of_le (hu r hr) (Nat.add_le_add_right (hle r) 1)⟩

end

/-! ## A small plan -/

/-- One queue, one seat and one ticket. -/
def smallPlan : Deployment where
  limits _ := { maxQueuesPerBranch := some 1, maxUsers := some 1, maxTicketsPerMonth := some 1 }
  monthOf now := now / 1000

/-- Two requests of each kind. -/
def newOffice : Pool Office Task where
  shared := { queues := ∅, users := ∅, tickets := [], counts := ⟨0, fun _ => none⟩ }
  tasks :=
    [.create { orgId := 1, branchId := 10 }, .create { orgId := 1, branchId := 10 },
      .invite { orgId := 1 }, .invite { orgId := 1 },
      .issue { orgId := 1 }, .issue { orgId := 1 }]

theorem fresh_newOffice : Fresh smallPlan newOffice where
  within r := by cases r <;> rfl
  begins {t} ht :=
    (show ∀ t ∈ newOffice.tasks, t.passed smallPlan = none by decide) t ht

/-- A request goes on for `n` steps. -/
def goes (i n : ℕ) : List (Label Move World) := List.replicate n (.task i .go)

instance (cfg : Deployment) (p : Pool Office Task) (l : Label Move World) :
    Decidable ((admissible cfg).Meets p l) :=
  inferInstance

/-- One after the other, the first request of each kind is let through, and the second is not. -/
theorem within_limits_newOffice : ∃ p' : Pool Office Task, Within smallPlan p'.shared ∧
    p'.tasks.all (·.adds smallPlan p'.shared == none) = true ∧
    p'.shared.used smallPlan (.queues 1 10) = 1 ∧ p'.shared.used smallPlan (.seats 1) = 1 ∧
    p'.shared.used smallPlan (.tickets 1 0) = 1 := by
  obtain ⟨p', hreach, hp⟩ := System.exists_meets (S := growing smallPlan) (admissible smallPlan)
    newOffice (goes 0 1 ++ [.task 0 (.created 7)] ++ goes 1 1 ++ goes 2 1 ++ [.task 2 (.created 8)] ++
      goes 3 1 ++ goes 4 5 ++ goes 5 1)
    (fun p => decide (p.tasks.all (·.adds smallPlan p.shared == none) = true ∧
      p.shared.used smallPlan (.queues 1 10) = 1 ∧ p.shared.used smallPlan (.seats 1) = 1 ∧
      p.shared.used smallPlan (.tickets 1 0) = 1))
    (by decide +kernel)
  exact ⟨p', within_limits fresh_newOffice hreach, of_decide_eq_true hp⟩

/-- **Not every run keeps within the limits**: two requests that count before either has made its queue both
make one. -/
theorem exists_over_limit : ¬ ∀ (cfg : Deployment) (p p' : Pool Office Task), Fresh cfg p →
    System.Reaches (growing cfg) (fun _ _ => True) p p' → Within cfg p'.shared := by
  intro h
  obtain ⟨p', hreach, hp⟩ := System.exists_reaches (S := growing smallPlan) (P := fun _ _ => True)
    (fun _ _ => true) (fun _ _ _ => trivial) newOffice
    (goes 0 1 ++ goes 1 1 ++ [.task 0 (.created 7), .task 1 (.created 8)])
    (fun p => !p.shared.room smallPlan (.queues 1 10) 0) (by decide +kernel)
  have hroom := h _ _ _ fresh_newOffice hreach (.queues 1 10)
  rw [hroom] at hp
  cases hp

end PatronLoyalty.Limits
