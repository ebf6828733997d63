import PatronLoyalty.Async.Table
import PatronLoyalty.Notifications.Convergence

/-!
# The allowance of text messages is kept

The text messages of an organisation that the provider accepts with an id it bills for are at most the limit,
and as many more as it has reported failed: **`allowance_kept`**. It holds of the runs of `Convergence` in
which every text message is checked, a check finds no record that awaits another attempt and no cached count
behind the table, and no record of the organisation changes while one of its messages is being checked.

`claims`: the records that take up a message of the allowance, and are what a check counts.
-/

namespace PatronLoyalty.Delivery

open Async
open Loyalty (Id truthy)

/-! ## Records that count -/

section

variable {s s' : Messaging} {o : Id} {i id : Id} {n n' : Notification}

/-- An attempt has failed, and another may follow. -/
def Messaging.retrying (s : Messaging) (id : Id) (n : Notification) : Bool :=
  n.status == "failed" && n.providerMessageId.isNone && s.jobs.contains id

def Messaging.claims (s : Messaging) (id : Id) (n : Notification) : Bool :=
  n.status == "pending" || n.billable || s.retrying id n

/-- The provider has accepted it, and reported a failure. -/
def Notification.returned (n : Notification) : Bool :=
  n.status == "failed" && n.providerMessageId.any startsWithSM

/-- The text messages of an organisation that the provider has accepted, with an id it bills for. -/
def Messaging.handedOver (s : Messaging) (orgId : Id) : ℕ :=
  s.accepted.countP fun a => a.2.any startsWithSM &&
    (s.notifications.lookup a.1).any (·.isSms orgId)

theorem count_mono {q q' : Id → Notification → Bool} (hn : s'.notifications = s.notifications)
    (h : ∀ i n, s.notifications.lookup i = some n → q' i n = true → q i n = true) :
    s'.count o q' ≤ s.count o q := by
  unfold Messaging.count
  rw [hn]
  refine List.countP_mono_left fun e he hq => ?_
  obtain ⟨hsms, hq'⟩ := Bool.and_eq_true_iff.mp hq
  exact Bool.and_eq_true_iff.mpr ⟨hsms, h _ _ (AList.mem_lookup_iff.mpr he) hq'⟩

theorem count_congr (hn : s'.notifications = s.notifications) (q : Id → Notification → Bool) :
    s'.count o q = s.count o q := by
  unfold Messaging.count
  rw [hn]

/-- A record is made. -/
theorem count_new (hn : s'.notifications = s.notifications.insert id n)
    (hnew : s.notifications.lookup id = none) (q : Id → Notification → Bool) :
    s'.count o q = s.count o q + if n.isSms o && q id n then 1 else 0 := by
  unfold Messaging.count
  rw [hn, countP_insert_new _ hnew]

/-- A record is written. -/
theorem count_row (hn : s'.notifications = s.notifications.insert id n')
    (hrow : s.notifications.lookup id = some n) (q : Id → Notification → Bool) :
    s'.count o q + (if n.isSms o && q id n then 1 else 0) =
      s.count o q + if n'.isSms o && q id n' then 1 else 0 := by
  unfold Messaging.count
  rw [hn]
  exact countP_insert_row _ hrow

/-- A record of another organisation, or no text message, is written. -/
theorem count_row_other (hn : s'.notifications = s.notifications.insert id n')
    (hrow : s.notifications.lookup id = some n) (h : n.isSms o = false) (h' : n'.isSms o = false)
    (q : Id → Notification → Bool) : s'.count o q = s.count o q := by
  have hc := count_row (o := o) hn hrow q
  rw [h, h'] at hc
  simpa using hc

theorem count_or_le (q q' : Id → Notification → Bool) :
    (s.count o fun i n => q i n || q' i n) ≤ s.count o q + s.count o q' := by
  refine Nat.le_trans (List.countP_mono_left fun e _ he => ?_) (countP_or_le _ _ _)
  simpa only [Bool.and_or_distrib_left] using he

/-- **What a check counts** is what is claimed, unless a record awaits another attempt. -/
theorem claims_le : s.count o s.claims ≤
    s.countBillableFromDb o + s.countPendingSms o + s.count o s.retrying := by
  have h1 := count_or_le (s := s) (o := o) (fun _ n => n.status == "pending" || n.billable) s.retrying
  have h2 := count_or_le (s := s) (o := o) (fun _ n => n.status == "pending") fun _ n => n.billable
  have he : s.count o s.claims =
      s.count o fun i n => (n.status == "pending" || n.billable) || s.retrying i n := rfl
  unfold Messaging.countBillableFromDb Messaging.countPendingSms
  omega

theorem claims_row_le (hn : s'.notifications = s.notifications.insert id n')
    (hrow : s.notifications.lookup id = some n) (hj : s'.jobs ⊆ s.jobs)
    (hsms : n'.isSms o = n.isSms o) (h : s.claims id n' = true → s.claims id n = true) :
    s'.count o s'.claims ≤ s.count o s.claims := by
  have hle : s'.count o s'.claims ≤ s'.count o s.claims := by
    refine count_mono rfl fun i m _ hm => ?_
    unfold Messaging.claims Messaging.retrying at hm ⊢
    simp only [Bool.or_eq_true, Bool.and_eq_true, List.contains_eq_mem, decide_eq_true_eq] at hm ⊢
    exact hm.imp_right fun hr => ⟨hr.1, hj hr.2⟩
  have hc := count_row (o := o) hn hrow s.claims
  rw [hsms] at hc
  have hb : (if (n.isSms o && s.claims id n') = true then 1 else 0) ≤
      if (n.isSms o && s.claims id n) = true then 1 else 0 := by
    by_cases hq : (n.isSms o && s.claims id n') = true
    · obtain ⟨hsms', hq'⟩ := Bool.and_eq_true_iff.mp hq
      rw [if_pos hq, if_pos (Bool.and_eq_true_iff.mpr ⟨hsms', h hq'⟩)]
    · rw [if_neg hq]
      exact Nat.zero_le _
  omega

end

/-! ## The condition -/

/-- A message is being checked: its record is not made yet. -/
def Point.checking : Point → Bool
  | .allowance .. | .create => true
  | _ => false

/-- A text message of the organisation is being checked. -/
def Task.checks (orgId : Id) : Task → Bool
  | .send t => t.orgId == orgId && t.channel == "sms" && t.point.checking
  | .callback _ => false

/-- The organisation that a step matters to: a check begins, or a record gets another status. -/
def Task.disturbs : Task → Option Id
  | .send t =>
    match t.point with
    | .start | .working _ _ (.update _) => if t.channel = "sms" then some t.orgId else none
    | _ => none
  | .callback c =>
    match c.point with
    | .write _ orgId => some orgId
    | _ => none

/-- **The condition on a check**: it is made, no record awaits another attempt when it begins, and the
cached count is not behind the table. -/
def Send.checked (s : Messaging) (t : Send) (x : Move) : Bool :=
  match t.point, x with
  | .start, .go => t.channel != "sms" ||
      !t.skipSmsPlanGate && s.count t.orgId s.retrying == 0
  | .allowance .get _, .go =>
    (s.usage.get t.orgId).all fun used => decide (s.countBillableFromDb t.orgId ≤ used)
  | _, _ => true

def Task.checked (s : Messaging) : Task → Move → Bool
  | .send t, x => t.checked s x
  | .callback _, _ => true

/-- **The condition on two tasks**: what disturbs a check does not happen during it. -/
def undisturbed (t u : Task) : Bool := t.disturbs.all fun orgId => !u.checks orgId

/-- **The condition on the steps of a run.** -/
abbrev metered : System.Condition Messaging Task Move Surroundings where
  task s t x := t.orderly s x = true ∧ t.checked s x = true
  others _ t x u := unreported x u = true ∧ undisturbed t u = true

/-! ## What a send does about the allowance -/

section

variable {limit : Id → ℕ} {s s' : Messaging} {t : Send} {q : Point} {x : Move}

/-- It is to be checked. -/
def Send.gated (t : Send) : Prop := t.channel = "sms" ∧ t.skipSmsPlanGate = false

/-- **What a step of a send does**, to its check and to the jobs. -/
inductive CreditStep (limit : Id → ℕ) (s : Messaging) (t : Send) (x : Move) (s' : Messaging)
    (q : Point) : Prop
  | begins (hp : t.point = .start) (hx : x = .go) (hg : t.gated) (hq : q = .allowance .get none)
      (hs : s' = s)
  | passes (hp : t.point = .start) (hx : x = .go) (hg : ¬ t.gated) (hq : q = .create) (hs : s' = s)
  | cached {used : ℕ} {pending : Option ℕ} (hp : t.point = .allowance .get pending) (hx : x = .go)
      (hu : s.usage.get t.orgId = some used)
      (hq : q = assertSmsCreditsAvailable (limit t.orgId) (.known used) pending) (hs : s' = s)
  | uncached {pending : Option ℕ} (hp : t.point = .allowance .get pending)
      (hq : q = .allowance .recount pending) (hs : s' = s)
  | recounts {pending : Option ℕ} (hp : t.point = .allowance .recount pending)
      (hq : q = .allowance (.cache (s.countBillableFromDb t.orgId)) pending) (hs : s' = s)
  | caches {count : ℕ} {pending : Option ℕ} (hp : t.point = .allowance (.cache count) pending)
      (hq : q = assertSmsCreditsAvailable (limit t.orgId) (.known count) pending)
      (hn : s'.notifications = s.notifications) (hj : s'.jobs = s.jobs)
      (ha : s'.accepted = s.accepted)
  | pends {used : Used} (hp : t.point = .allowance used none)
      (hq : q = assertSmsCreditsAvailable (limit t.orgId) used (some (s.countPendingSms t.orgId)))
      (hs : s' = s)
  | quits (hp : t.point.job? = none) (hq : q = .ended) (hs : s' = s)
  | creates {id : Id} (hp : t.point = .create) (hnew : s.notifications.lookup id = none)
      (hq : q = .enqueue id) (hj : s'.jobs = s.jobs) (ha : s'.accepted = s.accepted)
      (hn : s'.notifications = s.notifications.insert id { orgId := t.orgId, channel := t.channel })
  | enqueues {id : Id} (hp : t.point = .enqueue id) (hq : q = .waiting id 0)
      (hn : s'.notifications = s.notifications) (hj : s'.jobs = id :: s.jobs)
      (ha : s'.accepted = s.accepted)
  | works {id : Id} (hp : t.point.job? = some id)
      (hq : q.job? = some id ∧ s'.jobs = s.jobs ∨ q = .ended ∧ s'.jobs = s.jobs.erase id)

theorem jobs_update (s : Messaging) (id : Id) (f : Notification → Notification) :
    (s.update id f).jobs = s.jobs := by
  unfold Messaging.update
  cases s.notifications.lookup id <;> rfl

theorem jobs_perform (s : Messaging) (orgId id : Id) (w : Work) :
    (w.perform s orgId id).jobs = s.jobs := by
  cases w with
  | update r => exact jobs_update _ _ _
  | _ => rfl

theorem failAttempt_jobs (s : Messaging) (id : Id) (n : ℕ) :
    (failAttempt s id n).2.job? = some id ∧ (failAttempt s id n).1.jobs = s.jobs ∨
      (failAttempt s id n).2 = .ended ∧ (failAttempt s id n).1.jobs = s.jobs.erase id := by
  unfold failAttempt
  split
  · exact Or.inl ⟨rfl, rfl⟩
  · exact Or.inr ⟨rfl, rfl⟩

theorem afterWork_jobs (s : Messaging) (t : Send) (id : Id) (n : ℕ) (w : Work) :
    (t.afterWork s id n w).2.job? = some id ∧ (t.afterWork s id n w).1.jobs = s.jobs ∨
      (t.afterWork s id n w).2 = .ended ∧ (t.afterWork s id n w).1.jobs = s.jobs.erase id := by
  cases w with
  | find r =>
    simp only [Send.afterWork]
    cases s.notifications.lookup id with
    | none => exact Or.inr ⟨rfl, rfl⟩
    | some m => exact Or.inl ⟨rfl, rfl⟩
  | log r =>
    simp only [Send.afterWork]
    split
    · exact Or.inr ⟨rfl, rfl⟩
    · exact failAttempt_jobs s id n
  | _ => exact Or.inl ⟨rfl, rfl⟩

/-- **One step of a send.** -/
theorem creditStep_of_next (h : t.next limit s x = some (s', q)) : CreditStep limit s t x s' q := by
  cases x with
  | go =>
    simp only [Send.next] at h
    split at h
    · rename_i hp
      cases h
      by_cases hg : t.gated
      · exact .begins hp rfl hg (if_pos hg) rfl
      · exact .passes hp rfl hg (if_neg hg) rfl
    · rename_i hp
      split at h
      · rename_i used hu
        cases h
        exact .cached hp rfl hu rfl rfl
      · cases h
        exact .uncached hp rfl rfl
    · rename_i hp
      cases h
      exact .recounts hp rfl rfl
    · rename_i hp
      cases h
      exact .caches hp rfl rfl rfl rfl
    · rename_i hp
      cases h
      exact .enqueues hp rfl rfl rfl rfl
    · rename_i hp
      cases h
      exact .works (by rw [hp]; rfl) (Or.inl ⟨rfl, rfl⟩)
    · rename_i id n w hp
      split at h
      · cases h
      · have hjobs := afterWork_jobs (w.perform s t.orgId id) t id n w
        rw [Option.some.inj h, jobs_perform] at hjobs
        exact .works (by rw [hp]; rfl) hjobs
    all_goals cases h
  | pending =>
    simp only [Send.next] at h
    split at h
    · rename_i hp
      cases h
      exact .pends hp rfl rfl
    · cases h
  | refuse =>
    simp only [Send.next] at h
    split at h
    · rename_i hp
      cases h
      exact .quits (by rw [hp]; rfl) rfl rfl
    · rename_i hp
      cases h
      exact .quits (by rw [hp]; rfl) rfl rfl
    · rename_i hp
      cases h
      exact .quits (by rw [hp]; rfl) rfl rfl
    · cases h
  | created id =>
    simp only [Send.next] at h
    split at h
    · rename_i hc
      cases h
      exact .creates hc.1 hc.2 rfl rfl rfl rfl
    · cases h
  | accepts sid =>
    simp only [Send.next] at h
    split at h
    · rename_i hp
      split at h
      · cases h
        exact .works (by rw [hp]; rfl) (Or.inl ⟨rfl, rfl⟩)
      · cases h
    · cases h
  | refuses error =>
    simp only [Send.next] at h
    split at h
    · rename_i hp
      cases h
      exact .works (by rw [hp]; rfl) (Or.inl ⟨rfl, rfl⟩)
    · cases h
  | loses sid error =>
    simp only [Send.next] at h
    split at h
    · rename_i hp
      split at h
      · cases h
        exact .works (by rw [hp]; rfl) (Or.inl ⟨rfl, rfl⟩)
      · cases h
    · cases h
  | fails made =>
    simp only [Send.next] at h
    split at h
    · rename_i id n w hp
      split at h
      · cases h
      · have hjobs := failAttempt_jobs (if made then w.perform s t.orgId id else s) id n
        have hmade : (if made then w.perform s t.orgId id else s).jobs = s.jobs := by
          cases made
          · rfl
          · exact jobs_perform _ _ _ _
        rw [Option.some.inj h, hmade] at hjobs
        exact .works (by rw [hp]; rfl) hjobs
    · rename_i id hp
      cases made with
      | true =>
        cases h
        exact .enqueues hp rfl rfl rfl rfl
      | false =>
        cases h
        exact .quits (by rw [hp]; rfl) rfl rfl
    · rename_i hp
      cases h
      exact .quits (by rw [hp]; rfl) rfl rfl
    · rename_i hp
      cases h
      exact .quits (by rw [hp]; rfl) rfl rfl
    · rename_i hp
      cases h
      exact .quits (by rw [hp]; rfl) rfl rfl
    · cases h
  | lost =>
    simp only [Send.next] at h
    split at h
    · rename_i hp
      cases h
      exact .uncached hp rfl rfl
    · rename_i hp
      cases h
      exact .caches hp rfl rfl rfl rfl
    · cases h
  | stop =>
    simp only [Send.next] at h
    split at h
    · rename_i hp
      cases h
      exact .works (by rw [hp]; rfl) (Or.inl ⟨rfl, rfl⟩)
    · rename_i hp
      cases h
      exact .quits (by rw [hp]; rfl) rfl rfl
    · rename_i hp
      cases h
      exact .quits (by rw [hp]; rfl) rfl rfl
    · rename_i hp
      cases h
      exact .quits (by rw [hp]; rfl) rfl rfl
    · rename_i hp
      cases h
      exact .quits (by rw [hp]; rfl) rfl rfl
    · cases h

/-- Whoever has to write that a message is accepted goes on, if the record is there. -/
theorem job_of_taken {id : Id} {sid : Option String} {n : Notification} (hx : t.answered x = true)
    (h : t.next limit s x = some (s', q)) (hp : t.point.phase = .taken id sid)
    (hrow : s.notifications.lookup id = some n) : q.job? = some id := by
  cases hpt : t.point with
  | working i m w =>
    rw [hpt] at hp
    cases w with
    | find r =>
      cases r with
      | accepted sid' =>
        cases hp
        unfold Send.answered at hx
        rw [hpt] at hx
        rw [eq_of_beq hx] at h
        simp only [Send.next, hpt, Work.perform, Send.afterWork, hrow, reduceCtorEq, false_and,
          if_false, Option.some.injEq, Prod.mk.injEq] at h
        rw [← h.2]
        rfl
      | refused error => cases hp
    | update r =>
      cases r with
      | accepted sid' =>
        cases hp
        unfold Send.answered at hx
        rw [hpt] at hx
        rw [eq_of_beq hx] at h
        simp only [Send.next, hpt, Send.afterWork, reduceCtorEq, false_and, if_false,
          Option.some.injEq, Prod.mk.injEq] at h
        rw [← h.2]
        rfl
      | refused error => cases hp
    | campaign r | count r | log r => cases r <;> cases hp
    | set r k => cases r <;> cases hp
    | _ => cases hp
  | _ =>
    rw [hpt] at hp
    cases hp

theorem phase_of_job {id i : Id} (hp : t.point.job? = some id) (h : i ∈ t.point.phase.id?) : i = id := by
  cases hpt : t.point with
  | waiting j m =>
    rw [hpt] at hp h
    cases hp
    cases h
    rfl
  | working j m w =>
    rw [hpt] at hp h
    cases hp
    cases w with
    | find r | update r =>
      cases r with
      | accepted sid =>
        cases h
        rfl
      | refused error =>
        cases h
        rfl
    | campaign r | count r | log r =>
      cases r with
      | accepted sid => cases h
      | refused error =>
        cases h
        rfl
    | set r k =>
      cases r with
      | accepted sid => cases h
      | refused error =>
        cases h
        rfl
    | _ =>
      cases h
      rfl
  | _ =>
    rw [hpt] at hp
    cases hp

end

/-! ## What is known of the allowance -/

/-- The records that claim a message are within the limit, and what has been handed over claims one or is
returned. -/
structure Funded (limit : Id → ℕ) (s : Messaging) : Prop where
  within (orgId : Id) : s.count orgId s.claims ≤ limit orgId
  tracked {i : Id} {sid : Option String} : (i, sid) ∈ s.accepted → sid.any startsWithSM = true →
    ∃ n, s.notifications.lookup i = some n ∧ (s.claims i n = true ∨ n.returned = true)

def Used.Covers (count : ℕ) : Used → Prop
  | .cache n | .known n => count ≤ n
  | .get | .recount => True

/-- What is known while a text message is being checked. -/
def Send.Window (limit : Id → ℕ) (s : Messaging) (t : Send) : Prop :=
  t.channel = "sms" →
    match t.point with
    | .allowance used pending => s.count t.orgId s.retrying = 0 ∧
        used.Covers (s.countBillableFromDb t.orgId) ∧
        ∀ n ∈ pending, s.countPendingSms t.orgId ≤ n
    | .create => s.count t.orgId s.claims + 1 ≤ limit t.orgId
    | _ => True

def Send.Owns (s : Messaging) (t : Send) (id : Id) (ok : Notification → Prop) : Prop :=
  ∃ n, s.notifications.lookup id = some n ∧ n.orgId = t.orgId ∧ n.channel = t.channel ∧ ok n

structure Send.Holds (s : Messaging) (t : Send) : Prop where
  enqueue {id : Id} : t.point = .enqueue id →
    t.Owns s id fun n => n.providerMessageId = none ∧ n.status = "pending"
  job {id : Id} : t.point.job? = some id → id ∈ s.jobs
  undecided {id : Id} : t.point.job? = some id → t.point.phase ≠ .outside →
    t.Owns s id fun n => n.providerMessageId = none ∧ (n.status = "pending" ∨ n.status = "failed")
  written {id : Id} : t.point.job? = some id → t.point.phase = .outside →
    t.Owns s id fun n => n.providerMessageId = none → n.status = "sent"

def Task.Backed (limit : Id → ℕ) (s : Messaging) : Task → Prop
  | .send t => t.Window limit s ∧ t.Holds s
  | .callback c => ∀ id orgId, c.point = .write id orgId →
      ∃ n, s.notifications.lookup id = some n ∧ n.orgId = orgId

/-- The notification of a send. -/
def Point.own? : Point → Option Id
  | .enqueue id | .waiting id _ | .working id _ _ => some id
  | _ => none

def Task.own? : Task → Option Id
  | .send t => t.point.own?
  | .callback _ => none

/-- Two sends have different notifications, and are not checked for one organisation at once. -/
def Separate (t u : Task) : Prop :=
  (∀ id ∈ t.own?, id ∉ u.own?) ∧ ∀ o, t.checks o = true → u.checks o = false

theorem Separate.symm {t u : Task} (h : Separate t u) : Separate u t := by
  refine ⟨fun id hu ht => h.1 id ht hu, fun o hu => ?_⟩
  cases ht : t.checks o with
  | false => rfl
  | true => exact absurd hu (by rw [h.2 o ht]; exact Bool.false_ne_true)

/-! ## The others -/

section

variable {limit : Id → ℕ} {s s' : Messaging} {t : Send} {u : Task} {id : Id}

theorem checks_iff {o : Id} : Task.checks o (.send t) = true ↔
    t.orgId = o ∧ t.channel = "sms" ∧ t.point.checking = true := by
  unfold Task.checks
  rw [Bool.and_eq_true, Bool.and_eq_true, beq_iff_eq, beq_iff_eq, and_assoc]

/-- A record keeps what its send knows of it. -/
def RowKept (s s' : Messaging) (id : Id) : Prop :=
  ∀ n, s.notifications.lookup id = some n → ∃ n', s'.notifications.lookup id = some n' ∧
    n'.orgId = n.orgId ∧ n'.channel = n.channel ∧ n'.providerMessageId = n.providerMessageId ∧
    (n.providerMessageId = none → n'.status = n.status)

theorem RowKept.of_eq (h : s'.notifications.lookup id = s.notifications.lookup id) :
    RowKept s s' id := fun n hn => ⟨n, h.trans hn, rfl, rfl, rfl, fun _ => rfl⟩

theorem Send.Owns.kept {ok : Notification → Prop} (h : t.Owns s id ok) (hrow : RowKept s s' id)
    (hok : ∀ n n' : Notification, n'.providerMessageId = n.providerMessageId →
      (n.providerMessageId = none → n'.status = n.status) → ok n → ok n') : t.Owns s' id ok := by
  obtain ⟨n, hn, ho, hc, hk⟩ := h
  obtain ⟨n', hn', ho', hc', hsid, hst⟩ := hrow n hn
  exact ⟨n', hn', ho'.trans ho, hc'.trans hc, hok n n' hsid hst hk⟩

theorem own_of_job (hp : t.point.job? = some id) : id ∈ Task.own? (.send t) := by
  show id ∈ t.point.own?
  cases hpt : t.point with
  | waiting i m =>
    rw [hpt] at hp
    exact hp
  | working i m w =>
    rw [hpt] at hp
    exact hp
  | _ =>
    rw [hpt] at hp
    cases hp

theorem Send.Holds.kept (h : t.Holds s) (hrow : ∀ i ∈ Task.own? (.send t), RowKept s s' i)
    (hjobs : ∀ i ∈ Task.own? (.send t), i ∈ s.jobs → i ∈ s'.jobs) : t.Holds s' where
  enqueue {i} hp := by
    refine (h.enqueue hp).kept (hrow i (by show i ∈ t.point.own?; rw [hp]; rfl)) ?_
    exact fun n n' hsid hst hok => ⟨hsid.trans hok.1, (hst hok.1).trans hok.2⟩
  job {i} hp := hjobs i (own_of_job hp) (h.job hp)
  undecided {i} hp hq := by
    refine (h.undecided hp hq).kept (hrow i (own_of_job hp)) ?_
    exact fun n n' hsid hst hok => ⟨hsid.trans hok.1, by rw [hst hok.1]; exact hok.2⟩
  written {i} hp hq := by
    refine (h.written hp hq).kept (hrow i (own_of_job hp)) fun n n' hsid hst hok hb => ?_
    rw [hsid] at hb
    exact (hst hb).trans (hok hb)

/-- The rows of the organisation are as they were, and no more of them await another attempt. -/
theorem claims_calm {o : Id} (hcalm : ∀ q, s'.count o q = s.count o q)
    (hretry : ∀ i n, s.notifications.lookup i = some n → s'.retrying i n = true →
      s.retrying i n = true) :
    s'.count o s'.retrying ≤ s.count o s.retrying ∧ s'.count o s'.claims ≤ s.count o s.claims := by
  rw [hcalm, hcalm]
  refine ⟨count_mono rfl hretry, count_mono rfl fun i n hn hm => ?_⟩
  unfold Messaging.claims at hm ⊢
  rw [Bool.or_eq_true] at hm ⊢
  exact hm.imp_right (hretry i n hn)

/-- **What the others know** after a step that leaves what is checked and what they own. -/
theorem Task.Backed.others (hu : u.Backed limit s)
    (hcalm : ∀ o, u.checks o = true → ∀ q, s'.count o q = s.count o q)
    (hretry : ∀ i n, s.notifications.lookup i = some n → s'.retrying i n = true →
      s.retrying i n = true)
    (hrow : ∀ i ∈ u.own?, RowKept s s' i) (hjobs : ∀ i ∈ u.own?, i ∈ s.jobs → i ∈ s'.jobs)
    (horg : ∀ i n, s.notifications.lookup i = some n →
      ∃ n', s'.notifications.lookup i = some n' ∧ n'.orgId = n.orgId) : u.Backed limit s' := by
  cases u with
  | callback c =>
    intro i orgId hp
    obtain ⟨n, hn, ho⟩ := hu i orgId hp
    obtain ⟨n', hn', ho'⟩ := horg i n hn
    exact ⟨n', hn', ho'.trans ho⟩
  | send t =>
    refine ⟨fun hsms => ?_, hu.2.kept hrow hjobs⟩
    have hw := hu.1 hsms
    cases hp : t.point with
    | allowance used pending =>
      simp only [hp] at hw ⊢
      have hcheck : Task.checks t.orgId (.send t) = true := by
        exact checks_iff.mpr ⟨rfl, hsms, by rw [hp]; rfl⟩
      obtain ⟨hr, hused, hpend⟩ := hw
      have hc := hcalm _ hcheck
      refine ⟨Nat.le_zero.mp (hr ▸ (claims_calm hc hretry).1), ?_, ?_⟩
      · unfold Messaging.countBillableFromDb at hused ⊢
        rw [hc]
        exact hused
      · unfold Messaging.countPendingSms at hpend ⊢
        rw [hc]
        exact hpend
    | create =>
      simp only [hp] at hw ⊢
      have hcheck : Task.checks t.orgId (.send t) = true := by
        exact checks_iff.mpr ⟨rfl, hsms, by rw [hp]; rfl⟩
      exact Nat.le_trans (Nat.add_le_add_right (claims_calm (hcalm _ hcheck) hretry).2 1) hw
    | _ => trivial

end

/-! ## Steps -/

section

variable {limit : Id → ℕ} {s s' : Messaging} {t : Send} {c : Callback} {u : Task} {id : Id}
  {n n' : Notification} {q : Point} {x : Move} {R : Task → Prop} {used : Used} {pending : Option ℕ}

theorem claims_congr (hj : s'.jobs = s.jobs) : s'.claims = s.claims := by
  unfold Messaging.claims Messaging.retrying
  rw [hj]

theorem retrying_congr (hj : s'.jobs = s.jobs) : s'.retrying = s.retrying := by
  unfold Messaging.retrying
  rw [hj]

theorem Funded.congr (h : Funded limit s) (hn : s'.notifications = s.notifications)
    (hj : s'.jobs = s.jobs) (ha : s'.accepted = s.accepted) : Funded limit s' where
  within o := by
    rw [claims_congr hj, count_congr hn]
    exact h.within o
  tracked hm hsid := by
    rw [hn, claims_congr hj]
    exact h.tracked (ha ▸ hm) hsid

theorem others_of_row_written (hu : u.Backed limit s)
    (hn : s'.notifications = s.notifications.insert id n') (hrow : s.notifications.lookup id = some n)
    (ho : n'.orgId = n.orgId) (hsms : ∀ o, u.checks o = true → n.isSms o = false)
    (hc : n'.channel = n.channel) (hj : s'.jobs ⊆ s.jobs)
    (hjobs : ∀ i ∈ u.own?, i ∈ s.jobs → i ∈ s'.jobs) (hown : id ∈ u.own? → RowKept s s' id) :
    u.Backed limit s' := by
  have hne : ∀ i, i ≠ id → s'.notifications.lookup i = s.notifications.lookup i := by
    intro i hi
    rw [hn, AList.lookup_insert_ne hi]
  refine hu.others (fun o hcheck q => ?_) (fun i m _ hm => ?_) (fun i hi => ?_) hjobs
    fun i m hm => ?_
  · have h1 := hsms o hcheck
    have h2 : n'.isSms o = false := by
      unfold Notification.isSms at h1 ⊢
      rw [ho, hc]
      exact h1
    exact count_row_other hn hrow h1 h2 q
  · unfold Messaging.retrying at hm ⊢
    simp only [Bool.and_eq_true, List.contains_eq_mem, decide_eq_true_eq] at hm ⊢
    exact ⟨hm.1, hj hm.2⟩
  · by_cases he : i = id
    · subst he
      exact hown hi
    · exact .of_eq (hne i he)
  · by_cases he : i = id
    · subst he
      cases hrow.symm.trans hm
      exact ⟨n', by rw [hn, AList.lookup_insert], ho⟩
    · exact ⟨m, (hne i he).trans hm, rfl⟩

theorem internalStatus_cases {messageStatus status : String}
    (h : internalStatus messageStatus = some status) : status = "delivered" ∨ status = "failed" := by
  unfold internalStatus at h
  split at h
  · exact Or.inl (Option.some.inj h).symm
  · split at h
    · exact Or.inr (Option.some.inj h).symm
    · cases h

theorem jobs_of_callback {q : CallbackPoint} (h : c.next s x = some (s', q)) :
    s'.jobs = s.jobs := by
  cases x with
  | go =>
    simp only [Callback.next] at h
    split at h
    · split at h <;> cases h <;> rfl
    · split at h
      · cases h
        exact jobs_update _ _ _
      · cases h
    all_goals
      cases h
    all_goals rfl
  | lost =>
    simp only [Callback.next] at h
    split at h <;> cases h <;> rfl
  | fails made =>
    simp only [Callback.next] at h
    split at h
    · split at h
      · cases h
        cases made
        · rfl
        · exact jobs_update _ _ _
      · cases h
    all_goals
      cases h
    rfl
  | stop =>
    simp only [Callback.next] at h
    split at h <;> cases h
    rfl
  | _ => cases h

/-- Nothing happens to the records and the jobs: what the others know. -/
theorem Task.Backed.same (hu : u.Backed limit s) (hn : s'.notifications = s.notifications)
    (hj : s'.jobs = s.jobs) : u.Backed limit s' :=
  hu.others (fun _ _ q => count_congr hn q) (fun _ _ _ hm => retrying_congr hj ▸ hm)
    (fun _ _ => .of_eq (by rw [hn])) (fun _ _ hm => hj ▸ hm) fun _ n hm => ⟨n, hn ▸ hm, rfl⟩

theorem separate_callback (c : Callback) (u : Task) :
    Separate (.callback c) u ∧ Separate u (.callback c) := by
  have h : Separate (.callback c) u := ⟨fun i hi => (by cases hi), fun o ho => (by cases ho)⟩
  exact ⟨h, h.symm⟩

/-- **A step of a callback.** -/
theorem credit_callback {q : CallbackPoint} (hs : Funded limit s) (hl : Linked s)
    (hk : Known s (.callback c)) (hc : Task.Backed limit s (.callback c)) (hx : c.timely s x = true)
    (h : c.next s x = some (s', q)) :
    System.KeptBy (Funded limit) (Task.Backed limit) Separate
      (fun u => undisturbed (.callback c) u = true) s (.callback c) s'
      (.callback { c with point := q }) := by
  have hj := jobs_of_callback h
  have hpast : q.past = true → Task.Backed limit s' (.callback { c with point := q }) := by
    intro hq i orgId hp
    have hp' : q = .write i orgId := hp
    rw [hp'] at hq
    cases hq
  cases callbackStep_of_next hx h with
  | @finds id n hf hq hn ha =>
    refine ⟨hs.congr hn hj ha, fun i orgId hp => ?_,
      fun {u} _ hu _ _ => ⟨hu.same hn hj, separate_callback _ u⟩⟩
    have hp' : q = .write i orgId := hp
    cases hq.symm.trans hp'
    exact ⟨n, hn ▸ (lookup_of_findByMessageId hf).1, rfl⟩
  | misses hq hm hn ha =>
    exact ⟨hs.congr hn hj ha, hpast hq, fun {u} _ hu _ _ => ⟨hu.same hn hj, separate_callback _ u⟩⟩
  | goes hp hq hn ha =>
    exact ⟨hs.congr hn hj ha, hpast hq, fun {u} _ hu _ _ => ⟨hu.same hn hj, separate_callback _ u⟩⟩
  | @writes id orgId status hp hst hrow hq hn ha =>
    obtain ⟨n, hn0, hsid⟩ := (known_write hp).mp hk
    obtain ⟨m, hm0, horg⟩ := hc id orgId hp
    cases hn0.symm.trans hm0
    rw [update_of_lookup _ hn0] at hn
    have hpre : s.claims id (c.report status n) = true → s.claims id n = true := by
      intro hcl
      have hsid' : (c.report status n).providerMessageId = some c.messageSid := hsid
      have hb : (c.report status n).billable = true := by
        unfold Messaging.claims Messaging.retrying at hcl
        rw [hsid', Option.isNone_some, Bool.and_false, Bool.false_and, Bool.or_false,
          Bool.or_eq_true, beq_iff_eq] at hcl
        refine hcl.resolve_left fun hpend => ?_
        have hpend' : status = "pending" := hpend
        rcases internalStatus_cases hst with rfl | rfl <;> exact absurd hpend' (by decide)
      have hb' : n.billable = true := by
        simp only [Notification.billable, Callback.report, Bool.and_eq_true] at hb ⊢
        refine ⟨?_, hb.2⟩
        rcases hrow n hn0 with hsent | hsame
        · rw [hsent]
          rfl
        · rw [hsame]
          exact hb.1
      simp [Messaging.claims, hb']
    refine ⟨⟨fun o => ?_, fun {i sid} hm hsm => ?_⟩, hpast hq, fun {u} hR hu _ _ =>
      ⟨?_, separate_callback _ u⟩⟩
    · exact Nat.le_trans (claims_row_le hn hn0 (by rw [hj]; exact List.Subset.refl _) rfl hpre)
        (hs.within o)
    · rw [claims_congr hj]
      by_cases hi : i = id
      · subst hi
        have hsid' : sid = some c.messageSid := by
          have h1 := ha ▸ hm
          have h2 := hl.accepted hn0 hsid
          exact (Prod.mk.inj (List.inj_on_of_nodup_map hl.once h1 h2 rfl)).2
        subst hsid'
        refine ⟨_, by rw [hn, AList.lookup_insert], ?_⟩
        rcases internalStatus_cases hst with rfl | rfl
        · refine Or.inl ?_
          have hb : (c.report "delivered" n).billable = true := by
            simp only [Notification.billable, Callback.report, hsid]
            exact hsm
          simp [Messaging.claims, hb]
        · refine Or.inr ?_
          simp only [Notification.returned, Callback.report, hsid]
          exact hsm
      · rw [hn, AList.lookup_insert_ne hi]
        exact hs.tracked (ha ▸ hm) hsm
    · refine others_of_row_written hu hn hn0 rfl (fun o ho => ?_) rfl
        (by rw [hj]; exact List.Subset.refl _) (fun i _ hi => hj ▸ hi) fun _ m hm => ?_
      · unfold undisturbed Task.disturbs at hR
        simp only [hp, Option.all_some, Bool.not_eq_true'] at hR
        have hne : orgId ≠ o := by
          rintro rfl
          rw [ho] at hR
          cases hR
        unfold Notification.isSms
        rw [horg, beq_false_of_ne hne, Bool.false_and]
      · cases hn0.symm.trans hm
        refine ⟨c.report status n, by rw [hn, AList.lookup_insert], rfl, rfl, rfl, fun hb => ?_⟩
        cases hb.symm.trans hsid

/-- The send goes on with its notification, and does not begin a check. -/
theorem Separate.point (h : Separate (.send t) u) (hown : ∀ i ∈ q.own?, i ∈ t.point.own?)
    (hq : q.checking = true → t.point.checking = true) :
    Separate (.send { t with point := q }) u := by
  refine ⟨fun i hi => h.1 i (hown i hi), fun o ho => h.2 o ?_⟩
  obtain ⟨ho', hsms, hcheck⟩ := checks_iff.mp ho
  exact checks_iff.mpr ⟨ho', hsms, hq hcheck⟩

/-- Nothing happens to the records and the jobs. -/
theorem keptBy_point (hs : Funded limit s) (hn : s'.notifications = s.notifications)
    (hj : s'.jobs = s.jobs) (ha : s'.accepted = s.accepted)
    (hb : Task.Backed limit s' (.send { t with point := q }))
    (hsep : ∀ u, R u → Separate (.send t) u → Separate (.send { t with point := q }) u) :
    System.KeptBy (Funded limit) (Task.Backed limit) Separate R s (.send t) s'
      (.send { t with point := q }) :=
  ⟨hs.congr hn hj ha, hb, fun {u} hR hu htu _ =>
    ⟨hu.same hn hj, hsep u hR htu, (hsep u hR htu).symm⟩⟩

theorem holds_of_own (h : q.own? = none) : Send.Holds s { t with point := q } where
  enqueue {i} hp := by
    have hp' : q = .enqueue i := hp
    rw [hp'] at h
    cases h
  job hp := by
    have hi : _ ∈ q.own? := own_of_job (t := { t with point := q }) hp
    rw [h] at hi
    cases hi
  undecided hp _ := by
    have hi : _ ∈ q.own? := own_of_job (t := { t with point := q }) hp
    rw [h] at hi
    cases hi
  written hp _ := by
    have hi : _ ∈ q.own? := own_of_job (t := { t with point := q }) hp
    rw [h] at hi
    cases hi

/-- What a check comes to. -/
theorem assert_cases (l : ℕ) (used : Used) (pending : Option ℕ) :
    assertSmsCreditsAvailable l used pending = .ended ∨
      (∃ u p, used = .known u ∧ pending = some p ∧ u + p < l ∧
        assertSmsCreditsAvailable l used pending = .create) ∨
      assertSmsCreditsAvailable l used pending = .allowance used pending := by
  unfold assertSmsCreditsAvailable
  split
  · rename_i u p
    split
    · exact Or.inl rfl
    · rename_i hlt
      exact Or.inr (Or.inl ⟨u, p, rfl, rfl, Nat.lt_of_not_le hlt, rfl⟩)
  · exact Or.inr (Or.inr rfl)

theorem own_assertSmsCreditsAvailable (l : ℕ) (used : Used) (pending : Option ℕ) :
    (assertSmsCreditsAvailable l used pending).own? = none := by
  rcases assert_cases l used pending with h | ⟨u, p, -, -, -, h⟩ | h <;> rw [h] <;> rfl

/-- **A check passes** when what is claimed leaves room. -/
theorem window_assert (hr : s.count t.orgId s.retrying = 0)
    (hu : used.Covers (s.countBillableFromDb t.orgId))
    (hp : ∀ n ∈ pending, s.countPendingSms t.orgId ≤ n) :
    Send.Window limit s
      { t with point := assertSmsCreditsAvailable (limit t.orgId) used pending } := by
  intro _
  rcases assert_cases (limit t.orgId) used pending with h | ⟨u, p, rfl, rfl, hlt, h⟩ | h
  · simp only [h]
  · simp only [h]
    have hle := claims_le (s := s) (o := t.orgId)
    have hu' : s.countBillableFromDb t.orgId ≤ u := hu
    have hp' := hp p rfl
    omega
  · simp only [h]
    exact ⟨hr, hu, hp⟩

/-- What is known while both counts are being made. -/
theorem window_allowance (h : Send.Window limit s t) (hp : t.point = .allowance used pending)
    (hsms : t.channel = "sms") :
    s.count t.orgId s.retrying = 0 ∧ used.Covers (s.countBillableFromDb t.orgId) ∧
      ∀ n ∈ pending, s.countPendingSms t.orgId ≤ n := by
  have hw := h hsms
  simp only [hp] at hw
  exact hw

theorem credit_checking (hs : Funded limit s) (hp : t.point = .allowance used pending)
    (hq : q.own? = none) (hn : s'.notifications = s.notifications) (hj : s'.jobs = s.jobs)
    (ha : s'.accepted = s.accepted)
    (hw : t.channel = "sms" → Send.Window limit s { t with point := q }) :
    System.KeptBy (Funded limit) (Task.Backed limit) Separate R s (.send t) s'
      (.send { t with point := q }) := by
  have hw' : Send.Window limit s { t with point := q } := fun hsms => hw hsms hsms
  have hb : Task.Backed limit s (.send { t with point := q }) := ⟨hw', holds_of_own hq⟩
  refine keptBy_point hs hn hj ha (hb.same hn hj) fun u _ htu => htu.point (fun i hi => ?_) fun _ => ?_
  · rw [hq] at hi
    cases hi
  · rw [hp]
    rfl

/-- The record of a notification is there. -/
theorem row_of_own (hu : u.Backed limit s) (hi : id ∈ u.own?) :
    ∃ n, s.notifications.lookup id = some n := by
  cases u with
  | callback c => cases hi
  | send t =>
    have hi' : id ∈ t.point.own? := hi
    have hjob : ∀ {i}, t.point.job? = some i → ∃ n, s.notifications.lookup i = some n := by
      intro i hj
      by_cases hq : t.point.phase = .outside
      · obtain ⟨n, hn, -⟩ := hu.2.written hj hq
        exact ⟨n, hn⟩
      · obtain ⟨n, hn, -⟩ := hu.2.undecided hj hq
        exact ⟨n, hn⟩
    cases hp : t.point with
    | enqueue i =>
      rw [hp] at hi'
      cases hi'
      obtain ⟨n, hn, -⟩ := hu.2.enqueue hp
      exact ⟨n, hn⟩
    | waiting i m =>
      rw [hp] at hi'
      exact hjob (by rw [hp]; exact hi')
    | working i m w =>
      rw [hp] at hi'
      exact hjob (by rw [hp]; exact hi')
    | _ =>
      rw [hp] at hi'
      cases hi'

/-- The record is made. -/
theorem credit_creates (hs : Funded limit s) (ht : Task.Backed limit s (.send t))
    (hp : t.point = .create) (hnew : s.notifications.lookup id = none) (hq : q = .enqueue id)
    (hj : s'.jobs = s.jobs) (ha : s'.accepted = s.accepted)
    (hn : s'.notifications = s.notifications.insert id { orgId := t.orgId, channel := t.channel }) :
    System.KeptBy (Funded limit) (Task.Backed limit) Separate R s (.send t) s'
      (.send { t with point := q }) := by
  subst hq
  have hne : ∀ i, i ≠ id → s'.notifications.lookup i = s.notifications.lookup i := by
    intro i hi
    rw [hn, AList.lookup_insert_ne hi]
  have hrow : ∀ {i n}, s.notifications.lookup i = some n → i ≠ id := by
    rintro i n hi rfl
    cases hnew.symm.trans hi
  refine ⟨⟨fun o => ?_, fun {i sid} hm hsm => ?_⟩, ⟨fun _ => trivial, ?_⟩, fun {u} _ hu htu _ => ?_⟩
  · rw [claims_congr hj, count_new hn hnew]
    by_cases hsms : (Notification.isSms { orgId := t.orgId, channel := t.channel } o &&
        s.claims id { orgId := t.orgId, channel := t.channel }) = true
    · rw [if_pos hsms]
      obtain ⟨horg, hch⟩ := Bool.and_eq_true_iff.mp (Bool.and_eq_true_iff.mp hsms).1
      have hw := ht.1 (eq_of_beq hch)
      simp only [hp] at hw
      rw [← show t.orgId = o from eq_of_beq horg]
      exact hw
    · rw [if_neg hsms]
      exact hs.within o
  · rw [claims_congr hj]
    obtain ⟨n, hn0, hor⟩ := hs.tracked (ha ▸ hm) hsm
    exact ⟨n, (hne i (hrow hn0)).trans hn0, hor⟩
  · refine ⟨fun {i} hi => ?_, fun hi => (by cases hi), fun hi => (by cases hi),
      fun hi => (by cases hi)⟩
    cases hi
    exact ⟨_, by rw [hn, AList.lookup_insert], rfl, rfl, rfl, rfl⟩
  · have hsep : Separate (.send { t with point := .enqueue id }) u := by
      refine ⟨fun i hi hiu => ?_, fun o ho => ?_⟩
      · cases hi
        obtain ⟨n, hn0⟩ := row_of_own hu hiu
        exact hrow hn0 rfl
      · cases (checks_iff.mp ho).2.2
    refine ⟨hu.others (fun o ho k => ?_) (fun i m _ hm => retrying_congr hj ▸ hm)
      (fun i _ n hi => ⟨n, (hne i (hrow hi)).trans hi, rfl, rfl, rfl, fun _ => rfl⟩)
      (fun i _ hi => hj ▸ hi) (fun i n hi => ⟨n, (hne i (hrow hi)).trans hi, rfl⟩),
      hsep, hsep.symm⟩
    rw [count_new hn hnew, if_neg, Nat.add_zero]
    intro hsms
    obtain ⟨horg, hch⟩ := Bool.and_eq_true_iff.mp (Bool.and_eq_true_iff.mp hsms).1
    have hcheck : Task.checks o (.send t) = true :=
      checks_iff.mpr ⟨eq_of_beq horg, eq_of_beq hch, by rw [hp]; rfl⟩
    rw [htu.2 o hcheck] at ho
    cases ho

theorem credit_enqueues (hs : Funded limit s) (ht : Task.Backed limit s (.send t))
    (hp : t.point = .enqueue id) (hq : q = .waiting id 0) (hn : s'.notifications = s.notifications)
    (hj : s'.jobs = id :: s.jobs) (ha : s'.accepted = s.accepted) :
    System.KeptBy (Funded limit) (Task.Backed limit) Separate R s (.send t) s'
      (.send { t with point := q }) := by
  subst hq
  obtain ⟨m, hm0, ho, hc, hb, hst⟩ := ht.2.enqueue hp
  have hretry : ∀ i n, s.notifications.lookup i = some n → s'.retrying i n = true →
      s.retrying i n = true := by
    intro i n hi hr
    unfold Messaging.retrying at hr ⊢
    simp only [hj, Bool.and_eq_true, List.contains_eq_mem, decide_eq_true_eq, List.mem_cons,
      beq_iff_eq] at hr ⊢
    refine ⟨hr.1, hr.2.resolve_left ?_⟩
    rintro rfl
    cases hm0.symm.trans hi
    rw [hst] at hr
    exact absurd hr.1.1 (by decide)
  have hcalm : ∀ o q, s'.count o q = s.count o q := fun o q => count_congr hn q
  refine ⟨⟨fun o => ?_, fun {i sid} hm hsm => ?_⟩, ⟨fun _ => trivial, ?_⟩, fun {u} _ hu htu _ => ?_⟩
  · exact Nat.le_trans (claims_calm (hcalm o) hretry).2 (hs.within o)
  · obtain ⟨n, hn0, hor⟩ := hs.tracked (ha ▸ hm) hsm
    refine ⟨n, hn ▸ hn0, hor.imp_left fun hcl => ?_⟩
    unfold Messaging.claims Messaging.retrying at hcl ⊢
    simp only [hj, Bool.or_eq_true, Bool.and_eq_true, List.contains_eq_mem, decide_eq_true_eq,
      List.mem_cons] at hcl ⊢
    exact hcl.imp_right fun hr => ⟨hr.1, Or.inr hr.2⟩
  · have hown : Send.Owns s' { t with point := .waiting id 0 } id fun n =>
        n.providerMessageId = none ∧ (n.status = "pending" ∨ n.status = "failed") :=
      ⟨m, hn ▸ hm0, ho, hc, hb, Or.inl hst⟩
    refine ⟨fun hi => (by cases hi), fun {i} hi => ?_, fun {i} hi _ => ?_, fun {i} _ hq => ?_⟩
    · cases hi
      rw [hj]
      exact List.mem_cons_self
    · cases hi
      exact hown
    · cases hq
  · have hsep : Separate (.send { t with point := .waiting id 0 }) u := by
      refine htu.point (fun i hi => ?_) fun hf => (by cases hf)
      rw [hp]
      exact hi
    exact ⟨hu.others (fun o _ q => hcalm o q) hretry (fun i _ => .of_eq (by rw [hn]))
      (fun i _ hi => by rw [hj]; exact List.mem_cons_of_mem _ hi) (fun i n hi => ⟨n, hn ▸ hi, rfl⟩),
      hsep, hsep.symm⟩

/-! ## Steps of the worker -/

theorem claims_erase {i : Id} (hj : s'.jobs = s.jobs ∨ s'.jobs = s.jobs.erase id) (hi : i ≠ id) :
    s'.claims i n = s.claims i n := by
  unfold Messaging.claims Messaging.retrying
  rcases hj with hj | hj
  · rw [hj]
  · rw [hj]
    simp only [List.contains_eq_mem, List.mem_erase_of_ne hi]

theorem window_of_job (h : q.job? = some id) : Send.Window limit s { t with point := q } := by
  cases q with
  | waiting i m => exact fun _ => trivial
  | working i m w => exact fun _ => trivial
  | _ => cases h

theorem holds_of_job (hq : q.job? = some id) (hj : id ∈ s.jobs)
    (hund : q.phase ≠ .outside → t.Owns s id fun n =>
      n.providerMessageId = none ∧ (n.status = "pending" ∨ n.status = "failed"))
    (hwr : q.phase = .outside → t.Owns s id fun n => n.providerMessageId = none → n.status = "sent") :
    Send.Holds s { t with point := q } where
  enqueue {i} hp := by
    have hp' : q = .enqueue i := hp
    rw [hp'] at hq
    cases hq
  job {i} hp := by
    cases hq.symm.trans hp
    exact hj
  undecided {i} hp h := by
    cases hq.symm.trans hp
    exact hund h
  written {i} hp h := by
    cases hq.symm.trans hp
    exact hwr h

theorem Separate.work (h : Separate (.send t) u) (hp : t.point.job? = some id)
    (hq : q.job? = some id ∨ q = .ended) : Separate (.send { t with point := q }) u := by
  have hown := own_of_job hp
  refine h.point (fun i hi => ?_) fun hc => ?_
  · rcases hq with hq | rfl
    · cases q with
      | waiting j m =>
        cases hi
        cases hq
        exact hown
      | working j m w =>
        cases hi
        cases hq
        exact hown
      | _ => cases hq
    · cases hi
  · rcases hq with hq | rfl
    · cases q with
      | allowance a b => cases hq
      | create => cases hq
      | _ => cases hc
    · cases hc

theorem credit_finish (hs : Funded limit s) (hp : t.point.job? = some id)
    (hn : s'.notifications = s.notifications) (hj : s'.jobs = s.jobs.erase id)
    (ha : s'.accepted = s.accepted)
    (hid : ∀ sid, (id, sid) ∈ s.accepted → ∀ n, s.notifications.lookup id = some n →
      n.providerMessageId = none → n.status = "sent") :
    System.KeptBy (Funded limit) (Task.Backed limit) Separate R s (.send t) s'
      (.send { t with point := .ended }) := by
  have hretry : ∀ i n, s.notifications.lookup i = some n → s'.retrying i n = true →
      s.retrying i n = true := by
    intro i n _ hr
    unfold Messaging.retrying at hr ⊢
    simp only [hj, Bool.and_eq_true, List.contains_eq_mem, decide_eq_true_eq] at hr ⊢
    exact ⟨hr.1, List.mem_of_mem_erase hr.2⟩
  refine ⟨⟨fun o => ?_, fun {i sid} hm hsm => ?_⟩, ⟨fun _ => trivial, holds_of_own rfl⟩,
    fun {u} _ hu htu _ => ?_⟩
  · exact Nat.le_trans (claims_calm (fun q => count_congr hn q) hretry).2 (hs.within o)
  · obtain ⟨n, hn0, hor⟩ := hs.tracked (ha ▸ hm) hsm
    refine ⟨n, hn ▸ hn0, hor.imp_left fun hcl => ?_⟩
    by_cases hi : i = id
    · subst hi
      unfold Messaging.claims Messaging.retrying at hcl ⊢
      simp only [Bool.or_eq_true, Bool.and_eq_true, beq_iff_eq, Option.isNone_iff_eq_none] at hcl ⊢
      refine Or.inl (hcl.resolve_right fun hr => ?_)
      have hsent := hid sid (ha ▸ hm) n hn0 hr.1.2
      rw [hr.1.1] at hsent
      exact absurd hsent (by decide)
    · rw [claims_erase (Or.inr hj) hi]
      exact hcl
  · have hsep : Separate (.send { t with point := .ended }) u := htu.work hp (Or.inr rfl)
    have hown := own_of_job hp
    refine ⟨hu.others (fun o _ q => count_congr hn q) hretry (fun i _ => .of_eq (by rw [hn]))
      (fun i hi hm => ?_) (fun i n hi => ⟨n, hn ▸ hi, rfl⟩), hsep, hsep.symm⟩
    rw [hj]
    refine (List.mem_erase_of_ne ?_).mpr hm
    rintro rfl
    exact htu.1 i hown hi

/-- The worker writes to the record, which has claimed a message before. -/
theorem credit_row (hs : Funded limit s) (hp : t.point.job? = some id)
    (hw : ∃ n r, t.point = .working id n (.update r)) (hown : t.Owns s id fun m => m = n)
    (hcl : s.claims id n = true) (ho : n'.orgId = n.orgId) (hc : n'.channel = n.channel)
    (hn : s'.notifications = s.notifications.insert id n') (ha : s'.accepted = s.accepted)
    (hq : q.job? = some id ∧ s'.jobs = s.jobs ∨ q = .ended ∧ s'.jobs = s.jobs.erase id)
    (htr : ∀ sid, (id, sid) ∈ s.accepted → sid.any startsWithSM = true →
      s'.claims id n' = true ∨ n'.returned = true)
    (hb : Task.Backed limit s' (.send { t with point := q })) :
    System.KeptBy (Funded limit) (Task.Backed limit) Separate
      (fun u => undisturbed (.send t) u = true) s (.send t) s' (.send { t with point := q }) := by
  obtain ⟨m, hrow, horg, hch, rfl⟩ := hown
  have hj : s'.jobs = s.jobs ∨ s'.jobs = s.jobs.erase id := hq.imp And.right And.right
  have hsub : s'.jobs ⊆ s.jobs := by
    rcases hj with hj | hj
    · rw [hj]
      exact List.Subset.refl _
    · rw [hj]
      exact List.erase_subset
  refine ⟨⟨fun o => ?_, fun {i sid} hm hsm => ?_⟩, hb, fun {u} hR hu htu _ => ?_⟩
  · refine Nat.le_trans (claims_row_le hn hrow hsub ?_ fun _ => hcl) (hs.within o)
    unfold Notification.isSms
    rw [ho, hc]
  · by_cases hi : i = id
    · subst hi
      exact ⟨n', by rw [hn, AList.lookup_insert], htr sid (ha ▸ hm) hsm⟩
    · rw [hn, AList.lookup_insert_ne hi]
      obtain ⟨k, hk, hor⟩ := hs.tracked (ha ▸ hm) hsm
      exact ⟨k, hk, by rw [claims_erase hj hi]; exact hor⟩
  · have hsep := htu.work (q := q) hp (hq.imp And.left And.left)
    have hid := own_of_job hp
    refine ⟨others_of_row_written hu hn hrow ho (fun o hcheck => ?_) hc hsub (fun i hi hm => ?_)
      fun hi => absurd hi (htu.1 id hid), hsep, hsep.symm⟩
    · cases hsms : m.isSms o with
      | false => rfl
      | true =>
        obtain ⟨ho', hch'⟩ := Bool.and_eq_true_iff.mp hsms
        obtain ⟨k, r, hpt⟩ := hw
        have ht : t.channel = "sms" := hch.symm.trans (eq_of_beq hch')
        unfold undisturbed Task.disturbs at hR
        simp only [hpt, ht, if_true, Option.all_some, Bool.not_eq_true'] at hR
        rw [← horg, eq_of_beq ho', hcheck] at hR
        cases hR
    · rcases hj with hj | hj
      · rw [hj]
        exact hm
      · rw [hj]
        refine (List.mem_erase_of_ne ?_).mpr hm
        rintro rfl
        exact htu.1 i hid hi

theorem claims_of_undecided (hj : id ∈ s.jobs) (hb : n.providerMessageId = none)
    (hst : n.status = "pending" ∨ n.status = "failed") : s.claims id n = true := by
  unfold Messaging.claims Messaging.retrying
  rcases hst with hst | hst
  · rw [hst]
    rfl
  · rw [hst, hb, List.contains_eq_mem, decide_eq_true hj]
    exact Bool.or_true _

/-- **A step of the worker.** -/
theorem credit_works (hs : Funded limit s) (hl : Linked s) (hk : Known s (.send t))
    (ht : Task.Backed limit s (.send t)) (hx : t.answered x = true)
    (h : t.next limit s x = some (s', q)) (hp : t.point.job? = some id)
    (hq : q.job? = some id ∧ s'.jobs = s.jobs ∨ q = .ended ∧ s'.jobs = s.jobs.erase id) :
    System.KeptBy (Funded limit) (Task.Backed limit) Separate
      (fun u => undisturbed (.send t) u = true) s (.send t) s' (.send { t with point := q }) := by
  have hmem := ht.2.job hp
  cases sendStep_of_next hx h with
  | stays hqp hn ha =>
    rcases hq with ⟨hjob, hj⟩ | ⟨rfl, hj⟩
    · have hph : q.phase = t.point.phase := by
        refine hqp.resolve_right fun hout => ?_
        rw [hjob] at hout
        cases hout.2
      have hb : Task.Backed limit s (.send { t with point := q }) :=
        ⟨window_of_job hjob, holds_of_job hjob hmem (fun hne => ht.2.undecided hp (hph ▸ hne))
          fun he => ht.2.written hp (hph ▸ he)⟩
      exact keptBy_point hs hn hj ha (hb.same hn hj) fun u _ htu => htu.work hp (Or.inl hjob)
    · refine credit_finish hs hp hn hj ha fun sid hm n hrow hb => ?_
      by_cases hph : t.point.phase = .outside
      · obtain ⟨m, hm0, -, -, hok⟩ := ht.2.written hp hph
        cases hm0.symm.trans hrow
        exact hok hb
      · cases hpt : t.point.phase with
        | outside => exact absurd hpt hph
        | undecided i =>
          have hi : i = id := phase_of_job hp (by rw [hpt]; rfl)
          subst hi
          exact absurd hm (((known_undecided hpt).mp hk).2 sid)
        | taken i sid' =>
          have hi : i = id := phase_of_job hp (by rw [hpt]; rfl)
          subst hi
          cases job_of_taken hx h hpt hrow
  | creates htp => 
    rw [htp] at hp
    cases hp
  | @accepts i sid htp hqp hx' hf hn ha =>
    have hi : i = id := phase_of_job hp (by rw [htp]; rfl)
    subst hi
    obtain ⟨hjob, hj⟩ := hq.resolve_right fun hf => by
      rw [hf.1] at hqp
      cases hqp
    have hne : t.point.phase ≠ .outside := by
      rw [htp]
      exact fun hf => (by cases hf)
    obtain ⟨n, hrow, ho, hc, hb, hst⟩ := ht.2.undecided hp hne
    have hcl := claims_of_undecided hmem hb hst
    have hback : Task.Backed limit s (.send { t with point := q }) :=
      ⟨window_of_job hjob, holds_of_job hjob hmem (fun _ => ht.2.undecided hp hne) fun he => by
        rw [hqp] at he
        cases he⟩
    refine ⟨⟨fun o => ?_, fun {k y} hm hsm => ?_⟩, hback.same hn hj, fun {u} _ hu htu _ => ?_⟩
    · rw [claims_congr hj, count_congr hn]
      exact hs.within o
    · rw [hn, claims_congr hj]
      rw [ha, List.mem_append, List.mem_singleton] at hm
      rcases hm with hm | hm
      · exact hs.tracked hm hsm
      · cases hm
        exact ⟨n, hrow, Or.inl hcl⟩
    · have hsep := htu.work (q := q) hp (Or.inl hjob)
      exact ⟨hu.same hn hj, hsep, hsep.symm⟩
  | @refused i error htp hw hqp hn ha =>
    have hi : i = id := phase_of_job hp (by rw [htp]; rfl)
    subst hi
    have hne : t.point.phase ≠ .outside := by
      rw [htp]
      exact fun hf => (by cases hf)
    obtain ⟨n, hrow, ho, hc, hb, hst⟩ := ht.2.undecided hp hne
    have hcl := claims_of_undecided hmem hb hst
    rw [update_of_lookup _ hrow] at hn
    refine credit_row hs hp hw ⟨n, hrow, ho, hc, rfl⟩ hcl
      (show (n.result (.refused error)).orgId = n.orgId from rfl) rfl hn ha hq
      (fun sid hm _ => absurd hm (((known_undecided htp).mp hk).2 sid)) ?_
    rcases hq with ⟨hjob, hj⟩ | ⟨rfl, hj⟩
    · refine ⟨window_of_job hjob, holds_of_job hjob (hj ▸ hmem) (fun _ =>
        ⟨n.result (.refused error), by rw [hn, AList.lookup_insert], ho, hc, hb, Or.inr rfl⟩)
        fun he => ?_⟩
      rcases hqp with hqp | hqp
      · rw [hqp] at he
        cases he
      · rw [hjob] at hqp
        cases hqp.2
    · exact ⟨fun _ => trivial, holds_of_own rfl⟩
  | @records i sid htp hw hqp hn ha =>
    have hi : i = id := phase_of_job hp (by rw [htp]; rfl)
    subst hi
    have hne : t.point.phase ≠ .outside := by
      rw [htp]
      exact fun hf => (by cases hf)
    obtain ⟨n, hrow, ho, hc, hb, hst⟩ := ht.2.undecided hp hne
    have hcl := claims_of_undecided hmem hb hst
    rw [update_of_lookup _ hrow] at hn
    have hacc := ((known_taken htp).mp hk).2
    refine credit_row hs hp hw ⟨n, hrow, ho, hc, rfl⟩ hcl
      (show (n.result (.accepted sid)).orgId = n.orgId from rfl) rfl hn ha hq
      (fun y hm hsm => ?_) ?_
    · cases List.inj_on_of_nodup_map hl.once hm hacc rfl
      refine Or.inl ?_
      cases sid with
      | none => cases hsm
      | some z =>
        have hbill : (n.result (.accepted (some z))).billable = true := by
          unfold Notification.billable Notification.result
          simp only [SendResult.providerMessageId, Loyalty.truthy_some (hl.named hacc),
            Option.some_or]
          exact hsm
        unfold Messaging.claims
        rw [hbill, Bool.or_true, Bool.true_or]
    · rcases hq with ⟨hjob, hj⟩ | ⟨rfl, hj⟩
      · exact ⟨window_of_job hjob, holds_of_job hjob (hj ▸ hmem) (fun he => absurd hqp he) fun _ =>
          ⟨n.result (.accepted sid), by rw [hn, AList.lookup_insert], ho, hc, fun _ => rfl⟩⟩
      · exact ⟨fun _ => trivial, holds_of_own rfl⟩

/-- **A step of a send.** -/
theorem credit_send (hs : Funded limit s) (hl : Linked s) (hk : Known s (.send t))
    (ht : Task.Backed limit s (.send t)) (hx : t.answered x = true) (hc : t.checked s x = true)
    (h : t.next limit s x = some (s', q)) :
    System.KeptBy (Funded limit) (Task.Backed limit) Separate
      (fun u => undisturbed (.send t) u = true) s (.send t) s' (.send { t with point := q }) := by
  cases creditStep_of_next h with
  | begins hp hgo hg hq hse =>
    subst hse hq hgo
    unfold Send.checked at hc
    simp only [hp, hg.1, hg.2, bne_self_eq_false, Bool.false_or, Bool.not_false, Bool.true_and,
      beq_iff_eq] at hc
    refine keptBy_point hs rfl rfl rfl ⟨fun _ => ⟨hc, trivial, fun n hn => (by cases hn)⟩,
      holds_of_own rfl⟩ fun u hR htu => ⟨fun i hi => (by cases hi), fun o ho => ?_⟩
    obtain ⟨ho', -, -⟩ := checks_iff.mp ho
    have ho'' : t.orgId = o := ho'
    subst ho''
    unfold undisturbed Task.disturbs at hR
    simp only [hp, hg.1, if_true, Option.all_some, Bool.not_eq_true'] at hR
    exact hR
  | passes hp hgo hg hq hse =>
    subst hse hq hgo
    have hsms : t.channel ≠ "sms" := by
      intro hsms
      unfold Send.checked at hc
      simp only [hp, hsms, bne_self_eq_false, Bool.false_or, Bool.and_eq_true,
        Bool.not_eq_true'] at hc
      exact hg ⟨hsms, hc.1⟩
    refine keptBy_point hs rfl rfl rfl ⟨fun hf => absurd hf hsms, holds_of_own rfl⟩
      fun u _ htu => ⟨fun i hi => (by cases hi), fun o ho => ?_⟩
    exact absurd (checks_iff.mp ho).2.1 hsms
  | @cached used pending hp hgo hu hq hse =>
    subst hse hq hgo
    refine credit_checking hs hp (own_assertSmsCreditsAvailable _ _ _) rfl rfl rfl fun hsms => ?_
    obtain ⟨hr, -, hpend⟩ := window_allowance ht.1 hp hsms
    unfold Send.checked at hc
    simp only [hp, hu, Option.all_some, decide_eq_true_eq] at hc
    exact window_assert hr hc hpend
  | uncached hp hq hse =>
    subst hse hq
    refine credit_checking hs hp rfl rfl rfl rfl fun hsms _ => ?_
    obtain ⟨hr, -, hpend⟩ := window_allowance ht.1 hp hsms
    exact ⟨hr, trivial, hpend⟩
  | recounts hp hq hse =>
    subst hse hq
    refine credit_checking hs hp rfl rfl rfl rfl fun hsms _ => ?_
    obtain ⟨hr, -, hpend⟩ := window_allowance ht.1 hp hsms
    exact ⟨hr, Nat.le_refl _, hpend⟩
  | caches hp hq hn hj ha =>
    subst hq
    refine credit_checking hs hp (own_assertSmsCreditsAvailable _ _ _) hn hj ha fun hsms => ?_
    obtain ⟨hr, hu, hpend⟩ := window_allowance ht.1 hp hsms
    exact window_assert hr hu hpend
  | pends hp hq hse =>
    subst hse hq
    refine credit_checking hs hp (own_assertSmsCreditsAvailable _ _ _) rfl rfl rfl fun hsms => ?_
    obtain ⟨hr, hu, -⟩ := window_allowance ht.1 hp hsms
    refine window_assert hr hu fun n hn => ?_
    cases hn
    exact Nat.le_refl _
  | quits hp hq hse =>
    subst hse hq
    exact keptBy_point hs rfl rfl rfl ⟨fun _ => trivial, holds_of_own rfl⟩ fun u _ htu =>
      htu.point (fun i hi => (by cases hi)) fun hf => (by cases hf)
  | creates hp hnew hq hj ha hn => exact credit_creates hs ht hp hnew hq hj ha hn
  | enqueues hp hq hn hj ha => exact credit_enqueues hs ht hp hq hn hj ha
  | works hp hq => exact credit_works hs hl hk ht hx h hp hq

/-- **One step.** -/
theorem credit_next {t t' : Task} (hs : Funded limit s) (hl : Linked s) (hk : Known s t)
    (ht : t.Backed limit s) (hx : t.orderly s x = true) (hc : t.checked s x = true)
    (h : next limit s t x = some (s', t')) :
    System.KeptBy (Funded limit) (Task.Backed limit) Separate (fun u => undisturbed t u = true)
      s t s' t' := by
  cases t with
  | send t =>
    obtain ⟨⟨s1, q⟩, hn, he⟩ := Option.map_eq_some_iff.mp h
    cases he
    exact credit_send hs hl hk ht hx hc hn
  | callback c =>
    obtain ⟨⟨s1, q⟩, hn, he⟩ := Option.map_eq_some_iff.mp h
    cases he
    exact credit_callback hs hl hk ht hx hn

end

/-! ## Runs -/

section

variable {limit : Id → ℕ} {p p' : Pool Messaging Task}

theorem Fresh.credit (h : Fresh p) :
    System.Invariant (Funded limit) (Task.Backed limit) Separate p where
  shared := by
    refine ⟨fun o => ?_, fun hm => ?_⟩
    · unfold Messaging.count
      rw [h.notifications]
      exact Nat.zero_le _
    · rw [h.accepted] at hm
      cases hm
  task {i t} hi := by
    have ht := List.mem_of_getElem? hi
    cases t with
    | send t =>
      have hp := h.send ht
      refine ⟨fun _ => by simp only [hp], ?_⟩
      have hh : Send.Holds p.shared { t with point := .start } := holds_of_own rfl
      rw [← hp] at hh
      exact hh
    | callback c =>
      intro i orgId hp
      rw [h.callback ht] at hp
      cases hp
  pair {i j t u} _ hi _ := by
    have ht := List.mem_of_getElem? hi
    cases t with
    | send t =>
      refine ⟨fun id hid => ?_, fun o ho => ?_⟩
      · have hid' : id ∈ t.point.own? := hid
        rw [h.send ht] at hid'
        cases hid'
      · have hcheck := (checks_iff.mp ho).2.2
        rw [h.send ht] at hcheck
        cases hcheck
    | callback c => exact (separate_callback c u).1

/-- What is known when a step meets the condition. -/
def creditable : System.Condition Messaging Task Move Surroundings where
  task s t x := (t.orderly s x = true ∧ t.checked s x = true) ∧ Linked s ∧ Known s t
  others _ t _ u := undisturbed t u = true

/-- The runs are runs of `Convergence`. -/
theorem orderly_of_metered (h : System.Reaches (messaging limit) metered.Meets p p') :
    System.Reaches (messaging limit) orderly.Meets p p' := by
  refine h.imp fun m l _ hl => ?_
  cases l with
  | world y => trivial
  | task i x =>
    exact fun t hi => ⟨(hl t hi).1.1, fun j hj hij u hu => ((hl t hi).2 j hj hij u hu).1⟩

/-- **The invariant of a run.** -/
theorem credit_of_reaches (h0 : Fresh p)
    (h : System.Reaches (messaging limit) metered.Meets p p') :
    System.Invariant (Funded limit) (Task.Backed limit) Separate p' := by
  have h' : System.Reaches (messaging limit) creditable.Meets p p' := by
    refine h.imp fun m l hm hl => ?_
    have hinv := invariant_of_reaches h0 (orderly_of_metered hm)
    cases l with
    | world y => trivial
    | task i x =>
      exact fun t hi => ⟨⟨(hl t hi).1, hinv.shared, hinv.task hi⟩,
        fun j hj hij u hu => ((hl t hi).2 j hj hij u hu).2⟩
  refine h'.invariant h0.credit
    (fun _ _ _ _ _ hs ht hx hn => credit_next hs hx.2.1 hx.2.2 ht hx.1.1 hx.1.2 hn)
    fun s y s' hs _ hw => ?_
  have hj : s'.jobs = s.jobs := by
    cases y with
    | later ms =>
      cases hw
      rfl
    | flushed orgId =>
      cases hw
      rfl
  obtain ⟨hn, ha⟩ := world_leaves hw
  exact ⟨hs.congr hn hj ha, fun u hu => hu.same hn hj⟩

/-- The text messages of an organisation that the provider has reported failed. -/
def Messaging.returnedTo (s : Messaging) (orgId : Id) : ℕ := s.count orgId fun _ n => n.returned

/-- **The allowance is kept**: what an organisation has handed over is at most its limit and what has been
returned to it. -/
theorem allowance_kept {limit : Id → ℕ} {p p' : Pool Messaging Task} (h0 : Fresh p)
    (h : System.Reaches (messaging limit) metered.Meets p p') (orgId : Id) :
    p'.shared.handedOver orgId ≤ limit orgId + p'.shared.returnedTo orgId := by
  have hs := (credit_of_reaches h0 h).shared
  have hl := (invariant_of_reaches h0 (orderly_of_metered h)).shared
  have hkeys : p'.shared.handedOver orgId ≤
      p'.shared.count orgId fun i n => p'.shared.claims i n || n.returned := by
    unfold Messaging.handedOver Messaging.count
    rw [List.countP_eq_length_filter, ← List.length_map (f := Prod.fst)]
    refine length_le_countP (hl.once.sublist (List.filter_sublist.map _)) _ fun i hi => ?_
    obtain ⟨⟨i', sid⟩, ha, rfl⟩ := List.mem_map.mp hi
    obtain ⟨hacc, hq⟩ := List.mem_filter.mp ha
    obtain ⟨hsm, hrow⟩ := Bool.and_eq_true_iff.mp hq
    obtain ⟨n, hn, hor⟩ := hs.tracked hacc hsm
    rw [hn, Option.any_some] at hrow
    exact ⟨n, hn, Bool.and_eq_true_iff.mpr ⟨hrow, Bool.or_eq_true_iff.mpr hor⟩⟩
  calc p'.shared.handedOver orgId
      ≤ p'.shared.count orgId fun i n => p'.shared.claims i n || n.returned := hkeys
    _ ≤ p'.shared.count orgId p'.shared.claims + p'.shared.returnedTo orgId := count_or_le _ _
    _ ≤ limit orgId + p'.shared.returnedTo orgId := Nat.add_le_add_right (hs.within orgId) _

end

/-! ## A limit of one -/

def textMessage (skipSmsPlanGate : Bool) (point : Point) : Task :=
  .send { orgId := 1, channel := "sms", skipSmsPlanGate, point }

def twoMessages (skipSmsPlanGate : Bool) : Pool Messaging Task where
  shared :=
    { notifications := ∅, jobs := [], usage := ⟨0, fun _ => none⟩, accepted := [] }
  tasks := List.replicate 2 (textMessage skipSmsPlanGate .start)

theorem fresh_twoMessages (skipSmsPlanGate : Bool) : Fresh (twoMessages skipSmsPlanGate) := by
  refine ⟨rfl, rfl, fun {t} ht => ?_, fun {c} hc => ?_⟩
  · rw [Task.send.inj (List.eq_of_mem_replicate ht)]
  · cases List.eq_of_mem_replicate hc

/-- A message is checked: the cached count is asked for, the records are counted, and both are. -/
def isChecked (i : ℕ) : List (Label Move Surroundings) :=
  goes i 4 ++ [.task i .pending]

theorem allowance_kept_twoMessages : ∃ p' : Pool Messaging Task, p'.shared.handedOver 1 ≤ 1 ∧
    p'.shared.accepted.length = 1 ∧
      p'.tasks[1]? = some (textMessage false .ended) := by
  obtain ⟨p', hreach, hp⟩ := System.exists_meets (S := messaging fun _ => 1) metered
    (twoMessages false)
    (isChecked 0 ++ [.task 0 (.created 5)] ++ goes 0 3 ++ [.task 0 (.accepts (some "SM1"))] ++
      goes 0 3 ++ [.task 1 .go, .world (.flushed 1)] ++ goes 1 3 ++ [.task 1 .pending])
    (fun p => decide (p.shared.accepted.length = 1) && decide (p.shared.returnedTo 1 = 0) &&
      decide (p.tasks[1]? = some (textMessage false .ended)))
    (by decide +kernel)
  simp only [Bool.and_eq_true, decide_eq_true_eq] at hp
  have hle := allowance_kept (fresh_twoMessages false) hreach 1
  rw [hp.1.2] at hle
  exact ⟨p', hle, hp.1.1, hp.2⟩

/-- **Not every run keeps the allowance**: a message that skips the gate is not checked. -/
theorem exists_over_allowance : ¬ ∀ (limit : Id → ℕ) (p p' : Pool Messaging Task), Fresh p →
    System.Reaches (messaging limit) (fun _ _ => True) p p' →
      ∀ orgId, p'.shared.handedOver orgId ≤ limit orgId := by
  intro h
  obtain ⟨p', hreach, hp⟩ := System.exists_reaches (S := messaging fun _ => 0)
    (P := fun _ _ => True) (fun _ _ => true) (fun _ _ _ => trivial) (twoMessages true)
    (handsOver ++ [.task 0 (.accepts (some "SM1"))])
    (fun p => p.shared.handedOver 1 == 1) (by decide +kernel)
  have hle := h _ _ p' (fresh_twoMessages true) hreach 1
  rw [eq_of_beq hp] at hle
  exact absurd hle (by decide)

end PatronLoyalty.Delivery
