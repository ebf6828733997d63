import PatronLoyalty.Notifications.Delivery

/-!
# What the provider reports is what is stored

A notification that the provider has accepted is not handed over again, and what a callback reports about it
is its status from then on, in runs in which the answer of the provider arrives and is written, no attempt
after it, and a callback comes after that and contradicts none before it: **`converges`**.

`Phase`: what is known of a notification while its send goes on; `SendStep`: what a step of a send does to
the records.
-/

namespace PatronLoyalty.Delivery

open Async
open Loyalty (Id truthy)

/-! ## Phases -/

/-- A send has no record, or is done with it; or the provider has not accepted its message; or it has, and
that is not written yet. -/
inductive Phase
  | outside
  | undecided (id : Id)
  | taken (id : Id) (providerMessageId : Option String)

def Phase.id? : Phase → Option Id
  | .outside => none
  | .undecided id | .taken id _ => some id

def SendResult.found (id : Id) : SendResult → Phase
  | .accepted sid => .taken id sid
  | .refused _ => .undecided id

def SendResult.written (id : Id) : SendResult → Phase
  | .accepted _ => .outside
  | .refused _ => .undecided id

def Work.phase (id : Id) : Work → Phase
  | .template | .provide => .undecided id
  | .find r | .update r => r.found id
  | .campaign r | .count r | .set r _ | .log r => r.written id

def Point.phase : Point → Phase
  | .enqueue id | .waiting id _ => .undecided id
  | .working id _ w => w.phase id
  | .start | .allowance .. | .create | .ended => .outside

/-- The job of the notification has been enqueued, and is not finished. -/
def Point.job? : Point → Option Id
  | .waiting id _ | .working id _ _ => some id
  | _ => none

/-! ## The condition -/

def Move.isLoss : Move → Bool
  | .loses .. => true
  | _ => false

/-- **The condition on a send**: the answer of the provider arrives; when it has accepted the message, that
is written; and no attempt follows. -/
def Send.answered (t : Send) (x : Move) : Bool :=
  match t.point with
  | .working _ _ .provide => !x.isLoss
  | .working _ _ (.find (.accepted _)) | .working _ _ (.update (.accepted _)) => x == .go
  | .working _ n (.campaign (.accepted _)) | .working _ n (.count (.accepted _))
  | .working _ n (.set (.accepted _) _) | .working _ n (.log (.accepted _)) =>
    x == .go || decide (attempts ≤ n + 1) && x != .stop
  | _ => true

/-- **The condition on a callback** that reports a delivery or a failure: it finds the record of its
message, which nothing else has been reported of, and writes to it. -/
def Callback.timely (s : Messaging) (c : Callback) (x : Move) : Bool :=
  match c.point, internalStatus c.messageStatus with
  | .lookup, some _ => x == .go && (!(s.accepted.map (·.2)).contains (some c.messageSid) ||
      (s.findByMessageId c.messageSid).isSome)
  | .write id _, some status => x == .go &&
      (s.notifications.lookup id).all fun n => n.status == "sent" || n.status == status
  | _, _ => true

def Task.orderly (s : Messaging) : Task → Move → Bool
  | .send t, x => t.answered x
  | .callback c, x => c.timely s x

/-- The provider reports on a message after it has accepted it. -/
def unreported : Move → Task → Bool
  | .accepts (some sid), .callback c => c.messageSid != sid || c.point == .lookup
  | _, _ => true

/-- **The condition on the steps of a run.** -/
abbrev orderly : System.Condition Messaging Task Move Surroundings where
  task s t x := t.orderly s x = true
  others _ _ x u := unreported x u = true

/-! ## What a send does to the records -/

section

variable {limit : Id → ℕ} {s s' : Messaging} {t : Send} {q : Point} {x : Move} {id : Id} {n : ℕ}
  {w : Work}

/-- **What a step of a send does.** -/
inductive SendStep (s : Messaging) (t : Send) (x : Move) (s' : Messaging) (q : Point) : Prop
  | stays (hq : q.phase = t.point.phase ∨ q.phase = .outside ∧ q.job? = none)
      (hn : s'.notifications = s.notifications) (ha : s'.accepted = s.accepted)
  | creates {id : Id} (ht : t.point = .create) (hq : q.phase = .undecided id)
      (hnew : s.notifications.lookup id = none)
      (hn : s'.notifications = s.notifications.insert id { orgId := t.orgId, channel := t.channel })
      (ha : s'.accepted = s.accepted)
  | accepts {id : Id} {sid : Option String} (ht : t.point.phase = .undecided id)
      (hq : q.phase = .taken id sid) (hx : x = .accepts sid) (hf : s.fresh sid = true)
      (hn : s'.notifications = s.notifications) (ha : s'.accepted = s.accepted ++ [(id, sid)])
  | refused {id : Id} {error : String} (ht : t.point.phase = .undecided id)
      (hw : ∃ n r, t.point = .working id n (.update r))
      (hq : q.phase = .undecided id ∨ q.phase = .outside ∧ q.job? = none)
      (hn : s'.notifications = (s.update id (·.result (.refused error))).notifications)
      (ha : s'.accepted = s.accepted)
  | records {id : Id} {sid : Option String} (ht : t.point.phase = .taken id sid)
      (hw : ∃ n r, t.point = .working id n (.update r))
      (hq : q.phase = .outside)
      (hn : s'.notifications = (s.update id (·.result (.accepted sid))).notifications)
      (ha : s'.accepted = s.accepted)

theorem accepted_update (s : Messaging) (id : Id) (f : Notification → Notification) :
    (s.update id f).accepted = s.accepted := by
  unfold Messaging.update
  cases s.notifications.lookup id <;> rfl

theorem phase_assertSmsCreditsAvailable (n : ℕ) (u : Used) (p : Option ℕ) :
    (assertSmsCreditsAvailable n u p).phase = .outside ∧
      (assertSmsCreditsAvailable n u p).job? = none := by
  unfold assertSmsCreditsAvailable
  split
  · split <;> exact ⟨rfl, rfl⟩
  · exact ⟨rfl, rfl⟩

theorem failAttempt_eq (s : Messaging) (id : Id) (n : ℕ) :
    (failAttempt s id n).1.notifications = s.notifications ∧
      (failAttempt s id n).1.accepted = s.accepted ∧
      ((failAttempt s id n).2.phase = .undecided id ∧ n + 1 < attempts ∨
        (failAttempt s id n).2.phase = .outside ∧ (failAttempt s id n).2.job? = none) := by
  unfold failAttempt
  split
  · rename_i h
    exact ⟨rfl, rfl, Or.inl ⟨rfl, h⟩⟩
  · exact ⟨rfl, rfl, Or.inr ⟨rfl, rfl⟩⟩

theorem phase_afterCampaign (t : Send) (r : SendResult) (id : Id) :
    (t.afterCampaign r).phase id = r.written id := by
  unfold Send.afterCampaign
  split <;> rfl

/-- A command of the worker leaves the records, unless it is the update. -/
theorem perform_eq (s : Messaging) (orgId id : Id) (w : Work) :
    (w.perform s orgId id).accepted = s.accepted ∧
      ((w.perform s orgId id).notifications = s.notifications ∨ ∃ r, w = .update r) := by
  cases w with
  | update r => exact ⟨accepted_update _ _ _, Or.inr ⟨r, rfl⟩⟩
  | _ => exact ⟨rfl, Or.inl rfl⟩

/-- A command succeeds. -/
theorem sendStep_afterWork (hp : t.point = .working id n w) :
    SendStep s t .go (t.afterWork (w.perform s t.orgId id) id n w).1
      (t.afterWork (w.perform s t.orgId id) id n w).2 := by
  have hphase : t.point.phase = w.phase id := by rw [hp]; rfl
  cases w with
  | template => exact .stays (Or.inl hphase.symm) rfl rfl
  | provide => exact .stays (Or.inl hphase.symm) rfl rfl
  | find r =>
    simp only [Send.afterWork, Work.perform]
    cases s.notifications.lookup id with
    | none => exact .stays (Or.inr ⟨rfl, rfl⟩) rfl rfl
    | some m => exact .stays (Or.inl hphase.symm) rfl rfl
  | update r =>
    have hq : (t.afterWork (s.update id (·.result r)) id n (.update r)).2.phase = r.written id := by
      simp only [Send.afterWork]
      split
      · rfl
      · exact phase_afterCampaign t r id
    cases r with
    | accepted sid => exact .records hphase ⟨n, _, hp⟩ hq rfl (accepted_update _ _ _)
    | refused error => exact .refused hphase ⟨n, _, hp⟩ (Or.inl hq) rfl (accepted_update _ _ _)
  | campaign r =>
    exact .stays (Or.inl ((phase_afterCampaign t r id).trans hphase.symm)) rfl rfl
  | count r => exact .stays (Or.inl hphase.symm) rfl rfl
  | set r m => exact .stays (Or.inl hphase.symm) rfl rfl
  | log r =>
    cases r with
    | accepted sid => exact .stays (Or.inr ⟨rfl, rfl⟩) rfl rfl
    | refused error =>
      obtain ⟨hn, ha, hq⟩ := failAttempt_eq s id n
      exact .stays (hq.imp_left fun h => h.1.trans hphase.symm) hn ha

/-- **When a command may fail**: what is then undecided stays so, or it was the last attempt. -/
theorem phase_of_answered (hp : t.point = .working id n w) (hx : t.answered x = true)
    (hgo : x ≠ .go) :
    w.phase id = .undecided id ∨
      w.phase id = .outside ∧ (∀ r, w ≠ .update r) ∧ attempts ≤ n + 1 ∧ x ≠ .stop := by
  unfold Send.answered at hx
  rw [hp] at hx
  cases w with
  | template => exact Or.inl rfl
  | provide => exact Or.inl rfl
  | find r =>
    cases r with
    | accepted sid => exact absurd (eq_of_beq hx) hgo
    | refused error => exact Or.inl rfl
  | update r =>
    cases r with
    | accepted sid => exact absurd (eq_of_beq hx) hgo
    | refused error => exact Or.inl rfl
  | campaign r | count r | log r =>
    cases r with
    | accepted sid =>
      simp only [Bool.or_eq_true, beq_iff_eq, Bool.and_eq_true, decide_eq_true_eq, bne_iff_ne] at hx
      obtain ⟨hn, hstop⟩ := hx.resolve_left hgo
      exact Or.inr ⟨rfl, fun r hr => (by cases hr), hn, hstop⟩
    | refused error => exact Or.inl rfl
  | set r m =>
    cases r with
    | accepted sid =>
      simp only [Bool.or_eq_true, beq_iff_eq, Bool.and_eq_true, decide_eq_true_eq, bne_iff_ne] at hx
      obtain ⟨hn, hstop⟩ := hx.resolve_left hgo
      exact Or.inr ⟨rfl, fun r hr => (by cases hr), hn, hstop⟩
    | refused error => exact Or.inl rfl

theorem sendStep_fails {made : Bool} (hp : t.point = .working id n w)
    (hx : t.answered (.fails made) = true) :
    SendStep s t (.fails made) (failAttempt (if made then w.perform s t.orgId id else s) id n).1
      (failAttempt (if made then w.perform s t.orgId id else s) id n).2 := by
  have hphase : t.point.phase = w.phase id := by rw [hp]; rfl
  have hw := phase_of_answered hp hx (fun h => by cases h)
  obtain ⟨hn, ha, hq⟩ := failAttempt_eq (if made then w.perform s t.orgId id else s) id n
  obtain ⟨hpa, hpn⟩ := perform_eq s t.orgId id w
  have hacc : (if made then w.perform s t.orgId id else s).accepted = s.accepted := by
    cases made
    · rfl
    · exact hpa
  rcases hw with hw | ⟨hw, hup, hlast, -⟩
  · have hq' : (failAttempt (if made then w.perform s t.orgId id else s) id n).2.phase =
        t.point.phase ∨
        (failAttempt (if made then w.perform s t.orgId id else s) id n).2.phase = .outside ∧
          (failAttempt (if made then w.perform s t.orgId id else s) id n).2.job? = none :=
      hq.imp_left fun h => h.1.trans (hw.symm.trans hphase.symm)
    cases made with
    | false => exact .stays hq' hn ha
    | true =>
      rcases hpn with hpn | ⟨r, rfl⟩
      · exact .stays hq' (hn.trans hpn) (ha.trans hpa)
      · cases r with
        | accepted sid => cases hw
        | refused error =>
          exact .refused (hphase.trans hw) ⟨n, _, hp⟩ (hq.imp_left And.left) hn (ha.trans hacc)
  · have hout := hq.resolve_left fun h => Nat.not_lt_of_le hlast h.2
    have hnot : (if made then w.perform s t.orgId id else s).notifications = s.notifications := by
      cases made with
      | false => rfl
      | true =>
        rcases hpn with hpn | ⟨r, hr⟩
        · exact hpn
        · exact absurd hr (hup r)
    exact .stays (Or.inr hout) (hn.trans hnot) (ha.trans hacc)

/-- **One step of a send.** -/
theorem sendStep_of_next (hx : t.answered x = true) (h : t.next limit s x = some (s', q)) :
    SendStep s t x s' q := by
  cases x with
  | go =>
    simp only [Send.next] at h
    split at h
    · cases h
      refine .stays (Or.inr ?_) rfl rfl
      split <;> exact ⟨rfl, rfl⟩
    · split at h
      · cases h
        exact .stays (Or.inr (phase_assertSmsCreditsAvailable _ _ _)) rfl rfl
      · cases h
        exact .stays (Or.inr ⟨rfl, rfl⟩) rfl rfl
    · cases h
      exact .stays (Or.inr ⟨rfl, rfl⟩) rfl rfl
    · cases h
      exact .stays (Or.inr (phase_assertSmsCreditsAvailable _ _ _)) rfl rfl
    · rename_i id hp
      cases h
      exact .stays (Or.inl (by rw [hp]; rfl)) rfl rfl
    · rename_i id n hp
      cases h
      exact .stays (Or.inl (by rw [hp]; rfl)) rfl rfl
    · rename_i id n w hp
      split at h
      · cases h
      · have hstep := sendStep_afterWork (s := s) hp
        rw [Option.some.inj h] at hstep
        exact hstep
    all_goals cases h
  | pending =>
    simp only [Send.next] at h
    split at h
    · cases h
      exact .stays (Or.inr (phase_assertSmsCreditsAvailable _ _ _)) rfl rfl
    · cases h
  | refuse =>
    simp only [Send.next] at h
    split at h
    all_goals cases h
    all_goals exact .stays (Or.inr ⟨rfl, rfl⟩) rfl rfl
  | created id =>
    simp only [Send.next] at h
    split at h
    · rename_i hc
      cases h
      exact .creates hc.1 rfl hc.2 rfl rfl
    · cases h
  | accepts sid =>
    simp only [Send.next] at h
    split at h
    · rename_i id n hp
      split at h
      · rename_i hc
        cases h
        exact .accepts (by rw [hp]; rfl) rfl rfl (Bool.and_eq_true_iff.mp hc).2 rfl rfl
      · cases h
    · cases h
  | refuses error =>
    simp only [Send.next] at h
    split at h
    · rename_i id n hp
      cases h
      exact .stays (Or.inl (by rw [hp]; rfl)) rfl rfl
    · cases h
  | loses sid error =>
    simp only [Send.next] at h
    split at h
    · rename_i id n hp
      unfold Send.answered at hx
      rw [hp] at hx
      cases hx
    · cases h
  | fails made =>
    simp only [Send.next] at h
    split at h
    · rename_i id n w hp
      split at h
      · cases h
      · have hstep := sendStep_fails (s := s) hp hx
        rw [Option.some.inj h] at hstep
        exact hstep
    · rename_i id hp
      cases made with
      | true =>
        cases h
        exact .stays (Or.inl (by rw [hp]; rfl)) rfl rfl
      | false =>
        cases h
        exact .stays (Or.inr ⟨rfl, rfl⟩) rfl rfl
    all_goals cases h
    all_goals exact .stays (Or.inr ⟨rfl, rfl⟩) rfl rfl
  | lost =>
    simp only [Send.next] at h
    split at h
    · cases h
      exact .stays (Or.inr ⟨rfl, rfl⟩) rfl rfl
    · cases h
      exact .stays (Or.inr (phase_assertSmsCreditsAvailable _ _ _)) rfl rfl
    · cases h
  | stop =>
    simp only [Send.next] at h
    split at h
    · rename_i id n w hp
      cases h
      rcases phase_of_answered hp hx (fun hf => by cases hf) with hw | ⟨-, -, -, hstop⟩
      · refine .stays (Or.inl ?_) rfl rfl
        rw [hp]
        exact hw.symm
      · exact absurd rfl hstop
    all_goals cases h
    all_goals exact .stays (Or.inr ⟨rfl, rfl⟩) rfl rfl

end

/-! ## What a callback does to the records -/

section

variable {s s' : Messaging} {c : Callback} {q : CallbackPoint} {x : Move}

def CallbackPoint.past : CallbackPoint → Bool
  | .lookup | .write .. => false
  | _ => true

/-- **What a step of a callback does.** -/
inductive CallbackStep (s : Messaging) (c : Callback) (s' : Messaging) (q : CallbackPoint) : Prop
  | finds {id : Id} {n : Notification} (hf : s.findByMessageId c.messageSid = some (id, n))
      (hq : q = .write id n.orgId) (hn : s'.notifications = s.notifications)
      (ha : s'.accepted = s.accepted)
  | misses (hq : q.past = true)
      (hm : ∀ status, internalStatus c.messageStatus = some status →
        ∀ id, (id, some c.messageSid) ∉ s.accepted)
      (hn : s'.notifications = s.notifications) (ha : s'.accepted = s.accepted)
  | writes {id orgId : Id} {status : String} (hp : c.point = .write id orgId)
      (hs : internalStatus c.messageStatus = some status)
      (hrow : ∀ n, s.notifications.lookup id = some n → n.status = "sent" ∨ n.status = status)
      (hq : q.past = true) (hn : s'.notifications = (s.update id (c.report status)).notifications)
      (ha : s'.accepted = s.accepted)
  | goes (hp : c.point.past = true) (hq : q.past = true)
      (hn : s'.notifications = s.notifications) (ha : s'.accepted = s.accepted)

theorem lookup_of_findByMessageId {id : Id} {n : Notification} {sid : String}
    (h : s.findByMessageId sid = some (id, n)) :
    s.notifications.lookup id = some n ∧ n.providerMessageId = some sid := by
  obtain ⟨e, he, heq⟩ := Option.map_eq_some_iff.mp h
  cases heq
  exact ⟨AList.mem_lookup_iff.mpr (List.mem_of_find?_eq_some he), by simpa using List.find?_some he⟩

/-- What the condition says of a callback that has still to find its record. -/
theorem timely_lookup {status : String} (hx : c.timely s x = true) (hp : c.point = .lookup)
    (hs : internalStatus c.messageStatus = some status) :
    x = .go ∧ (s.findByMessageId c.messageSid = none → ∀ id, (id, some c.messageSid) ∉ s.accepted) := by
  unfold Callback.timely at hx
  rw [hp, hs] at hx
  obtain ⟨hgo, hfound⟩ := Bool.and_eq_true_iff.mp hx
  refine ⟨eq_of_beq hgo, fun hnone id hmem => ?_⟩
  rw [hnone, Option.isSome_none, Bool.or_false, Bool.not_eq_true',
    List.contains_eq_mem, decide_eq_false_iff_not] at hfound
  exact hfound (List.mem_map.mpr ⟨_, hmem, rfl⟩)

theorem timely_write {status : String} {id orgId : Id} (hx : c.timely s x = true)
    (hp : c.point = .write id orgId) (hs : internalStatus c.messageStatus = some status) :
    x = .go ∧ ∀ n, s.notifications.lookup id = some n → n.status = "sent" ∨ n.status = status := by
  unfold Callback.timely at hx
  rw [hp, hs] at hx
  obtain ⟨hgo, hrow⟩ := Bool.and_eq_true_iff.mp hx
  refine ⟨eq_of_beq hgo, fun n hn => ?_⟩
  rw [hn, Option.all_some, Bool.or_eq_true, beq_iff_eq, beq_iff_eq] at hrow
  exact hrow

theorem past_afterLog (c : Callback) (orgId : Id) : (c.afterLog orgId).past = true := by
  unfold Callback.afterLog
  split
  · rfl
  · split <;> rfl

theorem callbackStep_ends (hx : c.timely s x = true) (hgo : x ≠ .go) (hq : q.past = true)
    (hp : c.point.past = true ∨ c.point = .lookup) : CallbackStep s c s q := by
  rcases hp with hp | hp
  · exact .goes hp hq rfl rfl
  · exact .misses hq (fun status hs => absurd (timely_lookup hx hp hs).1 hgo) rfl rfl

/-- **One step of a callback.** -/
theorem callbackStep_of_next (hx : c.timely s x = true) (h : c.next s x = some (s', q)) :
    CallbackStep s c s' q := by
  cases x with
  | go =>
    simp only [Callback.next] at h
    split at h
    · rename_i hp
      split at h
      · rename_i hf
        cases h
        exact .misses rfl (fun status hs => (timely_lookup hx hp hs).2 hf) rfl rfl
      · rename_i id n hf
        cases h
        split
        · exact .finds hf rfl rfl rfl
        · rename_i hs
          refine .misses rfl (fun status hst => ?_) rfl rfl
          rw [hst] at hs
          exact absurd rfl hs
    · rename_i id orgId hp
      split at h
      · rename_i status hs
        cases h
        exact .writes hp hs (timely_write hx hp hs).2 rfl rfl (accepted_update _ _ _)
      · cases h
    · rename_i hp
      cases h
      exact .goes (by rw [hp]; rfl) (past_afterLog _ _) rfl rfl
    · rename_i hp
      cases h
      exact .goes (by rw [hp]; rfl) rfl rfl rfl
    · rename_i hp
      cases h
      refine .goes (by rw [hp]; rfl) ?_ rfl rfl
      split <;> rfl
    · rename_i hp
      cases h
      refine .goes (by rw [hp]; rfl) ?_ rfl rfl
      split <;> rfl
    · rename_i hp
      cases h
      exact .goes (by rw [hp]; rfl) rfl rfl rfl
    · rename_i hp
      cases h
      exact .goes (by rw [hp]; rfl) rfl rfl rfl
    all_goals cases h
  | lost =>
    simp only [Callback.next] at h
    split at h
    · rename_i hp
      cases h
      refine .goes (by rw [hp]; rfl) ?_ rfl rfl
      split <;> rfl
    · rename_i hp
      cases h
      exact .goes (by rw [hp]; rfl) rfl rfl rfl
    · rename_i hp
      cases h
      exact .goes (by rw [hp]; rfl) rfl rfl rfl
    · cases h
  | fails made =>
    simp only [Callback.next] at h
    split at h
    · rename_i id orgId hp
      split at h
      · rename_i status hs
        cases (timely_write hx hp hs).1
      · cases h
    · cases h
    · rename_i hw _
      cases h
      refine callbackStep_ends hx (fun hf => by cases hf) rfl ?_
      cases hp : c.point with
      | lookup => exact Or.inr rfl
      | write id orgId => exact absurd hp (hw id orgId)
      | _ => exact Or.inl rfl
  | stop =>
    simp only [Callback.next] at h
    split at h
    · cases h
    · cases h
      cases hp : c.point with
      | write id orgId =>
        cases hs : internalStatus c.messageStatus with
        | some status => cases (timely_write hx hp hs).1
        | none => exact .misses rfl (fun status hst => by cases hs.symm.trans hst) rfl rfl
      | lookup => exact callbackStep_ends hx (fun hf => by cases hf) rfl (Or.inr hp)
      | _ => exact .goes (by rw [hp]; rfl) rfl rfl rfl
  | _ => cases h

end

/-! ## What is known -/

/-- What is known of the records and of what the provider has accepted. -/
structure Linked (s : Messaging) : Prop where
  once : (s.accepted.map Prod.fst).Nodup
  unique {i j : Id} {sid : String} :
    (i, some sid) ∈ s.accepted → (j, some sid) ∈ s.accepted → i = j
  named {i : Id} {sid : String} : (i, some sid) ∈ s.accepted → sid ≠ ""
  record {i : Id} {sid : Option String} : (i, sid) ∈ s.accepted → ∃ n, s.notifications.lookup i = some n
  accepted {i : Id} {n : Notification} {sid : String} : s.notifications.lookup i = some n →
    n.providerMessageId = some sid → (i, some sid) ∈ s.accepted
  undelivered {i : Id} {n : Notification} : s.notifications.lookup i = some n →
    n.providerMessageId = none → n.status ≠ "delivered"

def Blank (s : Messaging) (id : Id) : Prop :=
  ∃ n, s.notifications.lookup id = some n ∧ n.providerMessageId = none

def Callback.Settled (s : Messaging) (c : Callback) : Prop :=
  ∀ status, internalStatus c.messageStatus = some status → ∀ id, (id, some c.messageSid) ∈ s.accepted →
    ∃ n, s.notifications.lookup id = some n ∧ n.providerMessageId = some c.messageSid ∧
      n.status = status

def Known (s : Messaging) : Task → Prop
  | .send t =>
    match t.point.phase with
    | .outside => True
    | .undecided id => Blank s id ∧ ∀ sid, (id, sid) ∉ s.accepted
    | .taken id sid => Blank s id ∧ (id, sid) ∈ s.accepted
  | .callback c =>
    match c.point with
    | .lookup => True
    | .write id _ => ∃ n, s.notifications.lookup id = some n ∧ n.providerMessageId = some c.messageSid
    | _ => c.Settled s

/-- The record that a task may write a result to. -/
def Task.id? : Task → Option Id
  | .send t => t.point.phase.id?
  | .callback _ => none

/-- No two tasks write a result to one record. -/
def Apart (t u : Task) : Prop := ∀ id ∈ t.id?, id ∉ u.id?

section

variable {s s' : Messaging} {t : Send} {c : Callback} {u : Task} {q : Point} {id : Id}

theorem known_outside (h : t.point.phase = .outside) : Known s (.send t) := by
  unfold Known
  simp only [h]

theorem known_undecided (h : t.point.phase = .undecided id) :
    Known s (.send t) ↔ Blank s id ∧ ∀ sid, (id, sid) ∉ s.accepted := by
  unfold Known
  simp only [h]

theorem known_taken {sid : Option String} (h : t.point.phase = .taken id sid) :
    Known s (.send t) ↔ Blank s id ∧ (id, sid) ∈ s.accepted := by
  unfold Known
  simp only [h]

theorem known_past (h : c.point.past = true) : Known s (.callback c) ↔ c.Settled s := by
  unfold Known
  cases hp : c.point with
  | lookup =>
    rw [hp] at h
    cases h
  | write id orgId =>
    rw [hp] at h
    cases h
  | _ => simp only [hp]

theorem known_write {orgId : Id} (h : c.point = .write id orgId) : Known s (.callback c) ↔
    ∃ n, s.notifications.lookup id = some n ∧ n.providerMessageId = some c.messageSid := by
  unfold Known
  simp only [h]

theorem callback_cases (c : Callback) :
    c.point = .lookup ∨ (∃ id orgId, c.point = .write id orgId) ∨ c.point.past = true := by
  cases c.point with
  | lookup => exact Or.inl rfl
  | write id orgId => exact Or.inr (Or.inl ⟨id, orgId, rfl⟩)
  | _ => exact Or.inr (Or.inr rfl)

theorem known_lookup (h : c.point = .lookup) : Known s (.callback c) := by
  unfold Known
  simp only [h]

theorem known_send_congr (h : Known s (.send t))
    (hrow : ∀ i ∈ t.point.phase.id?, s'.notifications.lookup i = s.notifications.lookup i)
    (hacc : ∀ i ∈ t.point.phase.id?, ∀ sid, (i, sid) ∈ s'.accepted ↔ (i, sid) ∈ s.accepted) :
    Known s' (.send t) := by
  cases hp : t.point.phase with
  | outside => exact known_outside hp
  | undecided i =>
    have hi : i ∈ t.point.phase.id? := by rw [hp]; rfl
    obtain ⟨⟨n, hn, hb⟩, hno⟩ := (known_undecided hp).mp h
    exact (known_undecided hp).mpr
      ⟨⟨n, (hrow i hi).trans hn, hb⟩, fun sid hm => hno sid ((hacc i hi sid).mp hm)⟩
  | taken i sid =>
    have hi : i ∈ t.point.phase.id? := by rw [hp]; rfl
    obtain ⟨⟨n, hn, hb⟩, hm⟩ := (known_taken hp).mp h
    exact (known_taken hp).mpr ⟨⟨n, (hrow i hi).trans hn, hb⟩, (hacc i hi sid).mpr hm⟩

theorem blank_of_known (h : Known s (.send t)) (hid : id ∈ t.point.phase.id?) : Blank s id := by
  cases hp : t.point.phase with
  | outside =>
    rw [hp] at hid
    cases hid
  | undecided i =>
    rw [hp] at hid
    cases hid
    exact ((known_undecided hp).mp h).1
  | taken i sid =>
    rw [hp] at hid
    cases hid
    exact ((known_taken hp).mp h).1

/-- **What is known of the others** when a record without a message is written, or made. -/
theorem Known.of_row (h : Known s u) (hne : ∀ i, i ≠ id →
      s'.notifications.lookup i = s.notifications.lookup i)
    (hid : ∀ n, s.notifications.lookup id = some n → n.providerMessageId = none)
    (ha : s'.accepted = s.accepted) (hu : id ∉ u.id?) : Known s' u := by
  have hrow : ∀ {i n sid}, s.notifications.lookup i = some n → n.providerMessageId = some sid →
      s'.notifications.lookup i = some n := by
    intro i n sid hn hsid
    refine (hne i ?_).trans hn
    rintro rfl
    rw [hid n hn] at hsid
    cases hsid
  cases u with
  | send t =>
    refine known_send_congr h (fun i hi => hne i ?_) fun i _ sid => by rw [ha]
    rintro rfl
    exact hu hi
  | callback c =>
    rcases callback_cases c with hp | ⟨i, orgId, hp⟩ | hp
    · exact known_lookup hp
    · obtain ⟨n, hn, hsid⟩ := (known_write hp).mp h
      exact (known_write hp).mpr ⟨n, hrow hn hsid, hsid⟩
    · refine (known_past hp).mpr fun status hs i hi => ?_
      rw [ha] at hi
      obtain ⟨n, hn, hsid, hst⟩ := (known_past hp).mp h status hs i hi
      exact ⟨n, hrow hn hsid, hsid, hst⟩

/-- Nothing has happened to the records. -/
theorem Known.congr (h : Known s u) (hn : s'.notifications = s.notifications)
    (ha : s'.accepted = s.accepted) : Known s' u := by
  cases u with
  | send t => exact known_send_congr h (fun i _ => by rw [hn]) fun i _ sid => by rw [ha]
  | callback c =>
    rcases callback_cases c with hp | ⟨i, orgId, hp⟩ | hp
    · exact known_lookup hp
    · rw [known_write hp] at h ⊢
      rw [hn]
      exact h
    · rw [known_past hp] at h ⊢
      unfold Callback.Settled at h ⊢
      rw [hn, ha]
      exact h

theorem Linked.congr (h : Linked s) (hn : s'.notifications = s.notifications)
    (ha : s'.accepted = s.accepted) : Linked s' where
  once := ha ▸ h.once
  unique hi hj := h.unique (ha ▸ hi) (ha ▸ hj)
  named hi := h.named (ha ▸ hi)
  record hi := hn ▸ h.record (ha ▸ hi)
  accepted hi hs := ha ▸ h.accepted (hn ▸ hi) hs
  undelivered hi := h.undelivered (hn ▸ hi)

theorem update_of_lookup {n : Notification} (f : Notification → Notification)
    (h : s.notifications.lookup id = some n) :
    (s.update id f).notifications = s.notifications.insert id (f n) := by
  unfold Messaging.update
  rw [h]

/-- A record is written, or made. -/
theorem Linked.insert {n : Notification} (h : Linked s)
    (hn : s'.notifications = s.notifications.insert id n) (ha : s'.accepted = s.accepted)
    (hsid : ∀ sid, n.providerMessageId = some sid → (id, some sid) ∈ s.accepted)
    (hst : n.providerMessageId = none → n.status ≠ "delivered") : Linked s' where
  once := ha ▸ h.once
  unique hi hj := h.unique (ha ▸ hi) (ha ▸ hj)
  named hi := h.named (ha ▸ hi)
  record {i sid} hi := by
    by_cases he : i = id
    · subst he
      exact ⟨n, by rw [hn, AList.lookup_insert]⟩
    · rw [hn, AList.lookup_insert_ne he]
      exact h.record (ha ▸ hi)
  accepted {i m sid} hi hs := by
    rw [ha]
    by_cases he : i = id
    · subst he
      rw [hn, AList.lookup_insert] at hi
      cases hi
      exact hsid sid hs
    · rw [hn, AList.lookup_insert_ne he] at hi
      exact h.accepted hi hs
  undelivered {i m} hi hs := by
    by_cases he : i = id
    · subst he
      rw [hn, AList.lookup_insert] at hi
      cases hi
      exact hst hs
    · rw [hn, AList.lookup_insert_ne he] at hi
      exact h.undelivered hi hs

end

/-! ## Steps -/

section

variable {s s' : Messaging} {t : Send} {c : Callback} {u : Task} {q : Point} {x : Move} {id : Id}

theorem known_send_phase {v : Send} (h : Known s (.send t)) (hq : v.point.phase = t.point.phase) :
    Known s (.send v) := by
  unfold Known at h ⊢
  simp only [hq]
  exact h

theorem Apart.of_phase (h : Apart (.send t) u)
    (hq : q.phase = t.point.phase ∨ q.phase = .outside ∧ q.job? = none) :
    Apart (.send { t with point := q }) u := by
  intro id hid
  have hid' : id ∈ q.phase.id? := hid
  rcases hq with hq | ⟨hq, -⟩
  · rw [hq] at hid'
    exact h id hid'
  · rw [hq] at hid'
    cases hid'

theorem Apart.symm {t : Task} (h : Apart t u) : Apart u t := fun id hu ht => h id ht hu

theorem others_of_row {k : Id}
    (hne : ∀ i, i ≠ k → s'.notifications.lookup i = s.notifications.lookup i)
    (hid : ∀ n, s.notifications.lookup k = some n → n.providerMessageId = none)
    (ha : s'.accepted = s.accepted) (hq : ∀ i ∈ q.phase.id?, i = k) (hu : Known s u)
    (hap : k ∉ u.id?) :
    Known s' u ∧ Apart (.send { t with point := q }) u ∧ Apart u (.send { t with point := q }) := by
  have hap' : Apart (.send { t with point := q }) u := fun i hi => hq i hi ▸ hap
  exact ⟨hu.of_row hne hid ha hap, hap', hap'.symm⟩

/-- **A step of a send keeps what is known.** -/
theorem keptBy_send (hs : Linked s) (ht : Known s (.send t)) (h : SendStep s t x s' q) :
    System.KeptBy Linked Known Apart (fun u => unreported x u = true) s (.send t) s'
      (.send { t with point := q }) := by
  cases h with
  | stays hq hn ha =>
    refine ⟨hs.congr hn ha, ?_, fun _ hu htu _ =>
      ⟨hu.congr hn ha, htu.of_phase hq, (htu.of_phase hq).symm⟩⟩
    rcases hq with hq | ⟨hq, -⟩
    · exact (known_send_phase (v := { t with point := q }) ht hq).congr hn ha
    · exact known_outside hq
  | @creates id htp hq hnew hn ha =>
    have hne : ∀ i, i ≠ id → s'.notifications.lookup i = s.notifications.lookup i := by
      intro i hi
      rw [hn, AList.lookup_insert_ne hi]
    refine ⟨hs.insert hn ha (fun sid hsid => by cases hsid) fun _ => ?_, ?_,
      fun {u} _ hu _ _ => others_of_row hne ?_ ha ?_ hu ?_⟩
    · show "pending" ≠ "delivered"
      decide
    · refine (known_undecided (t := { t with point := q }) hq).mpr
        ⟨⟨_, by rw [hn, AList.lookup_insert], rfl⟩, fun sid hm => ?_⟩
      obtain ⟨n, hrow⟩ := hs.record (ha ▸ hm)
      rw [hnew] at hrow
      cases hrow
    · intro n hrow
      rw [hnew] at hrow
      cases hrow
    · intro i hi
      rw [hq] at hi
      exact (Option.some.inj hi).symm
    · intro hid
      cases u with
      | callback c => cases hid
      | send t' =>
        obtain ⟨n, hrow, -⟩ := blank_of_known hu hid
        rw [hnew] at hrow
        cases hrow
  | @accepts id sid htp hq hx hf hn ha =>
    obtain ⟨hblank, hno⟩ := (known_undecided htp).mp ht
    have hfresh : ∀ y, sid = some y → y ≠ "" ∧ ∀ i, (i, some y) ∉ s.accepted := by
      rintro y rfl
      have hf' := Bool.and_eq_true_iff.mp hf
      refine ⟨by simpa using hf'.1, fun i hi => ?_⟩
      have hc := hf'.2
      rw [Bool.not_eq_true', List.contains_eq_mem, decide_eq_false_iff_not] at hc
      exact hc (List.mem_map.mpr ⟨_, hi, rfl⟩)
    have hmem : ∀ {i y}, (i, y) ∈ s'.accepted ↔ (i, y) ∈ s.accepted ∨ i = id ∧ y = sid := by
      intro i y
      rw [ha, List.mem_append, List.mem_singleton, Prod.mk.injEq]
    refine ⟨⟨?_, ?_, ?_, ?_, ?_, ?_⟩, ?_, fun {u} hR hu htu _ => ⟨?_, ?_, ?_⟩⟩
    · rw [ha, List.map_append, List.map_singleton]
      refine List.nodup_append.mpr ⟨hs.once, List.nodup_singleton _, fun i hi j hj => ?_⟩
      obtain ⟨⟨i', y⟩, hm, rfl⟩ := List.mem_map.mp hi
      cases List.mem_singleton.mp hj
      rintro rfl
      exact hno y hm
    · intro i j y hi hj
      rcases hmem.mp hi with hi | ⟨rfl, hy⟩ <;> rcases hmem.mp hj with hj | ⟨rfl, hy'⟩
      · exact hs.unique hi hj
      · exact absurd hi ((hfresh y hy'.symm).2 i)
      · exact absurd hj ((hfresh y hy.symm).2 j)
      · rfl
    · intro i y hi
      rcases hmem.mp hi with hi | ⟨-, hy⟩
      · exact hs.named hi
      · exact (hfresh y hy.symm).1
    · intro i y hi
      rw [hn]
      rcases hmem.mp hi with hi | ⟨rfl, -⟩
      · exact hs.record hi
      · obtain ⟨n, hrow, -⟩ := hblank
        exact ⟨n, hrow⟩
    · intro i n y hi hy
      exact hmem.mpr (Or.inl (hs.accepted (hn ▸ hi) hy))
    · intro i n hi hb
      exact hs.undelivered (hn ▸ hi) hb
    · refine (known_taken (t := { t with point := q }) hq).mpr ⟨?_, hmem.mpr (Or.inr ⟨rfl, rfl⟩)⟩
      obtain ⟨n, hrow, hb⟩ := hblank
      exact ⟨n, by rw [hn]; exact hrow, hb⟩
    · cases u with
      | send t' =>
        refine known_send_congr hu (fun i _ => by rw [hn]) fun i hi y => ?_
        refine hmem.trans (or_iff_left ?_)
        rintro ⟨rfl, -⟩
        exact htu i (by show i ∈ t.point.phase.id?; rw [htp]; rfl) hi
      | callback c =>
        rcases callback_cases c with hp | ⟨i, orgId, hp⟩ | hp
        · exact known_lookup hp
        · rw [known_write hp] at hu ⊢
          rw [hn]
          exact hu
        · refine (known_past hp).mpr fun status hst i hi => ?_
          rw [hn]
          rcases hmem.mp hi with hi | ⟨-, hy⟩
          · exact (known_past hp).mp hu status hst i hi
          · subst hx
            subst hy
            have hor : c.messageSid ≠ c.messageSid ∨ c.point = .lookup := by
              simpa [unreported] using hR
            have hl := hor.resolve_left (fun hne => hne rfl)
            rw [hl] at hp
            cases hp
    · intro i hi
      have hi' : i ∈ q.phase.id? := hi
      rw [hq] at hi'
      cases hi'
      exact htu id (by show id ∈ t.point.phase.id?; rw [htp]; rfl)
    · intro i hi hi'
      have hi'' : i ∈ q.phase.id? := hi'
      rw [hq] at hi''
      cases hi''
      exact htu id (by show id ∈ t.point.phase.id?; rw [htp]; rfl) hi
  | @refused id error htp hw hq hn ha =>
    obtain ⟨⟨n, hrow, hb⟩, hno⟩ := (known_undecided htp).mp ht
    rw [update_of_lookup _ hrow] at hn
    refine ⟨hs.insert hn ha (fun sid hsid => ?_) fun _ => ?_, ?_,
      fun _ hu htu _ => others_of_row (k := id) ?_ ?_ ha ?_ hu
        (htu id (by show id ∈ t.point.phase.id?; rw [htp]; rfl))⟩
    · cases hb.symm.trans hsid
    · show "failed" ≠ "delivered"
      decide
    · rcases hq with hq | ⟨hq, -⟩
      · exact (known_undecided (t := { t with point := q }) hq).mpr
          ⟨⟨n.result (.refused error), by rw [hn, AList.lookup_insert], hb⟩,
            fun sid hm => hno sid (ha ▸ hm)⟩
      · exact known_outside hq
    · intro i hi
      rw [hn, AList.lookup_insert_ne hi]
    · intro m hm
      rw [hrow] at hm
      cases hm
      exact hb
    · intro i hi
      rcases hq with hq | ⟨hq, -⟩
      · rw [hq] at hi
        exact (Option.some.inj hi).symm
      · rw [hq] at hi
        cases hi
  | @records id sid htp hw hq hn ha =>
    obtain ⟨⟨n, hrow, hb⟩, hmem⟩ := (known_taken htp).mp ht
    rw [update_of_lookup _ hrow] at hn
    refine ⟨hs.insert hn ha (fun y hy => ?_) fun _ => ?_, known_outside hq,
      fun _ hu htu _ => others_of_row (k := id) ?_ ?_ ha ?_ hu
        (htu id (by show id ∈ t.point.phase.id?; rw [htp]; rfl))⟩
    · have hy' : (truthy sid).or n.providerMessageId = some y := hy
      rw [hb, Option.or_none] at hy'
      cases sid with
      | none => cases hy'
      | some z =>
        rw [Loyalty.truthy_some (hs.named hmem)] at hy'
        cases hy'
        exact hmem
    · show "sent" ≠ "delivered"
      decide
    · intro i hi
      rw [hn, AList.lookup_insert_ne hi]
    · intro m hm
      rw [hrow] at hm
      cases hm
      exact hb
    · intro i hi
      rw [hq] at hi
      cases hi

theorem internalStatus_ne_sent {messageStatus status : String}
    (h : internalStatus messageStatus = some status) : status ≠ "sent" := by
  unfold internalStatus at h
  split at h
  · cases h
    decide
  · split at h
    · cases h
      decide
    · cases h

/-- **A step of a callback keeps what is known.** -/
theorem keptBy_callback {R : Task → Prop} {q : CallbackPoint} (hs : Linked s)
    (hc : Known s (.callback c)) (h : CallbackStep s c s' q) :
    System.KeptBy Linked Known Apart R s (.callback c) s' (.callback { c with point := q }) := by
  have hap : ∀ {u : Task}, Apart (.callback { c with point := q }) u ∧
      Apart u (.callback { c with point := q }) :=
    fun {u} => ⟨fun i hi => (by cases hi), fun i _ hi => (by cases hi)⟩
  cases h with
  | finds hf hq hn ha =>
    obtain ⟨hrow, hsid⟩ := lookup_of_findByMessageId hf
    refine ⟨hs.congr hn ha, ?_, fun _ hu _ _ => ⟨hu.congr hn ha, hap⟩⟩
    exact (known_write (c := { c with point := q }) hq).mpr ⟨_, hn ▸ hrow, hsid⟩
  | misses hq hm hn ha =>
    refine ⟨hs.congr hn ha, ?_, fun _ hu _ _ => ⟨hu.congr hn ha, hap⟩⟩
    refine (known_past (c := { c with point := q }) hq).mpr fun status hst i hi => ?_
    exact absurd (ha ▸ hi) (hm status hst i)
  | @writes id orgId status hp hst hrow hq hn ha =>
    obtain ⟨n, hn0, hsid⟩ := (known_write hp).mp hc
    rw [update_of_lookup _ hn0] at hn
    have hne : ∀ i, i ≠ id → s'.notifications.lookup i = s.notifications.lookup i := by
      intro i hi
      rw [hn, AList.lookup_insert_ne hi]
    have hid : s'.notifications.lookup id = some (c.report status n) := by
      rw [hn, AList.lookup_insert]
    have hmem := hs.accepted hn0 hsid
    refine ⟨hs.insert hn ha (fun sid hy => ?_) fun hb => ?_, ?_, fun {u} _ hu _ _ => ⟨?_, hap⟩⟩
    · have hy' : n.providerMessageId = some sid := hy
      exact hs.accepted hn0 hy'
    · have hb' : n.providerMessageId = none := hb
      cases hb'.symm.trans hsid
    · refine (known_past (c := { c with point := q }) hq).mpr fun status' hst' i hi => ?_
      cases hst.symm.trans hst'
      cases hs.unique (ha ▸ hi) hmem
      exact ⟨_, hid, hsid, rfl⟩
    · cases u with
      | send t =>
        refine known_send_congr hu (fun i hi => hne i ?_) fun i _ sid => by rw [ha]
        rintro rfl
        obtain ⟨m, hm, hb⟩ := blank_of_known hu hi
        cases hn0.symm.trans hm
        cases hb.symm.trans hsid
      | callback d =>
        rcases callback_cases d with hp' | ⟨i, orgId', hp'⟩ | hp'
        · exact known_lookup hp'
        · obtain ⟨m, hm, hmsid⟩ := (known_write hp').mp hu
          by_cases hi : i = id
          · subst hi
            cases hn0.symm.trans hm
            exact (known_write hp').mpr ⟨_, hid, hmsid⟩
          · exact (known_write hp').mpr ⟨m, (hne i hi).trans hm, hmsid⟩
        · refine (known_past hp').mpr fun status' hst' i hi => ?_
          obtain ⟨m, hm, hmsid, hmst⟩ := (known_past hp').mp hu status' hst' i (ha ▸ hi)
          by_cases hi' : i = id
          · subst hi'
            cases hn0.symm.trans hm
            refine ⟨_, hid, hmsid, ?_⟩
            rcases hrow n hn0 with hsent | hsame
            · exact absurd (hmst.symm.trans hsent) (internalStatus_ne_sent hst')
            · exact hsame.symm.trans hmst
          · exact ⟨m, (hne i hi').trans hm, hmsid, hmst⟩
  | goes hp hq hn ha =>
    refine ⟨hs.congr hn ha, ?_, fun _ hu _ _ => ⟨hu.congr hn ha, hap⟩⟩
    have hset : (Callback.Settled s { c with point := q }) := (known_past hp).mp hc
    exact ((known_past (c := { c with point := q }) hq).mpr hset).congr hn ha

/-- **One step.** -/
theorem keptBy_next {limit : Id → ℕ} {t t' : Task} (hs : Linked s) (ht : Known s t)
    (hx : t.orderly s x = true) (h : next limit s t x = some (s', t')) :
    System.KeptBy Linked Known Apart (fun u => unreported x u = true) s t s' t' := by
  cases t with
  | send t =>
    obtain ⟨⟨s1, q⟩, hn, he⟩ := Option.map_eq_some_iff.mp h
    cases he
    exact keptBy_send hs ht (sendStep_of_next hx hn)
  | callback c =>
    obtain ⟨⟨s1, q⟩, hn, he⟩ := Option.map_eq_some_iff.mp h
    cases he
    exact keptBy_callback hs ht (callbackStep_of_next hx hn)

def Messaging.status (s : Messaging) (id : Id) : Option String :=
  (s.notifications.lookup id).map (·.status)

theorem status_eq_some {status : String} : s.status id = some status ↔
    ∃ n, s.notifications.lookup id = some n ∧ n.status = status := by
  rw [Messaging.status, Option.map_eq_some_iff]

theorem not_blank_of_delivered (hs : Linked s) (h : s.status id = some "delivered") :
    ¬ Blank s id := by
  rintro ⟨n, hn, hb⟩
  obtain ⟨m, hm, hst⟩ := status_eq_some.mp h
  cases hn.symm.trans hm
  exact hs.undelivered hn hb hst

/-- **Delivered is delivered**: no step writes another status. -/
theorem delivered_of_next {limit : Id → ℕ} {t t' : Task} (hs : Linked s) (ht : Known s t)
    (hx : t.orderly s x = true) (h : next limit s t x = some (s', t'))
    (hd : s.status id = some "delivered") : s'.status id = some "delivered" := by
  have hblank := not_blank_of_delivered hs hd
  have hsame : s'.notifications = s.notifications → s'.status id = some "delivered" := by
    intro hn
    rw [Messaging.status, hn]
    exact hd
  have hrow : ∀ {i : Id} {n : Notification}, i ≠ id →
      s'.notifications = s.notifications.insert i n → s'.status id = some "delivered" := by
    intro i n hne hn
    rw [Messaging.status, hn, AList.lookup_insert_ne (Ne.symm hne)]
    exact hd
  cases t with
  | send t =>
    obtain ⟨⟨s1, q⟩, hn, he⟩ := Option.map_eq_some_iff.mp h
    cases he
    cases sendStep_of_next hx hn with
    | stays hq hn ha => exact hsame hn
    | creates htp hq hnew hn ha =>
      refine hrow ?_ hn
      rintro rfl
      rw [Messaging.status, hnew] at hd
      cases hd
    | accepts htp hq hx hf hn ha => exact hsame hn
    | refused htp hw hq hn ha =>
      obtain ⟨⟨n, hn0, hb⟩, -⟩ := (known_undecided htp).mp ht
      rw [update_of_lookup _ hn0] at hn
      refine hrow ?_ hn
      rintro rfl
      exact hblank ⟨n, hn0, hb⟩
    | records htp hw hq hn ha =>
      obtain ⟨⟨n, hn0, hb⟩, -⟩ := (known_taken htp).mp ht
      rw [update_of_lookup _ hn0] at hn
      refine hrow ?_ hn
      rintro rfl
      exact hblank ⟨n, hn0, hb⟩
  | callback c =>
    obtain ⟨⟨s1, q⟩, hn, he⟩ := Option.map_eq_some_iff.mp h
    cases he
    cases callbackStep_of_next hx hn with
    | finds hf hq hn ha => exact hsame hn
    | misses hq hm hn ha => exact hsame hn
    | @writes i orgId status hp hst hrow' hq hn ha =>
      obtain ⟨n, hn0, -⟩ := (known_write hp).mp ht
      rw [update_of_lookup _ hn0] at hn
      by_cases hi : i = id
      · subst hi
        obtain ⟨m, hm, hmst⟩ := status_eq_some.mp hd
        cases hn0.symm.trans hm
        rcases hrow' n hn0 with hsent | hsame'
        · rw [hmst] at hsent
          exact absurd hsent (by decide)
        · rw [Messaging.status, hn, AList.lookup_insert, Option.map_some]
          exact congrArg some (hsame'.symm.trans hmst)
      · exact hrow hi hn
    | goes hp hq hn ha => exact hsame hn

end

/-! ## Runs -/

/-- Nothing has been sent, and no callback has begun. -/
structure Fresh (p : Pool Messaging Task) : Prop where
  notifications : p.shared.notifications = ∅
  accepted : p.shared.accepted = []
  send {t : Send} : .send t ∈ p.tasks → t.point = .start
  callback {c : Callback} : .callback c ∈ p.tasks → c.point = .lookup

section

variable {limit : Id → ℕ} {p p' : Pool Messaging Task}

theorem Fresh.invariant (h : Fresh p) : System.Invariant Linked Known Apart p where
  shared := by
    refine ⟨?_, fun hi => ?_, fun hi => ?_, fun hi => ?_, fun hi => ?_, fun hi => ?_⟩
    · rw [h.accepted]
      exact List.nodup_nil
    all_goals
      first
      | rw [h.accepted] at hi
      | rw [h.notifications, AList.lookup_empty] at hi
      cases hi
  task {i t} hi := by
    have ht := List.mem_of_getElem? hi
    cases t with
    | send t => exact known_outside (by rw [h.send ht]; rfl)
    | callback c => exact known_lookup (h.callback ht)
  pair {i j t u} _ hi _ := by
    have ht := List.mem_of_getElem? hi
    intro id hid
    cases t with
    | send t =>
      have hid' : id ∈ t.point.phase.id? := hid
      rw [h.send ht] at hid'
      cases hid'
    | callback c => cases hid

/-- Without a task nothing happens to the records. -/
theorem world_leaves {s s' : Messaging} {y : Surroundings}
    (h : (messaging limit).world s y = some s') :
    s'.notifications = s.notifications ∧ s'.accepted = s.accepted := by
  cases y with
  | later ms =>
    cases h
    exact ⟨rfl, rfl⟩
  | flushed orgId =>
    cases h
    exact ⟨rfl, rfl⟩

/-- **The invariant of a run.** -/
theorem invariant_of_reaches (h0 : Fresh p)
    (h : System.Reaches (messaging limit) orderly.Meets p p') :
    System.Invariant Linked Known Apart p' :=
  h.invariant h0.invariant (fun _ _ _ _ _ hs ht hx hn => keptBy_next hs ht hx hn)
    fun _ _ _ hs _ hw => ⟨hs.congr (world_leaves hw).1 (world_leaves hw).2,
      fun _ hu => hu.congr (world_leaves hw).1 (world_leaves hw).2⟩

/-- How often the provider has accepted a notification. -/
def Messaging.timesAccepted (s : Messaging) (id : Id) : ℕ := (s.accepted.map Prod.fst).count id

/-- **Delivery and status converge**: no notification is accepted twice; the status of a notification is what
a callback about it has reported; and one that is delivered remains so. -/
theorem converges {limit : Id → ℕ} {p p' : Pool Messaging Task} (h0 : Fresh p)
    (h : System.Reaches (messaging limit) orderly.Meets p p') :
    (∀ id, p'.shared.timesAccepted id ≤ 1) ∧
      (∀ c, Task.callback c ∈ p'.tasks → c.point.past = true →
        ∀ status, internalStatus c.messageStatus = some status →
          ∀ id, (id, some c.messageSid) ∈ p'.shared.accepted →
            p'.shared.status id = some status) ∧
      ∀ p'', System.Reaches (messaging limit) orderly.Meets p' p'' →
        ∀ id, p'.shared.status id = some "delivered" → p''.shared.status id = some "delivered" := by
  have hinv := invariant_of_reaches h0 h
  refine ⟨fun id => List.nodup_iff_count_le_one.mp hinv.shared.once id,
    fun c hc hp status hst id hid => ?_, fun p'' h'' id hd => ?_⟩
  · obtain ⟨i, hi⟩ := List.getElem?_of_mem hc
    obtain ⟨n, hn, -, hnst⟩ := (known_past hp).mp (hinv.task hi) status hst id hid
    exact status_eq_some.mpr ⟨n, hn, hnst⟩
  · have h' : System.Reaches (messaging limit)
        (fun m l => orderly.Meets m l ∧ System.Invariant Linked Known Apart m) p' p'' :=
      h''.imp fun m l hm hl => ⟨hl, invariant_of_reaches h0 (h.trans hm)⟩
    refine h'.keeps (I := fun m => m.shared.status id = some "delivered") hd
      fun m l m' hm hP hs => ?_
    cases l with
    | task i x =>
      obtain ⟨t, s', t', hi, hn, rfl⟩ := System.step_task hs
      exact delivered_of_next hP.2.shared (hP.2.task hi) (hP.1.task hi) hn hm
    | world y =>
      obtain ⟨s', hw, rfl⟩ := System.step_world hs
      rw [Messaging.status, (world_leaves hw).1]
      exact hm

end

/-! ## One text message -/

def hasRead (point : CallbackPoint) : Task :=
  .callback { messageSid := "SM1", messageStatus := "read", point }

/-- A text message about a ticket, and two callbacks about one message of the provider. -/
def oneMessage : Pool Messaging Task where
  shared :=
    { notifications := ∅, jobs := [], usage := ⟨0, fun _ => none⟩, accepted := [] }
  tasks :=
    [.send { orgId := 1, channel := "sms", skipSmsPlanGate := true },
      .callback { messageSid := "SM1", messageStatus := "delivered" },
      hasRead .lookup]

theorem fresh_oneMessage : Fresh oneMessage := by
  refine ⟨rfl, rfl, fun {t} ht => ?_, fun {c} hc => ?_⟩
  · simp only [oneMessage, hasRead, List.mem_cons, Task.send.injEq, reduceCtorEq, List.not_mem_nil,
      or_false] at ht
    rw [ht]
  · simp only [oneMessage, hasRead, List.mem_cons, Task.callback.injEq, reduceCtorEq, List.not_mem_nil,
      or_false, false_or] at hc
    rcases hc with rfl | rfl <;> rfl

/-- A task goes on for `n` steps. -/
def goes (i n : ℕ) : List (Label Move Surroundings) := List.replicate n (.task i .go)

/-- The record and the job of the message, up to the call of the provider. -/
def handsOver : List (Label Move Surroundings) :=
  goes 0 1 ++ [.task 0 (.created 5)] ++ goes 0 3

/-- Refused at first, accepted at the second attempt, and then delivered. -/
theorem converges_oneMessage : ∃ p' : Pool Messaging Task, p'.shared.timesAccepted 5 ≤ 1 ∧
    p'.shared.accepted = [(5, some "SM1")] ∧ p'.shared.status 5 = some "delivered" := by
  obtain ⟨p', hreach, hp⟩ := System.exists_meets (S := messaging fun _ => 0) orderly oneMessage
    (handsOver ++ [.task 0 (.refuses "Twilio error")] ++ goes 0 5 ++
      [.task 0 (.accepts (some "SM1"))] ++ goes 0 2 ++ goes 1 2 ++ goes 0 1 ++ goes 2 2)
    (fun p => decide (p.shared.accepted = [(5, some "SM1")]) &&
      decide (p.tasks[2]? = some (hasRead (.log 1))))
    (by decide +kernel)
  obtain ⟨hacc, htask⟩ := Bool.and_eq_true_iff.mp hp
  obtain ⟨honce, hset, -⟩ := converges fresh_oneMessage hreach
  refine ⟨p', honce 5, of_decide_eq_true hacc,
    hset _ (List.mem_of_getElem? (of_decide_eq_true htask)) rfl _ (by decide) 5 ?_⟩
  rw [of_decide_eq_true hacc]
  exact List.mem_singleton_self _

/-- **Not every run converges**: the record of a message that is accepted cannot be read, and the message
is handed over again. -/
theorem exists_accepted_twice : ¬ ∀ (limit : Id → ℕ) (p p' : Pool Messaging Task), Fresh p →
    System.Reaches (messaging limit) (fun _ _ => True) p p' →
      ∀ id, p'.shared.timesAccepted id ≤ 1 := by
  intro h
  obtain ⟨p', hreach, hp⟩ := System.exists_reaches (S := messaging fun _ => 0)
    (P := fun _ _ => True) (fun _ _ => true) (fun _ _ _ => trivial) oneMessage
    (handsOver ++ [.task 0 (.accepts (some "SM1")), .task 0 (.fails false)] ++ goes 0 2 ++
      [.task 0 (.accepts (some "SM2"))])
    (fun p => p.shared.timesAccepted 5 == 2) (by decide +kernel)
  have hle := h _ _ p' fresh_oneMessage hreach 5
  rw [eq_of_beq hp] at hle
  exact absurd hle (by decide)

end PatronLoyalty.Delivery
