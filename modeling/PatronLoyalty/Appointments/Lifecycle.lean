import PatronLoyalty.Appointments.Specs
import PatronLoyalty.Txn.Events

/-!
# Status changes of appointments

A staff update and a public cancellation read the appointment in one transaction, judge its status, and
write by the identifier in another. In between the status may have changed; and an update to the status
the appointment already has is valid and emits its loyalty event once more.

Headline: **`reach_statusRules`**. As long as the appointment of a request has one status at all of its
steps up to its write, and no update names the empty string or an outcome the appointment already has,
every committed change is in the table of transitions and every request emits one event for each
appointment it moves to an outcome.
-/

namespace PatronLoyalty.Appointments

open Txn Relation
open Txn.Rel (Wrote Replaced Pushed)
open Loyalty (Id Err truthy)

/-! ## The rules -/

def statusAt (id : Id) (s : Db) : Option AppointmentStatus := (s.get .appointment id).map (·.status)

/-- An outcome that the loyalty programme hears of. -/
def AppointmentStatus.outcome (status : AppointmentStatus) : Prop :=
  status = .completed ∨ status = .noShow

instance (status : AppointmentStatus) : Decidable status.outcome :=
  inferInstanceAs (Decidable (_ ∨ _))

def tells (status : AppointmentStatus) (id : Id) : Line → Bool
  | .emit (.appointmentCompleted _ appointmentId _ _ _ _) =>
    status == .completed && appointmentId == id
  | .emit (.appointmentNoShow _ appointmentId _ _ _ _) => status == .noShow && appointmentId == id
  | _ => false

def movesTo (status : AppointmentStatus) (id : Id) : Line → Bool
  | .commit a b => (statusAt id a).any (· != status) && statusAt id b == some status
  | _ => false

/-- **The rules of status changes**, along the history of a request. -/
structure StatusRules (r : Request) (h : List Line) : Prop where
  /-- A committed change of status is in the table of transitions. -/
  allowed {a b : Db} {id : Id} {x y : Appointment} : .commit a b ∈ h →
    a.get .appointment id = some x → b.get .appointment id = some y → x.status ≠ y.status →
    y.status ∈ appointmentStatusTransitions x.status
  /-- A public cancellation replaces `pending` or `confirmed`. -/
  publicly {a b : Db} {id cancelled : Id} {x y : Appointment} : r = .cancelPublic cancelled →
    .commit a b ∈ h → a.get .appointment id = some x → b.get .appointment id = some y →
    x.status ≠ y.status → y.status = .cancelled ∧ (x.status = .pending ∨ x.status = .confirmed)
  /-- A request emits no more events than it makes moves, and as many once it is answered. -/
  told {status : AppointmentStatus} (id : Id) : status.outcome →
    h.countP (tells status id) ≤ h.countP (movesTo status id) ∧
      ((∃ a, .answer a ∈ h) → h.countP (tells status id) = h.countP (movesTo status id))

/-! ## The condition -/

/-- The request has begun and not yet written. -/
def Unwritten (h : List Line) : Prop := h ≠ [] ∧ h.length ≤ 2

instance (h : List Line) : Decidable (Unwritten h) := inferInstanceAs (Decidable (_ ∧ _))

/-- The appointment of a status request has the status `st`; an update names another one, if it names
an outcome, and never the empty string. -/
def Request.Fits (st : Option AppointmentStatus) (s : Db) : Request → Prop
  | .update _ id data => ∀ text ∈ data.status, text ≠ "" ∧ statusAt id s = st ∧
      ∀ n ∈ statusOfText text, n.outcome → st ≠ some n
  | .cancelPublic id => statusAt id s = st
  | _ => True

instance (st : Option AppointmentStatus) (s : Db) : (r : Request) → Decidable (r.Fits st s)
  | .update _ _ data => inferInstanceAs (Decidable (∀ text ∈ data.status, _))
  | .cancelPublic _ => inferInstanceAs (Decidable (_ = _))
  | .book _ | .delete .. | .getAvailableSlots .. => .isTrue trivial

/-- **Steady**: up to its write, request `i` finds its appointment in the status `st i`. -/
def Steady (requests : List Request) (st : ℕ → Option AppointmentStatus) (c : Run) (i : ℕ) : Prop :=
  ∀ r, requests[i]? = some r → Unwritten (c.histOf i) → r.Fits (st i) c.db

/-- The condition, computed. -/
def steady (requests : List Request) (st : ℕ → Option AppointmentStatus) (c : Run) (i : ℕ) : Bool :=
  requests[i]?.all fun r => decide (Unwritten (c.histOf i) → r.Fits (st i) c.db)

theorem steady_of {st : ℕ → Option AppointmentStatus} {i : ℕ}
    (h : steady requests st c i = true) : Steady requests st c i := fun r hr hu => by
  unfold steady at h
  rw [hr, Option.all_some] at h
  exact of_decide_eq_true h hu

/-! ## The history of a status request -/

/-- Nothing written, nothing emitted, no result. -/
structure Quiet (h : List Line) : Prop where
  emits (v : Ev) : .emit v ∉ h
  commits (a b : Db) : .commit a b ∈ h → a = b
  answers (r : Answer) : .answer (.ok r) ∉ h

/-- One row replaced, by `V` of the old row, the new one and the events that follow. -/
def WroteOnce (id : Id) (V : Appointment → Appointment → List Ev → Prop) (h : List Line) : Prop :=
  ∃ s a old new vs tail, h = .start :: .commit s s :: .commit a (a.set .appointment id new) :: tail ∧
    a.get .appointment id = some old ∧ V old new vs ∧
    tail <+: vs.map .emit ++ [.answer (.ok (.appointment id new))]

/-- What a status request may do: nothing, or one row by `V`. -/
abbrev judging (cond : List Line → Db → Prop) (id : Id)
    (V : Appointment → Appointment → List Ev → Prop) :
    Protocol Db Err Ev Answer (effects fun _ => true) :=
  .ofHistory _ cond fun h => Quiet h ∨ WroteOnce id V h

variable {h : List Line}

theorem Quiet.snoc {x : Line} (hq : Quiet h) (he : ∀ v, x ≠ .emit v)
    (hc : ∀ a b, x = .commit a b → a = b) (ha : ∀ r, x ≠ .answer (.ok r)) : Quiet (h ++ [x]) where
  emits v hm := by
    rcases mem_snoc.mp hm with hm | hm
    · exact hq.emits v hm
    · exact he v hm.symm
  commits a b hm := by
    rcases mem_snoc.mp hm with hm | hm
    · exact hq.commits a b hm
    · exact hc a b hm.symm
  answers r hm := by
    rcases mem_snoc.mp hm with hm | hm
    · exact hq.answers r hm
    · exact ha r hm.symm

theorem quiet_nil : Quiet [] where
  emits _ h := by simp at h
  commits _ _ h := by simp at h
  answers _ h := by simp at h

theorem quiet_start : Quiet [.start] :=
  quiet_nil.snoc (by simp) (by simp) (by simp)

theorem Quiet.rollback (hq : Quiet h) (e : Err) : Quiet (h ++ [.rollback e]) :=
  hq.snoc (by simp) (by simp) (by simp)

theorem Quiet.refused (hq : Quiet h) (e : Err) :
    Quiet (h ++ [.answer (.error e)]) :=
  hq.snoc (by simp) (by simp) (by simp)

theorem Quiet.read (hq : Quiet h) (s : Db) : Quiet (h ++ [.commit s s]) :=
  hq.snoc (by simp) (fun _ _ he => by cases he; rfl) (by simp)

theorem quiet_read (s : Db) : Quiet [.start, .commit s s] := quiet_start.read s

section

variable {cond : List Line → Db → Prop} {id : Id} {V : Appointment → Appointment → List Ev → Prop}

/-- **The transaction that reads**: what it has found is what the condition says. -/
theorem wp_look {f : Db → Option Appointment} {g : Option Appointment → ACall Answer}
    {F : Option Appointment → Prop} (hF : ∀ s, cond [.start] s → F (f s))
    (hg : ∀ o s0 s, F o → Call.wp (judging cond id V) (Answers (judging cond id V)) (g o)
      [.start, .commit s0 s0] s) :
    Call.wp (judging cond id V) (Answers (judging cond id V))
      ((withTenant (Tx.read f)).bind g) [.start] s := by
  refine Call.wp_bind (Call.wp_mono (fun r h' s' hr => ?_) (Call.wp_phaseTx
    (K := fun h _ => Quiet h) (L := fun o h _ => F o ∧ ∃ s0, h = [.start, .commit s0 s0])
    (R := fun o a c => F o ∧ a = c) (fun _ _ hq => .inl hq) (fun o h _ hl => ?_)
    (fun _ _ _ _ hq => hq) (fun _ e _ hq => hq.rollback e) quiet_start (fun s' _ => ?_) ?_))
  · cases r with
    | error e => exact fun _ _ => .inl (hr.refused e)
    | ok o =>
      obtain ⟨ho, s0, rfl⟩ := hr
      exact hg o s0 s' ho
  · obtain ⟨-, s0, rfl⟩ := hl
    exact .inl (quiet_read s0)
  · exact did_start.wp_read fun s'' _ hc hd => hd.mono fun _ _ hac => ⟨hF s'' hc, hac⟩
  · rintro o a c - - ⟨ho, rfl⟩
    exact ⟨.refl, ho, a, rfl⟩

/-- **The transaction that writes**, after one that has read: the events and the answer follow. -/
theorem wp_write {t : ATx Appointment} {W : Appointment → Appointment → Prop} {s0 : Db}
    (vs : List Ev)
    (ht : Triple (fun _ => true) Err.recordNotFound (effects fun _ => true) Eq t fun new a c =>
      ∃ old, W old new ∧ SamePlace old new ∧ Wrote (k := Kind.appointment) (fun _ => true) id (some old) new a c)
    (hV : ∀ a old new, cond [.start, .commit s0 s0] a → a.get .appointment id = some old →
      W old new → V old new vs) :
    Call.wp (judging cond id V) (Answers (judging cond id V))
      ((withTenant t).bind fun new => (Call.fireAll vs).bind fun _ => .pure (.appointment id new))
      [.start, .commit s0 s0] s := by
  refine Call.wp_bind (Call.wp_mono (fun r h' s' hr => ?_) (Call.wp_phaseTx
    (K := fun h _ => Quiet h) (L := fun new h _ => ∃ a old,
      h = [.start, .commit s0 s0, .commit a (a.set .appointment id new)] ∧
        a.get .appointment id = some old ∧ V old new vs)
    (R := fun new a c => ∃ old, W old new ∧ SamePlace old new ∧
      Wrote (k := Kind.appointment) (fun _ => true) id (some old) new a c)
    (fun _ _ hq => .inl hq) (fun new h _ hl => ?_) (fun _ _ _ _ hq => hq)
    (fun _ e _ hq => hq.rollback e) (quiet_read s0) (fun s' _ => ht.wp_free _ s') ?_))
  · cases r with
    | error e => exact fun _ _ => .inl (hr.refused e)
    | ok new =>
      obtain ⟨a, old, rfl, ho, hv⟩ := hr
      refine Call.wp_bind (Call.wp_fireAll (fun ws s' hws => ?_) fun s' s'' _ => ?_)
      · exact Or.inr ⟨s0, a, old, new, vs, _, rfl, ho, hv,
          (hws.map _).trans (List.prefix_append _ _)⟩
      · refine Or.inr ⟨s0, a, old, new, vs, _, ?_, ho, hv, List.prefix_refl _⟩
        simp
  · obtain ⟨a, old, rfl, ho, hv⟩ := hl
    exact .inr ⟨s0, a, old, new, vs, [], rfl, ho, hv, List.nil_prefix⟩
  · rintro new a c hc - ⟨old, hold, hp, hw⟩
    have hget := hw.2.get_old
    refine ⟨.single (.rewrote hw hp), a, old, ?_, hget, hV a old new hc hget hold⟩
    rw [hw.2.2.2]
    rfl

end

/-! ## The rules, by history -/

/-- What `V` must be for the rules to hold. -/
structure Judged (r : Request) (id : Id) (V : Appointment → Appointment → List Ev → Prop) :
    Prop where
  allowed {old new : Appointment} {vs : List Ev} : V old new vs → old.status ≠ new.status →
    new.status ∈ appointmentStatusTransitions old.status
  publicly {old new : Appointment} {vs : List Ev} {cancelled : Id} : r = .cancelPublic cancelled →
    V old new vs → new.status = .cancelled ∧ (old.status = .pending ∨ old.status = .confirmed)
  told {old new : Appointment} {vs : List Ev} {status : AppointmentStatus} (id' : Id) :
    V old new vs → status.outcome → (vs.map (Entry.emit : Ev → Line)).countP (tells status id') =
      if id' = id ∧ old.status ≠ status ∧ new.status = status then 1 else 0

theorem movesTo_self (status : AppointmentStatus) (id : Id) (s : Db) :
    movesTo status id (.commit s s) = false := by
  cases hs : statusAt id s with
  | none => simp [movesTo, hs]
  | some st => simp [movesTo, hs]

variable {id id' : Id} {a : Db}

theorem movesTo_set {status : AppointmentStatus} {old new : Appointment}
    (ho : a.get .appointment id = some old) :
    movesTo status id' (.commit a (a.set .appointment id new)) =
      decide (id' = id ∧ old.status ≠ status ∧ new.status = status) := by
  by_cases hid : id' = id
  · subst hid
    simp [movesTo, statusAt, ho, bne, beq_eq_decide]
  · have hset : (a.set .appointment id new).get .appointment id' = a.get .appointment id' :=
      Rel.get_set_ne (by simp [hid])
    cases hs : statusAt id' a with
    | none => simp [movesTo, hs, hid]
    | some st =>
      unfold statusAt at hs
      simp [movesTo, statusAt, hset, hs, hid]

theorem tells_prefix {vs : List Ev} {r : Except Err Answer} {tail : List Line}
    (ht : tail <+: vs.map .emit ++ [.answer r]) (status : AppointmentStatus) (id : Id) :
    tail.countP (tells status id) ≤ (vs.map (Entry.emit : Ev → Line)).countP (tells status id) ∧
      ((∃ a, .answer a ∈ tail) →
        tail.countP (tells status id) =
          (vs.map (Entry.emit : Ev → Line)).countP (tells status id)) := by
  rcases List.prefix_concat_iff.mp ht with rfl | hp
  · simp [List.countP_append, tells]
  · refine ⟨hp.countP_le, fun ⟨a, ha⟩ => ?_⟩
    have := hp.subset ha
    simp at this

theorem statusRules_of_still (he : ∀ v, .emit v ∉ h)
    (hs : ∀ a b, .commit a b ∈ h → ∀ id x, a.get .appointment id = some x →
      ∃ y, b.get .appointment id = some y ∧ y.status = x.status)
    (r : Request) : StatusRules r h := by
  have hsame : ∀ {a b : Db} {id : Id} {x y : Appointment}, .commit a b ∈ h →
      a.get .appointment id = some x → b.get .appointment id = some y → x.status = y.status := by
    intro a b id x y hc hx hy
    obtain ⟨y', hy', hxy⟩ := hs a b hc id x hx
    rw [hy] at hy'
    cases hy'
    exact hxy.symm
  refine ⟨fun hc hx hy hne => absurd (hsame hc hx hy) hne,
    fun _ hc hx hy hne => absurd (hsame hc hx hy) hne, fun {status} id _ => ?_⟩
  have htells : h.countP (tells status id) = 0 := by
    refine List.countP_eq_zero.mpr fun x hx => ?_
    cases x with
    | emit v => exact absurd hx (he v)
    | start | commit | rollback | answer => simp [tells]
  have hmoves : h.countP (movesTo status id) = 0 := by
    refine List.countP_eq_zero.mpr fun x hx => ?_
    cases x with
    | commit a b =>
      cases ha : a.get .appointment id with
      | none => simp [movesTo, statusAt, ha]
      | some x =>
        obtain ⟨y, hy, hxy⟩ := hs a b hx id x ha
        simp [movesTo, statusAt, ha, hy, hxy]
    | start | emit | rollback | answer => simp [movesTo]
  simp [htells, hmoves]

theorem Quiet.statusRules (hq : Quiet h) (r : Request) : StatusRules r h :=
  statusRules_of_still hq.emits (fun a b hc _ x hx => ⟨x, hq.commits a b hc ▸ hx, rfl⟩) r

variable {x : Appointment}

/-- The commits of such a history. -/
theorem WroteOnce.change {V : Appointment → Appointment → List Ev → Prop} (hw : WroteOnce id V h)
    {b : Db} {y : Appointment} (hc : .commit a b ∈ h) (hx : a.get .appointment id' = some x)
    (hy : b.get .appointment id' = some y) (hne : x.status ≠ y.status) : ∃ vs, V x y vs := by
  obtain ⟨s, a', old, new, vs, tail, rfl, ho, hv, htail⟩ := hw
  have htl : .commit a b ∉ tail := fun hm => by
    have := htail.subset hm
    simp at this
  simp only [List.mem_cons, reduceCtorEq, false_or, Entry.commit.injEq, htl, or_false] at hc
  rcases hc with ⟨rfl, rfl⟩ | ⟨rfl, rfl⟩
  · rw [hx] at hy
    cases hy
    exact absurd rfl hne
  · by_cases hid : id' = id
    · subst hid
      rw [ho] at hx
      rw [Rel.get_set_self] at hy
      cases hx
      cases hy
      exact ⟨vs, hv⟩
    · rw [Rel.get_set_ne (by simp [hid]), hx] at hy
      cases hy
      exact absurd rfl hne

variable {r : Request}

/-- **One row written**, as `V` says. -/
theorem WroteOnce.statusRules {V : Appointment → Appointment → List Ev → Prop}
    (hw : WroteOnce id V h) (hV : Judged r id V) : StatusRules r h where
  allowed hc hx hy hne := by
    obtain ⟨vs, hv⟩ := hw.change hc hx hy hne
    exact hV.allowed hv hne
  publicly hr hc hx hy hne := by
    obtain ⟨vs, hv⟩ := hw.change hc hx hy hne
    exact hV.publicly hr hv
  told {status} id' hout := by
    obtain ⟨s, a, old, new, vs, tail, rfl, ho, hv, htail⟩ := hw
    have hmoves : tail.countP (movesTo status id') = 0 := by
      refine List.countP_eq_zero.mpr fun x hx => ?_
      have := htail.subset hx
      simp only [List.mem_append, List.mem_map, List.mem_singleton] at this
      rcases this with ⟨v, -, rfl⟩ | rfl <;> simp [movesTo]
    have htold := hV.told id' hv hout
    have hsent := tells_prefix htail status id'
    simp only [List.countP_cons, List.mem_cons, reduceCtorEq, false_or, movesTo_self,
      movesTo_set ho, hmoves, tells, decide_eq_true_eq, Bool.false_eq_true, if_false, zero_add,
      add_zero]
    rw [← htold]
    exact hsent

/-! ## The two requests -/

/-- An update, from a status read as `st` and written over `st`. -/
def Updates (st : Option AppointmentStatus) (orgId id : Id) (data : UpdateAppointment)
    (old new : Appointment) (vs : List Ev) : Prop :=
  new = data.apply old ∧ ∃ x n, normalizedStatus x data = .ok n ∧ vs = statusEvents orgId id x n ∧
    ∀ text ∈ data.status, text ≠ "" ∧ some x.status = st ∧ some old.status = st ∧
      ∀ n ∈ statusOfText text, n.outcome → st ≠ some n

/-- A public cancellation, from a status read as `st` and written over `st`. -/
def Cancels (st : Option AppointmentStatus) (old new : Appointment) (vs : List Ev) : Prop :=
  new = { old with status := .cancelled } ∧ vs = [] ∧ some old.status = st ∧
    (st = some .pending ∨ st = some .confirmed)

theorem validateStatusTransition_ok {current : AppointmentStatus} {text : String}
    {n : AppointmentStatus} (h : validateStatusTransition current text = .ok n) :
    statusOfText text = some n ∧ (current = n ∨ n ∈ appointmentStatusTransitions current) := by
  unfold validateStatusTransition at h
  cases hs : statusOfText text with
  | none =>
    simp only [hs] at h
    split at h <;> cases h
  | some next =>
    simp only [hs] at h
    split at h
    · cases h
      exact ⟨rfl, .inl ‹_›⟩
    · split at h
      · cases h
        exact ⟨rfl, .inr (by simpa using ‹(appointmentStatusTransitions current).contains _ = true›)⟩
      · cases h

theorem countP_statusEvents {orgId : Id} {n : Option AppointmentStatus} {status : AppointmentStatus}
    (hout : status.outcome) :
    ((statusEvents orgId id x n).map (Entry.emit : Ev → Line)).countP (tells status id') =
      if id' = id ∧ n = some status then 1 else 0 := by
  have hid : (id == id') = decide (id' = id) := by simp [beq_eq_decide, eq_comm]
  rcases hout with rfl | rfl <;> rcases n with - | n
  case inl.none | inr.none => simp [statusEvents]
  case inl.some | inr.some => cases n <;> simp [statusEvents, tells, List.countP_cons, hid]

theorem Updates.named {st : Option AppointmentStatus} {orgId : Id} {data : UpdateAppointment}
    {old new : Appointment} {vs : List Ev} (h : Updates st orgId id data old new vs) {text : String}
    (ht : data.status = some text) : ∃ x n, vs = statusEvents orgId id x (some n) ∧
      new.status = n ∧ (old.status = n ∨ n ∈ appointmentStatusTransitions old.status) ∧
      (n.outcome → old.status ≠ n) := by
  obtain ⟨rfl, x, n, hn, rfl, hfits⟩ := h
  obtain ⟨hne, hx, hold, hout⟩ := hfits text ht
  have htruthy : truthy data.status = some text := by
    rw [ht]
    simp [truthy, hne]
  unfold normalizedStatus at hn
  rw [htruthy] at hn
  cases hv : validateStatusTransition x.status text with
  | error e => simp [hv, Except.map] at hn
  | ok next =>
    simp only [hv, Except.map, Except.ok.injEq] at hn
    obtain ⟨htext, hallowed⟩ := validateStatusTransition_ok hv
    have hsame : x.status = old.status := by
      rw [← hold] at hx
      exact Option.some.inj hx
    refine ⟨x, next, by rw [hn], ?_, hsame ▸ hallowed, fun ho hne' => ?_⟩
    · simp [UpdateAppointment.apply, ht, htext]
    · exact hout next htext ho (by rw [← hold, hne'])

theorem judged_updates (st : Option AppointmentStatus) (orgId id : Id) (data : UpdateAppointment) :
    Judged (.update orgId id data) id (Updates st orgId id data) where
  allowed {old new vs} hv hne := by
    cases ht : data.status with
    | none =>
      obtain ⟨rfl, -⟩ := hv
      simp [UpdateAppointment.apply, ht] at hne
    | some text =>
      obtain ⟨x, n, -, rfl, hold, -⟩ := hv.named ht
      exact hold.resolve_left hne
  publicly hr := by cases hr
  told {old new vs status} id' hv hout := by
    cases ht : data.status with
    | none =>
      obtain ⟨rfl, x, n, hn, rfl, -⟩ := hv
      have hnone : normalizedStatus x data = .ok none := by simp [normalizedStatus, ht, truthy]
      cases hnone.symm.trans hn
      have hsame : (data.apply old).status = old.status := by simp [UpdateAppointment.apply, ht]
      rw [countP_statusEvents hout, hsame]
      simp
    | some text =>
      obtain ⟨x, n, rfl, rfl, -, hne⟩ := hv.named ht
      rw [countP_statusEvents hout]
      by_cases hn : new.status = status
      · subst hn
        simp [hne hout]
      · simp [hn]

theorem judged_cancels (st : Option AppointmentStatus) (id : Id) :
    Judged (.cancelPublic id) id (Cancels st) where
  allowed {old new vs} hv hne := by
    obtain ⟨rfl, -, rfl, h⟩ := hv
    rcases h with h | h <;> rw [Option.some.inj h] <;> simp [appointmentStatusTransitions]
  publicly _ hv := by
    obtain ⟨rfl, -, rfl, h⟩ := hv
    exact ⟨rfl, by simpa using h⟩
  told {old new vs status} id' hv hout := by
    obtain ⟨rfl, rfl, -⟩ := hv
    rcases hout with rfl | rfl <;> simp

def fitting (r : Request) (st : Option AppointmentStatus) (h : List Line) (s : Db) : Prop :=
  Unwritten h → r.Fits st s

theorem safe_update (E : Environment) (st : Option AppointmentStatus) (orgId id : Id)
    (data : UpdateAppointment) (s : Db) :
    Safe (judging (fitting (.update orgId id data) st) id (Updates st orgId id data))
      (Request.run E (.update orgId id data)) s := by
  refine ⟨.inl quiet_nil, fun s' _ _ => ⟨.inl quiet_start, ?_⟩⟩
  simp only [Request.run, lifecycleUpdate, getById, findById, Call.bind_eq, Call.bind_assoc]
  refine wp_look (F := fun o => ∀ x, o = some x → ∀ text ∈ data.status, text ≠ "" ∧
    some x.status = st ∧ ∀ n ∈ statusOfText text, n.outcome → st ≠ some n)
    (fun s hs x hx text ht => ?_) fun o s0 s ho => ?_
  · obtain ⟨hne, hst, hout⟩ := hs ⟨by simp, by simp⟩ text ht
    refine ⟨hne, ?_, hout⟩
    rw [← hst, statusAt, (Option.filter_eq_some_iff.mp hx).1, Option.map_some]
  · cases o with
    | none => exact fun _ _ => Or.inl ((quiet_read s0).refused _)
    | some x =>
      change Call.wp _ _ ((Call.ofExcept (normalizedStatus x data)).bind fun n => _) _ _
      cases hn : normalizedStatus x data with
      | error e => exact fun _ _ => Or.inl ((quiet_read s0).refused _)
      | ok n =>
        refine wp_write (W := fun old new => new = data.apply old) (statusEvents orgId id x n) ?_
          fun a old new hc hold hw => ?_
        · refine triple_updateTx.post ?_
          rintro new a c ⟨old, m, rfl, -, hl, rfl, hw⟩
          exact ⟨old, rfl, ⟨hl, rfl, rfl, rfl, rfl⟩, hw⟩
        · refine ⟨hw, x, n, hn, rfl, fun text ht => ?_⟩
          obtain ⟨hne, hst, hout⟩ := ho x rfl text ht
          obtain ⟨-, hold', -⟩ := hc ⟨by simp, by simp⟩ text ht
          refine ⟨hne, hst, ?_, hout⟩
          rw [← hold', statusAt, hold, Option.map_some]

theorem safe_cancelPublic (E : Environment) (st : Option AppointmentStatus) (id : Id) (s : Db) :
    Safe (judging (fitting (.cancelPublic id) st) id (Cancels st))
      (Request.run E (.cancelPublic id)) s := by
  refine ⟨.inl quiet_nil, fun s' _ _ => ⟨.inl quiet_start, ?_⟩⟩
  simp only [Request.run, cancelPublic, findById, Call.bind_eq, Call.bind_assoc]
  refine wp_look (F := fun o => ∀ x, o = some x → some x.status = st) (fun s hs x hx => ?_)
    fun o s0 s ho => ?_
  · rw [← hs ⟨by simp, by simp⟩, statusAt, (Option.filter_eq_some_iff.mp hx).1, Option.map_some]
  · cases o with
    | none => exact fun _ _ => Or.inl ((quiet_read s0).refused _)
    | some x =>
      dsimp only
      split
      · rename_i hx
        refine wp_write (W := fun old new => new = { old with status := .cancelled }) [] ?_
          fun a old new hc hold hw => ⟨hw, rfl, ?_, ?_⟩
        · refine triple_updateAppointment.post ?_
          rintro new a c ⟨old, m, rfl, -, hl, rfl, hw⟩
          exact ⟨old, rfl, ⟨hl, rfl, rfl, rfl, rfl⟩, hw⟩
        · rw [← hc ⟨by simp, by simp⟩, statusAt, hold, Option.map_some]
        · rw [← ho x rfl]
          exact hx.imp (congrArg some) (congrArg some)
      · exact fun _ _ => Or.inl ((quiet_read s0).refused _)

/-! ## The other requests -/

theorem Request.Does.status {C : DbWrite → Bool} {b : Db} (hd : r.Does E C h a b)
    (hr : r.restates = false) (hx : a.get .appointment id = some x) :
    ∃ y, b.get .appointment id = some y ∧ y.status = x.status := by
  cases hd with
  | read he => exact ⟨x, he ▸ hx, rfl⟩
  | booked hb =>
    obtain ⟨m, ham, hw⟩ := hb.books.wrote
    rw [← aside_get ham (k := .appointment) (by simp)] at hx
    rcases hw.row hx with ⟨-, ho, -⟩ | hy
    · cases ho
    · exact ⟨x, hy, rfl⟩
  | rewrote hw _ hs =>
    rcases hw.row hx with ⟨-, ho, hy⟩ | hy
    · cases ho
      exact ⟨_, hy, hs hr⟩
    · exact ⟨x, hy, rfl⟩

section

variable {V : Ev → Prop}

theorem emits_query {α β : Type} {t : ATx α} {f : α → ACall β} (hf : ∀ a, (f a).Emits V) :
    ((withTenant t).bind f).Emits V := .bind (.withTx t) hf

theorem emits_getBranch (branchId : Id) : (getBranch branchId).Emits V :=
  emits_query fun o => by cases o <;> trivial

theorem emits_getBookableService (orgId serviceId : Id) :
    (getBookableService orgId serviceId).Emits V := emits_query fun o => by cases o <;> trivial

theorem emits_getBranchService (orgId branchId serviceId : Id) :
    (getBranchService orgId branchId serviceId).Emits V := by
  refine emits_query fun o => ?_
  cases o with
  | none => trivial
  | some branchService =>
    dsimp only
    split <;> trivial

theorem emits_getSubService (orgId serviceId : Id) (subServiceId : Option Id) :
    (getSubService orgId serviceId subServiceId).Emits V := by
  cases subServiceId with
  | none => trivial
  | some id => exact emits_query fun o => by cases o <;> trivial

theorem emits_requireText (value : Option String) (message : String) :
    (requireText value message).Emits V := by
  unfold requireText
  split <;> trivial

theorem emits_requireInstant (scheduledAt : Option Instant) : (requireInstant scheduledAt).Emits V := by
  cases scheduledAt <;> trivial

theorem emits_requireDate (date : Option LocalDate) : (requireDate date).Emits V := by
  cases date <;> trivial

theorem emits_assertAppointmentSlotWithinWorkingHours (orgId branchId : Id) (zone : Zone)
    (scheduledAt : Instant) (durationMinutes : ℤ) :
    (assertAppointmentSlotWithinWorkingHours orgId branchId zone scheduledAt
      durationMinutes).Emits V := by
  refine emits_query fun window => ?_
  split <;> trivial

theorem emits_book (E : Environment) (data : AppointmentBookingInput) : (book E data).Emits V := by
  refine .bind (emits_getBranch _) fun branch =>
    .bind (emits_getBookableService _ _) fun service =>
    .bind (emits_getBranchService _ _ _) fun branchService =>
    .bind (emits_requireText _ _) fun email =>
    .bind (emits_requireText _ _) fun phone =>
    .bind (emits_getSubService _ _ _) fun subService =>
    .bind (emits_requireInstant _) fun scheduledAt =>
    .bind .input fun now =>
    .bind (.ofExcept _) fun _ =>
    .bind (emits_assertAppointmentSlotWithinWorkingHours _ _ _ _ _) fun _ => ?_
  dsimp only
  split
  · trivial
  · exact .withTx _

theorem emits_getAvailableSlots (E : Environment) (branchId serviceId : Id)
    (date : Option LocalDate) (subServiceId : Option Id) :
    (getAvailableSlots E branchId serviceId date subServiceId).Emits V := by
  refine .bind (emits_getBranch _) fun branch =>
    .bind (emits_getBookableService _ _) fun service =>
    .bind (emits_getBranchService _ _ _) fun branchService =>
    .bind (emits_getSubService _ _ _) fun subService =>
    .bind (emits_requireDate _) fun localDate =>
    .bind .input fun searchedAt =>
    .bind (.ofExcept _) fun _ => emits_query fun hours => ?_
  cases hours with
  | none => trivial
  | some hours => exact emits_query fun _ => .bind .input fun _ => trivial

theorem emits_run (E : Environment) {r : Request} (hr : r.restates = false) :
    (r.run E).Emits V := by
  cases r with
  | book data => exact .bind (emits_book E data) fun _ => trivial
  | update | cancelPublic => cases hr
  | delete orgId id =>
    refine .bind (.bind (emits_query fun o => ?_) fun _ =>
      emits_query fun _ => trivial) fun _ => trivial
    cases o <;> trivial
  | getAvailableSlots branchId serviceId date subServiceId =>
    exact .bind (emits_getAvailableSlots E branchId serviceId date subServiceId)
      fun _ => trivial

end

/-! ## Runs -/

def Request.protocol (E : Environment) (st : Option AppointmentStatus) :
    Request → Protocol Db Err Ev Answer (effects fun _ => true)
  | .update orgId id data =>
    judging (fitting (.update orgId id data) st) id (Updates st orgId id data)
  | .cancelPublic id => judging (fitting (.cancelPublic id) st) id (Cancels st)
  | r => .describing _ fun h a b => r.Does E (fun _ => true) h a b

theorem safe_run (E : Environment) (st : Option AppointmentStatus) (r : Request) (s : Db) :
    Safe (r.protocol E st) (r.run E) s := by
  have other : Safe (Protocol.describing (effects fun _ => true)
      fun h a b => r.Does E (fun _ => true) h a b) (r.run E) s := by
    have := (describes_run (C := fun _ => true) (e := Err.recordNotFound) E r).safe s
    rwa [Call.guard_true] at this
  cases r with
  | update orgId id data => exact safe_update E st orgId id data s
  | cancelPublic id => exact safe_cancelPublic E st id s
  | book | delete | getAvailableSlots => exact other

theorem statusRules_of_keeps {st : Option AppointmentStatus} (hk : (r.protocol E st).keeps h s)
    (he : r.restates = false → ∀ v, .emit v ∉ h) : StatusRules r h := by
  cases r with
  | update orgId id data =>
    exact hk.elim (·.statusRules _) (·.statusRules (judged_updates st orgId id data))
  | cancelPublic id => exact hk.elim (·.statusRules _) (·.statusRules (judged_cancels st id))
  | book | delete | getAvailableSlots =>
    exact statusRules_of_still (he rfl) (fun a b hc _ _ hx => (hk.1.mem hc).elim fun _ hd =>
      hd.status rfl hx) _

variable {E : Environment} {s : Db} {requests : List Request} {c : Run}

/-- **Status changes follow the table**, as long as every status request finds its appointment in one
status up to its write. -/
theorem reach_statusRules {st : ℕ → Option AppointmentStatus}
    (h : Reach (Steady requests st) (start E s requests) c) {i : ℕ} {r : Request}
    (hr : requests[i]? = some r) : StatusRules r (c.histOf i) := by
  let pr : ℕ → Protocol Db Err Ev Answer (effects fun _ => true) := fun i =>
    (requests[i]?.getD (.delete 0 0)).protocol E (st i)
  have hsafe : ∀ i d, (calls E requests)[i]? = some d → Safe (pr i) d s := by
    intro i d hd
    obtain ⟨r, hr, rfl⟩ := getElem?_calls hd
    simp only [pr, hr, Option.getD_some]
    exact safe_run E (st i) r s
  have hlt : i < (calls E requests).length := by
    rw [calls, List.length_map]
    exact (List.getElem?_eq_some_iff.mp hr).1
  have hk := reach_keeps hsafe (fun c i _ hP _ => ?_) h hlt
  · simp only [pr, hr, Option.getD_some] at hk
    refine statusRules_of_keeps hk fun hrs v hv => ?_
    have := (reach_emits (V := fun i _ => ∀ r, requests[i]? = some r → r.restates = true)
      (fun i d hd => ?_) h).2 i v (Config.mem_histOf.mp hv) r hr
    · rw [hrs] at this
      cases this
    · obtain ⟨r, hr, rfl⟩ := getElem?_calls hd
      cases hrs : r.restates with
      | false => exact emits_run E hrs
      | true =>
        refine Call.emits_all (fun _ r' hr' => ?_) _
        rw [hr] at hr'
        exact Option.some.inj hr' ▸ hrs
  · cases hr : requests[i]? with
    | none => simp only [pr, hr]; trivial
    | some r =>
      simp only [pr, hr, Option.getD_some]
      have := hP r hr
      cases r with
      | update | cancelPublic => exact this
      | book | delete | getAvailableSlots => trivial

/-! ## Overtaken -/

def cancelAndComplete : List Request :=
  [.cancelPublic 1, .update 1 1 { status := some "completed" }]

def cancelsCompleted (x : Line) : Bool :=
  match x with
  | .commit a b => statusAt 1 a == some .completed && statusAt 1 b == some .cancelled
  | _ => false

/-- **A cancellation overtaken by an update**: it has read `pending`, and replaces `completed`. -/
theorem cancel_over_completed : ∃ c : Run, Reach Always
    (start server (clinic [(1, anHour .pending 0)]) cancelAndComplete) c ∧
      ∃ i r, cancelAndComplete[i]? = some r ∧ ¬ StatusRules r (c.histOf i) := by
  obtain ⟨c, hc, hp⟩ := exists_reach_anywhere
    (start server (clinic [(1, anHour .pending 0)]) cancelAndComplete)
    (turns 0 4 ++ turns 1 9 ++ turns 0 4) (fun c => (c.histOf 0).any cancelsCompleted)
    (by decide +kernel)
  refine ⟨c, hc, 0, _, rfl, fun hrules => ?_⟩
  obtain ⟨x, hx, hx'⟩ := List.any_eq_true.mp hp
  cases x with
  | commit a b =>
    simp only [cancelsCompleted, statusAt, Bool.and_eq_true, beq_iff_eq, Option.map_eq_some_iff] at hx'
    obtain ⟨⟨old, hold, hs⟩, ⟨new, hnew, hs'⟩⟩ := hx'
    have := hrules.publicly rfl hx hold hnew (by simp [hs, hs'])
    simp [hs] at this
  | start | rollback | emit | answer => cases hx'

def completeOne : List Request := [.update 1 1 { status := some "completed" }]

/-- **A repeated completion** is told of once more. -/
theorem completion_told_again : ∃ c : Run, Reach Always
    (start server (clinic [(1, anHour .completed 0)]) completeOne) c ∧
      (c.histOf 0).countP (movesTo .completed 1) = 0 ∧
      (c.histOf 0).countP (tells .completed 1) = 1 := by
  obtain ⟨c, hc, hp⟩ := exists_reach_anywhere
    (start server (clinic [(1, anHour .completed 0)]) completeOne) (turns 0 9)
    (fun c => decide ((c.histOf 0).countP (movesTo .completed 1) = 0) &&
      decide ((c.histOf 0).countP (tells .completed 1) = 1)) (by decide +kernel)
  simp only [Bool.and_eq_true, decide_eq_true_eq] at hp
  exact ⟨c, hc, hp⟩

/-- A completion that nothing overtakes moves the appointment once and is told of once. -/
theorem reach_statusRules_complete : ∃ c : Run, Reach (Steady completeOne fun _ => some .pending)
    (start server (clinic [(1, anHour .pending 0)]) completeOne) c ∧
      (c.histOf 0).countP (tells .completed 1) = 1 ∧
      StatusRules (.update 1 1 { status := some "completed" }) (c.histOf 0) := by
  obtain ⟨c, hc, hp⟩ := exists_reach (o := steady completeOne fun _ => some .pending)
    (P := Steady completeOne fun _ => some .pending) (fun _ _ h => steady_of h)
    (start server (clinic [(1, anHour .pending 0)]) completeOne) (turns 0 9)
    (fun c => decide ((c.histOf 0).countP (tells .completed 1) = 1)) (by decide +kernel)
  exact ⟨c, hc, of_decide_eq_true hp, reach_statusRules hc rfl⟩

end PatronLoyalty.Appointments
