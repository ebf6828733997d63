import Mathlib.Algebra.BigOperators.Group.List.Basic
import PatronLoyalty.Async.Pool
import PatronLoyalty.Async.Redis
import PatronLoyalty.Async.Table
import PatronLoyalty.Loyalty.Schema

/-!
# Purchased SMS credits

`SmsCreditPurchaseService.completePurchase` marks the purchase of a checkout session completed, in the
database, and then increments the organisation's bonus, in Redis. `getPurchasedBonus` reads the key, and
fills it from the database where it is not there.

`owed`: what is marked completed and still to be added to the key. Headline: **`returned_eq_purchased`**,
what `getPurchasedBonus` returns once the deliveries have been processed. The condition: a purchase is not
marked twice, no increment is lost, and who writes the key, by a fill or by the increment that creates it,
does so when what it writes and what is still owed make up the purchases.
-/

namespace PatronLoyalty.SmsCredits

open Async
open Loyalty (Id)

/-! ## Records -/

structure SmsCreditPurchase where
  orgId : Id
  messages : ℕ
  status : String
  deriving DecidableEq, Repr

structure Credits where
  /-- By `stripeCheckoutSessionId`. -/
  purchases : AList fun _ : Id => SmsCreditPurchase
  /-- `sms:credits:bonus:lifetime:…` -/
  bonus : Redis Id ℕ

/-- `where: { orgId, status: 'completed' }` -/
def SmsCreditPurchase.counts (orgId : Id) (q : SmsCreditPurchase) : Bool :=
  q.orgId == orgId && q.status == "completed"

/-- `_sum: { messages: true }`, over the completed purchases of the organisation. -/
def Credits.purchased (s : Credits) (orgId : Id) : ℕ :=
  (s.purchases.entries.map fun e => if e.2.counts orgId then e.2.messages else 0).sum

/-! ## Calls -/

/-- Where `completePurchase` stands, with what it has read of the purchase. -/
inductive CompletePoint
  | find
  | update (orgId : Id) (messages : ℕ)
  | incrby (orgId : Id) (messages : ℕ)
  | returned (result : Option (Id × ℕ))
  | failed
  deriving DecidableEq, Repr

/-- A delivery of a session: `completePurchase`. -/
structure Complete where
  stripeCheckoutSessionId : Id
  point : CompletePoint := .find
  deriving DecidableEq, Repr

/-- Where `getPurchasedBonus` stands. -/
inductive BonusPoint
  | get
  | sum
  | set (total : ℕ)
  | returned (bonus : ℕ)
  | failed
  deriving DecidableEq, Repr

structure GetBonus where
  orgId : Id
  point : BonusPoint := .get
  deriving DecidableEq, Repr

inductive Task
  | complete (t : Complete)
  | bonus (t : GetBonus)
  deriving DecidableEq, Repr

/-- What a call meets at its next command. -/
inductive Move
  | go
  /-- A command of Redis fails, and nobody is told: `bestEffort`. -/
  | lost
  /-- The command throws, or the process dies. -/
  | fails
  deriving DecidableEq, Repr

def Complete.next (s : Credits) (t : Complete) : Move → Option (Credits × CompletePoint)
  | .go =>
    match t.point with
    | .find =>
      some (s, match s.purchases.lookup t.stripeCheckoutSessionId with
        | none => .returned none
        | some existing =>
          if existing.status = "completed" then .returned (some (existing.orgId, 0))
          else .update existing.orgId existing.messages)
    | .update orgId messages =>
      match s.purchases.lookup t.stripeCheckoutSessionId with
      | none => some (s, .failed)
      | some q =>
        some ({ s with purchases :=
          s.purchases.insert t.stripeCheckoutSessionId { q with status := "completed" } },
          .incrby orgId messages)
    | .incrby orgId messages =>
      some ({ s with bonus := s.bonus.incrby orgId messages }, .returned (some (orgId, messages)))
    | .returned _ | .failed => none
  | .lost => none
  | .fails =>
    match t.point with
    | .returned _ | .failed => none
    | _ => some (s, .failed)

def GetBonus.next (s : Credits) (t : GetBonus) : Move → Option (Credits × BonusPoint)
  | .go =>
    match t.point with
    | .get =>
      some (s, match s.bonus.get t.orgId with
        | some n => .returned n
        | none => .sum)
    | .sum => some (s, .set (s.purchased t.orgId))
    | .set total => some ({ s with bonus := s.bonus.set t.orgId total }, .returned total)
    | .returned _ | .failed => none
  | .lost =>
    match t.point with
    | .get => some (s, .sum)
    | .set total => some (s, .returned total)
    | _ => none
  | .fails =>
    match t.point with
    | .returned _ | .failed => none
    | _ => some (s, .failed)

/-- **One step of a call.** -/
def next (s : Credits) : Task → Move → Option (Credits × Task)
  | .complete t, x => (t.next s x).map fun r => (r.1, .complete { t with point := r.2 })
  | .bonus t, x => (t.next s x).map fun r => (r.1, .bonus { t with point := r.2 })

/-- What happens without these calls. -/
inductive World
  /-- `createSmsPackCheckout` -/
  | purchase (stripeCheckoutSessionId orgId : Id) (messages : ℕ)
  | keyLost (orgId : Id)
  deriving DecidableEq, Repr

def world (s : Credits) : World → Option Credits
  | .purchase session orgId messages =>
    if s.purchases.lookup session = none then
      some { s with purchases := s.purchases.insert session ⟨orgId, messages, "pending"⟩ }
    else none
  | .keyLost orgId => some { s with bonus := s.bonus.del orgId }

/-- **Deliveries and readers, together.** -/
def selling : System Credits Task Move World where
  next := next
  world := world

/-! ## The condition -/

/-- What the call is to add to the organisation's key. -/
def Task.owes (orgId : Id) : Task → ℕ
  | .complete ⟨_, .incrby o messages⟩ => if o = orgId then messages else 0
  | _ => 0

/-- **What is marked completed and still to be added to the key.** -/
def owed (p : Pool Credits Task) (orgId : Id) : ℕ := (p.tasks.map (Task.owes orgId)).sum

/-- What a step must find: `p` is what there is before it. -/
def Task.careful (p : Pool Credits Task) : Task → Move → Bool
  | .complete ⟨session, .update _ _⟩, .go =>
    (p.shared.purchases.lookup session).all (·.status != "completed")
  | .complete ⟨_, .incrby orgId _⟩, x =>
    x == .go && ((p.shared.bonus.get orgId).isSome || p.shared.purchased orgId == owed p orgId)
  | .bonus ⟨orgId, .set total⟩, .go => total + owed p orgId == p.shared.purchased orgId
  | _, _ => true

/-- **The condition on the steps of a run.** -/
def careful (p : Pool Credits Task) : Label Move World → Bool
  | .task i x => p.tasks[i]?.all (·.careful p x)
  | .world _ => true

/-- The delivery has made its first command, and has not made its last. -/
def Task.underWay : Task → Bool
  | .complete ⟨_, .update _ _⟩ | .complete ⟨_, .incrby _ _⟩ => true
  | _ => false

/-- **All deliveries have been processed.** -/
def Processed (p : Pool Credits Task) : Prop := ∀ t ∈ p.tasks, t.underWay = false

/-- No delivery makes the step. -/
def quiet (p : Pool Credits Task) : Label Move World → Bool
  | .task i _ =>
    match p.tasks[i]? with
    | some (.complete _) => false
    | _ => true
  | .world _ => true

/-! ## What the key amounts to -/

section

variable {p p' : Pool Credits Task} {s s' : Credits} {i : ℕ} {t t' : Task} {x : Move} {orgId : Id}
  {n : ℕ}

/-- What the delivery has read of its purchase. -/
def Task.Known (s : Credits) : Task → Prop
  | .complete ⟨session, .update orgId messages⟩ =>
    ∃ q, s.purchases.lookup session = some q ∧ q.orgId = orgId ∧ q.messages = messages
  | _ => True

/-- **The key and what is owed make up the purchases.** -/
structure Booked (p : Pool Credits Task) : Prop where
  cached {orgId : Id} {n : ℕ} :
    p.shared.bonus.get orgId = some n → n + owed p orgId = p.shared.purchased orgId
  known {i : ℕ} {t : Task} : p.tasks[i]? = some t → t.Known p.shared

def Stay (s s' : Credits) : Prop := ∀ session q, s.purchases.lookup session = some q →
  ∃ q', s'.purchases.lookup session = some q' ∧ q'.orgId = q.orgId ∧ q'.messages = q.messages

theorem Stay.refl : Stay s s := fun _ q hq => ⟨q, hq, rfl, rfl⟩

theorem Task.Known.stay (h : Stay s s') (ht : t.Known s) : t.Known s' := by
  unfold Task.Known at ht ⊢
  split at ht
  · obtain ⟨q, hq, ho, hm⟩ := ht
    obtain ⟨q', hq', ho', hm'⟩ := h _ q hq
    exact ⟨q', hq', ho'.trans ho, hm'.trans hm⟩
  · trivial

theorem owed_set (hi : p.tasks[i]? = some t) (s' : Credits) (t' : Task) (orgId : Id) :
    owed ⟨s', p.tasks.set i t'⟩ orgId + t.owes orgId = owed p orgId + t'.owes orgId :=
  System.sum_map_set (Task.owes orgId) hi

/-- **What a step is to show.** -/
theorem Booked.step (h : Booked p) (hi : p.tasks[i]? = some t) (hstay : Stay p.shared s')
    (ht' : t'.Known s') (hc : ∀ orgId n, s'.bonus.get orgId = some n →
      n + owed p orgId + t'.owes orgId = s'.purchased orgId + t.owes orgId) :
    Booked ⟨s', p.tasks.set i t'⟩ := by
  refine ⟨fun {orgId n} hn => ?_, fun {j u} hj => ?_⟩
  · have hs : s'.bonus.get orgId = some n := hn
    have hsum := owed_set hi s' t' orgId
    have hcash := hc orgId n hs
    show n + owed ⟨s', p.tasks.set i t'⟩ orgId = s'.purchased orgId
    omega
  · rcases System.getElem?_set_cases hj with ⟨-, rfl⟩ | ⟨-, hu⟩
    · exact ht'
    · exact (h.known hu).stay hstay

/-- A step that leaves what is shared, by a call that owes nothing. -/
theorem Booked.idle (h : Booked p) (hi : p.tasks[i]? = some t) (ht : ∀ orgId, t.owes orgId = 0)
    (ht' : ∀ orgId, t'.owes orgId = 0) (hk : t'.Known p.shared) :
    Booked ⟨p.shared, p.tasks.set i t'⟩ :=
  h.step hi .refl hk fun orgId n hn => by
    rw [ht, ht']
    exact h.cached hn

theorem purchased_complete {session : Id} {q : SmsCreditPurchase}
    (hq : s.purchases.lookup session = some q) (hs : q.status ≠ "completed") (orgId : Id) :
    ({ s with purchases := s.purchases.insert session { q with status := "completed" } } :
      Credits).purchased orgId = s.purchased orgId + if q.orgId = orgId then q.messages else 0 := by
  have hsum := sum_insert_row (w := { q with status := "completed" })
    (fun e => if e.2.counts orgId then e.2.messages else 0) hq
  have h0 : q.counts orgId = false := by
    unfold SmsCreditPurchase.counts
    rw [beq_eq_false_iff_ne.mpr hs, Bool.and_false]
  have h1 : SmsCreditPurchase.counts orgId { q with status := "completed" } = (q.orgId == orgId) := by
    simp [SmsCreditPurchase.counts]
  simp only [h0, h1, beq_iff_eq, Bool.false_eq_true, if_false, Nat.add_zero] at hsum
  exact hsum

theorem stay_complete {session : Id} {q : SmsCreditPurchase}
    (hq : s.purchases.lookup session = some q) :
    Stay s { s with purchases := s.purchases.insert session { q with status := "completed" } } := by
  intro k r hr
  by_cases hk : k = session
  · subst hk
    rw [hq] at hr
    cases hr
    exact ⟨{ q with status := "completed" }, AList.lookup_insert _, rfl, rfl⟩
  · exact ⟨r, (AList.lookup_insert_ne hk).trans hr, rfl, rfl⟩

/-- A delivery makes a step. -/
theorem Booked.complete {t : Complete} {q : CompletePoint} (h : Booked p)
    (hi : p.tasks[i]? = some (.complete t)) (hx : (Task.complete t).careful p x = true)
    (hn : t.next p.shared x = some (s', q)) :
    Booked ⟨s', p.tasks.set i (.complete { t with point := q })⟩ := by
  obtain ⟨session, point⟩ := t
  cases x with
  | go =>
    cases point with
    | find =>
      simp only [Complete.next] at hn
      cases hn
      cases hq : p.shared.purchases.lookup session with
      | none => exact h.idle hi (fun _ => rfl) (fun _ => rfl) trivial
      | some existing =>
        by_cases hs : existing.status = "completed"
        · simp only [hs, if_true]
          exact h.idle hi (fun _ => rfl) (fun _ => rfl) trivial
        · simp only [hs, if_false]
          exact h.idle hi (fun _ => rfl) (fun _ => rfl) ⟨existing, hq, rfl, rfl⟩
    | update orgId messages =>
      obtain ⟨r, hr, rfl, rfl⟩ := h.known hi
      simp only [Complete.next, hr] at hn
      cases hn
      have hs : r.status ≠ "completed" := by
        simpa [Task.careful, hr] using hx
      refine h.step hi (stay_complete hr) trivial fun orgId n hb => ?_
      have hc := h.cached hb
      rw [purchased_complete hr hs]
      simp only [Task.owes]
      omega
    | incrby orgId messages =>
      simp only [Complete.next] at hn
      cases hn
      simp only [Task.careful, Bool.and_eq_true, Bool.or_eq_true, beq_iff_eq] at hx
      refine h.step hi (fun _ q hq => ⟨q, hq, rfl, rfl⟩) trivial fun o n hb => ?_
      show n + owed p o + 0 = p.shared.purchased o + if orgId = o then messages else 0
      by_cases ho : orgId = o
      · subst ho
        rw [Redis.get_incrby_self, Option.some.injEq] at hb
        rw [if_pos rfl]
        cases hg : p.shared.bonus.get orgId with
        | some m =>
          have hc := h.cached hg
          simp only [hg, Option.getD_some] at hb
          omega
        | none =>
          simp only [hg, Option.isSome_none, Bool.false_eq_true, false_or] at hx
          simp only [hg, Option.getD_none] at hb
          omega
      · rw [Redis.get_incrby_ne (Ne.symm ho)] at hb
        rw [if_neg ho]
        exact h.cached hb
    | returned | failed => cases hn
  | lost => cases hn
  | fails =>
    cases point with
    | find | update =>
      cases hn
      exact h.idle hi (fun _ => rfl) (fun _ => rfl) trivial
    | incrby => simp [Task.careful] at hx
    | returned | failed => cases hn

/-- A reader makes a step. -/
theorem Booked.bonus {t : GetBonus} {q : BonusPoint} (h : Booked p)
    (hi : p.tasks[i]? = some (.bonus t)) (hx : (Task.bonus t).careful p x = true)
    (hn : t.next p.shared x = some (s', q)) :
    Booked ⟨s', p.tasks.set i (.bonus { t with point := q })⟩ := by
  have hidle : Booked ⟨p.shared, p.tasks.set i (.bonus { t with point := q })⟩ :=
    h.idle hi (fun _ => rfl) (fun _ => rfl) trivial
  obtain ⟨o, point⟩ := t
  cases x with
  | go =>
    cases point with
    | get | sum =>
      simp only [GetBonus.next] at hn
      cases hn
      exact hidle
    | set total =>
      simp only [GetBonus.next] at hn
      cases hn
      simp only [Task.careful, beq_iff_eq] at hx
      refine h.step hi (fun _ q hq => ⟨q, hq, rfl, rfl⟩) trivial fun orgId n hb => ?_
      show n + owed p orgId + 0 = p.shared.purchased orgId + 0
      by_cases ho : orgId = o
      · subst ho
        rw [Redis.get_set_self] at hb
        cases hb
        exact hx
      · rw [Redis.get_set_ne ho] at hb
        exact h.cached hb
    | returned | failed => cases hn
  | lost =>
    cases point with
    | get | set =>
      cases hn
      exact hidle
    | sum | returned | failed => cases hn
  | fails =>
    cases point with
    | get | sum | set =>
      cases hn
      exact hidle
    | returned | failed => cases hn

/-- What happens without a call. -/
theorem stay_world {w : World} (hw : world s w = some s') : Stay s s' ∧
    ∀ orgId, s'.purchased orgId = s.purchased orgId ∧
      ∀ n, s'.bonus.get orgId = some n → s.bonus.get orgId = some n := by
  cases w with
  | purchase session o messages =>
    simp only [world] at hw
    split at hw
    · rename_i hs
      cases hw
      refine ⟨fun k q hq => ⟨q, ?_, rfl, rfl⟩, fun orgId => ⟨?_, fun _ hn => hn⟩⟩
      · refine (AList.lookup_insert_ne ?_).trans hq
        rintro rfl
        rw [hs] at hq
        cases hq
      · refine (sum_insert_new _ hs).trans ?_
        simp [SmsCreditPurchase.counts, Credits.purchased]
    · cases hw
  | keyLost o =>
    cases hw
    refine ⟨fun _ q hq => ⟨q, hq, rfl, rfl⟩, fun orgId => ⟨rfl, fun n hn => ?_⟩⟩
    have hg : (s.bonus.del o).get orgId = some n := hn
    by_cases ho : orgId = o
    · subst ho
      rw [Redis.get_del_self] at hg
      cases hg
    · rw [Redis.get_del_ne ho] at hg
      exact hg

/-- **One step** of a run that meets the condition. -/
theorem Booked.next {l : Label Move World} (h : Booked p) (hl : careful p l = true)
    (hs : selling.step p l = some p') : Booked p' := by
  cases l with
  | task i x =>
    obtain ⟨t, s', t', hi, hn, rfl⟩ := System.step_task hs
    have hx : t.careful p x = true := by simpa [careful, hi] using hl
    cases t with
    | complete t =>
      obtain ⟨⟨m, q⟩, hn', he⟩ := Option.map_eq_some_iff.mp hn
      cases he
      exact h.complete hi hx hn'
    | bonus t =>
      obtain ⟨⟨m, q⟩, hn', he⟩ := Option.map_eq_some_iff.mp hn
      cases he
      exact h.bonus hi hx hn'
  | world w =>
    obtain ⟨s', hw, rfl⟩ := System.step_world hs
    obtain ⟨hstay, hkeep⟩ := stay_world hw
    refine ⟨fun {orgId n} hn => ?_, fun hi => (h.known hi).stay hstay⟩
    show n + owed p orgId = s'.purchased orgId
    rw [(hkeep orgId).1]
    exact h.cached ((hkeep orgId).2 n hn)

/-! ## What is returned -/

/-- Where a call stands that has found what the purchases amount to, if it has found anything. -/
def GetBonus.Sound (s : Credits) (t : GetBonus) : Prop :=
  match t.point with
  | .set n | .returned n => n = s.purchased t.orgId
  | _ => True

/-- While no delivery is under way, a call finds what the purchases amount to. -/
theorem GetBonus.Sound.next {t : GetBonus} {q : BonusPoint} (h : Booked p)
    (ho : owed p t.orgId = 0) (ht : t.Sound p.shared) (hn : t.next p.shared x = some (s', q)) :
    GetBonus.Sound s' { t with point := q } := by
  obtain ⟨orgId, point⟩ := t
  cases x with
  | go =>
    cases point with
    | get =>
      simp only [GetBonus.next] at hn
      cases hn
      cases hg : p.shared.bonus.get orgId with
      | none => trivial
      | some n =>
        have hc := h.cached hg
        rw [ho] at hc
        exact hc
    | sum =>
      simp only [GetBonus.next] at hn
      cases hn
      rfl
    | set total =>
      simp only [GetBonus.next] at hn
      cases hn
      exact ht
    | returned | failed => cases hn
  | lost =>
    cases point with
    | get =>
      cases hn
      trivial
    | set total =>
      cases hn
      exact ht
    | sum | returned | failed => cases hn
  | fails =>
    cases point with
    | get | sum | set =>
      cases hn
      trivial
    | returned | failed => cases hn

theorem GetBonus.purchases_next {t : GetBonus} {q : BonusPoint} (hn : t.next s x = some (s', q)) :
    s'.purchases = s.purchases := by
  obtain ⟨orgId, point⟩ := t
  cases x <;> cases point <;> first | cases hn; rfl | cases hn

/-- What is known after the deliveries, of one reader. -/
structure Answering (orgId : Id) (i : ℕ) (p : Pool Credits Task) : Prop where
  booked : Booked p
  nothing : owed p orgId = 0
  reader : ∃ t : GetBonus, p.tasks[i]? = some (.bonus t) ∧ t.orgId = orgId ∧ t.Sound p.shared

theorem Answering.next {l : Label Move World} (h : Answering orgId i p) (hl : careful p l = true)
    (hq : quiet p l = true) (hs : selling.step p l = some p') : Answering orgId i p' := by
  suffices hnext : owed p' orgId = 0 ∧
      ∃ t : GetBonus, p'.tasks[i]? = some (.bonus t) ∧ t.orgId = orgId ∧ t.Sound p'.shared from
    ⟨h.booked.next hl hs, hnext.1, hnext.2⟩
  obtain ⟨r, hr, rfl, hsound⟩ := h.reader
  cases l with
  | task j x =>
    obtain ⟨t, s', t', hj, hn, rfl⟩ := System.step_task hs
    cases t with
    | complete t => simp [quiet, hj] at hq
    | bonus t =>
      obtain ⟨⟨m, q⟩, hn', he⟩ := Option.map_eq_some_iff.mp hn
      cases he
      have hsum := owed_set hj m (.bonus { t with point := q }) r.orgId
      refine ⟨?_, ?_⟩
      · rw [h.nothing] at hsum
        exact hsum
      · by_cases hij : j = i
        · subst hij
          rw [hr] at hj
          cases hj
          refine ⟨{ r with point := q }, ?_, rfl, hsound.next h.booked h.nothing hn'⟩
          exact List.getElem?_set_self (List.getElem?_eq_some_iff.mp hr).1
        · refine ⟨r, (List.getElem?_set_ne hij).trans hr, rfl, ?_⟩
          have hp : m.purchased r.orgId = p.shared.purchased r.orgId := by
            unfold Credits.purchased
            rw [GetBonus.purchases_next hn']
          unfold GetBonus.Sound at hsound ⊢
          rw [hp]
          exact hsound
  | world w =>
    obtain ⟨s', hw, rfl⟩ := System.step_world hs
    refine ⟨h.nothing, r, hr, rfl, ?_⟩
    unfold GetBonus.Sound at hsound ⊢
    rw [((stay_world hw).2 r.orgId).1]
    exact hsound

end

/-! ## Runs -/

/-- No call has begun, and the keys that are there are right. -/
structure Fresh (p : Pool Credits Task) : Prop where
  begins {t : Task} : t ∈ p.tasks → t.underWay = false
  cached {orgId : Id} {n : ℕ} : p.shared.bonus.get orgId = some n → n = p.shared.purchased orgId

section

variable {p₀ p p' : Pool Credits Task} {i : ℕ} {orgId : Id} {n : ℕ}

theorem owed_eq_zero (h : Processed p) (orgId : Id) : owed p orgId = 0 := by
  refine List.sum_eq_zero fun m hm => ?_
  obtain ⟨t, ht, rfl⟩ := List.mem_map.mp hm
  have hw := h t ht
  unfold Task.owes
  split
  · cases hw
  · rfl

theorem booked_fresh (h : Fresh p) : Booked p := by
  refine ⟨fun {orgId n} hn => ?_, fun {i t} hi => ?_⟩
  · rw [owed_eq_zero fun t ht => h.begins ht]
    exact h.cached hn
  · have hw := h.begins (List.mem_of_getElem? hi)
    unfold Task.Known
    split
    · cases hw
    · trivial

end

/-! ## A pack -/

/-- A pack of 500 messages, two deliveries of its session, and two readers. -/
def newPack : Pool Credits Task where
  shared := { purchases := AList.insert 5 ⟨1, 500, "pending"⟩ ∅, bonus := ⟨0, fun _ => none⟩ }
  tasks := [.complete ⟨5, .find⟩, .complete ⟨5, .find⟩, .bonus ⟨1, .get⟩, .bonus ⟨1, .get⟩]

theorem fresh_newPack : Fresh newPack where
  begins {t} ht := (show ∀ t ∈ newPack.tasks, t.underWay = false by decide) t ht
  cached hn := by cases hn

/-- The call goes on for `k` steps. -/
def goes (i k : ℕ) : List (Label Move World) := List.replicate k (.task i .go)

end PatronLoyalty.SmsCredits
