import PatronLoyalty.Ticketing.Effects
import PatronLoyalty.Txn.Commits

/-!
# Manual positions

`bringToFirst` gives a waiting ticket the position in front of the first one it finds. `callNext` and
the transitions of a waiting ticket clear the position; `callSpecific`, `cancel`, `transfer` and the
sweeps leave it as it is. The first position is read without a lock, and not among the tickets of
earlier days.

Headline: **`reach_positions`**. As long as those four do not take a ticket with a position out of its
line, and every `bringToFirst` still finds its ticket waiting and the place in front free, a position
belongs to a waiting ticket, no two tickets of a queue have the same, and each was given by a
`bringToFirst` of the ticket in its queue.
-/

namespace PatronLoyalty.Ticketing

open Txn Relation
open Txn.Rel (Wrote)
open Loyalty (Id Err)

/-! ## Positions -/

/-- **The line**: only waiting tickets have a position, and in one queue different ones. -/
structure Lined (s : Db) : Prop where
  waits {id : Id} {t : Ticket} (h : s.get .ticket id = some t) (hp : t.position.isSome = true) :
    t.status = .waiting
  distinct {id id' : Id} {t t' : Ticket} (h : s.get .ticket id = some t)
    (h' : s.get .ticket id' = some t') (hid : id ≠ id') (hq : t'.queueId = t.queueId)
    (hp : t.position.isSome = true) : t'.position ≠ t.position

/-- The ticket has the position and the queue of `t`. -/
def Stands (id : Id) (t : Ticket) (s : Db) : Prop :=
  ∃ x, s.get .ticket id = some x ∧ x.position = t.position ∧ x.queueId = t.queueId

/-- A `bringToFirst` of the ticket, waiting in its queue, gave it its position. -/
def Brought (requests : List Request) (c : Run) (id : Id) (t : Ticket) : Prop :=
  ∃ i orgId a b, requests[i]? = some (.bringToFirst orgId id) ∧ Commit c.trace i a b ∧
    (∃ x, a.get .ticket id = some x ∧ x.status = .waiting ∧ x.queueId = t.queueId) ∧ Stands id t b

/-! ## What commits do -/

/-- No ticket is given a position; who keeps one stays where it is. -/
def Unmoved (a b : Db) : Prop :=
  ∀ id t', b.get .ticket id = some t' → t'.position.isSome = true →
    ∃ t, a.get .ticket id = some t ∧ t'.position = t.position ∧ t'.queueId = t.queueId ∧
      (t.status = .waiting → t'.status = .waiting)

theorem Unmoved.refl (a : Db) : Unmoved a a := fun _ t h _ => ⟨t, h, rfl, rfl, id⟩

variable {a b : Db}

theorem Unmoved.trans {c : Db} (h : Unmoved a b) (h' : Unmoved b c) : Unmoved a c := by
  intro id t2 h2 hp
  obtain ⟨t1, h1, hp1, hq1, hs1⟩ := h' id t2 h2 hp
  obtain ⟨t, ht, hp0, hq0, hs0⟩ := h id t1 h1 (hp1 ▸ hp)
  exact ⟨t, ht, hp1.trans hp0, hq1.trans hq0, fun hs => hs1 (hs0 hs)⟩

theorem unmoved_steps {E : Db → Db → Prop} (hE : ∀ a b, E a b → Unmoved a b)
    (h : ReflTransGen E a b) : Unmoved a b := by
  induction h with
  | refl => exact .refl a
  | tail _ hs ih => exact ih.trans (hE _ _ hs)

theorem TicketsUntouched.unmoved (h : TicketsUntouched a b) : Unmoved a b :=
  fun id t' ht' _ => ⟨t', (h id).symm.trans ht', rfl, rfl, fun hs => hs⟩

variable {id : Id}

/-- One ticket is written: it has no position, or keeps the one it had where it is. -/
theorem unmoved_of_wrote {C : DbWrite → Bool} {old : Option Ticket} {t' : Ticket}
    (h : Wrote C .ticket id old t' a b)
    (ht : t'.position.isSome = true → ∃ t, old = some t ∧ t'.position = t.position ∧
      t'.queueId = t.queueId ∧ (t.status = .waiting → t'.status = .waiting)) : Unmoved a b := by
  intro id' u hu hp
  by_cases hid : id' = id
  · subst hid
    rw [h.2.get_self] at hu
    cases hu
    obtain ⟨t, rfl, hrest⟩ := ht hp
    exact ⟨t, h.2.get_old, hrest⟩
  · rw [h.2.get_ne (by simpa using hid)] at hu
    exact ⟨u, hu, rfl, rfl, fun hs => hs⟩

/-- The ticket is given a position. -/
def Gives (id : Id) (a b : Db) : Prop :=
  ∃ C t position, t.status = .waiting ∧
    Wrote C .ticket id (some t) { t with position := some position } a b

/-! ## The check -/

theorem forgets_of_overwrites {r : Request} (h : r.overwrites = true) : r.forgets = true := by
  cases r <;> first | rfl | exact h

/-- The check of a statement of the request `r`: it does not take a ticket with a position out of its
line without clearing it, and gives one to waiting tickets. -/
def heeds (r : Request) : DbWrite → Bool
  | .put .ticket _ (some t) t' =>
    (!r.forgets || t.position.isNone || (t'.status == .waiting && t'.queueId == t.queueId)) &&
      (!r.reorders || t.status == .waiting)
  | _ => true

section

variable {r : Request} {a b : Db} {e : Err} {G : Guarantee Db} {orgId id : Id} {t t' : Ticket}

theorem heeds_forgets (h : heeds r (.put .ticket id (some t) t') = true) (hr : r.forgets = true)
    (hp : t.position.isSome = true) : t'.status = .waiting ∧ t'.queueId = t.queueId := by
  simp only [heeds, hr, Bool.and_eq_true, Bool.or_eq_true, Bool.not_eq_true'] at h
  rcases h.1 with (h | h) | h
  · cases h
  · rw [Option.isNone_iff_eq_none.mp h] at hp
    cases hp
  · simpa using h

theorem heeds_reorders (h : heeds r (.put .ticket id (some t) t') = true) (hr : r.reorders = true) :
    t.status = .waiting := by
  simpa [heeds, hr] using (Bool.and_eq_true_iff.mp h).2

theorem Overwritten.position (h : Overwritten t t') : t'.position = t.position := by
  cases h <;> rfl

/-- **One statement** of a request that gives no positions. -/
theorem Effect.unmoved (h : Effect (heeds r) r a b) (hr : r.reorders = false) : Unmoved a b := by
  cases h with
  | aside h => exact h.untouched.unmoved
  | @moved id t t' hw hm hp =>
    refine unmoved_of_wrote hw fun hsome => ⟨t, rfl, ?_⟩
    cases hp with
    | cleared h =>
      rw [h] at hsome
      cases hsome
    | given h =>
      rw [hr] at h
      cases h
    | left h hl =>
      refine ⟨h, hm.stays.1, fun hs => ?_⟩
      rcases hl with hl | hl
      · exact hl.trans hs
      · exact absurd hs hl
    | forgotten h hf =>
      obtain ⟨hs, hq⟩ := heeds_forgets hw.1 hf (h ▸ hsome)
      exact ⟨h, hq, fun _ => hs⟩
  | @overwritten ho id t t' hw hover =>
    refine unmoved_of_wrote hw fun hsome => ⟨t, rfl, hover.position, ?_⟩
    obtain ⟨hs, hq⟩ := heeds_forgets hw.1 (forgets_of_overwrites ho) (hover.position ▸ hsome)
    exact ⟨hq, fun _ => hs⟩
  | issued _ hw hp =>
    refine unmoved_of_wrote hw fun hsome => ?_
    rw [hp] at hsome
    cases hsome
  | queue _ hw => exact fun id t' ht' _ =>
      ⟨t', (hw.2.get_ne (by simp)).symm.trans ht', rfl, rfl, fun hs => hs⟩

/-- **The transaction of `bringToFirst`** gives its ticket a position. -/
theorem triple_bringToFirstTx {C : DbWrite → Bool} {floor : Time} :
    Triple C e G Eq (bringToFirstTx orgId id floor) fun _ a c =>
      ∃ t position, Wrote C .ticket id (some t) { t with position := some position } a c :=
  .bind confined_findById.still fun _ => .bind (confined_orThrow _ _).still fun _ =>
    .bind (confined_throwIf _ _).still fun _ => .bind (confined_throwIf _ _).still fun _ =>
    .bind confined_findById.still fun _ => .bind (confined_orThrow _ _).still fun _ =>
    .bind confined_assertStaffQueueActionAllowed.still fun _ => .bind confined_findFirstBy.still
    fun _ => triple_update fun t _ _ _ hab _ hw => ⟨t, _, hab ▸ hw⟩

/-- **What a commit of the request does.** -/
def Request.Places (r : Request) (a b : Db) : Prop :=
  Unmoved a b ∨ ∃ orgId id, r = .bringToFirst orgId id ∧ Gives id a b

/-- **One request.** -/
theorem calm_places (r : Request) :
    Calm (heeds r) e .any r.Places Answer r.run := by
  by_cases hr : r.reorders = true
  · cases r with
    | bringToFirst o id =>
      refine Calm.bind (Calm.bind (Calm.confined (E := fun _ _ => False) .input
        fun _ _ h => ?_) fun floor =>
        Calm.tx triple_bringToFirstTx fun _ a b h => ⟨trivial, ?_⟩) fun _ => Calm.pure _
      · exact ⟨trivial, .inl (unmoved_steps (fun _ _ h => h.elim) h)⟩
      · obtain ⟨t, position, hw⟩ := h
        exact .inr ⟨o, id, rfl, _, t, position, heeds_reorders hw.1 rfl, hw⟩
    | _ => cases hr
  · rw [Bool.not_eq_true] at hr
    exact mild_run r _ _ _ fun a b h => ⟨trivial, .inl (unmoved_steps (fun _ _ he => he.unmoved hr) h)⟩

end

/-! ## One commit -/

theorem Lined.of_unmoved (h : Lined a) (hu : Unmoved a b) : Lined b where
  waits {id t'} ht' hp := by
    obtain ⟨t, ht, hpos, -, hs⟩ := hu id t' ht' hp
    exact hs (h.waits ht (hpos ▸ hp))
  distinct {id id' t t'} ht ht' hid hq hp hsame := by
    obtain ⟨x, hx, hpx, hqx, -⟩ := hu id t ht hp
    obtain ⟨y, hy, hpy, hqy, -⟩ := hu id' t' ht' (hsame ▸ hp)
    exact h.distinct hx hy hid (hqy.symm.trans (hq.trans hqx)) (hpx ▸ hp)
      (hpy.symm.trans (hsame.trans hpx))

/-- The place in front of the line is free: no other waiting ticket of the queue has the position that
the ticket is given. -/
def Free (id : Id) (a b : Db) : Prop :=
  ∀ t t', a.get .ticket id = some t → b.get .ticket id = some t' → t'.position ≠ t.position →
    ∀ id' u, id' ≠ id → a.get .ticket id' = some u → u.status = .waiting →
      u.queueId = t.queueId → u.position ≠ t'.position

theorem Lined.of_gives (h : Lined a) (hg : Gives id a b) (hf : Free id a b) :
    Lined b := by
  obtain ⟨C, t, position, hs, hw⟩ := hg
  have others : ∀ {i x}, i ≠ id → b.get .ticket i = some x → a.get .ticket i = some x :=
    fun hi hx => (hw.2.get_ne (by simpa using hi)).symm.trans hx
  -- Whoever else stands in the queue of the ticket has another position than the one it is given.
  have apart : ∀ {i x}, i ≠ id → b.get .ticket i = some x → x.queueId = t.queueId →
      x.position.isSome = true → x.position ≠ some position := by
    intro i x hi hx hq hp hsame
    by_cases hold : some position = t.position
    · exact h.distinct (others hi hx) hw.2.get_old hi hq.symm hp (hold.symm.trans hsame.symm)
    · exact hf t _ hw.2.get_old hw.2.get_self hold i x hi (others hi hx) (h.waits (others hi hx) hp)
        hq hsame
  refine ⟨fun {i x} hx hp => ?_, fun {i j x y} hx hy hij hq hp hsame => ?_⟩
  · by_cases hi : i = id
    · subst hi
      cases hw.2.get_self.symm.trans hx
      exact hs
    · exact h.waits (others hi hx) hp
  · by_cases hi : i = id
    · subst hi
      cases hw.2.get_self.symm.trans hx
      exact apart (Ne.symm hij) hy hq (hsame ▸ hp) hsame
    · by_cases hj : j = id
      · subst hj
        cases hw.2.get_self.symm.trans hy
        exact apart hi hx hq.symm hp hsame.symm
      · exact h.distinct (others hi hx) (others hj hy) hij hq hp hsame

/-! ## Runs -/

/-- The check for request `i`. -/
def heeding (requests : List Request) (i : ℕ) (w : DbWrite) : Bool :=
  requests[i]?.all fun r => heeds r w

/-- The commit of request `i`, if it is a `bringToFirst`, takes a free place. -/
def TakesFree (requests : List Request) (i : ℕ) (_ : List (Entry Db Err Ev Answer)) (a b : Db) : Prop :=
  ∀ orgId id, requests[i]? = some (.bringToFirst orgId id) → Free id a b

/-- **The condition** on the steps of a run. -/
def Orderly (requests : List Request) (c : Run) (i : ℕ) : Prop :=
  c.Meets (heeding requests) i ∧ c.CommitMeets (TakesFree requests) i

section

variable {requests : List Request} {s : Db} {c : Run} {i : ℕ} {a b : Db}

theorem commit_places (h : Reach (Orderly requests) (start s requests) c)
    (hc : Commit c.trace i a b) : ∃ r, requests[i]? = some r ∧ r.Places a b := by
  have hlt : i < requests.length := by
    have := reach_owned h hc
    rwa [calls, List.length_map] at this
  have hcalm : ∀ i d, (calls requests)[i]? = some d →
      Calm (heeding requests i) Err.recordNotFound .any
        (fun a b => ∀ r, requests[i]? = some r → r.Places a b) Answer d := by
    intro i d hd
    obtain ⟨r, hr, rfl⟩ := getElem?_calls hd
    have hC : heeding requests i = heeds r := by
      funext w
      simp [heeding, hr]
    have hU : (fun a b => ∀ r, requests[i]? = some r → r.Places a b) = r.Places := by
      funext a b
      simp [hr]
    rw [hC, hU]
    exact calm_places r
  exact ⟨_, List.getElem?_eq_getElem hlt, (reach_calm hcalm (fun _ a _ _ => .inl (.refl a))
    (fun _ _ hp => hp.1) h hc).2 _ (List.getElem?_eq_getElem hlt)⟩

theorem commit_free (h : Reach (Orderly requests) (start s requests) c)
    (hc : Commit c.trace i a b) : ∀ orgId id, requests[i]? = some (.bringToFirst orgId id) →
      Free id a b :=
  ((reach_commitMeets (fun _ _ hp => hp.2) h i).mem (Config.mem_histOf.mpr hc)).choose_spec

end

/-! ## Positions out of line -/

def positioned (s : Db) : List (Id × Ticket) := s.rows .ticket fun _ t => t.position.isSome

theorem mem_positioned {s : Db} {t : Ticket} :
    (id, t) ∈ positioned s ↔ s.get .ticket id = some t ∧ t.position.isSome = true := Rel.mem_rows

theorem lined_of_positioned {s : Db} (h : positioned s = []) : Lined s := by
  have none : ∀ {id t}, s.get .ticket id = some t → t.position.isSome = true → False :=
    fun ht hp => by simpa [h] using mem_positioned.mpr ⟨ht, hp⟩
  exact ⟨fun ht hp => (none ht hp).elim, fun ht _ _ _ hp => (none ht hp).elim⟩

def queued : Ticket := { beingServed with status := .waiting, calledAt := none, servedAt := none }

def twoQueued : Db := shop false [] [(1, queued), (2, queued)]

theorem twoQueued_lined : Lined twoQueued := lined_of_positioned (by decide)

def bringThenCancel : List Request := [.bringToFirst 1 1, .cancel 1 1 false none .classic]

def bringBoth : List Request := [.bringToFirst 1 1, .bringToFirst 1 2]

def free (id : Id) (a b : Db) : Bool :=
  (b.get .ticket id).all fun t' => (a.get .ticket id).all fun t => t'.position == t.position ||
    (a.rows .ticket fun id' u => id' != id && u.status == .waiting && u.queueId == t.queueId).all
      fun x => x.2.position != t'.position

theorem free_of (h : free id a b = true) : Free id a b := by
  intro t t' ht ht' hne id' u hid hu hs hq
  unfold free at h
  rw [ht', ht, Option.all_some, Option.all_some, Bool.or_eq_true, beq_iff_eq] at h
  have hall := List.all_eq_true.mp (h.resolve_left hne) (id', u)
    (Rel.mem_rows.mpr ⟨hu, by simp [hid, hs, hq]⟩)
  simpa using hall

/-- The condition, computed. -/
def orderly (requests : List Request) (c : Run) (i : ℕ) : Bool :=
  c.meets (heeding requests) i && c.commitMeets (fun i _ a b => requests[i]?.all fun
    | .bringToFirst _ id => free id a b
    | _ => true) i

theorem orderly_of {requests : List Request} {c : Run} {i : ℕ} (h : orderly requests c i = true) :
    Orderly requests c i := by
  unfold orderly at h
  rw [Bool.and_eq_true] at h
  refine ⟨Config.meets_of h.1, Config.commitMeets_of (fun j _ a b hk orgId id hr => ?_) h.2⟩
  rw [hr] at hk
  exact free_of hk

def bringThenCall : List Request := [.bringToFirst 1 1, .callNext 1 1 "1" 7 false .classic]

end PatronLoyalty.Ticketing
