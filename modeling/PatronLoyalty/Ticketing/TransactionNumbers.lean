import PatronLoyalty.Ticketing.Advance
import PatronLoyalty.Txn.InTurn
import Mathlib.Data.List.DropRight

/-!
# Transaction numbers

Which step of a journey asks for a transaction number is written down in four places: the shared
predicate, the completion of a ticket, its transfer, and a trigger of the database on the tickets that are
completed.

`RulesAgree` says that the application's rule for a ticket is the database's: nothing goes on without a
number where the trigger wants one, a number that is known is enough, and a number is accepted where the
step of the ticket accepts one.

Results:
* `agrees_complete`: the rule of a completion agrees.
* `agrees_transfer_iff`: the rule of a transfer, which looks for the number by the step it goes to.
* **`numbers_agree_iff`**: both, and that the trigger rejects no completion.
-/

namespace PatronLoyalty.Ticketing

open Txn Relation
open Txn.Rel (Wrote)
open Loyalty (Id Err truthy trim)

/-! ## The trigger -/

/-- `btrim(s)`: spaces only. -/
def btrim (s : String) : String :=
  String.ofList ((s.toList.dropWhile (· == ' ')).rdropWhile (· == ' '))

/-- `external_ref IS NOT NULL AND btrim(external_ref) <> ''`. -/
def hasNumber (externalRef : Option String) : Bool := externalRef.any fun ref => btrim ref != ""

/-- `SELECT q.step_role FROM queues q WHERE q.id = …`, by a request of the organisation. -/
def stepRoleOf (orgId queueId : Id) (s : Db) : Option QueueStepRole :=
  ((s.get .queue queueId).filter (visible (.tenant orgId) .queue)).bind (·.stepRole)

/-- `enforce_journey_ticket_external_ref`: whether the trigger rejects the new row. -/
def enforceJourneyTicketExternalRef (orgId : Id) (s : Db) (new : Ticket) : Bool :=
  if new.visitId.isNone || new.status != .completed then false
  else if hasNumber new.externalRef then false
  else [some .service, some .pickup].contains (stepRoleOf orgId new.queueId s) ||
    new.stepIndex.any (1 ≤ ·)

def acceptsRef (orgId : Id) (t : Ticket) (s : Db) : Bool :=
  journeyStepAcceptsExternalRef t.stepIndex (stepRoleOf orgId t.queueId s)

def visitNumber (orgId : Id) (t : Ticket) (s : Db) : Option String :=
  trimmed (t.visitId.bind fun visitId =>
    ((s.get .visit visitId).filter (visible (.tenant orgId) .visit)).bind (·.externalRef))

variable {s s' a b : Db} {orgId : Id} {t t' : Ticket} {supplied ref : Option String} {r : String}
  {v : Id}

theorem contains_role (role : Option QueueStepRole) :
    [some .service, some .pickup].contains role = role.isSome := by
  cases role with
  | none => rfl
  | some role => cases role <;> rfl

/-- **The predicate is the trigger's**: what the database wants of a ticket without a number. -/
theorem enforce_completed (orgId : Id) (s : Db) (t : Ticket) :
    enforceJourneyTicketExternalRef orgId s { t with status := .completed, externalRef := none } =
      (t.visitId.isSome && acceptsRef orgId t s) := by
  unfold enforceJourneyTicketExternalRef acceptsRef journeyStepAcceptsExternalRef
  rw [contains_role]
  cases t.visitId <;> rfl

theorem enforce_eq_false (h : t.visitId.isSome = true → t.status = .completed →
    acceptsRef orgId t s = true → hasNumber t.externalRef = true) :
    enforceJourneyTicketExternalRef orgId s t = false := by
  unfold enforceJourneyTicketExternalRef
  rw [contains_role]
  split
  · rfl
  · rename_i hgo
    split
    · rfl
    · rename_i hno
      rw [Bool.or_eq_true, not_or, Option.isNone_iff_eq_none, bne_iff_ne, Decidable.not_not] at hgo
      by_contra hreject
      exact hno (h (Option.isSome_iff_ne_none.mpr hgo.1) hgo.2 (Bool.eq_true_of_not_eq_false hreject))

/-! ## Numbers that are trimmed -/

theorem mem_trimChars {cs : List Char} (h : Loyalty.trimChars cs ≠ []) :
    ∃ c ∈ Loyalty.trimChars cs, Loyalty.isSpace c = false := by
  have hne : (cs.dropWhile Loyalty.isSpace).reverse.dropWhile Loyalty.isSpace ≠ [] := fun hnil =>
    h (by unfold Loyalty.trimChars; rw [hnil]; rfl)
  refine ⟨_, List.mem_reverse.mpr (List.head_mem hne), ?_⟩
  exact List.head_dropWhile_not Loyalty.isSpace hne

theorem btrim_ne {ref : String} (h : ∃ c ∈ ref.toList, c ≠ ' ') : btrim ref ≠ "" := by
  obtain ⟨c, hc, hne⟩ := h
  intro hb
  have hnil : (ref.toList.dropWhile (· == ' ')).rdropWhile (· == ' ') = [] := by
    have htext := congrArg String.toList hb
    simpa [btrim] using htext
  have hall := List.rdropWhile_eq_nil_iff.mp hnil
  have hstart : ref.toList.dropWhile (· == ' ') ≠ [] := by
    rw [ne_eq, List.dropWhile_eq_nil_iff]
    exact fun h => hne (by simpa using h c hc)
  have hhead := List.head_dropWhile_not (· == ' ') hstart
  rw [hall _ (List.head_mem hstart)] at hhead
  cases hhead

theorem trim_eq (x : String) : trim x = String.ofList (Loyalty.trimChars x.toList) := rfl

theorem trimmed_eq_some (h : trimmed ref = some r) : (∃ x, trim x = r) ∧ r ≠ "" := by
  unfold trimmed at h
  cases hm : ref.map trim with
  | none =>
    rw [hm] at h
    cases h
  | some y =>
    obtain ⟨x, -, hx⟩ := Option.map_eq_some_iff.mp hm
    rw [hm] at h
    by_cases hy : y = ""
    · rw [hy] at h
      cases h
    · rw [Loyalty.truthy_some hy] at h
      cases h
      exact ⟨⟨x, hx⟩, hy⟩

theorem hasNumber_of_trimmed (h : trimmed ref = some r) : hasNumber (some r) = true := by
  obtain ⟨⟨x, rfl⟩, hne⟩ := trimmed_eq_some h
  rw [trim_eq] at hne ⊢
  have hcs : Loyalty.trimChars x.toList ≠ [] := fun hnil => hne (by rw [hnil])
  obtain ⟨c, hc, hspace⟩ := mem_trimChars hcs
  have hb : btrim (String.ofList (Loyalty.trimChars x.toList)) ≠ "" := by
    refine btrim_ne ⟨c, by rwa [String.toList_ofList], ?_⟩
    rintro rfl
    exact absurd hspace (by decide)
  rw [hasNumber, Option.any_some]
  exact bne_iff_ne.mpr hb

/-! ## Looking for a number -/

theorem not_emptyRef_of_update {f : Visit → Visit} :
    (update orgId .visit v f).Throws (· ≠ emptyRef) := by
  refine Rel.throws_modify (by simp [emptyRef]) (by simp [emptyRef]) fun r e h => ?_
  split at h
  · cases h
  · cases h
    simp [emptyRef]

theorem throws_persist :
    (persistVisitExternalRef orgId v r).Throws (· ≠ emptyRef) :=
  Tx.throws_bind not_emptyRef_of_update fun _ => trivial

theorem throws_resolve : (resolveVisitExternalRef orgId v ref).Throws (· ≠ emptyRef) := by
  unfold resolveVisitExternalRef
  split
  · exact Tx.throws_bind throws_persist fun _ => trivial
  · refine Tx.throws_bind (Tx.throws_read _) fun visit => ?_
    split
    · trivial
    · refine Tx.throws_bind (fun _ => Tx.throws_read _) fun ticket => ?_
      split
      · exact Tx.throws_bind throws_persist fun _ => trivial
      · trivial

/-- **What is found**: the number that is supplied, or another that is known; none only where neither the
request nor the visit has one. -/
theorem gives_resolveVisitExternalRef (h : (resolveVisitExternalRef orgId v ref).gives s o s') :
    (∀ r, trimmed ref = some r → o = some r) ∧
      (o = none → trimmed ref = none ∧ trimmed (((s.get .visit v).filter
        (visible (.tenant orgId) .visit)).bind (·.externalRef)) = none) ∧
      ∀ r, o = some r → hasNumber (some r) = true := by
  unfold resolveVisitExternalRef at h
  split at h
  · rename_i r hr
    obtain ⟨_, m, -, h⟩ := h.seq
    obtain ⟨rfl, -⟩ := h
    refine ⟨fun r' hr' => hr.symm.trans hr', nofun, fun r' hr' => ?_⟩
    cases hr'
    exact hasNumber_of_trimmed hr
  · rename_i hnone
    refine ⟨fun r hr => absurd (hnone.symm.trans hr) (by simp), ?_⟩
    obtain ⟨visit, hvisit, h⟩ := gives_still confined_findById h
    obtain ⟨rfl, -⟩ := gives_findById.mp hvisit
    split at h
    · rename_i r hr
      obtain ⟨rfl, -⟩ := h
      refine ⟨nofun, fun r' hr' => ?_⟩
      cases hr'
      exact hasNumber_of_trimmed hr
    · rename_i hvnone
      refine ⟨fun _ => ⟨hnone, hvnone⟩, fun r' hr' => ?_⟩
      obtain ⟨ticket, m, -, h⟩ := h.seq
      split at h
      · rename_i r hr
        obtain ⟨_, m', -, h⟩ := h.seq
        obtain ⟨rfl, -⟩ := h
        cases hr'
        exact hasNumber_of_trimmed hr
      · obtain ⟨rfl, -⟩ := h
        cases hr'

theorem eval_update_visit {f : Visit → Visit} {visit : Visit} (hv : s.get .visit v = some visit)
    (ho : visit.orgId = orgId) :
    (update orgId .visit v f).eval env n [] s =
      (.ok (f visit, [.put .visit v (some visit) (f visit)]), n) := by
  have hvisible : visible (.tenant orgId) .visit visit = true := by
    simp [visible, gone, orgOf, ho]
  have hclash : s.clashes .visit (some visit) (f visit) = false := rfl
  have hview : view [] s = s := rfl
  refine Tx.eval_exec ?_
  rw [hview, hv]
  dsimp only
  rw [if_pos hvisible]
  dsimp only
  rw [hclash]
  rfl

theorem eval_resolve_supplied {visit : Visit} (hr : trimmed ref = some r)
    (hv : s.get .visit v = some visit) (ho : visit.orgId = orgId) :
    (resolveVisitExternalRef orgId v ref).eval env n [] s = (.ok (some r,
      [.put .visit v (some visit) { visit with externalRef := some r }]), n) := by
  have hpersist : (persistVisitExternalRef orgId v r).eval env n [] s =
      (.ok ((), [.put .visit v (some visit) { visit with externalRef := some r }]), n) := by
    unfold persistVisitExternalRef
    rw [Tx.bind_eq, Tx.eval_bind, eval_update_visit hv ho]
    rfl
  unfold resolveVisitExternalRef
  rw [hr]
  dsimp only
  rw [Tx.bind_eq, Tx.eval_bind, hpersist]
  rfl

/-! ## Asking for a number -/

/-- A lookup, and an error where it finds nothing and a number is wanted. -/
def demanding (wanted : Bool) (lookup : TTx (Option String)) : TTx (Option String) := do
  let ref ← lookup
  throwIf (wanted && ref.isNone) emptyRef
  pure ref

variable {wanted : Bool} {lookup : TTx (Option String)} {o : Option String} {ws : List DbWrite}
  {env : Env} {n m : ℕ}

theorem eval_demanding : (demanding wanted lookup).eval env n [] s =
    match lookup.eval env n [] s with
    | (.ok (o, ws), m) => (if wanted && o.isNone then .error emptyRef else .ok (o, ws), m)
    | (.error e, m) => (.error e, m) := by
  unfold demanding
  rw [Tx.bind_eq, Tx.eval_bind]
  cases hl : lookup.eval env n [] s with
  | mk r m =>
    cases r with
    | error e => rfl
    | ok x =>
      dsimp only
      cases wanted && x.1.isNone with
      | true => rfl
      | false => rfl

theorem eval_demanding_ok : (demanding wanted lookup).eval env n [] s = (.ok (o, ws), m) ↔
    lookup.eval env n [] s = (.ok (o, ws), m) ∧ (wanted && o.isNone) = false := by
  rw [eval_demanding]
  cases hl : lookup.eval env n [] s with
  | mk r m' =>
    cases r with
    | error e => simp
    | ok x =>
      dsimp only
      cases hw : wanted && x.1.isNone with
      | true =>
        refine iff_of_false (by simp) ?_
        rintro ⟨h, hno⟩
        cases h
        rw [hw] at hno
        cases hno
      | false =>
        constructor
        · intro h
          cases h
          exact ⟨rfl, hw⟩
        · rintro ⟨h, -⟩
          cases h
          rfl

/-- **The error** comes where a number is wanted and none is found. -/
theorem eval_demanding_error (ht : lookup.Throws (· ≠ emptyRef)) :
    (demanding wanted lookup).eval env n [] s = (.error emptyRef, m) ↔
      wanted = true ∧ ∃ ws, lookup.eval env n [] s = (.ok (none, ws), m) := by
  rw [eval_demanding]
  cases hl : lookup.eval env n [] s with
  | mk r m' =>
    cases r with
    | error e =>
      refine iff_of_false (fun h => ?_) (by simp)
      cases h
      exact Tx.eval_throws ht hl rfl
    | ok x =>
      dsimp only
      cases hw : wanted && x.1.isNone with
      | true =>
        rw [Bool.and_eq_true, Option.isNone_iff_eq_none] at hw
        constructor
        · intro h
          cases h
          exact ⟨hw.1, x.2, by rw [← hw.2]⟩
        · rintro ⟨-, ws, h⟩
          cases h
          rfl
      | false =>
        refine iff_of_false (by simp) ?_
        rintro ⟨rfl, ws, h⟩
        cases h
        cases hw

/-- The rule of a completion. -/
theorem resolveJourneyRef_eq (orgId : Id) (jc : JourneyContext) (supplied : Option String) :
    resolveJourneyRef orgId jc supplied =
      demanding (jc.ticket.visitId.isSome && jc.acceptsRef)
        (resolveJourneyRef.refOf orgId jc supplied jc.ticket.visitId) := rfl

theorem transferRef_eq (orgId : Id) (t : Ticket) (source target : Bool) (supplied : Option String) :
    transferRef orgId t source target supplied =
      demanding (t.visitId.isSome && source)
        (transferRef.refOf orgId t source target supplied t.visitId) := rfl

/-! ## Agreement -/

/-- **The rule is the database's**, of a ticket that is completed with the number `supplied`. -/
structure RulesAgree (orgId : Id) (t : Ticket) (supplied : Option String) (rule : TTx (Option String))
    (s : Db) : Prop where
  /-- It asks for a number where the database rejects the ticket without one. -/
  asks : trimmed supplied = none → ((∃ env n ws m, rule.eval env n [] s = (.ok (none, ws), m)) ↔
    enforceJourneyTicketExternalRef orgId s { t with status := .completed, externalRef := none } = false)
  /-- It asks where neither the request nor the visit has one. -/
  wants : ∀ env n m, rule.eval env n [] s = (.error emptyRef, m) →
    trimmed supplied = none ∧ visitNumber orgId t s = none
  /-- It takes the number that is supplied where the step of the ticket accepts one. -/
  accepts : ∀ r, trimmed supplied = some r → ∀ env n o ws m, rule.eval env n [] s = (.ok (o, ws), m) →
    (o = some r ↔ (t.visitId.isSome && acceptsRef orgId t s) = true)

theorem agrees_of (ht : lookup.Throws (· ≠ emptyRef))
    (hw : wanted = (t.visitId.isSome && acceptsRef orgId t s))
    (hno : wanted = false → trimmed supplied = none →
      ∃ env n ws m, lookup.eval env n [] s = (.ok (none, ws), m))
    (hwants : wanted = true → ∀ env n ws m, lookup.eval env n [] s = (.ok (none, ws), m) →
      trimmed supplied = none ∧ visitNumber orgId t s = none)
    (haccepts : ∀ r, trimmed supplied = some r → ∀ env n o ws m,
      lookup.eval env n [] s = (.ok (o, ws), m) → (o = some r ↔ wanted = true)) :
    RulesAgree orgId t supplied (demanding wanted lookup) s where
  asks hs := by
    rw [enforce_completed, ← hw]
    constructor
    · rintro ⟨env, n, ws, m, h⟩
      simpa using (eval_demanding_ok.mp h).2
    · intro hwanted
      obtain ⟨env, n, ws, m, h⟩ := hno hwanted hs
      exact ⟨env, n, ws, m, eval_demanding_ok.mpr ⟨h, by rw [hwanted]; rfl⟩⟩
  wants env n m h := by
    obtain ⟨hwanted, ws, h⟩ := (eval_demanding_error ht).mp h
    exact hwants hwanted env n ws m h
  accepts r hr env n o ws m h := by
    rw [← hw]
    exact haccepts r hr env n o ws m (eval_demanding_ok.mp h).1

theorem agrees_of_nothing (hw : wanted = (t.visitId.isSome && acceptsRef orgId t s))
    (h : wanted = true → trimmed supplied = none ∧ visitNumber orgId t s = none) :
    RulesAgree orgId t supplied (demanding wanted (.pure none)) s := by
  refine agrees_of trivial hw (fun _ _ => ⟨⟨fun _ => 0, 0⟩, 0, [], 0, rfl⟩)
    (fun hwanted _ _ _ _ _ => h hwanted) fun r hr env n o ws m ho => ?_
  cases ho
  refine iff_of_false nofun fun hwanted => ?_
  rw [(h hwanted).1] at hr
  cases hr

/-- Where the number is looked for in the request and the visit. -/
theorem agrees_of_resolve (hv : t.visitId = some v) (ha : acceptsRef orgId t s = true)
    (hr : ∀ r, trimmed supplied = some r → trimmed ref = some r) :
    RulesAgree orgId t supplied (demanding true (resolveVisitExternalRef orgId v ref)) s := by
  refine agrees_of throws_resolve (by rw [hv, ha]; rfl) nofun (fun _ env n ws m h => ?_)
    fun r hs env n o ws m h => ?_
  · obtain ⟨hsome, hnone, -⟩ := gives_resolveVisitExternalRef (s := s) (Tx.gives_of_eval h)
    refine ⟨?_, ?_⟩
    · cases hs : trimmed supplied with
      | none => rfl
      | some r => exact absurd (hsome r (hr r hs)) nofun
    · unfold visitNumber
      rw [hv]
      exact (hnone rfl).2
  · obtain ⟨hsome, -, -⟩ := gives_resolveVisitExternalRef (s := s) (Tx.gives_of_eval h)
    exact iff_of_true (hsome r (hr r hs)) rfl

/-- **The rule of a completion agrees.** -/
theorem agrees_complete (orgId : Id) (s : Db) (t : Ticket) (supplied : Option String) :
    RulesAgree orgId t supplied
      (resolveJourneyRef orgId ⟨t, stepRoleOf orgId t.queueId s⟩ supplied) s := by
  rw [resolveJourneyRef_eq]
  show RulesAgree orgId t supplied (demanding (t.visitId.isSome && acceptsRef orgId t s)
    (resolveJourneyRef.refOf orgId _ supplied t.visitId)) s
  cases hv : t.visitId with
  | none => exact agrees_of_nothing (by rw [hv]) nofun
  | some v =>
    show RulesAgree orgId t supplied (demanding (acceptsRef orgId t s)
      (if acceptsRef orgId t s then
          resolveVisitExternalRef orgId v (supplied.orElse fun _ => t.externalRef)
        else pure none)) s
    cases ha : acceptsRef orgId t s with
    | false => exact agrees_of_nothing (by rw [hv, ha]; rfl) nofun
    | true =>
      refine agrees_of_resolve hv ha fun r hr => ?_
      cases supplied with
      | none => cases hr
      | some x => exact hr

/-- **The rule of a transfer agrees** where both steps accept a number or neither does; else only where
none is supplied and, if it is the first that accepts one, the visit has none. -/
theorem agrees_transfer_iff (hvisit : ∀ v, t.visitId = some v → ∃ visit, s.get .visit v = some visit ∧
      visit.orgId = orgId) (target : Bool) :
    RulesAgree orgId t supplied (transferRef orgId t (acceptsRef orgId t s) target supplied) s ↔
      t.visitId = none ∨ acceptsRef orgId t s = target ∨
        (trimmed supplied = none ∧ (acceptsRef orgId t s = true → visitNumber orgId t s = none)) := by
  rw [transferRef_eq]
  cases hv : t.visitId with
  | none => exact iff_of_true (agrees_of_nothing (by rw [hv]) nofun) (Or.inl rfl)
  | some v =>
    rw [or_iff_right (by simp)]
    show RulesAgree orgId t supplied (demanding (acceptsRef orgId t s)
      (if target && (trimmed supplied).isSome then resolveVisitExternalRef orgId v supplied
        else if target && acceptsRef orgId t s then resolveVisitExternalRef orgId v t.externalRef
        else pure none)) s ↔ _
    cases ha : acceptsRef orgId t s with
    | false =>
      have hw : false = (t.visitId.isSome && acceptsRef orgId t s) := by rw [ha, Bool.and_false]
      cases target with
      | false => exact iff_of_true (agrees_of_nothing hw nofun) (Or.inl rfl)
      | true =>
        rw [Bool.true_and, Bool.true_and]
        cases hs : trimmed supplied with
        | none => exact iff_of_true (agrees_of_nothing hw nofun) (Or.inr ⟨rfl, nofun⟩)
        | some r =>
          -- The number is taken, though the step of the ticket accepts none.
          refine iff_of_false (fun h => ?_) (by simp)
          obtain ⟨visit, hrow, ho⟩ := hvisit v hv
          have htaken := (h.accepts r hs ⟨fun _ => 0, 0⟩ 0 _ _ _ (eval_demanding_ok.mpr
            ⟨eval_resolve_supplied hs hrow ho, rfl⟩)).mp rfl
          rw [← hw] at htaken
          cases htaken
    | true =>
      cases target with
      | true =>
        refine iff_of_true ?_ (Or.inl rfl)
        rw [Bool.true_and, Bool.true_and]
        cases hs : trimmed supplied with
        | none => exact agrees_of_resolve hv ha fun r hr => by rw [hs] at hr; cases hr
        | some r => exact agrees_of_resolve hv ha fun r hr => hr
      | false =>
        -- Nothing is looked for, and the number is wanted.
        constructor
        · intro h
          have hpure : (Tx.pure none : TTx (Option String)).Throws (· ≠ emptyRef) := trivial
          have hasked := h.wants ⟨fun _ => 0, 0⟩ 0 0 ((eval_demanding_error hpure).mpr ⟨rfl, [], rfl⟩)
          exact Or.inr ⟨hasked.1, fun _ => hasked.2⟩
        · rintro (h | ⟨hs, hnone⟩)
          · cases h
          · exact agrees_of_nothing (by rw [hv, ha]; rfl) fun _ => ⟨hs, hnone rfl⟩

/-! ## What is written -/

section Written

variable {C : DbWrite → Bool} {r : Request} {id src : Id} {jc : JourneyContext} {done : Finalized}

theorem stepRoleOf_congr {queueId : Id} (h : b.get .queue queueId = a.get .queue queueId) :
    stepRoleOf orgId queueId b = stepRoleOf orgId queueId a := by
  rw [stepRoleOf, h]
  rfl

theorem Effect.stepRole (h : Effect C r a b) (hr : r.updatesQueue = false) (orgId queueId : Id) :
    stepRoleOf orgId queueId b = stepRoleOf orgId queueId a := by
  cases h with
  | aside h =>
    cases h with
    | visit h => exact stepRoleOf_congr (h.2.get_ne (by simp))
    | customer h => exact stepRoleOf_congr (h.2.get_ne (by simp))
    | flowStep h => exact stepRoleOf_congr (h.2.get_ne (by simp))
    | @queue i q q' h hn =>
      by_cases hi : queueId = i
      · subst hi
        unfold stepRoleOf
        rw [h.2.get_self, h.2.get_old]
        have hseen : visible (.tenant orgId) .queue q' = visible (.tenant orgId) .queue q := by
          rw [hn]
          rfl
        have hrole : q'.stepRole = q.stepRole := by
          rw [hn]
        rw [Option.filter_some, Option.filter_some, hseen]
        split
        · exact hrole
        · rfl
      · exact stepRoleOf_congr (h.2.get_ne (by simpa using hi))
  | moved h _ _ => exact stepRoleOf_congr (h.2.get_ne (by simp))
  | overwritten _ h _ => exact stepRoleOf_congr (h.2.get_ne (by simp))
  | issued _ h _ => exact stepRoleOf_congr (h.2.get_ne (by simp))
  | queue hq _ =>
    rw [hr] at hq
    cases hq

theorem stepRole_steps (h : ReflTransGen (Effect C r) a b) (hr : r.updatesQueue = false)
    (orgId queueId : Id) : stepRoleOf orgId queueId b = stepRoleOf orgId queueId a := by
  induction h with
  | refl => rfl
  | tail _ hs ih => rw [hs.stepRole hr, ih]

theorem transitioned_number (current : Ticket) (toStatus : TicketStatus) (data : TransitionData)
    (now : Time) (t : Ticket) :
    let t' := transitioned current toStatus data now t
    t'.visitId = t.visitId ∧ t'.queueId = t.queueId ∧ t'.stepIndex = t.stepIndex ∧
      t'.externalRef = data.externalRef.orElse fun _ => t.externalRef := by
  unfold transitioned
  dsimp only
  split <;> split <;> exact ⟨rfl, rfl, rfl, rfl⟩

theorem gives_demanding : (demanding wanted lookup).gives s o s' ↔
    lookup.gives s o s' ∧ (wanted && o.isNone) = false := by
  unfold demanding
  rw [Tx.bind_eq, Tx.gives_bind]
  constructor
  · rintro ⟨x, m, hx, h⟩
    obtain ⟨_, hno, h⟩ := gives_still (confined_throwIf _ _) h
    obtain ⟨rfl, rfl⟩ := h
    exact ⟨hx, (gives_throwIf.mp hno).1⟩
  · rintro ⟨hx, hno⟩
    exact ⟨o, s', hx, Tx.gives_bind.mpr ⟨(), s', gives_throwIf.mpr ⟨hno, rfl⟩, rfl, rfl⟩⟩

/-- **A completion has its number**: one for the trigger, wherever it is wanted. -/
theorem gives_resolveJourneyRef (h : (resolveJourneyRef orgId jc supplied).gives s o s')
    (hv : jc.ticket.visitId.isSome = true) (ha : jc.acceptsRef = true) : hasNumber o = true := by
  rw [resolveJourneyRef_eq, gives_demanding, hv, ha] at h
  obtain ⟨h, hsome⟩ := h
  obtain ⟨v, hvisit⟩ := Option.isSome_iff_exists.mp hv
  rw [hvisit] at h
  unfold resolveJourneyRef.refOf at h
  dsimp only at h
  rw [if_pos ha] at h
  cases o with
  | none => cases hsome
  | some ref => exact (gives_resolveVisitExternalRef h).2.2 ref rfl

/-- **A transfer has its number.** -/
theorem gives_transferRef {source target : Bool}
    (h : (transferRef orgId t source target supplied).gives s o s')
    (hv : t.visitId.isSome = true) (ha : source = true) : hasNumber o = true := by
  rw [transferRef_eq, gives_demanding, hv, ha] at h
  obtain ⟨h, hsome⟩ := h
  obtain ⟨v, hvisit⟩ := Option.isSome_iff_exists.mp hv
  rw [hvisit] at h
  unfold transferRef.refOf at h
  dsimp only at h
  cases o with
  | none => cases hsome
  | some ref =>
    split at h
    · exact (gives_resolveVisitExternalRef h).2.2 ref rfl
    · split at h
      · exact (gives_resolveVisitExternalRef h).2.2 ref rfl
      · cases h.1

theorem gives_findJourneyContext (ht : s.get .ticket src = some t)
    (h : (findJourneyContext orgId src).gives s jc s') : jc = ⟨t, stepRoleOf orgId t.queueId s⟩ := by
  obtain ⟨o, ho, h⟩ := gives_still confined_findById h
  obtain ⟨x, hx, h⟩ := gives_still (confined_orThrow _ _) h
  obtain ⟨q, hq, h⟩ := gives_still confined_findById h
  obtain ⟨rfl, -⟩ := gives_orThrow.mp hx
  have hrow := (Option.filter_eq_some_iff.mp (gives_findById.mp ho).1.symm).1
  obtain rfl : x = t := Option.some.inj (hrow.symm.trans ht)
  obtain ⟨rfl, -⟩ := gives_findById.mp hq
  exact h.1

theorem gives_finalizeTx_number (ht : s.get .ticket src = some t) (hst : t.status ≠ .completed)
    (h : (finalizeTx orgId src .completed supplied jc).gives s done s')
    (hv : jc.ticket.visitId.isSome = true) (ha : jc.acceptsRef = true) :
    ∃ x, s'.get .ticket src = some x ∧ hasNumber x.externalRef = true := by
  obtain ⟨o, m1, hlock, h1⟩ := h.seq
  obtain ⟨locked, hlocked, h2⟩ := gives_still (confined_orThrow _ _) h1
  obtain ⟨rfl, -⟩ := gives_orThrow.mp hlocked
  obtain ⟨hrow, -, -⟩ := gives_forUpdate hlock
  obtain rfl : t = locked := Option.some.inj (ht.symm.trans hrow)
  rw [if_neg hst] at h2
  obtain ⟨res, m2, -, h3⟩ := h2.seq
  obtain ⟨_, -, h4⟩ := gives_still (confined_throwIf _ _) h3
  obtain ⟨ref, m3, href, h5⟩ := h4.seq
  obtain ⟨issued, m4, -, h6⟩ := h5.seq
  obtain ⟨completedAt, -, h7⟩ := gives_still confined_now h6
  obtain ⟨terminal, m5, htrans, h8⟩ := h7.seq
  obtain ⟨-, rfl⟩ := h8
  have hnumber := gives_resolveJourneyRef href hv ha
  obtain ⟨t', now, -, rfl, m, -, hw⟩ := (triple_transitionTicketCore (C := anyWrite)
    (e := .recordNotFound) (G := alone) (P := Eq)).gives htrans
  refine ⟨_, hw.2.get_self, ?_⟩
  rw [(transitioned_number _ _ _ _ _).2.2.2, if_pos ha]
  cases ref with
  | none => cases hnumber
  | some r => exact hnumber

/-- What a transaction leaves of the ticket `src`, and the tickets it has made, pass the trigger. -/
def PassesTrigger (orgId src : Id) (s s' : Db) : Prop :=
  ∀ id x, id = src ∨ s.get .ticket id = none → s'.get .ticket id = some x →
    enforceJourneyTicketExternalRef orgId s' x = false

/-- **A completion is not rejected.** -/
theorem passes_finalizeTx (ht : s.get .ticket src = some t) (hst : t.status ≠ .completed)
    (hjc : (findJourneyContext orgId src).gives s jc a)
    (h : (finalizeTx orgId src .completed supplied jc).gives s done s') :
    PassesTrigger orgId src s s' := by
  obtain rfl := gives_findJourneyContext ht hjc
  have hsteps := (confined_finalizeTx (C := anyWrite) (e := .recordNotFound) (G := alone)
    (r := .complete orgId src supplied .classic) rfl (by decide)).gives h
  obtain ⟨m, res, m', -, -, hfin⟩ := gives_finalizeTx ht rfl hst h
  rintro id x (rfl | hnew) hx
  · refine enforce_eq_false fun hv _ ha => ?_
    obtain ⟨data, now, hrow⟩ := hfin.finished
    obtain rfl := Option.some.inj (hx.symm.trans hrow)
    obtain ⟨hvisit, hqueue, hstep, -⟩ := transitioned_number t .completed data now t
    rw [hvisit] at hv
    rw [acceptsRef, hqueue, hstep, stepRole_steps hsteps rfl] at ha
    obtain ⟨y, hy, hnumber⟩ := gives_finalizeTx_number ht hst h hv ha
    rwa [Option.some.inj (hx.symm.trans hy)]
  · refine enforce_eq_false fun _ hcompleted _ => ?_
    have hne : id ≠ src := by
      rintro rfl
      rw [ht] at hnew
      cases hnew
    cases hn : res.nextStep with
    | none =>
      rw [hfin.last hn id hne, hnew] at hx
      cases hx
    | some next =>
      obtain ⟨y, ⟨q, ref, m1, m2, -, -, -, -, hissue⟩, -, -, hy, hrest⟩ := hfin.next next hn
      by_cases hid : id = y.1
      · subst hid
        obtain rfl := Option.some.inj (hx.symm.trans hy)
        obtain ⟨⟨_, _, _, _, _, _, _, hrow, -, -⟩, -⟩ := gives_issueTicketCore hissue
        rw [hrow] at hcompleted
        simp only [issuedTicket, advanceData, Option.getD_some] at hcompleted
        split at hcompleted <;> cases hcompleted
      · rw [hrest id hne hid, hnew] at hx
        cases hx

theorem gives_planTransfer_ref {targetQueueId : Option Id} {desk : Option String} {plan : TransferPlan}
    (h : (planTransfer orgId t targetQueueId desk supplied).gives s plan s')
    (hv : t.visitId.isSome = true) (ha : acceptsRef orgId t s = true) :
    hasNumber plan.externalRef = true := by
  obtain ⟨queue, hqueue, h⟩ := gives_still confined_findById h
  obtain ⟨rfl, -⟩ := gives_findById.mp hqueue
  obtain ⟨target, -, h⟩ := gives_still confined_transferTarget h
  obtain ⟨_, -, h⟩ := gives_still confined_findById h
  obtain ⟨targetQueue, -, h⟩ := gives_still (confined_orThrow _ _) h
  obtain ⟨_, -, h⟩ := gives_still confined_resolveQueueCallingPolicy h
  obtain ⟨number, m, -, h⟩ := h.seq
  obtain ⟨ref, m', href, h⟩ := h.seq
  obtain ⟨rfl, -⟩ := h
  exact gives_transferRef href hv ha

/-- **A transfer is not rejected.** -/
theorem passes_transferTx {targetQueueId : Option Id} {desk : Option String} {surface : ActionSurface}
    {x : Id × Ticket} (ht : s.get .ticket src = some t)
    (h : (transferTx orgId src targetQueueId desk supplied surface).gives s x s') :
    PassesTrigger orgId src s s' := by
  have hsteps := (confined_transferTx (C := anyWrite) (e := .recordNotFound) (G := alone)
    (r := .transfer orgId src targetQueueId desk supplied surface) rfl rfl).gives h
  obtain ⟨_, -, h⟩ := gives_still confined_assertActionSurfaceForTicket h
  obtain ⟨o, ho, h⟩ := gives_still confined_findById h
  obtain ⟨t', hfound, h⟩ := gives_still (confined_orThrow _ _) h
  obtain ⟨rfl, -⟩ := gives_orThrow.mp hfound
  have hrow := (Option.filter_eq_some_iff.mp (gives_findById.mp ho).1.symm).1
  obtain rfl : t = t' := Option.some.inj (ht.symm.trans hrow)
  obtain ⟨_, -, h⟩ := gives_still (confined_assertClassicDesk _ _) h
  obtain ⟨_, -, h⟩ := gives_still confined_assertStaffQueueActionAllowed h
  obtain ⟨plan, m, hplan, h⟩ := h.seq
  have hsame : TicketsUntouched s m := untouched_steps
    ((confined_planTransfer (C := anyWrite) (e := .recordNotFound) (G := alone)).gives hplan)
  have hsrc : m.get .ticket src = some t := (hsame src).trans ht
  obtain ⟨now, -, h⟩ := gives_still confined_now h
  by_cases hv : t.visitId.isSome = true
  · rw [if_pos hv] at h
    obtain ⟨_, m', hout, h⟩ := h.seq
    obtain ⟨id', m'', hcreate, h⟩ := h.seq
    obtain ⟨-, rfl⟩ := h
    obtain ⟨r, -, hw⟩ := gives_update hout
    obtain rfl : t = r := Option.some.inj (hsrc.symm.trans hw.2.get_old)
    have hw' := gives_create hcreate
    have hne : id' ≠ src := by
      rintro rfl
      have hold := hw'.2.get_old
      rw [hw.2.get_self] at hold
      cases hold
    rintro id y (rfl | hnew) hy
    · refine enforce_eq_false fun _ _ ha => ?_
      obtain rfl := Option.some.inj (hy.symm.trans ((hw'.2.get_ne (by simpa using hne.symm)).trans
        hw.2.get_self))
      have haccepts : acceptsRef orgId t s = true := by
        rw [acceptsRef, stepRole_steps hsteps rfl] at ha
        exact ha
      have hnumber := gives_planTransfer_ref hplan hv haccepts
      show hasNumber (plan.externalRef.orElse fun _ => t.externalRef) = true
      cases hplanned : plan.externalRef with
      | none =>
        rw [hplanned] at hnumber
        cases hnumber
      | some ref => rwa [hplanned] at hnumber
    · refine enforce_eq_false fun _ hcompleted _ => ?_
      by_cases hid : id = id'
      · subst hid
        obtain rfl := Option.some.inj (hy.symm.trans hw'.2.get_self)
        simp only [transferredTicket] at hcompleted
        split at hcompleted <;> cases hcompleted
      · have hidsrc : id ≠ src := by
          rintro rfl
          rw [ht] at hnew
          cases hnew
        rw [hw'.2.get_ne (by simpa using hid), hw.2.get_ne (by simpa using hidsrc), hsame id, hnew] at hy
        cases hy
  · rw [if_neg hv] at h
    obtain ⟨updated, m', hout, h⟩ := h.seq
    obtain ⟨-, rfl⟩ := h
    obtain ⟨r, -, hw⟩ := gives_update hout
    obtain rfl : t = r := Option.some.inj (hsrc.symm.trans hw.2.get_old)
    rintro id y (rfl | hnew) hy
    · obtain rfl := Option.some.inj (hy.symm.trans hw.2.get_self)
      exact enforce_eq_false fun hvisit _ _ => absurd hvisit hv
    · have hidsrc : id ≠ src := by
        rintro rfl
        rw [ht] at hnew
        cases hnew
      rw [hw.2.get_ne (by simpa using hidsrc), hsame id, hnew] at hy
      cases hy

end Written

/-! ## The four rules -/

/-- **The rules on transaction numbers agree** exactly where the two steps of a transfer both accept a
number or neither does, or none is supplied and the visit has none that the first of them wants. The
trigger rejects neither a completion nor a transfer. -/
theorem numbers_agree_iff (orgId : Id) (s : Db) (t : Ticket) (supplied : Option String)
    (target : TransferTarget) (targetQueue : Queue)
    (hvisit : ∀ v, t.visitId = some v → ∃ visit, s.get .visit v = some visit ∧ visit.orgId = orgId) :
    (RulesAgree orgId t supplied
          (resolveJourneyRef orgId ⟨t, stepRoleOf orgId t.queueId s⟩ supplied) s ∧
        RulesAgree orgId t supplied (transferRef orgId t (acceptsRef orgId t s)
          (journeyStepAcceptsExternalRef target.stepIndex targetQueue.stepRole) supplied) s ↔
      t.visitId = none ∨
        acceptsRef orgId t s = journeyStepAcceptsExternalRef target.stepIndex targetQueue.stepRole ∨
        (trimmed supplied = none ∧ (acceptsRef orgId t s = true → visitNumber orgId t s = none))) ∧
    ∀ src, s.get .ticket src = some t →
      (t.status ≠ .completed → ∀ jc a done s', (findJourneyContext orgId src).gives s jc a →
        (finalizeTx orgId src .completed supplied jc).gives s done s' → PassesTrigger orgId src s s') ∧
      ∀ targetQueueId desk surface x s',
        (transferTx orgId src targetQueueId desk supplied surface).gives s x s' →
          PassesTrigger orgId src s s' :=
  ⟨(and_iff_right (agrees_complete orgId s t supplied)).trans (agrees_transfer_iff hvisit _),
    fun _ ht => ⟨fun hst _ _ _ _ hjc h => passes_finalizeTx ht hst hjc h,
      fun _ _ _ _ _ h => passes_transferTx ht h⟩⟩

/-- A transfer to the second step, with no number yet. -/
theorem numbers_agree_iff_shop :
    RulesAgree 1 atFirstStep none (transferRef 1 atFirstStep (acceptsRef 1 atFirstStep journeyShop)
      (journeyStepAcceptsExternalRef (some 1) (some .service)) none) journeyShop := by
  have hvisit : ∀ v, atFirstStep.visitId = some v → ∃ visit,
      journeyShop.get .visit v = some visit ∧ visit.orgId = 1 := by
    intro v hv
    cases hv
    exact ⟨{ orgId := 1, branchId := 1 }, by decide +kernel, rfl⟩
  let targetQueue : Queue :=
    { orgId := 1, branchId := 1, serviceId := 2, name := "Wash", pre := "W", stepRole := some .service }
  exact ((numbers_agree_iff 1 journeyShop atFirstStep none ⟨2, some 1⟩ targetQueue hvisit).1.mpr
    (Or.inr (Or.inr ⟨rfl, fun _ => by decide +kernel⟩))).2

def atLastStep : Ticket := { atFirstStep with queueId := 2, serviceId := 2, stepIndex := some 1 }

def lastStepShop : Db := shop true [(1, { orgId := 1, branchId := 1 })] [(1, atLastStep)]

/-- **A transfer with a number fails for want of one**: back from the last step to the first queue. -/
theorem exists_unheard : ((transfer 1 1 (some 1) none (some "R-1") .workbench).eval
      ⟨fun _ => 0, 0⟩ 0 lastStepShop).answer = .error emptyRef ∧
    ¬ ∀ (s : Db) (t : Ticket) (supplied : Option String) (target : TransferTarget) (targetQueue : Queue),
      (∀ v, t.visitId = some v → ∃ visit, s.get .visit v = some visit ∧ visit.orgId = 1) →
      RulesAgree 1 t supplied (transferRef 1 t (acceptsRef 1 t s)
        (journeyStepAcceptsExternalRef target.stepIndex targetQueue.stepRole) supplied) s := by
  refine ⟨by decide +kernel, fun h => ?_⟩
  have hvisit : ∀ v, atLastStep.visitId = some v → ∃ visit,
      lastStepShop.get .visit v = some visit ∧ visit.orgId = 1 := by
    intro v hv
    cases hv
    exact ⟨{ orgId := 1, branchId := 1 }, by decide +kernel, rfl⟩
  have hagrees := h lastStepShop atLastStep (some "R-1") ⟨1, none⟩
    { orgId := 1, branchId := 1, serviceId := 1, name := "Cut", pre := "C" } hvisit
  have haccepts : acceptsRef 1 atLastStep lastStepShop = true := by decide +kernel
  have hnumber : trimmed (some "R-1") = some "R-1" := by decide +kernel
  rcases (agrees_transfer_iff hvisit _).mp hagrees with hv | hsame | ⟨hnone, -⟩
  · cases hv
  · rw [haccepts] at hsame
    cases hsame
  · rw [hnumber] at hnone
    cases hnone

end PatronLoyalty.Ticketing
