import PatronLoyalty.Loyalty.Accounting

/-!
# Integration earns and their transaction id

`earnPoints` looks for the transaction id in the whole organisation, in a transaction of its own,
and posts later, under an index that is per account. Two requests that overlap between the check and
the row may both post, or both answer that they did.

`Guarded` is the run condition under which they do not: past its check a request moves only while no
row is there but its own. `reach_committedOnce` says what then holds, and `both_commit` shows a run
outside it.

A request is `Waiting` from its check to its row and `Posted` from then on.
-/

namespace PatronLoyalty.Loyalty

open Txn Relation

/-- A transaction of an outside system, in one organisation. -/
structure TxnId where
  orgId : Id
  externalTxnId : String

/-- The answer says that points were earned: `idempotent: false`. -/
def fresh : Except Err Answer → Bool
  | .ok (.earn ans) => !ans.idempotent
  | _ => false

namespace TxnId

variable (t : TxnId)

def isRow (l : LoyaltyPointLedger) : Bool :=
  l.orgId == t.orgId && l.type == .earn && l.sourceType == some "integration" &&
    l.sourceId == some t.externalTxnId

def rows (s : Db) : List LoyaltyPointLedger := s.log.filter t.isRow

def carries : Request → Bool
  | .earnPoints orgId data => orgId == t.orgId && data.externalTxnId == t.externalTxnId
  | _ => false

/-- The request has committed a row of the transaction id. -/
def committed (h : Hist) : Bool := h.any fun
  | .commit a b => decide (t.rows b ≠ t.rows a)
  | _ => false

/-- **The run condition.** A request that has made its duplicate check and has no row of its own goes
on only while there is no row, and one that has committed its row does not end in an error. -/
def Guarded (reqs : List Request) (c : Run) (i : ℕ) : Prop :=
  reqs[i]?.any t.carries = true →
    (c.ends i = false → checked (c.histOf i) = true → t.committed (c.histOf i) = false →
      t.rows c.db = []) ∧
    (t.committed (c.histOf i) = true → c.fails i = false)

instance (reqs : List Request) (c : Run) (i : ℕ) : Decidable (t.Guarded reqs c i) :=
  inferInstanceAs (Decidable (_ → _ ∧ _))

/-- A row of the transaction id is posted only where there is none. -/
def Once (s : Db) (l : LoyaltyPointLedger) : Prop := t.isRow l = true → t.rows s = []

end TxnId

/-! ## Rows -/

section

variable {t : TxnId} {a b s : Db}

theorem txn_isRow_iff {l : LoyaltyPointLedger} :
    t.isRow l = true ↔ l.orgId = t.orgId ∧ l.type = .earn ∧ l.sourceType = some "integration" ∧
      l.sourceId = some t.externalTxnId := by
  simp [TxnId.isRow, and_assoc]

theorem txn_rows_of_log (h : b.log = a.log) : t.rows b = t.rows a := by
  unfold TxnId.rows
  rw [h]

theorem mem_txn_rows {l : LoyaltyPointLedger} :
    l ∈ t.rows s ↔ l ∈ s.log ∧ t.isRow l = true := List.mem_filter

theorem once_policy : Policy t.Once where
  internal {s l} h hl := by
    obtain ⟨-, -, hst, -⟩ := txn_isRow_iff.mp hl
    rcases h with h | h | h | h <;>
    · rw [h] at hst
      simp at hst
  bonus {s l} h hl := by
    obtain ⟨-, -, hst, -⟩ := txn_isRow_iff.mp hl
    obtain ⟨-, -, -, -, -, hst', -⟩ := h
    rw [hst'] at hst
    simp at hst

/-- **Every step keeps the id to one row.** -/
theorem Step.rows_once (h : Step t.Once a b) (ha : (t.rows a).length ≤ 1) :
    (t.rows b).length ≤ 1 := by
  rcases h.log with hlog | ⟨l, hP, hlog⟩
  · rw [txn_rows_of_log hlog]
    exact ha
  · unfold TxnId.rows at ha ⊢
    rw [hlog, List.filter_append, List.length_append, List.filter_singleton]
    cases hrow : t.isRow l with
    | true =>
      have hnil : a.log.filter t.isRow = [] := hP hrow
      rw [hnil]
      exact le_rfl
    | false => exact ha

end

/-! ## The phases of a request -/

def Unanswered (h : Hist) : Prop := ∀ r, .answer r ∉ h

namespace TxnId

variable (t : TxnId)

/-- Past its check, with no row of its own. -/
structure Waiting (h : Hist) : Prop where
  unanswered : Unanswered h
  checked : checked h = true
  uncommitted : t.committed h = false

/-- Its row is committed. -/
structure Posted (h : Hist) : Prop where
  unanswered : Unanswered h
  committed : t.committed h = true

/-- An answer that is no error tells whether the request committed the row. -/
def Truthful (h : Hist) : Prop :=
  ∀ ans, .answer (.ok ans) ∈ h → fresh (.ok ans) = t.committed h

/-- What a request that carries the id relies on. -/
structure Lone (h : Hist) (s : Db) : Prop where
  kept : WellKept s
  lone : Loyalty.checked h = true → t.committed h = false → t.rows s = []

abbrev onceStep : Guarantee Db := bookGuarantee t.Once

/-- A part of a request whose history is `K`. -/
def phase (K : Hist → Prop) : Protocol Db Err Ev Answer t.onceStep where
  cond := t.Lone
  keeps h _ := K h
  keeps_stable _ h := h

end TxnId

section

variable {t : TxnId} {h : Hist} {a b s : Db} {e : Entry Db Err Ev Answer}

theorem unanswered_snoc (hu : Unanswered h) (he : ∀ r, e ≠ .answer r) : Unanswered (h ++ [e]) := by
  intro r hm
  rcases mem_snoc.mp hm with hm | hm
  · exact hu r hm
  · exact he r hm.symm

theorem committed_snoc :
    t.committed (h ++ [e]) = (t.committed h || t.committed [e]) := List.any_append

theorem committed_single (a b : Db) : t.committed [.commit a b] = decide (t.rows b ≠ t.rows a) :=
  Bool.or_false _

theorem truthful_of_unanswered (hu : Unanswered h) : t.Truthful h :=
  fun _ hm => absurd hm (hu _)

theorem truthful_answer {r : Except Err Answer} (hu : Unanswered h)
    (hr : ∀ ans, r = .ok ans → fresh (.ok ans) = t.committed h) :
    t.Truthful (h ++ [.answer r]) := by
  intro ans hm
  rw [committed_snoc, show t.committed [.answer r] = false from rfl, Bool.or_false]
  rcases mem_snoc.mp hm with hm | hm
  · exact absurd hm (hu _)
  · cases hm
    exact hr ans rfl

theorem TxnId.Waiting.snoc (hw : t.Waiting h) (he : ∀ r, e ≠ .answer r)
    (hc : t.committed [e] = false) : t.Waiting (h ++ [e]) where
  unanswered := unanswered_snoc hw.unanswered he
  checked := by rw [checked_snoc, hw.checked, Bool.true_or]
  uncommitted := by rw [committed_snoc, hw.uncommitted, hc, Bool.or_false]

theorem TxnId.Posted.snoc (hp : t.Posted h) (he : ∀ r, e ≠ .answer r) : t.Posted (h ++ [e]) where
  unanswered := unanswered_snoc hp.unanswered he
  committed := by rw [committed_snoc, hp.committed, Bool.true_or]

theorem txn_waiting_quiet : (t.phase t.Waiting).Quiet where
  read _ s hw := by
    refine TxnId.Waiting.snoc hw (fun _ he => by cases he) ?_
    rw [committed_single]
    exact decide_eq_false (not_not.mpr rfl)
  rollback _ _ _ hw := TxnId.Waiting.snoc hw (fun _ he => by cases he) rfl
  emit _ _ _ hw := TxnId.Waiting.snoc hw (fun _ he => by cases he) rfl

theorem txn_posted_quiet : (t.phase t.Posted).Quiet where
  read _ _ hp := TxnId.Posted.snoc hp fun _ he => by cases he
  rollback _ _ _ hp := TxnId.Posted.snoc hp fun _ he => by cases he
  emit _ _ _ hp := TxnId.Posted.snoc hp fun _ he => by cases he

theorem txn_waiting_provisions : (t.phase t.Waiting).Admits Provisions := by
  intro h s s' _ hw hp
  refine ⟨hp.steps, TxnId.Waiting.snoc hw (fun _ he => by cases he) ?_⟩
  rw [committed_single, txn_rows_of_log hp.log]
  exact decide_eq_false (not_not.mpr rfl)

theorem txn_posted_serves : Serves (t.phase t.Posted) t.Once where
  grows _ _ h := Steps.grows h
  quiet := txn_posted_quiet
  kept _ _ h := h.kept
  steps _ _ _ _ hp h := ⟨h, TxnId.Posted.snoc hp fun _ he => by cases he⟩

end

/-! ## One request -/

section

variable {t : TxnId} {h : Hist} {s : Db}

theorem txn_rows_of_earnedBefore (hst : opts.sourceType = some "integration")
    (hsid : opts.sourceId = some t.externalTxnId)
    (he : EarnedBefore t.orgId accountId .earn opts s) : t.rows s ≠ [] := by
  obtain ⟨st, sid, hsrc, l, hl, ho, -, ht, hlst, hlsid⟩ := he
  obtain ⟨h1, h2⟩ := earnSource_eq_some hsrc
  have hrow : t.isRow l = true :=
    txn_isRow_iff.mpr ⟨ho, ht, hlst.trans (h1.symm.trans hst), hlsid.trans (h2.symm.trans hsid)⟩
  exact List.ne_nil_of_mem (mem_txn_rows.mpr ⟨hl, hrow⟩)

/-- The movement of an integration earn is the row of its transaction id. -/
theorem Posts.txn_committed {m : Movement} {r r' : LoyaltyAccount} {a b : Db}
    (hp : Posts m r r' a b) (ho : m.orgId = t.orgId) (ht : m.type = .earn)
    (hst : m.opts.sourceType = some "integration") (hsid : m.opts.sourceId = some t.externalTxnId) :
    t.committed [.commit a b] = true := by
  have hrow : t.isRow (m.row (m.move r).pointsBalance) = true :=
    txn_isRow_iff.mpr ⟨ho, ht, hst, hsid⟩
  rw [committed_single, decide_eq_true_eq]
  intro heq
  have hlen := congrArg List.length heq
  unfold TxnId.rows at hlen
  rw [hp.log, List.filter_append, List.length_append, List.filter_singleton, hrow] at hlen
  simp at hlen

/-- What the ledger part of a request comes to: its row, or an error and no row. -/
def RowOr (t : TxnId) : Except Err ApplyPointsResult → Hist → Db → Prop
  | .ok res, h, _ => res.idempotent = false ∧ t.Posted h
  | .error _, h, _ => t.Waiting h

variable {accountId : Id} {points : ℤ} {opts : PointsOpts}

theorem TxnId.Waiting.truthful (hw : t.Waiting h) : t.Truthful h :=
  truthful_of_unanswered hw.unanswered

theorem TxnId.Posted.truthful (hp : t.Posted h) : t.Truthful h :=
  truthful_of_unanswered hp.unanswered

theorem TxnId.Waiting.rollback (hw : t.Waiting h) (e : Err) : t.Waiting (h ++ [.rollback e]) :=
  hw.snoc (fun _ he => by cases he) rfl

/-- The commit of the row. -/
theorem TxnId.Waiting.posts {m : Movement} {r r' : LoyaltyAccount} {a b : Db} (hw : t.Waiting h)
    (hp : Posts m r r' a b) (ho : m.orgId = t.orgId) (ht : m.type = .earn)
    (hst : m.opts.sourceType = some "integration") (hsid : m.opts.sourceId = some t.externalTxnId) :
    t.Posted (h ++ [.commit a b]) where
  unanswered := unanswered_snoc hw.unanswered fun _ he => by cases he
  committed := by rw [committed_snoc, hp.txn_committed ho ht hst hsid, Bool.or_true]

section

variable (hst : opts.sourceType = some "integration") (hsid : opts.sourceId = some t.externalTxnId)
  (hw : t.Waiting h)

include hst hsid hw

theorem wp_recovery_txn (hsrc : (earnSource .earn opts).isSome) :
    Call.wp (t.phase t.Truthful) (RowOr t) (loadIdempotentEarnResult t.orgId accountId .earn
      (opts.sourceType.getD "") (opts.sourceId.getD "")) h s := by
  obtain ⟨⟨st, sid⟩, hsrc⟩ := Option.isSome_iff_exists.mp hsrc
  obtain ⟨h1, h2⟩ := earnSource_eq_some hsrc
  have aborted : ∀ e, t.Waiting (h ++ [.rollback e]) := hw.rollback
  rw [h1, h2]
  refine Call.wp_withTx fun s' _ _ =>
    ⟨?_, fun e _ s'' _ _ => ⟨(aborted e).truthful, aborted e⟩⟩
  rw [Tx.wp_do]
  refine wp_findExistingEarnLedger hsrc (did_start (s := s')) (fun s1 l _ hA _ he => ?_)
    (fun s1 _ _ _ _ s2 _ _ => ⟨(aborted _).truthful, aborted _⟩)
  have hnone : t.rows s1 = [] := hA.lone hw.checked hw.uncommitted
  exact absurd hnone (txn_rows_of_earnedBefore hst hsid he)

/-- **The ledger part.** While there is no row of another request, no lookup finds one. -/
theorem wp_applyPoints_txn :
    Call.wp (t.phase t.Truthful) (RowOr t)
      (applyPoints t.orgId accountId points .earn opts) h s := by
  have aborted : ∀ e, t.Waiting (h ++ [.rollback e]) := hw.rollback
  have htx : ∀ s', Tx.wp t.onceStep (t.Lone h)
      (fun res => Did t.onceStep (Applied t.orgId accountId points .earn opts res)) AnyErr
      (applyPointsInTransaction t.orgId accountId points .earn opts) [] s' := fun s' =>
    wp_applyPointsInTransaction (fun _ _ h => Steps.grows h) (fun _ _ => trivial)
      (fun _ _ _ _ _ _ _ => trivial) (fun _ _ _ _ _ _ _ => trivial) fun _ _ _ _ _ _ _ _ => trivial
  refine Call.wp_handle (Call.wp_mono (Q := RowOr t) (fun r h' s' hr => ?_) ?_)
  · cases r with
    | ok res => exact hr
    | error e =>
      dsimp only
      split
      · rename_i hdup
        exact wp_recovery_txn hst hsid hr (Bool.and_eq_true_iff.mp hdup).2
      · exact hr
  · refine Call.wp_bind (Call.wp_withTx fun s' hG hA =>
      ⟨?_, fun e _ s'' _ _ => ⟨(aborted e).truthful, aborted e⟩⟩)
    refine Tx.wp_mono (fun res ws s1 hd s2 hst2 hA2 => ?_)
      (fun e s1 _ s2 _ _ => ⟨(aborted e).truthful, aborted e⟩) (htx s')
    have hnone : t.rows s2 = [] := hA2.lone hw.checked hw.uncommitted
    rcases hd s2 hst2 with ⟨hid, time, r, r', slug, -, hp⟩ | ⟨-, -, he⟩
    · have hposted := hw.posts hp rfl rfl hst hsid
      refine ⟨.single (.post (fun _ => hnone) hp), hposted.truthful, ?_⟩
      dsimp only
      rw [hid, if_neg Bool.false_ne_true]
      have hfire : Ensures (t.phase t.Posted) (fun _ => True)
          (dispatchApplyPointsSideEffects t.orgId accountId res opts)
          (onResult (fun _ _ => True) fun _ _ => False) :=
        Ensures.fireAll txn_posted_quiet (fun _ _ _ _ => trivial) (fun _ _ => trivial) _
      refine Call.wp_bind (Call.wp_mono (fun r h' s' hr => ?_)
        (hfire.phase (t.phase t.Truthful) (fun _ _ hc => hc)
          (fun _ _ hp => TxnId.Posted.truthful hp) hposted trivial))
      obtain ⟨hp', -, hr⟩ := hr
      cases r with
      | ok _ => exact ⟨rfl, hp'⟩
      | error e => exact hr.elim
    · exact absurd hnone (txn_rows_of_earnedBefore hst hsid he)

end

/-- What a request comes to: an answer that is no error tells whether it committed the row. -/
def Finishes (t : TxnId) (r : Except Err EarnAnswer) (h : Hist) (_ : Db) : Prop :=
  Unanswered h ∧ ∀ ans, r = .ok ans → (!ans.idempotent) = t.committed h

theorem wp_waiting_bind {β : Type} {c : LCall β} {f : β → LCall EarnAnswer}
    (hc : Tame (t.phase t.Waiting) c) (hw : t.Waiting h)
    (hf : ∀ b h' s', t.Waiting h' → Call.wp (t.phase t.Truthful) (Finishes t) (f b) h' s') :
    Call.wp (t.phase t.Truthful) (Finishes t) (c.bind f) h s := by
  refine Call.wp_bind (Call.wp_mono (fun r h' s' hr => ?_)
    (hc.phase (t.phase t.Truthful) (fun _ _ hc => hc) (fun _ _ hw => TxnId.Waiting.truthful hw)
      hw trivial))
  cases r with
  | ok b => exact hf b h' s' hr.1
  | error e => exact ⟨TxnId.Waiting.unanswered hr.1, fun ans ha => by cases ha⟩

/-- The ledger part with what follows it. -/
theorem wp_earnIntegrationPoints {description : String} {incrementVisit : Bool}
    (hw : t.Waiting h) :
    Call.wp (t.phase t.Truthful) (fun r h _ => match r with
        | .ok _ => t.Posted h
        | .error _ => Unanswered h)
      (earnIntegrationPoints t.orgId accountId points t.externalTxnId description incrementVisit)
      h s := by
  refine Call.wp_bind (Call.wp_mono (fun r h' s' hr => ?_) (wp_applyPoints_txn rfl rfl hw))
  cases r with
  | error e => exact TxnId.Waiting.unanswered hr
  | ok res =>
    obtain ⟨hid, hp⟩ := hr
    dsimp only
    rw [hid, if_neg Bool.false_ne_true]
    refine Call.wp_mono (fun r h' s' hr => ?_) (Ensures.phase
      (txn_posted_serves.afterIntegrationEarn once_policy res.account.2.customerId points
        incrementVisit res.account)
      (t.phase t.Truthful) (fun _ _ hc => hc) (fun _ _ hp => TxnId.Posted.truthful hp) hp trivial)
    cases r with
    | ok a => exact hr.1
    | error e => exact TxnId.Posted.unanswered hr.1

/-- Past the check. -/
theorem wp_earnNew {data : EarnRequest} (hd : data.externalTxnId = t.externalTxnId)
    (hw : t.Waiting h) :
    Call.wp (t.phase t.Truthful) (Finishes t) (earnNew t.orgId data) h s := by
  have hgrows : ∀ a b, t.onceStep.rel a b → Grows a b := fun _ _ h => Steps.grows h
  refine wp_waiting_bind (resolveCustomerOrThrow_tame txn_waiting_quiet txn_waiting_provisions _)
    hw fun customer h1 s1 hw1 => ?_
  refine wp_waiting_bind (ensureAccountOrThrow_ensures hgrows txn_waiting_quiet
    txn_waiting_provisions _).tame hw1 fun account h2 s2 hw2 => ?_
  refine wp_waiting_bind (integrationPoints_tame txn_waiting_quiet _ _) hw2
    fun points h3 s3 hw3 => ?_
  rw [hd]
  refine Call.wp_bind (Call.wp_mono (fun r h' s' hr => ?_) (wp_earnIntegrationPoints hw3))
  cases r with
  | ok a =>
    refine ⟨TxnId.Posted.unanswered hr, fun ans ha => ?_⟩
    cases ha
    exact (TxnId.Posted.committed hr).symm
  | error e => exact ⟨hr, fun ans ha => by cases ha⟩

/-- **One request**, from its first step on. -/
theorem wp_earnPoints {data : EarnRequest} (hd : data.externalTxnId = t.externalTxnId) :
    Call.wp (t.phase t.Truthful) (Finishes t) (earnPoints t.orgId data) [.start] s := by
  have hstart : Unanswered ([.start] : Hist) := fun r hm => by cases List.mem_singleton.mp hm
  have hgate : Tame (t.phase fun h => h = [.start]) (requireEnabled t.orgId) := requireEnabled_tame
  refine Call.wp_bind (Call.wp_mono (fun r h' s' hr => ?_)
    (hgate.phase (t.phase t.Truthful) (fun _ _ hc => hc)
      (fun _ _ hk => truthful_of_unanswered (hk ▸ hstart)) rfl trivial))
  obtain ⟨rfl, -⟩ := hr
  cases r with
  | error e => exact ⟨hstart, fun ans ha => by cases ha⟩
  | ok _ =>
    -- the duplicate check
    have failed : ∀ e, Unanswered ([.start, .rollback e] : Hist) := fun e =>
      unanswered_snoc hstart fun _ he => by cases he
    have aborted : ∀ e s', t.Truthful [.start, .rollback e] ∧
        Finishes t (.error e) [.start, .rollback e] s' := fun e s' =>
      ⟨truthful_of_unanswered (failed e), failed e, fun ans ha => by cases ha⟩
    refine Call.wp_bind (Call.wp_withTx fun s0 _ _ => ⟨?_, fun e _ s1 _ _ => aborted e s1⟩)
    have hfind : Tx.wp t.onceStep (t.Lone [.start]) (fun _ => Did t.onceStep Eq) AnyErr
        (findIntegrationEarn t.orgId data.externalTxnId) [] s0 :=
      wp_findLedger did_start (fun _ _ _ _ hd _ _ _ => hd) fun _ _ _ hd _ => hd
    refine Tx.wp_mono (fun found ws s1 hd1 s2 hst _ => ?_) (fun e s1 _ s2 _ _ => aborted e s2) hfind
    have hread : s2 = view ws s2 := hd1 s2 hst
    rw [← hread]
    have hun : Unanswered ([.start, .commit s2 s2] : Hist) :=
      unanswered_snoc hstart fun _ he => by cases he
    have hnone : t.committed [.start, .commit s2 s2] = false := by
      show (false || (decide (t.rows s2 ≠ t.rows s2) || false)) = false
      simp
    refine ⟨.refl, truthful_of_unanswered hun, ?_⟩
    cases found with
    | some l => exact ⟨hun, fun ans ha => by cases ha; exact hnone.symm⟩
    | none => exact wp_earnNew hd ⟨hun, rfl, hnone⟩

end

/-! ## A run -/

section

variable {t : TxnId} {reqs : List Request} {db : Db} {c : Run}

/-- What request `i` of a run is verified against. -/
def TxnId.protocols (t : TxnId) (reqs : List Request) (i : ℕ) :
    Protocol Db Err Ev Answer t.onceStep :=
  if reqs[i]?.any t.carries then t.phase t.Truthful else bookProtocol t.Once

theorem TxnId.request_safe {req : Request} (h : t.carries req = true) (s : Db) :
    Safe (t.phase t.Truthful) req.call s := by
  cases req
  case earnPoints orgId data =>
    simp only [TxnId.carries, Bool.and_eq_true, beq_iff_eq] at h
    obtain ⟨rfl, hd⟩ := h
    have hnil : Unanswered ([] : Hist) := fun r hm => by cases hm
    have hstart : Unanswered ([.start] : Hist) := unanswered_snoc hnil fun _ he => by cases he
    refine ⟨truthful_of_unanswered hnil, fun s' _ _ => ⟨truthful_of_unanswered hstart, ?_⟩⟩
    refine Call.wp_bind (Call.wp_mono (fun r h' s' hr => ?_) (wp_earnPoints hd))
    cases r with
    | ok ans =>
      exact fun s'' _ => truthful_answer hr.1 fun a ha => by cases ha; exact hr.2 ans rfl
    | error e => exact fun s'' _ => truthful_answer hr.1 fun a ha => by cases ha
  all_goals cases h

theorem TxnId.protocols_safe (hreqs : ∀ req ∈ reqs,
      t.carries req = true ∨ req.Allowed fun _ l => t.isRow l = false) {i : ℕ} {call : LCall Answer}
    (hi : (reqs.map Request.call)[i]? = some call) : Safe (t.protocols reqs i) call db := by
  rw [List.getElem?_map] at hi
  cases hr : reqs[i]? with
  | none => simp [hr] at hi
  | some req =>
    rw [hr] at hi
    cases hi
    unfold TxnId.protocols
    rw [hr, Option.any_some]
    cases hc : t.carries req with
    | true => exact TxnId.request_safe hc db
    | false =>
      have ha : req.Allowed fun _ l => t.isRow l = false :=
        (hreqs req (List.mem_of_getElem? hr)).resolve_left fun ht => by rw [hc] at ht; cases ht
      refine Request.safe once_policy (ha.mono fun s l hl ht => ?_) db
      rw [hl] at ht
      cases ht

/-- **An integration earn is committed once.** In every guarded run, of requests that carry the
transaction id and of requests that post nothing under it, the organisation has at most one row of
the id, and a request answers `idempotent: false` if and only if it is the one that committed it. -/
theorem reach_committedOnce (hdb : WellKept db) (h0 : (t.rows db).length ≤ 1)
    (hreqs : ∀ req ∈ reqs, t.carries req = true ∨ req.Allowed fun _ l => t.isRow l = false)
    (h : Reach (t.Guarded reqs) (start db reqs) c) :
    (t.rows c.db).length ≤ 1 ∧ ∀ (i : ℕ) (req : Request) (r : Except Err Answer),
      reqs[i]? = some req → t.carries req = true → .answer r ∈ c.histOf i →
        (fresh r = true ↔ t.committed (c.histOf i) = true) := by
  have hsafe : ∀ (i : ℕ) (call : LCall Answer), (reqs.map Request.call)[i]? = some call →
      Safe (t.protocols reqs i) call db := fun i call hi => TxnId.protocols_safe hreqs hi
  have hcond : ∀ (d : Run) (i : ℕ), d.Ok (t.protocols reqs) db → t.Guarded reqs d i →
      d.ends i = false → (t.protocols reqs i).cond (d.histOf i) d.db := by
    intro d i hd hg he
    have hkept : WellKept d.db := Steps.wellKept hd.rel hdb
    unfold TxnId.protocols
    split
    · rename_i hi
      exact ⟨hkept, (hg hi).1 he⟩
    · exact hkept
  have hok := reach_sound hsafe hcond h
  refine ⟨Steps.induct (fun _ _ hs => hs.rows_once) hok.rel h0, fun i req r hi hcarry hr => ?_⟩
  have hany : reqs[i]?.any t.carries = true := by rw [hi]; exact hcarry
  cases r with
  | ok ans =>
    have hlt : i < (reqs.map Request.call).length := by
      rw [List.length_map]
      exact (List.getElem?_eq_some_iff.mp hi).1
    have hkeep := reach_keeps hsafe hcond h hlt
    unfold TxnId.protocols at hkeep
    rw [if_pos hany] at hkeep
    rw [hkeep ans hr]
  | error e =>
    -- a request that has committed its row does not come to an error
    obtain ⟨-, d, -, hg, hd, hhist⟩ := reach_answered h hr
    have hfails : d.fails i = true := by
      unfold Config.fails
      rw [hd]
      rfl
    have hnot : t.committed (d.histOf i) = false := by
      by_contra hc
      have := (hg hany).2 (Bool.eq_true_of_not_eq_false hc)
      rw [hfails] at this
      cases this
    rw [hhist, committed_snoc, hnot]
    exact Iff.rfl

end

/-- A second patron beside the first. -/
def twoPatrons : Db :=
  (onePatron.set .customer 11 { orgId := 1, name := "Bob" }).set .account 21
    { orgId := 1, customerId := 11, tierId := none, referralCode := "BBBB2222" }

theorem twoPatrons_wellKept : WellKept twoPatrons :=
  (onePatron_wellKept.insert (by decide) (by decide +kernel) (by decide +kernel)).insert
    (by decide) (by decide +kernel) (by decide +kernel)

def saleT : TxnId := ⟨1, "T"⟩

def sale (customerId : Id) : Request :=
  .earnPoints 1 {
    customer := { customerId := some customerId }
    points := some 5
    eventType := .manual
    externalTxnId := "T" }

/-- The first sale is over before the retry, for another customer, begins. -/
def retryLater : List (ℕ × Move Err) := List.replicate 115 (0, .go 1) ++ List.replicate 7 (1, .go 1)

set_option maxRecDepth 100000 in
theorem reach_committedOnce_retryLater : ∃ c : Run,
    Reach (saleT.Guarded [sale 10, sale 11]) (start twoPatrons [sale 10, sale 11]) c ∧
      (c.answersOf 0).any fresh = true ∧ (c.answersOf 1).length = 1 ∧
      (saleT.rows c.db).length ≤ 1 ∧ ∀ (i : ℕ) (req : Request) (r : Except Err Answer),
        [sale 10, sale 11][i]? = some req → saleT.carries req = true → .answer r ∈ c.histOf i →
          (fresh r = true ↔ saleT.committed (c.histOf i) = true) := by
  obtain ⟨c, hc, hp⟩ := exists_reach (P := saleT.Guarded [sale 10, sale 11])
    (o := fun c i => decide (saleT.Guarded [sale 10, sale 11] c i))
    (fun _ _ h => of_decide_eq_true h) (start twoPatrons [sale 10, sale 11]) retryLater
    (fun c => (c.answersOf 0).any fresh && decide ((c.answersOf 1).length = 1)) (by decide +kernel)
  obtain ⟨hf, hl⟩ := Bool.and_eq_true_iff.mp hp
  have hreqs : ∀ req ∈ [sale 10, sale 11],
      saleT.carries req = true ∨ req.Allowed fun _ l => saleT.isRow l = false := by
    intro req hm
    rcases List.mem_cons.mp hm with rfl | hm
    · exact Or.inl rfl
    · cases List.mem_singleton.mp hm
      exact Or.inl rfl
  exact ⟨c, hc, hf, of_decide_eq_true hl,
    reach_committedOnce twoPatrons_wellKept (by decide) hreqs hc⟩

/-- The second request runs whole between the check of the first and its row. -/
def overtaken (n m : ℕ) : List (ℕ × Move Err) :=
  List.replicate 5 (0, .go 1) ++ List.replicate n (1, .go 1) ++ List.replicate m (0, .go 1)

set_option maxRecDepth 100000 in
/-- Two overlapping requests with one transaction id commit two rows, for two customers; or both
answer `idempotent: false` for the one row of one customer. -/
theorem both_commit :
    (∃ c : Run, Reach Always (start twoPatrons [sale 10, sale 11]) c ∧
      (saleT.rows c.db).length = 2) ∧
    ∃ c : Run, Reach Always (start twoPatrons [sale 10, sale 10]) c ∧
      (saleT.rows c.db).length = 1 ∧ (c.answersOf 0).any fresh = true ∧
        (c.answersOf 1).any fresh = true := by
  constructor
  · obtain ⟨c, hc, hp⟩ := exists_reach_anywhere
      (start twoPatrons [sale 10, sale 11]) (overtaken 115 110)
      (fun c => decide ((saleT.rows c.db).length = 2)) (by decide +kernel)
    exact ⟨c, hc, of_decide_eq_true hp⟩
  · obtain ⟨c, hc, hp⟩ := exists_reach_anywhere
      (start twoPatrons [sale 10, sale 10]) (overtaken 115 37)
      (fun c => decide ((saleT.rows c.db).length = 1) && ((c.answersOf 0).any fresh &&
        (c.answersOf 1).any fresh)) (by decide +kernel)
    simp only [Bool.and_eq_true] at hp
    exact ⟨c, hc, of_decide_eq_true hp.1, hp.2⟩

end PatronLoyalty.Loyalty
