import PatronLoyalty.Loyalty.Accounting

/-!
# Exactly-once earns

The calls of `applyPoints` that share a source key race: the lookup of each may come before the
insert of all. What decides is the unique index. A call whose insert finds the key taken is rolled
back whole, reads the winner's row and answers as a duplicate.

A call is either `Waiting`, with nothing committed and nothing emitted, or `Posted`. The protocol of
a call says which, and what it may answer; `reach_once` puts the calls of a run together: one ledger
row, one movement, and every other call a duplicate that changed nothing.

The lookup is by ledger type and the index is not, so a row of the other earn type under the same
key makes an insert fail that no lookup can explain: `Alone` leaves that out.
-/

namespace PatronLoyalty.Loyalty

open Txn Relation

structure EarnKey where
  orgId : Id
  accountId : Id
  type : LedgerType
  sourceType : String
  sourceId : String
  earns : isEarnSourceIdempotentType type = true

namespace EarnKey

variable (k : EarnKey)

def entry : UniqueKey := .earnSource k.orgId k.accountId k.sourceType k.sourceId

def isRow (l : LoyaltyPointLedger) : Bool :=
  l.orgId == k.orgId && l.accountId == k.accountId && l.type == k.type &&
    l.sourceType == some k.sourceType && l.sourceId == some k.sourceId

def rows (s : Db) : List LoyaltyPointLedger := s.log.filter k.isRow

/-- No row of the other earn type is under the index entry. -/
def Alone (s : Db) : Prop := ∀ l ∈ s.log, k.entry ∈ ledgerKeys l → l.type = k.type

instance (s : Db) : Decidable (k.Alone s) :=
  inferInstanceAs (Decidable (∀ l ∈ s.log, k.entry ∈ ledgerKeys l → l.type = k.type))

/-- The account is there. -/
def Held (s : Db) : Prop :=
  ∃ r : LoyaltyAccount, s.get .account k.accountId = some r ∧ r.orgId = k.orgId

def callOf : Request → Option (ℤ × PointsOpts)
  | .applyPoints orgId accountId points type opts =>
    if orgId = k.orgId ∧ accountId = k.accountId ∧ type = k.type ∧
        earnSource type opts = some (k.sourceType, k.sourceId) ∧ 0 < points then
      some (points, opts)
    else none
  | _ => none

/-- Request `i` is a call under the key. -/
def Calls (reqs : List Request) (i : ℕ) (points : ℤ) (opts : PointsOpts) : Prop :=
  ∃ req, reqs[i]? = some req ∧ k.callOf req = some (points, opts)

/-- **The one movement of a key**, by the amounts of the call that makes it. -/
structure Earned (points : ℤ) (opts : PointsOpts) (a b : Db) : Prop where
  fresh : k.rows a = []
  row : ∃ l, k.isRow l = true ∧ l.points = points ∧ b.log = a.log ++ [l]
  account : ∃ r r' : LoyaltyAccount, a.get .account k.accountId = some r ∧
    b.get .account k.accountId = some r' ∧ r'.pointsBalance = r.pointsBalance + points ∧
    r'.lifetimePointsEarned = r.lifetimePointsEarned + points ∧
    r'.totalVisits = r.totalVisits + if opts.incrementVisit then 1 else 0
  others : ∀ (t : Kind) (id : Id), (t, id) ≠ (.account, k.accountId) → b.get t id = a.get t id

def MayAnswer (points : ℤ) (opts : PointsOpts) (h : Hist) (s : Db) : Except Err Answer → Prop
  | .ok (.points res) => k.rows s ≠ [] ∧
      (res.idempotent = true → ∀ a b, .commit a b ∈ h → b = a) ∧
      (res.idempotent = false → ∃ a b, .commit a b ∈ h ∧ k.Earned points opts a b)
  | .ok _ => False
  | .error e => Faulty.fault e = true ∧ ∀ a b, .commit a b ∈ h → b = a

/-- **A call under the key** commits nothing but the one movement, emits nothing without it, and
answers an error only when the database fails. -/
structure Outcome (points : ℤ) (opts : PointsOpts) (h : Hist) (s : Db) : Prop where
  commits : ∀ a b, .commit a b ∈ h → b = a ∨ k.Earned points opts a b
  emits : ∀ v, .emit v ∈ h → ∃ a b, .commit a b ∈ h ∧ k.Earned points opts a b
  answers : ∀ r, .answer r ∈ h → k.MayAnswer points opts h s r

end EarnKey

/-! ## The index and the lookup -/

section

variable {k : EarnKey} {points : ℤ} {opts : PointsOpts} {s : Db}

theorem mem_ledgerKeys {l : LoyaltyPointLedger} :
    k.entry ∈ ledgerKeys l ↔ isEarnSourceIdempotentType l.type = true ∧ l.orgId = k.orgId ∧
      l.accountId = k.accountId ∧ l.sourceType = some k.sourceType ∧
      l.sourceId = some k.sourceId := by
  unfold ledgerKeys EarnKey.entry
  split
  · rename_i ht hst hsid
    rw [List.mem_singleton, UniqueKey.earnSource.injEq, hst, hsid]
    constructor
    · rintro ⟨h1, h2, h3, h4⟩
      exact ⟨ht, h1.symm, h2.symm, congrArg some h3.symm, congrArg some h4.symm⟩
    · rintro ⟨-, h1, h2, h3, h4⟩
      exact ⟨h1.symm, h2.symm, (Option.some.inj h3).symm, (Option.some.inj h4).symm⟩
  · rename_i hne
    constructor
    · exact fun h => absurd h List.not_mem_nil
    · rintro ⟨ht, -, -, hst, hsid⟩
      exact absurd hsid (hne _ _ ht hst)

theorem isRow_iff {l : LoyaltyPointLedger} :
    k.isRow l = true ↔ l.orgId = k.orgId ∧ l.accountId = k.accountId ∧ l.type = k.type ∧
      l.sourceType = some k.sourceType ∧ l.sourceId = some k.sourceId := by
  simp [EarnKey.isRow, and_assoc]

theorem rows_ne_nil : k.rows s ≠ [] ↔ ∃ l ∈ s.log, k.isRow l = true := by
  unfold EarnKey.rows
  rw [Ne, List.filter_eq_nil_iff, not_forall]
  constructor
  · rintro ⟨l, hl⟩
    rw [not_forall, exists_prop, not_not] at hl
    exact ⟨l, hl⟩
  · rintro ⟨l, hl, hr⟩
    exact ⟨l, fun h => h hl hr⟩

theorem EarnKey.credits (k : EarnKey) : isDebitLedgerType k.type = false := by
  have ht := k.earns
  revert ht
  cases k.type <;> decide

/-- The lookup of a call under the key sees the rows of the key. -/
theorem earnedBefore_iff (h : earnSource k.type opts = some (k.sourceType, k.sourceId)) :
    EarnedBefore k.orgId k.accountId k.type opts s ↔ k.rows s ≠ [] := by
  rw [rows_ne_nil]
  constructor
  · rintro ⟨st, sid, hs, l, hl, h1, h2, h3, h4, h5⟩
    cases h.symm.trans hs
    exact ⟨l, hl, isRow_iff.mpr ⟨h1, h2, h3, h4, h5⟩⟩
  · rintro ⟨l, hl, hr⟩
    exact ⟨_, _, h, l, hl, isRow_iff.mp hr⟩

/-- **A key has at most one row**: they are all under one index entry. -/
theorem rows_length_le (h : Rel.Unique s) : (k.rows s).length ≤ 1 := by
  have hsub : (k.rows s).Sublist (s.logAt k.entry) := by
    refine List.monotone_filter_right s.log fun l hl => ?_
    obtain ⟨h1, h2, h3, h4, h5⟩ := isRow_iff.mp hl
    have hmem : k.entry ∈ ledgerKeys l := mem_ledgerKeys.mpr ⟨h3 ▸ k.earns, h1, h2, h4, h5⟩
    exact decide_eq_true hmem
  exact hsub.length_le.trans (h.log k.entry)

/-- A movement under the key is the one movement of the key. -/
theorem Posts.earned {t : Time} {r r' : LoyaltyAccount} {a b : Db}
    (hsrc : earnSource k.type opts = some (k.sourceType, k.sourceId))
    (h : Posts ⟨k.orgId, k.accountId, points, k.type, opts, t⟩ r r' a b) :
    k.Earned points opts a b := by
  have hdebit := k.credits
  obtain ⟨hst, hsid⟩ := earnSource_eq_some hsrc
  refine ⟨?_, ?_, ?_, fun u id hne => h.get_ne hne⟩
  · -- the index entry was free
    have hfree := h.free k.entry (mem_ledgerKeys.mpr ⟨k.earns, rfl, rfl, hst, hsid⟩)
    by_contra hne
    obtain ⟨l, hl, hr⟩ := rows_ne_nil.mp hne
    obtain ⟨h1, h2, h3, h4, h5⟩ := isRow_iff.mp hr
    have hm : l ∈ a.logAt k.entry :=
      Rel.mem_logAt.mpr ⟨hl, mem_ledgerKeys.mpr ⟨h3 ▸ k.earns, h1, h2, h4, h5⟩⟩
    rw [hfree] at hm
    cases hm
  · refine ⟨_, isRow_iff.mpr ⟨rfl, rfl, rfl, hst, hsid⟩, ?_, h.log⟩
    simp [Movement.row, Movement.delta, hdebit]
  · obtain ⟨-, -, -, hb, he, -, hv⟩ := core_eq h.moved
    refine ⟨r, r', h.found, h.get_self, ?_, ?_, ?_⟩
    · rw [hb, Movement.move_balance]
      simp [Movement.delta, hdebit]
    · rw [he]
      simp only [Movement.move, hdebit, Bool.false_eq_true, if_false, LoyaltyAccount.credited]
      rw [if_pos (show isLifetimeEarnType k.type = true from k.earns)]
    · rw [hv]
      simp only [Movement.move, hdebit, Bool.false_eq_true, if_false, LoyaltyAccount.credited]

theorem EarnKey.Earned.rows_ne {a b : Db} (h : k.Earned points opts a b) : k.rows b ≠ [] := by
  obtain ⟨l, hl, -, hb⟩ := h.row
  have hm : l ∈ b.log := by
    rw [hb]
    exact List.mem_append_right _ (List.mem_singleton_self l)
  exact rows_ne_nil.mpr ⟨l, hm, hl⟩

theorem rows_ne_nil_mono {a b : Db} (h : Grows a b) (ha : k.rows a ≠ []) : k.rows b ≠ [] := by
  obtain ⟨l, hl, hr⟩ := rows_ne_nil.mp ha
  exact rows_ne_nil.mpr ⟨l, h.mem_log hl, hr⟩

theorem held_mono {a b : Db} (h : Grows a b) (ha : k.Held a) : k.Held b := by
  obtain ⟨r, hr, ho⟩ := ha
  obtain ⟨r', hr', he⟩ := h.row hr
  exact ⟨r', hr', he.1.trans ho⟩

end

/-! ## The two phases of a call -/

/-- A line that tells of no effect. -/
def Idle : Entry Db Err Ev Answer → Prop
  | .commit a b => b = a
  | .emit _ | .answer _ => False
  | .start | .rollback _ => True

/-- Nothing committed, nothing emitted, nothing answered. -/
def Waiting (h : Hist) : Prop := ∀ e ∈ h, Idle e

namespace EarnKey

variable (k : EarnKey) (points : ℤ) (opts : PointsOpts)

/-- The call has made the one movement. -/
structure Posted (h : Hist) (s : Db) : Prop where
  commits : ∀ a b, .commit a b ∈ h → b = a ∨ k.Earned points opts a b
  done : ∃ a b, .commit a b ∈ h ∧ k.Earned points opts a b
  unanswered : ∀ r, .answer r ∉ h
  row : k.rows s ≠ []

/-- What the calls under the key rely on. -/
structure Relies (s : Db) : Prop where
  kept : WellKept s
  held : k.Held s
  alone : k.Alone s

abbrev anyStep : Guarantee Db := bookGuarantee fun _ _ => True

def waiting : Protocol Db Err Ev Answer anyStep where
  cond _ s := k.Relies s
  keeps h _ := Waiting h
  keeps_stable _ h := h

def posted : Protocol Db Err Ev Answer anyStep where
  cond _ s := k.Relies s
  keeps h s := k.Posted points opts h s
  keeps_stable hG h := ⟨h.commits, h.done, h.unanswered, rows_ne_nil_mono (Steps.grows hG) h.row⟩

theorem MayAnswer.mono {h : Hist} {a b : Db} (hg : Grows a b) {r : Except Err Answer}
    (ha : k.MayAnswer points opts h a r) : k.MayAnswer points opts h b r := by
  cases r with
  | error e => exact ha
  | ok r =>
    cases r
    case points res => exact ⟨rows_ne_nil_mono hg ha.1, ha.2⟩
    all_goals exact ha

/-- The protocol of a call under the key. -/
def protocol : Protocol Db Err Ev Answer anyStep where
  cond _ s := k.Relies s
  keeps h s := k.Outcome points opts h s
  keeps_stable hG h :=
    ⟨h.commits, h.emits, fun r hr => (h.answers r hr).mono k points opts (Steps.grows hG)⟩

end EarnKey

section

variable {k : EarnKey} {points : ℤ} {opts : PointsOpts} {h : Hist} {s : Db}

theorem waiting_snoc {e : Entry Db Err Ev Answer} (hw : Waiting h) (he : Idle e) :
    Waiting (h ++ [e]) := by
  intro x hx
  rcases mem_snoc.mp hx with hx | rfl
  · exact hw x hx
  · exact he

theorem EarnKey.Posted.snoc {e : Entry Db Err Ev Answer} (hp : k.Posted points opts h s)
    (hc : ∀ a b, e = .commit a b → b = a) (hr : ∀ r, e ≠ .answer r) :
    k.Posted points opts (h ++ [e]) s := by
  obtain ⟨a, b, hm, hd⟩ := hp.done
  refine ⟨fun x y hxy => ?_, ⟨a, b, mem_snoc.mpr (Or.inl hm), hd⟩, fun r hx => ?_, hp.row⟩
  · rcases mem_snoc.mp hxy with hxy | hxy
    · exact hp.commits x y hxy
    · exact Or.inl (hc x y hxy.symm)
  · rcases mem_snoc.mp hx with hx | hx
    · exact hp.unanswered r hx
    · exact hr r hx.symm

theorem waiting_silent : k.waiting.Silent where
  read _ _ hw := waiting_snoc hw rfl
  rollback _ _ _ hw := waiting_snoc hw trivial

theorem posted_quiet : (k.posted points opts).Quiet where
  read _ _ hp := EarnKey.Posted.snoc hp (fun _ _ he => by cases he; rfl) fun _ he => by cases he
  rollback _ _ _ hp := EarnKey.Posted.snoc hp (fun _ _ he => by cases he) fun _ he => by cases he
  emit _ _ _ hp := EarnKey.Posted.snoc hp (fun _ _ he => by cases he) fun _ he => by cases he

theorem waiting_outcome (hw : Waiting h) : k.Outcome points opts h s where
  commits _ _ hm := Or.inl (hw _ hm)
  emits _ hm := (hw _ hm).elim
  answers _ hm := (hw _ hm).elim

theorem posted_outcome (hp : k.Posted points opts h s) : k.Outcome points opts h s where
  commits := hp.commits
  emits _ _ := hp.done
  answers r hm := absurd hm (hp.unanswered r)

theorem EarnKey.Outcome.answered {r : Except Err Answer} (ho : k.Outcome points opts h s)
    (hr : k.MayAnswer points opts h s r) : k.Outcome points opts (h ++ [.answer r]) s := by
  have hold : ∀ {a b}, Entry.commit a b ∈ h ++ [Entry.answer r] ↔ Entry.commit a b ∈ h := by
    intro a b
    rw [mem_snoc]
    exact or_iff_left fun he => by cases he
  have hmay : ∀ q, k.MayAnswer points opts h s q →
      k.MayAnswer points opts (h ++ [.answer r]) s q := by
    intro q hq
    cases q with
    | error e => exact ⟨hq.1, fun a b hm => hq.2 a b (hold.mp hm)⟩
    | ok q =>
      cases q
      case points res =>
        refine ⟨hq.1, fun hid a b hm => hq.2.1 hid a b (hold.mp hm), fun hid => ?_⟩
        obtain ⟨a, b, hm, he⟩ := hq.2.2 hid
        exact ⟨a, b, hold.mpr hm, he⟩
      all_goals exact hq
  refine ⟨fun a b hm => ho.commits a b (hold.mp hm), fun v hm => ?_, fun q hm => ?_⟩
  · rcases mem_snoc.mp hm with hm | hm
    · obtain ⟨a, b, hc, he⟩ := ho.emits v hm
      exact ⟨a, b, hold.mpr hc, he⟩
    · cases hm
  · rcases mem_snoc.mp hm with hm | hm
    · exact hmay q (ho.answers q hm)
    · cases hm
      exact hmay _ hr

/-- The first movement of a call. -/
theorem waiting_posts {a b : Db} (hw : Waiting h) (he : k.Earned points opts a b) :
    k.Posted points opts (h ++ [.commit a b]) b := by
  refine ⟨fun x y hxy => ?_, ⟨a, b, mem_snoc.mpr (Or.inr rfl), he⟩, fun r hx => ?_, he.rows_ne⟩
  · rcases mem_snoc.mp hxy with hxy | hxy
    · exact Or.inl (hw _ hxy)
    · cases hxy
      exact Or.inr he
  · rcases mem_snoc.mp hx with hx | hx
    · exact hw _ hx
    · cases hx

/-! ## One call -/

/-- What `applyPoints` comes back with. -/
def Reply (k : EarnKey) (points : ℤ) (opts : PointsOpts) :
    Except Err ApplyPointsResult → Hist → Db → Prop
  | .ok res, h, s => res.idempotent = true ∧ Waiting h ∧ k.rows s ≠ [] ∨
      res.idempotent = false ∧ k.Posted points opts h s
  | .error e, h, _ => Faulty.fault e = true ∧ Waiting h

variable (hsrc : earnSource k.type opts = some (k.sourceType, k.sourceId))

include hsrc

/-- **The loser's recovery**: the winner's row is read back. -/
theorem wp_recovery (hw : Waiting h) (hrow : k.rows s ≠ []) (hheld : k.Held s) :
    Call.wp (k.protocol points opts) (Reply k points opts)
      (loadIdempotentEarnResult k.orgId k.accountId k.type k.sourceType k.sourceId) h s := by
  have hread : Ensures k.waiting (fun s => k.rows s ≠ [] ∧ k.Held s)
      (loadIdempotentEarnResult k.orgId k.accountId k.type k.sourceType k.sourceId)
      (onResult (fun res s => res.idempotent = true ∧ k.rows s ≠ [])
        fun e _ => Faulty.fault e = true) := by
    refine Ensures.readTx waiting_silent (F := fun res s => res.idempotent = true ∧ k.rows s ≠ [])
      (X := fun _ _ => False) (fun h s s' _ hs hG => ?_) (fun res s a _ _ hF => hF)
      fun e s s1 s2 _ _ _ hX => ?_
    · have hgrow : Grows s s' := Steps.grows hG
      have hrow' : k.rows s' ≠ [] := rows_ne_nil_mono hgrow hs.1
      rw [Tx.wp_do]
      refine wp_findExistingEarnLedger hsrc (did_start (s := s')) (fun s1 l hG1 _ hd _ => ?_)
        (fun s1 hG1 _ _ hn => ?_)
      · have hrow1 : k.rows s1 ≠ [] := rows_ne_nil_mono (Steps.grows hG1) hrow'
        dsimp only
        rw [Tx.wp_do]
        refine wp_findByIdOrThrow (hd.note (fun _ _ h => rows_ne_nil_mono (Steps.grows h)) hrow1)
          (fun s2 q _ _ hd2 _ _ => ?_) (fun s2 hG2 _ _ hn => ?_)
        · rw [Tx.pure_eq, Tx.wp_pure]
          exact hd2.mono fun a b hab => ⟨hab.2.symm, rfl, hab.1⟩
        · obtain ⟨r, hr, ho⟩ := held_mono (Steps.grows (hG.trans (hG1.trans hG2))) hs.2
          have hv := hn r hr
          rw [visible_account.mpr ho] at hv
          cases hv
      · exact absurd ((earnedBefore_iff hsrc).mpr (rows_ne_nil_mono (Steps.grows hG1) hrow')) hn
    · cases hf : Faulty.fault e with
      | true => exact hf
      | false => exact (hX hf).elim
  refine Call.wp_mono (fun r h' s' hr => ?_)
    (hread.phase (k.protocol points opts) (fun _ _ hc => hc) (fun _ _ => waiting_outcome) hw
      ⟨hrow, hheld⟩)
  obtain ⟨hk, -, hr⟩ := hr
  cases r with
  | ok res => exact Or.inl ⟨hr.1, hk, hr.2⟩
  | error e => exact ⟨hr, hk⟩

/-- What the ledger transaction of a call comes to: a result, or an error that stands for a row
which is there already, or for a failure of the database. -/
def Tried (k : EarnKey) (points : ℤ) (opts : PointsOpts) (r : Except Err ApplyPointsResult)
    (h : Hist) (s : Db) : Prop :=
  match r with
  | .ok res => Reply k points opts (.ok res) h s
  | .error e => Waiting h ∧ (e = .uniqueViolation ∧ k.rows s ≠ [] ∧ k.Held s ∨
      Faulty.fault e = true)

theorem wp_applyPoints_once (hpos : 0 < points) (hw : Waiting h) :
    Call.wp (k.protocol points opts) (Reply k points opts)
      (applyPoints k.orgId k.accountId points k.type opts) h s := by
  obtain ⟨hst, hsid⟩ := earnSource_eq_some hsrc
  have hdebit := k.credits
  -- the transaction aborts only where the key is taken already, or by a database failure
  let Lost : Err → Db → Prop := fun e s => e = .uniqueViolation ∧ k.rows s ≠ []
  have htx : ∀ s', Tx.wp EarnKey.anyStep k.Relies
      (fun res => Did EarnKey.anyStep (Applied k.orgId k.accountId points k.type opts res)) Lost
      (applyPointsInTransaction k.orgId k.accountId points k.type opts) [] s' := by
    intro s'
    refine wp_applyPointsInTransaction (fun _ _ h => Steps.grows h)
      (fun hle => absurd hpos (not_lt.mpr hle)) (fun s1 s2 e _ hA hc _ => ?_)
      (fun s1 s2 _ hn _ _ hA => ?_) (fun s1 u t b _ hA hu hne => ?_)
    · obtain ⟨r, hr, ho⟩ := hA.held
      have := (hc r hr ho).1
      rw [hdebit] at this
      cases this
    · obtain ⟨r, hr, ho⟩ := hA.held
      exact absurd ho (hn r hr)
    · refine ⟨rfl, rows_ne_nil.mpr ?_⟩
      have hu' : u = k.entry := by
        have hkeys : ledgerKeys ((⟨k.orgId, k.accountId, points, k.type, opts, t⟩ : Movement).row b) =
            [k.entry] := by
          simp only [ledgerKeys, Movement.row, hst, hsid, k.earns]
          rfl
        rw [hkeys] at hu
        exact List.mem_singleton.mp hu
      subst hu'
      obtain ⟨l, hl⟩ := List.exists_mem_of_ne_nil _ hne
      obtain ⟨hlog, hkey⟩ := Rel.mem_logAt.mp hl
      obtain ⟨-, h1, h2, h4, h5⟩ := mem_ledgerKeys.mp hkey
      exact ⟨l, hlog, isRow_iff.mpr ⟨h1, h2, hA.alone l hlog hkey, h4, h5⟩⟩
  have hbody : Call.wp (k.protocol points opts) (Tried k points opts) (do
      let result ← runApplyPoints k.orgId k.accountId points k.type opts
      if result.idempotent then pure { account := result.finalAccount, idempotent := true }
      else
        dispatchApplyPointsSideEffects k.orgId k.accountId result opts
        pure { account := result.finalAccount, idempotent := false }) h s := by
    refine Call.wp_bind (Call.wp_withTx fun s' hG hA => ⟨?_, fun e hf s'' hG' hA' => ?_⟩)
    · refine Tx.wp_mono (fun res ws s1 hd s2 hst hA2 => ?_) (fun e s1 hx s2 hG2 hA2 => ?_) (htx s')
      · rcases hd s2 hst with ⟨hid, t, r, r', slug, -, hp⟩ | ⟨hid, hb, he⟩
        · -- the movement is committed; what is left emits
          have hposted := waiting_posts hw (hp.earned hsrc)
          refine ⟨.single (.post trivial hp), posted_outcome hposted, ?_⟩
          dsimp only
          rw [hid, if_neg Bool.false_ne_true]
          have hfire : Ensures (k.posted points opts) (fun _ => True)
              (dispatchApplyPointsSideEffects k.orgId k.accountId res opts)
              (onResult (fun _ _ => True) fun _ _ => False) :=
            Ensures.fireAll posted_quiet (fun _ _ _ _ => trivial) (fun _ _ => trivial) _
          refine Call.wp_bind (Call.wp_mono (fun r h' s' hr => ?_)
            (hfire.phase (k.protocol points opts) (fun _ _ hc => hc) (fun _ _ => posted_outcome)
              hposted trivial))
          obtain ⟨hp', -, hr⟩ := hr
          cases r with
          | ok _ => exact Or.inr ⟨rfl, hp'⟩
          | error e => exact hr.elim
        · -- a row is there already
          rw [hb]
          have hwait : Waiting (h ++ [.commit s2 s2]) := waiting_snoc hw rfl
          refine ⟨.refl, waiting_outcome hwait, ?_⟩
          dsimp only
          rw [hid, if_pos rfl]
          exact Or.inl ⟨rfl, hwait, (earnedBefore_iff hsrc).mp he⟩
      · have hwait : Waiting (h ++ [.rollback e]) := waiting_snoc hw trivial
        have hrow : k.rows s2 ≠ [] := rows_ne_nil_mono (Steps.grows hG2) hx.2
        exact ⟨waiting_outcome hwait, hwait, Or.inl ⟨hx.1, hrow, hA2.held⟩⟩
    · have hwait : Waiting (h ++ [.rollback e]) := waiting_snoc hw trivial
      exact ⟨waiting_outcome hwait, hwait, Or.inr hf⟩
  refine Call.wp_handle (Call.wp_mono (fun r h' s' hr => ?_) hbody)
  cases r with
  | ok res => exact hr
  | error e =>
    obtain ⟨hwait, ⟨rfl, hrow, hheld⟩ | hf⟩ := hr
    · have hdup : isDuplicateEarnError .uniqueViolation k.type opts = true := by
        simp [isDuplicateEarnError, hsrc]
      dsimp only
      rw [if_pos hdup, hst, hsid]
      exact wp_recovery hsrc hwait hrow hheld
    · have hdup : isDuplicateEarnError e k.type opts = false := by
        cases e <;> first | rfl | cases hf
      dsimp only
      rw [hdup, if_neg Bool.false_ne_true]
      exact ⟨hf, hwait⟩

end

/-! ## A run -/

section

variable {k : EarnKey} {points : ℤ} {opts : PointsOpts} {reqs : List Request} {db : Db} {c : Run}

theorem callOf_eq_some {req : Request} (h : k.callOf req = some (points, opts)) :
    req = .applyPoints k.orgId k.accountId points k.type opts ∧
      earnSource k.type opts = some (k.sourceType, k.sourceId) ∧ 0 < points := by
  cases req
  case applyPoints orgId accountId points' type opts' =>
    rw [EarnKey.callOf, Option.ite_none_right_eq_some] at h
    obtain ⟨⟨rfl, rfl, rfl, hs, hp⟩, he⟩ := h
    cases he
    exact ⟨rfl, hs, hp⟩
  all_goals cases h

theorem Reply.answers {r : Except Err ApplyPointsResult} {h : Hist} {s : Db}
    (hr : Reply k points opts r h s) :
    Answers (k.protocol points opts) (r.map Answer.points) h s := by
  intro s' hG
  have hgrow : Grows s s' := Steps.grows hG
  cases r with
  | error e =>
    obtain ⟨hf, hw⟩ := hr
    have hout : k.Outcome points opts h s' := waiting_outcome hw
    refine hout.answered ⟨hf, fun a b hm => ?_⟩
    exact hw _ hm
  | ok res =>
    rcases hr with ⟨hid, hw, hrow⟩ | ⟨hid, hp⟩
    · have hout : k.Outcome points opts h s' := waiting_outcome hw
      refine hout.answered ⟨rows_ne_nil_mono hgrow hrow, fun _ a b hm => hw _ hm, fun hf => ?_⟩
      rw [hid] at hf
      cases hf
    · have hp' : k.Posted points opts h s' := (k.posted points opts).keeps_stable hG hp
      refine (posted_outcome hp').answered ⟨hp'.row, fun ht => ?_, fun _ => hp'.done⟩
      rw [hid] at ht
      cases ht

/-- **Every call under the key is safe.** -/
theorem EarnKey.call_safe {req : Request} (h : k.callOf req = some (points, opts)) (s : Db) :
    Safe (k.protocol points opts) req.call s := by
  obtain ⟨rfl, hsrc, hpos⟩ := callOf_eq_some h
  have hnil : Waiting ([] : Hist) := fun e he => absurd he List.not_mem_nil
  refine ⟨waiting_outcome hnil, fun s' _ _ => ?_⟩
  have hw : Waiting ([.start] : Hist) := waiting_snoc hnil trivial
  refine ⟨waiting_outcome hw, Call.wp_bind (Call.wp_mono (fun r h' s' hr => ?_)
    (wp_applyPoints_once hsrc hpos hw))⟩
  cases r with
  | ok res => exact hr.answers
  | error e => exact hr.answers

/-- What request `i` of a run is verified against. -/
def EarnKey.protocols (k : EarnKey) (reqs : List Request) (i : ℕ) :
    Protocol Db Err Ev Answer EarnKey.anyStep :=
  match reqs[i]?.bind k.callOf with
  | some (points, opts) => k.protocol points opts
  | none => bookProtocol fun _ _ => True

theorem EarnKey.protocols_safe {i : ℕ} {call : LCall Answer}
    (hi : (reqs.map Request.call)[i]? = some call) : Safe (k.protocols reqs i) call db := by
  rw [List.getElem?_map] at hi
  cases hr : reqs[i]? with
  | none => simp [hr] at hi
  | some req =>
    rw [hr] at hi
    cases hi
    unfold EarnKey.protocols
    rw [hr, Option.bind_some]
    cases hc : k.callOf req with
    | none => exact Request.safe policy_true (allowed_true req) db
    | some x => exact EarnKey.call_safe hc db

/-- What a run keeps is what the sessions rely on. -/
theorem EarnKey.protocols_cond {h : Hist} {s : Db} {i : ℕ} (hkept : WellKept s)
    (hgrow : Grows db s) (hheld : k.Held db) (halone : k.Alone s) :
    (k.protocols reqs i).cond h s := by
  unfold EarnKey.protocols
  split
  · exact ⟨hkept, held_mono hgrow hheld, halone⟩
  · exact hkept

abbrev EarnKey.Runs (k : EarnKey) (c : Run) (_ : ℕ) : Prop := k.Alone c.db

section

variable (hdb : WellKept db) (hheld : k.Held db) (h : Reach k.Runs (start db reqs) c)

include hdb hheld h

/-- What the history of a call under the key says. -/
theorem reach_outcome {i : ℕ} (hi : k.Calls reqs i points opts) :
    k.Outcome points opts (c.histOf i) c.db := by
  obtain ⟨req, hreq, hcall⟩ := hi
  have hlt : i < (reqs.map Request.call).length := by
    rw [List.length_map]
    exact (List.getElem?_eq_some_iff.mp hreq).1
  have hkeep := reach_keeps (fun i call => EarnKey.protocols_safe)
    (fun d i hd hP _ => EarnKey.protocols_cond (hd.rel.wellKept hdb) (Steps.grows hd.rel) hheld hP)
    h hlt
  unfold EarnKey.protocols at hkeep
  rw [hreq, Option.bind_some, hcall] at hkeep
  exact hkeep

/-- **Exactly once.** In every run of requests, any of them failing at any point:

* the key has at most one ledger row, and one as soon as a call under it has an answer;
* at most one commit of all the calls under the key changes anything, and it is the one movement,
  by the amounts of its call;
* every other call changes nothing, emits nothing, and answers as a duplicate; an error is
  answered only when the database fails. -/
theorem reach_once : (k.rows c.db).length ≤ 1 ∧
    (∀ (i : ℕ) (points : ℤ) (opts : PointsOpts), k.Calls reqs i points opts →
      k.Outcome points opts (c.histOf i) c.db) ∧
    ∀ (i j p q : ℕ) (points points' : ℤ) (opts opts' : PointsOpts) (a b a' b' : Db),
      k.Calls reqs i points opts → k.Calls reqs j points' opts' →
      c.trace[p]? = some (i, .commit a b) → b ≠ a →
      c.trace[q]? = some (j, .commit a' b') → b' ≠ a' → p = q := by
  have hsafe : ∀ (i : ℕ) (call : LCall Answer), (reqs.map Request.call)[i]? = some call →
      Safe (k.protocols reqs i) call db := fun i call => EarnKey.protocols_safe
  have hcond : ∀ (d : Run) (i : ℕ), d.Ok (k.protocols reqs) db → k.Runs d i →
      d.ends i = false → (k.protocols reqs i).cond (d.histOf i) d.db := fun d i hd hP _ =>
    EarnKey.protocols_cond (hd.rel.wellKept hdb) (Steps.grows hd.rel) hheld hP
  have hok := reach_sound hsafe hcond h
  have hunique : Rel.Unique c.db := (hok.rel.wellKept hdb).unique
  have earned : ∀ {i p : ℕ} {points : ℤ} {opts : PointsOpts} {a b : Db},
      k.Calls reqs i points opts → c.trace[p]? = some (i, .commit a b) → b ≠ a →
      k.Earned points opts a b := by
    intro i p points opts a b hi hp hne
    have hm : .commit a b ∈ c.histOf i := Config.mem_histOf.mpr (List.mem_of_getElem? hp)
    exact ((reach_outcome hdb hheld h hi).commits a b hm).resolve_left hne
  refine ⟨rows_length_le hunique, fun i points opts hi => reach_outcome hdb hheld h hi, ?_⟩
  intro i j p q points points' opts opts' a b a' b' hi hj hp hne hq hne'
  have he := earned hi hp hne
  have he' := earned hj hq hne'
  refine (reach_linear h).once (F := fun s => k.rows s ≠ []) (fun l x y hc => ?_) hp hq
    he.rows_ne (not_not.mpr he.fresh) he'.rows_ne (not_not.mpr he'.fresh)
  exact rows_ne_nil_mono (Steps.grows (reach_commits hsafe hcond h hc))

end

end

def ticketKey : EarnKey := ⟨1, 20, .earn, "ticket", "t-1", by decide⟩

def ticketSource : PointsOpts := { sourceType := "ticket", sourceId := "t-1" }

def twoEarns : List Request :=
  [.applyPoints 1 20 5 .earn ticketSource, .applyPoints 1 20 7 .earn ticketSource]

/-- Both look the ticket up before either of them writes. -/
def bothLookFirst : List (ℕ × Move Err) :=
  List.replicate 4 (0, .go 1) ++ List.replicate 4 (1, .go 1) ++ List.replicate 17 (0, .go 1) ++
    List.replicate 10 (1, .go 1)

theorem onePatron_held : ticketKey.Held onePatron := ⟨_, rfl, rfl⟩

def toldDuplicate (c : Run) : Bool :=
  (c.answersOf 1).any fun
    | .ok (.points res) => res.idempotent
    | _ => false

set_option maxRecDepth 100000 in
theorem reach_once_bothLookFirst : ∃ c : Run,
    Reach ticketKey.Runs (start onePatron twoEarns) c ∧ c.db.log.length = 1 ∧
      toldDuplicate c = true ∧ (ticketKey.rows c.db).length ≤ 1 ∧
      ticketKey.Outcome 5 ticketSource (c.histOf 0) c.db ∧
      ticketKey.Outcome 7 ticketSource (c.histOf 1) c.db := by
  obtain ⟨c, hc, hp⟩ := exists_reach (P := ticketKey.Runs)
    (o := fun c _ => decide (ticketKey.Alone c.db)) (fun _ _ h => of_decide_eq_true h)
    (start onePatron twoEarns) bothLookFirst
    (fun c => decide (c.db.log.length = 1) && toldDuplicate c) (by decide +kernel)
  obtain ⟨hl, ht⟩ := Bool.and_eq_true_iff.mp hp
  obtain ⟨hrows, hout, -⟩ := reach_once onePatron_wellKept onePatron_held hc
  exact ⟨c, hc, of_decide_eq_true hl, ht, hrows, hout 0 5 ticketSource ⟨_, rfl, rfl⟩,
    hout 1 7 ticketSource ⟨_, rfl, rfl⟩⟩

/-- Earns that answer with an error: of no points, after a bonus of the same source, for an account
that does not exist. -/
def refusedEarns : List Request :=
  [.applyPoints 1 20 0 .earn ticketSource, .applyPoints 1 20 5 .bonus ticketSource,
   .applyPoints 1 20 7 .earn ticketSource, .applyPoints 1 21 7 .earn ticketSource]

def oneByOne : List (ℕ × Move Err) :=
  List.replicate 4 (0, .go 1) ++ List.replicate 21 (1, .go 1) ++ List.replicate 13 (2, .go 1) ++
    List.replicate 7 (3, .go 1)

set_option maxRecDepth 100000 in
theorem earns_refused : ∃ c : Run, Reach Always (start onePatron refusedEarns) c ∧
    ticketKey.rows c.db = [] ∧
    .answer (.error (.badRequest "Points amount must be positive")) ∈ c.histOf 0 ∧
    .answer (.error (.badRequest "Duplicate earn source could not be resolved")) ∈ c.histOf 2 ∧
    .answer (.error (.notFound "Loyalty account not found")) ∈ c.histOf 3 := by
  obtain ⟨c, hc, hp⟩ := exists_reach_anywhere
    (start onePatron refusedEarns) oneByOne
    (fun c => decide (ticketKey.rows c.db = []) &&
      ((c.answersOf 0).any (refused (.badRequest "Points amount must be positive")) &&
      ((c.answersOf 2).any (refused (.badRequest "Duplicate earn source could not be resolved")) &&
      (c.answersOf 3).any (refused (.notFound "Loyalty account not found"))))) (by decide +kernel)
  simp only [Bool.and_eq_true] at hp
  obtain ⟨hrows, h0, h2, h3⟩ := hp
  exact ⟨c, hc, of_decide_eq_true hrows, answer_of_refused h0, answer_of_refused h2,
    answer_of_refused h3⟩

end PatronLoyalty.Loyalty
