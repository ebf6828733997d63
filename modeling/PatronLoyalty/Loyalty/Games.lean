import PatronLoyalty.Loyalty.Alone
import PatronLoyalty.Loyalty.Redemptions
import PatronLoyalty.Txn.Commits

/-!
# Patron games

`playPatronGame` looks for the last play of the account and the game, refuses while the cooldown runs,
and else writes a play and credits its points, in one transaction. `getPatronGameStatus` computes the
same cooldown outside of it.

A transaction that reads committed rows does not see the play of another one that is about to commit.
`Unraced` is the run condition: a play is committed only if no other play of the account and the game
was committed since the request looked up the account.

Results: **`reach_games`**, what holds of the plays in such runs, and when the status tells whether a
play is accepted; **`exists_gamesRaced`**, a run of two plays at one instant.
-/

namespace PatronLoyalty.Loyalty

open Txn Relation

/-! ## The status -/

/-- What `getPatronGameStatus` says of one game. -/
structure GameStatus where
  canPlay : Bool
  nextEligibleAt : Option Time
  deriving DecidableEq, Repr

/-- The last play of a game by an account (`orderBy: { playedAt: 'desc' }`). -/
def lastPlay (orgId accountId : Id) (gameType : PatronGameType) :
    LTx (Option (Id × LoyaltyPatronGamePlay)) :=
  findLast orgId .gamePlay (fun _ g => g.accountId == accountId && g.gameType == gameType)
    fun g g' => decide (g.playedAt ≤ g'.playedAt)

def nextEligible (gameType : PatronGameType) (last : Option (Id × LoyaltyPatronGamePlay)) :
    Option Time :=
  if 0 < cooldownDays gameType then
    last.map fun g => g.2.playedAt + cooldownDays gameType * daySeconds
  else none

/-- The status of one game; the clock is read once for each of the two answers. -/
def patronGameStatus (orgId accountId : Id) (gameType : PatronGameType) : LCall GameStatus := do
  let last ← withTenant (lastPlay orgId accountId gameType)
  let next := nextEligible gameType last
  let today ← withTenant now
  let later ← withTenant now
  pure { canPlay := next.all (· ≤ today), nextEligibleAt := next.filter (later < ·) }

def getPatronGameStatus (orgId accountId : Id) : LCall (List (PatronGameType × GameStatus)) := do
  let spinWheel ← patronGameStatus orgId accountId .spinWheel
  let scratchCard ← patronGameStatus orgId accountId .scratchCard
  pure [(.spinWheel, spinWheel), (.scratchCard, scratchCard)]

/-! ## A play -/

structure PlayRequest where
  orgId : Id
  accountId : Id
  gameType : PatronGameType
  deriving DecidableEq, Repr

def PlayRequest.call (q : PlayRequest) : LCall Outcome :=
  playPatronGame q.orgId q.accountId q.gameType

def PlayRequest.counts (q : PlayRequest) (g : LoyaltyPatronGamePlay) : Prop :=
  g.orgId = q.orgId ∧ g.accountId = q.accountId ∧ g.gameType = q.gameType

instance (q : PlayRequest) (g : LoyaltyPatronGamePlay) : Decidable (q.counts g) :=
  inferInstanceAs (Decidable (_ ∧ _ ∧ _))

/-- At `today` the cooldown of every play in the store is over. -/
def PlayRequest.Rested (q : PlayRequest) (today : Time) (s : Db) : Prop :=
  ∀ id g, s.get .gamePlay id = some g → q.counts g →
    g.playedAt + cooldownDays q.gameType * daySeconds ≤ today

/-- **A play**: one row, and the points it records on the account. -/
def PlayRequest.Played (q : PlayRequest) (today : Time) (o : Outcome) (a b : Db) : Prop :=
  ∃ (id : Id) (n : Db), Rel.Replaced .gamePlay id none
      ⟨q.orgId, q.accountId, q.gameType, o.label, o.points, today⟩ a n ∧
    if 0 < o.points then ∃ (m : Movement) (r r' : LoyaltyAccount), m.accountId = q.accountId ∧
      m.delta = o.points ∧ Posts m r r' n b
    else b = n

section

variable {A : Db → Prop} {ws : List DbWrite} {s a b : Db} {q : PlayRequest} {o : Outcome}
  {today : Time} {R : Db → Db → Prop} {exc : Err → Db → Prop}

/-- The plays that are last in the order of time. -/
def latest (rows : List (Id × LoyaltyPatronGamePlay)) : List (Id × LoyaltyPatronGamePlay) :=
  rows.filter fun g => rows.all fun g' => decide (g'.2.playedAt ≤ g.2.playedAt)

theorem latest_ne_nil {rows : List (Id × LoyaltyPatronGamePlay)} (h : rows ≠ []) :
    latest rows ≠ [] := by
  cases hmax : rows.argmax (·.2.playedAt) with
  | none => exact absurd (List.argmax_eq_none.mp hmax) h
  | some g =>
    refine List.ne_nil_of_mem (a := g) (List.mem_filter.mpr ⟨List.argmax_mem hmax, ?_⟩)
    exact List.all_eq_true.mpr fun g' hg' => decide_eq_true
      (List.le_of_mem_argmax (f := fun g : Id × LoyaltyPatronGamePlay => g.2.playedAt) hg' hmax)

/-- **The last play decides**: the cooldown of some play runs if that of a last one does. -/
theorem any_latest {rows : List (Id × LoyaltyPatronGamePlay)} {d : ℕ} (n : ℕ) :
    (((latest rows)[n % (latest rows).length]?).any fun g => decide (today < g.2.playedAt + d)) =
      rows.any fun g => decide (today < g.2.playedAt + d) := by
  by_cases hrows : rows = []
  · subst hrows
    rfl
  have hlt : n % (latest rows).length < (latest rows).length :=
    Nat.mod_lt _ (List.length_pos_iff.mpr (latest_ne_nil hrows))
  obtain ⟨hmem, hall⟩ := List.mem_filter.mp (List.getElem_mem hlt)
  rw [List.getElem?_eq_getElem hlt, Option.any_some, Bool.eq_iff_iff, decide_eq_true_eq,
    List.any_eq_true]
  constructor
  · exact fun h => ⟨_, hmem, decide_eq_true h⟩
  · rintro ⟨g, hg, h⟩
    have hle := of_decide_eq_true (List.all_eq_true.mp hall g hg)
    exact (of_decide_eq_true h).trans_le (Nat.add_le_add_right hle d)

def PlayRequest.rows (q : PlayRequest) (s : Db) : List (Id × LoyaltyPatronGamePlay) :=
  s.rows .gamePlay fun _ g => visible q.orgId .gamePlay g &&
    (g.accountId == q.accountId && g.gameType == q.gameType)

theorem mem_gameRows {id : Id} {g : LoyaltyPatronGamePlay} :
    (id, g) ∈ q.rows s ↔ s.get .gamePlay id = some g ∧ q.counts g := by
  rw [PlayRequest.rows, Rel.mem_rows]
  simp [visible, tenantPolicy, orgOf, PlayRequest.counts]

/-- The check of a play. -/
theorem rested_iff (n : ℕ) :
    (((latest (q.rows s))[n % (latest (q.rows s)).length]?).any fun g =>
      decide (today < g.2.playedAt + cooldownDays q.gameType * daySeconds)) = false ↔
      q.Rested today s := by
  rw [any_latest, List.any_eq_false]
  constructor
  · intro h id g hg hc
    exact not_lt.mp (by simpa using h (id, g) (mem_gameRows.mpr ⟨hg, hc⟩))
  · rintro h ⟨id, g⟩ hm
    obtain ⟨hg, hc⟩ := mem_gameRows.mp hm
    simpa using h id g hg hc

def PlayRequest.PlaysFor (q : PlayRequest) (customerId : Id) (today : Time) (o : Outcome)
    (a b : Db) : Prop :=
  ∃ (id : Id) (n : Db), Rel.Replaced .gamePlay id none
      ⟨q.orgId, q.accountId, q.gameType, o.label, o.points, today⟩ a n ∧
    if 0 < o.points then ∃ (m : Movement) (r r' : LoyaltyAccount), r.customerId = customerId ∧
      m.delta = o.points ∧ Posts m r r' n b
    else b = n

/-- **The transaction of a play** checks the plays of some store since it began. -/
theorem wp_playTx_checked {customerId : Id} :
    Tx.wp anyStep A (fun _ => Did anyStep fun a b => ∃ s1 today, anyStep.rel s s1 ∧
      anyStep.rel s1 a ∧ q.Rested today s1 ∧ q.PlaysFor customerId today o a b) AnyErr
      (playTx q.orgId q.accountId customerId q.gameType o) [] s := by
  have hgrows : ∀ a b, anyStep.rel a b → Grows a b := fun _ _ h => Steps.grows h
  rw [playTx, Tx.wp_do, findLast]
  refine did_start.wp_findFirst fun s1 n hG _ hd => ?_
  rw [Tx.wp_do]
  intro today
  rw [Tx.wp_pure, view_nil]
  split
  · trivial
  · rename_i hrest
    have hrest : q.Rested today s1 := (rested_iff n).mp (Bool.eq_false_iff.mpr hrest)
    have hd : Did anyStep (fun a b => anyStep.rel s1 a ∧ a = b) [] s1 :=
      hd.note (fun _ _ hab h => anyStep.trans h hab) (anyStep.refl s1)
    rw [Tx.wp_do]
    refine wp_create hd (fun s2 ws2 id _ _ hd2 => ?_) (fun _ _ _ => trivial)
    split
    · rename_i hpos
      rw [Tx.wp_do]
      refine wp_adjustCustomerPoints hgrows hd2 (fun s3 ws3 acct t r r' slug _ _ hc hd3 _ => ?_)
        (fun _ _ => trivial)
      rw [Tx.pure_eq, Tx.wp_pure]
      refine hd3.mono ?_
      rintro a b ⟨n1, ⟨n0, ⟨hs1, rfl⟩, hr⟩, hp⟩
      refine ⟨s1, today, hG, hs1, hrest, id, n1, hr, ?_⟩
      rw [if_pos hpos]
      exact ⟨_, r, r', hc, adjustment_delta rfl rfl, hp⟩
    · rename_i hpos
      rw [Tx.pure_eq, Tx.wp_pure]
      refine hd2.mono ?_
      rintro a b ⟨n0, ⟨hs1, rfl⟩, hr⟩
      refine ⟨s1, today, hG, hs1, hrest, id, b, hr, ?_⟩
      rw [if_neg hpos]

theorem PlayRequest.PlaysFor.played {customerId : Id} (h : q.PlaysFor customerId today o a b)
    (ha : WellKept a) (hacc : AccountOf q.orgId customerId q.accountId a) :
    q.Played today o a b := by
  obtain ⟨id, n, hr, hp⟩ := h
  refine ⟨id, n, hr, ?_⟩
  split at hp
  · rename_i hpos
    rw [if_pos hpos]
    obtain ⟨m, r, r', hc, hd, hpost⟩ := hp
    have hfound : a.get .account m.accountId = some r := by
      rw [← hr.get_ne (by simp)]
      exact hpost.found
    obtain ⟨r0, hr0, -, hc0⟩ := hacc
    exact ⟨m, r, r', ha.holder hfound hr0 (hc.trans hc0.symm), hd, hpost⟩
  · rename_i hpos
    rw [if_neg hpos]
    exact hp

/-! ## One request -/

/-- A play commits once, or is refused. -/
abbrev PlayRequest.onePlay (q : PlayRequest) : Protocol Db Err Ev Outcome anyStep :=
  .ofHistory _ (fun _ s => WellKept s) (OneShot Eq fun o a b => ∃ today, q.Played today o a b)

/-- What a commit of the request does, in view of its history: nothing, or a play that was checked
since the request last committed. -/
def PlayRequest.Checked (q : PlayRequest) (h : List (Entry Db Err Ev Outcome)) (a b : Db) : Prop :=
  a = b ∨ ∃ s₀ s₁ customerId today o, lastStore h = some s₀ ∧ anyStep.rel s₀ s₁ ∧
    anyStep.rel s₁ a ∧ q.Rested today s₁ ∧ q.PlaysFor customerId today o a b

/-- The transaction is one of the book, too. -/
theorem wp_playTx_both {customerId : Id} :
    Tx.wp anyStep A (fun _ => Did anyStep fun a b => Plays a b ∧ ∃ s1 today, anyStep.rel s s1 ∧
      anyStep.rel s1 a ∧ q.Rested today s1 ∧ q.PlaysFor customerId today o a b) AnyErr
      (playTx q.orgId q.accountId customerId q.gameType o) [] s :=
  Tx.wp_mono (fun _ _ _ h s' hs => ⟨h.1 s' hs, h.2 s' hs⟩) (fun _ _ _ => trivial)
    (Tx.wp_and (wp_playTx fun _ _ h => Steps.grows h) wp_playTx_checked)

section

variable {α : Type} {pr : Protocol Db Err Ev α anyStep}

theorem findAccount_ensures {orgId accountId : Id} (hq : pr.Silent) :
    Ensures pr (fun _ => True) (withTenant (findById orgId .account accountId))
      (onResult (fun r s => ∀ account, r = some account →
        AccountOf orgId account.customerId accountId s) fun _ _ => True) := by
  refine Ensures.readTx (F := fun r a => ∀ account, r = some account →
    AccountOf orgId account.customerId accountId a) (X := fun _ _ => True) hq
    (fun h s s' _ _ _ => ?_) (fun _ _ _ _ _ h => h) (fun _ _ _ _ _ _ _ _ => trivial)
  have hkeeps : ∀ customerId, anyStep.Keeps (AccountOf orgId customerId accountId) :=
    fun customerId => accountOf_keeps (fun _ _ h => Steps.grows h) customerId accountId
  refine wp_findById did_start (fun s1 r _ _ hd hr hv => ?_) (fun s1 _ _ hd _ => ?_)
  · refine (hd.note (hkeeps r.customerId) ⟨r, hr, visible_account.mp hv, rfl⟩).mono ?_
    rintro a b ⟨hacc, rfl⟩
    exact ⟨rfl, fun account he => by cases he; exact hacc⟩
  · refine hd.mono ?_
    rintro a b rfl
    exact ⟨rfl, fun account he => by cases he⟩

end

theorem play_safe (q : PlayRequest) (s : Db) : Safe q.onePlay q.call s := by
  refine oneShot_safe fun s' _ _ => ?_
  refine wp_clear_bind requireEnabled_tame clear_start trivial (fun _ h1 s1 _ _ hc1 => ?_)
    fun _ _ _ hc => hc
  refine wp_clear_bind (findAccount_ensures (clear_quiet fun _ => rfl).toSilent) hc1 trivial
    (fun account h2 s2 _ hacc hc2 => ?_) fun _ _ _ hc => hc
  cases account with
  | none => exact hc2
  | some account =>
    intro draw
    show Call.wp q.onePlay _ (Call.bind (withTenant (playTx q.orgId q.accountId account.customerId
      q.gameType (outcomeOf q.gameType draw))) _) h2 s2
    have hkeeps : anyStep.Keeps (AccountOf q.orgId account.customerId q.accountId) :=
      accountOf_keeps (fun _ _ h => Steps.grows h) account.customerId q.accountId
    refine Call.wp_bind (Call.wp_mono (fun r h3 s3 hr => ?_) (wp_act (s := s2)
      (t := playTx q.orgId q.accountId account.customerId q.gameType (outcomeOf q.gameType draw))
      (R := fun _ a b => Plays a b ∧ AccountOf q.orgId account.customerId q.accountId a ∧
        ∃ today, q.PlaysFor account.customerId today (outcomeOf q.gameType draw) a b)
      (f := fun _ => outcomeOf q.gameType draw) hc2 (fun s3 hG => ?_) fun _ a b ha hR => ?_))
    · cases r with
      | error e => exact hr
      | ok result =>
        exact wp_acted_bind (dispatchIfAny_ensures (acted_quiet (fun _ => rfl) _) result) hr
          fun _ _ _ hacted => hacted
    · refine Tx.wp_mono (fun _ ws s4 hd => ?_) (fun _ _ _ => trivial)
        (Tx.wp_from (anyStep.refl s3) wp_playTx_both)
      refine (hd.2.note hkeeps (hkeeps _ _ hd.1 (hkeeps _ _ hG (hacc _ rfl)))).mono ?_
      rintro a b ⟨hof, hp, s1, today, -, -, -, hfor⟩
      exact ⟨hp, hof, today, hfor⟩
    · obtain ⟨hp, hof, today, hfor⟩ := hR
      exact ⟨hp.steps policy_true, today, hfor.played ha hof⟩

theorem checked_quiet : (Protocol.describing anyStep q.Checked).Quiet :=
  Protocol.describing_quiet fun _ _ => Or.inl rfl

def Looked (h : List (Entry Db Err Ev Outcome)) : Prop := ∃ s₀, lastStore h = some s₀

/-- **The check of a play**, in view of what the request has committed before. -/
theorem play_checked (q : PlayRequest) (s : Db) :
    Safe (.describing anyStep q.Checked) q.call s := by
  have hnil : ∀ s, (Protocol.describing anyStep q.Checked).keeps [] s := fun s =>
    ⟨commitsAs_nil, fun s0 h => by cases h⟩
  have hsnoc : ∀ {h : List (Entry Db Err Ev Outcome)} {e s}, (∀ a b, e ≠ .commit a b) →
      (Protocol.describing anyStep q.Checked).keeps h s →
      (Protocol.describing anyStep q.Checked).keeps (h ++ [e]) s :=
    fun he hk => Protocol.describing_snoc he hk
  have hstart : ∀ s, (Protocol.describing anyStep q.Checked).keeps [.start] s := fun s =>
    hsnoc (h := []) nofun (hnil s)
  refine ⟨hnil s, fun s' _ _ => ⟨hstart s', ?_⟩⟩
  have hanswer : ∀ r h s, (Protocol.describing anyStep q.Checked).keeps h s →
      Answers (.describing anyStep q.Checked) r h s := fun r h s hk s1 hG =>
    hsnoc nofun ((Protocol.describing anyStep q.Checked).keeps_stable hG hk)
  refine Call.wp_bind (Call.wp_mono (fun r h1 s1 hr => ?_)
    (requireEnabled_tame [.start] s' (hstart s') trivial))
  cases r with
  | error e => exact hanswer _ _ _ hr.1
  | ok _ =>
    -- the lookup commits, so that there is a last store
    refine Call.wp_bind (Call.wp_mono (fun r h2 s2 hr2 => ?_) (Call.wp_phaseTx
      (K := (Protocol.describing anyStep q.Checked).keeps)
      (L := fun _ h s => (Protocol.describing anyStep q.Checked).keeps h s ∧ Looked h)
      (R := fun _ a b => a = b) (t := findById q.orgId .account q.accountId) (fun _ _ hk => hk)
      (fun _ _ _ hk => hk.1) (fun _ _ _ hG hk => Protocol.keeps_stable _ hG hk)
      (fun _ e _ hk => hsnoc nofun hk) hr.1 (fun s2 _ => ?_) fun _ a b _ hk hab => ?_))
    · cases r with
      | error e => exact hanswer _ _ _ hr2
      | ok found =>
        obtain ⟨hk2, s0, hlast⟩ := hr2
        cases found with
        | none => exact hanswer _ _ _ hk2
        | some account =>
          intro draw
          show Call.wp _ _ (Call.bind (withTenant (playTx q.orgId q.accountId account.customerId
            q.gameType (outcomeOf q.gameType draw))) _) h2 s2
          refine Call.wp_bind (Call.wp_mono (fun r h3 s3 hr3 => ?_) (Call.wp_phaseTx
            (K := (Protocol.describing anyStep q.Checked).keeps)
            (L := fun _ => (Protocol.describing anyStep q.Checked).keeps)
            (R := fun _ a b => Plays a b ∧ ∃ s1 today, anyStep.rel s2 s1 ∧ anyStep.rel s1 a ∧
              q.Rested today s1 ∧
              q.PlaysFor account.customerId today (outcomeOf q.gameType draw) a b)
            (fun _ _ hk => hk) (fun _ _ _ hk => hk) (fun _ _ _ hG hk => Protocol.keeps_stable _ hG hk)
            (fun _ e _ hk => hsnoc nofun hk) hk2 (fun s3 hG => ?_) fun _ a b _ hk hR => ?_))
          · cases r with
            | error e => exact hanswer _ _ _ hr3
            | ok result =>
              refine Call.wp_bind (Call.wp_mono (fun r h4 s4 hr4 => ?_)
                (dispatchIfAny_ensures checked_quiet result h3 s3 hr3 trivial))
              cases r with
              | error e => exact hanswer _ _ _ hr4.1
              | ok _ => exact hanswer _ _ _ hr4.1
          · refine Tx.wp_mono (fun _ ws s4 hd => hd.mono ?_) (fun _ _ _ => trivial) wp_playTx_both
            rintro a b ⟨hp, s1, today, hs1, ha, hrest, hfor⟩
            exact ⟨hp, s1, today, anyStep.trans hG hs1, ha, hrest, hfor⟩
          · obtain ⟨hp, s1, today, hs1, ha, hrest, hfor⟩ := hR
            refine ⟨hp.steps policy_true, hk.1.snoc fun x y he => ?_, fun s' hs' => ?_⟩
            · cases he
              exact Or.inr ⟨s0, s1, _, today, _, hlast, anyStep.trans (hk2.2 s0 hlast) hs1, ha,
                hrest, hfor⟩
            · rw [lastStore_commit] at hs'
              cases hs'
              exact anyStep.refl _
    · exact wp_findById did_start (fun _ _ _ _ hd _ _ => hd) (fun _ _ _ hd _ => hd)
    · subst hab
      exact ⟨anyStep.refl a, checked_quiet.read _ _ hk, a, lastStore_commit _ _ _⟩

end

/-! ## Status and play at one instant -/

section

variable {env : Env} {s : Db} {q : PlayRequest} {n : ℕ}

def PlayRequest.Accepted (q : PlayRequest) (env : Env) (s : Db) : Prop :=
  ∃ o, (q.call.eval env 0 s).answer = .ok o

/-- The status lets the game be played. -/
def PlayRequest.CanPlay (q : PlayRequest) (env : Env) (s : Db) : Prop :=
  ∃ games status, ((getPatronGameStatus q.orgId q.accountId).eval env 0 s).answer = .ok games ∧
    (q.gameType, status) ∈ games ∧ status.canPlay = true

theorem cooldownDays_pos (gameType : PatronGameType) : 0 < cooldownDays gameType := by
  cases gameType <;> decide

def statusAt (env : Env) (n : ℕ) (q : PlayRequest) (s : Db) : GameStatus :=
  let next := nextEligible q.gameType (latest (q.rows s))[env.pick n % (latest (q.rows s)).length]?
  { canPlay := next.all (· ≤ env.today), nextEligibleAt := next.filter (env.today < ·) }

theorem eval_lastPlay : (withTenant (lastPlay q.orgId q.accountId q.gameType)).eval env n s =
    ⟨.ok (latest (q.rows s))[env.pick n % (latest (q.rows s)).length]?, s, [], n + 1⟩ := by
  refine Call.eval_readTx ?_
  rw [lastPlay, findLast, Tx.eval_findFirst, view_nil]
  rfl

theorem eval_patronGameStatus : (patronGameStatus q.orgId q.accountId q.gameType).eval env n s =
    ⟨.ok (statusAt env n q s), s, [], n + 1⟩ := by
  rw [patronGameStatus, Call.bind_eq, Call.eval_bind_ok eval_lastPlay]
  rfl

theorem statusAt_canPlay : (statusAt env n q s).canPlay = true ↔ q.Rested env.today s := by
  rw [← rested_iff (env.pick n), statusAt, nextEligible, if_pos (cooldownDays_pos q.gameType)]
  cases (latest (q.rows s))[env.pick n % (latest (q.rows s)).length]? with
  | none => simp
  | some g => simp

theorem canPlay_iff : q.CanPlay env s ↔ q.Rested env.today s := by
  have heval : ((getPatronGameStatus q.orgId q.accountId).eval env 0 s).answer =
      .ok [(.spinWheel, statusAt env 0 ⟨q.orgId, q.accountId, .spinWheel⟩ s),
        (.scratchCard, statusAt env 1 ⟨q.orgId, q.accountId, .scratchCard⟩ s)] := by
    rw [getPatronGameStatus, Call.bind_eq,
      Call.eval_bind_ok (eval_patronGameStatus (q := ⟨q.orgId, q.accountId, .spinWheel⟩)),
      Call.bind_eq,
      Call.eval_bind_ok (eval_patronGameStatus (q := ⟨q.orgId, q.accountId, .scratchCard⟩))]
    rfl
  unfold PlayRequest.CanPlay
  simp only [heval, Except.ok.injEq]
  obtain ⟨orgId, accountId, gameType⟩ := q
  cases gameType with
  | spinWheel => simp [statusAt_canPlay]
  | scratchCard => simp [statusAt_canPlay]

/-- A transaction that cannot fail. -/
theorem eval_succeeds {β : Type} {t : LTx β} {ws : List DbWrite}
    (h : Tx.wp alone (fun _ => True) (fun _ _ _ => True) (fun _ _ => False) t ws s) (n : ℕ) :
    ∃ b ws' m, t.eval env n ws s = (.ok (b, ws'), m) := by
  obtain ⟨-, hexc⟩ := Tx.eval_wp env trivial h n
  cases ht : t.eval env n ws s with
  | mk r m =>
    cases r with
    | ok x => exact ⟨x.1, x.2, m, rfl⟩
    | error e => exact (hexc e m ht).elim

/-- **The transaction of a play** that runs alone succeeds when the cooldown is over. -/
theorem eval_playTx {account : LoyaltyAccount} {o : Outcome}
    (hacc : s.get .account q.accountId = some account) (ho : account.orgId = q.orgId)
    (hid : s.get .gamePlay (env.pick (n + 1)) = none) :
    (∃ b ws m, (playTx q.orgId q.accountId account.customerId q.gameType o).eval env n [] s =
      (.ok (b, ws), m)) ↔ q.Rested env.today s := by
  have hlast : (findLast q.orgId .gamePlay
      (fun _ g => g.accountId == q.accountId && g.gameType == q.gameType)
      fun g g' => decide (g.playedAt ≤ g'.playedAt)).eval env n [] s =
      (.ok ((latest (q.rows s))[env.pick n % (latest (q.rows s)).length]?, []), n + 1) := by
    rw [findLast, Tx.eval_findFirst, view_nil]
    rfl
  have hnow : (now : LTx Time).eval env (n + 1) [] s = (.ok (env.today, []), n + 1) := rfl
  rw [← rested_iff (env.pick n), playTx, Tx.bind_eq, Tx.eval_bind_ok hlast, Tx.bind_eq,
    Tx.eval_bind_ok hnow]
  split
  · rename_i hrun
    simp [hrun]
  · rename_i hrest
    rw [Bool.not_eq_true] at hrest
    simp only [hrest, iff_true]
    rw [Tx.bind_eq, Tx.eval_bind_ok (eval_create
      (show (view ([] : List DbWrite) s).get .gamePlay (env.pick (n + 1)) = none from hid) rfl)]
    split
    · rename_i hpos
      have hwritten : AccountOf q.orgId account.customerId q.accountId
          (view [.put .gamePlay (env.pick (n + 1)) none
            ⟨q.orgId, q.accountId, q.gameType, o.label, o.points, env.today⟩] s) :=
        ⟨account, by rw [view_cons, view_nil, Rel.apply_put, Rel.get_put_ne (by simp)]; exact hacc,
          ho, rfl⟩
      obtain ⟨b, ws', m, hadj⟩ := eval_succeeds
        (wp_adjustCustomerPoints_succeeds (A := fun _ => True) hpos hwritten) (n + 2)
      rw [Tx.bind_eq]
      exact ⟨_, _, _, by rw [List.nil_append, Tx.eval_bind_ok hadj]; rfl⟩
    · exact ⟨_, _, _, rfl⟩

/-- The webhooks of a play do not change its answer. -/
theorem eval_dispatchIfAny {result : Option ApplyPointsTxResult} {opts : PointsOpts} {o : Outcome} :
    ((Call.bind (dispatchIfAny q.orgId q.accountId result opts) fun _ =>
      (pure o : LCall Outcome)).eval env n s).answer = .ok o := by
  refine Call.eval_leads (Q := fun r _ _ => r = .ok o) (Call.leads_bind ?_) n
  cases result with
  | none => rfl
  | some result => exact Call.leads_fireAll rfl

/-- **A play is accepted** when the feature is on, the account is there and its cooldown is over. -/
theorem accepted_iff (hid : s.get .gamePlay (env.pick 3) = none) : q.Accepted env s ↔
    env.pick 0 ≠ 0 ∧ (accountIn q.orgId q.accountId s).isSome ∧ q.Rested env.today s := by
  unfold PlayRequest.Accepted PlayRequest.call playPatronGame
  rw [Call.bind_eq, Call.eval_bind, eval_requireEnabled]
  by_cases hoff : env.pick 0 = 0
  · simp [hoff, Ran.andThen]
  simp only [hoff, if_false, Ran.andThen, ne_eq, not_false_eq_true, true_and]
  rw [Call.bind_eq, Call.eval_bind_ok eval_findAccount]
  cases hacc : accountIn q.orgId q.accountId s with
  | none => simp
  | some account =>
    obtain ⟨hget, ho⟩ := accountIn_eq_some.mp hacc
    simp only [Option.isSome_some, true_and]
    rw [Call.bind_eq, Call.eval_bind_ok (Call.eval_input _ _), Call.bind_eq, Call.eval_bind,
      ← eval_playTx (n := 2) (o := outcomeOf q.gameType (env.pick 1)) hget ho hid]
    cases hplay : (playTx q.orgId q.accountId account.customerId q.gameType
        (outcomeOf q.gameType (env.pick 1))).eval env 2 [] s with
    | mk r m =>
      cases r with
      | error e => simp [withTenant, Call.eval, Call.withTx, hplay, Ran.andThen]
      | ok x =>
        rw [withTenant, Call.eval_withTx hplay]
        simp only [Ran.andThen]
        rw [Call.bind_eq, eval_dispatchIfAny]
        exact ⟨fun _ => ⟨x.1, x.2, m, rfl⟩, fun _ => ⟨_, rfl⟩⟩

end

/-! ## Runs -/

/-- **Plays are spaced**: any two plays of an account and a game are the cooldown apart. -/
def Spaced (s : Db) : Prop :=
  ∀ (q : PlayRequest) (id id' : Id) (g g' : LoyaltyPatronGamePlay), id ≠ id' →
    s.get .gamePlay id = some g → s.get .gamePlay id' = some g' → q.counts g → q.counts g' →
      g.playedAt + cooldownDays q.gameType * daySeconds ≤ g'.playedAt ∨
        g'.playedAt + cooldownDays q.gameType * daySeconds ≤ g.playedAt

abbrev PlayRun := Config Db DbWrite Err Ev Outcome

def startPlays (db : Db) (reqs : List PlayRequest) : PlayRun :=
  Config.init db (reqs.map PlayRequest.call)

/-- **No race**: if the commit adds a play, the plays before it are those of the request's last
store. -/
def PlayRequest.Unraced (q : PlayRequest) (h : List (Entry Db Err Ev Outcome)) (a b : Db) : Prop :=
  q.rows b = q.rows a ∨ ∀ s₀, lastStore h = some s₀ → ∀ g ∈ q.rows a, g ∈ q.rows s₀

def UnracedPlays (reqs : List PlayRequest) (c : PlayRun) (i : ℕ) : Prop :=
  c.CommitMeets (fun i h a b => ∀ q, reqs[i]? = some q → q.Unraced h a b) i

structure GamesKept (reqs : List PlayRequest) (c : PlayRun) : Prop where
  /-- A request that has answered has committed its play, once, with its points; a refused one has
  committed nothing. -/
  played (i : ℕ) (q : PlayRequest) : reqs[i]? = some q →
    OneShot Eq (fun o a b => ∃ today, q.Played today o a b) (c.histOf i)
  spaced : Spaced c.db

/-- At one instant on one store, a play is accepted if and only if the status says so, as long as
nothing but the cooldown can refuse it. -/
def StatusTells : Prop :=
  ∀ (q : PlayRequest) (env env' : Env) (s : Db), env'.today = env.today →
    s.get .gamePlay (env.pick 3) = none →
    ((q.Accepted env s ↔ q.CanPlay env' s) ↔
      (q.Rested env.today s → env.pick 0 ≠ 0 ∧ (accountIn q.orgId q.accountId s).isSome))

theorem statusTells : StatusTells := by
  intro q env env' s htoday hid
  rw [accepted_iff hid, canPlay_iff, htoday]
  tauto

section

variable {db : Db} {reqs : List PlayRequest} {c : PlayRun} {a b : Db} {q : PlayRequest}

theorem PlayRequest.PlaysFor.plays {customerId : Id} {today : Time} {o : Outcome}
    (h : q.PlaysFor customerId today o a b) : ∃ id, a.get .gamePlay id = none ∧
      b.get .gamePlay id =
        some ⟨q.orgId, q.accountId, q.gameType, o.label, o.points, today⟩ ∧
      ∀ j, j ≠ id → b.get .gamePlay j = a.get .gamePlay j := by
  obtain ⟨id, n, hr, hp⟩ := h
  have hb : ∀ j, b.get .gamePlay j = n.get .gamePlay j := fun j => by
    split at hp
    · obtain ⟨m, r, r', -, -, hpost⟩ := hp
      exact hpost.get_ne (by simp)
    · rw [hp]
  refine ⟨id, hr.get_old, (hb id).trans hr.get_self, fun j hj => ?_⟩
  exact (hb j).trans (hr.get_ne (by simpa using hj))

theorem PlayRequest.PlaysFor.spaced {customerId : Id} {today : Time} {o : Outcome}
    (h : q.PlaysFor customerId today o a b) (hrest : q.Rested today a) (hs : Spaced a) :
    Spaced b := by
  obtain ⟨id, -, hnewRow, hother⟩ := h.plays
  have hsplit : ∀ j g, b.get .gamePlay j = some g → (j = id ∧
      g = ⟨q.orgId, q.accountId, q.gameType, o.label, o.points, today⟩) ∨
        a.get .gamePlay j = some g := by
    intro j g hg
    by_cases hj : j = id
    · subst hj
      exact Or.inl ⟨rfl, Option.some.inj (hg.symm.trans hnewRow)⟩
    · exact Or.inr ((hother j hj).symm.trans hg)
  have hnew : ∀ (p : PlayRequest) j g, a.get .gamePlay j = some g → p.counts g →
      p.counts ⟨q.orgId, q.accountId, q.gameType, o.label, o.points, today⟩ →
      g.playedAt + cooldownDays p.gameType * daySeconds ≤ today := by
    rintro ⟨po, pa, pg⟩ j g hg hc ⟨ho, ha, ht⟩
    dsimp only at ho ha ht
    subst ho ha ht
    exact hrest j g hg hc
  intro p j j' g g' hne hg hg' hc hc'
  rcases hsplit j g hg with ⟨rfl, rfl⟩ | hg
  · rcases hsplit j' g' hg' with ⟨rfl, -⟩ | hg'
    · exact absurd rfl hne
    · exact Or.inr (hnew p j' g' hg' hc' hc)
  · rcases hsplit j' g' hg' with ⟨rfl, rfl⟩ | hg'
    · exact Or.inl (hnew p j g hg hc hc')
    · exact hs p j j' g g' hne hg hg' hc hc'

/-- **A commit** without a race keeps the plays spaced. -/
theorem PlayRequest.Checked.spaced {h : List (Entry Db Err Ev Outcome)} (hchk : q.Checked h a b)
    (hun : q.Unraced h a b) (hs : Spaced a) : Spaced b := by
  rcases hchk with rfl | ⟨s0, s1, customerId, today, o, hlast, h0, h1, hrest, hfor⟩
  · exact hs
  · refine hfor.spaced (fun id g hg hc => ?_) hs
    rcases hun with hrows | hseen
    · -- the play itself is one more
      obtain ⟨j, hold, hnew, -⟩ := hfor.plays
      have hmem := mem_gameRows.mpr ⟨hnew, rfl, rfl, rfl⟩
      rw [hrows] at hmem
      cases hold.symm.trans (mem_gameRows.mp hmem).1
    · obtain ⟨hg0, -⟩ := mem_gameRows.mp (hseen s0 hlast _ (mem_gameRows.mpr ⟨hg, hc⟩))
      obtain ⟨g', hg', he⟩ := (Steps.grows h0).row (k := .gamePlay) hg0
      cases (he : g' = g)
      exact hrest id g hg' hc

/-- **Games.** In a run whose plays are committed without a race, whatever fails, the plays of a game
are the cooldown apart; at one instant the status tells what a play does. -/
theorem reach_games (hdb : WellKept db) (hs : Spaced db)
    (h : Reach (UnracedPlays reqs) (startPlays db reqs) c) : GamesKept reqs c ∧ StatusTells := by
  refine ⟨⟨fun i q hi => ?_, ?_⟩, statusTells⟩
  · exact reach_each (fun q _ => play_safe q db) (fun _ _ _ hG => Steps.wellKept hG hdb) h hi
  · refine (reach_linear h).carry (F := Spaced) (fun i a b hc ha => ?_) hs
    have hlt : i < reqs.length := by
      have hi := reach_owned h hc
      rwa [List.length_map] at hi
    have hi : reqs[i]? = some reqs[i] := List.getElem?_eq_getElem hlt
    have hchk : CommitsAs reqs[i].Checked (c.histOf i) :=
      (reach_each (fun q _ => play_checked q db) (fun _ _ _ _ => trivial) h hi).1
    have hun := reach_commitMeets
      (K := fun i h a b => ∀ q, reqs[i]? = some q → q.Unraced h a b) (fun _ _ hP => hP) h i
    obtain ⟨h1, h2, heq⟩ := List.append_of_mem (Config.mem_histOf.mpr hc)
    exact (hchk h1 a b h2 heq).spaced (hun h1 a b h2 heq _ hi) ha

end

/-- The condition, computed. -/
def unracedPlays (reqs : List PlayRequest) (c : PlayRun) (i : ℕ) : Bool :=
  c.commitMeets (fun i h a b => reqs[i]?.all fun q => decide (q.rows b = q.rows a) ||
    (lastStore h).all fun s₀ => (q.rows a).all fun g => decide (g ∈ q.rows s₀)) i

theorem of_unracedPlays {reqs : List PlayRequest} {c : PlayRun} {i : ℕ}
    (h : unracedPlays reqs c i = true) : UnracedPlays reqs c i := by
  refine Config.commitMeets_of (fun i h a b hk q hi => ?_) h
  rw [hi, Option.all_some, Bool.or_eq_true, decide_eq_true_eq] at hk
  refine hk.imp_right fun hall s0 hs0 g hg => ?_
  rw [hs0, Option.all_some] at hall
  exact of_decide_eq_true (List.all_eq_true.mp hall g hg)

theorem shop_noPlays (id : Id) : shop.get .gamePlay id = none := by
  unfold shop
  rw [Rel.get_set_ne (by simp), Rel.get_set_ne (by simp), Rel.get_set_ne (by simp),
    Rel.get_set_ne (by simp)]
  rfl

def bothFindNoPlay : List (ℕ × Move Err) :=
  List.replicate 12 (0, .go 1) ++ List.replicate 12 (1, .go 2) ++ List.replicate 19 (0, .go 1) ++
    List.replicate 19 (1, .go 2)

def noAccount : PlayRequest := ⟨1, 21, .scratchCard⟩

/-- **The cooldown is raced**: two scratch cards in two seconds; and the status lets an unknown
account play. -/
theorem exists_gamesRaced :
    (∃ c : PlayRun, Reach Always
      (startPlays shop [⟨1, 20, .scratchCard⟩, ⟨1, 20, .scratchCard⟩]) c ∧ ¬ Spaced c.db) ∧
    ¬ (noAccount.Accepted ⟨fun _ => 1, 100⟩ shop ↔ noAccount.CanPlay ⟨fun _ => 1, 100⟩ shop) := by
  constructor
  · obtain ⟨c, h, hc⟩ := exists_reach_anywhere
      (startPlays shop [⟨1, 20, .scratchCard⟩, ⟨1, 20, .scratchCard⟩]) bothFindNoPlay
      (fun c => decide (c.db.get .gamePlay 1 = some ⟨1, 20, .scratchCard, "10 points", 10, 1⟩ ∧
        c.db.get .gamePlay 2 = some ⟨1, 20, .scratchCard, "15 points", 15, 2⟩)) (by decide +kernel)
    obtain ⟨h1, h2⟩ := of_decide_eq_true hc
    refine ⟨c, h, fun hs => ?_⟩
    exact absurd (hs ⟨1, 20, .scratchCard⟩ 1 2 _ _ (by decide) h1 h2 ⟨rfl, rfl, rfl⟩
      ⟨rfl, rfl, rfl⟩) (by decide)
  · intro h
    have hcan : noAccount.CanPlay ⟨fun _ => 1, 100⟩ shop := canPlay_iff.mpr fun id g hg _ => by
      cases (shop_noPlays id).symm.trans hg
    have hmissing : accountIn 1 21 shop = none := by decide +kernel
    obtain ⟨-, hsome, -⟩ := (accepted_iff (by decide +kernel)).mp (h.mpr hcan)
    rw [show accountIn noAccount.orgId noAccount.accountId shop = none from hmissing] at hsome
    cases hsome

def twoGames : List PlayRequest := [⟨1, 20, .scratchCard⟩, ⟨1, 20, .spinWheel⟩, ⟨1, 20, .scratchCard⟩]

theorem reach_games_twoGames : ∃ c : PlayRun,
    Reach (UnracedPlays twoGames) (startPlays shop twoGames) c ∧
      (c.db.get .account 20).map (·.pointsBalance) = some 40 ∧
      (c.answersOf 2).map Except.toOption = [none] ∧ GamesKept twoGames c ∧ StatusTells := by
  obtain ⟨c, h, hc⟩ := exists_reach (o := unracedPlays twoGames)
    (fun _ _ => of_unracedPlays) (startPlays shop twoGames)
    (bothFindNoPlay ++ List.replicate 12 (2, .go 3))
    (fun c => decide ((c.db.get .account 20).map (·.pointsBalance) = some 40 ∧
      (c.answersOf 2).map Except.toOption = [none])) (by decide +kernel)
  obtain ⟨hb, ha⟩ := of_decide_eq_true hc
  exact ⟨c, h, hb, ha, reach_games shop_wellKept
    (fun _ id _ g _ _ hg => by cases (shop_noPlays id).symm.trans hg) h⟩

end PatronLoyalty.Loyalty
