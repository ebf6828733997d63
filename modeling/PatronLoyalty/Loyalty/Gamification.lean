import PatronLoyalty.Loyalty.Catalog

/-!
# Gamification

`LoyaltyGamificationService`: challenges that count events and pay a reward when complete, badges,
and the patron games with their cooldown.
-/

namespace PatronLoyalty.Loyalty

open Txn

/-! ## Challenges -/

def CustomerChallengeProgress.bump (amount : ℤ) (p : CustomerChallengeProgress) :
    CustomerChallengeProgress :=
  { p with progress := p.progress + amount }

/-- `upsert where accountId_challengeId`: one `INSERT … ON CONFLICT DO UPDATE`. -/
def upsertProgress (orgId accountId challengeId : Id) (amount : ℤ) :
    LTx (Id × CustomerChallengeProgress) := do
  let freshId ← Tx.input
  Tx.exec fun s =>
    match (s.rows .progress fun _ p =>
      p.accountId == accountId && p.challengeId == challengeId).head? with
    | some (id, p) => .ok ((id, p.bump amount), [.put .progress id (some p) (p.bump amount)])
    | none =>
      let p : CustomerChallengeProgress := { orgId, accountId, challengeId, progress := amount }
      if (s.get .progress freshId).isSome then .error .uniqueViolation
      else .ok ((freshId, p), [.put .progress freshId none p])

def CustomerChallengeProgress.complete (targetValue : ℤ) (today : Time)
    (p : CustomerChallengeProgress) : CustomerChallengeProgress :=
  { p with completedAt := some today, progress := targetValue }

def advanceChallenge (orgId customerId accountId : Id) (amount : ℤ)
    (challenge : Id × LoyaltyChallenge) : LTx (Option ApplyPointsTxResult) := do
  let (progressId, progress) ← upsertProgress orgId accountId challenge.1 amount
  if progress.completedAt.isNone ∧ challenge.2.targetValue ≤ progress.progress then
    let today ← now
    let _ ← update orgId .progress progressId
      (CustomerChallengeProgress.complete challenge.2.targetValue today)
    if 0 < challenge.2.rewardPoints then
      let result ← adjustCustomerPoints orgId customerId challenge.2.rewardPoints
        s!"Challenge completed: {challenge.2.name}"
      pure (some result)
    else pure none
  else pure none

/-- Webhooks of a movement a transaction may have made. -/
def dispatchIfAny (orgId accountId : Id) (result : Option ApplyPointsTxResult)
    (opts : PointsOpts) : LCall Unit :=
  match result with
  | some result => dispatchApplyPointsSideEffects orgId accountId result opts
  | none => pure ()

def incrementChallengeProgress (orgId customerId : Id) (targetType : ChallengeTargetType)
    (amount : ℤ) : LCall Unit := do
  match ← ensureAccount orgId customerId with
  | none => pure ()
  | some account =>
    let challenges ← withTenant
      (findMany orgId .challenge fun _ c => c.active && c.targetType == targetType)
    Call.forEach challenges fun challenge => do
      let pointsResult ← withTenant (advanceChallenge orgId customerId account.id amount challenge)
      dispatchIfAny orgId account.id pointsResult { sourceType := "manual" }

/-! ## Badges -/

def LoyaltyBadge.eligible (badge : LoyaltyBadge) (account : LoyaltyAccount) : Bool :=
  (badge.minVisits.all fun n => decide (n ≤ account.totalVisits)) &&
    badge.minPoints.all fun n => decide (n ≤ account.lifetimePointsEarned)

def awardBadge (orgId accountId : Id) (badge : Id × LoyaltyBadge) (awarded : List String) :
    LCall (List String) := do
  let existing ← withTenant
    (findFirst orgId .customerBadge fun _ b => b.accountId == accountId && b.badgeId == badge.1)
  match existing with
  | some _ => pure awarded
  | none =>
    let _ ← withTenant (create .customerBadge { orgId, accountId, badgeId := badge.1 })
    pure (awarded ++ [badge.2.name])

def evaluateBadgesForAccount (orgId customerId : Id) : LCall (List String) := do
  match ← ensureAccount orgId customerId with
  | none => pure []
  | some account =>
    requireEnabled orgId
    let badges ← withTenant (findMany orgId .badge fun _ b => b.active)
    Call.foldEach badges [] fun awarded badge =>
      if badge.2.eligible account.row then awardBadge orgId account.id badge awarded
      else pure awarded

/-! ## Games -/

structure Outcome where
  label : String
  points : ℤ
  weight : ℤ := 1
  deriving DecidableEq, Repr

def spinOutcomes : List Outcome :=
  [⟨"10 bonus points", 10, 40⟩, ⟨"25 bonus points", 25, 30⟩, ⟨"50 bonus points", 50, 20⟩,
   ⟨"Try again soon", 0, 10⟩]

def scratchOutcomes : List Outcome :=
  [⟨"5 points", 5, 1⟩, ⟨"10 points", 10, 1⟩, ⟨"15 points", 15, 1⟩, ⟨"25 points", 25, 1⟩,
   ⟨"50 points", 50, 1⟩]

def pickWeighted (last : Outcome) : List Outcome → ℤ → Outcome
  | [], _ => last
  | item :: items, roll =>
    if roll - item.weight ≤ 0 then item else pickWeighted last items (roll - item.weight)

/-- What a draw of the environment gives in a game. -/
def outcomeOf : PatronGameType → ℕ → Outcome
  | .spinWheel, n => pickWeighted ⟨"Try again soon", 0, 10⟩ spinOutcomes ((n % 100 : ℕ) : ℤ)
  | .scratchCard, n => scratchOutcomes.getD (n % scratchOutcomes.length) ⟨"5 points", 5, 1⟩

def cooldownDays : PatronGameType → ℕ
  | .spinWheel => 7
  | .scratchCard => 3

def PatronGameType.text : PatronGameType → String
  | .spinWheel => "spin wheel"
  | .scratchCard => "scratch card"

/-- The transaction of `playPatronGame`. -/
def playTx (orgId accountId customerId : Id) (gameType : PatronGameType) (outcome : Outcome) :
    LTx (Option ApplyPointsTxResult) := do
  -- Re-check cooldown inside the same transaction.
  let last ← findLast orgId .gamePlay (fun _ g => g.accountId == accountId && g.gameType == gameType)
    fun g g' => decide (g.playedAt ≤ g'.playedAt)
  let today ← now
  if last.any fun g => decide (today < g.2.playedAt + cooldownDays gameType * daySeconds) then
    Tx.throw (.badRequest "Game not available yet")
  else
    let _ ← create .gamePlay
      { orgId, accountId, gameType, resultLabel := outcome.label, pointsAwarded := outcome.points,
        playedAt := today }
    if 0 < outcome.points then
      let result ← adjustCustomerPoints orgId customerId outcome.points
        s!"Patron {gameType.text}: {outcome.label}"
      pure (some result)
    else pure none

def playPatronGame (orgId accountId : Id) (gameType : PatronGameType) : LCall Outcome := do
  requireEnabled orgId
  match ← withTenant (findById orgId .account accountId) with
  | none => throw (.badRequest "Account not found")
  | some account =>
    let draw ← Call.input
    let outcome := outcomeOf gameType draw
    let pointsResult ← withTenant (playTx orgId accountId account.customerId gameType outcome)
    dispatchIfAny orgId accountId pointsResult { sourceType := "manual" }
    pure outcome

end PatronLoyalty.Loyalty
