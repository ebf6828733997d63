import PatronLoyalty.Loyalty.ChallengeProgress
import PatronLoyalty.Txn.Commits
import PatronLoyalty.Txn.Tally

/-!
# Challenges

`incrementChallengeProgress` counts a call on every active challenge of its target type, each in a
transaction of its own: the progress row is created or incremented, and a challenge that is open and
reaches its target is capped, completed and rewarded.

The `standing` of an account in a challenge is its progress and whether it is complete; `advance` is
what one call makes of it, and `reached` what calls of `n` in all make of it, as long as none is
counted on a challenge that is complete. That is the run condition, `KeepsCompleted`: a call that is
counted there raises the progress beyond the target.

Results: **`reach_challenges`**, progress, completion and reward in such runs;
**`exists_overcounted`**, a run outside them; **`reach_windows`**, when the calls keep to the windows
of the challenges, which nothing in the code consults.
-/

namespace PatronLoyalty.Loyalty

open Txn Relation

/-! ## A call -/

/-- A call of `incrementChallengeProgress`. -/
structure Increment where
  orgId : Id
  customerId : Id
  targetType : ChallengeTargetType
  amount : ℕ
  deriving DecidableEq, Repr

def Increment.call (q : Increment) : LCall Unit :=
  incrementChallengeProgress q.orgId q.customerId q.targetType q.amount

def Increment.Meets (q : Increment) (w : LoyaltyChallenge) : Prop :=
  w.orgId = q.orgId ∧ w.active = true ∧ w.targetType = q.targetType

instance (q : Increment) (w : LoyaltyChallenge) : Decidable (q.Meets w) :=
  inferInstanceAs (Decidable (_ ∧ _ ∧ _))

/-! ## The standing in a challenge -/

def progressOf (accountId challengeId : Id) (s : Db) : List (Id × CustomerChallengeProgress) :=
  s.rows .progress fun _ p => p.accountId == accountId && p.challengeId == challengeId

def standing (accountId challengeId : Id) (s : Db) : ℤ × Bool :=
  (progressOf accountId challengeId s).head?.elim (0, false)
    fun e => (e.2.progress, e.2.completedAt.isSome)

/-- What a call makes of a standing. -/
def advance (target amount : ℤ) (v : ℤ × Bool) : ℤ × Bool :=
  if v.2 = false ∧ target ≤ v.1 + amount then (target, true) else (v.1 + amount, v.2)

/-- Where calls of `n` in all lead. -/
def reached (target : ℤ) (n : ℕ) : ℤ × Bool :=
  if target ≤ n then (target, true) else (n, false)

/-- The challenge is completed from `a` to `b`. -/
def Fulfils (accountId challengeId : Id) (a b : Db) : Prop :=
  (standing accountId challengeId a).2 = false ∧ (standing accountId challengeId b).2 = true

/-- **The reward** on the ledger. -/
def Pays (accountId : Id) (rewardPoints : ℤ) (a b : Db) : Prop :=
  if 0 < rewardPoints then ∃ l : LoyaltyPointLedger, b.log = a.log ++ [l] ∧ l.accountId = accountId ∧
    l.points = rewardPoints
  else b.log = a.log

/-- Neither progress nor points move, nor the challenges. -/
structure Ordinary (a b : Db) : Prop where
  progress : SameProgress a b
  log : b.log = a.log
  challenges (id : Id) : b.get .challenge id = a.get .challenge id

/-- What a commit of a call does: nothing to progress and points, or it counts the call on a
challenge. -/
def Increment.Does (q : Increment) (a b : Db) : Prop :=
  Ordinary a b ∨ ∃ (accountId challengeId : Id) (w : LoyaltyChallenge),
    a.get .challenge challengeId = some w ∧ q.Meets w ∧ AccountOf q.orgId q.customerId accountId a ∧
      Progresses q.customerId accountId challengeId q.amount w a b

section

variable {a b s : Db} {accountId challengeId customerId : Id} {amount target : ℤ}
  {w : LoyaltyChallenge}

theorem ordinary_refl (a : Db) : Ordinary a a := ⟨rfl, rfl, fun _ => rfl⟩

theorem Provisions.ordinary (h : Provisions a b) : Ordinary a b where
  progress := h.sameProgress
  log := h.log
  challenges id := by
    induction h with
    | refl => rfl
    | tail _ hs ih => exact (hs.get_eq rfl (by decide) (by decide) id).trans ih

theorem mem_progressOf {id : Id} {p : CustomerChallengeProgress} :
    (id, p) ∈ progressOf accountId challengeId s ↔ s.get .progress id = some p ∧
      p.accountId = accountId ∧ p.challengeId = challengeId := by
  rw [progressOf, Rel.mem_rows]
  simp

theorem standing_of_get (hu : Rel.Unique s) {id : Id} {p : CustomerChallengeProgress}
    (hp : s.get .progress id = some p) :
    standing p.accountId p.challengeId s = (p.progress, p.completedAt.isSome) := by
  have hm : (id, p) ∈ progressOf p.accountId p.challengeId s := mem_progressOf.mpr ⟨hp, rfl, rfl⟩
  unfold standing
  cases hh : (progressOf p.accountId p.challengeId s).head? with
  | none =>
    rw [List.head?_eq_none_iff] at hh
    rw [hh] at hm
    cases hm
  | some e =>
    obtain ⟨id', p'⟩ := e
    obtain ⟨hp', ha, hc⟩ := mem_progressOf.mp (List.mem_of_head? hh)
    have hid : id' = id := hu.row (k := .progress) (u := .progress p.accountId p.challengeId)
      ⟨p', hp', by simp [Keyed.keys, uniqueKeys, ha, hc]⟩
      ⟨p, hp, by simp [Keyed.keys, uniqueKeys]⟩
    subst hid
    cases hp'.symm.trans hp
    rfl

theorem standing_of_none (hno : ∀ id p, s.get .progress id = some p →
    ¬ (p.accountId = accountId ∧ p.challengeId = challengeId)) :
    standing accountId challengeId s = (0, false) := by
  have hnil : progressOf accountId challengeId s = [] := by
    refine List.eq_nil_iff_forall_not_mem.mpr fun e he => ?_
    obtain ⟨hp, hx⟩ := mem_progressOf.mp he
    exact hno e.1 e.2 hp hx
  rw [standing, hnil]
  rfl

theorem exists_completed (hdone : (standing accountId challengeId s).2 = true) :
    ∃ id p, s.get .progress id = some p ∧ p.accountId = accountId ∧ p.challengeId = challengeId ∧
      p.completedAt.isSome = true := by
  unfold standing at hdone
  cases hh : (progressOf accountId challengeId s).head? with
  | none =>
    rw [hh] at hdone
    cases hdone
  | some e =>
    rw [hh] at hdone
    obtain ⟨hp, ha, hc⟩ := mem_progressOf.mp (List.mem_of_head? hh)
    exact ⟨e.1, e.2, hp, ha, hc, hdone⟩

theorem standing_congr (hua : Rel.Unique a) (hub : Rel.Unique b)
    (h : ∀ id p, p.accountId = accountId → p.challengeId = challengeId →
      (a.get .progress id = some p ↔ b.get .progress id = some p)) :
    standing accountId challengeId b = standing accountId challengeId a := by
  by_cases hrow : ∃ id p, a.get .progress id = some p ∧ p.accountId = accountId ∧
      p.challengeId = challengeId
  · obtain ⟨id, p, hp, rfl, rfl⟩ := hrow
    rw [standing_of_get hua hp, standing_of_get hub ((h id p rfl rfl).mp hp)]
  · rw [standing_of_none fun id p hp hx => hrow ⟨id, p, hp, hx⟩,
      standing_of_none fun id p hp hx => hrow ⟨id, p, (h id p hx.1 hx.2).mpr hp, hx⟩]

theorem SameProgress.stands (h : SameProgress a b) (accountId challengeId : Id) :
    standing accountId challengeId b = standing accountId challengeId a := by
  rw [standing, standing, progressOf, progressOf, h.rows]

/-! ## One count -/

/-- **The row of a count**: it is one step further, and the others are as before. -/
theorem Progresses.row (h : Progresses customerId accountId challengeId amount w a b) :
    ∃ (id : Id) (new : CustomerChallengeProgress), b.get .progress id = some new ∧
      new.accountId = accountId ∧ new.challengeId = challengeId ∧
      (∀ id', id' ≠ id → b.get .progress id' = a.get .progress id') ∧
      (∀ old, a.get .progress id = some old → old.accountId = accountId ∧
        old.challengeId = challengeId) ∧
      (new.progress, new.completedAt.isSome) = advance w.targetValue amount
        ((a.get .progress id).elim (0, false) fun p => (p.progress, p.completedAt.isSome)) := by
  obtain ⟨id, old, p, a1, hb, hrest⟩ := h
  have hold : a.get .progress id = old := hb.result.get_old
  have hbefore : ∀ q, old = some q → q.accountId = accountId ∧ q.challengeId = challengeId := by
    intro q hq
    obtain ⟨h1, h2⟩ := hb.kept q hq
    exact ⟨h1.symm.trans hb.account, h2.symm.trans hb.challenge⟩
  have hvalue : (p.progress, p.completedAt.isSome) =
      ((old.elim (0, false) fun p => (p.progress, p.completedAt.isSome)).1 + amount,
        (old.elim (0, false) fun p => (p.progress, p.completedAt.isSome)).2) := by
    rw [hb.progress, hb.completedAt]
    cases old <;> rfl
  rw [Prod.mk.injEq] at hvalue
  split at hrest
  · rename_i hdone
    obtain ⟨today, a2, hr, hp⟩ := hrest
    have hsame := hp.rewards.sameProgress
    refine ⟨id, p.complete w.targetValue today, (hsame.get id).trans hr.get_self, hb.account,
      hb.challenge, fun id' hid => ?_, fun q hq => hbefore q (hold.symm.trans hq), ?_⟩
    · rw [hsame.get, hr.get_ne (by simpa using hid), hb.result.get_ne (by simpa using hid)]
    · rw [hold, advance, if_pos]
      · rfl
      · rw [← hvalue.1, ← hvalue.2, hdone.1]
        exact ⟨rfl, hdone.2⟩
  · rename_i hopen
    subst hrest
    refine ⟨id, p, hb.result.get_self, hb.account, hb.challenge,
      fun id' hid => hb.result.get_ne (by simpa using hid),
      fun q hq => hbefore q (hold.symm.trans hq), ?_⟩
    rw [hold, advance, if_neg]
    · exact Prod.ext hvalue.1 hvalue.2
    · rw [← hvalue.1, ← hvalue.2]
      rintro ⟨hn, hle⟩
      exact hopen ⟨Option.not_isSome_iff_eq_none.mp (by rw [hn]; decide), hle⟩

/-- **A count** takes the standing one step further. -/
theorem Progresses.stands (h : Progresses customerId accountId challengeId amount w a b)
    (hua : Rel.Unique a) (hub : Rel.Unique b) : standing accountId challengeId b =
      advance w.targetValue amount (standing accountId challengeId a) := by
  obtain ⟨id, new, hnew, rfl, rfl, hothers, hold, hvalue⟩ := h.row
  rw [standing_of_get hub hnew, hvalue]
  cases hg : a.get .progress id with
  | some p =>
    obtain ⟨ha, hc⟩ := hold p hg
    rw [← ha, ← hc, standing_of_get hua hg]
    rfl
  | none =>
    rw [standing_of_none fun id' p hp hx => ?_]
    · rfl
    · -- another row of the account and the challenge would be there beside the new one
      have hne : id' ≠ id := fun he => by
        subst he
        cases hg.symm.trans hp
      refine hne (hub.row (k := .progress) (u := .progress new.accountId new.challengeId)
        ⟨p, (hothers id' hne).trans hp, ?_⟩ ⟨new, hnew, by simp [Keyed.keys, uniqueKeys]⟩)
      simp [Keyed.keys, uniqueKeys, hx.1, hx.2]

theorem Progresses.stands_ne (h : Progresses customerId accountId challengeId amount w a b)
    (hua : Rel.Unique a) (hub : Rel.Unique b) {x y : Id}
    (hne : ¬ (x = accountId ∧ y = challengeId)) : standing x y b = standing x y a := by
  obtain ⟨id, new, hnew, hacc, hch, hothers, hold, -⟩ := h.row
  refine standing_congr hua hub fun id' p hx hy => ?_
  by_cases hid : id' = id
  · subst hid
    constructor
    · intro hp
      obtain ⟨h1, h2⟩ := hold p hp
      exact absurd ⟨hx.symm.trans h1, hy.symm.trans h2⟩ hne
    · intro hp
      cases hnew.symm.trans hp
      exact absurd ⟨hx.symm.trans hacc, hy.symm.trans hch⟩ hne
  · rw [hothers id' hid]

theorem Progresses.challenges (h : Progresses customerId accountId challengeId amount w a b) (id : Id) :
    b.get .challenge id = a.get .challenge id := by
  obtain ⟨x, old, p, a1, hb, hrest⟩ := h
  split at hrest
  · obtain ⟨today, a2, hr, hp⟩ := hrest
    have hpaid : b.get .challenge id = a2.get .challenge id := by
      rcases hp.rewards with rfl | ⟨m, r, r', -, hpost⟩
      · rfl
      · exact hpost.get_ne (by simp)
    rw [hpaid, hr.get_ne (by simp), hb.result.get_ne (by simp)]
  · rw [hrest, hb.result.get_ne (by simp)]

theorem Increment.Does.challenges {q : Increment} (h : q.Does a b) (id : Id) :
    b.get .challenge id = a.get .challenge id := by
  rcases h with h | ⟨x, y, w, -, -, -, h⟩
  · exact h.challenges id
  · exact h.challenges id

/-- A count of something changes the standing. -/
theorem advance_ne {v : ℤ × Bool} (hn : amount ≠ 0) : advance target amount v ≠ v := by
  obtain ⟨n, done⟩ := v
  unfold advance
  split
  · rename_i h
    intro he
    rw [← he] at h
    cases h.1
  · intro he
    have := congrArg Prod.fst he
    dsimp only at this
    omega

theorem PaysReward.pays {orgId : Id} {rewardPoints : ℤ} {c : Db} (h : PaysReward customerId rewardPoints c b)
    (ha : WellKept a) (hacc : AccountOf orgId customerId accountId a)
    (hsame : ∀ id, c.get .account id = a.get .account id) (hlog : c.log = a.log) :
    Pays accountId rewardPoints a b := by
  unfold PaysReward at h
  unfold Pays
  split
  · rename_i hpos
    rw [if_pos hpos] at h
    obtain ⟨m, r, r', -, hc, hd, hp⟩ := h
    obtain ⟨q, hq, -, hqc⟩ := hacc
    have hr : a.get .account m.accountId = some r := (hsame _).symm.trans hp.found
    exact ⟨_, by rw [hp.log, hlog], ha.holder hr hq (hc.trans hqc.symm), hd⟩
  · rename_i hpos
    rw [if_neg hpos] at h
    rw [h, hlog]

/-- **Points move** when a challenge is completed, by its reward. -/
theorem Progresses.pays {orgId : Id} (h : Progresses customerId accountId challengeId amount w a b)
    (ha : WellKept a) (hub : Rel.Unique b) (hacc : AccountOf orgId customerId accountId a) :
    ((∀ x y, ¬ Fulfils x y a b) ∧ b.log = a.log) ∨
      Fulfils accountId challengeId a b ∧ Pays accountId w.rewardPoints a b := by
  have hne := fun x y => h.stands_ne ha.unique hub (x := x) (y := y)
  obtain ⟨id, old, p, a1, hb, hrest⟩ := h
  have hcompleted := hb.completedAt
  split at hrest
  · rename_i hdone
    obtain ⟨today, a2, hr, hp⟩ := hrest
    have hget : b.get .progress id = some (p.complete w.targetValue today) :=
      (hp.rewards.sameProgress.get id).trans hr.get_self
    have hstands := standing_of_get hub hget
    rw [show (p.complete w.targetValue today).accountId = accountId from hb.account,
      show (p.complete w.targetValue today).challengeId = challengeId from hb.challenge] at hstands
    refine Or.inr ⟨⟨?_, by rw [hstands]; rfl⟩, hp.pays ha hacc (fun id' => ?_) ?_⟩
    · by_contra hopen
      obtain ⟨id', q, hq, hqa, hqc, hqd⟩ := exists_completed (Bool.eq_true_of_not_eq_false hopen)
      -- its row would be the one that is counted on
      by_cases hid : id' = id
      · subst hid
        rw [← hb.result.get_old, hq, Option.bind_some, hdone.1] at hcompleted
        rw [← hcompleted] at hqd
        cases hqd
      · have hq' : b.get .progress id' = some q := by
          rw [hp.rewards.sameProgress.get, hr.get_ne (by simpa using hid),
            hb.result.get_ne (by simpa using hid), hq]
        refine hid (hub.row (k := .progress) (u := .progress accountId challengeId)
          ⟨q, hq', by simp [Keyed.keys, uniqueKeys, hqa, hqc]⟩ ⟨_, hget, ?_⟩)
        simp [Keyed.keys, uniqueKeys, CustomerChallengeProgress.complete, hb.account, hb.challenge]
    · rw [hr.get_ne (by simp), hb.result.get_ne (by simp)]
    · rw [hr.log, hb.result.log]
  · subst hrest
    refine Or.inl ⟨fun x y hf => ?_, hb.result.log⟩
    by_cases hxy : x = accountId ∧ y = challengeId
    · obtain ⟨rfl, rfl⟩ := hxy
      have hstands := standing_of_get hub hb.result.get_self
      rw [hb.account, hb.challenge] at hstands
      have hsome := hf.2
      rw [hstands, hcompleted] at hsome
      cases hold : old with
      | none =>
        rw [hold] at hsome
        cases hsome
      | some q =>
        rw [hold] at hsome
        obtain ⟨h1, h2⟩ := hb.kept q hold
        have hbefore := standing_of_get ha.unique (hb.result.get_old.trans hold)
        rw [← h1, ← h2, hb.account, hb.challenge] at hbefore
        have hopen := hf.1
        rw [hbefore] at hopen
        rw [Option.bind_some, hopen] at hsome
        cases hsome
    · have hopen := hf.1
      rw [← hne x y hxy, hf.2] at hopen
      cases hopen

end

/-! ## The history of a call -/

/-- What a line gives to a standing: the amount of its call, if it changes it. -/
def gain (accountId challengeId : Id) (amount : ℕ) : Entry Db Err Ev Unit → ℕ
  | .commit a b => if standing accountId challengeId b = standing accountId challengeId a then 0
      else amount
  | _ => 0

def Increment.given (q : Increment) (accountId challengeId : Id) (h : List (Entry Db Err Ev Unit)) :
    ℕ := (h.map (gain accountId challengeId q.amount)).sum

/-- The call has committed something: it has found the feature on. -/
def Committed (h : List (Entry Db Err Ev Unit)) : Prop := ∃ a b, .commit a b ∈ h

/-- **What a call keeps**, in a run from `db`. -/
structure Increment.Keeps (q : Increment) (db : Db) (h : List (Entry Db Err Ev Unit)) (s : Db) :
    Prop where
  does (a b : Db) : .commit a b ∈ h → q.Does a b
  once (accountId challengeId : Id) :
    q.given accountId challengeId h = 0 ∨ q.given accountId challengeId h = q.amount
  counted : .answer (.ok ()) ∈ h → Committed h → ∃ accountId,
    AccountOf q.orgId q.customerId accountId s ∧ ∀ challengeId w,
      db.get .challenge challengeId = some w → q.Meets w →
        q.given accountId challengeId h = q.amount

/-- With its account, and past the challenges of `S`. -/
structure Increment.Counting (q : Increment) (accountId : Id) (S : List Id)
    (h : List (Entry Db Err Ev Unit)) (s : Db) : Prop where
  unanswered : Txn.Unanswered h
  does (a b : Db) : .commit a b ∈ h → q.Does a b
  account : AccountOf q.orgId q.customerId accountId s
  counted (challengeId : Id) : challengeId ∈ S → q.given accountId challengeId h = q.amount
  ahead (x y : Id) : ¬ (x = accountId ∧ y ∈ S) → q.given x y h = 0

structure Increment.Listed (q : Increment) (db : Db) (cs : List (Id × LoyaltyChallenge)) (s : Db) :
    Prop where
  nodup : (cs.map (·.1)).Nodup
  found (c : Id × LoyaltyChallenge) : c ∈ cs → s.get .challenge c.1 = some c.2 ∧ q.Meets c.2
  all (challengeId : Id) (w : LoyaltyChallenge) : db.get .challenge challengeId = some w →
    q.Meets w → (challengeId, w) ∈ cs

section

variable {q : Increment} {db a b s s' : Db} {h : List (Entry Db Err Ev Unit)}
  {e : Entry Db Err Ev Unit} {accountId challengeId x y : Id} {S : List Id}

theorem given_snoc : q.given x y (h ++ [e]) = q.given x y h + gain x y q.amount e := by
  rw [Increment.given, List.map_append, List.sum_append]
  simp [Increment.given]

theorem gain_eq_zero (he : ∀ a b, e = .commit a b → standing x y b = standing x y a) :
    gain x y q.amount e = 0 := by
  cases e with
  | commit a b => exact if_pos (he a b rfl)
  | _ => rfl

theorem Clear.given (hc : Clear Ordinary h) : q.given x y h = 0 := by
  refine List.sum_eq_zero fun n hn => ?_
  obtain ⟨e, he, rfl⟩ := List.mem_map.mp hn
  refine gain_eq_zero fun a b hab => ?_
  subst hab
  exact (hc.within a b he).progress.stands x y

theorem Clear.keeps (hc : Clear Ordinary h) : q.Keeps db h s where
  does a b hm := Or.inl (hc.within a b hm)
  once _ _ := Or.inl (Clear.given hc)
  counted hm := absurd hm (hc.unanswered _)

theorem Clear.counting (hc : Clear Ordinary h) (hacc : AccountOf q.orgId q.customerId accountId s) :
    q.Counting accountId [] h s where
  unanswered := hc.unanswered
  does a b hm := Or.inl (hc.within a b hm)
  account := hacc
  counted _ hm := by cases hm
  ahead _ _ _ := Clear.given hc

namespace Increment.Counting

variable (hc : q.Counting accountId S h s)

include hc

theorem keeps : q.Keeps db h s where
  does := hc.does
  once x y := by
    by_cases hxy : x = accountId ∧ y ∈ S
    · obtain ⟨rfl, hy⟩ := hxy
      exact Or.inr (hc.counted y hy)
    · exact Or.inl (hc.ahead x y hxy)
  counted hm := absurd hm (hc.unanswered _)

theorem mono (hg : Grows s s') : q.Counting accountId S h s' where
  unanswered := hc.unanswered
  does := hc.does
  account := by
    obtain ⟨r, hr, ho, hcu⟩ := hc.account
    obtain ⟨r', hr', he⟩ := hg.row (k := .account) hr
    exact ⟨r', hr', he.1.trans ho, he.2.trans hcu⟩
  counted := hc.counted
  ahead := hc.ahead

/-- A line that gives nothing. -/
theorem snoc (hr : ∀ r, e ≠ .answer r) (he : ∀ a b, e = .commit a b → Ordinary a b) :
    q.Counting accountId S (h ++ [e]) s := by
  have hgain : ∀ x y, gain x y q.amount e = 0 := fun x y =>
    gain_eq_zero fun a b hab => (he a b hab).progress.stands x y
  exact {
    unanswered := hc.unanswered.snoc hr
    does := fun a b hm => (mem_snoc.mp hm).elim (hc.does a b) fun hab => Or.inl (he a b hab.symm)
    account := hc.account
    counted := fun y hy => by rw [given_snoc, hgain, Nat.add_zero, hc.counted y hy]
    ahead := fun x y hxy => by rw [given_snoc, hgain, Nat.add_zero, hc.ahead x y hxy] }

/-- **A challenge that was ahead** is counted on. -/
theorem count {w : LoyaltyChallenge} (hua : Rel.Unique a) (hub : Rel.Unique b)
    (hw : a.get .challenge challengeId = some w) (hm : q.Meets w)
    (hacc : AccountOf q.orgId q.customerId accountId a) (hS : challengeId ∉ S)
    (hp : Progresses q.customerId accountId challengeId q.amount w a b) :
    q.Counting accountId (challengeId :: S) (h ++ [.commit a b]) s where
  unanswered := hc.unanswered.snoc nofun
  does x y hm' := (mem_snoc.mp hm').elim (hc.does x y) fun he => by
    cases he
    exact Or.inr ⟨accountId, challengeId, w, hw, hm, hacc, hp⟩
  account := hc.account
  counted y hy := by
    rw [given_snoc]
    by_cases hyc : y = challengeId
    · subst hyc
      rw [hc.ahead accountId y fun hx => hS hx.2, Nat.zero_add]
      show (if _ then _ else _) = _
      split
      · rename_i hsame
        rw [hp.stands hua hub] at hsame
        by_contra hn
        exact advance_ne (by omega) hsame
      · rfl
    · rw [hc.counted y ((List.mem_cons.mp hy).resolve_left hyc), gain_eq_zero, Nat.add_zero]
      intro a' b' he
      cases he
      exact hp.stands_ne hua hub fun hx => hyc hx.2
  ahead x y hxy := by
    rw [List.mem_cons] at hxy
    rw [given_snoc, hc.ahead x y fun hx => hxy ⟨hx.1, Or.inr hx.2⟩, gain_eq_zero]
    intro a' b' he
    cases he
    exact hp.stands_ne hua hub fun hx => hxy ⟨hx.1, Or.inl hx.2⟩

/-- **The answer**, past every challenge. -/
theorem answer (hall : ∀ challengeId w, db.get .challenge challengeId = some w → q.Meets w →
    challengeId ∈ S) (r : Except Err Unit) : q.Keeps db (h ++ [.answer r]) s where
  does a b hm := (mem_snoc.mp hm).elim (hc.does a b) fun he => by cases he
  once x y := by
    rw [given_snoc]
    have hkeeps : q.Keeps db h s := hc.keeps
    exact hkeeps.once x y
  counted _ _ := ⟨accountId, hc.account, fun y w hw hm => by
    rw [given_snoc, hc.counted y (hall y w hw hm)]
    rfl⟩

end Increment.Counting

theorem Increment.Keeps.answer {r : Except Err Unit} (hk : q.Keeps db h s)
    (hu : Txn.Unanswered h) (hr : r = .ok () → ¬ Committed h) : q.Keeps db (h ++ [.answer r]) s where
  does a b hm := (mem_snoc.mp hm).elim (hk.does a b) fun he => by cases he
  once x y := by
    rw [given_snoc]
    exact hk.once x y
  counted hm hcom := by
    rcases mem_snoc.mp hm with hm | he
    · exact absurd hm (hu _)
    · obtain ⟨a, b, hab⟩ := hcom
      cases he
      exact absurd ⟨a, b, (mem_snoc.mp hab).resolve_right (by simp)⟩ (hr rfl)

end

/-! ## One call -/

section

variable (q : Increment) (db : Db)

/-- What a call relies on: a well-kept store that has come from `db`. -/
def Since (_ : List (Entry Db Err Ev Unit)) (s : Db) : Prop := WellKept s ∧ Grows db s

/-- **The protocol of a call.** -/
def Increment.protocol : Protocol Db Err Ev Unit anyStep where
  cond := Since db
  keeps := q.Keeps db
  keeps_stable hG hk := ⟨hk.does, hk.once, fun ha hcom => by
    obtain ⟨accountId, hacc, hall⟩ := hk.counted ha hcom
    exact ⟨accountId, accountOf_keeps (fun _ _ h => Steps.grows h) _ _ _ _ hG hacc, hall⟩⟩

def Increment.counting (accountId : Id) (S : List Id) : Protocol Db Err Ev Unit anyStep where
  cond := Since db
  keeps := q.Counting accountId S
  keeps_stable hG hc := hc.mono (Steps.grows hG)

variable {q db} {h : List (Entry Db Err Ev Unit)} {s : Db} {accountId : Id} {S : List Id}

theorem counting_quiet : (q.counting db accountId S).Quiet where
  read _ _ hc := Increment.Counting.snoc hc nofun fun _ _ he => by cases he; exact ordinary_refl _
  rollback _ _ _ hc := Increment.Counting.snoc hc nofun fun _ _ he => by cases he
  emit _ _ _ hc := Increment.Counting.snoc hc nofun fun _ _ he => by cases he

/-- **The loop over the challenges** counts the call on each of them. -/
theorem wp_countAll {cs : List (Id × LoyaltyChallenge)} (hnodup : (cs.map (·.1)).Nodup)
    (hahead : ∀ c ∈ cs, c.1 ∉ S)
    (hfound : ∀ c ∈ cs, s.get .challenge c.1 = some c.2 ∧ q.Meets c.2)
    (hc : q.Counting accountId S h s) :
    Call.wp (q.protocol db)
      (fun r h' s' => ∃ S', q.Counting accountId S' h' s' ∧
        ∀ u, r = .ok u → ∀ x, x ∈ S ∨ x ∈ cs.map (·.1) → x ∈ S')
      (Call.forEach cs fun challenge => do
        let pointsResult ← withTenant
          (advanceChallenge q.orgId q.customerId accountId q.amount challenge)
        dispatchIfAny q.orgId accountId pointsResult { sourceType := "manual" }) h s := by
  induction cs generalizing S h s with
  | nil => exact ⟨S, hc, fun _ _ x hx => hx.resolve_right (by simp)⟩
  | cons c cs ih =>
    obtain ⟨hnot, hrest⟩ := List.nodup_cons.mp hnodup
    obtain ⟨hget, hm⟩ := hfound c List.mem_cons_self
    have hnext : ∀ c' ∈ cs, c'.1 ∉ c.1 :: S := by
      intro c' hc' hmem
      rcases List.mem_cons.mp hmem with heq | hmem
      · exact hnot (List.mem_map.mpr ⟨c', hc', heq⟩)
      · exact hahead c' (List.mem_cons_of_mem _ hc') hmem
    refine Call.wp_bind (Call.wp_mono (Q := fun r h' s' => (match r with
      | .ok _ => q.Counting accountId (c.1 :: S) h' s' ∧ anyStep.rel s s'
      | .error _ => ∃ S', q.Counting accountId S' h' s')) (fun r h' s' hr => ?_) ?_)
    · cases r with
      | ok _ =>
        obtain ⟨hc', hG⟩ := hr
        have hfound' : ∀ c' ∈ cs, s'.get .challenge c'.1 = some c'.2 ∧ q.Meets c'.2 := by
          intro c' hc'
          obtain ⟨hg, hm'⟩ := hfound c' (List.mem_cons_of_mem _ hc')
          obtain ⟨w, hw, he⟩ := (Steps.grows hG).row (k := .challenge) hg
          cases (he : w = c'.2)
          exact ⟨hw, hm'⟩
        refine Call.wp_mono (fun r h2 s2 hr2 => ?_) (ih hrest hnext hfound' hc')
        obtain ⟨S', hS', hin⟩ := hr2
        refine ⟨S', hS', fun u hu x hx => hin u hu x ?_⟩
        rw [List.map_cons, List.mem_cons] at hx
        rw [List.mem_cons]
        tauto
      | error e =>
        obtain ⟨S', hS'⟩ := hr
        exact ⟨S', hS', fun _ he => by cases he⟩
    · refine Call.wp_bind (Call.wp_mono (fun r h' s' hr => ?_) (Call.wp_phaseTx
        (K := fun h s' => q.Counting accountId S h s' ∧ anyStep.rel s s')
        (L := fun _ h s' => q.Counting accountId (c.1 :: S) h s' ∧ anyStep.rel s s')
        (t := advanceChallenge q.orgId q.customerId accountId q.amount c)
        (fun _ _ hk => hk.1.keeps) (fun _ _ _ hk => hk.1.keeps)
        (fun _ a b hG hk => ⟨hk.1.mono (Steps.grows hG), anyStep.trans hk.2 hG⟩)
        (fun _ _ _ hk => ⟨hk.1.snoc nofun (fun _ _ he => by cases he), hk.2⟩)
        ⟨hc, anyStep.refl s⟩
        (fun s' _ => wp_progressChallenge fun _ _ h => Steps.grows h) ?_))
      · cases r with
        | error e => exact ⟨S, hr.1⟩
        | ok pointsResult =>
          refine Call.wp_mono (fun r h2 s2 hr2 => ?_) ((dispatchIfAny_ensures counting_quiet
            pointsResult).phase (q.protocol db) (fun _ _ hcond => hcond) (fun _ _ hk =>
              Increment.Counting.keeps hk) hr.1 trivial)
          cases r with
          | ok _ => exact ⟨hr2.1, anyStep.trans hr.2 hr2.2.1⟩
          | error e => exact hr2.2.2.elim
      · rintro _ a b hcond ⟨hk, hG⟩ hp
        have hsteps : Steps (fun _ _ => True) a b := hp.advances.steps policy_true
        obtain ⟨w, hw, he⟩ := (Steps.grows hG).row (k := .challenge) hget
        cases (he : w = c.2)
        refine ⟨hsteps, (hk.mono (Steps.grows hsteps)).count hcond.1.unique
          (Steps.wellKept hsteps hcond.1).unique hw hm hk.account (hahead c List.mem_cons_self) hp,
          anyStep.trans hG hsteps⟩

theorem listed_keeps {cs : List (Id × LoyaltyChallenge)} : anyStep.Keeps (q.Listed db cs) := by
  intro a b hG hl
  refine ⟨hl.nodup, fun c hc => ?_, hl.all⟩
  obtain ⟨hg, hm⟩ := hl.found c hc
  obtain ⟨w, hw, he⟩ := (Steps.grows hG).row (k := .challenge) hg
  cases (he : w = c.2)
  exact ⟨hw, hm⟩

/-- **The challenges** a call lists are those that it counts on. -/
theorem wp_listed {A : Db → Prop} (hA : ∀ s, A s → Grows db s) :
    Tx.wp anyStep A (fun cs => Did anyStep fun a b => a = b ∧ q.Listed db cs a) AnyErr
      (findMany q.orgId .challenge fun _ c => c.active && c.targetType == q.targetType) [] s := by
  refine wp_findMany (k := .challenge) did_start fun s1 _ hA1 hd => ?_
  rw [view_nil]
  have hmem : ∀ c : Id × LoyaltyChallenge, c ∈ s1.rows .challenge (fun _ r =>
      visible q.orgId .challenge r && (r.active && r.targetType == q.targetType)) ↔
        s1.get .challenge c.1 = some c.2 ∧ q.Meets c.2 := by
    rintro ⟨id, w⟩
    rw [Rel.mem_rows]
    simp [visible, tenantPolicy, orgOf, Increment.Meets]
  have hl : q.Listed db (s1.rows .challenge fun _ r =>
      visible q.orgId .challenge r && (r.active && r.targetType == q.targetType)) s1 := by
    refine ⟨Rel.nodup_ids s1 .challenge _, fun c hc => (hmem c).mp hc, fun challengeId w hw hm => ?_⟩
    obtain ⟨w', hw', he⟩ := (hA s1 hA1).row (k := .challenge) hw
    cases (he : w' = w)
    exact (hmem (challengeId, w)).mpr ⟨hw', hm⟩
  exact (hd.note listed_keeps hl).mono fun _ _ h => ⟨h.2, h.1⟩

/-- **A call** keeps its protocol. -/
theorem increment_safe (q : Increment) (db s : Db) : Safe (q.protocol db) q.call s := by
  have hclear : ∀ {h s}, Clear Ordinary h → (q.protocol db).keeps h s := fun hc => Clear.keeps hc
  refine ⟨hclear clear_nil, fun s' _ _ => ⟨hclear clear_start, ?_⟩⟩
  have herror : ∀ {h s} (e : Err), q.Keeps db h s → Txn.Unanswered h →
      Answers (q.protocol db) (.error e) h s := fun e hk hu s1 hG =>
    ((q.protocol db).keeps_stable hG hk).answer hu nofun
  have hstarted : Txn.Unanswered ([.start] : List (Entry Db Err Ev Unit)) :=
    (clear_start (U := Ordinary)).unanswered
  show Call.wp (q.protocol db) _ (Call.bind (ensureAccount q.orgId q.customerId) _) [.start] s'
  rw [ensureAccount_eq]
  refine Call.wp_bind (Call.wp_bind (Call.wp_mono (fun r h s1 hr => ?_)
    ((show Tame (.ofHistory _ (Since db) (· = [.start])) (isEnabled q.orgId) from
      isEnabled_tame).phase (q.protocol db) (fun _ _ hcond => hcond) (fun h s he => ?_) rfl trivial)))
  · obtain ⟨hstart, -, -⟩ := hr
    have hstart : h = [.start] := hstart
    subst hstart
    cases r with
    | error e => exact herror e (Clear.keeps clear_start) hstarted
    | ok on =>
      cases on with
      | false =>
        refine fun s2 hG => Increment.Keeps.answer (Clear.keeps clear_start)
          hstarted fun _ hcom => ?_
        obtain ⟨a, b, hab⟩ := hcom
        cases List.mem_singleton.mp hab
      | true =>
        have hgrows : ∀ a b, anyStep.rel a b → Grows a b := fun _ _ h => Steps.grows h
        have hquiet : (Protocol.ofHistory anyStep (Since db) (Clear Ordinary)).Quiet :=
          clear_quiet ordinary_refl
        refine Call.wp_mono (fun r h1 s2 hr => ?_) ((openAccount_ensures hgrows hquiet
          (clear_admits fun a b hp => ⟨hp.steps, hp.ordinary⟩) q.customerId).phase
          (q.protocol db) (fun _ _ hcond => hcond) (fun _ _ hc => Clear.keeps hc) clear_start trivial)
        obtain ⟨hc, -, hr⟩ := hr
        cases r with
        | error e => exact herror e (Clear.keeps hc) (Clear.unanswered hc)
        | ok account =>
          obtain ⟨account, rfl, hacc⟩ := hr
          refine Call.wp_bind (Call.wp_mono (fun r h2 s3 hr => ?_) (Call.wp_phaseTx
            (K := fun h s => Clear Ordinary h ∧ AccountOf q.orgId q.customerId account.id s)
            (L := fun cs h s => (Clear Ordinary h ∧ AccountOf q.orgId q.customerId account.id s) ∧
              q.Listed db cs s)
            (fun _ _ hk => Clear.keeps hk.1) (fun _ _ _ hk => Clear.keeps hk.1.1)
            (fun _ a b hG hk => ⟨hk.1, accountOf_keeps hgrows _ _ a b hG hk.2⟩)
            (fun _ e _ hk => ⟨hk.1.rollback e, hk.2⟩) ⟨hc, hacc⟩
            (fun s _ => wp_listed fun _ hA => hA.2) ?_))
          · cases r with
            | error e => exact herror e (Clear.keeps hr.1) hr.1.unanswered
            | ok cs =>
              obtain ⟨⟨hc2, hacc2⟩, hl⟩ := hr
              refine Call.wp_mono (fun r h3 s4 hr => ?_) (wp_countAll hl.nodup
                (fun _ _ => List.not_mem_nil) hl.found (Clear.counting hc2 hacc2))
              obtain ⟨S, hS, hin⟩ := hr
              cases r with
              | error e => exact herror e hS.keeps hS.unanswered
              | ok u =>
                refine fun s5 hG => (hS.mono (Steps.grows hG)).answer (fun x w hw hm => ?_) _
                exact hin u rfl x (Or.inr (List.mem_map.mpr ⟨(x, w), hl.all x w hw hm, rfl⟩))
          · rintro cs a b hcond ⟨hc1, hacc1⟩ ⟨rfl, hl⟩
            exact ⟨anyStep.refl a, ⟨hc1.snoc nofun (fun _ _ he => by cases he; exact ordinary_refl _),
              hacc1⟩, hl⟩
  · subst he
    exact Clear.keeps clear_start

end

/-! ## Runs -/

abbrev IncrementRun := Config Db DbWrite Err Ev Unit

def startIncrements (db : Db) (reqs : List Increment) : IncrementRun :=
  Config.init db (reqs.map Increment.call)

/-- The rows of challenges that are complete stay as they are. -/
def KeepsCompleted (a b : Db) : Prop :=
  ∀ id p, a.get .progress id = some p → p.completedAt.isSome = true → b.get .progress id = some p

/-- **The run condition.** No call is counted on a challenge that the account has completed. -/
def OpenOnly (c : IncrementRun) (i : ℕ) : Prop := c.CommitMeets (fun _ _ a b => KeepsCompleted a b) i

def IncrementRun.applied (c : IncrementRun) (reqs : List Increment) (accountId challengeId : Id) : ℕ :=
  ∑ i ∈ Finset.range reqs.length,
    (reqs[i]?).elim 0 fun q => q.given accountId challengeId (c.histOf i)

def Increment.CountsFor (q : Increment) (accountId : Id) (w : LoyaltyChallenge) (s : Db) : Prop :=
  q.Meets w ∧ AccountOf q.orgId q.customerId accountId s

/-- The call has returned, and had found the feature on. -/
def IncrementRun.returned (c : IncrementRun) (i : ℕ) : Prop :=
  .ok () ∈ c.answersOf i ∧ Committed (c.histOf i)

open Classical in
structure ChallengesKept (db : Db) (reqs : List Increment) (c : IncrementRun) : Prop where
  /-- Points move when a challenge is completed, by its reward, on the account. -/
  paid (i : ℕ) (a b : Db) : Commit c.trace i a b → ((∀ x y, ¬ Fulfils x y a b) ∧ b.log = a.log) ∨
    ∃ accountId challengeId w, db.get .challenge challengeId = some w ∧
      Fulfils accountId challengeId a b ∧ Pays accountId w.rewardPoints a b
  once (accountId challengeId : Id) (p r : ℕ) (a b a' b' : Db) : CommitAt c.trace p a b →
    CommitAt c.trace r a' b' → Fulfils accountId challengeId a b →
    Fulfils accountId challengeId a' b' → p = r
  /-- A challenge nobody had begun is complete if and only if the amounts applied come to its
  target, and its progress is their sum up to the target. -/
  stands (accountId challengeId : Id) (w : LoyaltyChallenge) :
    db.get .challenge challengeId = some w → 0 < w.targetValue →
    progressOf accountId challengeId db = [] →
    ((standing accountId challengeId c.db).2 = true ↔
      w.targetValue ≤ c.applied reqs accountId challengeId) ∧
    (standing accountId challengeId c.db).1 =
      min w.targetValue (c.applied reqs accountId challengeId)
  /-- A call that has returned has been applied, to each challenge it counts on. -/
  returned (i : ℕ) (q : Increment) (accountId challengeId : Id) (w : LoyaltyChallenge) :
    reqs[i]? = some q → c.returned i → db.get .challenge challengeId = some w →
    q.CountsFor accountId w c.db → q.given accountId challengeId (c.histOf i) = q.amount
  /-- When the calls have returned, the amounts applied are theirs. -/
  atRest (accountId challengeId : Id) (w : LoyaltyChallenge) :
    db.get .challenge challengeId = some w →
    (∀ i q, reqs[i]? = some q → q.CountsFor accountId w c.db → c.returned i) →
    c.applied reqs accountId challengeId = ∑ i ∈ Finset.range reqs.length,
      (reqs[i]?).elim 0 fun q => if q.CountsFor accountId w c.db then q.amount else 0

section

variable {db a b : Db} {reqs : List Increment} {c : IncrementRun} {q : Increment} {i : ℕ}
  {accountId challengeId : Id} {w : LoyaltyChallenge} {P : IncrementRun → ℕ → Prop}

theorem KeepsCompleted.stands (h : KeepsCompleted a b) (hua : Rel.Unique a) (hub : Rel.Unique b)
    (hdone : (standing accountId challengeId a).2 = true) :
    standing accountId challengeId b = standing accountId challengeId a := by
  obtain ⟨id, p, hp, rfl, rfl, hsome⟩ := exists_completed hdone
  rw [standing_of_get hua hp, standing_of_get hub (h id p hp hsome)]

theorem advance_reached {target : ℤ} {n m : ℕ} (h : (n : ℤ) < target) :
    advance target m (reached target n) = reached target (n + m) := by
  have hn : reached target n = ((n : ℤ), false) := if_neg (not_le.mpr h)
  rw [hn, advance, reached]
  push_cast
  simp

section

variable (hdb : WellKept db) (h : Reach P (startIncrements db reqs) c)

include hdb h

theorem reach_increment (hi : reqs[i]? = some q) : q.Keeps db (c.histOf i) c.db :=
  reach_each (fun q _ => increment_safe q db db)
    (fun _ _ _ hG => ⟨Steps.wellKept hG hdb, Steps.grows hG⟩) h hi

theorem reach_increment_rel {a b : Db} (hc : Commit c.trace i a b) : anyStep.rel a b :=
  reach_each_commits (fun q _ => increment_safe q db db)
    (fun _ _ _ hG => ⟨Steps.wellKept hG hdb, Steps.grows hG⟩) h hc

theorem reach_does (hc : Commit c.trace i a b) : ∃ q, reqs[i]? = some q ∧ q.Does a b := by
  have hlt : i < reqs.length := by
    have hi := reach_owned h hc
    rwa [List.length_map] at hi
  have hi : reqs[i]? = some reqs[i] := List.getElem?_eq_getElem hlt
  exact ⟨_, hi, (reach_increment hdb h hi).does a b (Config.mem_histOf.mpr hc)⟩

theorem reach_before (hc : Commit c.trace i a b) : WellKept a ∧
    ∀ id, a.get .challenge id = db.get .challenge id := by
  obtain ⟨p, hp⟩ := List.mem_iff_getElem?.mp hc
  refine ((reach_linear h).before hp).carry (F := fun s => WellKept s ∧
    ∀ id, s.get .challenge id = db.get .challenge id) (fun j x y hxy hx => ?_) ⟨hdb, fun _ => rfl⟩
  have hxy : Commit c.trace j x y := List.take_subset _ _ hxy
  obtain ⟨q, -, hd⟩ := reach_does hdb h hxy
  exact ⟨Steps.wellKept (reach_increment_rel hdb h hxy) hx.1,
    fun id => (hd.challenges id).trans (hx.2 id)⟩

theorem reach_after (hc : Commit c.trace i a b) : WellKept b :=
  Steps.wellKept (reach_increment_rel hdb h hc) (reach_before hdb h hc).1

theorem reach_paid (hc : Commit c.trace i a b) : ((∀ x y, ¬ Fulfils x y a b) ∧ b.log = a.log) ∨
    ∃ accountId challengeId w, db.get .challenge challengeId = some w ∧
      Fulfils accountId challengeId a b ∧ Pays accountId w.rewardPoints a b := by
  obtain ⟨ha, hsame⟩ := reach_before hdb h hc
  obtain ⟨q, -, hidle | ⟨x, y, w, hw, -, hacc, hp⟩⟩ := reach_does hdb h hc
  · refine Or.inl ⟨fun x y hf => ?_, hidle.log⟩
    have hopen := hf.1
    rw [← hidle.progress.stands, hf.2] at hopen
    cases hopen
  · refine (hp.pays ha (reach_after hdb h hc).unique hacc).imp_right fun hf => ?_
    exact ⟨x, y, w, (hsame y).symm.trans hw, hf.1, hf.2⟩

/-- **A challenge is completed once.** -/
theorem reach_finishes_once {p r : ℕ} {a b a' b' : Db} (hp : CommitAt c.trace p a b)
    (hr : CommitAt c.trace r a' b') (hf : Fulfils accountId challengeId a b)
    (hf' : Fulfils accountId challengeId a' b') : p = r := by
  obtain ⟨i, hp⟩ := hp
  obtain ⟨j, hr⟩ := hr
  refine (reach_linear h).once (F := fun s => (standing accountId challengeId s).2 = true)
    (fun k x y hc hx => ?_) hp hr hf.2 (by rw [hf.1]; decide) hf'.2 (by rw [hf'.1]; decide)
  have hux := (reach_before hdb h hc).1.unique
  have huy := (reach_after hdb h hc).unique
  obtain ⟨q, -, hidle | ⟨x', y', w, -, -, -, hp⟩⟩ := reach_does hdb h hc
  · rw [hidle.progress.stands, hx]
  · by_cases hxy : accountId = x' ∧ challengeId = y'
    · obtain ⟨rfl, rfl⟩ := hxy
      rw [hp.stands hux huy, advance, if_neg (by rw [hx]; simp), hx]
    · rw [hp.stands_ne hux huy hxy, hx]

/-- **A commit** that changes a standing is a count of its call. -/
theorem reach_counts (hc : Commit c.trace i a b) (hw : db.get .challenge challengeId = some w)
    (hne : standing accountId challengeId b ≠ standing accountId challengeId a) :
    ∃ q, reqs[i]? = some q ∧ q.CountsFor accountId w c.db ∧
      standing accountId challengeId b =
        advance w.targetValue q.amount (standing accountId challengeId a) := by
  obtain ⟨ha, hsame⟩ := reach_before hdb h hc
  have hub := (reach_after hdb h hc).unique
  obtain ⟨q, hi, hidle | ⟨x, y, w', hw', hm, hacc, hp⟩⟩ := reach_does hdb h hc
  · exact absurd (hidle.progress.stands _ _) hne
  · obtain ⟨rfl, rfl⟩ : accountId = x ∧ challengeId = y := by
      by_contra hxy
      exact hne (hp.stands_ne ha.unique hub hxy)
    cases ((hsame challengeId).trans hw).symm.trans hw'
    refine ⟨q, hi, ⟨hm, ?_⟩, hp.stands ha.unique hub⟩
    obtain ⟨n, hn⟩ := List.mem_iff_getElem?.mp hc
    refine ((reach_linear h).after hn).carry (F := AccountOf q.orgId q.customerId accountId)
      (fun j x y hxy => accountOf_keeps (fun _ _ h => Steps.grows h) _ _ _ _
        (reach_increment_rel hdb h (List.drop_subset _ _ hxy))) ?_
    exact accountOf_keeps (fun _ _ h => Steps.grows h) _ _ _ _ (reach_increment_rel hdb h hc) hacc

/-- **A call that has returned** has been applied. -/
theorem reach_returned (hi : reqs[i]? = some q) (hr : c.returned i)
    (hw : db.get .challenge challengeId = some w) (hq : q.CountsFor accountId w c.db) :
    q.given accountId challengeId (c.histOf i) = q.amount := by
  obtain ⟨x, hx, hall⟩ := (reach_increment hdb h hi).counted (Config.mem_answersOf.mp hr.1) hr.2
  have hkept : WellKept c.db := Steps.wellKept (reach_each_rel (fun q _ => increment_safe q db db)
    (fun _ _ _ hG => ⟨Steps.wellKept hG hdb, Steps.grows hG⟩) h) hdb
  obtain ⟨r, hget, -, hcu⟩ := hx
  obtain ⟨r', hget', -, hcu'⟩ := hq.2
  cases hkept.holder hget hget' (hcu.trans hcu'.symm)
  exact hall challengeId w hw hq.1

open Classical in
/-- **At rest**, the amounts applied are those of the calls on the challenge. -/
theorem reach_atRest (hw : db.get .challenge challengeId = some w)
    (hall : ∀ i q, reqs[i]? = some q → q.CountsFor accountId w c.db → c.returned i) :
    c.applied reqs accountId challengeId = ∑ i ∈ Finset.range reqs.length,
      (reqs[i]?).elim 0 fun q => if q.CountsFor accountId w c.db then q.amount else 0 := by
  refine Finset.sum_congr rfl fun i hi => ?_
  have hlt := Finset.mem_range.mp hi
  have hi : reqs[i]? = some reqs[i] := List.getElem?_eq_getElem hlt
  rw [hi, Option.elim_some, Option.elim_some]
  split
  · rename_i hq
    exact reach_returned hdb h hi (hall i _ hi hq) hw hq
  · rename_i hq
    refine List.sum_eq_zero fun n hn => ?_
    obtain ⟨e, he, rfl⟩ := List.mem_map.mp hn
    refine gain_eq_zero fun a b hab => ?_
    subst hab
    by_contra hne
    obtain ⟨q, hi', hq', -⟩ := reach_counts hdb h (Config.mem_histOf.mp he) hw hne
    cases hi.symm.trans hi'
    exact hq hq'

end

/-- **What has been applied** tells the standing. -/
theorem reach_stands (hdb : WellKept db) (h : Reach OpenOnly (startIncrements db reqs) c)
    (hw : db.get .challenge challengeId = some w) (hpos : 0 < w.targetValue)
    (hnew : progressOf accountId challengeId db = []) :
    standing accountId challengeId c.db =
      reached w.targetValue (c.applied reqs accountId challengeId) := by
  have hsum := reach_accumulates h
    (F := fun n s => standing accountId challengeId s = reached w.targetValue n)
    (g := fun i e => (reqs[i]?).elim 0 fun q => gain accountId challengeId q.amount e)
    (fun i a b n hc hn => ?_) (fun i e he => ?_) ?_
  · refine hsum.trans (congrArg _ ?_)
    rw [List.length_map]
    refine Finset.sum_congr rfl fun i hi => ?_
    rw [List.getElem?_eq_getElem (Finset.mem_range.mp hi)]
    rfl
  · by_cases hsame : standing accountId challengeId b = standing accountId challengeId a
    · have hgain : (reqs[i]?).elim 0
          (fun q => gain accountId challengeId q.amount (.commit a b)) = 0 := by
        cases reqs[i]? with
        | none => rfl
        | some q => exact if_pos hsame
      rw [hgain, Nat.add_zero, hsame, hn]
    · obtain ⟨q, hi, -, hstep⟩ := reach_counts hdb h hc hw hsame
      have hgain : (reqs[i]?).elim 0
          (fun q => gain accountId challengeId q.amount (.commit a b)) = q.amount := by
        rw [hi]
        exact if_neg hsame
      have hopen : (standing accountId challengeId a).2 = false := by
        by_contra hdone
        have hkeeps : KeepsCompleted a b :=
          ((reach_commitMeets (K := fun _ _ a b => KeepsCompleted a b) (fun _ _ hP => hP) h i).mem
            (Config.mem_histOf.mpr hc)).choose_spec
        exact hsame (hkeeps.stands (reach_before hdb h hc).1.unique (reach_after hdb h hc).unique
          (Bool.eq_true_of_not_eq_false hdone))
      have hlt : (n : ℤ) < w.targetValue := by
        by_contra hle
        rw [hn, reached, if_pos (by omega)] at hopen
        cases hopen
      rw [hgain, hstep, hn, advance_reached hlt]
  · cases e with
    | commit a b => exact absurd rfl (he a b)
    | _ => cases reqs[i]? <;> rfl
  · rw [standing, hnew, reached, if_neg (by omega)]
    rfl

/-- **Challenges.** In every run of calls none of which is counted on a challenge that the account
has completed, whatever fails, the reward is credited once, and progress and completion follow the
amounts applied, which are those of the calls that have returned. -/
theorem reach_challenges (hdb : WellKept db) (h : Reach OpenOnly (startIncrements db reqs) c) :
    ChallengesKept db reqs c where
  paid _ _ _ hc := reach_paid hdb h hc
  once _ _ _ _ _ _ _ _ hp hr hf hf' := reach_finishes_once hdb h hp hr hf hf'
  stands x y w hw hpos hnew := by
    rw [reach_stands hdb h hw hpos hnew, reached]
    split <;> simp <;> omega
  returned _ _ _ _ _ hi hr hw hq := reach_returned hdb h hi hr hw hq
  atRest _ _ _ hw hall := reach_atRest hdb h hw hall

end

/-- Bring five friends, for thirty points, between two dates. -/
def springChallenge : LoyaltyChallenge :=
  { bringFriends with rewardPoints := 30, startAt := some 10, endAt := some 20 }

def springShop : Db := onePatron.set .challenge 30 springChallenge

theorem springShop_wellKept : WellKept springShop :=
  onePatron_wellKept.insert (by decide) (by decide +kernel) (by decide +kernel)

/-- One call after the other. -/
def turnByTurn : List (ℕ × Move Err) := List.replicate 54 (0, .go 1) ++ List.replicate 35 (1, .go 1)

set_option maxRecDepth 100000 in
/-- **The progress exceeds the target**: a call of two comes after one of five. -/
theorem exists_overcounted : ∃ c : IncrementRun,
    Reach Always (startIncrements springShop [⟨1, 10, .referrals, 5⟩, ⟨1, 10, .referrals, 2⟩]) c ∧
      ¬ ChallengesKept springShop [⟨1, 10, .referrals, 5⟩, ⟨1, 10, .referrals, 2⟩] c := by
  obtain ⟨c, h, hc⟩ := exists_reach_anywhere
    (startIncrements springShop [⟨1, 10, .referrals, 5⟩, ⟨1, 10, .referrals, 2⟩]) turnByTurn
    (fun c => decide (standing 20 30 c.db = (7, true))) (by decide +kernel)
  refine ⟨c, h, fun hk => ?_⟩
  have hmin := (hk.stands 20 30 springChallenge (by decide +kernel) (by decide)
    (by decide +kernel)).2
  rw [of_decide_eq_true hc] at hmin
  have hle : (7 : ℤ) ≤ springChallenge.targetValue := hmin.trans_le (min_le_left _ _)
  exact absurd hle (by decide)

def openOnly (c : IncrementRun) (i : ℕ) : Bool :=
  c.commitMeets (fun _ _ a b => (a.rows .progress fun _ p => p.completedAt.isSome).all
    fun e => b.get .progress e.1 = some e.2) i

theorem openOnly_of {c : IncrementRun} {i : ℕ} (h : openOnly c i = true) : OpenOnly c i := by
  refine Config.commitMeets_of (fun _ _ a b hk id p hp hsome => ?_) h
  exact of_decide_eq_true (List.all_eq_true.mp hk (id, p) (Rel.mem_rows.mpr ⟨hp, hsome⟩))

def twoFriends : List Increment := [⟨1, 10, .referrals, 2⟩, ⟨1, 10, .referrals, 4⟩]

def bothFindNoProgress : List (ℕ × Move Err) :=
  List.replicate 32 (0, .go 1) ++ List.replicate 32 (1, .go 1) ++ List.replicate 3 (0, .go 1) ++
    List.replicate 22 (1, .go 1)

set_option maxRecDepth 100000 in
theorem reach_challenges_twoFriends : ∃ c : IncrementRun,
    Reach OpenOnly (startIncrements springShop twoFriends) c ∧ standing 20 30 c.db = (5, true) ∧
      (c.db.get .account 20).map (·.pointsBalance) = some 30 ∧
      ChallengesKept springShop twoFriends c := by
  obtain ⟨c, h, hc⟩ := exists_reach (o := openOnly) (fun _ _ => openOnly_of)
    (startIncrements springShop twoFriends) bothFindNoProgress
    (fun c => decide (standing 20 30 c.db = (5, true) ∧
      (c.db.get .account 20).map (·.pointsBalance) = some 30)) (by decide +kernel)
  obtain ⟨hs, hb⟩ := of_decide_eq_true hc
  exact ⟨c, h, hs, hb, reach_challenges springShop_wellKept h⟩

/-! ## Windows -/

def LoyaltyChallenge.inWindow (w : LoyaltyChallenge) (t : Time) : Bool :=
  (w.startAt.all fun s => decide (s ≤ t)) && w.endAt.all fun e => decide (t ≤ e)

/-- **Windows are respected.** Call `i` is made at `madeAt i`; what it changes in the progress of a
challenge, and the reward it pays, it does within the window of the challenge. -/
def WindowsKept (db : Db) (madeAt : ℕ → Time) (c : IncrementRun) : Prop :=
  ∀ i a b, Commit c.trace i a b →
    (∀ accountId challengeId w, db.get .challenge challengeId = some w →
      standing accountId challengeId b ≠ standing accountId challengeId a →
        w.inWindow (madeAt i) = true) ∧
    (b.log ≠ a.log → ∃ accountId challengeId w, db.get .challenge challengeId = some w ∧
      Fulfils accountId challengeId a b ∧ w.inWindow (madeAt i) = true)

/-- Each call is made within the windows of the active challenges of its target type. -/
def MadeInWindows (db : Db) (reqs : List Increment) (madeAt : ℕ → Time) : Prop :=
  ∀ i q, reqs[i]? = some q → ∀ challengeId w, db.get .challenge challengeId = some w → q.Meets w →
    w.inWindow (madeAt i) = true

section

variable {db : Db} {reqs : List Increment} {madeAt : ℕ → Time} {c : IncrementRun}

theorem windowsKept_of (hdb : WellKept db) (h : Reach Always (startIncrements db reqs) c)
    (hmade : MadeInWindows db reqs madeAt) : WindowsKept db madeAt c := by
  have hstands : ∀ i a b, Commit c.trace i a b → ∀ x y w, db.get .challenge y = some w →
      standing x y b ≠ standing x y a → w.inWindow (madeAt i) = true := by
    intro i a b hc x y w hw hne
    obtain ⟨q, hi, hq, -⟩ := reach_counts hdb h hc hw hne
    exact hmade i q hi y w hw hq.1
  refine fun i a b hc => ⟨hstands i a b hc, fun hlog => ?_⟩
  obtain ⟨-, hsame⟩ | ⟨x, y, w, hw, hf, -⟩ := reach_paid hdb h hc
  · exact absurd hsame hlog
  · refine ⟨x, y, w, hw, hf, hstands i a b hc x y w hw fun he => ?_⟩
    have hopen := hf.1
    rw [← he, hf.2] at hopen
    cases hopen

theorem exists_changed {q : Increment} {h : List (Entry Db Err Ev Unit)} {x y : Id}
    (hg : q.given x y h ≠ 0) : ∃ a b, .commit a b ∈ h ∧ standing x y b ≠ standing x y a := by
  by_contra hno
  refine hg (List.sum_eq_zero fun n hn => ?_)
  obtain ⟨e, he, rfl⟩ := List.mem_map.mp hn
  refine gain_eq_zero fun a b hab => ?_
  subst hab
  by_contra hne
  exact hno ⟨a, b, he, hne⟩

/-- **Challenge windows.** In every run, the windows are respected if each call is made within the
windows of the active challenges of its target type; once the calls have returned, and had amounts,
only then. -/
theorem reach_windows (hdb : WellKept db) (h : Reach Always (startIncrements db reqs) c) :
    (MadeInWindows db reqs madeAt → WindowsKept db madeAt c) ∧
    ((∀ i q, reqs[i]? = some q → 0 < q.amount ∧ c.returned i) →
      (WindowsKept db madeAt c ↔ MadeInWindows db reqs madeAt)) := by
  refine ⟨windowsKept_of hdb h, fun hall => ⟨fun hk i q hi y w hw hm => ?_, windowsKept_of hdb h⟩⟩
  obtain ⟨hpos, hret⟩ := hall i q hi
  obtain ⟨x, -, hgiven⟩ := (reach_increment hdb h hi).counted (Config.mem_answersOf.mp hret.1) hret.2
  obtain ⟨a, b, hm', hne⟩ := exists_changed (x := x) (y := y)
    (by rw [hgiven y w hw hm]; omega)
  exact (hk i a b (Config.mem_histOf.mp hm')).1 x y w hw hne

end

def lateFriend : List Increment := [⟨1, 10, .referrals, 2⟩]

set_option maxRecDepth 100000 in
/-- **The window is not consulted**: a call after the end of the challenge. -/
theorem exists_lateCall : ∃ c : IncrementRun,
    Reach Always (startIncrements springShop lateFriend) c ∧
      ¬ WindowsKept springShop (fun _ => 30) c := by
  obtain ⟨c, h, hc⟩ := exists_reach_anywhere
    (startIncrements springShop lateFriend) (List.replicate 35 (0, .go 1))
    (fun c => decide (standing 20 30 c.db ≠ standing 20 30 springShop)) (by decide +kernel)
  refine ⟨c, h, fun hk => ?_⟩
  obtain ⟨n, i, a, b, hp, ha, hb⟩ := (reach_linear h).changes
    (F := fun s => standing 20 30 s ≠ standing 20 30 springShop) (fun hx => hx rfl)
    (of_decide_eq_true hc)
  rw [ne_eq, not_not] at ha
  exact absurd ((hk i a b (List.mem_of_getElem? hp)).1 20 30 springChallenge (by decide +kernel)
    (by rw [ha]; exact hb)) (by decide : ¬ springChallenge.inWindow 30 = true)

set_option maxRecDepth 100000 in
theorem reach_windows_twoFriends : ∃ c : IncrementRun,
    Reach Always (startIncrements springShop twoFriends) c ∧
      (c.db.get .account 20).map (·.pointsBalance) = some 30 ∧
      WindowsKept springShop (fun _ => 20) c := by
  obtain ⟨c, h, hc⟩ := exists_reach_anywhere
    (startIncrements springShop twoFriends) bothFindNoProgress
    (fun c => decide ((c.db.get .account 20).map (·.pointsBalance) = some 30)) (by decide +kernel)
  refine ⟨c, h, of_decide_eq_true hc, (reach_windows springShop_wellKept h).1 ?_⟩
  intro i q _ y w hw _
  have hy : y = 30 := by
    by_contra hne
    have hnone : springShop.get .challenge y = none := by
      unfold springShop onePatron
      rw [Rel.get_set_ne (by simpa using hne), Rel.get_set_ne (by simp), Rel.get_set_ne (by simp),
        Rel.get_set_ne (by simp)]
      rfl
    cases hnone.symm.trans hw
  subst hy
  have hget : springShop.get .challenge 30 = some springChallenge := by decide +kernel
  cases hget.symm.trans hw
  exact (by decide : springChallenge.inWindow 20 = true)

end PatronLoyalty.Loyalty
