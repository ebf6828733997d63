import PatronLoyalty.Loyalty.Accounting
import PatronLoyalty.Txn.Counting
import PatronLoyalty.Txn.OneShot

/-!
# Referral challenges

A completion of a referral advances the challenges of the referrer, each in a transaction of its
own, before it marks the referral as completed. The bonuses beside it have their ledger keys; the
counter has none, so whoever has found the referral pending advances it once more.

`Separate` is the run condition under which it is advanced once: past its lookup, a completion goes
on only while no other completion for the same customer has advanced a challenge.
`reach_progress` bounds the counter in such runs, and `progress_twice` shows a run outside it.

A completion is `Steady` until its lookup, and `Tallied` from then on: each challenge it advances, it
advances once.
-/

namespace PatronLoyalty.Loyalty

open Txn Relation

/-! ## What a request has done to the challenges -/

def progressRows (challengeId : Id) (s : Db) : List (Id × CustomerChallengeProgress) :=
  s.rows .progress fun _ p => p.challengeId == challengeId

/-- The request has committed a change to the challenge. -/
def touched (challengeId : Id) (h : Hist) : Bool := h.any fun
  | .commit a b => decide (progressRows challengeId b ≠ progressRows challengeId a)
  | _ => false

/-- The request has committed a change to some challenge. -/
def advanced (h : Hist) : Bool := h.any fun
  | .commit a b => decide ((b.rows .progress fun _ _ => true) ≠ a.rows .progress fun _ _ => true)
  | _ => false

def completionOf : Request → Option Id
  | .completePending _ referredCustomerId => some referredCustomerId
  | _ => none

/-- **The run condition.** A completion that has made its lookup goes on only while no other
completion for the same customer has advanced a challenge. -/
def Separate (reqs : List Request) (c : Run) (i : ℕ) : Prop :=
  c.ends i = false → checked (c.histOf i) = true → ∀ j < reqs.length, j ≠ i →
    (reqs[j]?).bind completionOf = (reqs[i]?).bind completionOf → advanced (c.histOf j) = false

instance (reqs : List Request) (c : Run) (i : ℕ) : Decidable (Separate reqs c i) :=
  inferInstanceAs (Decidable (_ → _ → _))

def underway (reqs : List Request) (c : Run) (challengeId customerId : Id) : Bool :=
  (List.range reqs.length).any fun i =>
    (reqs[i]?).bind completionOf == some customerId && touched challengeId (c.histOf i)

/-- The referral is completed, or a completion has advanced the challenge for it and has only its
status left to write. -/
def LoyaltyReferral.reaches (reqs : List Request) (c : Run) (accountId challengeId : Id)
    (r : LoyaltyReferral) : Bool :=
  r.referrerAccountId == accountId &&
    (r.status == .completed || underway reqs c challengeId r.referredCustomerId)

/-! ## Rows of a challenge -/

/-- The progress rows are left alone. -/
def SameProgress (a b : Db) : Prop := b.tables .progress = a.tables .progress

section

variable {a b c : Db} {h : Hist} {challengeId : Id} {id : Id}

theorem SameProgress.trans (h : SameProgress a b) (h' : SameProgress b c) : SameProgress a c :=
  Eq.trans h' h

theorem SameProgress.rows (h : SameProgress a b) (p : Id → CustomerChallengeProgress → Bool) :
    b.rows .progress p = a.rows .progress p := by
  unfold Rel.rows
  rw [h]

theorem SameProgress.get (h : SameProgress a b) (id : Id) :
    b.get .progress id = a.get .progress id := by
  unfold Rel.get
  rw [h]

theorem sameProgress_of_replaced {k : Kind} {old : Option (Row k)} {new : Row k}
    (hk : k ≠ .progress) (h : Rel.Replaced k id old new a b) : SameProgress a b := by
  rw [h.2.2]
  exact Function.update_of_ne (Ne.symm hk) _ _

theorem Posts.sameProgress {m : Movement} {r r' : LoyaltyAccount} (h : Posts m r r' a b) :
    SameProgress a b := by
  have hrow := sameProgress_of_replaced (by decide) h.replaced
  refine hrow.trans ?_
  rw [h.pushed.2]
  rfl

theorem Provisions.sameProgress (h : Provisions a b) : SameProgress a b := by
  induction h with
  | refl => rfl
  | tail _ hs ih =>
    refine ih.trans ?_
    cases hs with
    | elsewhere hk _ h => exact sameProgress_of_replaced (fun he => by subst he; cases hk) h
    | openAccount _ h => exact sameProgress_of_replaced (by decide) h
    | openWallet _ h => exact sameProgress_of_replaced (by decide) h

theorem Rewards.sameProgress (h : Rewards a b) : SameProgress a b := by
  rcases h with rfl | ⟨m, r, r', -, hp⟩
  · rfl
  · exact hp.sameProgress

theorem touched_snoc {e : Entry Db Err Ev Answer} :
    touched challengeId (h ++ [e]) = (touched challengeId h || touched challengeId [e]) :=
  List.any_append

theorem touched_commit (a b : Db) : touched challengeId ([.commit a b] : Hist) =
    decide (progressRows challengeId b ≠ progressRows challengeId a) := Bool.or_false _

theorem SameProgress.untouched (h : SameProgress a b) :
    touched challengeId ([.commit a b] : Hist) = false := by
  rw [touched_commit]
  exact decide_eq_false (not_not.mpr (h.rows _))

theorem progressRows_eq (h : (b.rows .progress fun _ _ => true) = a.rows .progress fun _ _ => true) :
    progressRows challengeId b = progressRows challengeId a := by
  have hfilter : ∀ s : Db, progressRows challengeId s =
      (s.rows .progress fun _ _ => true).filter fun e => e.2.challengeId == challengeId := by
    intro s
    unfold progressRows Rel.rows
    rw [List.filter_filterMap]
    refine List.filterMap_congr fun e _ => ?_
    cases e.2.challengeId == challengeId <;> rfl
  rw [hfilter, hfilter, h]

theorem advanced_of_touched (ht : touched challengeId h = true) : advanced h = true := by
  obtain ⟨e, he, hc⟩ := List.any_eq_true.mp ht
  refine List.any_eq_true.mpr ⟨e, he, ?_⟩
  cases e with
  | commit a b => exact decide_eq_true fun hall => of_decide_eq_true hc (progressRows_eq hall)
  | start | rollback | emit | answer => cases hc

/-! ## One challenge -/

/-- **One more on a challenge**: one row of it changes, by at most one. -/
structure Counts (accountId challengeId : Id) (a b : Db) : Prop where
  row : ∃ (id : Id) (old : Option CustomerChallengeProgress) (new : CustomerChallengeProgress),
    a.get .progress id = old ∧ b.get .progress id = some new ∧
      (∀ id', id' ≠ id → b.get .progress id' = a.get .progress id') ∧
      new.accountId = accountId ∧ new.challengeId = challengeId ∧
      (∀ q, old = some q → q.accountId = accountId ∧ q.challengeId = challengeId ∧ q ≠ new) ∧
      new.progress ≤ old.elim 0 (·.progress) + 1
  others {other : Id} : other ≠ challengeId → progressRows other b = progressRows other a

variable {accountId : Id} {targetValue : ℤ}

theorem progressRows_of_replaced {other : Id} {old : Option CustomerChallengeProgress}
    {new : CustomerChallengeProgress} (h : Rel.Replaced .progress id old new a b)
    (hnew : new.challengeId ≠ other) (hold : ∀ q, old = some q → q.challengeId ≠ other) :
    progressRows other b = progressRows other a := by
  unfold progressRows
  rw [h.2.2]
  refine Rel.rows_set_of_not (beq_eq_false_iff_ne.mpr hnew) fun q hq => ?_
  exact beq_eq_false_iff_ne.mpr (hold q (h.get_old.symm.trans hq))

theorem Advances.counts (h : Advances accountId challengeId 1 targetValue a b) :
    Counts accountId challengeId a b := by
  obtain ⟨id, old, p, a1, hb, hrest⟩ := h
  have hold : ∀ q, old = some q → q.accountId = accountId ∧ q.challengeId = challengeId := by
    intro q hq
    obtain ⟨h1, h2⟩ := hb.kept q hq
    exact ⟨h1.symm.trans hb.account, h2.symm.trans hb.challenge⟩
  have hbump : ∀ {other : Id}, other ≠ challengeId → progressRows other a1 = progressRows other a :=
    fun hne => progressRows_of_replaced hb.result (hb.challenge ▸ Ne.symm hne)
      fun q hq => (hold q hq).2 ▸ Ne.symm hne
  rcases hrest with rfl | ⟨today, a2, hopen, hreach, hr, hw⟩
  · refine ⟨⟨id, old, p, hb.result.get_old, hb.result.get_self,
      fun id' hid => hb.result.get_ne (by simpa using hid), hb.account, hb.challenge,
      fun q hq => ⟨(hold q hq).1, (hold q hq).2, fun he => ?_⟩, hb.progress.le⟩, hbump⟩
    have hprog := hb.progress
    rw [hq, ← he, Option.elim_some] at hprog
    omega
  · have hsame := hw.sameProgress
    refine ⟨⟨id, old, p.complete targetValue today, hb.result.get_old,
      (hsame.get id).trans hr.get_self, fun id' hid => ?_, hb.account, hb.challenge,
      fun q hq => ⟨(hold q hq).1, (hold q hq).2, fun he => ?_⟩, hreach.trans hb.progress.le⟩,
      fun hne => ?_⟩
    · rw [hsame.get, hr.get_ne (by simpa using hid)]
      exact hb.result.get_ne (by simpa using hid)
    · have hnone := hb.completedAt
      rw [hq, hopen, he] at hnone
      cases hnone
    · rw [progressRows, hsame.rows]
      refine (progressRows_of_replaced hr (hb.challenge ▸ Ne.symm hne) fun q hq => ?_).trans
        (hbump hne)
      cases hq
      exact hb.challenge ▸ Ne.symm hne

theorem Counts.touched (h : Counts accountId challengeId a b) :
    touched challengeId ([.commit a b] : Hist) = true := by
  obtain ⟨id, old, new, hold, hnew, -, -, hch, hne, -⟩ := h.row
  rw [touched_commit]
  refine decide_eq_true fun heq => ?_
  have hm : (id, new) ∈ progressRows challengeId b := Rel.mem_rows.mpr ⟨hnew, by simp [hch]⟩
  rw [heq] at hm
  have hget : a.get .progress id = some new := (Rel.mem_rows.mp hm).1
  exact (hne new (hold.symm.trans hget)).2.2 rfl

theorem Counts.untouched {other : Id} (h : Counts accountId challengeId a b)
    (hne : other ≠ challengeId) : Loyalty.touched other ([.commit a b] : Hist) = false := by
  rw [touched_commit]
  exact decide_eq_false (not_not.mpr (h.others hne))

/-- The rows of another account or challenge were there before. -/
theorem Counts.get_other {x y : Id} {p : CustomerChallengeProgress}
    (h : Counts accountId challengeId a b) (hne : ¬ (accountId = x ∧ challengeId = y))
    (hp : b.get .progress id = some p) (hx : p.accountId = x) (hy : p.challengeId = y) :
    a.get .progress id = some p := by
  obtain ⟨id', old, new, -, hnew, hothers, hacc, hch, -⟩ := h.row
  by_cases hid : id = id'
  · subst hid
    cases hnew.symm.trans hp
    exact absurd ⟨hacc.symm.trans hx, hch.symm.trans hy⟩ hne
  · exact (hothers id hid).symm.trans hp

theorem Counts.bound {n : ℤ} (h : Counts accountId challengeId a b) (hn : 0 ≤ n)
    (ha : ∀ id p, a.get .progress id = some p → p.accountId = accountId →
      p.challengeId = challengeId → p.progress ≤ n) {p : CustomerChallengeProgress}
    (hp : b.get .progress id = some p) (hacc : p.accountId = accountId)
    (hch : p.challengeId = challengeId) : p.progress ≤ n + 1 := by
  obtain ⟨id', old, new, hold, hnew, hothers, -, -, hkeys, hle⟩ := h.row
  by_cases hid : id = id'
  · subst hid
    cases hnew.symm.trans hp
    cases old with
    | none =>
      rw [Option.elim_none] at hle
      omega
    | some q =>
      have hq := ha id q hold (hkeys q rfl).1 (hkeys q rfl).2.1
      rw [Option.elim_some] at hle
      omega
  · have := ha id p ((hothers id hid).symm.trans hp) hacc hch
    omega

end

/-! ## The history of a completion -/

def Steady (h : Hist) : Prop := ∀ a b, .commit a b ∈ h → SameProgress a b

/-- Past the lookup, each challenge of the account is advanced at most once. -/
inductive Tallied (accountId : Id) : Hist → Prop
  | base {h : Hist} : Steady h → Tallied accountId h
  | quiet {h : Hist} {e : Entry Db Err Ev Answer} : Tallied accountId h →
      (∀ a b, e = .commit a b → SameProgress a b) → Tallied accountId (h ++ [e])
  | advance {h : Hist} {a b : Db} {challengeId : Id} : Tallied accountId h → checked h = true →
      touched challengeId h = false → Counts accountId challengeId a b →
      Tallied accountId (h ++ [.commit a b])

/-- The referral was not completed when the run began. -/
def OpenedIn (db : Db) (id : Id) : Prop :=
  ∀ r : LoyaltyReferral, db.get .referral id = some r → r.status ≠ .completed

structure Finds (db : Db) (accountId customerId id : Id) (s : Db) : Prop where
  row : ∃ r : LoyaltyReferral, s.get .referral id = some r ∧ r.referrerAccountId = accountId ∧
    r.referredCustomerId = customerId
  opened : OpenedIn db id

/-- What is known of a completion at any time. -/
def Completing (db : Db) (customerId : Id) (h : Hist) (s : Db) : Prop :=
  Steady h ∨ ∃ accountId id, Finds db accountId customerId id s ∧ Tallied accountId h

section

variable {h : Hist} {e : Entry Db Err Ev Answer} {a b s s' db : Db} {accountId customerId id : Id}

theorem Steady.snoc (hs : Steady h) (he : ∀ a b, e = .commit a b → SameProgress a b) :
    Steady (h ++ [e]) := by
  intro a b hm
  rcases mem_snoc.mp hm with hm | hm
  · exact hs a b hm
  · exact he a b hm.symm

theorem Steady.untouched (hs : Steady h) (challengeId : Id) : touched challengeId h = false := by
  refine List.any_eq_false.mpr fun e he hc => ?_
  cases e with
  | commit a b => exact of_decide_eq_true hc ((hs a b he).rows _)
  | start | rollback | emit | answer => cases hc

/-- **The last commit** of a tallied history. -/
theorem Tallied.last (ht : Tallied accountId (h ++ [.commit a b])) : SameProgress a b ∨
    ∃ challengeId, checked h = true ∧ touched challengeId h = false ∧
      Counts accountId challengeId a b := by
  generalize heq : h ++ [Entry.commit a b] = l at ht
  cases ht with
  | base hs => exact Or.inl (hs a b (heq ▸ List.mem_append_right h (List.mem_singleton_self _)))
  | quiet _ he =>
    obtain ⟨-, hlast⟩ := List.append_inj' heq rfl
    cases hlast
    exact Or.inl (he a b rfl)
  | advance _ hc hn hcount =>
    obtain ⟨rfl, hlast⟩ := List.append_inj' heq rfl
    cases hlast
    exact Or.inr ⟨_, hc, hn, hcount⟩

theorem Grows.finds (hg : Grows s s') (hf : Finds db accountId customerId id s) :
    Finds db accountId customerId id s' := by
  obtain ⟨⟨r, hr, hacc, hc⟩, hopen⟩ := hf
  obtain ⟨r', hr', -, he2, he3, -⟩ := hg.row hr
  exact ⟨⟨r', hr', he2.trans hacc, he3.trans hc⟩, hopen⟩

end

/-! ## Protocols -/

section

variable (db : Db)

/-- What a completion relies on. -/
structure FromBook (_ : Hist) (s : Db) : Prop where
  kept : WellKept s
  grows : Grows db s

/-- **The protocol of a completion.** -/
def completing (customerId : Id) : Protocol Db Err Ev Answer anyStep where
  cond := FromBook db
  keeps := Completing db customerId
  keeps_stable hG h := by
    rcases h with hs | ⟨accountId, id, hf, ht⟩
    · exact Or.inl hs
    · exact Or.inr ⟨accountId, id, (Steps.grows hG).finds hf, ht⟩

/-- Until the lookup. -/
abbrev steady : Protocol Db Err Ev Answer anyStep :=
  .ofHistory _ (FromBook db) Steady

/-- From the lookup on, with the challenges of `S` behind it. -/
structure Tally (accountId customerId id : Id) (S : List Id) (h : Hist) (s : Db) : Prop where
  finds : Finds db accountId customerId id s
  checked : checked h = true
  tallied : Tallied accountId h
  ahead (challengeId : Id) : challengeId ∉ S → touched challengeId h = false

def tallying (accountId customerId id : Id) (S : List Id) :
    Protocol Db Err Ev Answer anyStep where
  cond := FromBook db
  keeps := Tally db accountId customerId id S
  keeps_stable hG h := ⟨(Steps.grows hG).finds h.finds, h.checked, h.tallied, h.ahead⟩

variable {db} {accountId customerId id : Id} {S : List Id} {h : Hist} {a b s : Db}
  {e : Entry Db Err Ev Answer}

theorem Completing.answers {r : Except Err Answer} (hc : Completing db customerId h s) :
    Answers (completing db customerId) r h s := by
  intro s' hG
  rcases (completing db customerId).keeps_stable hG hc with hs | ⟨accountId, id, hf, ht⟩
  · exact Or.inl (hs.snoc fun _ _ he => by cases he)
  · exact Or.inr ⟨accountId, id, hf, ht.quiet fun _ _ he => by cases he⟩

theorem Tally.completing (ht : Tally db accountId customerId id S h s) :
    Completing db customerId h s := Or.inr ⟨accountId, id, ht.finds, ht.tallied⟩

theorem Tally.snoc (ht : Tally db accountId customerId id S h s)
    (he : ∀ a b, e = .commit a b → SameProgress a b) :
    Tally db accountId customerId id S (h ++ [e]) s where
  finds := ht.finds
  checked := by rw [checked_snoc, ht.checked, Bool.true_or]
  tallied := ht.tallied.quiet he
  ahead challengeId hn := by
    rw [touched_snoc, ht.ahead challengeId hn, Bool.false_or]
    cases e with
    | commit a b => exact (he a b rfl).untouched
    | start | rollback | emit | answer => rfl

theorem Tally.mono {s' : Db} (ht : Tally db accountId customerId id S h s) (hg : Grows s s') :
    Tally db accountId customerId id S h s' := ⟨hg.finds ht.finds, ht.checked, ht.tallied, ht.ahead⟩

theorem Tally.counts {challengeId : Id} (ht : Tally db accountId customerId id S h s)
    (hn : challengeId ∉ S) (hc : Counts accountId challengeId a b) :
    Tally db accountId customerId id (challengeId :: S) (h ++ [.commit a b]) s where
  finds := ht.finds
  checked := by rw [checked_snoc, ht.checked, Bool.true_or]
  tallied := ht.tallied.advance ht.checked (ht.ahead challengeId hn) hc
  ahead other hother := by
    rw [List.mem_cons, not_or] at hother
    rw [touched_snoc, ht.ahead other hother.2, Bool.false_or]
    exact hc.untouched hother.1

theorem tallying_quiet : (tallying db accountId customerId id S).Quiet where
  read _ _ ht := Tally.snoc ht fun _ _ he => by cases he; rfl
  rollback _ _ _ ht := Tally.snoc ht fun _ _ he => by cases he
  emit _ _ _ ht := Tally.snoc ht fun _ _ he => by cases he

/-- Steps that leave the progress rows alone. -/
theorem tallying_admits : (tallying db accountId customerId id S).Admits fun a b =>
    Steps (fun _ _ => True) a b ∧ SameProgress a b := fun _ _ _ _ ht hab =>
  ⟨hab.1, (ht.mono (Steps.grows hab.1)).snoc fun _ _ he => by cases he; exact hab.2⟩

theorem tallying_provisions : (tallying db accountId customerId id S).Admits Provisions :=
  tallying_admits.mono fun _ _ h => ⟨h.steps, h.sameProgress⟩

theorem tallying_completion (orgId : Id) :
    AdmitsCompletion (tallying db accountId customerId id S) orgId where
  bonus _ _ _ := tallying_admits.mono fun _ _ ⟨_, _, _, _, hp⟩ =>
    ⟨.single (.post trivial hp), hp.sameProgress⟩
  complete := tallying_admits.mono fun _ _ ⟨_, _, _, _, hc⟩ =>
    ⟨.single (.complete hc), sameProgress_of_replaced (by decide) hc.result⟩

end

/-! ## One completion -/

section

variable {db : Db} {orgId accountId customerId id : Id} {S : List Id} {h : Hist} {s : Db}
  {F : Db → Prop}

/-- Past the lookup, with some challenges behind it, and with `F`. -/
def TalliedWith (db : Db) (accountId customerId id : Id) (F : Db → Prop) (h : Hist) (s : Db) :
    Prop := ∃ S, Tally db accountId customerId id S h s ∧ F s

/-- A part of a completion that leaves the challenges alone. -/
theorem wp_tallied {β : Type} {c : LCall β} {P : Db → Prop} {Φ : Except Err β → Db → Prop}
    (hc : Ensures (tallying db accountId customerId id S) P c Φ)
    (ht : Tally db accountId customerId id S h s) (hP : P s) :
    Call.wp (completing db customerId) (fun r h' s' => Tally db accountId customerId id S h' s' ∧
      Φ r s') c h s :=
  Call.wp_mono (fun _ _ _ hr => ⟨hr.1, hr.2.2⟩)
    (hc.phase (completing db customerId) (fun _ _ hc => hc) (fun _ _ ht => Tally.completing ht) ht hP)

/-- **The loop over the challenges** advances each of them at most once. -/
theorem wp_advanceAll {referrerId x : Id} (hF : anyStep.Keeps F)
    (hsame : ∀ a, WellKept a → F a → x = accountId) {cs : List (Id × LoyaltyChallenge)}
    (hnodup : (cs.map (·.1)).Nodup) (hahead : ∀ c ∈ cs, c.1 ∉ S)
    (ht : Tally db accountId customerId id S h s) (hs : F s) :
    Call.wp (completing db customerId)
      (fun _ h' s' => TalliedWith db accountId customerId id F h' s')
      (Call.forEach cs fun challenge => do
        let pointsResult ← withTenant (advanceChallenge orgId referrerId x 1 challenge)
        dispatchIfAny orgId x pointsResult { sourceType := "manual" }) h s := by
  induction cs generalizing S h s with
  | nil => exact ⟨S, ht, hs⟩
  | cons c cs ih =>
    obtain ⟨hc, hcs⟩ := List.nodup_cons.mp hnodup
    have hnow : c.1 ∉ S := hahead c List.mem_cons_self
    have hnext : ∀ c' ∈ cs, c'.1 ∉ c.1 :: S := by
      intro c' hc' hm
      rcases List.mem_cons.mp hm with heq | hm
      · exact hc (List.mem_map.mpr ⟨c', hc', heq⟩)
      · exact hahead c' (List.mem_cons_of_mem _ hc') hm
    have hroll : ∀ (h : Hist) (e : Err) (s : Db),
        Tally db accountId customerId id S h s ∧ F s →
          Tally db accountId customerId id S (h ++ [.rollback e]) s ∧ F s := fun h e s hk =>
      ⟨tallying_quiet.rollback h e s hk.1, hk.2⟩
    refine Call.wp_bind (Call.wp_mono (Q := fun r h' s' => (match r with
      | .ok _ => Tally db accountId customerId id (c.1 :: S) h' s' ∧ F s'
      | .error _ => TalliedWith db accountId customerId id F h' s')) (fun r h' s' hr => ?_) ?_)
    · cases r with
      | ok _ => exact ih hcs hnext hr.1 hr.2
      | error e => exact hr
    · refine Call.wp_bind (Call.wp_mono (fun r h' s' hr => ?_) (Call.wp_phaseTx
        (K := fun h s => Tally db accountId customerId id S h s ∧ F s)
        (L := fun _ h s => Tally db accountId customerId id (c.1 :: S) h s ∧ F s)
        (t := advanceChallenge orgId referrerId x 1 c)
        (fun _ _ hk => hk.1.completing) (fun _ _ _ hk => hk.1.completing)
        (fun _ a b hG hk => ⟨hk.1.mono (Steps.grows hG), hF a b hG hk.2⟩) hroll ⟨ht, hs⟩
        (fun s' _ => wp_advanceChallenge fun _ _ h => Steps.grows h) ?_))
      · cases r with
        | error e => exact ⟨S, hr.1, hr.2⟩
        | ok pointsResult =>
          refine Call.wp_mono (fun r h2 s2 hr2 => ?_) (wp_tallied
            ((dispatchIfAny_tame tallying_quiet x pointsResult _).carry hF) hr.1 hr.2)
          cases r with
          | ok _ => exact hr2
          | error e => exact ⟨c.1 :: S, hr2.1, hr2.2⟩
      · rintro _ a b hcond ⟨hk, hfa⟩ hadv
        have hx : x = accountId := hsame a hcond.kept hfa
        subst hx
        have hsteps : Steps (fun _ _ => True) a b := hadv.steps policy_true
        exact ⟨hsteps, (hk.mono (Steps.grows hsteps)).counts hnow hadv.counts, hF a b hsteps hfa⟩

theorem TalliedWith.mono {F' : Db → Prop} (hF : ∀ s, F s → F' s)
    (ht : TalliedWith db accountId customerId id F h s) :
    TalliedWith db accountId customerId id F' h s := by
  obtain ⟨S, ht, hs⟩ := ht
  exact ⟨S, ht, hF s hs⟩

/-- A query lists a row once. -/
theorem findMany_nodup {A : Db → Prop} {k : Kind} {p : Id → Row k → Bool} :
    Tx.wp anyStep A (fun rows => Did anyStep fun a c => c = a ∧ (rows.map (·.1)).Nodup) AnyErr
      (findMany orgId k p) [] s :=
  Did.wp_read did_start fun _ _ _ hd => hd.mono fun _ _ hab => ⟨hab.symm, Rel.nodup_ids _ _ _⟩

/-- **The challenges of the referrer.** -/
theorem wp_incrementReferrals {referrerId : Id} (hF : anyStep.Keeps F)
    (hheld : ∀ s, F s → HeldBy referrerId accountId s)
    (ht : Tally db accountId customerId id [] h s) (hs : F s) :
    Call.wp (completing db customerId)
      (fun _ h' s' => TalliedWith db accountId customerId id F h' s')
      (incrementChallengeProgress orgId referrerId .referrals 1) h s := by
  have hgrows : ∀ a b, anyStep.rel a b → Grows a b := fun _ _ h => Steps.grows h
  refine Call.wp_bind (Call.wp_mono (fun r h1 s1 hr => ?_) (wp_tallied
    ((ensureAccount_ensures hgrows tallying_quiet tallying_provisions referrerId).frame hF) ht
    ⟨hs, trivial⟩))
  obtain ⟨ht1, hf1, hr⟩ := hr
  cases r with
  | error e => exact ⟨[], ht1, hf1⟩
  | ok account =>
    cases account with
    | none => exact ⟨[], ht1, hf1⟩
    | some account =>
      let F1 : Db → Prop := fun s => F s ∧ AccountOf orgId referrerId account.id s
      have hF1 : anyStep.Keeps F1 := fun a b hab hf =>
        ⟨hF a b hab hf.1, accountOf_keeps hgrows referrerId account.id a b hab hf.2⟩
      have hsame : ∀ a, WellKept a → F1 a → account.id = accountId := by
        rintro a hk ⟨hf, ⟨q, hq, -, hc⟩⟩
        obtain ⟨q', hq', hc'⟩ := hheld a hf
        exact hk.holder hq hq' (hc.trans hc'.symm)
      have hread : Ensures (tallying db accountId customerId id []) (fun _ => True)
          (withTenant (findMany orgId .challenge fun _ c => c.active && c.targetType == .referrals))
          (onResult (fun cs _ => (cs.map Prod.fst).Nodup) fun _ _ => True) := by
        refine Ensures.readTx tallying_quiet.toSilent (X := AnyErr)
          (F := fun (cs : List (Id × Row .challenge)) _ => (cs.map Prod.fst).Nodup)
          (fun _ _ _ _ _ _ => findMany_nodup) (fun cs s a _ _ h => ?_)
          fun _ _ _ _ _ _ _ _ => trivial
        exact h
      refine Call.wp_bind (Call.wp_mono (fun r h2 s2 hr2 => ?_)
        (wp_tallied (hread.frame hF1) ht1 ⟨⟨hf1, hr account rfl⟩, trivial⟩))
      obtain ⟨ht2, hf2, hr2⟩ := hr2
      cases r with
      | error e => exact ⟨[], ht2, hf2.1⟩
      | ok cs =>
        exact Call.wp_mono (fun _ _ _ hr => TalliedWith.mono (fun _ hf => hf.1) hr)
          (wp_advanceAll hF1 hsame hr2 (fun _ _ => List.not_mem_nil) ht2 hf2)

theorem wp_advanceReferrals {referrer : Option LoyaltyAccount} (hF : anyStep.Keeps F)
    (hheld : ∀ q, referrer = some q → ∀ s, F s → HeldBy q.customerId accountId s)
    (ht : Tally db accountId customerId id [] h s) (hs : F s) :
    Call.wp (completing db customerId)
      (fun _ h' s' => TalliedWith db accountId customerId id F h' s')
      (advanceReferrals orgId referrer) h s := by
  cases referrer with
  | none => exact ⟨[], ht, hs⟩
  | some q =>
    refine Call.wp_handle (Call.wp_mono (fun r h' s' hr => ?_)
      (wp_incrementReferrals hF (hheld q rfl) ht hs))
    cases r <;> exact hr

/-- **Past the lookup**: bonuses, challenges, status. -/
theorem wp_completeReferral {v : ReferralView} {referrer : Option LoyaltyAccount} {x : Id}
    (hheld : ∀ q, referrer = some q → HeldBy q.customerId v.2.referrerAccountId s)
    (hfound : Found orgId customerId v s) (hx : HeldBy customerId x s)
    (ht : Tally db v.2.referrerAccountId customerId v.1 [] h s) :
    Call.wp (completing db customerId)
      (fun _ h' s' => ∃ S, Tally db v.2.referrerAccountId customerId v.1 S h' s')
      (completeReferral orgId v referrer x) h s := by
  have hgrows : ∀ a b, anyStep.rel a b → Grows a b := fun _ _ h => Steps.grows h
  let H : Db → Prop := fun s =>
    ∀ q, referrer = some q → HeldBy q.customerId v.2.referrerAccountId s
  have hH : anyStep.Keeps H := fun a b hab hh q hq => heldBy_keeps hgrows _ _ a b hab (hh q hq)
  let F : Db → Prop := fun s => H s ∧ ReadyToComplete orgId v.1 v.2 x s
  have hF : anyStep.Keeps F := fun a b hab hf =>
    ⟨hH a b hab hf.1, readyToComplete_keeps hgrows _ _ _ a b hab hf.2⟩
  rw [completeReferral_eq]
  refine Call.wp_bind (Call.wp_mono (fun r h1 s1 hr => ?_) (wp_tallied
    ((payBonuses_ensures hgrows tallying_quiet (tallying_completion orgId)).frame hH) ht
    ⟨hheld, hfound, hx⟩))
  obtain ⟨ht1, hh1, hr⟩ := hr
  cases r with
  | error e => exact ⟨[], ht1⟩
  | ok _ =>
    refine Call.wp_bind (Call.wp_mono (fun r h2 s2 hr2 => ?_) (wp_advanceReferrals hF
      (fun q hq s hf => hf.1 q hq) ht1 ⟨hh1, hr⟩))
    obtain ⟨S, ht2, hf2⟩ := hr2
    cases r with
    | error e => exact ⟨S, ht2⟩
    | ok _ =>
      exact Call.wp_mono (fun _ _ _ hr => ⟨S, hr.1⟩) (wp_tallied (completeTx_ensures hgrows
        tallying_quiet (tallying_completion orgId).complete fun _ _ hc => hc.kept) ht2 hf2.2)

/-- A part of a completion that commits nothing to the challenges, before the lookup. -/
theorem wp_steady {β : Type} {c : LCall β} {P : Db → Prop} {Φ : Except Err β → Db → Prop}
    (hc : Ensures (steady db) P c Φ) (hs : Steady h) (hP : P s) :
    Call.wp (completing db customerId) (fun _ h' _ => Steady h') c h s :=
  Call.wp_mono (fun _ _ _ hr => hr.1)
    (hc.phase (completing db customerId) (fun _ _ hc => hc) (fun _ _ hs => Or.inl hs) hs hP)

def LookedUp (db : Db) (orgId customerId : Id) (res : Option (ReferralView × Option LoyaltyAccount))
    (h : Hist) (s : Db) : Prop :=
  match res with
  | none => Steady h
  | some v => Tally db v.1.2.referrerAccountId customerId v.1.1 [] h s ∧
      Found orgId customerId v.1 s ∧
      ∀ q, v.2 = some q → HeldBy q.customerId v.1.2.referrerAccountId s

/-- **The lookup** finds a referral that was not completed when the run began. -/
theorem wp_lookup (hs : Steady h) :
    Call.wp (completing db customerId) (fun r h' s' => match r with
        | .ok res => LookedUp db orgId customerId res h' s'
        | .error _ => Steady h')
      (withTenant (findPendingReferral orgId customerId)) h s := by
  have hgrows : ∀ a b, anyStep.rel a b → Grows a b := fun _ _ h => Steps.grows h
  refine Call.wp_phaseTx (K := fun h _ => Steady h) (L := LookedUp db orgId customerId)
    (fun _ _ hk => Or.inl hk) (fun res h s hk => ?_) (fun _ _ _ _ hk => hk)
    (fun _ _ _ hk => Steady.snoc hk fun _ _ he => by cases he) hs
    (fun s' _ => wp_findPendingReferral (X := fun v => OpenedIn db v.1) hgrows
      (fun _ hc => hc.kept) fun s id r hc hr hp r0 hr0 hcomp => ?_) ?_
  · cases res with
    | none => exact Or.inl hk
    | some v => exact hk.1.completing
  · obtain ⟨r', hr', -, -, -, -, -, hstays, -⟩ := hc.grows.row hr0
    cases hr.symm.trans hr'
    rw [hstays hcomp] at hp
    cases hp
  · rintro res a b hc hk ⟨rfl, hres⟩
    have hread : Steady (h ++ [.commit b b]) := Steady.snoc hk fun _ _ he => by cases he; rfl
    refine ⟨anyStep.refl b, ?_⟩
    cases res with
    | none => exact hread
    | some v =>
      obtain ⟨hopen, hfound, hheld⟩ := hres v rfl
      obtain ⟨r, hr, he⟩ := hfound.row
      refine ⟨⟨⟨⟨r, hr, he.2.1, he.2.2.1.trans hfound.customer⟩, hopen⟩, ?_, .base hread,
        fun challengeId _ => hread.untouched challengeId⟩, hfound, hheld⟩
      rw [checked_snoc]
      exact Bool.or_true _

/-- **A completion** is steady until its lookup and tallied from then on. -/
theorem wp_completePending (hs : Steady h) :
    Call.wp (completing db customerId) (fun _ h' s' => Completing db customerId h' s')
      (completePendingForCustomer orgId customerId) h s := by
  have hgrows : ∀ a b, anyStep.rel a b → Grows a b := fun _ _ h => Steps.grows h
  refine Call.wp_bind (Call.wp_mono (fun r h1 s1 hs1 => ?_)
    (wp_steady isEnabled_tame hs trivial))
  cases r with
  | error e => exact Or.inl hs1
  | ok enabled =>
    cases enabled with
    | false => exact Or.inl hs1
    | true =>
      refine Call.wp_bind (Call.wp_mono (fun r h2 s2 hr => ?_) (wp_lookup hs1))
      cases r with
      | error e => exact Or.inl hr
      | ok res =>
        cases res with
        | none => exact Or.inl hr
        | some v =>
          obtain ⟨ht, hfound, hheld⟩ := hr
          let H : Db → Prop := fun s =>
            ∀ q, v.2 = some q → HeldBy q.customerId v.1.2.referrerAccountId s
          have hH : anyStep.Keeps H := fun a b hab hh q hq =>
            heldBy_keeps hgrows _ _ a b hab (hh q hq)
          refine Call.wp_bind (Call.wp_mono (fun r h3 s3 hr => ?_) (wp_tallied
            ((referredAccount_ensures hgrows tallying_quiet tallying_provisions).frame hH) ht
            ⟨hheld, hfound⟩))
          obtain ⟨ht3, hheld3, hr⟩ := hr
          cases r with
          | error e => exact ht3.completing
          | ok x =>
            cases x with
            | none => exact ht3.completing
            | some x =>
              refine Call.wp_bind (Call.wp_mono (fun r h4 s4 hr4 => ?_)
                (wp_completeReferral hheld3 hr.1 (hr.2 x rfl) ht3))
              obtain ⟨S, ht4⟩ := hr4
              cases r <;> exact ht4.completing

end

/-! ## Runs -/

section

variable {db : Db} {reqs : List Request} {accountId challengeId : Id} {c c' : Run} {i : ℕ} {id : Id}

/-- The customer of request `i`, whose referral it completes. -/
def customerOf (reqs : List Request) (i : ℕ) : Option Id := (reqs[i]?).bind completionOf

def completions (db : Db) (reqs : List Request) (i : ℕ) : Protocol Db Err Ev Answer anyStep :=
  completing db ((customerOf reqs i).getD 0)

theorem completions_safe (hreqs : ∀ req ∈ reqs, (completionOf req).isSome)
    {call : LCall Answer} (hi : (reqs.map Request.call)[i]? = some call) :
    Safe (completions db reqs i) call db := by
  rw [List.getElem?_map] at hi
  cases hr : reqs[i]? with
  | none => simp [hr] at hi
  | some req =>
    rw [hr] at hi
    cases hi
    have hsome := hreqs req (List.mem_of_getElem? hr)
    cases req
    case completePending orgId customerId =>
      have hnil : Steady ([] : Hist) := fun _ _ hm => by cases hm
      have hstart : Steady ([.start] : Hist) := Steady.snoc hnil fun _ _ he => by cases he
      unfold completions customerOf
      rw [hr]
      refine ⟨Or.inl hnil, fun s' _ _ => ⟨Or.inl hstart, ?_⟩⟩
      refine Call.wp_bind (Call.wp_mono (fun r h' s1 hr => ?_) (wp_completePending hstart))
      cases r with
      | ok res => exact hr.answers
      | error e => exact hr.answers
    all_goals cases hsome

/-- The referrals that bound a challenge: completed when the run began, or underway. -/
def counted (db : Db) (reqs : List Request) (c : Run) (accountId challengeId id : Id)
    (r : LoyaltyReferral) : Bool :=
  r.referrerAccountId == accountId &&
    ((db.get .referral id).any (·.status == .completed) ||
      underway reqs c challengeId r.referredCustomerId)

def Bounded (db : Db) (reqs : List Request) (accountId challengeId : Id) (c : Run) : Prop :=
  ∀ id p, c.db.get .progress id = some p → p.accountId = accountId →
    p.challengeId = challengeId →
      p.progress ≤ c.db.count .referral (counted db reqs c accountId challengeId)

theorem underway_iff {customerId : Id} : underway reqs c challengeId customerId = true ↔
    ∃ i < reqs.length, customerOf reqs i = some customerId ∧
      touched challengeId (c.histOf i) = true := by
  unfold underway customerOf
  simp

theorem counted_mono (ht : ∀ i, touched challengeId (c.histOf i) = true →
      touched challengeId (c'.histOf i) = true) {r r' : LoyaltyReferral}
    (he : Evolves .referral r r') (h : counted db reqs c accountId challengeId id r = true) :
    counted db reqs c' accountId challengeId id r' = true := by
  unfold counted at h ⊢
  rw [he.2.1, he.2.2.1]
  simp only [Bool.and_eq_true, Bool.or_eq_true] at h ⊢
  refine ⟨h.1, h.2.imp_right fun hu => ?_⟩
  obtain ⟨i, hi, hc, hti⟩ := underway_iff.mp hu
  exact underway_iff.mpr ⟨i, hi, hc, ht i hti⟩

theorem count_mono (hg : Grows c.db c'.db)
    (ht : ∀ i, touched challengeId (c.histOf i) = true →
      touched challengeId (c'.histOf i) = true) :
    c.db.count .referral (counted db reqs c accountId challengeId) ≤
      c'.db.count .referral (counted db reqs c' accountId challengeId) := by
  refine Rel.count_le_of_get fun id r hr hcount => ?_
  obtain ⟨r', hr', he⟩ := hg.row hr
  exact ⟨r', hr', counted_mono ht he hcount⟩

/-- **One more on the challenge** is one more referral underway. -/
theorem count_advance {customerId : Id} (hi : customerOf reqs i = some customerId)
    (hlt : i < reqs.length) (hsep : Separate reqs c i) (hends : c.ends i = false)
    (hchecked : checked (c.histOf i) = true) (hnot : touched challengeId (c.histOf i) = false)
    (hnow : touched challengeId (c'.histOf i) = true) (hg : Grows c.db c'.db)
    (ht : ∀ i, touched challengeId (c.histOf i) = true →
      touched challengeId (c'.histOf i) = true) (hf : Finds db accountId customerId id c'.db) :
    c.db.count .referral (counted db reqs c accountId challengeId) <
      c'.db.count .referral (counted db reqs c' accountId challengeId) := by
  obtain ⟨⟨r, hr, hacc, hcust⟩, hopen⟩ := hf
  refine Rel.count_lt_of_get (fun id r hr hcount => ?_) hr ?_ fun r0 hr0 => ?_
  · obtain ⟨r', hr', he⟩ := hg.row hr
    exact ⟨r', hr', counted_mono ht he hcount⟩
  · unfold counted
    rw [hacc, hcust, underway_iff.mpr ⟨i, hlt, hi, hnow⟩]
    simp
  · obtain ⟨r', hr', he⟩ := hg.row hr0
    cases hr.symm.trans hr'
    have hcust0 : r0.referredCustomerId = customerId := he.2.2.1.symm.trans hcust
    unfold counted
    rw [Bool.and_eq_false_iff, Bool.or_eq_false_iff]
    refine Or.inr ⟨?_, ?_⟩
    · cases hdb : db.get .referral id with
      | none => rfl
      | some q => exact beq_eq_false_iff_ne.mpr (hopen q hdb)
    · refine Bool.eq_false_iff.mpr fun hu => ?_
      obtain ⟨j, hj, hcj, htj⟩ := underway_iff.mp hu
      rw [hcust0] at hcj
      by_cases hij : j = i
      · subst hij
        rw [hnot] at htj
        cases htj
      · have hquiet := hsep hends hchecked j hj hij (hcj.trans hi.symm)
        rw [advanced_of_touched htj] at hquiet
        cases hquiet

theorem touched_mono {es : Hist} (h : c'.histOf i = c.histOf i ++ es)
    (hother : ∀ j, j ≠ i → c'.histOf j = c.histOf j) (j : ℕ)
    (hj : touched challengeId (c.histOf j) = true) : touched challengeId (c'.histOf j) = true := by
  by_cases hji : j = i
  · subst hji
    rw [h, touched, List.any_append, Bool.or_eq_true]
    exact Or.inl hj
  · rw [hother j hji]
    exact hj

theorem Bounded.same (hb : Bounded db reqs accountId challengeId c)
    (hle : c.db.count .referral (counted db reqs c accountId challengeId) ≤
      c'.db.count .referral (counted db reqs c' accountId challengeId))
    (hrows : ∀ id p, c'.db.get .progress id = some p → p.accountId = accountId →
      p.challengeId = challengeId → c.db.get .progress id = some p) :
    Bounded db reqs accountId challengeId c' := by
  intro id p hp hacc hch
  have := hb id p (hrows id p hp hacc hch) hacc hch
  omega

theorem customerOf_isSome (hreqs : ∀ req ∈ reqs, (completionOf req).isSome)
    (hlt : i < reqs.length) : ∃ customerId, customerOf reqs i = some customerId := by
  unfold customerOf
  rw [List.getElem?_eq_getElem hlt]
  exact Option.isSome_iff_exists.mp (hreqs _ (List.getElem_mem hlt))

/-- **One step** keeps the bound. -/
theorem Bounded.step {m : Move Err} (hlen : c.sess.length = reqs.length)
    (hok' : c'.Ok (completions db reqs) db) (hg : Grows c.db c'.db)
    (hreqs : ∀ req ∈ reqs, (completionOf req).isSome) (hsep : Separate reqs c i)
    (hs : c.step i m = some c') (hb : Bounded db reqs accountId challengeId c) :
    Bounded db reqs accountId challengeId c' := by
  obtain ⟨es, hlt, hself, hother, hes⟩ := Config.step_history hs
  have htouched : ∀ j, touched challengeId (c.histOf j) = true →
      touched challengeId (c'.histOf j) = true := touched_mono hself hother
  have hle : c.db.count .referral (counted db reqs c accountId challengeId) ≤
      c'.db.count .referral (counted db reqs c' accountId challengeId) := count_mono hg htouched
  rcases hes with ⟨rfl, hends⟩ | ⟨hdb, -⟩
  · have hlt' : i < c'.sess.length := by
      rw [Config.length_step hs]
      exact hlt
    have hkeep : Completing db ((customerOf reqs i).getD 0) (c'.histOf i) c'.db := hok'.keeps hlt'
    rw [hself] at hkeep
    rcases hkeep with hsteady | ⟨accountId', id', hf, ht⟩
    · have hsame := hsteady c.db c'.db (List.mem_append_right _ (List.mem_singleton_self _))
      exact hb.same hle fun id p hp _ _ => (hsame.get id).symm.trans hp
    · rcases ht.last with hsame | ⟨challengeId', hchecked, hnot, hcounts⟩
      · exact hb.same hle fun id p hp _ _ => (hsame.get id).symm.trans hp
      · by_cases hkey : accountId' = accountId ∧ challengeId' = challengeId
        · obtain ⟨rfl, rfl⟩ := hkey
          obtain ⟨customerId, hi⟩ := customerOf_isSome hreqs (hlen ▸ hlt)
          rw [hi, Option.getD_some] at hf
          have hnow : touched challengeId' (c'.histOf i) = true := by
            rw [hself, touched_snoc, hcounts.touched, Bool.or_true]
          have hmore := count_advance hi (hlen ▸ hlt) hsep hends hchecked hnot hnow hg htouched hf
          intro id p hp hacc hch
          have := hcounts.bound (Int.natCast_nonneg _) hb hp hacc hch
          omega
        · exact hb.same hle fun id p hp hacc hch => hcounts.get_other hkey hp hacc hch
  · exact hb.same hle fun id p hp _ _ => hdb ▸ hp

theorem reaches_of_counted (hg : Grows db c.db) {r : LoyaltyReferral}
    (hr : c.db.get .referral id = some r)
    (h : counted db reqs c accountId challengeId id r = true) :
    r.reaches reqs c accountId challengeId = true := by
  unfold counted at h
  unfold LoyaltyReferral.reaches
  simp only [Bool.and_eq_true, Bool.or_eq_true] at h ⊢
  refine ⟨h.1, h.2.imp_left fun hdone => ?_⟩
  obtain ⟨r0, hr0, hcomp⟩ := (Option.any_eq_true _ _).mp hdone
  obtain ⟨r', hr', he⟩ := hg.row hr0
  cases hr.symm.trans hr'
  exact beq_iff_eq.mpr (he.2.2.2.2.2.1 (eq_of_beq hcomp))

/-- **A referral advances a challenge once.** In every run of completions in which none goes on past
its lookup after another one for the same customer has advanced a challenge, the progress of a
challenge is at most the number of the referrer's referrals that are completed or have only their
status left to write. -/
theorem reach_progress (hdb : WellKept db) (hreqs : ∀ req ∈ reqs, (completionOf req).isSome)
    (h0 : ∀ id p, db.get .progress id = some p → p.accountId = accountId →
      p.challengeId = challengeId → p.progress ≤ db.count .referral fun _ r =>
        r.referrerAccountId == accountId && r.status == .completed)
    (h : Reach (Separate reqs) (start db reqs) c) :
    ∀ id p, c.db.get .progress id = some p → p.accountId = accountId →
      p.challengeId = challengeId → p.progress ≤ c.db.count .referral fun _ r =>
        r.reaches reqs c accountId challengeId := by
  have hsafe : ∀ (i : ℕ) (call : LCall Answer), (reqs.map Request.call)[i]? = some call →
      Safe (completions db reqs i) call db := fun i call hi => completions_safe hreqs hi
  have hcond : ∀ (d : Run) (i : ℕ), d.Ok (completions db reqs) db → Separate reqs d i →
      d.ends i = false → (completions db reqs i).cond (d.histOf i) d.db := fun d i hd _ _ =>
    ⟨hd.rel.wellKept hdb, Steps.grows hd.rel⟩
  have hbound : Bounded db reqs accountId challengeId c := by
    induction h with
    | refl =>
      intro id p hp hacc hch
      refine (h0 id p hp hacc hch).trans (Int.ofNat_le.mpr ?_)
      refine Rel.count_le_of_get fun id r hr hcount => ⟨r, hr, ?_⟩
      unfold counted
      rw [Bool.and_eq_true] at hcount ⊢
      refine ⟨hcount.1, Bool.or_eq_true_iff.mpr (Or.inl ?_)⟩
      exact (Option.any_eq_true _ _).mpr ⟨r, hr, hcount.2⟩
    | @tail d d' i m hd hp hs ih =>
      have hok := reach_sound hsafe hcond hd
      have hlen : d.sess.length = reqs.length := by
        rw [hd.length_sess, start, Config.init, List.length_map, List.length_map]
      exact ih.step hlen (hok.step (hcond d i hok hp) hs)
        (Steps.grows (hok.step_rel (hcond d i hok hp) hs)) hreqs hp hs
  have hg : Grows db c.db := Steps.grows (reach_sound hsafe hcond h).rel
  intro id p hp hacc hch
  refine (hbound id p hp hacc hch).trans (Int.ofNat_le.mpr ?_)
  exact Rel.count_le_of_get fun id r hr hcount => ⟨r, hr, reaches_of_counted hg hr hcount⟩

end

def bob : LoyaltyAccount :=
  { orgId := 1, customerId := 11, tierId := none, referralCode := "BBBB3333" }

def bringFriends : LoyaltyChallenge :=
  { orgId := 1, name := "Bring friends", targetType := .referrals, targetValue := 5 }

def invitation : LoyaltyReferral :=
  { orgId := 1, referrerAccountId := 20, referredCustomerId := 11, referredAccountId := some 21
    referrerBonusPoints := 50, referredBonusPoints := 25 }

def acquainted : Db :=
  ((onePatron.set .customer 11 { orgId := 1, name := "Bob" }).set .account 21 bob).set
    .challenge 30 bringFriends

def invited : Db := acquainted.set .referral 40 invitation

theorem acquainted_wellKept : WellKept acquainted :=
  ((onePatron_wellKept.insert (by decide) (by decide +kernel) (by decide +kernel)).insert
    (by decide) (by decide +kernel) (by decide +kernel)).insert
    (by decide) (by decide +kernel) (by decide +kernel)

theorem invited_wellKept : WellKept invited :=
  acquainted_wellKept.insertReferral (by decide +kernel) (by decide +kernel)
    fun x hx => by cases hx; exact ⟨bob, by decide +kernel, rfl⟩

/-- Bob's purchase, and a retry or a second one. -/
def twoPurchases : List Request := [.completePending 1 11, .completePending 1 11]

/-- The first one finds the referral pending, the second one runs, the first one goes on. -/
def bothFindReferral : List (ℕ × Move Err) :=
  List.replicate 7 (0, .go 1) ++ List.replicate 83 (1, .go 1) ++ List.replicate 48 (0, .go 1)

set_option maxRecDepth 100000 in
/-- **A challenge that is advanced twice for one referral.** -/
theorem progress_twice : ∃ (c : Run) (p : CustomerChallengeProgress),
    Reach Always (start invited twoPurchases) c ∧ c.db.get .progress 1 = some p ∧
      p.accountId = 20 ∧ p.challengeId = 30 ∧ p.progress = 2 ∧
      (c.db.count .referral fun _ _ => true) = 1 := by
  obtain ⟨c, hc, hp⟩ := exists_reach_anywhere
    (start invited twoPurchases) bothFindReferral
    (fun c => decide (c.db.get .progress 1 = some
      { orgId := 1, accountId := 20, challengeId := 30, progress := 2 } ∧
        (c.db.count .referral fun _ _ => true) = 1)) (by decide +kernel)
  obtain ⟨hrow, hone⟩ := of_decide_eq_true hp
  exact ⟨c, _, hc, hrow, rfl, rfl, rfl, hone⟩

/-- The first one dies past its first bonus, the second one completes the referral. -/
def retriesAfterBonus : List (ℕ × Move Err) :=
  List.replicate 24 (0, .go 1) ++ [(0, .crash)] ++ List.replicate 69 (1, .go 1)

set_option maxRecDepth 100000 in
theorem reach_progress_retriesAfterBonus : ∃ (c : Run) (p : CustomerChallengeProgress),
    Reach (Separate twoPurchases) (start invited twoPurchases) c ∧
      c.db.get .progress 1 = some p ∧ p.progress = 1 ∧
      p.progress ≤ c.db.count .referral fun _ r => r.reaches twoPurchases c 20 30 := by
  obtain ⟨c, hc, hp⟩ := exists_reach (o := fun c i => decide (Separate twoPurchases c i))
    (P := Separate twoPurchases) (fun _ _ h => of_decide_eq_true h)
    (start invited twoPurchases) retriesAfterBonus
    (fun c => decide (c.db.get .progress 1 = some
      { orgId := 1, accountId := 20, challengeId := 30, progress := 1 })) (by decide +kernel)
  have hrow := of_decide_eq_true hp
  have hnone : ∀ id p, invited.get .progress id = some p → p.accountId = 20 →
      p.challengeId = 30 → p.progress ≤ invited.count .referral fun _ r =>
        r.referrerAccountId == 20 && r.status == .completed := by
    intro id p hget
    cases hget
  exact ⟨c, _, hc, hrow, rfl,
    reach_progress invited_wellKept (by decide) hnone hc 1 _ hrow rfl rfl⟩

end PatronLoyalty.Loyalty
