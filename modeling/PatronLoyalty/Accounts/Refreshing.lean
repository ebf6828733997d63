import PatronLoyalty.Accounts.Commits

/-!
# Refresh tokens

An exchange looks for a live session with the digest of the token, then revokes the session it has found,
whether it is still live or not, then opens the next one: three transactions. A revocation updates the
sessions that its statement finds.

Headline: **`refresh_revocable`**. Each token is exchanged once, and none that was issued before a
revocation is exchanged after it, as long as no session of the token has been closed when an exchange
revokes one, no revocation comes between that and the next session, and none misses a session that is
opened while it runs.
-/

namespace PatronLoyalty.Accounts

open Txn
open Loyalty (Id)

variable {d : Deployment} {requests : List Request} {s₀ a b : Db} {c : Run} {r : Request}
  {h : List Line} {userId : Id}

/-- A session with the digest of the token has been closed. -/
def Spent (s : Db) (token : Jwt) : Prop :=
  ∃ id r, s.get .session id = some r ∧ r.tokenHash = sha256 token ∧ r.Closed

def IssuedTo (s : Db) (userId : Id) (token : Jwt) : Prop :=
  token.payload.sub = userId ∧
    ∃ id r, s.get .session id = some r ∧ r.userId = userId ∧ r.tokenHash = sha256 token

/-- **Single-use and revocable.** -/
structure Revocable (requests : List Request) (c : Run) : Prop where
  once {token : Jwt} {i j p q : ℕ} {x y : Answer} : requests[i]? = some (.refreshTokens token) →
    requests[j]? = some (.refreshTokens token) → c.trace[p]? = some (i, .answer (.ok x)) →
      c.trace[q]? = some (j, .answer (.ok y)) → i = j
  /-- An exchange that succeeds has opened a session of its user. -/
  opened {token : Jwt} {i p : ℕ} {x : Answer} : requests[i]? = some (.refreshTokens token) →
    c.trace[p]? = some (i, .answer (.ok x)) → ∃ q a b, q < p ∧
      c.trace[q]? = some (i, .commit a b) ∧ Opens token.payload.sub a b
  /-- A revocation leaves no session of the user live. -/
  closed {j q : ℕ} {r : Request} {a b : Db} {userId : Id} : requests[j]? = some r →
    c.trace[q]? = some (j, .commit a b) → Revokes r (linesOf j (c.trace.take q)) a userId →
      ∀ id row, b.get .session id = some row → row.userId = userId →
        ∃ row', c.db.get .session id = some row' ∧ row'.Closed
  /-- No token of the user's that was issued before it opens a session after it. -/
  before {token : Jwt} {i j p q : ℕ} {r : Request} {a b a' b' : Db} {userId : Id} :
    requests[j]? = some r → c.trace[q]? = some (j, .commit a b) →
      Revokes r (linesOf j (c.trace.take q)) a userId → IssuedTo a userId token →
        requests[i]? = some (.refreshTokens token) → c.trace[p]? = some (i, .commit a' b') →
          Opens userId a' b' → p < q

/-! ## The condition -/

/-- The sessions of the user are revoked at position `q`. -/
def RevokedAt (requests : List Request) (es : List (ℕ × Line)) (q : ℕ) (userId : Id) : Prop :=
  ∃ j a b r, es[q]? = some (j, .commit a b) ∧ requests[j]? = some r ∧
    Revokes r (linesOf j (es.take q)) a userId

/-- **The condition on a commit.** -/
structure InOrder (requests : List Request) (es : List (ℕ × Line)) (i : ℕ) (a : Db) : Prop where
  /-- When an exchange revokes its session, no session of the token has been closed. -/
  unspent {token : Jwt} : requests[i]? = some (.refreshTokens token) → Made 2 (linesOf i es) →
    ¬ Spent a token
  /-- When it opens the next one, the user has not been revoked since. -/
  unrevoked {token : Jwt} {q : ℕ} : requests[i]? = some (.refreshTokens token) →
    Made 4 (linesOf i es) → 2 < commits (linesOf i (es.take q)) →
      ¬ RevokedAt requests es q token.payload.sub
  /-- A revocation finds every session opened since the transaction before it closed. -/
  caught {r : Request} {userId : Id} {s : Db} : requests[i]? = some r →
    Revokes r (linesOf i es) a userId → lastStore (linesOf i es) = some s →
      ∀ id row, s.get .session id = none → a.get .session id = some row → row.userId = userId →
        row.Closed

theorem spent_keeps (token : Jwt) : evolving.Keeps fun s => Spent s token := by
  rintro a b hab ⟨id, r, hr, ht, hc⟩
  obtain ⟨r', hr', hle⟩ := Evolves.session hab hr
  exact ⟨id, r', hr', hle.tokenHash.trans ht, hc.le hle⟩

theorem catches_of_revokes (hd : Does r h a b)
    (hr : Revokes r h a userId) : Catches r h a b ∧ ∀ token, r ≠ .refreshTokens token := by
  cases r with
  | logout | setPasswordForUser | resetTwoFactorForUser | resetPassword =>
    exact ⟨hd, fun _ he => by cases he⟩
  | _ => exact hr.elim

theorem exists_lastStore (hr : Revokes r h a userId) :
    ∃ s, lastStore h = some s := by
  refine exists_lastStore_of_commits ?_
  cases r with
  | logout => rw [hr.2]; omega
  | setPasswordForUser => rw [hr.2]; omega
  | resetTwoFactorForUser => rw [hr.2]; omega
  | resetPassword => rw [hr.1]; omega
  | _ => exact hr.elim

section Runs

variable (hs : Served evolving Does (Answers d) s₀ requests c)

theorem evolves_lastStore (hs : Served evolving Does (Answers d) s₀ requests c) {i q : ℕ} {s : Db}
    (hq : c.trace[q]? = some (i, .commit a b)) (hl : lastStore (linesOf i (c.trace.take q)) = some s) :
    Evolves s a := by
  obtain ⟨x, hx⟩ := mem_of_lastStore hl
  obtain ⟨p, hp, hpe⟩ := exists_getElem?_of_mem_linesOf hx
  exact hs.since hpe hq hp

end Runs

/-- **Refresh tokens are single-use and revocable**, as long as the commits come in order. -/
theorem refresh_revocable
    (h : Reach (fun c i => c.AtCommit (fun a _ => InOrder requests c.trace i a) i)
      (start d s₀ requests) c) :
    Revocable requests c := by
  have hs := served h
  have hk : ∀ {p i a b}, c.trace[p]? = some (i, .commit a b) →
      InOrder requests (c.trace.take p) i a := fun hp =>
    reach_atCommit (K := fun es i a _ => InOrder requests es i a) (fun _ _ hc => hc) h hp
  -- The commit with which an exchange spends its session.
  have hspend : ∀ {i p k token}, requests[i]? = some (.refreshTokens token) →
      2 < commits (linesOf i (c.trace.take p)) → k = 2 → ∃ q a b, q < p ∧
        c.trace[q]? = some (i, .commit a b) ∧ commits (linesOf i (c.trace.take q)) = k ∧
          ¬ Spent a token ∧ Spent b token := by
    rintro i p k token hi hlt rfl
    obtain ⟨q, a, b, hqp, hq, hm⟩ := exists_commit_take hlt
    obtain ⟨r, hr, -, hd⟩ := hs.commit hq
    obtain rfl : r = .refreshTokens token := Option.some.inj (hr.symm.trans hi)
    obtain ⟨id, row, row', hrow, ht, hrow', hrev⟩ := hd.2.1 hm
    refine ⟨q, a, b, hqp, hq, hm, (hk hq).unspent hi hm, id, row', hrow', ?_, Or.inl hrev⟩
    obtain ⟨row'', hrow'', hle⟩ := Evolves.session hd.1.evolves hrow
    obtain rfl : row' = row'' := Option.some.inj (hrow'.symm.trans hrow'')
    exact hle.tokenHash.trans ht
  have hfive : ∀ {i p token x}, requests[i]? = some (.refreshTokens token) →
      c.trace[p]? = some (i, .answer (.ok x)) → commits (linesOf i (c.trace.take p)) = 5 := by
    intro i p token x hi hp
    obtain ⟨r, hr, ha⟩ := hs.answer hp
    obtain rfl : r = .refreshTokens token := Option.some.inj (hr.symm.trans hi)
    exact ha
  have hclosed : ∀ {j q r a b userId}, requests[j]? = some r →
      c.trace[q]? = some (j, .commit a b) → Revokes r (linesOf j (c.trace.take q)) a userId →
        ∀ id row, b.get .session id = some row → row.userId = userId → row.Closed := by
    intro j q r a b userId hj hq hr id row hrow hu
    obtain ⟨r', hr', hab, hd⟩ := hs.commit hq
    obtain rfl : r' = r := Option.some.inj (hr'.symm.trans hj)
    obtain ⟨s, hl⟩ := exists_lastStore hr
    cases hid : s.get .session id with
    | none =>
      have hcatch := ((catches_of_revokes hd hr).1.2 userId hr).1
      cases ha : a.get .session id with
      | none =>
        rw [hcatch id ha] at hrow
        cases hrow
      | some row0 =>
        obtain ⟨row1, hrow1, hle⟩ := Evolves.session hab ha
        obtain rfl : row = row1 := Option.some.inj (hrow.symm.trans hrow1)
        exact ((hk hq).caught hj hr hl id row0 hid ha (hle.userId.symm.trans hu)).le hle
    | some row0 =>
      have hev : Evolves s b := (evolves_lastStore hs hq hl).trans hab
      obtain ⟨row1, hrow1, hle⟩ := hev.session hid
      obtain rfl : row = row1 := Option.some.inj (hrow.symm.trans hrow1)
      obtain ⟨row2, hrow2, hc⟩ := ((catches_of_revokes hd hr).1.2 userId hr).2 s hl id row0 hid
        (hle.userId.symm.trans hu)
      obtain rfl : row = row2 := Option.some.inj (hrow.symm.trans hrow2)
      exact hc
  refine ⟨?_, ?_, ?_, ?_⟩
  · intro token i j p q x y hi hj hp hq
    obtain ⟨p', a, b, -, hp', -, ha, hb⟩ := hspend hi (by rw [hfive hi hp]; omega) rfl
    obtain ⟨q', a', b', -, hq', -, ha', hb'⟩ := hspend hj (by rw [hfive hj hq]; omega) rfl
    have hpq : p' = q' := hs.linear.once (fun k x y hc hx => by
      obtain ⟨n, hn⟩ := List.getElem?_of_mem hc
      obtain ⟨-, -, hxy, -⟩ := hs.commit hn
      exact spent_keeps token x y hxy hx) hp' hq' hb ha hb' ha'
    subst hpq
    rw [hp'] at hq'
    cases hq'
    rfl
  · intro token i p x hi hp
    obtain ⟨q, a, b, hqp, hq, hm⟩ := exists_commit_take (k := 4) (by rw [hfive hi hp]; omega)
    obtain ⟨r, hr, -, hd⟩ := hs.commit hq
    obtain rfl : r = .refreshTokens token := Option.some.inj (hr.symm.trans hi)
    exact ⟨q, a, b, hqp, hq, hd.2.2.1 hm⟩
  · intro j q r a b userId hj hq hr id row hrow hu
    obtain ⟨row', hrow', hle⟩ := Evolves.session (hs.toEnd hq) hrow
    exact ⟨row', hrow', (hclosed hj hq hr id row hrow hu).le hle⟩
  · intro token i j p q r a b a' b' userId hj hq hr hissued hi hp hopens
    obtain ⟨rfl, id, row, hrow, hu, ht⟩ := hissued
    obtain ⟨r', hr', hab, hd⟩ := hs.commit hq
    obtain rfl : r' = r := Option.some.inj (hr'.symm.trans hj)
    by_contra hnot
    have hne : p ≠ q := by
      rintro rfl
      rw [hp] at hq
      cases hq
      exact (catches_of_revokes hd hr).2 token (Option.some.inj (hj.symm.trans hi))
    have hqp : q < p := by omega
    -- The commit opens a session, so it is the fifth of the exchange.
    have hm : Made 4 (linesOf i (c.trace.take p)) := by
      obtain ⟨r'', hr'', -, hd'⟩ := hs.commit hp
      obtain rfl : r'' = .refreshTokens token := Option.some.inj (hr''.symm.trans hi)
      by_contra hm
      obtain ⟨id', row', hnone, hsome, -⟩ := hopens
      rw [hd'.2.2.2 hm id' hnone] at hsome
      cases hsome
    obtain ⟨n, x, y, hnp, hn, hm2, hx, -⟩ := hspend (p := p) hi
      (by rw [show commits _ = 4 from hm]; omega) rfl
    rcases Nat.lt_trichotomy n q with hlt | rfl | hlt
    · -- The revocation comes after the session was spent.
      have htake : (c.trace.take p).take q = c.trace.take q := by
        rw [List.take_take, Nat.min_eq_left (by omega)]
      refine (hk hp).unrevoked (q := q) hi hm ?_ ⟨j, a, b, r', ?_, hj, ?_⟩
      · rw [htake]
        have := commits_lt_of_commit hn hlt
        omega
      · rwa [List.getElem?_take_of_lt hqp]
      · rwa [htake]
    · rw [hn] at hq
      cases hq
      exact (catches_of_revokes hd hr).2 token (Option.some.inj (hj.symm.trans hi))
    · -- The session has been closed by the revocation.
      obtain ⟨row', hrow', hle⟩ := Evolves.session hab hrow
      have hc := hclosed hj hq hr id row' hrow' (hle.userId.trans hu)
      exact hx (spent_keeps token b x (hs.since hq hn hlt)
        ⟨id, row', hrow', hle.tokenHash.trans ht, hc⟩)

/-! ## Runs -/

def SessionRow.closed (r : SessionRow) : Bool := r.revokedAt.isSome || r.deleted

def sessionRows (s : Db) : List (Id × SessionRow) := s.rows .session fun _ _ => true

theorem mem_sessionRows {s : Db} {id : Id} {r : SessionRow} (h : s.get .session id = some r) :
    (id, r) ∈ sessionRows s := Rel.mem_rows.mpr ⟨h, rfl⟩

def spent (s : Db) (token : Jwt) : Bool :=
  (sessionRows s).any fun x => x.2.tokenHash == sha256 token && x.2.closed

def mayRevoke (r : Request) (h : List Line) (userId : Id) : Bool :=
  match r with
  | .logout id => id == userId && commits h == 1
  | .setPasswordForUser _ id _ _ => id == userId && commits h == 4
  | .resetTwoFactorForUser _ id _ => id == userId && commits h == 4
  | .resetPassword _ _ => commits h == 2
  | _ => false

def revokedAt (requests : List Request) (es : List (ℕ × Line)) (q : ℕ) (userId : Id) : Bool :=
  match es[q]? with
  | some (j, .commit _ _) => requests[j]?.any fun r => mayRevoke r (linesOf j (es.take q)) userId
  | _ => false

def exchangeInOrder (requests : List Request) (es : List (ℕ × Line)) (i : ℕ) (a : Db) (token : Jwt) :
    Bool :=
  (commits (linesOf i es) != 2 || !spent a token) &&
    (commits (linesOf i es) != 4 || (List.range es.length).all fun q =>
      !(decide (2 < commits (linesOf i (es.take q))) &&
        revokedAt requests es q token.payload.sub))

def revocationInOrder (h : List Line) (a : Db) (r : Request) : Bool :=
  (lastStore h).all fun s => (sessionRows a).all fun x =>
    (s.get .session x.1).isSome || x.2.closed || !mayRevoke r h x.2.userId

/-- The condition, computed. -/
def inOrder (requests : List Request) (es : List (ℕ × Line)) (i : ℕ) (a : Db) : Bool :=
  requests[i]?.all fun r => revocationInOrder (linesOf i es) a r &&
    match r with
    | .refreshTokens token => exchangeInOrder requests es i a token
    | _ => true

theorem closed_iff {r : SessionRow} : r.closed = true ↔ r.Closed := by
  simp [SessionRow.closed, SessionRow.Closed]

theorem spent_of {s : Db} {token : Jwt} (h : Spent s token) : spent s token = true := by
  obtain ⟨id, r, hr, ht, hc⟩ := h
  refine List.any_eq_true.mpr ⟨_, mem_sessionRows hr, ?_⟩
  simp [ht, closed_iff.mpr hc]

theorem mayRevoke_of (hr : Revokes r h a userId) :
    mayRevoke r h userId = true := by
  cases r with
  | logout | setPasswordForUser | resetTwoFactorForUser =>
    obtain ⟨rfl, hm⟩ := hr
    exact Bool.and_eq_true_iff.mpr ⟨beq_self_eq_true _, beq_iff_eq.mpr hm⟩
  | resetPassword => exact beq_iff_eq.mpr hr.1
  | _ => exact hr.elim

theorem revokedAt_of {es : List (ℕ × Line)} {q : ℕ}
    (h : RevokedAt requests es q userId) : revokedAt requests es q userId = true := by
  obtain ⟨j, a, b, r, hq, hj, hr⟩ := h
  simp [revokedAt, hq, hj, mayRevoke_of hr]

theorem inOrder_of {es : List (ℕ × Line)} {i : ℕ} (h : inOrder requests es i a = true) :
    InOrder requests es i a where
  unspent {token} hi hm hs := by
    rw [inOrder, hi, Option.all_some, Bool.and_eq_true] at h
    have h2 := (Bool.and_eq_true_iff.mp h.2).1
    rw [spent_of hs, show commits (linesOf i es) = 2 from hm] at h2
    cases h2
  unrevoked {token q} hi hm hlt hr := by
    rw [inOrder, hi, Option.all_some, Bool.and_eq_true] at h
    have h4 := (Bool.and_eq_true_iff.mp h.2).2
    rw [show commits (linesOf i es) = 4 from hm] at h4
    have hq : q < es.length := by
      obtain ⟨j, a, b, r, hq, -⟩ := hr
      exact (List.getElem?_eq_some_iff.mp hq).1
    have hall := List.all_eq_true.mp ((Bool.or_eq_true _ _).mp h4 |>.resolve_left (by decide)) q
      (List.mem_range.mpr hq)
    rw [revokedAt_of hr, decide_eq_true hlt] at hall
    cases hall
  caught {r userId s} hi hr hl id row hs hrow hu := by
    rw [inOrder, hi, Option.all_some, Bool.and_eq_true] at h
    have hall := h.1
    rw [revocationInOrder, hl, Option.all_some] at hall
    have hx := List.all_eq_true.mp hall _ (mem_sessionRows hrow)
    rw [hs, hu, mayRevoke_of hr] at hx
    exact closed_iff.mp (by simpa using hx)

def issuedToken : Jwt :=
  sign ({} : Deployment).refreshSecret (sessionPayload 7 1 "acme" "ada@example.org") 2592000 0

def signedInStore : Db where
  tables
    | .organization => table [(1, { slug := "acme" })]
    | .user => table [(7, { orgId := 1, email := "ada@example.org", passwordHash := ⟨"Correct1"⟩
                            status := .active, emailVerified := true })]
    | .session => table [(3, { userId := 7, tokenHash := sha256 issuedToken, expiresAt := 604800000 })]
    | _ => ∅
  log := []

/-- Request `i` has succeeded. -/
def succeeded (i : ℕ) (c : Run) : Bool := c.trace.any fun
  | (j, Entry.answer (.ok _)) => j == i
  | _ => false

theorem exists_answer_of_succeeded {i : ℕ} (h : succeeded i c = true) :
    ∃ (p : ℕ) (x : Answer), c.trace[p]? = some (i, .answer (.ok x)) := by
  obtain ⟨e, he, hx⟩ := List.any_eq_true.mp h
  obtain ⟨p, hp⟩ := List.getElem?_of_mem he
  obtain ⟨j, e⟩ := e
  cases e with
  | answer r =>
    cases r with
    | ok x => exact ⟨p, x, by rw [hp, beq_iff_eq.mp hx]⟩
    | error e => cases hx
  | start | commit | rollback | emit => cases hx

/-- **Two exchanges** of one token both find its session live before either revokes it. -/
theorem refreshed_twice : ∃ c : Run, Reach Always
    (start {} signedInStore [.refreshTokens issuedToken, .refreshTokens issuedToken]) c ∧
      ¬ Revocable [.refreshTokens issuedToken, .refreshTokens issuedToken] c := by
  obtain ⟨c, hc, hp⟩ := exists_reach_anywhere
    (start {} signedInStore [.refreshTokens issuedToken, .refreshTokens issuedToken])
    (turns 0 11 ++ turns 1 11 ++ turns 0 20 ++ List.replicate 20 (1, .go 1))
    (fun c => succeeded 0 c && succeeded 1 c) (by decide +kernel)
  rw [Bool.and_eq_true] at hp
  obtain ⟨p, x, h0⟩ := exists_answer_of_succeeded hp.1
  obtain ⟨q, y, h1⟩ := exists_answer_of_succeeded hp.2
  refine ⟨c, hc, fun hr => ?_⟩
  have := hr.once (i := 0) (j := 1) rfl rfl h0 h1
  cases this

/-- On such a run: the exchange, then a logout that catches the next session. -/
theorem refresh_revocable_logout : ∃ c : Run,
    Reach (fun c i => c.AtCommit
      (fun a _ => InOrder [.refreshTokens issuedToken, .logout 7] c.trace i a) i)
      (start {} signedInStore [.refreshTokens issuedToken, .logout 7]) c ∧
    succeeded 0 c = true ∧ succeeded 1 c = true ∧
      Revocable [.refreshTokens issuedToken, .logout 7] c := by
  obtain ⟨c, hc, hp⟩ := exists_reach
    (o := fun c i => c.atCommit
      (fun a _ => inOrder [.refreshTokens issuedToken, .logout 7] c.trace i a) i)
    (P := fun c i => c.AtCommit
      (fun a _ => InOrder [.refreshTokens issuedToken, .logout 7] c.trace i a) i)
    (fun c i h => Config.atCommit_of (fun _ _ => inOrder_of) h)
    (start {} signedInStore [.refreshTokens issuedToken, .logout 7]) (turns 0 31 ++ turns 1 10)
    (fun c => succeeded 0 c && succeeded 1 c) (by decide +kernel)
  rw [Bool.and_eq_true] at hp
  exact ⟨c, hc, hp.1, hp.2, refresh_revocable hc⟩

/-- **Accounts only evolve.** In every interleaving, between any commits and up to the end, a session
that is revoked or deleted stays so, a deleted user does not come back, and nobody changes organisation,
account or e-mail. -/
theorem reach_evolves {P : Run → ℕ → Prop} (h : Reach P (start d s₀ requests) c) :
    Evolves s₀ c.db ∧ ∀ (p i : ℕ) (a b : Db), c.trace[p]? = some (i, .commit a b) →
      Evolves b c.db ∧ ∀ (q j : ℕ) (a' b' : Db), p < q →
        c.trace[q]? = some (j, .commit a' b') → Evolves b a' := by
  have hs := served h
  exact ⟨hs.rel, fun p i a b hp => ⟨hs.toEnd hp, fun q j a' b' hpq hq => hs.since hp hq hpq⟩⟩

/-- Of the exchange and the logout that follows it. -/
theorem reach_evolves_logout : ∃ c : Run, succeeded 0 c = true ∧ succeeded 1 c = true ∧
    Evolves signedInStore c.db := by
  obtain ⟨c, hc, hp⟩ := exists_reach_anywhere
    (start {} signedInStore [.refreshTokens issuedToken, .logout 7]) (turns 0 31 ++ turns 1 10)
    (fun c => succeeded 0 c && succeeded 1 c) (by decide +kernel)
  rw [Bool.and_eq_true] at hp
  exact ⟨c, hp.1, hp.2, (reach_evolves hc).1⟩

end PatronLoyalty.Accounts
