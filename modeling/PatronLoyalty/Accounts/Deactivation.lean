import PatronLoyalty.Accounts.BackupCodes
import PatronLoyalty.Txn.Under

/-!
# Taking access away

`deactivate` sets the status to `inactive`. Each of the four ways in, the login, its second factor, the
exchange of a refresh token and the guard of the API, asks for `suspended` alone. `delete` takes the row
away, which all four look for; but the guard may find the user in the cache, where a request that has read
him before may still put him.

Headline: **`access_ends`**. Once a user's access has been taken away none of the four lets him in, but for
a cache entry that was there then, as long as he is deleted, not deactivated, and no request puts a user
who is gone into the cache.
-/

namespace PatronLoyalty.Accounts

open Txn
open Loyalty (Id)

variable {d : Deployment} {requests : List Request} {s₀ a b : Db} {c : Run} {userId : Id}

/-! ## The statement -/

def Answer.Admits : Answer → Id → Prop
  | .login (.requiresTwoFactor _ _ profile _), userId => profile.id = userId
  | .login (.signedIn profile _ _), userId => profile.id = userId
  | .refreshed id _ _, userId => id = userId
  | .authenticated member, userId => member.userId = userId
  | _, _ => False

/-- The request takes the user's access away. -/
def Request.Bars : Request → Id → Prop
  | .deactivate _ id _, userId => id = userId
  | .delete _ id _, userId => id = userId
  | _, _ => False

def Barred (s : Db) (userId : Id) : Prop :=
  ∃ u, s.get .user userId = some u ∧ (u.status = .inactive ∨ u.deleted = true)

/-- He is activated between these positions. -/
def Reactivated (requests : List Request) (es : List (ℕ × Line)) (q p : ℕ) (userId : Id) : Prop :=
  ∃ (m j : ℕ) (a b : Db) (orgId actorUserId : Id), q < m ∧ m < p ∧
    es[m]? = some (j, .commit a b) ∧ requests[j]? = some (.activate orgId userId actorUserId)

/-- The cache had an entry of the user when request `j` took his access away, and it has not expired at a
time that the history tells. -/
def StillCached (es : List (ℕ × Line)) (j : ℕ) (userId : Id) (h : List Line) : Prop :=
  ∃ (m : ℕ) (a b : Db) (e : CacheEntry) (now : ℕ), es[m]? = some (j, .commit a b) ∧
    Barred b userId ∧ b.get .authUser userId = some e ∧ e.user.isSome = true ∧
      Entry.emit (.clock now) ∈ h ∧ now < e.expiresAt

/-- **Access ends**: a request that is made after the user has been deactivated or deleted, and before he
is activated, does not let him in, but with an access token as long as a cache entry lasts. -/
def AccessEnds (requests : List Request) (c : Run) : Prop :=
  ∀ (q j : ℕ) (r : Request) (userId : Id) (x : Answer), requests[j]? = some r → r.Bars userId →
    c.trace[q]? = some (j, .answer (.ok x)) → ∀ (p i : ℕ) (y : Answer),
      linesOf i (c.trace.take q) = [] → c.trace[p]? = some (i, .answer (.ok y)) → y.Admits userId →
        Reactivated requests c.trace q p userId ∨
          (∃ user, y = .authenticated user) ∧
            StillCached c.trace j userId (linesOf i (c.trace.take p))

/-- **The condition on a commit.** -/
structure BarsInOrder (requests : List Request) (es : List (ℕ × Line)) (i : ℕ) (a b : Db) : Prop where
  /-- It is not the update of a deactivation. -/
  deleted {orgId userId actorUserId : Id} :
    requests[i]? = some (.deactivate orgId userId actorUserId) → ¬ Made 3 (linesOf i es)
  /-- It puts nobody into the cache who is gone. -/
  uncached {userId : Id} {e : CacheEntry} : Gone a userId → b.get .authUser userId = some e →
    e.user.isSome = true → a.get .authUser userId = some e

/-! ## After a deletion -/

/-- The user is gone, and the cache has no entry of his but the one of the store `s₀`. -/
def Ended (s₀ : Db) (userId : Id) (s : Db) : Prop :=
  Gone s userId ∧ ∀ e, s.get .authUser userId = some e → e.user.isSome = true →
    s₀.get .authUser userId = some e

/-- The history has a time at which the entry of the store `s₀` has not expired. -/
def Lingers (s₀ : Db) (userId : Id) (h : List Line) : Prop :=
  ∃ e now, s₀.get .authUser userId = some e ∧ e.user.isSome = true ∧
    Entry.emit (.clock now) ∈ h ∧ now < e.expiresAt

theorem Ended.not_live {s s' : Db} {id : Id} {u : User} (h : Ended s userId s')
    (hu : Live s' .user id u) : id ≠ userId := by
  rintro rfl
  obtain ⟨v, hv, hd⟩ := h.1
  obtain rfl : v = u := Option.some.inj (hv.symm.trans hu.1)
  cases hd.symm.trans hu.2

section Sees

variable {s : Db}

theorem sees_usersWithEmail {emailNorm : String} :
    Sees (Ended s userId) (fun users : List Membership => ∀ m ∈ users, m.id ≠ userId)
      (usersWithEmail emailNorm) := by
  refine .readOrThrow fun s' users hs hf m hm => ?_
  obtain ⟨⟨id, u⟩, hu, hj⟩ := (mem_of_mapM hf).1 m hm
  obtain ⟨o, -, rfl⟩ := Option.map_eq_some_iff.mp hj
  exact hs.not_live (mem_seen.mp hu).1

theorem sees_findUser {id : Id} :
    Sees (Ended s userId) (fun o : Option User => o.isSome = true → id ≠ userId)
      (findById .user id anyRow) := by
  refine .read fun s' hs ho => ?_
  obtain ⟨u, hu⟩ := Option.isSome_iff_exists.mp ho
  exact hs.not_live (live_any.mp hu)

theorem sees_findMembership {id : Id} :
    Sees (Ended s userId) (fun o : Option Membership => ∀ m, o = some m → m.id ≠ userId)
      (findMembership id) := by
  refine .readOrThrow fun s' o hs hf m hm => ?_
  subst hm
  cases hu : (s'.get .user id).filter fun u => !u.deleted with
  | none =>
    rw [hu] at hf
    cases hf
  | some u =>
    rw [hu] at hf
    obtain ⟨m', hj, hm'⟩ := Option.map_eq_some_iff.mp hf
    obtain ⟨o, -, rfl⟩ := Option.map_eq_some_iff.mp hj
    cases hm'
    obtain ⟨hget, hlive⟩ := Option.filter_eq_some_iff.mp hu
    exact hs.not_live ⟨hget, (Bool.not_eq_true' _).mp hlive⟩

theorem sees_loadAuthUser :
    Sees (Ended s userId) (fun o : Option CachedAuthUser => o = none) (loadAuthUser userId) := by
  refine .bind sees_findUser fun o ho => ?_
  cases o with
  | none => exact .pure rfl
  | some u => exact absurd rfl (ho rfl)

theorem sees_cached {now : ℕ} :
    Sees (Ended s userId) (fun o : Option CacheEntry => ∀ e, o = some e → e.user.isSome = true →
      s.get .authUser userId = some e ∧ now < e.expiresAt)
      (findById .authUser userId fun (e : CacheEntry) => decide (now < e.expiresAt)) := by
  refine .read fun s' hs e he hsome => ?_
  obtain ⟨hget, hp⟩ := Option.filter_eq_some_iff.mp he
  simp only [Bool.and_eq_true, decide_eq_true_eq] at hp
  exact ⟨hs.2 e hget hsome, hp.2⟩

end Sees

/-! ## The ways in -/

section Requests

variable {s : Db} {Φ : List Line → Prop}

/-- A part of a request whose result does not matter. -/
abbrev Finds {β : Type} (s : Db) (userId : Id) (Φ : List Line → Prop) (c : ACall β)
    (Ψ : β → List Line → Prop) : Prop := Under (Ended s userId) Φ c Ψ

theorem finds_any {β : Type} {c : ACall β} : Finds s userId Φ c fun _ _ => True :=
  (Under.lasts (P := fun _ => True) fun _ _ _ => trivial).pre fun _ _ => trivial

theorem finds_signIn {platformAdmin : Bool} {password : String} {account : Option (Id × Account)}
    {users : List Membership} {m : Membership} (hm : m.id ≠ userId) :
    Finds s userId Φ (signIn d platformAdmin password account users m)
      fun r _ => ¬ (Answer.login r).Admits userId := by
  refine .bind finds_any fun _ => .bind finds_any fun _ => .bind finds_any fun role =>
    .bind finds_any fun secondFactor => ?_
  cases secondFactor with
  | true => exact .bind finds_any fun _ => .pure fun _ _ hadmits => hm hadmits
  | false =>
    exact .bind finds_any fun _ => .bind finds_any fun _ => .bind finds_any fun _ =>
      .bind finds_any fun _ => .pure fun _ _ hadmits => hm hadmits

/-- **A login** opens a membership that is there. -/
theorem finds_login {email password : String} {orgId : Option Id} {platformAdmin : Bool} :
    Finds s userId Φ (login d email password orgId platformAdmin)
      fun r _ => ¬ (Answer.login r).Admits userId := by
  refine .ite (fun _ => .throw) fun _ => .retry (.bind finds_any fun account => .bind
    (M := fun users _ => ∀ m ∈ users, m.id ≠ userId) (.tx sees_usersWithEmail fun _ _ _ _ _ hu => hu)
      fun users => .ite (fun _ => .throw) fun _ => .ite (fun _ => .throw) fun _ => ?_)
  have hpool : ∀ m ∈ finalPool d platformAdmin (poolOf (authenticatedAccount account password)
      password users), m ∈ users := by
    intro m hm
    unfold finalPool at hm
    split at hm
    · exact (List.mem_filter.mp (List.mem_filter.mp hm).1).1
    · exact (List.mem_filter.mp hm).1
  generalize finalPool d platformAdmin _ = pool at hpool
  refine .fact fun hu => ?_
  have hsign : ∀ m ∈ pool, Finds s userId (fun _ => True)
      (signIn d platformAdmin password account users m) fun r _ => ¬ (Answer.login r).Admits userId :=
    fun m hm => finds_signIn (hu m (hpool m hm))
  have hchosen : ∀ orgId : Id, Finds s userId (fun _ => True)
      ((pool.find? fun u => u.user.orgId == orgId).elim
        (throw (.unauthorized "The selected organization is not available for this account."))
        (signIn d platformAdmin password account users))
      fun r _ => ¬ (Answer.login r).Admits userId := by
    intro orgId
    cases hf : pool.find? fun u => u.user.orgId == orgId with
    | none => exact .throw
    | some m => exact hsign m (List.mem_of_find?_eq_some hf)
  clear hpool
  rcases pool with _ | ⟨m, _ | ⟨m', pool⟩⟩
  · exact .throw
  · cases orgId with
    | none => exact hsign m List.mem_cons_self
    | some orgId =>
      convert hchosen orgId using 1
      cases h : [m].find? fun u => u.user.orgId == orgId <;> simp [h]
  · cases orgId with
    | none => exact .pure fun _ _ ho => by cases ho
    | some orgId =>
      convert hchosen orgId using 1
      cases h : (m :: m' :: pool).find? fun u => u.user.orgId == orgId <;> simp [h]

/-- **The second factor** is for a membership that is there. -/
theorem finds_completeTwoFactorLogin {token : Jwt} {code : String} :
    Finds s userId Φ (completeTwoFactorLogin d token code)
      fun r _ => ¬ (Answer.login r).Admits userId := by
  refine .retry (.bind finds_any fun now => ?_)
  cases verify d.jwtSecret token now with
  | none => exact .throw
  | some decoded =>
    dsimp only
    split
    · exact .throw
    · refine .bind (M := fun o _ => ∀ m, o = some m → m.id ≠ userId)
        (.tx sees_findMembership fun _ _ _ _ _ hm => hm) fun o => ?_
      cases o with
      | none => exact .throw
      | some m =>
        refine .fact fun hm => .bind finds_any fun _ => .bind finds_any fun _ => .bind finds_any
          fun verified => ?_
        split
        · exact .throw
        · exact .bind finds_any fun _ => .bind finds_any fun _ => .bind finds_any fun _ =>
            .bind finds_any fun _ => .pure fun _ _ hadmits => hm m rfl hadmits

/-- **An exchange** is for a user who is there. -/
theorem finds_refreshTokens {token : Jwt} :
    Finds s userId Φ (refreshTokens d token)
      fun (r : Id × TokenPair × Bool) _ => r.1 ≠ userId := by
  refine .handle (.bind finds_any fun now => ?_) fun e' => by cases e' <;> exact .throw
  cases verify d.refreshSecret token now with
  | none => exact .throw
  | some payload =>
    refine .bind (M := fun o _ => o.isSome = true → payload.sub ≠ userId)
      (.tx sees_findUser fun _ _ _ _ _ hu => hu) fun o => ?_
    cases o with
    | none => exact .throw
    | some user =>
      refine .fact fun hsub => ?_
      dsimp only
      split
      · exact .throw
      · refine .bind finds_any fun now => .bind finds_any fun sessions => ?_
        cases findMatchingSession sessions token with
        | none => exact .throw
        | some x =>
          exact .bind finds_any fun _ => .bind finds_any fun _ => .bind finds_any fun _ =>
            .bind finds_any fun _ => .pure fun _ _ => hsub rfl

theorem finds_readClock (hΦ : ∀ h now, Φ h → Φ (h ++ [.emit (.clock now)])) :
    Finds s userId Φ readClock fun now h => Φ h ∧ Entry.emit (.clock now) ∈ h :=
  .bind (M := fun _ => Φ) (.input fun _ _ hh => hh) fun now => .bind
    (M := fun _ h => Φ h ∧ Entry.emit (.clock now) ∈ h)
      (.fire fun h hh => ⟨hΦ h now hh, List.mem_append_right _ (List.mem_singleton.mpr rfl)⟩)
      fun _ => .pure fun _ hh => hh

/-- **The guard** finds the user in the cache alone. -/
theorem finds_resolveUser : Finds s userId Φ (resolveUser d userId)
    fun o h => o.isSome = true → Lingers s userId h := by
  have hget : Finds s userId (fun _ => True) (cachedUser d userId)
      fun o h => o.isSome = true → Lingers s userId h := by
    refine .ite (fun _ => .pure fun _ _ ho => by cases ho) fun _ => .handle ?_
      fun _ => .pure fun _ _ ho => by cases ho
    refine .bind (finds_readClock fun _ _ hh => hh) fun now => .bind
      (M := fun o h => ∀ e : CacheEntry, o = some e → e.user.isSome = true → Lingers s userId h)
      (.tx sees_cached fun o h a a' hh ho e he hsome => ?_) fun o => .pure fun h hh ho => ?_
    · exact ⟨e, now, (ho e he hsome).1, hsome, List.mem_append_left _ hh.2, (ho e he hsome).2⟩
    · cases o with
      | none => cases ho
      | some e => exact hh e rfl ho
  refine .bind (hget.pre fun _ _ => trivial) fun o => ?_
  cases o with
  | some u => exact .pure fun _ hh _ => hh rfl
  | none =>
    refine .bind (M := fun o _ => o = none)
      (.retry (.tx sees_loadAuthUser fun _ _ _ _ _ ho => ho)) fun o => ?_
    cases o with
    | none => exact .pure fun _ _ ho => by cases ho
    | some u => exact .fact fun hu => by cases hu

theorem lingers_snoc {h : List Line} {l : Line} (hh : Lingers s userId h) :
    Lingers s userId (h ++ [l]) := by
  obtain ⟨e, now, he, hsome, hm, hlt⟩ := hh
  exact ⟨e, now, he, hsome, List.mem_append_left _ hm, hlt⟩

theorem finds_validate {payload : JwtPayload} : Finds s userId Φ (validate d payload)
    fun (u : AuthenticatedUser) h => u.userId = userId → Lingers s userId h := by
  by_cases hsub : payload.sub = userId
  · subst hsub
    refine .bind finds_resolveUser fun o => ?_
    cases o with
    | none => exact .throw
    | some u =>
      have hlasts : ∀ {β : Type} {c : ACall β}, Finds s payload.sub (Lingers s payload.sub) c
          fun _ => Lingers s payload.sub := Under.lasts fun _ _ hh => lingers_snoc hh
      refine Under.pre (P := Lingers s payload.sub) (.bind hlasts fun _ => ?_) fun _ hh => hh rfl
      split
      · refine .bind hlasts fun _ => .ite (fun _ => .throw) fun _ => .ite (fun _ => .throw) fun _ =>
          .bind hlasts fun _ => .ite (fun _ => .throw) fun _ => .pure fun _ hh _ => hh
      · exact .pure fun _ hh _ => hh
  · refine .bind finds_any fun o => ?_
    cases o with
    | none => exact .throw
    | some u =>
      refine .bind finds_any fun _ => ?_
      split
      · refine .bind finds_any fun _ => .ite (fun _ => .throw) fun _ => .ite (fun _ => .throw) fun _ =>
          .bind finds_any fun _ => .ite (fun _ => .throw) fun _ => .pure fun _ _ hid => absurd hid hsub
      · exact .pure fun _ _ hid => absurd hid hsub

/-- **Every request**, when the user is gone. -/
theorem finds_run (r : Request) : Finds s userId (fun _ => True) (r.run d) fun x h =>
    x.Admits userId → (∃ user, x = .authenticated user) ∧ Lingers s userId h := by
  cases r with
  | login email password orgId platformAdmin =>
    exact .bind finds_login fun r => .pure fun _ hr ha => (hr ha).elim
  | completeTwoFactorLogin token code =>
    exact .bind finds_completeTwoFactorLogin fun r => .pure fun _ hr ha => (hr ha).elim
  | refreshTokens token => exact .bind finds_refreshTokens fun r => .pure fun _ hr ha => (hr ha).elim
  | authenticate token =>
    refine .bind (M := fun (u : AuthenticatedUser) h => u.userId = userId → Lingers s userId h)
      (.bind finds_any fun now => ?_) fun u => .pure fun _ hu ha => ⟨⟨u, rfl⟩, hu ha⟩
    cases verify d.jwtSecret token now with
    | none => exact .throw
    | some payload => exact finds_validate
  | _ => exact .bind finds_any fun _ => .pure fun _ _ ha => ha.elim

end Requests

/-! ## Runs -/

/-- **Access ends** with a deletion, as long as no request puts a user who is gone into the cache. -/
theorem access_ends
    (h : Reach (fun c i => c.AtCommit (BarsInOrder requests c.trace i) i) (start d s₀ requests) c) :
    AccessEnds requests c := by
  have hs := served h
  have hk : ∀ {c : Run} {p i a b}, Reach (fun c i => c.AtCommit (BarsInOrder requests c.trace i) i)
      (start d s₀ requests) c → c.trace[p]? = some (i, .commit a b) →
        BarsInOrder requests (c.trace.take p) i a b := fun h hp =>
    reach_atCommit (K := BarsInOrder requests) (fun _ _ hc => hc) h hp
  intro q j r userId x hr hbars hq p i y hnew hp hadmits
  obtain ⟨r', hr', hans⟩ := hs.answer hq
  obtain rfl : r' = r := Option.some.inj (hr'.symm.trans hr)
  cases r' with
  | deactivate orgId id actorUserId =>
    -- Nobody is deactivated.
    obtain ⟨n, a, b, -, hn, hm⟩ := exists_commit_take hans
    exact absurd hm ((hk h hn).deleted hr)
  | delete orgId id actorUserId =>
    obtain rfl : id = userId := hbars
    obtain ⟨a0, b0, hmem, hgone⟩ := hans
    obtain ⟨m, hmq, hm⟩ := exists_getElem?_of_mem_linesOf hmem
    right
    -- Every step of the later request finds the user gone.
    have hA : ∀ d' n, Reach (fun c i => c.AtCommit (BarsInOrder requests c.trace i) i)
        (start d s₀ requests) d' → d'.trace = c.trace.take n → linesOf i (c.trace.take n) ≠ [] →
          Ended b0 id d'.db := by
      intro d' n hd' hn hne
      have hqn : q < n := by
        by_contra hle
        refine hne (List.eq_nil_of_subset_nil ?_)
        rw [← hnew, ← Nat.min_eq_left (show n ≤ q by omega), ← List.take_take]
        exact fun e he => mem_linesOf.mpr (List.mem_of_mem_take (mem_linesOf.mp he))
      have hm' : d'.trace[m]? = some (j, .commit a0 b0) := by
        rw [hn, List.getElem?_take_of_lt (by omega)]
        exact hm
      have hs' := served hd'
      refine hs'.linear.carry_after hm' (fun k l x y hlt hkl hx => ?_) ⟨hgone, fun e he _ => he⟩
      obtain ⟨-, -, hxy, -⟩ := hs'.commit hkl
      exact ⟨gone_keeps id x y hxy hx.1, fun e he hsome =>
        hx.2 e ((hk hd' hkl).uncached hx.1 he hsome) hsome⟩
    have hlt := reach_owned h (List.mem_of_getElem? hp)
    rw [List.length_map] at hlt
    have hcall : (requests.map (Request.run d))[i]? = some ((requests[i]).run d) := by simp [hlt]
    obtain ⟨hauth, e, now, he, hsome, hclock, hnow⟩ :=
      reach_under hcall (finds_run _) h hA hp hadmits
    obtain ⟨u, hu, hd⟩ := hgone
    exact ⟨hauth, m, a0, b0, e, now, hm, ⟨u, hu, Or.inr hd⟩, he, hsome, hclock, hnow⟩
  | _ => exact hbars.elim

/-- An organisation with an owner and a member. -/
def staffedStore : Db where
  tables
    | .organization => table [(1, { slug := "acme" })]
    | .user => table [(7, { orgId := 1, email := "ada@example.org", passwordHash := ⟨"Correct1"⟩
                            status := .active, emailVerified := true }),
        (8, { orgId := 1, email := "bob@example.org", passwordHash := ⟨"Correct2"⟩
              status := .active, emailVerified := true })]
    | .role => table [(1, { orgId := 1, name := "owner" })]
    | .roleAssignment => table [(1, { userId := 8, roleId := 1 })]
    | _ => ∅
  log := []

def accessToken : Jwt :=
  sign ({} : Deployment).jwtSecret (sessionPayload 7 1 "acme" "ada@example.org") 900 0

/-- The condition, computed. -/
def barsInOrder (requests : List Request) (es : List (ℕ × Line)) (i : ℕ) (a b : Db) : Bool :=
  (match requests[i]? with
    | some (.deactivate _ _ _) => commits (linesOf i es) != 3
    | _ => true) &&
  (b.rows .authUser fun _ _ => true).all fun x =>
    !((a.get .user x.1).any fun (u : User) => u.deleted) || x.2.user.isNone ||
      a.get .authUser x.1 == some x.2

theorem barsInOrder_of {es : List (ℕ × Line)} {i : ℕ} (h : barsInOrder requests es i a b = true) :
    BarsInOrder requests es i a b where
  deleted hi hm := by
    have h3 := (Bool.and_eq_true_iff.mp h).1
    rw [hi, show commits (linesOf i es) = 3 from hm] at h3
    cases h3
  uncached {id e} hgone he hsome := by
    obtain ⟨u, hu, hd⟩ := hgone
    have hx := List.all_eq_true.mp (Bool.and_eq_true_iff.mp h).2 (id, e)
      (Rel.mem_rows.mpr ⟨he, rfl⟩)
    simp only [hu, Option.any_some, hd, Bool.not_true, Bool.false_or, Bool.or_eq_true,
      Option.isNone_iff_eq_none, beq_iff_eq] at hx
    rcases hx with hnone | heq
    · rw [hnone] at hsome
      cases hsome
    · exact heq

/-- Request `i` has been refused. -/
def refused (i : ℕ) (c : Run) : Bool := c.trace.any fun
  | (j, Entry.answer (.error _)) => j == i
  | _ => false

/-- Request `0` has succeeded at position `q`, before request `1` was made, which has signed the user in at
position `p`. -/
def signedInAfter (q p : ℕ) (userId : Id) (c : Run) : Bool :=
  (linesOf 1 (c.trace.take q)).isEmpty && (c.trace[q]?.any fun
    | (0, Entry.answer (.ok _)) => true
    | _ => false) && c.trace[p]?.any fun
    | (1, Entry.answer (.ok (.login (.signedIn profile _ _)))) => profile.id == userId
    | _ => false

/-- **A member who has been deactivated** signs in. -/
theorem deactivated_signs_in : ∃ c : Run, Reach Always (start {} staffedStore
    [.deactivate 1 7 8, .login "ada@example.org" "Correct1" (some 1) false]) c ∧
      ¬ AccessEnds [.deactivate 1 7 8, .login "ada@example.org" "Correct1" (some 1) false] c := by
  obtain ⟨c, hc, hp⟩ := exists_reach_anywhere
    (start {} staffedStore
      [.deactivate 1 7 8, .login "ada@example.org" "Correct1" (some 1) false])
    (turns 0 19 ++ turns 1 28) (signedInAfter 6 17 7) (by decide +kernel)
  refine ⟨c, hc, fun h => ?_⟩
  simp only [signedInAfter, Bool.and_eq_true, List.isEmpty_iff, Option.any_eq_true] at hp
  obtain ⟨⟨hnew, x, hq, hx⟩, y, hp, hy⟩ := hp
  split at hx
  · rename_i x
    split at hy
    · rename_i profile organization tokens
      rcases h 6 0 _ 7 x rfl rfl hq 17 1 _ hnew hp (beq_iff_eq.mp hy) with hre | ⟨⟨user, hu⟩, -⟩
      · obtain ⟨m, j, a, b, orgId, actorUserId, -, -, -, hj⟩ := hre
        rcases j with _ | _ | j <;> cases hj
      · cases hu
    · cases hy
  · cases hx

theorem access_ends_deleted : ∃ c : Run,
    Reach (fun c i => c.AtCommit (BarsInOrder
      [.delete 1 7 8, .authenticate accessToken, .authenticate accessToken] c.trace i) i)
      (start {} staffedStore
        [.delete 1 7 8, .authenticate accessToken, .authenticate accessToken]) c ∧
    succeeded 0 c = true ∧ succeeded 1 c = true ∧ refused 2 c = true ∧
      AccessEnds [.delete 1 7 8, .authenticate accessToken, .authenticate accessToken] c := by
  obtain ⟨c, hc, hp⟩ := exists_reach
    (o := fun c i => c.atCommit (barsInOrder
      [.delete 1 7 8, .authenticate accessToken, .authenticate accessToken] c.trace i) i)
    (P := fun c i => c.AtCommit (BarsInOrder
      [.delete 1 7 8, .authenticate accessToken, .authenticate accessToken] c.trace i) i)
    (fun c i h => Config.atCommit_of (fun _ _ => barsInOrder_of) h)
    (start {} staffedStore [.delete 1 7 8, .authenticate accessToken, .authenticate accessToken])
    (turns 1 18 ++ turns 0 26 ++ turns 2 12)
    (fun c => succeeded 0 c && succeeded 1 c && refused 2 c) (by decide +kernel)
  simp only [Bool.and_eq_true] at hp
  exact ⟨c, hc, hp.1.1, hp.1.2, hp.2, access_ends hc⟩

end PatronLoyalty.Accounts
