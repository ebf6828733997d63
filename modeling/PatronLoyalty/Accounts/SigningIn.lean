import PatronLoyalty.Accounts.Statements

/-!
# What a login comes to

`LoginStep K password a b`: what a login with the password may do to users, accounts and organisations. It
dates last logins, and it may give the accounts of `K` the hash of the password. `Opened d s email password x`:
the answer `x` is for members of the store `s` whose credentials the password meets.

Headline: **`keeps_login`**. A login takes such steps, and its answer is for members that its last attempt
has found.
-/

namespace PatronLoyalty.Accounts

open Txn
open Txn.Rel (Wrote)
open Loyalty (Id)

variable {s s' a b c : Db} {d : Deployment} {email emailNorm password : String} {m : Membership}
  {K : Id → Prop} {id : Id} {u : User} {β : Type} {users : List Membership} {r : Account}
  {account : Option (Id × Account)} {pa : Bool}

/-! ## Members -/

def Member (s : Db) (m : Membership) : Prop :=
  Live s .user m.id m.user ∧ joinMembership s (m.id, m.user) = some m

theorem member_of_join (hu : Live s .user id u)
    (hj : joinMembership s (id, u) = some m) : Member s m ∧ m.id = id ∧ m.user = u := by
  obtain ⟨o, ho, rfl⟩ := Option.map_eq_some_iff.mp hj
  exact ⟨⟨hu, hj⟩, rfl, rfl⟩

theorem Member.ext {m' : Membership} (h : Member s m) (h' : Member s m') (hid : m.id = m'.id) :
    m = m' := by
  have hu : m.user = m'.user := Option.some.inj (h.1.1.symm.trans (hid ▸ h'.1.1))
  have hj := h.2
  rw [hid, hu, h'.2] at hj
  exact (Option.some.inj hj).symm

/-- The results of a `mapM` are those of the elements. -/
theorem mem_of_mapM {α : Type} {f : α → Option β} {xs : List α} {ys : List β}
    (h : xs.mapM f = some ys) :
    (∀ y ∈ ys, ∃ x ∈ xs, f x = some y) ∧ ∀ x ∈ xs, ∃ y ∈ ys, f x = some y := by
  induction xs generalizing ys with
  | nil =>
    cases h
    simp
  | cons x xs ih =>
    rw [List.mapM_cons] at h
    obtain ⟨y, hy, h⟩ := Option.bind_eq_some_iff.mp h
    obtain ⟨ys', hys, h⟩ := Option.bind_eq_some_iff.mp h
    cases h
    obtain ⟨h1, h2⟩ := ih hys
    refine ⟨fun z hz => ?_, fun z hz => ?_⟩
    · rcases List.mem_cons.mp hz with rfl | hz
      · exact ⟨x, List.mem_cons_self, hy⟩
      · obtain ⟨w, hw, hf⟩ := h1 z hz
        exact ⟨w, List.mem_cons_of_mem x hw, hf⟩
    · rcases List.mem_cons.mp hz with rfl | hz
      · exact ⟨y, List.mem_cons_self, hy⟩
      · obtain ⟨w, hw, hf⟩ := h2 z hz
        exact ⟨w, List.mem_cons_of_mem y hw, hf⟩

theorem exists_mapM {α : Type} {f : α → Option β} {xs : List α}
    (h : ∀ x ∈ xs, ∃ y, f x = some y) : ∃ ys, xs.mapM f = some ys := by
  induction xs with
  | nil => exact ⟨[], rfl⟩
  | cons x xs ih =>
    obtain ⟨y, hy⟩ := h x List.mem_cons_self
    obtain ⟨ys, hys⟩ := ih fun z hz => h z (List.mem_cons_of_mem x hz)
    exact ⟨y :: ys, by simp [List.mapM_cons, hy, hys]⟩

theorem gives_usersWithEmail (h : (usersWithEmail emailNorm).gives s users s') :
    s' = s ∧ ∀ m ∈ users, Member s m ∧ m.user.email.toLower = emailNorm := by
  obtain ⟨hf, hs⟩ := Tx.gives_readOrThrow.mp h
  refine ⟨hs, fun m hm => ?_⟩
  obtain ⟨⟨id, u⟩, hu, hj⟩ := (mem_of_mapM hf).1 m hm
  obtain ⟨hl, he⟩ := mem_seen.mp hu
  obtain ⟨hM, -, rfl⟩ := member_of_join hl hj
  exact ⟨hM, by simpa using he⟩

/-! ## Steps of a login -/

def User.undated (u : User) : User := { u with lastLoginAt := none }

/-- Whatever the last login does not matter to. -/
theorem undated_field (f : User → β) (hf : ∀ u, f u.undated = f u) {u' : User}
    (h : u'.undated = u.undated) : f u' = f u := by
  rw [← hf, h, hf]

/-- A user that is there afterwards was there before. -/
theorem live_of_undated (h : (b.get .user id).map User.undated = (a.get .user id).map User.undated)
    (hu : Live b .user id u) : ∃ u', Live a .user id u' ∧ u'.undated = u.undated := by
  rw [hu.1] at h
  obtain ⟨u', hg, hu'⟩ := Option.map_eq_some_iff.mp h.symm
  exact ⟨u', ⟨hg, (undated_field User.deleted (fun _ => rfl) hu').trans hu.2⟩, hu'⟩

/-- **What a login may change.** -/
structure LoginStep (K : Id → Prop) (password : String) (a b : Db) : Prop where
  user (id : Id) : (b.get .user id).map User.undated = (a.get .user id).map User.undated
  organization (id : Id) : b.get .organization id = a.get .organization id
  account (id : Id) : b.get .account id = a.get .account id ∨ K id ∧
    b.get .account id =
      (a.get .account id).map fun (r : Account) => { r with passwordHash := ⟨password⟩ }

theorem LoginStep.refl (a : Db) : LoginStep K password a a :=
  ⟨fun _ => rfl, fun _ => rfl, fun _ => Or.inl rfl⟩

theorem LoginStep.trans (h : LoginStep K password a b) (h' : LoginStep K password b c) :
    LoginStep K password a c where
  user id := (h'.user id).trans (h.user id)
  organization id := (h'.organization id).trans (h.organization id)
  account id := by
    rcases h'.account id with h2 | ⟨hK, h2⟩
    · rw [h2]
      exact h.account id
    · rw [h2]
      rcases h.account id with h1 | ⟨-, h1⟩
      · rw [h1]
        exact Or.inr ⟨hK, rfl⟩
      · rw [h1]
        exact Or.inr ⟨hK, by simp [Option.map_map, Function.comp_def]⟩

theorem LoginStep.mono {K' : Id → Prop} (h : LoginStep K password a b) (hK : ∀ id, K id → K' id) :
    LoginStep K' password a b :=
  ⟨h.user, h.organization, fun id => (h.account id).imp_right fun hid => ⟨hK id hid.1, hid.2⟩⟩

theorem LoginStep.walk (h : Relation.ReflTransGen (LoginStep K password) a b) :
    LoginStep K password a b := by
  induction h with
  | refl => exact .refl a
  | tail _ hs ih => exact ih.trans hs

theorem loginStep_set {k : Kind} {r : Row k} (hu : k ≠ .user) (ho : k ≠ .organization)
    (ha : k ≠ .account) : LoginStep K password a (a.set k id r) where
  user i := by rw [Rel.get_set_ne (by simp [Ne.symm hu])]
  organization i := by rw [Rel.get_set_ne (by simp [Ne.symm ho])]
  account i := by
    rw [Rel.get_set_ne (by simp [Ne.symm ha])]
    exact Or.inl rfl

theorem loginStep_user {u' : User} (hu : a.get .user id = some u)
    (h : u'.undated = u.undated) : LoginStep K password a (a.set .user id u') where
  user i := by
    by_cases hi : i = id
    · subst hi
      rw [Rel.get_set_self, hu]
      exact congrArg some h
    · rw [Rel.get_set_ne (by simp [hi])]
  organization i := by rw [Rel.get_set_ne (by simp)]
  account i := by
    rw [Rel.get_set_ne (by simp)]
    exact Or.inl rfl

theorem loginStep_account (hr : a.get .account id = some r) (hK : K id) :
    LoginStep K password a (a.set .account id { r with passwordHash := ⟨password⟩ }) where
  user i := by rw [Rel.get_set_ne (by simp)]
  organization i := by rw [Rel.get_set_ne (by simp)]
  account i := by
    by_cases hi : i = id
    · subst hi
      rw [Rel.get_set_self, hr]
      exact Or.inr ⟨hK, rfl⟩
    · rw [Rel.get_set_ne (by simp [hi])]
      exact Or.inl rfl

/-- **The accounts that a login may give its password to**: of the e-mail, when a member with the e-mail
has the password. -/
def Syncs (s : Db) (emailNorm password : String) (id : Id) : Prop :=
  (∃ r, s.get .account id = some r ∧ r.email = emailNorm) ∧
    ∃ i u, Live s .user i u ∧ u.email.toLower = emailNorm ∧ u.passwordHash = ⟨password⟩

theorem LoginStep.account_before (h : LoginStep K password a b)
    (hr : b.get .account id = some r) : ∃ r', a.get .account id = some r' ∧ r'.email = r.email := by
  rcases h.account id with he | ⟨-, he⟩
  · exact ⟨r, he ▸ hr, rfl⟩
  · rw [hr] at he
    obtain ⟨r', hr', rfl⟩ := Option.map_eq_some_iff.mp he.symm
    exact ⟨r', hr', rfl⟩

/-- What a later attempt may give its password to, an earlier might. -/
theorem LoginStep.syncs (h : LoginStep K password a b) {pw : String}
    (hb : Syncs b emailNorm pw id) : Syncs a emailNorm pw id := by
  obtain ⟨⟨r, hr, hre⟩, i, u, hu, hue, hp⟩ := hb
  obtain ⟨r', hr', he⟩ := h.account_before hr
  obtain ⟨u', hu', hun⟩ := live_of_undated (h.user i) hu
  exact ⟨⟨r', hr', he.trans hre⟩, i, u', hu',
    (undated_field (fun u => u.email.toLower) (fun _ => rfl) hun).trans hue,
    (undated_field User.passwordHash (fun _ => rfl) hun).trans hp⟩

/-! ## Answers -/

def LoginResult.tokens : LoginResult → List Jwt
  | .requiresOrgSelection _ => []
  | .requiresTwoFactor _ token _ _ => [token]
  | .signedIn _ _ tokens => [tokens.accessToken, tokens.refreshToken]

def LoginResult.organizations : LoginResult → List OrganizationOption
  | .requiresOrgSelection organizations => organizations
  | .requiresTwoFactor _ _ _ organization => [organization]
  | .signedIn _ organization _ => [organization]

/-- The member an answer is for, once he has been chosen. -/
def LoginResult.user : LoginResult → Option Id
  | .requiresOrgSelection _ => none
  | .requiresTwoFactor _ _ user _ => some user.id
  | .signedIn user _ _ => some user.id

/-- The member may sign in, as far as his status and his organisation's go. -/
def Admitted (d : Deployment) (s : Db) (userId : Id) : Prop :=
  ∃ m, Member s m ∧ m.id = userId ∧ m.checkEmailVerified d = .ok () ∧ m.checkStatus = .ok ()

/-- The password meets the credentials of the member: the account of the e-mail, or his own. -/
def Meets (s : Db) (emailNorm password : String) (m : Membership) : Prop :=
  m.user.email.toLower = emailNorm ∧
    ((∃ id r, s.get .account id = some r ∧ r.email = emailNorm ∧
      r.passwordHash.accepts password = true) ∨ m.user.passwordHash.accepts password = true)

/-- **What a login answers** is for members that meet the password. -/
structure Opened (d : Deployment) (s : Db) (emailNorm password : String) (x : LoginResult) :
    Prop where
  tokens {t : Jwt} : t ∈ x.tokens → Admitted d s t.payload.sub
  organizations {o : OrganizationOption} : o ∈ x.organizations →
    ∃ m, Member s m ∧ Meets s emailNorm password m ∧ o = m.option ∧ ∀ id ∈ x.user, id = m.id

theorem accepts_iff {h : PasswordHash} : h.accepts password = true ↔ h = ⟨password⟩ := by
  cases h
  simp only [PasswordHash.accepts, beq_iff_eq, PasswordHash.mk.injEq]
  exact eq_comm

/-! ## Parts that do not change what a login may not -/

section Walks

open Call (Walks)

variable {E : Db → Db → Prop}

theorem walks_readClock : Walks E readClock :=
  .bind .input fun now => .bind (.fire (.clock now)) fun _ => .pure now

theorem walks_roleName (userId : Id) : Walks E (roleName userId) :=
  .bind (.tx (e := .recordNotFound) (.bind (.findFirst _) fun o => by
    cases o with
    | none => exact .pure _
    | some r => exact .read _)) fun _ => .pure _

theorem confined_loadAdminTwoFactorMemberships {C : DbWrite → Bool} {e : Err} {G : Guarantee Db}
    (userId : Id) :
    Confined C e G E (loadAdminTwoFactorMemberships userId) :=
  .bind (.read _) fun o => by
    cases o with
    | none => exact .pure _
    | some u => exact .bind (.read _) fun _ => .pure _

theorem walks_requiresTwoFactor (pa : Bool) (m : Membership) :
    Walks E (requiresTwoFactor pa m) := by
  unfold requiresTwoFactor
  split
  · exact .bind (.tx (e := .recordNotFound) (confined_loadAdminTwoFactorMemberships m.id))
      fun _ => .pure _
  · exact .pure _

theorem walks_touchLastLogin (orgId userId now : ℕ) :
    Walks (LoginStep K password) (withBypassRls (touchLastLogin orgId userId now)) :=
  .tx (e := .recordNotFound) (confined_update fun r a b hl _ hw => by
    rw [hw.2.2.2]
    exact loginStep_user hl.1 rfl)

theorem confined_createSession {C : DbWrite → Bool} {e : Err} {G : Guarantee Db} {userId : Id}
    {tokenHash : Sha256 Jwt} {expiresAt : ℕ} (h : ∀ id a b, Wrote C Kind.session id none
      ({ userId, tokenHash, expiresAt } : SessionRow) a b → E a b) :
    Confined C e G E (createSession userId tokenHash expiresAt) :=
  .bind (.read _) fun o => by
    cases o with
    | none => exact .throw _
    | some u => exact confined_create h

theorem walks_issueTokens (m : Membership) : Walks (LoginStep K password) (issueTokens d m) :=
  .bind walks_readClock fun _ => .bind walks_readClock fun _ => .bind walks_readClock fun _ =>
    .bind (.tx (e := .recordNotFound) (confined_createSession fun id a b hw => by
      rw [hw.2.2.2]
      exact loginStep_set (by decide) (by decide) (by decide))) fun _ => .pure _

end Walks

/-! ## login -/

theorem gives_readClock {now : ℕ} : readClock.gives s (.ok now) s' ↔ s' = s := by
  simp only [readClock, Call.bind_eq, Call.gives_bind_ok, Call.gives_input]
  constructor
  · rintro ⟨_, _, rfl, _, _, ⟨-, rfl⟩, -, rfl⟩
    rfl
  · rintro rfl
    exact ⟨now, s', rfl, (), s', ⟨rfl, rfl⟩, rfl, rfl⟩

theorem gives_issueTokens {x : TokenPair} (h : (issueTokens d m).gives s (.ok x) s') :
    x.accessToken.payload.sub = m.id ∧ x.refreshToken.payload.sub = m.id := by
  obtain ⟨t1, s1, -, h⟩ := h.seq
  obtain ⟨t2, s2, -, h⟩ := h.seq
  obtain ⟨t3, s3, -, h⟩ := h.seq
  obtain ⟨id, s4, -, h⟩ := h.seq
  cases h.1
  exact ⟨rfl, rfl⟩

theorem mem_legacyValidUserIds {accountId : Option Id}
    (h : id ∈ legacyValidUserIds accountId password users) :
    ∃ u ∈ users, u.id = id ∧ u.user.passwordHash.accepts password = true := by
  obtain ⟨u, hu, rfl⟩ := List.mem_map.mp h
  rw [List.mem_filter, Bool.and_eq_true] at hu
  exact ⟨u, hu.1, rfl, hu.2.2⟩

theorem walks_syncLegacyHash
    (ha : ∀ id r, account = some (id, r) → s.get .account id = some r ∧ r.email = emailNorm)
    (hm : Member s m) (hu : ∀ u ∈ users, Member s u ∧ u.user.email.toLower = emailNorm) :
    Call.Walks (LoginStep (Syncs s emailNorm password) password)
      (syncLegacyHash password account users m) := by
  unfold syncLegacyHash
  cases account with
  | none => exact .pure _
  | some acc =>
    simp only
    split
    · rename_i hc
      rw [Bool.and_eq_true, List.contains_iff_mem] at hc
      obtain ⟨u, hmem, hid, hacc⟩ := mem_legacyValidUserIds hc.2
      obtain rfl := (hu u hmem).1.ext hm hid
      rw [accepts_iff] at hacc
      have hK : Syncs s emailNorm password acc.1 :=
        ⟨⟨acc.2, ha acc.1 acc.2 rfl⟩, u.id, u.user, hm.1, (hu u hmem).2, hacc⟩
      refine .bind (.tx (e := .recordNotFound) (confined_update fun r a b hl _ hw => ?_)) fun _ =>
        .pure _
      rw [hw.2.2.2, hacc]
      exact loginStep_account hl.1 hK
    · exact .pure _

/-- The member is chosen. -/
theorem keeps_signIn
    (ha : ∀ id r, account = some (id, r) → s.get .account id = some r ∧ r.email = emailNorm)
    (hm : Member s m) (hu : ∀ u ∈ users, Member s u ∧ u.user.email.toLower = emailNorm)
    (hmeets : Meets s emailNorm password m) :
    (signIn d pa password account users m).Keeps (LoginStep (Syncs s emailNorm password) password s)
      (fun r s' => LoginStep (Syncs s emailNorm password) password s s' ∧
        ∀ x, r = .ok x → Opened d s emailNorm password x) s := by
  have herr : ∀ e : Err, LoginStep (Syncs s emailNorm password) password s s ∧
      ∀ x, Except.error e = Except.ok x → Opened d s emailNorm password x :=
    fun e => ⟨.refl s, fun x hx => by cases hx⟩
  have horg : ∀ o ∈ [m.option], ∃ m', Member s m' ∧ Meets s emailNorm password m' ∧
      o = m'.option ∧ ∀ id ∈ some m.id, id = m'.id := fun o ho =>
    ⟨m, hm, hmeets, List.mem_singleton.mp ho, fun id hid => (Option.mem_some.mp hid).symm⟩
  unfold signIn
  simp only [Call.bind_eq, Call.pure_eq]
  refine .ofExcept_bind (.refl s) (fun _ hv => ?_) herr
  refine .ofExcept_bind (.refl s) (fun _ hs => ?_) herr
  have hadm : Admitted d s m.id := ⟨m, hm, rfl, hv, hs⟩
  refine .still_bind (.refl s) (walks_roleName m.id) (fun role => ?_) herr
  refine .still_bind (.refl s) (walks_requiresTwoFactor pa m) (fun secondFactor => ?_) herr
  split
  · refine .still_bind (.refl s) walks_readClock (fun now => ?_) herr
    refine .pure (.refl s) ⟨.refl s, fun x hx => ?_⟩
    cases hx
    exact ⟨fun ht => by cases List.mem_singleton.mp ht; exact hadm, fun {o} ho => horg o ho⟩
  · refine .of_walks (.bind (walks_syncLegacyHash ha hm hu) fun _ => .bind walks_readClock fun now =>
      .bind (walks_touchLastLogin _ _ now) fun _ => .bind (walks_issueTokens m) fun _ => .pure _)
      (fun _ h => .walk h) fun r s' hg hw => ⟨.walk hw, fun x hx => ?_⟩
    subst hx
    obtain ⟨_, s1, -, hg⟩ := hg.seq
    obtain ⟨_, s2, -, hg⟩ := hg.seq
    obtain ⟨_, s3, -, hg⟩ := hg.seq
    obtain ⟨tokens, s4, ht, hg⟩ := hg.seq
    cases hg.1
    obtain ⟨h1, h2⟩ := gives_issueTokens ht
    refine ⟨fun {t} ht => ?_, fun {o} ho => horg o ho⟩
    rcases List.mem_pair.mp ht with rfl | rfl
    · exact h1 ▸ hadm
    · exact h2 ▸ hadm

theorem account_of_findUnique
    (h : (findUnique .account fun (r : Account) => r.email == emailNorm).gives s account s')
    (ha : account = some (id, r)) :
    s.get .account id = some r ∧ r.email = emailNorm := by
  obtain ⟨h, -⟩ := gives_findUnique.mp h
  obtain ⟨hl, he⟩ := mem_seen.mp (List.mem_of_head? (h.symm.trans ha))
  exact ⟨hl.1, by simpa using he⟩

/-- **The pool** is of members that meet the password. -/
theorem meets_of_mem_pool
    (ha : ∀ id r, account = some (id, r) → s.get .account id = some r ∧ r.email = emailNorm)
    (hu : ∀ u ∈ users, Member s u ∧ u.user.email.toLower = emailNorm)
    (hm : m ∈ finalPool d pa (poolOf (authenticatedAccount account password) password users)) :
    Member s m ∧ Meets s emailNorm password m := by
  have hp : m ∈ poolOf (authenticatedAccount account password) password users := by
    unfold finalPool at hm
    split at hm
    · exact (List.mem_filter.mp hm).1
    · exact hm
  obtain ⟨hmem, hor⟩ := List.mem_filter.mp hp
  obtain ⟨hM, he⟩ := hu m hmem
  refine ⟨hM, he, ?_⟩
  rw [Bool.or_eq_true, List.contains_iff_mem] at hor
  rcases hor with hsome | hleg
  · left
    cases account with
    | none => cases hsome
    | some acc =>
      obtain ⟨hg, hem⟩ := ha acc.1 acc.2 rfl
      refine ⟨acc.1, acc.2, hg, hem, ?_⟩
      by_contra hacc
      simp [authenticatedAccount, Option.filter, hacc] at hsome
  · right
    obtain ⟨u, hum, hid, hacc⟩ := mem_legacyValidUserIds hleg
    obtain rfl := (hu u hum).1.ext hM hid
    exact hacc

theorem keeps_loginOnce {orgId : Option Id} :
    (loginOnce d emailNorm password orgId pa).Keeps
      (LoginStep (Syncs s emailNorm password) password s)
      (fun r s' => LoginStep (Syncs s emailNorm password) password s s' ∧
        ∀ x, r = .ok x → Opened d s emailNorm password x) s := by
  have herr : ∀ e : Err, LoginStep (Syncs s emailNorm password) password s s ∧
      ∀ x, Except.error e = Except.ok x → Opened d s emailNorm password x :=
    fun e => ⟨.refl s, fun x hx => by cases hx⟩
  unfold loginOnce
  simp only [Call.bind_eq, Call.pure_eq, Call.throw_eq]
  refine .read_bind (e := .recordNotFound) (.refl s) (.read _) (fun account hacc => ?_) herr
  refine .read_bind (e := .recordNotFound) (.refl s) (.readOrThrow _ _) (fun users hus => ?_) herr
  have ha : ∀ id r, account = some (id, r) → s.get .account id = some r ∧ r.email = emailNorm :=
    fun id r h => account_of_findUnique hacc h
  have hu := (gives_usersWithEmail hus).2
  split
  · exact .throw (.refl s) (herr _)
  split
  · exact .throw (.refl s) (herr _)
  have hpool : ∀ u ∈ finalPool d pa (poolOf (authenticatedAccount account password) password users),
      Member s u ∧ Meets s emailNorm password u := fun u hm => meets_of_mem_pool ha hu hm
  have hsign : ∀ u ∈ finalPool d pa (poolOf (authenticatedAccount account password) password users),
      (signIn d pa password account users u).Keeps
        (LoginStep (Syncs s emailNorm password) password s)
        (fun r s' => LoginStep (Syncs s emailNorm password) password s s' ∧
          ∀ x, r = .ok x → Opened d s emailNorm password x) s := fun u hm =>
    keeps_signIn ha (hpool u hm).1 hu (hpool u hm).2
  revert hpool hsign
  generalize finalPool d pa (poolOf (authenticatedAccount account password) password users) = pool
  intro hpool hsign
  split
  · exact .throw (.refl s) (herr _)
  · split
    · exact .throw (.refl s) (herr _)
    · rename_i u hf
      exact hsign u (List.mem_of_find?_eq_some hf)
  · exact hsign _ List.mem_cons_self
  · refine .pure (.refl s) ⟨.refl s, fun x hx => ?_⟩
    cases hx
    refine ⟨fun {t} ht => absurd ht List.not_mem_nil, fun {o} ho => ?_⟩
    obtain ⟨u, hm, rfl⟩ := List.mem_map.mp ho
    exact ⟨u, (hpool u hm).1, (hpool u hm).2, rfl, fun id hid => by cases hid⟩

/-- **A login.** -/
theorem keeps_login {orgId : Option Id} :
    (login d email password orgId pa).Keeps (LoginStep (Syncs s email.toLower password) password s)
      (fun r s' => LoginStep (Syncs s email.toLower password) password s s' ∧
        ∀ x, r = .ok x → ∃ s1, LoginStep (Syncs s email.toLower password) password s s1 ∧
          LoginStep (Syncs s email.toLower password) password s1 s' ∧
          Opened d s1 email.toLower password x) s := by
  unfold login
  split
  · exact .throw (.refl s) ⟨.refl s, fun x hx => by cases hx⟩
  · refine .retry (.refl s) fun s1 h1 => ⟨fun s' hp => ?_, fun r s' hg => ?_⟩
    · exact h1.trans ((keeps_loginOnce.passes s' hp).mono fun _ => h1.syncs)
    · obtain ⟨hw, hx⟩ := keeps_loginOnce.gives r s' hg
      have hw' := hw.mono fun _ => h1.syncs
      exact ⟨h1.trans hw', fun x he => ⟨s1, h1, hw', hx x he⟩⟩

end PatronLoyalty.Accounts
