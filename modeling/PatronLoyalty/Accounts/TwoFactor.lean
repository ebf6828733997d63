import PatronLoyalty.Accounts.SigningIn

/-!
# Signing in without the second factor

A party knows the password of a user, and no code of anyone's second factor. It signs in, hands in codes
that nobody's second factor accepts, and makes API requests with the tokens it is handed.

The token a login hands out while the second factor is due is signed with the secret of the access
tokens, and `JwtStrategy.validate` does not look at its type. Headline:
**`neverBypassed_iff`**. The party is authenticated as the user, unless the user may not sign in at all.
-/

namespace PatronLoyalty.Accounts

open Txn
open Txn.Rel (Wrote)
open Loyalty (Id truthy)

variable {s s' a b c : Db} {d : Deployment} {m : Membership} {id : Id} {u : User} {code : String}
  {r : Request} {o : Option (Except Err Answer)} {l : List (Request × Option (Except Err Answer))}

/-! ## What a login leaves as it is -/

/-- Users, organisations and accounts, but for last logins and the accounts' passwords. -/
structure Standing (a b : Db) : Prop where
  user (id : Id) : (b.get .user id).map User.undated = (a.get .user id).map User.undated
  organization (id : Id) : b.get .organization id = a.get .organization id
  account (id : Id) : (b.get .account id).map Account.emailVerified =
    (a.get .account id).map Account.emailVerified

theorem Standing.refl (a : Db) : Standing a a := ⟨fun _ => rfl, fun _ => rfl, fun _ => rfl⟩

theorem Standing.trans (h : Standing a b) (h' : Standing b c) : Standing a c :=
  ⟨fun id => (h'.user id).trans (h.user id),
    fun id => (h'.organization id).trans (h.organization id),
    fun id => (h'.account id).trans (h.account id)⟩

theorem LoginStep.standing {K : Id → Prop} {password : String} (h : LoginStep K password a b) :
    Standing a b where
  user := h.user
  organization := h.organization
  account id := by
    rcases h.account id with he | ⟨-, he⟩
    · rw [he]
    · rw [he, Option.map_map]
      rfl

/-- A user of the later store is one of the earlier, but for his last login. -/
theorem Standing.live (h : Standing a b) (hu : Live b .user id u) :
    ∃ u', Live a .user id u' ∧ u'.undated = u.undated := live_of_undated (h.user id) hu

/-- Who may sign in later might before. -/
theorem Standing.admitted (h : Standing a b) {userId : Id} (hb : Admitted d b userId) :
    Admitted d a userId := by
  obtain ⟨m, ⟨hl, hj⟩, hid, hv, hs⟩ := hb
  obtain ⟨u, hu, he⟩ := h.live hl
  obtain ⟨o, ho, hm⟩ := Option.map_eq_some_iff.mp hj
  have horg : u.orgId = m.user.orgId := undated_field User.orgId (fun _ => rfl) he
  have hacc : u.accountId = m.user.accountId := undated_field User.accountId (fun _ => rfl) he
  have ho' : a.get .organization u.orgId = some o := by
    rw [horg, ← h.organization]
    exact ho
  have hae : (u.accountId.bind (a.get .account)).map Account.emailVerified =
      m.account.map Account.emailVerified := by
    rw [← hm, hacc]
    cases m.user.accountId with
    | none => rfl
    | some id => exact (h.account id).symm
  refine ⟨⟨m.id, u, o, u.accountId.bind (a.get .account)⟩, ⟨hu, ?_⟩, hid, ?_, ?_⟩
  · simp [joinMembership, ho']
  · have hev : Membership.emailVerified ⟨m.id, u, o, u.accountId.bind (a.get .account)⟩ =
        m.emailVerified := by
      unfold Membership.emailVerified
      rw [hae, undated_field User.emailVerified (fun _ => rfl) he]
    unfold Membership.checkEmailVerified at hv ⊢
    rw [hev]
    exact hv
  · have hmo : m.organization = o := by rw [← hm]
    unfold Membership.checkStatus at hs ⊢
    rw [hmo] at hs
    rw [undated_field User.status (fun _ => rfl) he]
    exact hs

/-! ## Codes nobody's second factor accepts -/

def User.acceptsCode (d : Deployment) (u : User) (code : String) : Prop :=
  (∃ secret now, (u.twoFactorSecret = some secret ∨ u.adminTwoFactorSecret = some secret) ∧
    verifyTotp d secret code now = true) ∨
  ∃ hashes, (u.twoFactorBackupHashes = some hashes ∨ u.adminTwoFactorBackupHashes = some hashes) ∧
    (matchingBackupCode code hashes).isSome = true

def Useless (d : Deployment) (s : Db) (code : String) : Prop :=
  ∀ id u, Live s .user id u → ¬ u.acceptsCode d code

theorem Standing.useless (h : Standing a b) (ha : Useless d a code) :
    Useless d b code := by
  intro id u hu hc
  obtain ⟨u', hu', he⟩ := h.live hu
  refine ha id u' hu' ?_
  unfold User.acceptsCode at hc ⊢
  rw [undated_field User.twoFactorSecret (fun _ => rfl) he,
    undated_field User.adminTwoFactorSecret (fun _ => rfl) he,
    undated_field User.twoFactorBackupHashes (fun _ => rfl) he,
    undated_field User.adminTwoFactorBackupHashes (fun _ => rfl) he]
  exact hc

theorem pickAdminTwoFactorSource_mem {memberships : List (Id × User)} {r : Id × User}
    (h : pickAdminTwoFactorSource memberships = some r) : r ∈ memberships := by
  unfold pickAdminTwoFactorSource at h
  simp only [Option.or_eq_some_iff] at h
  rcases h with ((h | ⟨-, h⟩) | ⟨-, h⟩) | ⟨-, h⟩
  · exact List.mem_of_find?_eq_some h
  · exact List.mem_of_find?_eq_some h
  · exact List.mem_of_find?_eq_some h
  · exact List.mem_of_head? h

theorem gives_loadAdminTwoFactorMemberships {userId : Id} {o : Option ResolvedAdminTwoFactor}
    (h : (loadAdminTwoFactorMemberships userId).gives s o s') {r : ResolvedAdminTwoFactor}
    (hr : o = some r) : (∀ x ∈ r.memberships, Live s .user x.1 x.2) ∧
      r = resolveAdminTwoFactor r.memberships := by
  subst hr
  obtain ⟨u, m, hu, h⟩ := h.seq
  obtain ⟨-, rfl⟩ := gives_findById.mp hu
  cases u with
  | none => cases h.1
  | some u =>
    obtain ⟨rows, m, hrows, h⟩ := h.seq
    obtain ⟨rfl, rfl⟩ := gives_findMany.mp hrows
    cases h.1
    refine ⟨fun x hx => ?_, rfl⟩
    have hx' : (x.1, x.2) ∈ seen .user (fun _ (v : User) => sharesSetup u v) m := hx
    exact (mem_seen.mp hx').1

theorem useless_secret {secret : Option String} {now : ℕ} (hc : Useless d s code)
    (hu : Live s .user id u) (hs : u.twoFactorSecret = secret ∨ u.adminTwoFactorSecret = secret) :
    ((truthy secret).any fun secret => verifyTotp d secret code now) = false := by
  cases hsec : truthy secret with
  | none => rfl
  | some t =>
    rw [Option.any_some, Bool.eq_false_iff]
    intro hv
    have ht : secret = some t := by
      cases secret with
      | none => cases hsec
      | some t' =>
        unfold truthy at hsec
        split at hsec
        all_goals simp_all
    exact hc id u hu (Or.inl ⟨t, now, by rw [ht] at hs; exact hs, hv⟩)

theorem useless_hashes {hashes : List BackupHash} (hc : Useless d s code) (hu : Live s .user id u)
    (hs : u.twoFactorBackupHashes = some hashes ∨ u.adminTwoFactorBackupHashes = some hashes) :
    matchingBackupCode code hashes = none := by
  cases hm : matchingBackupCode code hashes with
  | none => rfl
  | some i => exact absurd (Or.inr ⟨hashes, hs, by rw [hm]; rfl⟩) (hc id u hu)

/-! ## completeTwoFactorLogin, with such a code -/

section Useless

variable {I : Db → Prop} {code : String} {userId : Id}

theorem keeps_verifyAdminCode (hI : I s) (hc : Useless d s code) :
    (verifyAdminCode d userId code).Keeps I (fun r m => m = s ∧ ∀ b, r = .ok b → b = false) s := by
  have herr : ∀ e : Err, s = s ∧ ∀ b, Except.error e = Except.ok b → b = false :=
    fun e => ⟨rfl, fun x hx => by cases hx⟩
  have hno : (.pure false : ACall Bool).Keeps I
      (fun r m => m = s ∧ ∀ b, r = .ok b → b = false) s :=
    .pure hI ⟨rfl, fun b hb => by cases hb; rfl⟩
  refine .read_bind (e := .recordNotFound) hI (confined_loadAdminTwoFactorMemberships userId)
    (fun resolved hr => ?_) herr
  refine .still_bind hI walks_readClock (fun now => ?_) herr
  cases resolved with
  | none => exact hno
  | some r =>
    obtain ⟨hl, hres⟩ := gives_loadAdminTwoFactorMemberships hr rfl
    have hsrc : ∀ x, pickAdminTwoFactorSource r.memberships = some x → Live s .user x.1 x.2 :=
      fun x hx => hl x (pickAdminTwoFactorSource_mem hx)
    have hsecret : ((truthy r.secret).any fun t => verifyTotp d t code now) = false := by
      rw [hres]
      cases hp : pickAdminTwoFactorSource r.memberships with
      | none => simp [resolveAdminTwoFactor, hp, truthy]
      | some x =>
        simp only [resolveAdminTwoFactor, hp, Option.bind_some]
        exact useless_secret hc (hsrc x hp) (Or.inr rfl)
    simp only [hsecret, Bool.false_eq_true, if_false]
    cases hh : r.backupHashes with
    | none => exact hno
    | some hashes =>
      have hmatch : matchingBackupCode code hashes = none := by
        rw [hres] at hh
        obtain ⟨x, hp, hx⟩ := Option.bind_eq_some_iff.mp hh
        exact useless_hashes hc (hsrc x hp) (Or.inr hx)
      simp only [hmatch]
      exact hno

theorem keeps_verifyUserCode {orgId : Id} (hI : I s) (hc : Useless d s code) :
    (verifyUserCode d orgId userId code).Keeps I
      (fun r m => m = s ∧ ∀ b, r = .ok b → b = false) s := by
  have herr : ∀ e : Err, s = s ∧ ∀ b, Except.error e = Except.ok b → b = false :=
    fun e => ⟨rfl, fun x hx => by cases hx⟩
  have hno : (.pure false : ACall Bool).Keeps I
      (fun r m => m = s ∧ ∀ b, r = .ok b → b = false) s :=
    .pure hI ⟨rfl, fun b hb => by cases hb; rfl⟩
  refine .read_bind (e := .recordNotFound) hI (.read _) (fun u hu => ?_) herr
  refine .still_bind hI walks_readClock (fun now => ?_) herr
  cases u with
  | none => exact hno
  | some u =>
    have hl : Live s .user userId u := live_any.mp (gives_findById.mp hu).1.symm
    simp only [useless_secret hc hl (Or.inl rfl), Bool.false_eq_true, if_false]
    cases hh : u.twoFactorBackupHashes with
    | none => exact hno
    | some hashes =>
      simp only [useless_hashes hc hl (Or.inl hh)]
      exact hno

theorem walks_requireSecondFactor {E : Db → Db → Prop} (isAdminTotp : Bool) (m : Membership) :
    Call.Walks E (requireSecondFactor isAdminTotp m) := by
  unfold requireSecondFactor
  split
  · refine .bind (.tx (e := .recordNotFound) (confined_loadAdminTwoFactorMemberships m.id))
      fun o => ?_
    exact .ite (.pure _) (.throw _)
  · exact .ite (.pure _) (.throw _)

/-- **A code nobody accepts** gets nowhere. -/
theorem keeps_completeTwoFactorLogin {token : Jwt} (hc : Useless d s (removeSpaces code)) :
    (completeTwoFactorLogin d token code).Keeps (· = s) (fun r m => m = s ∧ ∀ x, r ≠ .ok x) s := by
  have herr : ∀ e : Err, s = s ∧ ∀ x : LoginResult, Except.error e ≠ Except.ok x :=
    fun e => ⟨rfl, fun x hx => by cases hx⟩
  refine .retry rfl fun s1 hs1 => ?_
  subst hs1
  unfold completeTwoFactorOnce
  simp only [Call.bind_eq, Call.pure_eq, Call.throw_eq]
  refine .still_bind rfl walks_readClock (fun verifiedAt => ?_) herr
  cases verify d.jwtSecret token verifiedAt with
  | none => exact .throw rfl (herr _)
  | some decoded =>
    simp only
    split
    · exact .throw rfl (herr _)
    refine .read_bind (e := .recordNotFound) rfl (.readOrThrow _ _) (fun user _ => ?_) herr
    cases user with
    | none => exact .throw rfl (herr _)
    | some user =>
      refine .ofExcept_bind rfl (fun _ _ => ?_) herr
      refine .still_bind rfl (walks_requireSecondFactor _ user) (fun _ => ?_) herr
      refine .andThen (F := fun b => b = false) ?_ (fun b hb => ?_) herr
      · unfold verifySecondFactor
        split
        · exact keeps_verifyAdminCode rfl hc
        · exact keeps_verifyUserCode rfl hc
      · subst hb
        exact .throw rfl (herr _)

end Useless

/-! ## API requests -/

section Authenticate

open Call (Walks)

variable {E : Db → Db → Prop}

theorem confined_loadAuthUser {C : DbWrite → Bool} {e : Err} {G : Guarantee Db}
    (userId : Id) : Confined C e G E (loadAuthUser userId) :=
  .bind (.read _) fun o => by
    cases o with
    | none => exact .pure _
    | some u => exact .bind (.read _) fun _ => .pure _

theorem walks_cachedUser (userId : Id) : Walks E (cachedUser d userId) := by
  unfold cachedUser
  split
  · exact .pure _
  · exact .handle (.bind walks_readClock fun _ =>
      .bind (.tx (e := .recordNotFound) (.read _)) fun _ => .pure _) fun _ => .pure _

theorem Standing.walk (h : Relation.ReflTransGen Standing a b) : Standing a b := by
  induction h with
  | refl => exact .refl a
  | tail _ hs ih => exact ih.trans hs

theorem walks_cacheUser (userId : Id) (user : CachedAuthUser) :
    Walks Standing (cacheUser d userId user) := by
  unfold cacheUser
  split
  · exact .pure _
  · refine .handle (.bind walks_readClock fun now => .tx (e := .recordNotFound)
      (confined_setKey rfl fun old a b hw => ?_)) fun _ => .pure _
    rw [hw.2.2.2]
    have hset : ∀ r : CacheEntry, LoginStep (fun _ => False) "" a (a.set .authUser userId r) := fun r =>
      loginStep_set (by decide) (by decide) (by decide)
    exact (hset _).standing

theorem walks_retry {β : Type} {c : ACall β} (h : Walks E c) :
    Walks E (runWithTransientRetry c) := by
  intro s s' hp
  have hk : (runWithTransientRetry c).Keeps (Relation.ReflTransGen E s) (fun _ m =>
      Relation.ReflTransGen E s m ∧ True) s :=
    .retry .refl fun s1 h1 => .of_walks h (fun _ hw => h1.trans hw)
      fun _ _ _ hw => ⟨h1.trans hw, trivial⟩
  exact hk.passes s' hp

theorem walks_resolveUser (userId : Id) : Walks Standing (resolveUser d userId) :=
  .bind (walks_cachedUser userId) fun o => by
    cases o with
    | some _ => exact .pure _
    | none =>
      refine .bind (walks_retry (.tx (e := .recordNotFound) (confined_loadAuthUser userId)))
        fun o => ?_
      cases o with
      | none => exact .pure _
      | some user => exact .bind (walks_cacheUser userId user) fun _ => .pure _

theorem walks_isBlacklisted (jti : Option Id) :
    Walks E (isBlacklisted jti) := by
  cases jti with
  | none => exact .pure _
  | some jti =>
    exact .handle (.bind walks_readClock fun _ =>
      .bind (.tx (e := .recordNotFound) (.read _)) fun _ => .pure _) fun _ => .pure _

theorem walks_validate (payload : JwtPayload) : Walks Standing (validate d payload) :=
  .bind (walks_resolveUser payload.sub) fun o => by
    cases o with
    | none => exact .throw _
    | some user =>
      refine .bind (.ofExcept _) fun _ => ?_
      simp only
      split
      · refine .bind (.tx (e := .recordNotFound) (.read _)) fun _ => ?_
        refine .ite (.throw _) (.ite (.throw _) (.bind (walks_isBlacklisted _) fun _ => ?_))
        exact .ite (.throw _) (.pure _)
      · exact .pure _

theorem walks_authenticate (token : Jwt) : Walks Standing (authenticate d token) :=
  .bind walks_readClock fun now => by
    cases verify d.jwtSecret token now with
    | none => exact .throw _
    | some payload => exact walks_validate payload

/-- A request is made as the subject of the token. -/
theorem gives_validate {payload : JwtPayload} {u : AuthenticatedUser}
    (h : (validate d payload).gives s (.ok u) s') : u.userId = payload.sub := by
  unfold validate at h
  obtain ⟨o, s1, -, h⟩ := h.seq
  cases o with
  | none => exact absurd h Call.not_gives_throw
  | some user =>
    obtain ⟨_, s2, -, h⟩ := h.seq
    simp only at h
    split at h
    · obtain ⟨o, s3, -, h⟩ := h.seq
      split at h
      · exact absurd h Call.not_gives_throw
      split at h
      · exact absurd h Call.not_gives_throw
      obtain ⟨ended, s4, -, h⟩ := h.seq
      split at h
      · exact absurd h Call.not_gives_throw
      · cases h.1
        rfl
    · cases h.1
      rfl

/-- … and the token is signed with the access secret. -/
theorem gives_authenticate {token : Jwt} {u : AuthenticatedUser}
    (h : (authenticate d token).gives s (.ok u) s') :
    token.secret = d.jwtSecret ∧ u.userId = token.payload.sub := by
  obtain ⟨now, s1, -, h⟩ := h.seq
  cases hv : verify d.jwtSecret token now with
  | none =>
    rw [hv] at h
    exact absurd h Call.not_gives_throw
  | some payload =>
    rw [hv] at h
    unfold verify at hv
    split at hv
    · rename_i hs
      cases hv
      exact ⟨hs.1, gives_validate h⟩
    · cases hv

end Authenticate

/-! ## The party -/

def Answer.tokens : Answer → List Jwt
  | .login r => r.tokens
  | .refreshed _ tokens _ => [tokens.accessToken, tokens.refreshToken]
  | _ => []

def handed (l : List (Request × Option (Except Err Answer))) : List Jwt :=
  l.flatMap fun x => match x.2 with
    | some (.ok a) => a.tokens
    | _ => []

/-- **What the party may ask for.** Signatures are unforgeable: a token of its own making is signed with a
secret of its own. -/
def ByParty (d : Deployment) (s : Db) (l : List (Request × Option (Except Err Answer))) :
    Request → Prop
  | .login .. => True
  | .completeTwoFactorLogin _ code => Useless d s (removeSpaces code)
  | .authenticate token => token ∈ handed l ∨
      token.secret ≠ d.jwtSecret ∧ token.secret ≠ d.refreshSecret
  | _ => False

/-- **Two-factor is never bypassed**: whatever the party does, it is not authenticated as the user. -/
def NeverBypassed (d : Deployment) (s : Db) (userId : Id) : Prop :=
  ∀ l s', InTurn (Request.run d) (fun l _ r _ => ByParty d s l r) s l s' →
    ∀ token u, (.authenticate token, some (.ok (.authenticated u))) ∈ l → u.userId ≠ userId

/-- What the party has achieved. -/
structure Gained (d : Deployment) (s : Db) (l : List (Request × Option (Except Err Answer)))
    (m : Db) : Prop where
  standing : Standing s m
  token {t : Jwt} : t ∈ handed l → Admitted d s t.payload.sub
  user {r : Request} {u : AuthenticatedUser} :
    (r, some (.ok (.authenticated u))) ∈ l → Admitted d s u.userId

theorem handed_snoc {t : Jwt} :
    t ∈ handed (l ++ [(r, o)]) ↔ t ∈ handed l ∨ ∃ a, o = some (.ok a) ∧ t ∈ a.tokens := by
  unfold handed
  rw [List.flatMap_append, List.mem_append]
  refine or_congr Iff.rfl ?_
  rw [List.flatMap_singleton]
  constructor
  · intro h
    split at h
    · exact ⟨_, by assumption, h⟩
    · cases h
  · rintro ⟨a, rfl, h⟩
    exact h

theorem Gained.snoc {m m' : Db} (h : Gained d s l m) (hst : Standing m m')
    (htok : ∀ a, o = some (.ok a) → ∀ t ∈ a.tokens, Admitted d s t.payload.sub)
    (huser : ∀ u, o = some (.ok (.authenticated u)) → Admitted d s u.userId) :
    Gained d s (l ++ [(r, o)]) m' where
  standing := h.standing.trans hst
  token {t} ht := by
    rcases handed_snoc.mp ht with ht | ⟨a, ha, ht⟩
    · exact h.token ht
    · exact htok a ha t ht
  user {r'} {u} hu := by
    rcases List.mem_append.mp hu with hu | hu
    · exact h.user hu
    · obtain ⟨-, ho⟩ := Prod.mk.inj (List.mem_singleton.mp hu)
      exact huser u ho.symm

/-- **One turn** of the party. -/
theorem Gained.turn {m m' : Db} (h : Gained d s l m) (hr : ByParty d s l r)
    (ht : (Request.run d r).turn m o m') : Gained d s (l ++ [(r, o)]) m' := by
  cases r with
  | login email password orgId pa =>
    obtain ⟨hw, ha⟩ := (Call.Keeps.map (f := Answer.login) keeps_login).turn ht
    refine h.snoc hw.standing (fun a ho t hta => ?_) fun u ho => ?_
    · obtain ⟨x, rfl, s1, h1, -, hx⟩ := (ha _ ho).2 a rfl
      exact (h.standing.trans h1.standing).admitted (hx.tokens hta)
    · obtain ⟨x, hx, -⟩ := (ha _ ho).2 _ rfl
      cases hx
  | completeTwoFactorLogin token code =>
    have hk : (completeTwoFactorLogin d token code).Keeps (· = m)
        (fun r s' => s' = m ∧ ∀ x, r = .ok x → False) m :=
      (keeps_completeTwoFactorLogin (h.standing.useless hr)).post fun r s' hx => ⟨hx.1, hx.2⟩
    obtain ⟨hm, ha⟩ := (Call.Keeps.map (f := Answer.login) hk).turn ht
    rw [hm]
    refine h.snoc (.refl m) (fun a ho => ?_) fun u ho => ?_
    · obtain ⟨x, -, hf⟩ := (ha _ ho).2 a rfl
      exact hf.elim
    · obtain ⟨x, -, hf⟩ := (ha _ ho).2 _ rfl
      exact hf.elim
  | authenticate token =>
    have hk : (authenticate d token).Keeps (Standing m) (fun r s' => Standing m s' ∧
        ∀ u, r = .ok u → token.secret = d.jwtSecret ∧ u.userId = token.payload.sub) m :=
      .of_walks (walks_authenticate token) (fun _ hw => .walk hw) fun r s' hg hw =>
        ⟨.walk hw, fun u hu => by
          subst hu
          exact gives_authenticate hg⟩
    obtain ⟨hw, ha⟩ := (Call.Keeps.map (f := Answer.authenticated) hk).turn ht
    refine h.snoc hw (fun a ho t hta => ?_) fun u ho => ?_
    · obtain ⟨u, rfl, -⟩ := (ha _ ho).2 a rfl
      cases hta
    · obtain ⟨u', hu, hsec, hid⟩ := (ha _ ho).2 _ rfl
      cases hu
      rcases hr with hhand | ⟨hforged, -⟩
      · rw [hid]
        exact h.token hhand
      · exact absurd hsec hforged
  | _ => exact hr.elim

/-- **What the party achieves**: it is authenticated as members that may sign in. -/
theorem gained_of_run
    (h : InTurn (Request.run d) (fun l _ r _ => ByParty d s l r) s l s') : Gained d s l s' :=
  h.keeps ⟨.refl s, nofun, nofun⟩ fun _ _ _ _ _ hg hr ht => hg.turn hr ht

/-! ## The way around the second factor -/

/-- What the schema and the services promise of the rows: unique indexes, foreign keys, and e-mails that
are not empty and in lower case. -/
structure WellFormed (s : Db) : Prop where
  unique : Rel.Unique s
  organization {id : Id} {u : User} : Live s .user id u →
    ∃ o, s.get .organization u.orgId = some o
  email {id : Id} {u : User} : Live s .user id u → u.email.toLower = u.email ∧ u.email ≠ ""

section Around

variable {emailNorm password : String} {userId : Id} {u : User} {now : ℕ}

theorem WellFormed.member (h : WellFormed s) (hu : Live s .user userId u) :
    ∃ m, joinMembership s (userId, u) = some m := by
  obtain ⟨o, ho⟩ := h.organization hu
  refine ⟨⟨userId, u, o, u.accountId.bind (s.get .account)⟩, ?_⟩
  simp only [joinMembership, ho, Option.map_some]

theorem live_user (hu : Live s .user userId u) : u.deleted = false := hu.2

theorem exists_usersWithEmail (h : WellFormed s) (emailNorm : String) :
    ∃ users, (usersWithEmail emailNorm).gives s users s ∧
      ∀ m, Member s m → m.user.email.toLower = emailNorm → m ∈ users := by
  have hjoin : ∀ x ∈ seen .user (fun _ (u : User) => u.email.toLower == emailNorm) s,
      ∃ m, joinMembership s x = some m := fun x hx => h.member (mem_seen.mp hx).1
  obtain ⟨users, hus⟩ := exists_mapM hjoin
  refine ⟨users, Tx.gives_readOrThrow.mpr ⟨hus, rfl⟩, fun m hm he => ?_⟩
  obtain ⟨m', hm', hj⟩ := (mem_of_mapM hus).2 (m.id, m.user) (mem_seen.mpr ⟨hm.1, by simpa using he⟩)
  rw [hm.2] at hj
  cases hj
  exact hm'

theorem exists_roleName (userId : Id) : ∃ name, (roleName userId).gives s (.ok name) s := by
  have hfind : ∃ o, (findFirst .roleAssignment fun _ (r : RoleAssignment) =>
      r.userId == userId).gives s o s := by
    cases hr : seen .roleAssignment (fun _ (r : RoleAssignment) => r.userId == userId) s with
    | nil => exact ⟨none, Tx.gives_findFirst.mpr ⟨rfl, Or.inl ⟨rfl, hr⟩⟩⟩
    | cons r rs =>
      exact ⟨some r, Tx.gives_findFirst.mpr ⟨rfl, Or.inr ⟨r, hr ▸ List.mem_cons_self, rfl⟩⟩⟩
  obtain ⟨o, ho⟩ := hfind
  unfold roleName
  cases o with
  | none =>
    exact ⟨_, Call.gives_bind_ok.mpr ⟨none, s, Call.gives_withTx_ok.mpr
      (Tx.gives_bind.mpr ⟨none, s, ho, rfl, rfl⟩), rfl, rfl⟩⟩
  | some r =>
    exact ⟨_, Call.gives_bind_ok.mpr ⟨_, s, Call.gives_withTx_ok.mpr
      (Tx.gives_bind.mpr ⟨some r, s, ho, gives_findById.mpr ⟨rfl, rfl⟩⟩), rfl, rfl⟩⟩

def pendingToken (d : Deployment) (userId now : ℕ) : Jwt :=
  sign d.jwtSecret { sub := userId, typ := some (pendingType false) } 300 now

/-- The second factor is due, and the pending token is handed out. -/
theorem gives_signIn (password : String) (account : Option (Id × Account))
    (users : List Membership) (hv : m.checkEmailVerified d = .ok ()) (hs : m.checkStatus = .ok ())
    (h2 : m.user.twoFactorEnabled = true) (he : isE2E m.user.email = false) (now : ℕ) :
    ∃ profile, (signIn d false password account users m).gives s
      (.ok (.requiresTwoFactor false (pendingToken d m.id now) profile m.option)) s := by
  obtain ⟨role, hrole⟩ := exists_roleName (s := s) m.id
  refine ⟨m.profile d role, ?_⟩
  unfold signIn
  refine Call.gives_bind_ok.mpr ⟨(), s, Call.gives_ofExcept.mpr ⟨hv, rfl⟩, ?_⟩
  refine Call.gives_bind_ok.mpr ⟨(), s, Call.gives_ofExcept.mpr ⟨hs, rfl⟩, ?_⟩
  refine Call.gives_bind_ok.mpr ⟨role, s, hrole, ?_⟩
  refine Call.gives_bind_ok.mpr ⟨true, s, ?_, ?_⟩
  · simp [requiresTwoFactor, h2, he]
  · exact Call.gives_bind_ok.mpr ⟨now, s, gives_readClock.mpr rfl, rfl, rfl⟩

theorem mem_pool (h : WellFormed s) {users : List Membership} (hmem : m ∈ users)
    (hmeets : Meets s emailNorm password m) {account : Option (Id × Account)}
    (ha : (findUnique .account fun (r : Account) => r.email == emailNorm).gives s account s) :
    m ∈ poolOf (authenticatedAccount account password) password users := by
  refine List.mem_filter.mpr ⟨hmem, ?_⟩
  rw [Bool.or_eq_true, List.contains_iff_mem]
  by_cases haid : (authenticatedAccount account password).isSome = true
  · exact Or.inl haid
  · right
    have hnone : authenticatedAccount account password = none := by simpa using haid
    have hacc : m.user.passwordHash.accepts password = true := by
      rcases hmeets.2 with ⟨id, r, hg, hem, hacc⟩ | hacc
      · exfalso
        have hin : (id, r) ∈ seen .account (fun _ (r : Account) => r.email == emailNorm) s :=
          mem_seen.mpr ⟨⟨hg, rfl⟩, by simpa using hem⟩
        obtain ⟨hhead, -⟩ := gives_findUnique.mp ha
        cases hseen : seen .account (fun _ (r : Account) => r.email == emailNorm) s with
        | nil => rw [hseen] at hin; cases hin
        | cons x xs =>
          rw [hseen] at hhead hin
          obtain ⟨hg', hem'⟩ := account_of_findUnique ha hhead
          have hid : x.1 = id := h.unique.row (k := Kind.account) (u := .account emailNorm)
            ⟨x.2, hg', by simp [Keyed.keys, uniqueKeys, hem']⟩
            ⟨r, hg, by simp [Keyed.keys, uniqueKeys, hem]⟩
          have hr : x.2 = r := Option.some.inj (hg'.symm.trans (hid ▸ hg))
          rw [hhead] at hnone
          simp [authenticatedAccount, Option.filter, hr, hacc] at hnone
      · exact hacc
    refine List.mem_map.mpr ⟨m, List.mem_filter.mpr ⟨hmem, ?_⟩, rfl⟩
    simp [hnone, hacc]

/-- **A login gets to the member** whose credentials it meets, and comes to what signing in comes to. -/
theorem gives_login_of (h : WellFormed s) (hm : Member s m)
    (hmeets : Meets s m.user.email.toLower password m) (hpw : password ≠ "")
    {F : LoginResult → Db → Prop}
    (hF : ∀ account users, (∀ id r, account = some (id, r) → s.get .account id = some r ∧
        r.email = m.user.email.toLower) →
      (∀ u ∈ users, Member s u ∧ u.user.email.toLower = m.user.email.toLower) →
      ∃ x s', (signIn d false password account users m).gives s (.ok x) s' ∧ F x s') :
    ∃ x s', (login d m.user.email password (some m.user.orgId) false).gives s (.ok x) s' ∧ F x s' := by
  obtain ⟨users, hus, hall⟩ := exists_usersWithEmail h m.user.email.toLower
  have hacc : (findUnique .account fun (r : Account) => r.email == m.user.email.toLower).gives s
      (seen .account (fun _ (r : Account) => r.email == m.user.email.toLower) s).head? s :=
    gives_findUnique.mpr ⟨rfl, rfl⟩
  generalize (seen .account (fun _ (r : Account) =>
    r.email == m.user.email.toLower) s).head? = account at hacc
  have hmem := hall m hm rfl
  have hpool := mem_pool h hmem hmeets hacc
  obtain ⟨x, s', hsign, hx⟩ := hF account users (fun _ _ ha => account_of_findUnique hacc ha)
    (gives_usersWithEmail hus).2
  refine ⟨x, s', ?_, hx⟩
  unfold login
  rw [if_neg (not_or.mpr ⟨(h.email hm.1).2, hpw⟩)]
  refine Call.gives_retry_ok ?_
  unfold loginOnce
  refine Call.gives_bind_ok.mpr ⟨account, s, Call.gives_withTx_ok.mpr hacc, ?_⟩
  refine Call.gives_bind_ok.mpr ⟨users, s, Call.gives_withTx_ok.mpr hus, ?_⟩
  have hne : users.isEmpty = false := by
    cases users with
    | nil => cases hmem
    | cons x xs => rfl
  have hcred : ((authenticatedAccount account password).isNone &&
      (legacyValidUserIds (authenticatedAccount account password) password users).isEmpty) =
        false := by
    have hor := (List.mem_filter.mp hpool).2
    rw [Bool.or_eq_true, List.contains_iff_mem] at hor
    rcases hor with hsome | hleg
    · simp [Option.isNone_eq_false_iff.mpr hsome]
    · rw [Bool.and_eq_false_iff]
      right
      rw [List.isEmpty_eq_false_iff]
      exact List.ne_nil_of_mem hleg
  simp only [hne, Bool.false_and, Bool.false_eq_true, if_false, hcred]
  have hfind : (finalPool d false (poolOf (authenticatedAccount account password) password
      users)).find? (fun u => u.user.orgId == m.user.orgId) = some m := by
    have hpool' : m ∈ finalPool d false
        (poolOf (authenticatedAccount account password) password users) := hpool
    cases hf : (finalPool d false (poolOf (authenticatedAccount account password) password
        users)).find? (fun u => u.user.orgId == m.user.orgId) with
    | none => simpa using List.find?_eq_none.mp hf m hpool'
    | some m' =>
      have hm' : m' ∈ users := (List.mem_filter.mp (List.mem_of_find?_eq_some hf)).1
      obtain ⟨hM', he'⟩ := (gives_usersWithEmail hus).2 m' hm'
      have horg : m'.user.orgId = m.user.orgId := by simpa using List.find?_some hf
      rw [(h.email hM'.1).1, (h.email hm.1).1] at he'
      have hid : m'.id = m.id := h.unique.row (k := Kind.user)
        (u := .userEmail m.user.orgId m.user.email)
        ⟨m'.user, hM'.1.1, by simp [Keyed.keys, uniqueKeys, live_user hM'.1, horg, he']⟩
        ⟨m.user, hm.1.1, by simp [Keyed.keys, uniqueKeys, live_user hm.1]⟩
      rw [hM'.ext hm hid]
  cases hp : finalPool d false (poolOf (authenticatedAccount account password) password users) with
  | nil =>
    rw [hp] at hfind
    cases hfind
  | cons y ys =>
    rw [hp] at hfind
    simp only [hfind]
    exact hsign

/-- **The login hands out the pending token.** -/
theorem gives_login (h : WellFormed s) (hm : Member s m)
    (hmeets : Meets s m.user.email.toLower password m) (hpw : password ≠ "")
    (hv : m.checkEmailVerified d = .ok ()) (hs : m.checkStatus = .ok ())
    (h2 : m.user.twoFactorEnabled = true) (he : isE2E m.user.email = false) (now : ℕ) :
    ∃ profile, (login d m.user.email password (some m.user.orgId) false).gives s
      (.ok (.requiresTwoFactor false (pendingToken d m.id now) profile m.option)) s := by
  obtain ⟨x, s', hg, ⟨profile, rfl⟩, rfl⟩ := gives_login_of h hm hmeets hpw
    (F := fun x s' => (∃ profile, x = .requiresTwoFactor false (pendingToken d m.id now) profile
      m.option) ∧ s' = s) fun account users _ _ => by
    obtain ⟨profile, hsign⟩ := gives_signIn (s := s) password account users hv hs h2 he now
    exact ⟨_, s, hsign, ⟨profile, rfl⟩, rfl⟩
  exact ⟨profile, hg⟩

theorem gives_setKey {k : Kind} {id : Id} {r : Row k} :
    (setKey k id r).gives s () (s.set k id r) :=
  Tx.gives_exec.mpr ⟨_, rfl, (Rel.put_eq rfl).symm⟩

/-- A moment at which the cache has no entry of the user. -/
theorem exists_uncached (s : Db) (userId : Id) :
    ∃ now, (s.get .authUser userId).filter (fun (e : CacheEntry) => decide (now < e.expiresAt)) =
      none := by
  cases he : s.get .authUser userId with
  | none => exact ⟨0, rfl⟩
  | some e => exact ⟨e.expiresAt, by simp [Option.filter]⟩

theorem gives_resolveUser {u : CachedAuthUser} (hcache : (s.get .authUser userId).filter
      (fun (e : CacheEntry) => decide (now < e.expiresAt)) = none)
    (hload : (loadAuthUser userId).gives s (some u) s) :
    ∃ s', (resolveUser d userId).gives s (.ok (some u)) s' := by
  have hcached : (cachedUser d userId).gives s (.ok none) s := by
    unfold cachedUser
    split
    · exact ⟨rfl, rfl⟩
    · refine Call.gives_handle_ok (Call.gives_bind_ok.mpr ⟨now, s, gives_readClock.mpr rfl, ?_⟩)
      refine Call.gives_bind_ok.mpr ⟨none, s, Call.gives_withTx_ok.mpr
        (gives_findById.mpr ⟨?_, rfl⟩), rfl, rfl⟩
      exact hcache.symm
  have hset : ∃ s', (cacheUser d userId u).gives s (.ok ()) s' := by
    unfold cacheUser
    split
    · exact ⟨s, rfl, rfl⟩
    · exact ⟨_, Call.gives_handle_ok (Call.gives_bind_ok.mpr ⟨now, s, gives_readClock.mpr rfl,
        Call.gives_withTx_ok.mpr gives_setKey⟩)⟩
  obtain ⟨s', hs'⟩ := hset
  refine ⟨s', Call.gives_bind_ok.mpr ⟨none, s, hcached, ?_⟩⟩
  refine Call.gives_bind_ok.mpr ⟨some u, s, Call.gives_retry_ok (Call.gives_withTx_ok.mpr hload), ?_⟩
  exact Call.gives_bind_ok.mpr ⟨(), s', hs', rfl, rfl⟩

/-- **`JwtStrategy.validate` takes any token of the member's**, whatever its type, that is signed with
the access secret and is not for impersonation. -/
theorem gives_authenticate_token (hm : Member s m) (hs : m.checkStatus = .ok ())
    (hcache : (s.get .authUser m.id).filter
      (fun (e : CacheEntry) => decide (now < e.expiresAt)) = none) {token : Jwt}
    (hsub : token.payload.sub = m.id) (himp : token.payload.imp = false)
    (hv : verify d.jwtSecret token now = some token.payload) :
    ∃ u s', (authenticate d token).gives s (.ok u) s' ∧ u.userId = m.id := by
  obtain ⟨o, ho, hmo⟩ := Option.map_eq_some_iff.mp hm.2
  have hload : (loadAuthUser m.id).gives s (some
      { orgId := m.user.orgId, email := m.user.email, status := m.user.status
        organization := some (o.status, o.slug) }) s := by
    refine Tx.gives_bind.mpr ⟨some m.user, s, gives_findById.mpr ⟨(live_any.mpr hm.1).symm, rfl⟩, ?_⟩
    refine Tx.gives_bind.mpr ⟨some o, s, gives_findById.mpr ⟨(live_any.mpr ⟨ho, rfl⟩).symm, rfl⟩, ?_⟩
    exact ⟨rfl, rfl⟩
  obtain ⟨s', hres⟩ := gives_resolveUser (d := d) hcache hload
  have hcheck : CachedAuthUser.check { orgId := m.user.orgId, email := m.user.email
                                       status := m.user.status
                                       organization := some (o.status, o.slug) } = .ok () := by
    have hmo' : m.organization = o := by rw [← hmo]
    unfold Membership.checkStatus at hs
    rw [hmo'] at hs
    split at hs
    · cases hs
    split at hs
    · cases hs
    · rename_i h1 h2
      simp [CachedAuthUser.check, h1, h2]
  refine ⟨{ userId := m.id, orgId := m.user.orgId, orgSlug := o.slug, email := m.user.email }, s',
    ?_, rfl⟩
  refine Call.gives_bind_ok.mpr ⟨now, s, gives_readClock.mpr rfl, ?_⟩
  have hval : (validate d token.payload).gives s (.ok
      { userId := m.id, orgId := m.user.orgId, orgSlug := o.slug, email := m.user.email }) s' := by
    unfold validate
    rw [hsub, himp]
    refine Call.gives_bind_ok.mpr ⟨_, s', hres, ?_⟩
    exact Call.gives_bind_ok.mpr ⟨(), s', Call.gives_ofExcept.mpr ⟨hcheck, rfl⟩, rfl, rfl⟩
  rw [hv]
  exact hval

theorem gives_authenticate_pending (hm : Member s m) (hs : m.checkStatus = .ok ())
    (hcache : (s.get .authUser m.id).filter
      (fun (e : CacheEntry) => decide (now < e.expiresAt)) = none) :
    ∃ u s', (authenticate d (pendingToken d m.id now)).gives s (.ok u) s' ∧ u.userId = m.id :=
  gives_authenticate_token hm hs hcache rfl rfl (by simp [verify, pendingToken, sign])

/-- The password opens the user: the account of his e-mail accepts it, or he does. -/
def Knows (s : Db) (u : User) (password : String) : Prop :=
  password ≠ "" ∧ ((∃ id r, s.get .account id = some r ∧ r.email = u.email.toLower ∧
    r.passwordHash.accepts password = true) ∨ u.passwordHash.accepts password = true)

/-- **Around the second factor**: the party signs in, and makes a request with the pending token. -/
theorem bypassed (h : WellFormed s) (hu : Live s .user userId u) (h2 : u.twoFactorEnabled = true)
    (he : isE2E u.email = false) (hk : Knows s u password)
    (hadm : Admitted d s userId) : ¬ NeverBypassed d s userId := by
  obtain ⟨m, hm, rfl, hv, hs⟩ := hadm
  obtain rfl : m.user = u := Option.some.inj (hm.1.1.symm.trans hu.1)
  obtain ⟨now, hnow⟩ := exists_uncached s m.id
  obtain ⟨profile, hlogin⟩ := gives_login h hm ⟨rfl, hk.2⟩ hk.1 hv hs h2 he now
  obtain ⟨au, s', hauth, hid⟩ := gives_authenticate_pending (d := d) hm hs hnow
  intro hnever
  have hrun : InTurn (Request.run d) (fun l _ r _ => ByParty d s l r) s
      [(.login m.user.email password (some m.user.orgId) false, some (.ok (.login
        (.requiresTwoFactor false (pendingToken d m.id now) profile m.option)))),
        (.authenticate (pendingToken d m.id now), some (.ok (.authenticated au)))] s' := by
    have hin : (Request.run d (.login m.user.email password (some m.user.orgId) false)).turn s
        (some (.ok (.login (.requiresTwoFactor false (pendingToken d m.id now) profile m.option)))) s :=
      Call.gives_bind_ok.mpr ⟨_, s, hlogin, rfl, rfl⟩
    have hfirst : InTurn (Request.run d) (fun l _ r _ => ByParty d s l r) s
        [(.login m.user.email password (some m.user.orgId) false, some (.ok (.login
          (.requiresTwoFactor false (pendingToken d m.id now) profile m.option))))] s :=
      .snoc .nil trivial hin
    have hparty : ByParty d s [(.login m.user.email password (some m.user.orgId) false,
        some (.ok (.login (.requiresTwoFactor false (pendingToken d m.id now) profile m.option))))]
        (.authenticate (pendingToken d m.id now)) := Or.inl (List.mem_singleton.mpr rfl)
    have hturn : (Request.run d (.authenticate (pendingToken d m.id now))).turn s
        (some (.ok (.authenticated au))) s' :=
      Call.gives_bind_ok.mpr ⟨au, s', hauth, rfl, rfl⟩
    exact hfirst.snoc hparty hturn
  exact hnever _ s' hrun _ au (List.mem_cons_of_mem _ List.mem_cons_self) hid

end Around

/-- **Two-factor is bypassed** just where the user may sign in at all: where his e-mail is verified, or
need not be, and neither he nor his organisation is suspended. -/
theorem neverBypassed_iff {userId : Id} {u : User} {password : String} (h : WellFormed s)
    (hu : Live s .user userId u) (h2 : u.twoFactorEnabled = true) (he : isE2E u.email = false)
    (hk : Knows s u password) : NeverBypassed d s userId ↔ ¬ Admitted d s userId := by
  constructor
  · exact fun hnever hadm => bypassed h hu h2 he hk hadm hnever
  · intro hno l s' hrun token u' hmem hid
    exact hno (hid ▸ (gained_of_run hrun).user hmem)

/-! ## A user with a second factor -/

/-- A member of an organisation, with a second factor. -/
def protectedUser : User :=
  { orgId := 1, email := "ada@example.org", passwordHash := ⟨"Correct1"⟩, status := .active
    emailVerified := true, twoFactorEnabled := true, twoFactorSecret := some "JBSWY3DP" }

def protectedStore : Db where
  tables
    | .organization => table [(1, { slug := "acme" })]
    | .user => table [(7, protectedUser)]
    | _ => ∅
  log := []

theorem protectedStore_user (h : Live protectedStore .user id u) :
    id = 7 ∧ u = protectedUser := by
  have hm := AList.mem_lookup_iff.mp h.1
  have he : (protectedStore.tables .user).entries = [⟨7, protectedUser⟩] := rfl
  rw [he, List.mem_singleton] at hm
  cases hm
  exact ⟨rfl, rfl⟩

theorem wellFormed_protectedStore : WellFormed protectedStore where
  unique := Rel.unique_of_entries (fun k => by cases k <;> decide) rfl
  organization h := by
    obtain ⟨-, rfl⟩ := protectedStore_user h
    exact ⟨_, rfl⟩
  email h := by
    obtain ⟨-, rfl⟩ := protectedStore_user h
    decide +kernel

theorem knows_protectedUser : Knows protectedStore protectedUser "Correct1" :=
  ⟨by decide, Or.inr (by decide)⟩

theorem admitted_protectedUser : Admitted {} protectedStore 7 :=
  ⟨⟨7, protectedUser, { slug := "acme" }, none⟩, ⟨⟨rfl, rfl⟩, rfl⟩, rfl, rfl, rfl⟩

/-- On such a store the equivalence tells that the second factor is bypassed. -/
theorem neverBypassed_iff_protectedStore : ¬ NeverBypassed {} protectedStore 7 := fun h =>
  (neverBypassed_iff wellFormed_protectedStore ⟨rfl, rfl⟩ rfl (by decide +kernel)
    knows_protectedUser).mp h admitted_protectedUser

/-- **Not every second factor** withstands a party that knows the password. -/
theorem exists_bypassed : ¬ ∀ (d : Deployment) (s : Db) (userId : Id) (u : User) (password : String),
    WellFormed s → Live s .user userId u → u.twoFactorEnabled = true → isE2E u.email = false →
      Knows s u password → NeverBypassed d s userId := fun h =>
  bypassed wellFormed_protectedStore ⟨rfl, rfl⟩ rfl (by decide +kernel) knows_protectedUser
    admitted_protectedUser (h {} protectedStore 7 protectedUser "Correct1"
      wellFormed_protectedStore ⟨rfl, rfl⟩ rfl (by decide +kernel) knows_protectedUser)

end PatronLoyalty.Accounts
