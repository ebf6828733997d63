import Mathlib.Data.Fintype.EquivFin
import PatronLoyalty.Accounts.TwoFactor

/-!
# Platform endpoints

`PlatformOperatorGuard`. A platform operator may use the endpoints of the platform once the
two-factor setup of the admin dashboard is enabled for him. The guard asks whether there is a setup,
and not whether the session has passed it.

A party that knows the operator's password, and no code of anyone's second factor, signs in, hands in
codes that nobody's second factor accepts, and makes requests with the tokens it is handed. Headline:
**`neverOnPlatform_iff`**. It gets to the platform's endpoints, unless the operator may not sign in at
all.
-/

namespace PatronLoyalty.Accounts

open Txn
open Loyalty (Id trim)

/-! ## The guard -/

/-- `user.findUnique`, with the slug of the organisation. -/
def findOperator (userId : Id) : ATx (Option (User × Option String)) := do
  match ← findById .user userId anyRow with
  | none => pure none
  | some (u : User) => do
    let organization ← findById .organization u.orgId anyRow
    pure (some (u, organization.map fun (o : Organization) => o.slug))

/-- `PlatformOperatorGuard.canActivate`; `bypass2FA` is the route's `BypassTwoFactor`. -/
def canActivateOperator (d : Deployment) (bypass2FA : Bool) (user : AuthenticatedUser) :
    ACall Unit := do
  match ← withBypassRls (findOperator user.userId) with
  | none => throw (.unauthorized "Authentication required")
  | some (dbUser, slug) => do
    let adminTwoFactor ← withBypassRls (loadAdminTwoFactorMemberships user.userId)
    let resolvedEmail := trim dbUser.email
    let resolvedSlug := trim (slug.getD user.orgSlug)
    if isPlatformOperator d user.userId resolvedEmail resolvedSlug = false then
      throw (.forbidden "Platform operator access required")
    else if bypass2FA = false ∧ (adminTwoFactor.any fun r => r.enabled) = false then
      throw (.forbidden "Admin Dashboard two-factor authentication is required")
    else pure ()

/-- A request to an endpoint of the platform: `JwtStrategy` and the guard. -/
def platformEndpoint (d : Deployment) (token : Jwt) (bypass2FA : Bool) : ACall AuthenticatedUser := do
  let user ← authenticate d token
  canActivateOperator d bypass2FA user
  pure user

inductive PlatformRequest
  | account (r : Request)
  | platform (token : Jwt) (bypass2FA : Bool)

def PlatformRequest.run (d : Deployment) : PlatformRequest → ACall Answer
  | .account r => r.run d
  | .platform token bypass2FA =>
    (platformEndpoint d token bypass2FA).bind fun u => .pure (.authenticated u)

variable {s s' a b : Db} {d : Deployment} {m : Membership} {userId : Id} {password : String}

/-! ## Operators -/

def IsOperator (d : Deployment) (s : Db) (userId : Id) : Prop :=
  ∃ u o, Live s .user userId u ∧ s.get .organization u.orgId = some o ∧
    isPlatformOperator d userId (trim u.email) (trim o.slug) = true

/-- The two-factor setup of the admin dashboard is enabled for the user, on one of the memberships that
share it. -/
def SetupEnabled (s : Db) (userId : Id) : Prop :=
  ∃ u, Live s .user userId u ∧ ∃ i v, Live s .user i v ∧ sharesSetup u v = true ∧
    v.adminTwoFactorEnabled = true

def accountTurns (l : List (PlatformRequest × Option (Except Err Answer))) :
    List (Request × Option (Except Err Answer)) :=
  l.filterMap fun x => match x.1 with
    | .account r => some (r, x.2)
    | .platform .. => none

/-- **What the party may ask for.** -/
def ByIntruder (d : Deployment) (s : Db) (l : List (PlatformRequest × Option (Except Err Answer))) :
    PlatformRequest → Prop
  | .account r => ByParty d s (accountTurns l) r
  | .platform token _ => token ∈ handed (accountTurns l) ∨
      token.secret ≠ d.jwtSecret ∧ token.secret ≠ d.refreshSecret

/-- **Platform endpoints require a second factor**: whatever the party does, none of its requests passes
as the operator on an endpoint that is not marked as bypassing two-factor. -/
def NeverOnPlatform (d : Deployment) (s : Db) (userId : Id) : Prop :=
  ∀ l s', InTurn (PlatformRequest.run d) (fun l _ r _ => ByIntruder d s l r) s l s' →
    ∀ token u, (.platform token false, some (.ok (.authenticated u))) ∈ l → u.userId ≠ userId

/-! ## What the party achieves -/

theorem walks_canActivateOperator {E : Db → Db → Prop} (bypass2FA : Bool)
    (user : AuthenticatedUser) : Call.Walks E (canActivateOperator d bypass2FA user) := by
  have hfind : Confined (fun _ => true) Err.recordNotFound alone E (findOperator user.userId) :=
    .bind (.read _) fun o => by
      cases o with
      | none => exact .pure _
      | some u => exact .bind (.read _) fun _ => .pure _
  refine .bind (.tx hfind) fun o => ?_
  cases o with
  | none => exact .throw _
  | some x =>
    exact .bind (.tx (e := .recordNotFound) (confined_loadAdminTwoFactorMemberships _)) fun _ =>
      .ite (.throw _) (.ite (.throw _) (.pure _))

theorem accountTurns_account (l : List (PlatformRequest × Option (Except Err Answer))) (r : Request)
    (o : Option (Except Err Answer)) :
    accountTurns (l ++ [(.account r, o)]) = accountTurns l ++ [(r, o)] := by
  simp [accountTurns, List.filterMap_append]

theorem accountTurns_platform (l : List (PlatformRequest × Option (Except Err Answer)))
    (token : Jwt) (bypass2FA : Bool) (o : Option (Except Err Answer)) :
    accountTurns (l ++ [(.platform token bypass2FA, o)]) = accountTurns l := by
  simp [accountTurns, List.filterMap_append]

/-- The party has been let in only as users that may sign in. -/
structure LetIn (d : Deployment) (s : Db) (l : List (PlatformRequest × Option (Except Err Answer)))
    (m : Db) : Prop where
  gained : Gained d s (accountTurns l) m
  user {token : Jwt} {bypass2FA : Bool} {u : AuthenticatedUser} :
    (.platform token bypass2FA, some (.ok (.authenticated u))) ∈ l → Admitted d s u.userId

/-- **One turn** of the party. -/
theorem LetIn.turn {l : List (PlatformRequest × Option (Except Err Answer))} {n n' : Db}
    {r : PlatformRequest} {o : Option (Except Err Answer)} (h : LetIn d s l n)
    (hr : ByIntruder d s l r) (ht : (r.run d).turn n o n') : LetIn d s (l ++ [(r, o)]) n' := by
  cases r with
  | account r =>
    refine ⟨?_, fun {token b u} hu => ?_⟩
    · rw [accountTurns_account]
      exact h.gained.turn hr ht
    · rcases List.mem_append.mp hu with hu | hu
      · exact h.user hu
      · cases (Prod.mk.inj (List.mem_singleton.mp hu)).1
  | platform token bypass2FA =>
    have hw : Call.Walks Standing (PlatformRequest.run d (.platform token bypass2FA)) :=
      .bind (.bind (walks_authenticate token) fun u =>
        .bind (walks_canActivateOperator bypass2FA u) fun _ => .pure _) fun _ => .pure _
    have hst : Standing n n' := by
      cases o with
      | none => exact .walk (hw n n' ht)
      | some x => exact .walk (hw.gives ht)
    refine ⟨?_, fun {token' b u} hu => ?_⟩
    · rw [accountTurns_platform]
      exact ⟨h.gained.standing.trans hst, h.gained.token, h.gained.user⟩
    · rcases List.mem_append.mp hu with hu | hu
      · exact h.user hu
      · obtain ⟨hreq, ho⟩ := Prod.mk.inj (List.mem_singleton.mp hu)
        cases hreq
        rw [← ho] at ht
        obtain ⟨v, s1, hv, hans⟩ := ht.seq
        cases hans.1
        obtain ⟨v', s2, hauth, hrest⟩ := hv.seq
        obtain ⟨_, s3, -, heq⟩ := hrest.seq
        cases heq.1
        obtain ⟨hsecret, hsub⟩ := gives_authenticate hauth
        rcases hr with hh | ⟨hne, -⟩
        · exact hsub ▸ h.gained.token hh
        · exact absurd hsecret hne

/-! ## Signing in without a second factor -/

/-- An identifier that no row has. -/
theorem exists_unused (s : Db) (k : Kind) : ∃ id, s.get k id = none := by
  obtain ⟨id, hid⟩ : ∃ id : ℕ, id ∉ (s.tables k).keys.toFinset := Infinite.exists_notMem_finset _
  refine ⟨id, AList.lookup_eq_none.mpr fun hmem => hid ?_⟩
  rwa [List.mem_toFinset, ← AList.mem_keys]

theorem exists_createSession {u : User} (hu : Live s .user userId u) (tokenHash : Sha256 Jwt)
    (expiresAt : ℕ) : ∃ id s', (createSession userId tokenHash expiresAt).gives s id s' ∧
      ∀ i, s'.get .authUser i = s.get .authUser i := by
  obtain ⟨id, hid⟩ := exists_unused s .session
  have hcreate : (create .session { userId, tokenHash, expiresAt }).gives s id
      (s.set .session id { userId, tokenHash, expiresAt }) := gives_create.mpr ⟨hid, rfl, rfl⟩
  exact ⟨id, _, Tx.gives_bind.mpr ⟨some u, s, gives_findById.mpr ⟨(live_any.mpr hu).symm, rfl⟩,
    hcreate⟩, fun i => Rel.get_set_ne (by simp)⟩

/-- The access token of a member, signed at the time `now`. -/
def accessTokenOf (d : Deployment) (m : Membership) (now : ℕ) : Jwt :=
  sign d.jwtSecret (sessionPayload m.id m.user.orgId m.organization.slug m.user.email)
    (orDefault d.accessTtl 900) now

theorem exists_issueTokens {u : User} (hu : Live s .user m.id u) (now : ℕ) :
    ∃ tokens s', (issueTokens d m).gives s (.ok tokens) s' ∧
      tokens.accessToken = accessTokenOf d m now ∧
      ∀ i, s'.get .authUser i = s.get .authUser i := by
  obtain ⟨id, s', hcreate, hcache⟩ := exists_createSession hu (sha256 (sign d.refreshSecret
    (sessionPayload m.id m.user.orgId m.organization.slug m.user.email)
    (orDefault d.refreshTtl 2592000) now)) (now + orDefault d.refreshTtl 604800 * 1000)
  refine ⟨⟨accessTokenOf d m now, sign d.refreshSecret
    (sessionPayload m.id m.user.orgId m.organization.slug m.user.email)
    (orDefault d.refreshTtl 2592000) now, orDefault d.accessTtl 900⟩, s', ?_, rfl, hcache⟩
  refine Call.gives_bind_ok.mpr ⟨now, s, gives_readClock.mpr rfl, ?_⟩
  refine Call.gives_bind_ok.mpr ⟨now, s, gives_readClock.mpr rfl, ?_⟩
  refine Call.gives_bind_ok.mpr ⟨now, s, gives_readClock.mpr rfl, ?_⟩
  exact Call.gives_bind_ok.mpr ⟨id, s', Call.gives_withTx_ok.mpr hcreate, rfl, rfl⟩

theorem exists_syncLegacyHash (password : String) {account : Option (Id × Account)}
    (users : List Membership) (m : Membership)
    (ha : ∀ id r, account = some (id, r) → s.get .account id = some r) :
    ∃ s', (syncLegacyHash password account users m).gives s (.ok ()) s' ∧
      (∀ i, s'.get .authUser i = s.get .authUser i) ∧ ∀ i, s'.get .user i = s.get .user i := by
  unfold syncLegacyHash
  cases account with
  | none => exact ⟨s, ⟨rfl, rfl⟩, fun _ => rfl, fun _ => rfl⟩
  | some acc =>
    simp only
    split
    · refine ⟨_, Call.gives_bind_ok.mpr ⟨{ acc.2 with passwordHash := m.user.passwordHash }, _,
        Call.gives_withTx_ok.mpr (gives_update.mpr ⟨acc.2, ⟨ha acc.1 acc.2 rfl, rfl⟩, rfl, rfl,
          Rel.clashes_of_keys_eq rfl, rfl⟩), rfl, rfl⟩, fun i => Rel.get_set_ne (by simp),
        fun i => Rel.get_set_ne (by simp)⟩
    · exact ⟨s, ⟨rfl, rfl⟩, fun _ => rfl, fun _ => rfl⟩

theorem exists_signedIn (password : String) {account : Option (Id × Account)}
    (users : List Membership)
    (ha : ∀ id r, account = some (id, r) → s.get .account id = some r) (hm : Member s m)
    (hv : m.checkEmailVerified d = .ok ()) (hs : m.checkStatus = .ok ())
    (h2 : (m.user.twoFactorEnabled && !isE2E m.user.email) = false) (now : ℕ) :
    ∃ profile tokens s', (signIn d false password account users m).gives s
        (.ok (.signedIn profile m.option tokens)) s' ∧
      tokens.accessToken = accessTokenOf d m now ∧
      ∀ i, s'.get .authUser i = s.get .authUser i := by
  obtain ⟨role, hrole⟩ := exists_roleName (s := s) m.id
  obtain ⟨s1, hsync, hc1, hu1⟩ := exists_syncLegacyHash password users m ha
  have hlive : Live s1 .user m.id m.user := ⟨(hu1 m.id).trans hm.1.1, hm.1.2⟩
  have htouch : (touchLastLogin m.user.orgId m.id now).gives s1
      { m.user with lastLoginAt := some now }
      (s1.set .user m.id { m.user with lastLoginAt := some now }) :=
    gives_update.mpr ⟨m.user, hlive, by simp, rfl, Rel.clashes_of_keys_eq rfl, rfl⟩
  obtain ⟨tokens, s2, hissue, htoken, hc2⟩ := exists_issueTokens (d := d) (m := m)
    (s := s1.set .user m.id { m.user with lastLoginAt := some now })
    (u := { m.user with lastLoginAt := some now }) ⟨Rel.get_set_self _ _ _ _, hm.1.2⟩ now
  refine ⟨m.profile d role, tokens, s2, ?_, htoken, fun i => ?_⟩
  · unfold signIn
    refine Call.gives_bind_ok.mpr ⟨(), s, Call.gives_ofExcept.mpr ⟨hv, rfl⟩, ?_⟩
    refine Call.gives_bind_ok.mpr ⟨(), s, Call.gives_ofExcept.mpr ⟨hs, rfl⟩, ?_⟩
    refine Call.gives_bind_ok.mpr ⟨role, s, hrole, ?_⟩
    refine Call.gives_bind_ok.mpr ⟨false, s, ⟨by rw [h2], rfl⟩, ?_⟩
    refine Call.gives_bind_ok.mpr ⟨(), s1, hsync, ?_⟩
    refine Call.gives_bind_ok.mpr ⟨now, s1, gives_readClock.mpr rfl, ?_⟩
    refine Call.gives_bind_ok.mpr ⟨_, _, Call.gives_withTx_ok.mpr htouch, ?_⟩
    exact Call.gives_bind_ok.mpr ⟨tokens, s2, hissue, rfl, rfl⟩
  · rw [hc2, Rel.get_set_ne (by simp), hc1]

/-! ## The way around the second factor -/

theorem Standing.symm (h : Standing a b) : Standing b a :=
  ⟨fun id => (h.user id).symm, fun id => (h.organization id).symm, fun id => (h.account id).symm⟩

theorem Standing.operator (h : Standing a b) (ha : IsOperator d a userId) :
    IsOperator d b userId := by
  obtain ⟨u, o, hu, ho, hop⟩ := ha
  obtain ⟨u', hu', hun⟩ := h.symm.live hu
  have horg : u'.orgId = u.orgId := undated_field User.orgId (fun _ => rfl) hun
  have hem : u'.email = u.email := undated_field User.email (fun _ => rfl) hun
  exact ⟨u', o, hu', by rw [horg, h.organization, ho], by rw [hem, hop]⟩

theorem Standing.setup (h : Standing a b) (ha : SetupEnabled a userId) : SetupEnabled b userId := by
  obtain ⟨u, hu, i, v, hv, hshare, hen⟩ := ha
  obtain ⟨u', hu', hun⟩ := h.symm.live hu
  obtain ⟨v', hv', hvn⟩ := h.symm.live hv
  refine ⟨u', hu', i, v', hv', ?_,
    (undated_field User.adminTwoFactorEnabled (fun _ => rfl) hvn).trans hen⟩
  have hacc : u'.accountId = u.accountId := undated_field User.accountId (fun _ => rfl) hun
  have hem : u'.email = u.email := undated_field User.email (fun _ => rfl) hun
  have hacc' : v'.accountId = v.accountId := undated_field User.accountId (fun _ => rfl) hvn
  have hem' : v'.email = v.email := undated_field User.email (fun _ => rfl) hvn
  unfold sharesSetup at hshare ⊢
  rw [hacc, hem, hacc', hem']
  exact hshare

theorem gives_canActivateOperator {u : AuthenticatedUser} (hop : IsOperator d s u.userId)
    (hset : SetupEnabled s u.userId) :
    (canActivateOperator d false u).gives s (.ok ()) s := by
  obtain ⟨v, o, hv, ho, hisop⟩ := hop
  obtain ⟨v', hv', i, w, hw, hshare, hen⟩ := hset
  obtain rfl : v' = v := Option.some.inj (hv'.1.symm.trans hv.1)
  have hfind : (findOperator u.userId).gives s (some (v', some o.slug)) s := by
    refine Tx.gives_bind.mpr ⟨some v', s, gives_findById.mpr ⟨(live_any.mpr hv).symm, rfl⟩, ?_⟩
    exact Tx.gives_bind.mpr ⟨some o, s, gives_findById.mpr ⟨(live_any.mpr ⟨ho, rfl⟩).symm, rfl⟩,
      rfl, rfl⟩
  have hload : (loadAdminTwoFactorMemberships u.userId).gives s (some (resolveAdminTwoFactor
      (seen .user (fun _ (x : User) => sharesSetup v' x) s))) s := by
    refine Tx.gives_bind.mpr ⟨some v', s, gives_findById.mpr ⟨(live_any.mpr hv).symm, rfl⟩, ?_⟩
    exact Tx.gives_bind.mpr ⟨_, s, gives_findMany.mpr ⟨rfl, rfl⟩, rfl, rfl⟩
  have hany : (resolveAdminTwoFactor (seen .user (fun _ (x : User) => sharesSetup v' x) s)).enabled =
      true := List.any_eq_true.mpr ⟨(i, w), mem_seen.mpr ⟨hw, hshare⟩, hen⟩
  refine Call.gives_bind_ok.mpr ⟨_, s, Call.gives_withTx_ok.mpr hfind, ?_⟩
  refine Call.gives_bind_ok.mpr ⟨_, s, Call.gives_withTx_ok.mpr hload, ?_⟩
  simp only [Option.getD_some, hisop, Option.any_some, hany]
  exact ⟨rfl, rfl⟩

/-- **The login hands out a token** that `JwtStrategy` takes, at any time, whether the second factor is
due or not. -/
theorem exists_token (h : WellFormed s) (hm : Member s m)
    (hmeets : Meets s m.user.email.toLower password m) (hpw : password ≠ "")
    (hv : m.checkEmailVerified d = .ok ()) (hs : m.checkStatus = .ok ()) (now : ℕ) :
    ∃ x s', (login d m.user.email password (some m.user.orgId) false).gives s (.ok x) s' ∧
      (∃ token ∈ x.tokens, token.payload.sub = m.id ∧ token.payload.imp = false ∧
        verify d.jwtSecret token now = some token.payload) ∧
      ∀ i, s'.get .authUser i = s.get .authUser i := by
  refine gives_login_of h hm hmeets hpw (F := fun x s' =>
    (∃ token ∈ x.tokens, token.payload.sub = m.id ∧ token.payload.imp = false ∧
      verify d.jwtSecret token now = some token.payload) ∧
    ∀ i, s'.get .authUser i = s.get .authUser i) fun account users ha _ => ?_
  cases h2 : m.user.twoFactorEnabled && !isE2E m.user.email with
  | true =>
    rw [Bool.and_eq_true, Bool.not_eq_true'] at h2
    obtain ⟨profile, hsign⟩ := gives_signIn (s := s) password account users hv hs h2.1 h2.2 now
    exact ⟨_, s, hsign, ⟨pendingToken d m.id now, List.mem_singleton.mpr rfl, rfl, rfl,
      by simp [verify, pendingToken, sign]⟩, fun _ => rfl⟩
  | false =>
    obtain ⟨profile, tokens, s', hsign, htoken, hcache⟩ := exists_signedIn password users
      (fun id r hr => (ha id r hr).1) hm hv hs h2 now
    refine ⟨_, s', hsign, ⟨accessTokenOf d m now, htoken ▸ List.mem_cons_self, rfl, rfl, ?_⟩, hcache⟩
    have hpos : 0 < orDefault d.accessTtl 900 := by
      unfold orDefault
      split <;> omega
    simp [verify, accessTokenOf, sign, hpos]

theorem exists_platformEndpoint (hm : Member s m) (hs : m.checkStatus = .ok ())
    (hop : IsOperator d s m.id) (hset : SetupEnabled s m.id) {now : ℕ}
    (hcache : (s.get .authUser m.id).filter
      (fun (e : CacheEntry) => decide (now < e.expiresAt)) = none) {token : Jwt}
    (hsub : token.payload.sub = m.id) (himp : token.payload.imp = false)
    (hv : verify d.jwtSecret token now = some token.payload) :
    ∃ u s', (platformEndpoint d token false).gives s (.ok u) s' ∧ u.userId = m.id := by
  obtain ⟨u, s', hauth, hid⟩ := gives_authenticate_token (d := d) hm hs hcache hsub himp hv
  have hst : Standing s s' := .walk ((walks_authenticate token).gives hauth)
  refine ⟨u, s', Call.gives_bind_ok.mpr ⟨u, s', hauth, ?_⟩, hid⟩
  refine Call.gives_bind_ok.mpr ⟨(), s', gives_canActivateOperator ?_ ?_, rfl, rfl⟩
  · rw [hid]
    exact hst.operator hop
  · rw [hid]
    exact hst.setup hset

/-- **Around the second factor**: the party signs in, and makes a request with what it is handed. -/
theorem onPlatform (h : WellFormed s) {u : User} (hu : Live s .user userId u)
    (hop : IsOperator d s userId) (hset : SetupEnabled s userId) (hk : Knows s u password)
    (hadm : Admitted d s userId) : ¬ NeverOnPlatform d s userId := by
  obtain ⟨m, hm, rfl, hv, hs⟩ := hadm
  obtain rfl : m.user = u := Option.some.inj (hm.1.1.symm.trans hu.1)
  obtain ⟨now, hnow⟩ := exists_uncached s m.id
  obtain ⟨x, s1, hlogin, ⟨token, htoken, hsub, himp, hverify⟩, hcache⟩ :=
    exists_token h hm ⟨rfl, hk.2⟩ hk.1 hv hs now
  have hst : Standing s s1 := by
    obtain ⟨hw, -⟩ := keeps_login.gives _ _ hlogin
    exact hw.standing
  obtain ⟨m', hm', hid, -, hs'⟩ := hst.symm.admitted (d := d) ⟨m, hm, rfl, hv, hs⟩
  rw [← hid] at hop hset hnow hsub
  obtain ⟨au, s2, hend, hau⟩ := exists_platformEndpoint hm' hs' (hst.operator hop) (hst.setup hset)
    (by rw [hcache]; exact hnow) hsub himp hverify
  intro hnever
  have hrun : InTurn (PlatformRequest.run d) (fun l _ r _ => ByIntruder d s l r) s
      [(.account (.login m.user.email password (some m.user.orgId) false),
          some (.ok (.login x))),
        (.platform token false, some (.ok (.authenticated au)))] s2 := by
    have hfirst : InTurn (PlatformRequest.run d) (fun l _ r _ => ByIntruder d s l r) s
        [(.account (.login m.user.email password (some m.user.orgId) false),
          some (.ok (.login x)))] s1 :=
      .snoc .nil trivial (Call.gives_bind_ok.mpr ⟨_, s1, hlogin, rfl, rfl⟩)
    have hhanded : ByIntruder d s [(.account (.login m.user.email password (some m.user.orgId)
        false), some (.ok (.login x)))] (.platform token false) :=
      Or.inl (by simpa [accountTurns, handed, Answer.tokens] using htoken)
    have hturn : (PlatformRequest.run d (.platform token false)).turn s1
        (some (.ok (.authenticated au))) s2 :=
      Call.gives_bind_ok.mpr ⟨au, s2, hend, rfl, rfl⟩
    exact hfirst.snoc hhanded hturn
  exact hnever _ s2 hrun token au (List.mem_cons_of_mem _ List.mem_cons_self) (hau.trans hid)

/-- **The second factor of an operator is never asked for** where the operator may sign in at all: where
his e-mail is verified, or need not be, and neither he nor his organisation is suspended. -/
theorem neverOnPlatform_iff {u : User} (h : WellFormed s) (hu : Live s .user userId u)
    (hop : IsOperator d s userId) (hset : SetupEnabled s userId) (hk : Knows s u password) :
    NeverOnPlatform d s userId ↔ ¬ Admitted d s userId := by
  constructor
  · exact fun hnever hadm => onPlatform h hu hop hset hk hadm hnever
  · intro hno l s' hrun token u' hmem hid
    have hin : LetIn d s l s' := hrun.keeps ⟨⟨.refl s, nofun, nofun⟩, nofun⟩
      fun _ _ _ _ _ hg hr ht => hg.turn hr ht
    exact hno (hid ▸ hin.user hmem)

/-! ## An operator with a setup -/

def operatorUser : User :=
  { orgId := 1, email := "ada@example.org", passwordHash := ⟨"Correct1"⟩, status := .active
    emailVerified := true, adminTwoFactorEnabled := true
    adminTwoFactorSecret := some "JBSWY3DP" }

def operatorStore : Db where
  tables
    | .organization => table [(1, { slug := "queueplatform-internal" })]
    | .user => table [(7, operatorUser)]
    | _ => ∅
  log := []

theorem operatorStore_user {id : Id} {u : User} (h : Live operatorStore .user id u) :
    id = 7 ∧ u = operatorUser := by
  have hm := AList.mem_lookup_iff.mp h.1
  have he : (operatorStore.tables .user).entries = [⟨7, operatorUser⟩] := rfl
  rw [he, List.mem_singleton] at hm
  cases hm
  exact ⟨rfl, rfl⟩

theorem wellFormed_operatorStore : WellFormed operatorStore where
  unique := Rel.unique_of_entries (fun k => by cases k <;> decide) rfl
  organization h := by
    obtain ⟨-, rfl⟩ := operatorStore_user h
    exact ⟨_, rfl⟩
  email h := by
    obtain ⟨-, rfl⟩ := operatorStore_user h
    decide +kernel

theorem isOperator_operatorStore : IsOperator {} operatorStore 7 :=
  ⟨operatorUser, { slug := "queueplatform-internal" }, ⟨rfl, rfl⟩, rfl, by decide +kernel⟩

theorem setupEnabled_operatorStore : SetupEnabled operatorStore 7 :=
  ⟨operatorUser, ⟨rfl, rfl⟩, 7, operatorUser, ⟨rfl, rfl⟩, by decide +kernel, rfl⟩

theorem knows_operatorUser : Knows operatorStore operatorUser "Correct1" :=
  ⟨by decide, Or.inr (by decide)⟩

theorem admitted_operatorUser : Admitted {} operatorStore 7 :=
  ⟨⟨7, operatorUser, { slug := "queueplatform-internal" }, none⟩, ⟨⟨rfl, rfl⟩, rfl⟩, rfl, rfl, rfl⟩

/-- On such a store the equivalence tells that the party gets to the platform. -/
theorem neverOnPlatform_iff_operatorStore : ¬ NeverOnPlatform {} operatorStore 7 := fun h =>
  (neverOnPlatform_iff wellFormed_operatorStore ⟨rfl, rfl⟩ isOperator_operatorStore
    setupEnabled_operatorStore knows_operatorUser).mp h admitted_operatorUser

/-- **Not every operator** is protected by his second factor. -/
theorem exists_on_platform : ¬ ∀ (d : Deployment) (s : Db) (userId : Id) (u : User)
    (password : String), WellFormed s → Live s .user userId u → IsOperator d s userId →
      SetupEnabled s userId → Knows s u password → NeverOnPlatform d s userId := fun h =>
  onPlatform wellFormed_operatorStore ⟨rfl, rfl⟩ isOperator_operatorStore
    setupEnabled_operatorStore knows_operatorUser admitted_operatorUser
    (h {} operatorStore 7 operatorUser "Correct1" wellFormed_operatorStore ⟨rfl, rfl⟩
      isOperator_operatorStore setupEnabled_operatorStore knows_operatorUser)

end PatronLoyalty.Accounts
