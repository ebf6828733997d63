import PatronLoyalty.Accounts.Impersonation

/-!
# Impersonation is bounded

The blacklist is written and read as best effort: a session whose `SET` fails stays open, and so does one
whose `GET` fails. Operators of the allow-list are let in by `JwtStrategy`, and then the permission guard
takes them for nobody in particular, because it goes by the slug of the platform's own organisation.

Headline: **`impersonation_bounded`**. A session ends, expires, and acts as a member with its role alone, as
long as Redis carries out its commands and the operator belongs to that organisation.
-/

namespace PatronLoyalty.Accounts

open Txn
open Auth (SystemRole normalizeSystemRoleName)
open Loyalty (Id truthy)

abbrev ImpersonationRun := Config Db DbWrite Err Mark ImpersonationAnswer

abbrev ImpersonationLine := Entry Db Err Mark ImpersonationAnswer

variable {d : Deployment} {handlers : ℕ → Handler} {requests : List ImpersonationRequest}
  {s s₀ a b : Db} {c : ImpersonationRun} {session : ImpersonationStartResult} {token : Jwt}
  {userId : Id}

/-! ## The statement -/

/-- The user belongs to organisation `home`, which is the platform's own, in the cache as well. -/
structure InternalOperator (userId home : Id) (s : Db) : Prop where
  user {u : User} : Live s .user userId u → u.orgId = home
  slug : ∃ o, s.get .organization home = some o ∧ o.slug = "queueplatform-internal"
  cached {e : CacheEntry} {v : CachedAuthUser} : s.get .authUser userId = some e →
    e.user = some v → v.organization.map (·.2) = some "queueplatform-internal"

/-- **The last command of a request** has been carried out, at a time that meets `p`. -/
def Landed (p : ℕ → Prop) (h : List ImpersonationLine) : Prop :=
  ∃ h₀ now a b, h = h₀ ++ [.emit (.clock now)] ++ [.commit a b] ∧ p now

/-- **Bounded**, and it ends. -/
structure Bounded (requests : List ImpersonationRequest) (c : ImpersonationRun)
    (session : ImpersonationStartResult) : Prop where
  /-- Once it has been ended, no further request with its token is let in. -/
  ends {q j i p : ℕ} {token : Jwt} {x y : ImpersonationAnswer} :
    requests[j]? = some (.endImpersonation token) →
      token.payload.jti = session.accessToken.payload.jti →
        c.trace[q]? = some (j, .answer (.ok x)) →
          requests[i]? = some (.authenticate session.accessToken) →
            linesOf i (c.trace.take q) = [] → c.trace[p]? ≠ some (i, .answer (.ok y))
  /-- A request that is let in has read the clock before it expires. -/
  expires {i p : ℕ} {y : ImpersonationAnswer} :
    requests[i]? = some (.authenticate session.accessToken) →
      c.trace[p]? = some (i, .answer (.ok y)) →
        ∃ now, Entry.emit (.clock now) ∈ linesOf i (c.trace.take p) ∧
          now / 1000 < session.accessToken.exp
  /-- With a role it is let in where a member is whose only assignment is that role there. -/
  acts {i p : ℕ} {u : AuthenticatedUser} {role : SystemRole} {branchId : Option Id} :
    requests[i]? = some (.authenticate session.accessToken) →
      c.trace[p]? = some (i, .answer (.ok (.authenticated u))) →
        session.simulation = some (role, branchId) →
          ∀ (t : Auth.Tables) (required : List Auth.RequiredPermission) (listRead : Bool)
            (request : Auth.Request) (member : Auth.User) (memberId : String),
            member.impersonation = false → Auth.userIdOf member = some memberId →
              member.orgId = idText session.targetOrganization.1 →
                Auth.OnlyAssignment t memberId member.orgId role (branchId.map idText) →
                  Auth.canActivate t required listRead (some u.principal) request =
                    Auth.canActivate t required listRead (some member) request

/-- **The condition on Redis and the clock.** -/
structure Carried (requests : List ImpersonationRequest) (c : ImpersonationRun) (token : Jwt) :
    Prop where
  /-- The `SET` of a request that ends a session is carried out. -/
  set {q j : ℕ} {token' : Jwt} {x : ImpersonationAnswer} :
    requests[j]? = some (.endImpersonation token') → c.trace[q]? = some (j, .answer (.ok x)) →
      Landed (fun _ => True) (linesOf j (c.trace.take q))
  /-- The `GET` of a request with the token is, and before the token expires. -/
  get {p i : ℕ} {y : ImpersonationAnswer} : requests[i]? = some (.authenticate token) →
    c.trace[p]? = some (i, .answer (.ok y)) →
      Landed (fun now => now / 1000 < token.exp) (linesOf i (c.trace.take p))
  /-- No session is ended at a time before the token was issued. -/
  clock {j now : ℕ} {token' : Jwt} : requests[j]? = some (.endImpersonation token') →
    (j, .emit (.clock now)) ∈ c.trace → token.iat * 1000 ≤ now

/-! ## Sessions -/

structure IsSession (d : Deployment) (userId : Id) (session : ImpersonationStartResult) : Prop where
  secret : session.accessToken.secret = d.jwtSecret
  exp : session.accessToken.exp =
    session.accessToken.iat + (d.impersonationAccessTtl : ℕ)
  sub : session.accessToken.payload.sub = userId
  imp : session.accessToken.payload.imp = true
  org : session.accessToken.payload.actAsOrgId = some session.targetOrganization.1
  jti : ∃ jti, session.accessToken.payload.jti = some jti
  role {role : SystemRole} {branchId : Option Id} : session.simulation = some (role, branchId) →
    session.accessToken.payload.actAsRole = some role.name ∧
      session.accessToken.payload.actAsBranchId = branchId ∧
        Auth.simulatedBranch role (branchId.map idText) = branchId.map idText

theorem gives_resolveSimulatedBranch {orgId : Id} {role : Option SystemRole}
    {chosen branchId : Option Id} {s' : Db}
    (h : (resolveSimulatedBranch orgId role chosen).gives s (.ok branchId) s') {r : SystemRole}
    (hr : role = some r) :
    Auth.simulatedBranch r (branchId.map idText) = branchId.map idText := by
  subst hr
  unfold Auth.simulatedBranch
  split
  · rfl
  · rename_i hb
    unfold resolveSimulatedBranch at h
    rw [Option.any_some, if_neg hb] at h
    cases (Call.gives_pure.mp h).1
    rfl

/-- **What a session is.** -/
theorem gives_startImpersonation {email : String} {orgId : Id} {options : ImpersonationStartOptions}
    {s' : Db} (h : (startImpersonation d userId email orgId options).gives s (.ok session) s') :
    IsSession d userId session := by
  obtain ⟨operator, s1, -, h1⟩ := h.seq
  dsimp only at h1
  split at h1
  · exact (Call.not_gives_throw h1).elim
  · rename_i u slug hf
    obtain ⟨org, s2, -, h2⟩ := h1.seq
    cases org with
    | none => exact (Call.not_gives_throw h2).elim
    | some org =>
      dsimp only at h2
      split at h2
      · exact (Call.not_gives_throw h2).elim
      · obtain ⟨branchId, s3, hbranch, h3⟩ := h2.seq
        obtain ⟨_, s4, -, h4⟩ := h3.seq
        obtain ⟨jti, s5, -, h5⟩ := h4.seq
        obtain ⟨now, s6, -, h6⟩ := h5.seq
        cases (Call.gives_pure.mp h6).1
        refine ⟨rfl, rfl, rfl, rfl, rfl, ⟨jti, rfl⟩, fun {role b} hs => ?_⟩
        obtain ⟨r, hr, heq⟩ := Option.map_eq_some_iff.mp hs
        cases heq
        exact ⟨by simp [sign, impersonationPayload, hr], rfl, gives_resolveSimulatedBranch hbranch hr⟩

/-! ## What the requests commit -/

theorem SameBlacklist.refl (a : Db) : SameBlacklist a a := fun _ => rfl

theorem SameBlacklist.walk (h : Relation.ReflTransGen SameBlacklist a b) : SameBlacklist a b := by
  induction h with
  | refl => exact .refl a
  | tail _ hs ih => exact fun jti => (hs jti).trans (ih jti)

/-- A part of a request that leaves the blacklist. -/
abbrev Leaves {β : Type} (c : ACall β) : Prop :=
  Steady (fun _ => true) Err.recordNotFound anything SameBlacklist (fun _ => True)
    ImpersonationAnswer c

theorem leaves_tx {β : Type} {t : ATx β}
    (ht : Confined (fun _ => true) .recordNotFound anything SameBlacklist t) :
    Leaves (withBypassRls t) := .tx ht fun _ _ _ => trivial

theorem leaves_readClock : Leaves readClock :=
  .bind .input fun _ => .bind (.fire trivial) fun _ => .pure _

theorem leaves_platformAuditLog : Leaves platformAuditLog :=
  .handle (leaves_tx (.pure ())) fun _ => .pure _

theorem leaves_cacheUser (userId : Id) (u : CachedAuthUser) : Leaves (cacheUser d userId u) :=
  .ite (.pure _) (.handle (.bind leaves_readClock fun _ =>
    leaves_tx (confined_setKey rfl fun _ a b hw jti => by
      rw [hw.2.2.2, Rel.get_set_ne (by simp)])) fun _ => .pure _)

theorem leaves_resolveUser (userId : Id) : Leaves (resolveUser d userId) := by
  refine .bind (.ite (.pure _) (.handle (.bind leaves_readClock fun _ =>
    .bind (leaves_tx (.read _)) fun _ => .pure _) fun _ => .pure _)) fun o => ?_
  cases o with
  | some u => exact .pure _
  | none =>
    refine .bind (.retry (leaves_tx (.bind (.read _) fun o => ?_))) fun o => ?_
    · cases o with
      | none => exact .pure _
      | some u => exact .bind (.read _) fun _ => .pure _
    · cases o with
      | none => exact .pure _
      | some u => exact .bind (leaves_cacheUser userId u) fun _ => .pure _

theorem leaves_isBlacklisted (jti : Option Id) : Leaves (isBlacklisted jti) := by
  cases jti with
  | none => exact .pure _
  | some jti =>
    exact .handle (.bind leaves_readClock fun _ => .bind (leaves_tx (.read _)) fun _ => .pure _)
      fun _ => .pure _

theorem leaves_authenticate (token : Jwt) : Leaves (authenticate d token) := by
  refine .bind leaves_readClock fun now => ?_
  cases verify d.jwtSecret token now with
  | none => exact .throw _
  | some payload =>
    refine .bind (leaves_resolveUser _) fun o => ?_
    cases o with
    | none => exact .throw _
    | some u =>
      refine .bind (.ofExcept _) fun _ => ?_
      split
      · exact .bind (leaves_tx (.read _)) fun _ => .ite (.throw _) (.ite (.throw _)
          (.bind (leaves_isBlacklisted _) fun _ => .ite (.throw _) (.pure _)))
      · exact .pure _

theorem confined_findOperator {E : Db → Db → Prop} {G : Guarantee Db} (userId : Id) :
    Confined (fun _ => true) Err.recordNotFound G E (findOperator userId) :=
  .bind (.read _) fun o => by
    cases o with
    | none => exact .pure _
    | some u => exact .bind (.read _) fun _ => .pure _

theorem leaves_platformEndpoint (token : Jwt) (bypass2FA : Bool) :
    Leaves (platformEndpoint d token bypass2FA) := by
  refine .bind (leaves_authenticate token) fun user => .bind (.bind
    (leaves_tx (confined_findOperator _)) fun o => ?_) fun _ => .pure _
  cases o with
  | none => exact .throw _
  | some x =>
    exact .bind (leaves_tx (confined_loadAdminTwoFactorMemberships _)) fun _ =>
      .ite (.throw _) (.ite (.throw _) (.pure _))

theorem leaves_startEndpoint (token : Jwt) (orgId : Id) (options : ImpersonationStartOptions) :
    Leaves (startEndpoint d token orgId options) := by
  refine .bind (leaves_platformEndpoint token false) fun user =>
    .bind (leaves_tx (confined_findOperator _)) fun o => ?_
  dsimp only
  split
  · exact .throw _
  · refine .bind (leaves_tx (.read _)) fun org => ?_
    cases org with
    | none => exact .throw _
    | some org =>
      refine .ite (.throw _) (.bind (.ite ?_ (.pure _)) fun _ => .bind leaves_platformAuditLog
        fun _ => .bind .input fun _ => .bind leaves_readClock fun _ => .pure _)
      cases options.branchId with
      | some branchId =>
        refine .bind (leaves_tx (.read _)) fun o => ?_
        cases o with
        | none => exact .throw _
        | some _ => exact .pure _
      | none =>
        refine .bind (leaves_tx (.findFirst _)) fun o => ?_
        cases o with
        | none => exact .throw _
        | some _ => exact .pure _

/-- The key of a session is set, at the time the history tells last. -/
def SetsKey (d : Deployment) (h : List ImpersonationLine) (a b : Db) : Prop :=
  ∃ jti now, h.getLast? = some (.emit (.clock now)) ∧
    b = a.set .blacklist jti { expiresAt := now + (d.impersonationAccessTtl : ℕ) * 1000 }

/-- **What a commit of the request does.** -/
def KeyStep (d : Deployment) (r : ImpersonationRequest) (h : List ImpersonationLine) (a b : Db) :
    Prop :=
  match r with
  | .endImpersonation _ => SameBlacklist a b ∨ SetsKey d h a b
  | _ => SameBlacklist a b

theorem Leaves.describes {β : Type} {c : ACall β} {r : ImpersonationRequest} (hc : Leaves c) :
    Describes (fun _ => true) Err.recordNotFound anything (KeyStep d r) (fun _ => True) c
      fun _ _ => True :=
  Steady.describes hc (fun _ _ _ _ => trivial) fun h a b _ hw => by
    cases r with
    | endImpersonation => exact Or.inl (.walk hw)
    | startImpersonation | authenticate | handler => exact .walk hw

theorem describes_blacklistJti {token : Jwt} {jti : Id} :
    Describes (fun _ => true) Err.recordNotFound anything (KeyStep d (.endImpersonation token))
      (fun _ => True) (blacklistJti d jti) fun _ _ => True := by
  refine .handle (.bind (Ψ := fun now h => h.getLast? = some (.emit (.clock now))) (.bind
    (Ψ := fun _ _ => True) (.input fun _ _ _ => trivial) fun now => .bind
      (Ψ := fun _ h => h.getLast? = some (.emit (.clock now))) (.fire fun h _ => by simp)
        fun _ => .pure fun _ hh => hh) fun now => .tx (R := fun _ _ a c =>
          c = a.set .blacklist jti _) (fun h _ => triple_setKey rfl fun old a b c hp hw => ?_)
            fun h _ a c hh hr => ⟨trivial, Or.inr ⟨jti, now, hh, hr⟩, trivial⟩)
    fun _ => .pure fun _ _ => trivial
  rw [hw.2.2.2, hp.2]

theorem describes_impersonation (r : ImpersonationRequest) :
    Describes (fun _ => true) Err.recordNotFound anything (KeyStep d r) (fun _ => True)
      (r.run d handlers) fun _ _ => True := by
  cases r with
  | startImpersonation token orgId options =>
    exact Leaves.describes (.bind (leaves_startEndpoint token orgId options) fun _ => .pure _)
  | authenticate token =>
    exact Leaves.describes (.bind (leaves_authenticate token) fun _ => .pure _)
  | handler n => exact Leaves.describes (.bind (handlers n).leaves fun _ => .pure _)
  | endImpersonation token =>
    refine .bind (Ψ := fun _ _ => True) (.bind (Leaves.describes (leaves_platformEndpoint token false))
      fun user => ?_) fun _ => .pure fun _ _ => trivial
    split
    · exact .throw
    · refine .bind (Leaves.describes leaves_platformAuditLog) fun _ => ?_
      cases user.jti with
      | none => exact .pure fun _ _ => trivial
      | some jti => exact describes_blacklistJti

/-! ## What JwtStrategy lets in -/

section Under

variable {A : Db → Prop} {P : List ImpersonationLine → Prop} {payload : JwtPayload}

theorem under_readClock : Under A P readClock fun now (h : List ImpersonationLine) =>
    ∃ h0, P h0 ∧ h = h0 ++ [.emit (.clock now)] :=
  .bind (M := fun _ => P) (.input fun _ _ hh => hh) fun now => .bind
    (M := fun _ h => ∃ h0, P h0 ∧ h = h0 ++ [.emit (.clock now)]) (.fire fun h hh => ⟨h, hh, rfl⟩)
      fun _ => .pure fun _ hh => hh

/-- **Who is let in** by the claims: the user found meets `S`, and the history `B`. -/
structure LetInBy (payload : JwtPayload) (S : CachedAuthUser → Prop)
    (B : List ImpersonationLine → Prop) (u : AuthenticatedUser) (h : List ImpersonationLine) :
    Prop where
  jti : u.impersonation = true → u.jti = payload.jti
  acting {org : Id} : payload.imp = true → payload.actAsOrgId = some org → B h ∧
    ∃ v, S v ∧ u = { userId := payload.sub, orgId := org, email := v.email, impersonation := true
                     orgSlug := (v.organization.map (·.2)).getD payload.orgSlug
                     actAsRole := payload.actAsRole, actAsBranchId := payload.actAsBranchId
                     jti := payload.jti }

theorem under_validate {S : CachedAuthUser → Prop} {B : List ImpersonationLine → Prop}
    (hS : Under A P (resolveUser d payload.sub)
      fun o (_ : List ImpersonationLine) => ∀ v, o = some v → S v)
    (hB : Under A (fun _ => True) (isBlacklisted payload.jti) fun ended h => ended = false → B h) :
    Under A P (validate d payload) (LetInBy payload S B) := by
  refine .bind hS fun o => ?_
  cases o with
  | none => exact .throw
  | some v =>
    refine Under.bind (M := fun _ _ => S v) (.ofExcept fun _ _ _ hv => hv v rfl) fun _ => ?_
    split
    · rename_i org himp horg
      refine .bind (M := fun _ _ => S v) (Under.lasts fun _ _ hv => hv) fun o =>
        .ite (fun _ => .throw) fun _ => .ite (fun _ => .throw) fun _ => .fact fun hv =>
          .bind hB fun ended => ?_
      refine .ite (fun _ => .throw) fun hended => .pure fun h hh => ⟨fun _ => rfl, ?_⟩
      rintro org' - horg'
      obtain rfl := Option.some.inj (horg.symm.trans horg')
      exact ⟨hh (by simpa using hended), v, hv, rfl⟩
    · rename_i hne
      exact .pure fun h _ => ⟨fun hi => (by cases hi), fun himp horg => (hne _ himp horg).elim⟩

theorem under_authenticate {S : CachedAuthUser → Prop} {B : List ImpersonationLine → Prop}
    (hS : Under A (fun _ => True) (resolveUser d token.payload.sub)
      fun o (_ : List ImpersonationLine) => ∀ v, o = some v → S v)
    (hB : Under A (fun _ => True) (isBlacklisted token.payload.jti)
      fun ended h => ended = false → B h) :
    Under A P (authenticate d token) (LetInBy token.payload S B) := by
  refine .bind .any fun now => ?_
  cases hv : verify d.jwtSecret token now with
  | none => exact .throw
  | some payload =>
    obtain rfl : payload = token.payload := by
      unfold verify at hv
      split at hv
      · exact (Option.some.inj hv).symm
      · cases hv
    exact under_validate hS hB

/-- **Expired tokens** are refused. -/
theorem under_expiry : Under A P (authenticate d token) fun _ (h : List ImpersonationLine) =>
    ∃ now, Entry.emit (.clock now) ∈ h ∧ now / 1000 < token.exp := by
  refine .bind under_readClock fun now => ?_
  cases hv : verify d.jwtSecret token now with
  | none => exact .throw
  | some payload =>
    have hexp : now / 1000 < token.exp := by
      unfold verify at hv
      split at hv
      · rename_i h
        exact h.2
      · cases hv
    refine Under.pre (P := fun h => ∃ now, Entry.emit (.clock now) ∈ h ∧ now / 1000 < token.exp)
      (Under.lasts ?_) ?_
    · rintro l e ⟨n, hn, hlt⟩
      exact ⟨n, List.mem_append_left _ hn, hlt⟩
    · rintro h ⟨h0, -, rfl⟩
      exact ⟨now, List.mem_append_right _ (List.mem_singleton.mpr rfl), hexp⟩

/-! ## The blacklist -/

def KeyHeld (token : Jwt) (jti : Id) (s : Db) : Prop :=
  ∃ e, s.get .blacklist jti = some e ∧ token.exp * 1000 ≤ e.expiresAt

/-- **The request has set the key** of the session, unless its last command has failed. -/
def EndsKey (d : Deployment) (jti : Id) (h : List ImpersonationLine) : Prop :=
  ∃ h₀ now l, h = h₀ ++ [.emit (.clock now)] ++ [l] ∧ ∀ a b, l = .commit a b →
    b.get .blacklist jti =
      some { expiresAt := now + (d.impersonationAccessTtl : ℕ) * 1000 }

theorem under_blacklistJti {jti : Id} :
    Under A P (blacklistJti d jti) fun _ => EndsKey d jti := by
  refine .bind under_readClock fun now => ?_
  have hset : Under A (fun h => ∃ h0, P h0 ∧ h = h0 ++ [.emit (.clock now)])
      (((Call.withTx (setKey .blacklist jti
          { expiresAt := now + (d.impersonationAccessTtl : ℕ) * 1000 }) :
        ACall Unit).bind fun u => .pure (id u)).handle fun _ => .pure ())
      fun _ (h : List ImpersonationLine) => EndsKey d jti h := by
    refine .attempt (.write (e := .recordNotFound) (triple_setKey rfl
      (Q := fun _ _ c => c.get .blacklist jti =
        some { expiresAt := now + (d.impersonationAccessTtl : ℕ) * 1000 })
      fun old a b c hp hw => by rw [hw.2.2.2, Rel.get_set_self]) ?_) (fun _ _ hh => hh) ?_
    · rintro u h a b ⟨h0, -, rfl⟩ hget
      exact ⟨h0, now, _, rfl, fun _ _ hl => by cases hl; exact hget⟩
    · rintro e h ⟨h0, -, rfl⟩
      exact ⟨h0, now, _, rfl, fun _ _ hl => by cases hl⟩
  exact hset

/-- **Ending a session** sets the key of its token. -/
theorem under_endEndpoint : Under A P (endEndpoint d token) fun _ (h : List ImpersonationLine) =>
    ∀ jti, token.payload.jti = some jti → EndsKey d jti h := by
  refine .bind (M := fun u (_ : List ImpersonationLine) =>
    u.impersonation = true → u.jti = token.payload.jti) (.bind (under_authenticate
      (S := fun _ => True) (B := fun _ => True) (Under.any.post fun _ _ _ _ _ => trivial)
        (Under.any.post fun _ _ _ _ => trivial)) fun u => .bind (M := fun _ _ =>
          u.impersonation = true → u.jti = token.payload.jti) ?_ fun _ => .pure fun _ hh => hh)
    fun u => .ite (fun _ => .throw) fun himp => .bind (M := fun _ _ =>
      u.impersonation = true → u.jti = token.payload.jti) (.lasts fun _ _ hh => hh) fun _ => ?_
  · exact Under.pre (Under.lasts fun _ _ hh => hh) fun _ hh => hh.jti
  · refine .fact fun hjti => ?_
    have hj : u.jti = token.payload.jti := hjti (by simpa using himp)
    rw [hj]
    cases token.payload.jti with
    | none => exact .pure fun _ _ v hv => by cases hv
    | some jti =>
      exact under_blacklistJti.post fun _ h hh jti' heq => by cases heq; exact hh

/-- **A session that has been ended** is found on the blacklist, if the `GET` is carried out in time. -/
theorem under_isBlacklisted {jti : Id} : Under (KeyHeld token jti) P (isBlacklisted (some jti))
    fun ended h => ended = false → ¬ Landed (fun now => now / 1000 < token.exp) h := by
  refine .bind under_readClock fun now => .attempt
    (M := fun o h => o = none → ∃ h0 a b, h = h0 ++ [.emit (.clock now)] ++ [.commit a b] ∧
      token.exp * 1000 ≤ now) (.tx (F := fun o => o = none → token.exp * 1000 ≤ now)
        (.read fun s hs ho => ?_) ?_) ?_ ?_
  · obtain ⟨e, he, hle⟩ := hs
    by_contra hlt
    have hin : (s.get .blacklist jti).filter (fun r => !gone .blacklist r &&
        decide (now < r.expiresAt)) = some e := by
      rw [he]
      exact Option.filter_some_pos (by simp [gone]; omega)
    rw [ho] at hin
    cases hin
  · rintro o l a b ⟨h0, -, rfl⟩ ho hn
    exact ⟨h0, a, b, rfl, ho hn⟩
  · rintro o h hM hnone ⟨h1, n, a, b, heq, hlt⟩
    obtain ⟨h0, a', b', rfl, hle⟩ := hM (by simpa using hnone)
    obtain ⟨heq, -⟩ := List.append_inj' heq rfl
    obtain ⟨-, heq⟩ := List.append_inj' heq rfl
    cases heq
    omega
  · rintro e h - - ⟨h1, n, a, b, heq, -⟩
    obtain ⟨-, heq⟩ := List.append_inj' heq rfl
    cases heq

/-! ## The operator -/

/-- The organisation is the platform's own. -/
def Internal (v : CachedAuthUser) : Prop :=
  v.organization.map (·.2) = some "queueplatform-internal"

theorem Internal.eq {v : CachedAuthUser} (h : Internal v) :
    v.organization.map (·.2) = some "queueplatform-internal" := h

theorem sees_loadAuthUser_internal {home : Id} : Sees (InternalOperator userId home)
    (fun o : Option CachedAuthUser => ∀ v, o = some v → Internal v) (loadAuthUser userId) := by
  refine .bind (M := fun o : Option User => ∀ u, o = some u → u.orgId = home)
    (.read fun s hs u hu => ?_) fun o ho => ?_
  · exact hs.user (live_any.mp hu)
  · cases o with
    | none => exact .pure fun v hv => by cases hv
    | some u =>
      obtain rfl := ho u rfl
      refine .bind (M := fun o : Option Organization => o.map Organization.slug =
        some "queueplatform-internal") (.read fun s hs => ?_) fun o hslug => .pure fun v hv => ?_
      · obtain ⟨org, horg, hslug⟩ := hs.slug
        rw [horg, Option.filter_some_pos rfl, Option.map_some, hslug]
      · cases hv
        rw [Internal, Option.map_map]
        exact hslug

theorem under_resolveUser {home : Id} : Under (InternalOperator userId home) P (resolveUser d userId)
    fun o (_ : List ImpersonationLine) => ∀ v, o = some v → Internal v := by
  have hget : Under (InternalOperator userId home) P (cachedUser d userId)
      fun o (_ : List ImpersonationLine) => ∀ v, o = some v → Internal v := by
    refine .ite (fun _ => .pure fun _ _ v hv => by cases hv) fun _ => .handle (.bind .any fun now =>
      .bind (M := fun (o : Option CacheEntry) _ => ∀ e v, o = some e → e.user = some v → Internal v)
        (.tx (.read fun s hs e v he hv => ?_) fun _ _ _ _ _ hF => hF) fun o => .pure
          fun _ hh v hv => ?_) fun _ => .pure fun _ _ v hv => by cases hv
    · exact hs.cached (Option.filter_eq_some_iff.mp he).1 hv
    · obtain ⟨e, rfl, hev⟩ := Option.bind_eq_some_iff.mp hv
      exact hh e v rfl hev
  refine .bind hget fun o => ?_
  cases o with
  | some u => exact .pure fun _ hh => hh
  | none =>
    refine .bind (M := fun o _ => ∀ v, o = some v → Internal v)
      (.retry (.tx sees_loadAuthUser_internal fun _ _ _ _ _ hF => hF)) fun o => ?_
    cases o with
    | none => exact .pure fun _ _ v hv => by cases hv
    | some u =>
      exact .bind (Under.lasts fun _ _ hh => hh) fun _ => .pure fun _ hh v hv => hh v hv

end Under

/-! ## Runs -/

theorem lasts_of_le {iat ttl now : ℕ} (h : iat * 1000 ≤ now) :
    (iat + ttl) * 1000 ≤ now + ttl * 1000 := by
  rw [Nat.add_mul]
  exact Nat.add_le_add_right h _

theorem KeyHeld.step {r : ImpersonationRequest} {jti : Id} {h : List ImpersonationLine}
    (hk : KeyHeld token jti a) (hs : KeyStep d r h a b)
    (hexp : token.exp = token.iat + (d.impersonationAccessTtl : ℕ))
    (hclock : ∀ token' now, r = .endImpersonation token' →
      Entry.emit (.clock now) ∈ h → token.iat * 1000 ≤ now) : KeyHeld token jti b := by
  have hsame : SameBlacklist a b → KeyHeld token jti b := fun hab => by
    obtain ⟨e, he, hle⟩ := hk
    exact ⟨e, (hab jti).trans he, hle⟩
  cases r with
  | endImpersonation token' =>
    rcases hs with hab | ⟨jti', now, hlast, rfl⟩
    · exact hsame hab
    · have hnow := hclock token' now rfl (List.mem_of_getLast? hlast)
      by_cases hj : jti = jti'
      · subst hj
        refine ⟨_, Rel.get_set_self _ _ _ _, ?_⟩
        rw [hexp]
        exact lasts_of_le hnow
      · obtain ⟨e, he, hle⟩ := hk
        exact ⟨e, by rw [Rel.get_set_ne (by simp [hj]), he], hle⟩
  | startImpersonation | authenticate | handler => exact hsame hs

theorem userIdOf_principal (u : AuthenticatedUser) :
    Auth.userIdOf u.principal = some (idText u.userId) :=
  Loyalty.truthy_some (idText_ne_empty u.userId)

theorem normalize_name (role : SystemRole) : normalizeSystemRoleName (some role.name) = some role := by
  cases role <;> decide +kernel

/-- **An internal operator** with a role is one to the permission guard. -/
theorem isRoleSimulation_principal {u : AuthenticatedUser} {role : SystemRole}
    (himp : u.impersonation = true) (hslug : u.orgSlug = "queueplatform-internal")
    (hrole : u.actAsRole = some role.name) :
    Auth.isRoleSimulationImpersonation u.principal = true := by
  have htruthy : (truthy (some role.name)).isSome = true := by cases role <;> rfl
  simp [Auth.isRoleSimulationImpersonation, Auth.User.isOperator, AuthenticatedUser.principal, himp,
    hslug, hrole, htruthy]

/-- Every store of the run is one in which the operator is internal. -/
abbrev StaysInternal (session : ImpersonationStartResult) (userId home : Id)
    (c : ImpersonationRun) (i : ℕ) : Prop :=
  c.AtCommit (fun _ b => session.simulation.isSome = true → InternalOperator userId home b) i

/-- **Impersonation is bounded**, and it ends, as long as Redis carries out the commands on the blacklist,
the clock does not run backwards, and an operator with a simulated role belongs to the platform's own
organisation. -/
theorem impersonation_bounded {email : String} {orgId home : Id}
    {options : ImpersonationStartOptions}
    (hstart : (startImpersonation d userId email orgId options).gives s (.ok session) s₀)
    (hhome : session.simulation.isSome = true → InternalOperator userId home s₀)
    (h : Reach (StaysInternal session userId home)
      (serve (ImpersonationRequest.run d handlers) s₀ requests) c)
    (hc : Carried requests c session.accessToken) : Bounded requests c session := by
  have hsession := gives_startImpersonation hstart
  have hcall : ∀ {i : ℕ} {r : ImpersonationRequest}, requests[i]? = some r →
      (requests.map (ImpersonationRequest.run d handlers))[i]? =
        some (ImpersonationRequest.run d handlers r) := fun hi => by
    rw [List.getElem?_map, hi, Option.map_some]
  refine ⟨fun {q j i p token x y} hj hjti hq hi hnew hp => ?_, fun {i p y} hi hp => ?_,
    fun {i p u role branchId} hi hp hsim t required listRead request member memberId hm hmid horg
      honly => ?_⟩
  · obtain ⟨jti, hsjti⟩ := hsession.jti
    -- The request that ends the session has set the key.
    have hends := reach_under (hcall hj) (A := fun _ => True)
      (Ψ := fun _ h => ∀ jti, token.payload.jti = some jti → EndsKey d jti h)
      (.bind under_endEndpoint fun _ => .pure fun _ hh => hh) h
      (fun _ _ _ _ _ => trivial) hq jti (hjti.trans hsjti)
    obtain ⟨h0, now, l, hl, hset⟩ := hends
    obtain ⟨h1, now', a, b, hl', -⟩ := hc.set hj hq
    obtain ⟨heq, hlast⟩ := List.append_inj' (hl.symm.trans hl') rfl
    cases hlast
    rw [hl] at hl'
    obtain ⟨q', hlt, hq', hlines⟩ := exists_take_of_linesOf hl
    have hnow : session.accessToken.iat * 1000 ≤ now := by
      refine hc.clock hj (mem_linesOf.mp (?_ : Entry.emit (.clock now) ∈ linesOf j c.trace))
      have hmem : Entry.emit (.clock now) ∈ linesOf j (c.trace.take q) := by
        rw [hl]
        simp
      exact mem_linesOf.mpr (List.mem_of_mem_take (mem_linesOf.mp hmem))
    have hheld : KeyHeld session.accessToken jti b := by
      refine ⟨_, hset a b rfl, ?_⟩
      rw [hsession.exp]
      exact lasts_of_le hnow
    -- Every later step finds it there.
    have hA : ∀ d' n, Reach (StaysInternal session userId home)
        (serve (ImpersonationRequest.run d handlers) s₀ requests) d' → d'.trace = c.trace.take n →
          linesOf i (c.trace.take n) ≠ [] → KeyHeld session.accessToken jti d'.db := by
      intro d' n hd' hn hne
      have hqn : q < n := by
        by_contra hle
        refine hne (List.eq_nil_of_subset_nil ?_)
        rw [← hnew, ← Nat.min_eq_left (show n ≤ q by omega), ← List.take_take]
        exact fun e he => mem_linesOf.mpr (List.mem_of_mem_take (mem_linesOf.mp he))
      have hs' := reach_served Err.recordNotFound trivial (fun r _ => describes_impersonation r) hd'
      refine hs'.linear.carry_after (p := q') (i := j) (a := a) (b := b) ?_
        (fun k l x y hlt hkl hx => ?_) hheld
      · rw [hn, List.getElem?_take_of_lt (by omega)]
        exact hq'
      · obtain ⟨r, hr, -, hstep⟩ := hs'.commit hkl
        refine hx.step hstep hsession.exp fun token' now' hreq hmem => hc.clock (hreq ▸ hr) ?_
        have hmem' := List.mem_of_mem_take (mem_linesOf.mp hmem)
        rw [hn] at hmem'
        exact List.mem_of_mem_take hmem'
    have hout := reach_under (hcall hi) (A := KeyHeld session.accessToken jti)
      (Ψ := fun _ h => ¬ Landed (fun now => now / 1000 < session.accessToken.exp) h)
      (.bind (M := LetInBy session.accessToken.payload (fun _ => True)
        fun h => ¬ Landed (fun now => now / 1000 < session.accessToken.exp) h)
          (under_authenticate (Under.any.post fun _ _ _ _ _ => trivial) ?_)
            fun u => .pure fun h hh => (hh.acting hsession.imp hsession.org).1) h hA hp
    · exact hout (hc.get hi hp)
    · rw [hsjti]
      exact under_isBlacklisted
  · exact reach_under (hcall hi) (A := fun _ => True)
      (Ψ := fun _ h => ∃ now, Entry.emit (.clock now) ∈ h ∧ now / 1000 < session.accessToken.exp)
      (.bind under_expiry fun _ => .pure fun _ hh => hh) h (fun _ _ _ _ _ => trivial) hp
  · have hsome : session.simulation.isSome = true := by rw [hsim, Option.isSome_some]
    have hA : ∀ d' n, Reach (StaysInternal session userId home)
        (serve (ImpersonationRequest.run d handlers) s₀ requests) d' → d'.trace = c.trace.take n →
          linesOf i (c.trace.take n) ≠ [] → InternalOperator userId home d'.db := by
      intro d' n hd' _ _
      refine (reach_linear hd').carry (fun k x y hcm _ => ?_) (hhome hsome)
      obtain ⟨p', hp'⟩ := List.mem_iff_getElem?.mp hcm
      exact reach_atCommit (K := fun _ _ _ b => session.simulation.isSome = true →
        InternalOperator userId home b) (fun _ _ hk => hk) hd' hp' hsome
    have hu := reach_under (hcall hi) (A := InternalOperator userId home)
      (Ψ := fun x h => ∀ u, x = .authenticated u →
        LetInBy session.accessToken.payload Internal (fun _ => True) u h)
      (.bind (M := LetInBy session.accessToken.payload Internal fun _ => True)
        (under_authenticate (hsession.sub ▸ under_resolveUser)
          (Under.any.post fun _ _ _ _ => trivial)) fun u => .pure fun h hh u' hu' => by
            cases hu'
            exact hh) h hA hp u rfl
    obtain ⟨-, v, hv, rfl⟩ := hu.acting hsession.imp hsession.org
    obtain ⟨hrole, hbranch, hsimulated⟩ := hsession.role hsim
    have hnormal := (congrArg normalizeSystemRoleName hrole).trans (normalize_name role)
    refine Auth.canActivate_simulated (isRoleSimulation_principal rfl ?_ hrole) hnormal
      (userIdOf_principal _) hm hmid horg.symm ?_
    · simp only [hv.eq, Option.getD_some]
    · simpa [AuthenticatedUser.principal, hbranch, hsimulated] using honly

/-! ## An operator in a tenant -/

def operatedStore (slug : String) : Db where
  tables
    | .organization => table [(1, { slug }), (2, { slug := "acme" })]
    | .user => table [(7, { orgId := 1, email := "op@example.org", passwordHash := ⟨"Operator1"⟩
                            status := .active, adminTwoFactorEnabled := true })]
    | .branch => table [(5, { orgId := 2 })]
    | _ => ∅
  log := []

def allowing : Deployment := { operatorUserIds := [7] }

def asViewer : ImpersonationStartOptions := { role := some "viewer", branchId := some 5 }

def viewerSession (slug : String) : ImpersonationStartResult where
  accessToken := sign allowing.jwtSecret (impersonationPayload 7
    { orgId := 1, email := "op@example.org", passwordHash := ⟨"Operator1"⟩ } slug 2 (some .viewer)
      (some 5) 0) 900 0
  expiresIn := 900
  targetOrganization := (2, "acme")
  simulation := some (.viewer, some 5)

/-- The request for the session. -/
def startViewer (slug : String) : Ran Db Err Mark ImpersonationStartResult :=
  (startImpersonation allowing 7 "op@example.org" 2 asViewer).eval ⟨fun _ => 0, 0⟩ 0
    (operatedStore slug)

theorem gives_viewerSession {slug : String} (h : slug = "queueplatform-internal" ∨ slug = "partner") :
    (startImpersonation allowing 7 "op@example.org" 2 asViewer).gives (operatedStore slug)
      (.ok (viewerSession slug)) (startViewer slug).db := by
  have hg : (startImpersonation allowing 7 "op@example.org" 2 asViewer).gives (operatedStore slug)
      (startViewer slug).answer (startViewer slug).db := Call.gives_eval _ _ _ _
  have hans : (startViewer slug).answer = .ok (viewerSession slug) := by
    rcases h with rfl | rfl <;> decide +kernel
  exact hans ▸ hg

/-- Nothing else is served. -/
def noHandlers (_ : ℕ) : Handler := ⟨.pure (), .pure ()⟩

def viewerTables : Auth.Tables where
  roleAssignments := [{ branchId := some (idText 5), userId := "v", roleOrgId := idText 2
                        rolePermissions := Auth.defaultRolePermissions .viewer }]

def readsBranch : Auth.Request := { params := [("branchId", .str (idText 5))] }

/-- Whether request `i` has been let in at position `p`, as somebody whom the permission guard lets read the
branch. -/
def readsAt (c : ImpersonationRun) (p i : ℕ) : Option Bool :=
  match c.trace[p]? with
  | some (j, .answer (.ok (.authenticated u))) => if j = i then
      some (Auth.canActivate viewerTables [⟨.branch, .read⟩] false (some u.principal) readsBranch).isOk
    else none
  | _ => none

theorem exists_of_readsAt {p i : ℕ} {r : Bool} (h : readsAt c p i = some r) :
    ∃ u, c.trace[p]? = some (i, .answer (.ok (.authenticated u))) ∧
      (Auth.canActivate viewerTables [⟨.branch, .read⟩] false (some u.principal) readsBranch).isOk = r := by
  unfold readsAt at h
  split at h
  · rename_i j u hp
    split at h
    · rename_i hj
      cases h
      exact ⟨u, hj ▸ hp, rfl⟩
    · cases h
  · cases h

def viewer : Auth.User := { userId := some "v", orgId := idText 2 }

/-- **An operator of the allow-list** is let in, and may not read what a viewer may. -/
theorem exists_session_of_nobody : ∃ c : ImpersonationRun, Reach Always
    (serve (ImpersonationRequest.run allowing noHandlers) (startViewer "partner").db
      [.authenticate (viewerSession "partner").accessToken]) c ∧
        ¬ Bounded [.authenticate (viewerSession "partner").accessToken] c (viewerSession "partner") := by
  obtain ⟨c, hc, hp⟩ := exists_reach_anywhere
    (serve (ImpersonationRequest.run allowing noHandlers) (startViewer "partner").db
      [.authenticate (viewerSession "partner").accessToken])
    (turns 0 26) (fun c => readsAt c 10 0 == some false) (by decide +kernel)
  refine ⟨c, hc, fun h => ?_⟩
  obtain ⟨u, hu, hok⟩ := exists_of_readsAt (beq_iff_eq.mp hp)
  have heq := h.acts rfl hu rfl viewerTables [⟨.branch, .read⟩] false readsBranch viewer "v" rfl
    (by decide +kernel) rfl (by decide +kernel)
  rw [heq] at hok
  exact absurd hok (by decide +kernel)

/-! ## The condition, computed -/

def landed (p : ℕ → Bool) (h : List ImpersonationLine) : Bool :=
  match h.reverse with
  | .commit _ _ :: .emit (.clock now) :: _ => p now
  | _ => false

theorem landed_of {p : ℕ → Bool} {h : List ImpersonationLine} (hp : landed p h = true) :
    Landed (fun now => p now = true) h := by
  unfold landed at hp
  split at hp
  · rename_i a b now l hl
    refine ⟨l.reverse, now, a, b, ?_, hp⟩
    rw [← List.reverse_reverse h, hl]
    simp
  · cases hp

/-- A line of the history that meets its part of the condition. -/
def carriedAt (requests : List ImpersonationRequest) (es : List (ℕ × ImpersonationLine)) (token : Jwt)
    (q : ℕ) : Bool :=
  match es[q]? with
  | some (j, .answer (.ok _)) => match requests[j]? with
    | some (.endImpersonation _) => landed (fun _ => true) (linesOf j (es.take q))
    | some (.authenticate token') => token' != token ||
        landed (fun now => decide (now / 1000 < token.exp)) (linesOf j (es.take q))
    | _ => true
  | some (j, .emit (.clock now)) => match requests[j]? with
    | some (.endImpersonation _) => decide (token.iat * 1000 ≤ now)
    | _ => true
  | _ => true

def carried (requests : List ImpersonationRequest) (es : List (ℕ × ImpersonationLine)) (token : Jwt) :
    Bool := (List.range es.length).all (carriedAt requests es token)

theorem carried_of (h : carried requests c.trace token = true) : Carried requests c token := by
  have hat : ∀ {q : ℕ} {e : ℕ × ImpersonationLine}, c.trace[q]? = some e →
      carriedAt requests c.trace token q = true := fun hq =>
    List.all_eq_true.mp h _ (List.mem_range.mpr (List.getElem?_eq_some_iff.mp hq).1)
  refine ⟨fun {q j token' x} hj hq => ?_, fun {p i y} hi hp => ?_, fun {j now token'} hj hmem => ?_⟩
  · have hq' := hat hq
    simp only [carriedAt, hq, hj] at hq'
    obtain ⟨h0, now, a, b, heq, -⟩ := landed_of hq'
    exact ⟨h0, now, a, b, heq, trivial⟩
  · have hp' := hat hp
    simp only [carriedAt, hp, hi, bne_self_eq_false, Bool.false_or] at hp'
    obtain ⟨h0, now, a, b, heq, hlt⟩ := landed_of hp'
    exact ⟨h0, now, a, b, heq, of_decide_eq_true hlt⟩
  · obtain ⟨q, hq⟩ := List.mem_iff_getElem?.mp hmem
    have hq' := hat hq
    simp only [carriedAt, hq, hj] at hq'
    exact of_decide_eq_true hq'

def internalOperator (userId home : Id) (s : Db) : Bool :=
  (s.get .user userId).all (fun (u : User) => u.deleted || u.orgId == home) &&
    (s.get .organization home).any (fun (o : Organization) => o.slug == "queueplatform-internal") &&
      (s.get .authUser userId).all fun (e : CacheEntry) => e.user.all fun v =>
        v.organization.map (·.2) == some "queueplatform-internal"

theorem internalOperator_of {home : Id} (h : internalOperator userId home s = true) :
    InternalOperator userId home s := by
  simp only [internalOperator, Bool.and_eq_true] at h
  obtain ⟨⟨huser, hslug⟩, hcached⟩ := h
  refine ⟨fun {u} hu => ?_, ?_, fun {e v} he hv => ?_⟩
  · have hx := (Option.all_eq_true _ _).mp huser u hu.1
    have hd : u.deleted = false := hu.2
    simpa [hd] using hx
  · obtain ⟨o, ho, hs⟩ := (Option.any_eq_true _ _).mp hslug
    exact ⟨o, ho, beq_iff_eq.mp hs⟩
  · have hx := (Option.all_eq_true _ _).mp hcached e he
    exact beq_iff_eq.mp ((Option.all_eq_true _ _).mp hx v hv)

def usedAndEnded : List ImpersonationRequest :=
  [.authenticate (viewerSession "queueplatform-internal").accessToken,
    .endImpersonation (viewerSession "queueplatform-internal").accessToken,
    .authenticate (viewerSession "queueplatform-internal").accessToken]

/-- Whether request `i` has been refused. -/
def turnedAway (i : ℕ) (c : ImpersonationRun) : Bool := c.trace.any fun
  | (j, Entry.answer (.error _)) => j == i
  | _ => false

/-- On such a run: the operator reads the branch as a viewer, ends the session, and is turned away. -/
theorem impersonation_bounded_viewer : ∃ c : ImpersonationRun,
    Reach (StaysInternal (viewerSession "queueplatform-internal") 7 1)
      (serve (ImpersonationRequest.run allowing noHandlers)
        (startViewer "queueplatform-internal").db usedAndEnded) c ∧
      readsAt c 10 0 = some true ∧ turnedAway 2 c = true ∧
        Bounded usedAndEnded c (viewerSession "queueplatform-internal") := by
  obtain ⟨c, hc, hp⟩ := exists_reach
    (o := fun c i => c.atCommit (fun _ b => internalOperator 7 1 b) i)
    (P := StaysInternal (viewerSession "queueplatform-internal") 7 1)
    (fun c i h => Config.atCommit_of (fun _ _ hb _ => internalOperator_of hb) h)
    (serve (ImpersonationRequest.run allowing noHandlers)
      (startViewer "queueplatform-internal").db usedAndEnded)
    (turns 0 26 ++ turns 1 32 ++ turns 2 17)
    (fun c => readsAt c 10 0 == some true && turnedAway 2 c &&
      carried usedAndEnded c.trace (viewerSession "queueplatform-internal").accessToken)
    (by decide +kernel)
  simp only [Bool.and_eq_true, beq_iff_eq] at hp
  refine ⟨c, hc, hp.1.1, hp.1.2, impersonation_bounded (gives_viewerSession (Or.inl rfl))
    (fun _ => internalOperator_of (by decide +kernel)) hc (carried_of hp.2)⟩

end PatronLoyalty.Accounts
