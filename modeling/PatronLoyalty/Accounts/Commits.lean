import PatronLoyalty.Accounts.Evolution
import PatronLoyalty.Txn.Steady

/-!
# What the requests commit

`Does r h a b`: the request `r`, with the history `h` so far, may take the store from `a` to `b` by a
commit. An exchange spends the session it has found; a revocation catches the sessions that were there
before its last transaction began; a login with a backup code, and a regeneration, write a list of
backup codes that has been read or drawn before. Everything else is quiet.

Headline: **`served`**. Every commit of a run is of that kind, whatever the others do.
-/

namespace PatronLoyalty.Accounts

open Txn
open Txn.Rel (Wrote)
open Loyalty (Id)

variable {s s' a b c : Db} {d : Deployment} {h : List Line} {C : DbWrite → Bool} {e : Err} {s₀ : Db}
  {userIds : List Id}

/-! ## Sessions -/

def SessionRow.Closed (r : SessionRow) : Prop := r.revokedAt.isSome = true ∨ r.deleted = true

theorem SessionRow.Closed.le {r r' : SessionRow} (h : r.Closed) (hle : SessionLe r r') : r'.Closed :=
  h.imp hle.revoked hle.deleted

def SameAccount (s : Db) (i j : Id) : Prop :=
  ∃ u v accountId, s.get .user i = some u ∧ s.get .user j = some v ∧
    u.accountId = some accountId ∧ v.accountId = some accountId

def ResetOf (s : Db) (token : String) (userId : Id) : Prop :=
  ∀ id r, s.get .passwordReset id = some r → r.tokenHash = sha256 token →
    r.userId = userId ∨ SameAccount s r.userId userId

/-- **The commit revokes** the sessions of the user: a logout, a password that has been reset or set, a
two-factor setup that has been reset. -/
def Revokes (r : Request) (h : List Line) (a : Db) (userId : Id) : Prop :=
  match r with
  | .logout id => id = userId ∧ Made 1 h
  | .setPasswordForUser _ id _ _ => id = userId ∧ Made 4 h
  | .resetTwoFactorForUser _ id _ => id = userId ∧ Made 4 h
  | .resetPassword token _ => Made 2 h ∧ (∃ u, Live a .user userId u) ∧
    ∀ s, lastStore h = some s → ResetOf s token userId
  | _ => False

/-- The sessions that the user had in `s` are closed in `b`. -/
def Caught (s : Db) (userId : Id) (b : Db) : Prop :=
  ∀ id r, s.get .session id = some r → r.userId = userId →
    ∃ r', b.get .session id = some r' ∧ r'.Closed

def NoneOpened (a b : Db) : Prop := ∀ id, a.get .session id = none → b.get .session id = none

def Catches (r : Request) (h : List Line) (a b : Db) : Prop :=
  Quiet a b ∧ ∀ userId, Revokes r h a userId → NoneOpened a b ∧
    ∀ s, lastStore h = some s → Caught s userId b

def Spends (token : Jwt) (a b : Db) : Prop :=
  ∃ id r r', a.get .session id = some r ∧ r.tokenHash = sha256 token ∧
    b.get .session id = some r' ∧ r'.revokedAt.isSome = true

def Opens (userId : Id) (a b : Db) : Prop :=
  ∃ id r, a.get .session id = none ∧ b.get .session id = some r ∧ r.userId = userId

/-! ## Backup codes -/

def Rewrites (channel : TotpChannel) (userIds : List Id) (hashes : List BackupHash) (a b : Db) :
    Prop :=
  ∀ ch id hash, Has b ch id hash →
    ch = channel ∧ id ∈ userIds ∧ hash ∈ hashes ∨ (ch ≠ channel ∨ id ∉ userIds) ∧ Has a ch id hash

/-- The last line of the history tells of backup codes. -/
def CodeMark : Mark → Prop
  | .clock _ => False
  | _ => True

/-- Nothing is due to be written. -/
def Unmarked (h : List Line) : Prop := ∀ m, CodeMark m → h.getLast? ≠ some (.emit m)

/-! ## What a request does -/

/-- **What a commit of the request does**, with this history. -/
def Does (r : Request) (h : List Line) (a b : Db) : Prop :=
  match r with
  | .refreshTokens token =>
    Quiet a b ∧ (Made 2 h → Spends token a b) ∧ (Made 4 h → Opens token.payload.sub a b) ∧
      (¬ Made 4 h → NoneOpened a b)
  | .completeTwoFactorLogin _ code =>
    ((∀ channel userIds hashes place,
      h.getLast? ≠ some (.emit (.matched channel userIds hashes place))) → Quiet a b) ∧
    ∀ channel userIds hashes place, h.getLast? = some (.emit (.matched channel userIds hashes place)) →
        matchingBackupCode (removeSpaces code) hashes = some place ∧
          Rewrites channel userIds (hashes.eraseIdx place) a b
  | .regenerateBackupCodes userId _ _ channel =>
    ((∀ ch userIds hashes, h.getLast? ≠ some (.emit (.regenerated ch userIds hashes))) →
      Quiet a b) ∧
    ∀ ch userIds hashes, h.getLast? = some (.emit (.regenerated ch userIds hashes)) →
        ch = channel ∧ ((∃ u, Live a .user userId u) → userId ∈ userIds) ∧
          Rewrites channel userIds hashes a b
  | r => Catches r h a b

def Gone (s : Db) (userId : Id) : Prop := ∃ u, s.get .user userId = some u ∧ u.deleted = true

/-- A code has matched, and the others have been written back. -/
def SpendsCode (h : List Line) : Prop :=
  ∃ h₁ a b h₂ channel userIds hashes place, h = h₁ ++ .commit a b :: h₂ ∧
    h₁.getLast? = some (.emit (.matched channel userIds hashes place))

/-- **What an answer tells** of the history. -/
def Answers (d : Deployment) (r : Request) (_ : Answer) (h : List Line) : Prop :=
  match r with
  | .refreshTokens _ => Made 5 h
  | .completeTwoFactorLogin _ code =>
    (∃ secret now, verifyTotp d secret (removeSpaces code) now = true) ∨ SpendsCode h
  | .deactivate _ _ _ => 3 < commits h
  | .delete _ userId _ => ∃ a b, Entry.commit a b ∈ h ∧ Gone b userId
  | _ => True

/-! ## Statements -/

def SameRows (k : Kind) (a b : Db) : Prop := ∀ id, b.get k id = a.get k id

theorem sameRows_set {k k' : Kind} {id : Id} {r : Row k'} (hk : k ≠ k') :
    SameRows k a (a.set k' id r) := fun _ => Rel.get_set_ne (by simp [hk])

section Statements

variable {G : Guarantee Db} {P : Db → Db → Prop} {k : Kind}

theorem triple_update {id : Id} {p : Row k → Bool} {f : Row k → Row k} {Q : Row k → Db → Db → Prop}
    (hQ : ∀ r a b c, P a b → Live b k id r → p r = true → Wrote C k id (some r) (f r) b c →
      Q (f r) a c) : Triple C e G P (update k id p f) Q :=
  .modify fun r r' a b c hp hf hw => by
    split at hf
    · rename_i hl
      cases hf
      simp only [Bool.and_eq_true, Bool.not_eq_true'] at hl
      exact hQ r a b c hp ⟨hw.2.1, hl.1⟩ hl.2 hw
    · cases hf

theorem sameRows_update {k' : Kind} {id : Id} {p : Row k' → Bool} {f : Row k' → Row k'}
    (hk : k ≠ k') : Confined C e G (SameRows k) (update k' id p f) :=
  confined_update fun r a b _ _ hw => by
    rw [hw.2.2.2]
    exact sameRows_set hk

theorem sameRows_updateMany {k' : Kind} {p : Id → Row k' → Bool} {f : Row k' → Row k'}
    (hu : ∀ r, uniqueKeys k' (f r) ⊆ uniqueKeys k' r) (hk : k ≠ k') :
    Confined C e G (SameRows k) (updateMany k' p f) :=
  confined_updateMany hu fun id r a b _ _ hw => by
    rw [hw.2.2.2]
    exact sameRows_set hk

/-- Statements on other tables leave what is known of a table. -/
theorem keeps_sameRows {β : Type} {t : ATx β} {F : Db → Prop} (ht : Confined C e G (SameRows k) t) :
    Triple C e G (fun a b => F a ∧ SameRows k a b) t fun _ a b => F a ∧ SameRows k a b :=
  ht.keeps fun _ _ _ hbc hab => ⟨hab.1, fun id => (hbc id).trans (hab.2 id)⟩

end Statements

/-! ## Revoking sessions -/

theorem noneOpened_wrote {k : Kind} {id : Id} {r r' : Row k} (hw : Wrote C k id (some r) r' a b) :
    NoneOpened a b := by
  intro id' hn
  rw [hw.2.get_ne, hn]
  rintro ⟨⟩
  have hold := hw.2.get_old
  rw [hn] at hold
  cases hold

theorem noneOpened_walk (h : Relation.ReflTransGen NoneOpened a b) : NoneOpened a b := by
  induction h with
  | refl => exact fun _ hn => hn
  | tail _ hs ih => exact fun id hn => hs id (ih id hn)

section Confined

variable {G : Guarantee Db} {now : ℕ}

theorem noneOpened_revokeSessions {userIds : List Id} :
    Confined C e G NoneOpened (revokeSessions userIds now) :=
  confined_updateMany (fun _ => List.Subset.refl _) fun _ _ _ _ _ _ hw => noneOpened_wrote hw

theorem noneOpened_recoverTx {orgId userId : ℕ} {f : User → User} :
    Confined C e G NoneOpened (recoverTx orgId userId f now) :=
  .bind (confined_update fun _ _ _ _ _ hw => noneOpened_wrote hw) fun _ =>
    .bind noneOpened_revokeSessions fun _ => .pure _

theorem noneOpened_resetPasswordTx {resetId userId : ℕ} {target : User} {hash : PasswordHash} :
    Confined C e G NoneOpened (resetPasswordTx resetId userId target hash now) := by
  refine .bind (confined_update fun _ _ _ _ _ hw => noneOpened_wrote hw) fun _ => ?_
  cases target.accountId with
  | none =>
    exact .bind (confined_update fun _ _ _ _ _ hw => noneOpened_wrote hw) fun _ =>
      .bind noneOpened_revokeSessions fun _ => .pure _
  | some accountId =>
    refine .bind (confined_update fun _ _ _ _ _ hw => noneOpened_wrote hw) fun _ =>
      .bind (.read _) fun siblings => .bind ?_ fun _ =>
        .bind noneOpened_revokeSessions fun _ => .pure _
    generalize (siblings.map fun m => m.2.orgId).eraseDups = orgIds
    induction orgIds with
    | nil => exact .pure _
    | cons orgId orgIds ih =>
      exact .bind (confined_updateMany (fun _ => List.Subset.refl _) fun _ _ _ _ _ _ hw =>
        noneOpened_wrote hw) fun _ => ih

end Confined

/-- **The bulk update** catches the sessions that were there when its transaction began. -/
theorem triple_revokeSessions {now : ℕ} :
    Triple C e evolving (fun a b => Evolves s₀ a ∧ SameRows .session a b) (revokeSessions userIds now)
      fun _ _ c => ∀ userId ∈ userIds, Caught s₀ userId c := by
  unfold revokeSessions updateMany
  refine Triple.modifyAll (k := Kind.session) (fun _ => List.Subset.refl _) ?_
  intro s m a b c hsm hsa hab hw userId hmem id r hr hu
  obtain ⟨rs, hrs, hle⟩ := hsm.1.session hr
  have hrm : m.get .session id = some rs := (hsm.2 id).trans hrs
  obtain ⟨ra, hra, hle'⟩ := Evolves.session hsa hrs
  have hrb : b.get .session id = some ra := (hab.2 id).trans hra
  by_cases hin : ∃ x ∈ m.rows Kind.session (fun id (r : SessionRow) => !gone .session r &&
      (userIds.contains r.userId && r.revokedAt.isNone)), x.1 = id
  · -- The statement has found the row.
    obtain ⟨x, hx, rfl⟩ := hin
    exact ⟨_, (hw.mem hx).2, Or.inl rfl⟩
  · -- It was closed when the statement ran.
    refine ⟨ra, ?_, ?_⟩
    · rw [hw.frame fun x hx heq => hin ⟨x, hx, by simpa using (congrArg Prod.snd heq).symm⟩]
      exact hrb
    · have hclosed : rs.Closed := by
        by_contra hopen
        simp only [SessionRow.Closed, not_or, Bool.not_eq_true] at hopen
        refine hin ⟨(id, rs), Rel.mem_rows.mpr ⟨hrm, ?_⟩, rfl⟩
        have huser : rs.userId = userId := hle.userId.trans hu
        simp [gone, hopen.2, huser, hmem, Option.isNone_iff_eq_none.mpr
          (Option.not_isSome_iff_eq_none.mp (by rw [hopen.1]; simp))]
      exact hclosed.le hle'

/-! ## Writing backup codes -/

/-- The users of the list, as far as their organisations are done, are what `data` makes of them. -/
structure Rewritten (userIds : List Id) (data : User → User) (done : List Id) (a b : Db) : Prop where
  absent {id : Id} : a.get .user id = none → b.get .user id = none
  present {id : Id} {u : User} : a.get .user id = some u → ∃ u', b.get .user id = some u' ∧
    (u' = u ∨ id ∈ userIds ∧ u' = data u) ∧
      (id ∈ userIds → u.deleted = false → u.orgId ∈ done → u' = data u)

/-- One organisation. -/
theorem Rewritten.step {m : Db} {done : List Id} {data : User → User} {orgId : Id}
    (hdel : ∀ u, (data u).deleted = u.deleted) (horg : ∀ u, (data u).orgId = u.orgId)
    (hidem : ∀ u, data (data u) = data u) (hids : ∀ id ∈ userIds, ∃ u, s₀.get .user id = some u)
    (hs : Evolves s₀ s) (hsm : Rewritten userIds data done s m) (hsa : Evolves s a)
    (hab : Rewritten userIds data done a b)
    (hw : Overwrote Kind.user data (m.rows .user fun id (u : User) => !gone .user u &&
      (userIds.contains id && u.orgId == orgId)) b c) :
    Rewritten userIds data (done ++ [orgId]) a c where
  absent {id} ha := by
    rw [hw.frame fun x hx heq => ?_]
    · exact hab.absent ha
    · obtain rfl : id = x.1 := by simpa using congrArg Prod.snd heq
      have hb := (hw.mem hx).1
      rw [hab.absent ha] at hb
      cases hb
  present {id u} ha := by
    obtain ⟨u', hb, hor, hdone⟩ := hab.present ha
    by_cases hin : ∃ x ∈ m.rows Kind.user (fun id (u : User) => !gone .user u &&
        (userIds.contains id && u.orgId == orgId)), x.1 = id
    · obtain ⟨x, hx, rfl⟩ := hin
      obtain ⟨hbx, hcx⟩ := hw.mem hx
      obtain rfl : u' = x.2 := Option.some.inj (hb.symm.trans hbx)
      have hmem : x.1 ∈ userIds := by
        have hp := (Rel.mem_rows.mp hx).2
        simp only [Bool.and_eq_true, List.contains_iff_mem] at hp
        exact hp.2.1
      have hdata : data x.2 = data u := by
        rcases hor with hu | ⟨-, hu⟩
        · rw [hu]
        · rw [hu, hidem]
      exact ⟨_, hcx, Or.inr ⟨hmem, hdata⟩, fun _ _ _ => hdata⟩
    · have hc : c.get .user id = some u' := by
        rw [hw.frame fun x hx heq => hin ⟨x, hx, by simpa using (congrArg Prod.snd heq).symm⟩]
        exact hb
      refine ⟨u', hc, hor, fun hmem hlive ho => ?_⟩
      rcases List.mem_append.mp ho with ho | ho
      · exact hdone hmem hlive ho
      · -- The statement has found the row.
        exfalso
        obtain ⟨u0, hu0⟩ := hids id hmem
        obtain ⟨us, hus, -⟩ := hs.user hu0
        obtain ⟨hls, hle⟩ := Evolves.live hsa hus ⟨ha, hlive⟩
        obtain ⟨um, hum, horm, -⟩ := hsm.present hus
        have hum' : um.deleted = us.deleted ∧ um.orgId = us.orgId := by
          rcases horm with rfl | ⟨-, rfl⟩
          · exact ⟨rfl, rfl⟩
          · exact ⟨hdel us, horg us⟩
        refine hin ⟨(id, um), Rel.mem_rows.mpr ⟨hum, ?_⟩, rfl⟩
        have hdels : us.deleted = false := hls.2
        have horgs : us.orgId = orgId := hle.orgId.symm.trans (List.mem_singleton.mp ho)
        simp [gone, hum'.1, hum'.2, hdels, horgs, hmem]

theorem triple_syncOrganizations {done orgIds : List Id} {data : User → User}
    (hk : ∀ u, uniqueKeys .user (data u) ⊆ uniqueKeys .user u)
    (hdel : ∀ u, (data u).deleted = u.deleted) (horg : ∀ u, (data u).orgId = u.orgId)
    (hidem : ∀ u, data (data u) = data u) (hids : ∀ id ∈ userIds, ∃ u, s₀.get .user id = some u) :
    Triple C e evolving (fun a b => Evolves s₀ a ∧ Rewritten userIds data done a b)
      (syncOrganizations userIds data orgIds)
      fun _ a b => Evolves s₀ a ∧ Rewritten userIds data (done ++ orgIds) a b := by
  induction orgIds generalizing done with
  | nil => exact .pure fun a b hab => by rwa [List.append_nil]
  | cons orgId orgIds ih =>
    refine .bind (Q := fun _ a b => Evolves s₀ a ∧ Rewritten userIds data (done ++ [orgId]) a b) ?_
      fun _ => ?_
    · unfold updateMany
      refine Triple.modifyAll (k := Kind.user) hk ?_
      exact fun s m a b c hsm hsa hab hw =>
        ⟨hab.1, hsm.2.step hdel horg hidem hids hsm.1 hsa hab.2 hw⟩
    · exact ih.post fun _ a b hab => by rwa [List.append_assoc] at hab

def Known (memberships : List (Id × User)) (s : Db) : Prop :=
  ∀ m ∈ memberships, ∃ u, s.get .user m.1 = some u ∧ u.orgId = m.2.orgId

theorem known_seen {p : Id → User → Bool} : Known (seen .user p s) s := by
  rintro ⟨id, u⟩ hm
  exact ⟨u, (mem_seen.mp hm).1.1, rfl⟩

theorem known_keeps (memberships : List (Id × User)) : evolving.Keeps (Known memberships) := by
  intro a b hab h m hm
  obtain ⟨u, hu, ho⟩ := h m hm
  obtain ⟨u', hu', hle⟩ := Evolves.user hab hu
  exact ⟨u', hu', hle.orgId.trans ho⟩

/-- **The codes of the admin dashboard** are written to the memberships that have been read. -/
theorem triple_syncBackupHashes {memberships : List (Id × User)} {hashes : Option (List BackupHash)}
    (hknown : Known memberships s₀) :
    Triple C e evolving (fun a b => Evolves s₀ a ∧ a = b)
      (syncAdminTwoFactorToMemberships memberships fun u =>
        { u with adminTwoFactorBackupHashes := hashes })
      fun _ a b => Rewrites .adminDashboard (memberships.map (·.1)) (hashes.getD []) a b := by
  have hids : ∀ id ∈ memberships.map (·.1), ∃ u, s₀.get .user id = some u := by
    intro id hid
    obtain ⟨m, hm, rfl⟩ := List.mem_map.mp hid
    obtain ⟨u, hu, -⟩ := hknown m hm
    exact ⟨u, hu⟩
  unfold syncAdminTwoFactorToMemberships
  refine Triple.mono (@triple_syncOrganizations C e s₀ _ [] _ _ (fun _ => List.Subset.refl _)
    (fun _ => rfl) (fun _ => rfl) (fun _ => rfl) hids) ?_ ?_
  · rintro a b ⟨hs, rfl⟩
    exact ⟨hs, ⟨id, fun {_ u} hu => ⟨u, hu, Or.inl rfl, fun _ _ ho => by cases ho⟩⟩⟩
  · rintro - a b ⟨hs, hrw⟩ ch id x ⟨u', hu', hx⟩
    cases ha : a.get .user id with
    | none =>
      have hnone := hrw.absent ha
      rw [hu'.1] at hnone
      cases hnone
    | some u =>
      obtain ⟨v, hv, hor, hdone⟩ := hrw.present ha
      obtain rfl : u' = v := Option.some.inj (hu'.1.symm.trans hv)
      have hlive : u.deleted = false := by
        have hl : u'.deleted = false := hu'.2
        rcases hor with rfl | ⟨-, rfl⟩
        · exact hl
        · exact hl
      by_cases hin : ch = .adminDashboard ∧ id ∈ memberships.map (·.1)
      · left
        refine ⟨hin.1, hin.2, ?_⟩
        have ho : u.orgId ∈ [] ++ (memberships.map fun m => m.2.orgId).eraseDups := by
          obtain ⟨m, hm, rfl⟩ := List.mem_map.mp hin.2
          obtain ⟨u0, hu0, ho0⟩ := hknown m hm
          obtain ⟨u1, hu1, hle⟩ := hs.user hu0
          obtain rfl : u = u1 := Option.some.inj (ha.symm.trans hu1)
          rw [List.nil_append, List.mem_eraseDups, hle.orgId, ho0]
          exact List.mem_map_of_mem hm
        rw [hdone hin.2 hlive ho, hin.1] at hx
        exact hx
      · right
        refine ⟨by rwa [not_and_or] at hin, u, ⟨ha, hlive⟩, ?_⟩
        rcases hor with rfl | ⟨hmem, rfl⟩
        · exact hx
        · cases ch with
          | organization => exact hx
          | adminDashboard => exact absurd ⟨rfl, hmem⟩ hin

/-- The codes of one membership. -/
theorem triple_writeBackupHashes {orgId userId : Id} {hashes : Option (List BackupHash)} :
    Triple C e evolving (fun a b => a = b) (writeBackupHashes orgId userId hashes)
      fun _ a b => Rewrites .organization [userId] (hashes.getD []) a b := by
  refine triple_update fun r a b c hab hl _ hw => ?_
  subst hab
  rw [hw.2.2.2]
  rintro ch id x ⟨u, hu, hx⟩
  have hg := hu.1
  by_cases hid : id = userId
  · subst hid
    rw [Rel.get_set_self] at hg
    cases hg
    cases ch with
    | organization => exact Or.inl ⟨rfl, List.mem_singleton.mpr rfl, hx⟩
    | adminDashboard => exact Or.inr ⟨Or.inl (by decide), r, hl, hx⟩
  · rw [Rel.get_set_ne (by simp [hid])] at hg
    exact Or.inr ⟨Or.inr (by simpa using hid), u, ⟨hg, hu.2⟩, hx⟩

/-! ## Plain requests -/

/-- A request that does nothing of this. -/
abbrev Plain {β : Type} (c : ACall β) : Prop :=
  Steady (fun _ => true) Err.recordNotFound evolving Quiet (fun m => ¬ CodeMark m) Answer c

theorem plain_tx {β : Type} {t : ATx β}
    (ht : Confined (fun _ => true) .recordNotFound evolving Quiet t) : Plain (withBypassRls t) :=
  .tx ht fun _ _ hs => (Quiet.walk hs).evolves

theorem plain_readClock : Plain readClock :=
  .bind .input fun now => .bind (.fire (v := Mark.clock now) id) fun _ => .pure now

theorem plain_resolveUserHighestSystemRole (orgId userId : Id) :
    Plain (resolveUserHighestSystemRole orgId userId) :=
  .bind (plain_tx (.bind (.read _) fun _ => .bind (.read _) fun _ => .pure _)) fun _ => .pure _

theorem plain_assertActorMayManageTargetUser (orgId actorUserId userId : Id) :
    Plain (assertActorMayManageTargetUser orgId actorUserId userId) :=
  .bind (plain_resolveUserHighestSystemRole _ _) fun _ =>
    .bind (plain_resolveUserHighestSystemRole _ _) fun _ => .ite (.pure _) (.throw _)

theorem plain_getById (orgId userId : Id) : Plain (getById orgId userId) :=
  .bind (plain_tx (.read _)) fun o => by
    cases o with
    | none => exact .throw _
    | some u => exact .pure _

theorem plain_checkSeats (orgId : Id) (message : ℕ → String) : Plain (checkSeats orgId message) :=
  .bind (plain_tx (.read _)) fun _ => .bind .input fun _ => .ite (.throw _) (.pure _)

theorem plain_invalidateAuthUserCache (userId : Id) : Plain (invalidateAuthUserCache userId) :=
  .handle (plain_tx confined_setAuthUser) fun _ => .pure _

/-! ## Tokens -/

theorem plain_generateTokenPair (userId orgId : Id) (orgSlug email : String) :
    Plain (generateTokenPair d userId orgId orgSlug email) :=
  .bind plain_readClock fun _ => .bind plain_readClock fun _ => .bind plain_readClock fun _ =>
    .bind (plain_tx confined_createSession_quiet) fun _ => .pure _

theorem plain_roleName (userId : Id) : Plain (roleName userId) :=
  .bind (plain_tx (.bind (.findFirst _) fun o => by
    cases o with
    | none => exact .pure _
    | some r => exact .read _)) fun _ => .pure _

theorem confined_loadMemberships {E : Db → Db → Prop} {G : Guarantee Db} (userId : Id) :
    Confined C e G E (loadAdminTwoFactorMemberships userId) :=
  .bind (.read _) fun o => by
    cases o with
    | none => exact .pure _
    | some u => exact .bind (.read _) fun _ => .pure _

theorem plain_requiresTwoFactor (platformAdmin : Bool) (m : Membership) :
    Plain (requiresTwoFactor platformAdmin m) := by
  unfold requiresTwoFactor
  split
  · exact .bind (plain_tx (confined_loadMemberships _)) fun _ => .pure _
  · exact .pure _

theorem plain_syncLegacyHash (password : String) (account : Option (Id × Account))
    (users : List Membership) (m : Membership) : Plain (syncLegacyHash password account users m) := by
  cases account with
  | none => exact .pure _
  | some r => exact .ite (.bind (plain_tx confined_syncPassword) fun _ => .pure _) (.pure _)

theorem plain_signIn (platformAdmin : Bool) (password : String) (account : Option (Id × Account))
    (users : List Membership) (m : Membership) :
    Plain (signIn d platformAdmin password account users m) := by
  refine .bind (.ofExcept _) fun _ => .bind (.ofExcept _) fun _ => .bind (plain_roleName _) fun _ =>
    .bind (plain_requiresTwoFactor _ _) fun secondFactor => ?_
  cases secondFactor with
  | true => exact .bind plain_readClock fun _ => .pure _
  | false =>
    exact .bind (plain_syncLegacyHash _ _ _ _) fun _ => .bind plain_readClock fun _ =>
      .bind (plain_tx confined_touchLastLogin) fun _ => .bind (plain_generateTokenPair _ _ _ _)
        fun _ => .pure _

theorem plain_login (email password : String) (orgId : Option Id) (platformAdmin : Bool) :
    Plain (login d email password orgId platformAdmin) := by
  refine .ite (.throw _) (.retry (.bind (plain_tx (.read _)) fun account =>
    .bind (plain_tx (.readOrThrow _ _)) fun users => .ite (.throw _) (.ite (.throw _) ?_)))
  generalize finalPool d platformAdmin _ = pool
  have hchosen : ∀ found : Option Membership, Plain (found.elim
      (throw (.unauthorized "The selected organization is not available for this account."))
      (signIn d platformAdmin password account users)) := by
    intro found
    cases found with
    | none => exact .throw _
    | some m => exact plain_signIn _ _ _ _ _
  rcases pool with _ | ⟨m, _ | ⟨m', pool⟩⟩
  · exact .throw _
  · cases orgId with
    | none => exact plain_signIn _ _ _ _ _
    | some orgId =>
      convert hchosen ([m].find? fun u => u.user.orgId == orgId) using 1
      cases h : [m].find? fun u => u.user.orgId == orgId <;> simp [h]
  · cases orgId with
    | none => exact .pure _
    | some orgId =>
      convert hchosen ((m :: m' :: pool).find? fun u => u.user.orgId == orgId) using 1
      cases h : (m :: m' :: pool).find? fun u => u.user.orgId == orgId <;> simp [h]

/-! ## JwtStrategy -/

theorem plain_resolveUser (userId : Id) : Plain (resolveUser d userId) := by
  have hget : Plain (cachedUser d userId) :=
    .ite (.pure _) (.handle (.bind plain_readClock fun _ => .bind (plain_tx (.read _)) fun _ =>
      .pure _) fun _ => .pure _)
  have hset : ∀ u, Plain (cacheUser d userId u) := fun u =>
    .ite (.pure _) (.handle (.bind plain_readClock fun _ => plain_tx confined_setAuthUser)
      fun _ => .pure _)
  refine .bind hget fun o => ?_
  cases o with
  | some u => exact .pure _
  | none =>
    refine .bind (.retry (plain_tx (.bind (.read _) fun o => ?_))) fun o => ?_
    · cases o with
      | none => exact .pure _
      | some u => exact .bind (.read _) fun _ => .pure _
    · cases o with
      | none => exact .pure _
      | some u => exact .bind (hset u) fun _ => .pure _

theorem plain_authenticate (token : Jwt) : Plain (authenticate d token) := by
  refine .bind plain_readClock fun now => ?_
  cases verify d.jwtSecret token now with
  | none => exact .throw _
  | some payload =>
    refine .bind (plain_resolveUser _) fun o => ?_
    cases o with
    | none => exact .throw _
    | some u =>
      refine .bind (.ofExcept _) fun _ => ?_
      split
      · refine .bind (plain_tx (.read _)) fun _ => .ite (.throw _) (.ite (.throw _)
          (.bind ?_ fun _ => .ite (.throw _) (.pure _)))
        cases payload.jti with
        | none => exact .pure _
        | some jti => exact .bind plain_readClock fun _ => .bind (plain_tx (.read _)) fun _ => .pure _
      · exact .pure _

/-! ## Members -/

theorem plain_invite (orgId actorUserId : Id) (data : Invitation) :
    Plain (invite orgId actorUserId data) := by
  have hassert : Plain (assertActorMayAssignRoleId orgId actorUserId data.roleId) :=
    .bind (plain_tx (.read _)) fun o => by
      cases o with
      | none => exact .throw _
      | some role =>
        exact .bind (plain_resolveUserHighestSystemRole _ _) fun _ => .ite (.pure _) (.throw _)
  have hbranches : Plain (validateBranchIds orgId data.branchIds) :=
    .ite (.pure _) (.bind (plain_tx (.read _)) fun _ => .ite (.throw _) (.pure _))
  refine .bind hassert fun _ => .bind (plain_tx (.findFirst _)) fun _ => .ite (.throw _)
    (.bind (plain_checkSeats _ _) fun _ => .bind (.ofExcept _) fun _ =>
      .bind (plain_tx (.read _)) fun o => ?_)
  cases o with
  | none => exact .throw _
  | some role =>
    exact .bind hbranches fun _ => .bind (.bind (plain_tx (.read _)) fun _ =>
      .ite (.throw _) (.pure _)) fun _ => plain_tx confined_inviteTx

theorem plain_activate (orgId userId actorUserId : Id) :
    Plain (activate orgId userId actorUserId) := by
  have hset : Plain ((withBypassRls (setStatus orgId userId .active)).bind fun updated =>
      (invalidateAuthUserCache userId).bind fun _ => .pure updated) :=
    .bind (plain_tx confined_setStatus) fun _ => .bind (plain_invalidateAuthUserCache _)
      fun _ => .pure _
  exact .bind (plain_getById _ _) fun _ => .bind (plain_assertActorMayManageTargetUser _ _ _)
    fun _ => .ite (.bind (plain_checkSeats _ _) fun _ => hset) hset

/-! ## Revocations -/

/-- A description of the commits of a part of a request. -/
abbrev Described {β : Type} (D : List Line → Db → Db → Prop) (Φ : List Line → Prop) (c : ACall β)
    (Ψ : β → List Line → Prop) : Prop :=
  Describes (fun _ => true) Err.recordNotFound evolving D Φ c Ψ

section Revocations

variable {r : Request} {D : List Line → Db → Db → Prop} {Φ : List Line → Prop} {k : ℕ}
  {actorUserId orgId targetUserId userId : Id} {now : ℕ} {token : Jwt}

theorem made_emit {m : Mark} (hk : Made k h) : Made k (h ++ [.emit m]) := by
  rw [Made, commits_emit, hk]

theorem holds_emit {F : Db → Prop} {m : Mark} (hk : Holds F h) : Holds F (h ++ [.emit m]) := by
  obtain ⟨s, hs, hF⟩ := hk
  exact ⟨s, by rwa [lastStore_snoc h (by simp)], hF⟩

theorem made_commit (hk : Made k h) (a b : Db) : Made (k + 1) (h ++ [.commit a b]) := by
  rw [Made, commits_snoc, hk]

theorem describes_readClock (hΦ : ∀ h now, Φ h → Φ (h ++ [.emit (.clock now)])) :
    Described D Φ readClock fun _ => Φ :=
  .bind (Ψ := fun _ => Φ) (.input fun _ _ hh => hh) fun now =>
    .bind (.fire (Ω := Φ) fun h hh => hΦ h now hh) fun _ => .pure fun _ hh => hh

theorem describes_getById (hD : ∀ h a, Made k h → D h a a) :
    Described D (Made k) (getById orgId userId) fun _ => Made (k + 1) :=
  .bind (.count hD (.read _)) fun o => by
    cases o with
    | none => exact .throw
    | some u => exact .pure fun _ hh => hh

theorem describes_resolveUserHighestSystemRole (hD : ∀ h a, Made k h → D h a a) :
    Described D (Made k) (resolveUserHighestSystemRole orgId userId) fun _ => Made (k + 1) :=
  .bind (.count hD (.bind (.read _) fun _ => .bind (.read _) fun _ => .pure _)) fun _ =>
    .pure fun _ hh => hh

theorem catches_quiet (hq : Quiet a b) (hr : ∀ userId, ¬ Revokes r h a userId) :
    Catches r h a b := ⟨hq, fun userId hu => absurd hu (hr userId)⟩

theorem describes_recoverable {message : String} {parse : Except Err Unit}
    (hD : ∀ k, k < 4 → ∀ h a, Made k h → D h a a) :
    Described D (Made 0) (recoverable orgId targetUserId actorUserId message parse)
      fun _ => Made 4 := by
  unfold recoverable
  split
  · exact .throw
  · refine .bind (describes_getById (hD 0 (by omega))) fun _ => .bind (Ψ := fun _ => Made 3) ?_ fun _ =>
      .bind (Ψ := fun _ => Made 3) (.ofExcept fun _ _ _ hh => hh) fun _ =>
        describes_getById (hD 3 (by omega))
    refine .bind (describes_resolveUserHighestSystemRole (hD 1 (by omega))) fun _ =>
      .bind (describes_resolveUserHighestSystemRole (hD 2 (by omega))) fun _ => ?_
    split
    · exact .pure fun _ hh => hh
    · exact .throw

/-- **The transaction of a revocation.** -/
theorem describes_revocation {β : Type} {t : ATx β}
    (ht : Confined (fun _ => true) .recordNotFound evolving Quiet t)
    (hno : Confined (fun _ => true) .recordNotFound evolving NoneOpened t)
    (hcatch : ∀ h s, Φ h → lastStore h = some s →
      Triple (fun _ => true) .recordNotFound evolving (fun a b => Evolves s a ∧ a = b) t
        fun _ a c => ∀ userId, Revokes r h a userId → Caught s userId c) :
    Described (Catches r) Φ (withBypassRls t) fun _ _ => True := by
  refine .tx (R := fun h _ a c => Catches r h a c) (fun h hk => ?_) ?_
  · have hquiet : Triple (fun _ => true) .recordNotFound evolving (Since evolving h) t
        fun _ a c => Quiet a c ∧ NoneOpened a c := by
      refine ((ht (Since evolving h)).both (hno (Since evolving h))).post ?_
      rintro - a c ⟨⟨b, ⟨-, rfl⟩, hs⟩, ⟨b', ⟨-, rfl⟩, hn⟩⟩
      exact ⟨.walk hs, noneOpened_walk hn⟩
    cases hs : lastStore h with
    | none =>
      exact hquiet.post fun _ a c hq => ⟨hq.1, fun _ _ => ⟨hq.2, fun s hs' => by
        rw [hs] at hs'
        cases hs'⟩⟩
    | some s =>
      refine (hquiet.both ((hcatch h s hk hs).pre fun a b hab => ⟨hab.1 s hs, hab.2⟩)).post ?_
      rintro - a c ⟨hq, hc⟩
      refine ⟨hq.1, fun userId hr => ⟨hq.2, fun s' hs' => ?_⟩⟩
      obtain rfl : s = s' := Option.some.inj (hs.symm.trans hs')
      exact hc userId hr
  · exact fun h _ a c _ hc => ⟨hc.1.evolves, hc, trivial⟩

theorem catches_before {n : ℕ} (hr : ∀ h a userId, Revokes r h a userId → Made n h) (hk : k < n) :
    ∀ h a, Made k h → Catches r h a a := fun h a hm =>
  catches_quiet (.refl a) fun userId hu => by
    have hn : commits h = n := hr h a userId hu
    have hk' : commits h = k := hm
    omega

theorem describes_logout :
    Described (Catches (.logout userId)) (Made 0) (logout userId) fun _ _ => True := by
  refine .bind (.count (catches_before (n := 1) (fun _ _ _ hr => hr.2) (by omega)) (.read _)) fun _ =>
    .bind (describes_readClock fun _ _ => made_emit) fun now => .bind (describes_revocation
      confined_revokeSessions_quiet noneOpened_revokeSessions fun h s _ _ => ?_) fun _ =>
        .pure fun _ _ => trivial
  refine triple_revokeSessions.mono (fun a b ⟨hs, hab⟩ => ⟨hs, fun id => by rw [hab]⟩) ?_
  rintro - a c hc uid ⟨rfl, -⟩
  exact hc _ (List.mem_singleton.mpr rfl)

theorem describes_recover {orgId userId : ℕ} {f : User → User}
    (hf : ∀ u, u.deleted = false → UserQuiet u (f u))
    (hr : ∀ h a uid, Revokes r h a uid → userId = uid) :
    Described (Catches r) (Made 4) (withBypassRls (recoverTx orgId userId f now)) fun _ _ => True := by
  refine describes_revocation (confined_recoverTx hf) noneOpened_recoverTx fun h s _ _ => ?_
  have hupdate : Triple (fun _ => true) .recordNotFound evolving (fun a b => Evolves s a ∧ a = b)
      (update .user userId (fun (u : User) => u.orgId == orgId) f)
      fun _ a b => Evolves s a ∧ SameRows .session a b :=
    (keeps_sameRows (sameRows_update (by decide))).pre fun a b ⟨hs, hab⟩ =>
      ⟨hs, fun id => by rw [hab]⟩
  refine .bind hupdate fun _ => .bind triple_revokeSessions fun _ => .pure fun a c hc uid hu => ?_
  obtain rfl := hr h a uid hu
  exact hc _ (List.mem_singleton.mpr rfl)

theorem describes_setPasswordForUser {newPassword : String} :
    Described (Catches (.setPasswordForUser orgId targetUserId actorUserId newPassword)) (Made 0)
      (setPasswordForUser orgId targetUserId actorUserId newPassword) fun _ _ => True :=
  .bind (describes_recoverable fun _ hk => catches_before (n := 4) (fun _ _ _ hr => hr.2) hk)
    fun _ => .bind (describes_readClock fun _ _ => made_emit) fun _ =>
      describes_recover (fun _ => userQuiet_recover) fun _ _ _ hr => hr.1

theorem describes_resetTwoFactorForUser :
    Described (Catches (.resetTwoFactorForUser orgId targetUserId actorUserId)) (Made 0)
      (resetTwoFactorForUser orgId targetUserId actorUserId) fun _ _ => True :=
  .bind (describes_recoverable fun _ hk => catches_before (n := 4) (fun _ _ _ hr => hr.2) hk)
    fun _ => .bind (describes_readClock fun _ _ => made_emit) fun _ =>
      describes_recover (fun _ hd => userQuiet_clear (userLe_of hd rfl rfl rfl) rfl rfl)
        fun _ _ _ hr => hr.1

/-! ## deactivate -/

/-- **The update** is the fourth transaction. -/
theorem describes_deactivate :
    Described (Catches (.deactivate orgId userId actorUserId)) (Made 0)
      (deactivate orgId userId actorUserId) fun _ h => 3 < commits h := by
  have hread : ∀ {k}, ∀ h a, Made k h → Catches (.deactivate orgId userId actorUserId) h a a :=
    fun h a _ => catches_quiet (.refl a) fun _ hr => hr
  have hmanage : Described (Catches (.deactivate orgId userId actorUserId)) (Made 1)
      (assertActorMayManageTargetUser orgId actorUserId userId) fun _ => Made 3 := by
    refine .bind (describes_resolveUserHighestSystemRole hread) fun _ =>
      .bind (describes_resolveUserHighestSystemRole hread) fun _ => ?_
    split
    · exact .pure fun _ hh => hh
    · exact .throw
  refine .bind (describes_getById hread) fun _ => .bind hmanage fun _ => .bind
    (.confined (Ψ := fun _ h => 3 < commits h) confined_setStatus (fun a b hs => (Quiet.walk hs).evolves)
      (fun h a b _ hs => catches_quiet (.walk hs) fun _ hr => hr) fun _ h a b hk => ?_) fun _ =>
        .bind ((plain_invalidateAuthUserCache _).describes (fun h l hh _ => ?_)
          fun h a b _ hs => catches_quiet (.walk hs) fun _ hr => hr) fun _ => .pure fun _ hh => hh
  · have h4 : commits (h ++ [.commit a b]) = 4 := made_commit hk a b
    omega
  · rw [commits_append]
    omega

/-! ## resetPassword -/

structure Found (token : String) (resetId : Id) (r : PasswordReset) (s : Db) : Prop where
  row : ∃ r', s.get .passwordReset resetId = some r' ∧ r'.userId = r.userId ∧
    r'.tokenHash = sha256 token

theorem found_keeps (token : String) (resetId : Id) (q : PasswordReset) :
    evolving.Keeps (Found token resetId q) := by
  rintro a b hab ⟨r, hr, hu, ht⟩
  obtain ⟨r', hr', hu', ht'⟩ := (hab .passwordReset resetId).1 r hr
  exact ⟨r', hr', hu'.trans hu, ht'.trans ht⟩

def HasAccount (userId : Id) (accountId : Option Id) (s : Db) : Prop :=
  ∃ u, s.get .user userId = some u ∧ u.accountId = accountId

theorem hasAccount_keeps (userId : Id) (accountId : Option Id) :
    evolving.Keeps (HasAccount userId accountId) := by
  rintro a b hab ⟨u, hu, ha⟩
  obtain ⟨u', hu', hle⟩ := Evolves.user hab hu
  exact ⟨u', hu', hle.accountId.trans ha⟩

/-- The members of the account that were there in `s₀` are in the list, unless deleted. -/
def Lists (s₀ : Db) (accountId : Id) (userIds : List Id) (a : Db) : Prop :=
  Evolves s₀ a ∧ ∀ id, HasAccount id (some accountId) s₀ → (∃ u, Live a .user id u) → id ∈ userIds

theorem lists_keeps {s₀ : Db} {accountId : Id} (userIds : List Id) :
    evolving.Keeps (Lists s₀ accountId userIds) := by
  rintro a b hab ⟨hs, h⟩
  refine ⟨Evolves.trans hs hab, fun id hid ⟨u, hu⟩ => h id hid ?_⟩
  obtain ⟨u0, hu0, -⟩ := hid
  obtain ⟨u1, hu1, -⟩ := hs.user hu0
  exact ⟨u1, (Evolves.live hab hu1 hu).1⟩

/-- **The transaction** catches the sessions of whoever the token is for. -/
theorem triple_resetPasswordTx {s₀ : Db} {resetId userId : ℕ} {target : User} {hash : PasswordHash}
    (ht : HasAccount userId target.accountId s₀) :
    Triple C e evolving (fun a b => Evolves s₀ a ∧ a = b)
      (resetPasswordTx resetId userId target hash now) fun _ a c => ∀ uid,
        (∃ u, Live a .user uid u) → (userId = uid ∨ SameAccount s₀ userId uid) →
          Caught s₀ uid c := by
  -- Until the members are read, sessions and users are as committed.
  have hsame : ∀ {k : Kind} {id : Id} {p : Row k → Bool} {f : Row k → Row k}, Kind.session ≠ k →
      Kind.user ≠ k → Triple C e evolving
        (fun a b => Evolves s₀ a ∧ SameRows .session a b ∧ SameRows .user a b) (update k id p f)
        fun _ a b => Evolves s₀ a ∧ SameRows .session a b ∧ SameRows .user a b := by
    intro k id p f hses huser
    have hc : Confined C e evolving (fun a b => SameRows .session a b ∧ SameRows .user a b)
        (update k id p f) := confined_update fun r a b _ _ hw => by
      rw [hw.2.2.2]
      exact ⟨sameRows_set hses, sameRows_set huser⟩
    exact hc.keeps fun a b c hbc hab => ⟨hab.1, fun id => (hbc.1 id).trans (hab.2.1 id),
      fun id => (hbc.2 id).trans (hab.2.2 id)⟩
  refine .bind ((hsame (by decide) (by decide)).pre fun a b ⟨hs, hab⟩ =>
    ⟨hs, fun id => by rw [hab], fun id => by rw [hab]⟩) fun _ => ?_
  cases hacc : target.accountId with
  | none =>
    refine .bind (Q := fun _ a b => Evolves s₀ a ∧ SameRows .session a b) ?_ fun _ =>
      .bind triple_revokeSessions fun _ => .pure fun a c hc uid _ huid => ?_
    · exact (keeps_sameRows (sameRows_update (by decide))).pre fun a b hab => ⟨hab.1, hab.2.1⟩
    · rcases huid with rfl | ⟨u, v, accountId, hu, -, ha, -⟩
      · exact hc _ (List.mem_singleton.mpr rfl)
      · obtain ⟨u', hu', ha'⟩ := ht
        obtain rfl : u = u' := Option.some.inj (hu.symm.trans hu')
        rw [ha', hacc] at ha
        cases ha
  | some accountId =>
    refine .bind (hsame (by decide) (by decide)) fun _ => .bind (Q := fun siblings a b =>
      Lists s₀ accountId (siblings.map (·.1)) a ∧ SameRows .session a b) ?_ fun siblings => ?_
    · refine (Triple.readFact (F := fun siblings : List (Id × User) =>
        Lists s₀ accountId (siblings.map (·.1))) (fun _ => lists_keeps _) ?_).post
          fun _ a b hab => ⟨hab.1, hab.2.2.1⟩
      rintro a c ⟨hs, -, huser⟩
      refine ⟨hs, fun id ⟨u0, hu0, ha0⟩ ⟨u, hu⟩ => ?_⟩
      obtain ⟨u', hu', hle⟩ := hs.user hu0
      obtain rfl : u = u' := Option.some.inj (hu.1.symm.trans hu')
      refine List.mem_map.mpr ⟨(id, u), mem_seen.mpr ⟨⟨(huser id).trans hu.1, hu.2⟩, ?_⟩, rfl⟩
      simp [hle.accountId, ha0]
    · refine .bind (keeps_sameRows ?_) fun _ => .bind (Q := fun _ a c =>
        Lists s₀ accountId (siblings.map (·.1)) a ∧
          ∀ uid ∈ siblings.map (·.1), Caught s₀ uid c) ?_ fun _ => .pure ?_
      · generalize (siblings.map fun m => m.2.orgId).eraseDups = orgIds
        induction orgIds with
        | nil => exact .pure _
        | cons orgId orgIds ih =>
          exact .bind (sameRows_updateMany (fun _ => List.Subset.refl _) (by decide)) fun _ => ih
      · generalize siblings.map (·.1) = userIds
        have hlists : Triple C e evolving
            (fun a b => Lists s₀ accountId userIds a ∧ SameRows .session a b)
            (revokeSessions userIds now) fun _ a _ => Lists s₀ accountId userIds a :=
          (confined_revokeSessions_quiet.keeps (P := fun a _ => Lists s₀ accountId userIds a)
            fun _ _ _ _ hl => hl).pre fun a b hab => hab.1
        exact hlists.both (triple_revokeSessions.pre fun a b hab => ⟨hab.1.1, hab.2⟩)
      · rintro a c ⟨hl, hc⟩ uid hlive huid
        refine hc uid (hl.2 uid ?_ hlive)
        rcases huid with rfl | ⟨u, v, accountId', hu, hv, ha, hva⟩
        · exact hacc ▸ ht
        · obtain ⟨u', hu', ha'⟩ := ht
          obtain rfl : u = u' := Option.some.inj (hu.symm.trans hu')
          rw [ha', hacc] at ha
          cases ha
          exact ⟨v, hv, hva⟩

theorem describes_resetPassword {token newPassword : String} :
    Described (Catches (.resetPassword token newPassword)) (Made 0)
      (resetPassword token newPassword) fun _ _ => True := by
  have hbefore : ∀ k, k < 2 → ∀ h a, Made k h → Catches (.resetPassword token newPassword) h a a :=
    fun _ hk => catches_before (fun _ _ _ hr => hr.1) hk
  have hfind : ∀ p : PasswordReset → Bool, (∀ r, p r = true → r.tokenHash = sha256 token) →
      Described (Catches (.resetPassword token newPassword)) (Made 0)
        (withBypassRls (findFirst .passwordReset fun _ => p)) fun o h => Made 1 h ∧
          Holds (fun s => ∀ x : Id × PasswordReset, o = some x → Found token x.1 x.2 s) h := by
    intro p hp
    refine .learn (hbefore 0 (by omega)) (fun _ a hk => made_commit hk a a) (.pick fun n =>
      .readFirst
        (F := fun o s => ∀ x : Id × PasswordReset, o = some x → Found token x.1 x.2 s)
        (fun o a b hab hx x ho => found_keeps token x.1 x.2 a b hab (hx x ho)) fun s x ho => ?_)
    obtain ⟨hl, hx⟩ := mem_seen.mp (List.mem_of_getElem? ho)
    exact ⟨⟨x.2, hl.1, rfl, hp x.2 hx⟩⟩
  refine .bind (describes_readClock fun _ _ => made_emit) fun now => .bind (.retryTx
    (fun h e' hk => (commits_rollback e').trans hk) (hfind _ fun r hr => by
      simp only [Bool.and_eq_true, beq_iff_eq] at hr
      exact hr.1.1)) fun o => ?_
  cases o with
  | none => exact .throw
  | some x =>
    obtain ⟨resetId, matched⟩ := x
    refine .bind (Ψ := fun _ h => Made 1 h ∧ Holds (Found token resetId matched) h)
      (.ofExcept fun _ h _ hh => ?_) fun _ => .bind (.learnMore (Ω := Made 2)
        (F := fun o s => ∀ u : User, o = some u → HasAccount matched.userId u.accountId s)
        (hbefore 1 (by omega)) (fun _ a hk => made_commit hk a a) (found_keeps token resetId matched)
        (.readFact (F := fun o s => ∀ u : User, o = some u → HasAccount matched.userId u.accountId s)
          (fun o a b hab hx u ho => hasAccount_keeps _ _ a b hab (hx u ho)) ?_)) fun o => ?_
    · obtain ⟨hk, s, hs, hF⟩ := hh
      exact ⟨hk, s, hs, hF _ rfl⟩
    · rintro a c ⟨-, rfl⟩ u ho
      exact ⟨u, (live_any.mp ho).1, rfl⟩
    · cases o with
      | none => exact .throw
      | some target =>
        refine .bind (describes_readClock fun _ _ hh => ⟨made_emit hh.1, holds_emit hh.2⟩)
          fun usedAt => describes_revocation confined_resetPasswordTx noneOpened_resetPasswordTx
            fun h s hh hs => ?_
        obtain ⟨-, s', hs', hfound, hacc⟩ := hh
        obtain rfl : s = s' := Option.some.inj (hs.symm.trans hs')
        refine (triple_resetPasswordTx (hacc target rfl)).post fun _ a c hc uid hr => ?_
        obtain ⟨r, hrow, hu, ht⟩ := hfound.row
        exact hc uid hr.2.1 (hu ▸ hr.2.2 s hs resetId r hrow ht)

/-! ## refreshTokens -/

def Issued (sessions : List (Id × SessionRow)) (s : Db) : Prop :=
  ∀ x ∈ sessions, ∃ r, s.get .session x.1 = some r ∧ r.tokenHash = x.2.tokenHash

theorem issued_keeps (sessions : List (Id × SessionRow)) : evolving.Keeps (Issued sessions) := by
  intro a b hab hi x hx
  obtain ⟨r, hr, ht⟩ := hi x hx
  obtain ⟨r', hr', hle⟩ := Evolves.session hab hr
  exact ⟨r', hr', hle.tokenHash.trans ht⟩

theorem does_refresh_read (hk : k ≠ 2) (hk' : k ≠ 4) :
    ∀ h a, Made k h → Does (.refreshTokens token) h a a := fun _ a hm =>
  ⟨.refl a, fun h2 => absurd (hm.symm.trans h2) hk, fun h4 => absurd (hm.symm.trans h4) hk',
    fun _ _ hn => hn⟩

/-- **The session that has been found** is revoked. -/
theorem describes_revokeSession {sessions : List (Id × SessionRow)} {x : Id × SessionRow}
    (hx : findMatchingSession sessions token = some x) :
    Described (Does (.refreshTokens token)) (fun h => Made 2 h ∧ Holds (Issued sessions) h)
      (withBypassRls (revokeSession x.1 now)) fun _ => Made 3 := by
  refine .tx (R := fun h _ a c => Made 2 h ∧ Quiet a c ∧ Spends token a c ∧ NoneOpened a c)
    (fun h hh => ?_) ?_
  · obtain ⟨hk, s, hs, hi⟩ := hh
    refine triple_update fun r a b c hp hl _ hw => ?_
    obtain ⟨hev, rfl⟩ := hp
    have hquiet : Quiet a c := by
      rw [hw.2.2.2]
      exact quiet_set (by decide) (evolves_session hl.1 ⟨rfl, rfl, rfl, fun _ => rfl, fun hd => hd⟩)
    refine ⟨hk, hquiet, ⟨x.1, r, { r with revokedAt := some now }, hl.1, ?_, hw.2.get_self, rfl⟩,
      fun id hn => ?_⟩
    · obtain ⟨r', hr', ht'⟩ := issued_keeps sessions _ _ (hev s hs) hi x (List.mem_of_find?_eq_some hx)
      obtain rfl : r = r' := Option.some.inj (hl.1.symm.trans hr')
      rw [ht']
      simpa using List.find?_some hx
    · have hid : id ≠ x.1 := fun heq => by
        have hlive := hl.1
        rw [← heq, hn] at hlive
        cases hlive
      rw [hw.2.get_ne (by simpa using hid), hn]
  · rintro h _ a c - ⟨hk, hq, hsp, hno⟩
    refine ⟨hq.evolves, ⟨hq, fun _ => hsp, fun h4 => ?_, fun _ => hno⟩, made_commit hk a c⟩
    have h2 : commits h = 2 := hk
    have h4' : commits h = 4 := h4
    omega

/-- **The next session** is the user's. -/
theorem triple_createSession {tokenHash : Sha256 Jwt} {expiresAt : ℕ} :
    Triple C e evolving Eq (createSession userId tokenHash expiresAt)
      fun _ a c => Quiet a c ∧ Opens userId a c := by
  refine .bind (Q := fun _ => Eq) (.read fun _ _ _ hp => hp) fun o => ?_
  cases o with
  | none => exact .throw
  | some u =>
    refine .bind (Q := fun _ => Eq) (.input fun _ _ _ hp => hp) fun id =>
      .bind (Q := fun _ a c => Quiet a c ∧ Opens userId a c) (.insert fun a b c hp hw => ?_) fun _ =>
        .pure fun _ _ hq => hq
    subst hp
    refine ⟨?_, id, _, hw.2.get_old, hw.2.get_self, rfl⟩
    rw [hw.2.2.2]
    exact quiet_none hw.2.get_old (by decide)

theorem describes_generateTokenPair {orgSlug email : String} :
    Described (Does (.refreshTokens token)) (Made 4)
      (generateTokenPair d token.payload.sub orgId orgSlug email) fun _ => Made 5 := by
  have hclock : Described (Does (.refreshTokens token)) (Made 4) readClock fun _ => Made 4 :=
    describes_readClock fun _ _ => made_emit
  refine .bind hclock fun _ => .bind hclock fun _ => .bind hclock fun _ => .bind (Ψ := fun _ => Made 5)
    (.tx (R := fun h _ a c => Made 4 h ∧ Quiet a c ∧ Opens token.payload.sub a c) (fun h hh => ?_) ?_)
    fun _ => .pure fun _ hh => hh
  · exact triple_createSession.mono (fun a b hp => hp.2) fun _ a c hc => ⟨hh, hc⟩
  · rintro h _ a c - ⟨hk, hq, hopens⟩
    refine ⟨hq.evolves, ⟨hq, fun h2 => ?_, fun _ => hopens, fun h4 => absurd hk h4⟩,
      made_commit hk a c⟩
    have h4 : commits h = 4 := hk
    have h2' : commits h = 2 := h2
    omega

theorem payload_of_verify {secret : String} {payload : JwtPayload}
    (h : verify secret token now = some payload) : payload = token.payload := by
  unfold verify at h
  split at h
  · exact (Option.some.inj h).symm
  · cases h

theorem describes_refreshTokens :
    Described (Does (.refreshTokens token)) (Made 0) (refreshTokens d token) fun _ => Made 5 := by
  refine .handle (.bind (describes_readClock fun _ _ => made_emit) fun now => ?_) fun e' => by
    cases e' <;> exact .throw
  cases hv : verify d.refreshSecret token now with
  | none => exact .throw
  | some payload =>
    obtain rfl := payload_of_verify hv
    refine .bind (.count (does_refresh_read (by omega) (by omega)) (.read _)) fun o => ?_
    cases o with
    | none => exact .throw
    | some user =>
      dsimp only
      split
      · exact .throw
      · refine .bind (describes_readClock fun _ _ => made_emit) fun now => .bind
          (.learn (Ω := Made 2) (F := Issued) (does_refresh_read (by omega) (by omega))
            (fun _ a hk => made_commit hk a a) (.readFirst issued_keeps fun s => ?_)) fun sessions => ?_
        · rintro ⟨id, r⟩ hx
          exact ⟨r, (mem_seen.mp hx).1.1, rfl⟩
        · cases hx : findMatchingSession sessions token with
          | none => exact .throw
          | some x =>
            exact .bind (describes_readClock fun _ _ hh => ⟨made_emit hh.1, holds_emit hh.2⟩) fun _ =>
              .bind (describes_revokeSession hx) fun _ =>
                .bind (.count (does_refresh_read (by omega) (by omega)) (.read _)) fun org =>
                  .bind describes_generateTokenPair fun _ => .pure fun _ hh => hh

/-! ## delete -/

theorem gone_keeps (userId : Id) : evolving.Keeps fun s => Gone s userId := by
  rintro a b hab ⟨u, hu, hd⟩
  obtain ⟨u', hu', hle⟩ := Evolves.user hab hu
  exact ⟨u', hu', by rw [hle.deleted hd, hd]⟩

/-- **The user is deleted** by the transaction of `delete`. -/
theorem triple_deleteTx {P : Db → Db → Prop} :
    Triple C e evolving P (deleteTx orgId userId) fun _ _ c => Gone c userId := by
  have hsame : ∀ {β : Type} {t : ATx β}, Confined C e evolving (SameRows .user) t →
      Triple C e evolving (fun _ c => Gone c userId) t fun _ _ c => Gone c userId :=
    fun ht => ht.keeps fun a b c hbc ⟨u, hu, hd⟩ => ⟨u, (hbc userId).trans hu, hd⟩
  refine .bind (Q := fun _ _ _ => True) (.bind (Q := fun _ _ _ => True) (.read fun _ _ _ _ => trivial)
    fun _ => .bind (Q := fun _ _ _ => True) ?_ fun _ => .pure fun _ _ _ => trivial) fun _ =>
      .bind (Q := fun _ _ _ => True) ?_ fun _ => .bind (Q := fun _ _ _ => True)
        (.input fun _ _ _ _ => trivial) fun n => ?_
  · exact (confined_deleteAssignments.triple fun _ _ _ _ _ _ => trivial)
  · exact (confined_deleteSessions.triple fun _ _ _ _ _ _ => trivial)
  · split
    · exact .throw
    refine .bind (Q := fun _ _ c => Gone c userId) (triple_update
      fun r a b c _ _ _ hw => ⟨_, hw.2.get_self, rfl⟩) fun _ => ?_
    refine .bind (hsame (sameRows_updateMany (fun _ => List.Subset.refl _) (by decide))) fun _ =>
      .bind (hsame (sameRows_updateMany (fun _ => List.Subset.refl _) (by decide))) fun _ =>
        .bind (hsame (sameRows_updateMany (fun _ => List.nil_subset _) (by decide))) fun _ =>
          .pure fun _ _ hg => hg

theorem describes_delete :
    Described (Catches (.delete orgId userId actorUserId)) (fun _ => True)
      (remove orgId userId actorUserId)
      fun _ h => ∃ a b, Entry.commit a b ∈ h ∧ Gone b userId := by
  have hlasts : ∀ Φ : List Line → Prop, (∀ h l, Φ h → Φ (h ++ [l])) → ∀ {c : ACall Unit}, Plain c →
      Described (Catches (.delete orgId userId actorUserId)) Φ c fun _ => Φ := fun Φ hΦ c hc =>
    hc.describes (fun h l hh _ => hΦ h l hh) fun h a b _ hs => catches_quiet (.walk hs) fun _ hr => hr
  refine .bind (Ψ := fun _ _ => True) ((plain_getById _ _).describes (fun _ _ _ _ => trivial)
    fun h a b _ hs => catches_quiet (.walk hs) fun _ hr => hr) fun _ => .bind (hlasts _
      (fun _ _ _ => trivial) (plain_assertActorMayManageTargetUser _ _ _)) fun _ => .bind (.tx
        (R := fun _ _ a c => Quiet a c ∧ Gone c userId) (fun h _ => ?_) ?_) fun _ => hlasts _
          (fun h l ⟨a, b, hc, hg⟩ => ⟨a, b, List.mem_append_left _ hc, hg⟩)
            (plain_invalidateAuthUserCache _)
  · refine ((confined_deleteTx (Since evolving h)).both triple_deleteTx).post ?_
    rintro - a c ⟨⟨b, ⟨-, rfl⟩, hs⟩, hg⟩
    exact ⟨.walk hs, hg⟩
  · rintro h - a c - ⟨hq, hg⟩
    exact ⟨hq.evolves, catches_quiet hq fun _ hr => hr, a, c,
      List.mem_append_right _ (List.mem_singleton.mpr rfl), hg⟩

end Revocations

/-! ## Logins with a backup code -/

section BackupCodes

variable {token : Jwt} {code : String} {D : List Line → Db → Db → Prop} {Φ : List Line → Prop}
  {β : Type}

theorem unmarked_snoc {l : Line} (hl : ∀ m, l = .emit m → ¬ CodeMark m) : Unmarked (h ++ [l]) := by
  intro m hm hlast
  rw [List.getLast?_append, List.getLast?_singleton, Option.some_or, Option.some.injEq] at hlast
  exact hl m hlast hm

theorem lasts_unmarked : Lasts (fun m => ¬ CodeMark m) (Unmarked : List Line → Prop) :=
  fun _ _ _ hl => unmarked_snoc hl

theorem unmarked_commit (h : List Line) (a b : Db) : Unmarked (h ++ [.commit a b]) :=
  unmarked_snoc fun m hm => by cases hm

theorem unmarked_clock (h : List Line) (now : ℕ) : Unmarked (h ++ [.emit (.clock now)]) :=
  unmarked_snoc fun m hm => by cases hm; exact id

theorem getLast?_emit (h : List Line) (m : Mark) :
    (h ++ [Entry.emit m] : List Line).getLast? = some (.emit m) := by
  rw [List.getLast?_append, List.getLast?_singleton, Option.some_or]

/-- Where no mark is, the commits of a login with a second factor are quiet. -/
theorem does_unmarked (hh : Unmarked h) (hq : Quiet a b) :
    Does (.completeTwoFactorLogin token code) h a b :=
  ⟨fun _ => hq, fun _ _ _ _ hlast => absurd hlast (hh _ trivial)⟩

theorem spendsCode_snoc {l : Line} (hc : SpendsCode h) : SpendsCode (h ++ [l]) := by
  obtain ⟨h1, a, b, h2, channel, userIds, hashes, place, rfl, hlast⟩ := hc
  exact ⟨h1, a, b, h2 ++ [l], channel, userIds, hashes, place, by simp, hlast⟩

def Factored (d : Deployment) (code : String) (verified : Bool) (h : List Line) : Prop :=
  verified = true →
    (∃ secret now, verifyTotp d secret (removeSpaces code) now = true) ∨ SpendsCode h

theorem factored_false (h : List Line) : Factored d code false h := fun hv => by cases hv

theorem factored_totp {secret : Option String} {now : ℕ} (h : List Line)
    (hv : (secret.any fun secret => verifyTotp d secret (removeSpaces code) now) = true) :
    Factored d code true h := fun _ => by
  obtain ⟨secret, -, hv⟩ := (Option.any_eq_true _ _).mp hv
  exact Or.inl ⟨secret, now, hv⟩

theorem plain_unmarked {c : ACall β} (hc : Plain c) :
    Described (Does (.completeTwoFactorLogin token code)) Unmarked c fun _ => Unmarked :=
  hc.describes lasts_unmarked fun _ _ _ hh hs => does_unmarked hh (.walk hs)

theorem getD_orNull (hashes : List BackupHash) : (orNull hashes).getD [] = hashes := by
  cases hashes with
  | nil => rfl
  | cons x xs => rfl

/-- **What has been read of the memberships** stays. -/
theorem triple_loadMemberships :
    Triple C e evolving Eq (loadAdminTwoFactorMemberships userId) fun o a b =>
      (∀ r : ResolvedAdminTwoFactor, o = some r → Known r.memberships a) ∧ a = b := by
  refine .bind (Q := fun _ a b => a = b) (.read fun _ _ _ hab => hab) fun o => ?_
  cases o with
  | none => exact .pure fun a b hab => ⟨fun r hr => (by cases hr), hab⟩
  | some anchor =>
    refine .bind (.readFact (F := fun memberships : List (Id × User) => Known memberships)
      (fun _ => known_keeps _) fun a c hac => ?_) fun memberships => .pure fun a b hab =>
        ⟨fun r hr => (by cases hr; exact hab.1), hab.2⟩
    subst hac
    exact known_seen

/-- A transaction right after the event that tells what it does. -/
theorem describes_after {t : ATx β} {B : List Line → Db → Db → Prop} {Ω : List Line → Prop}
    {K : Db → Db → Prop} {l : Line} (hev : Confined (fun _ => true) .recordNotFound evolving Evolves t)
    (ht : ∀ h, Φ h → Triple (fun _ => true) .recordNotFound evolving (Since evolving h) t fun _ => K)
    (hB : ∀ h a c, h.getLast? = some l → K a c → B h a c ∧ Ω (h ++ [.commit a c])) :
    Described B (fun h => Φ h ∧ h.getLast? = some l) (withBypassRls t) fun _ => Ω := by
  refine .tx (R := fun _ _ a c => Evolves a c ∧ K a c) (fun h hh => ?_)
    fun h _ a c hh hr => ⟨hr.1, hB h a c hh.2 hr.2⟩
  refine ((hev (Since evolving h)).both (ht h hh.1)).post ?_
  rintro - a c ⟨⟨b, ⟨-, rfl⟩, hw⟩, hr⟩
  exact ⟨.walk hw, hr⟩

/-- The transaction that writes the codes that are left. -/
theorem describes_rewrite {t : ATx β} {userIds : List Id} {hashes : List BackupHash} {place : ℕ}
    (hm : matchingBackupCode (removeSpaces code) hashes = some place)
    (hev : Confined (fun _ => true) .recordNotFound evolving Evolves t)
    (ht : ∀ h, Φ h → Triple (fun _ => true) .recordNotFound evolving (Since evolving h) t
      fun _ a b => Rewrites channel userIds (hashes.eraseIdx place) a b) :
    Described (Does (.completeTwoFactorLogin token code)) (fun h => Φ h ∧
        h.getLast? = some (.emit (.matched channel userIds hashes place))) (withBypassRls t)
      fun _ h => Unmarked h ∧ SpendsCode h := by
  refine describes_after hev ht fun h a c hlast hr => ⟨⟨fun hun => absurd hlast (hun _ _ _ _),
    fun ch ids hs pl hl => ?_⟩, unmarked_commit h a c, h, a, c, [], channel, userIds, hashes, place,
    rfl, hlast⟩
  rw [hlast] at hl
  cases hl
  exact ⟨hm, hr⟩

theorem describes_verifyAdminCode :
    Described (Does (.completeTwoFactorLogin token code)) Unmarked
      (verifyAdminCode d userId (removeSpaces code))
      fun verified h => Unmarked h ∧ Factored d code verified h := by
  refine .bind (.learn (Ω := Unmarked) (fun h a hh => does_unmarked hh (.refl a))
    (fun h a _ => unmarked_commit h a a) triple_loadMemberships) fun o => .bind (describes_readClock
      fun h now hh => ⟨unmarked_clock h now, holds_emit hh.2⟩) fun now => ?_
  cases o with
  | none => exact .pure fun h hh => ⟨hh.1, factored_false h⟩
  | some resolved =>
    dsimp only
    split
    · rename_i hv
      exact .pure fun h hh => ⟨hh.1, factored_totp h hv⟩
    · cases resolved.backupHashes with
      | none => exact .pure fun h hh => ⟨hh.1, factored_false h⟩
      | some hashes =>
        dsimp only
        cases hm : matchingBackupCode (removeSpaces code) hashes with
        | none => exact .pure fun h hh => ⟨hh.1, factored_false h⟩
        | some place =>
          refine .bind (.fire (Ω := fun h => Holds (Known resolved.memberships) h ∧ h.getLast? =
            some (.emit (.matched .adminDashboard (resolved.memberships.map (·.1)) hashes place)))
            fun h hh => ⟨holds_emit ?_, getLast?_emit h _⟩) fun _ => .bind (describes_rewrite hm
              confined_syncBackupHashes fun h ⟨s, hs, hF⟩ => ?_) fun _ =>
                .pure fun _ hh => ⟨hh.1, fun _ => Or.inr hh.2⟩
          · obtain ⟨-, s, hs, hF⟩ := hh
            exact ⟨s, hs, hF _ rfl⟩
          · refine (triple_syncBackupHashes hF).mono (fun a b hab => ⟨hab.1 s hs, hab.2⟩) ?_
            rintro - a b hr
            rwa [getD_orNull] at hr

theorem describes_verifyUserCode {orgId : Id} :
    Described (Does (.completeTwoFactorLogin token code)) Unmarked
      (verifyUserCode d orgId userId (removeSpaces code))
      fun verified h => Unmarked h ∧ Factored d code verified h := by
  refine .bind (plain_unmarked (plain_tx (.read _))) fun o => .bind (plain_unmarked plain_readClock)
    fun now => ?_
  cases o with
  | none => exact .pure fun h hh => ⟨hh, factored_false h⟩
  | some u =>
    dsimp only
    split
    · rename_i hv
      exact .pure fun h hh => ⟨hh, factored_totp h hv⟩
    · cases u.twoFactorBackupHashes with
      | none => exact .pure fun h hh => ⟨hh, factored_false h⟩
      | some hashes =>
        dsimp only
        cases hm : matchingBackupCode (removeSpaces code) hashes with
        | none => exact .pure fun h hh => ⟨hh, factored_false h⟩
        | some place =>
          refine .bind (.fire (Ω := fun h => True ∧ h.getLast? =
            some (.emit (.matched .organization [userId] hashes place)))
            fun h _ => ⟨trivial, getLast?_emit h _⟩) fun _ => .bind (describes_rewrite hm
              confined_writeBackupHashes fun h _ => ?_) fun _ =>
                .pure fun _ hh => ⟨hh.1, fun _ => Or.inr hh.2⟩
          refine triple_writeBackupHashes.mono (fun a b hab => hab.2) ?_
          rintro - a b hr
          rwa [getD_orNull] at hr

theorem plain_requireSecondFactor (isAdminTotp : Bool) (m : Membership) :
    Plain (requireSecondFactor isAdminTotp m) := by
  unfold requireSecondFactor
  split
  · exact .bind (plain_tx (confined_loadMemberships _)) fun _ => .ite (.pure _) (.throw _)
  · exact .ite (.pure _) (.throw _)

theorem describes_completeTwoFactorLogin :
    Described (Does (.completeTwoFactorLogin token code)) (fun _ => True)
      (completeTwoFactorLogin d token code) fun _ h =>
        (∃ secret now, verifyTotp d secret (removeSpaces code) now = true) ∨ SpendsCode h := by
  have hclock : Described (Does (.completeTwoFactorLogin token code)) (fun _ => True) readClock
      fun _ => Unmarked :=
    .bind (Ψ := fun _ _ => True) (.input fun _ _ _ => trivial) fun now =>
      .bind (.fire (Ω := Unmarked) fun h _ => unmarked_clock h now) fun _ => .pure fun _ hh => hh
  refine .retry (.bind hclock fun now => ?_)
  cases verify d.jwtSecret token now with
  | none => exact .throw
  | some decoded =>
    dsimp only
    split
    · exact .throw
    · refine .bind (plain_unmarked (plain_tx (.readOrThrow _ _))) fun o => ?_
      cases o with
      | none => exact .throw
      | some m =>
        refine .bind (plain_unmarked (.ofExcept _)) fun _ => .bind (plain_unmarked
          (plain_requireSecondFactor _ _)) fun _ => .bind
            (Ψ := fun verified h => Unmarked h ∧ Factored d code verified h) ?_ fun verified => ?_
        · unfold verifySecondFactor
          split
          · exact describes_verifyAdminCode
          · exact describes_verifyUserCode
        · cases verified with
          | false => exact .throw
          | true =>
            exact ((plain_unmarked (.bind plain_readClock fun _ => .bind (plain_tx
              confined_touchLastLogin) fun _ => .bind (plain_roleName _) fun _ =>
                .bind (plain_generateTokenPair _ _ _ _) fun _ => .pure _)).frame
                  (F := Factored d code true) fun h l hf hv => (hf hv).imp_right spendsCode_snoc).post
                    fun _ _ hh => hh.2 rfl

/-! ## Regenerations -/

variable {userId : Id} {password totpCode : String} {channel : TotpChannel}

theorem does_regenerate_unmarked (hh : Unmarked h) (hq : Quiet a b) :
    Does (.regenerateBackupCodes userId password totpCode channel) h a b :=
  ⟨fun _ => hq, fun _ _ _ hlast => absurd hlast (hh _ trivial)⟩

theorem plain_regenerate {c : ACall β} (hc : Plain c) :
    Described (Does (.regenerateBackupCodes userId password totpCode channel)) Unmarked c
      fun _ => Unmarked :=
  hc.describes lasts_unmarked fun _ _ _ hh hs => does_regenerate_unmarked hh (.walk hs)

/-- The transaction that writes the new codes. -/
theorem describes_replace {t : ATx β} {userIds : List Id} {hashes : List BackupHash}
    (hev : Confined (fun _ => true) .recordNotFound evolving Evolves t)
    (ht : ∀ h, Φ h → Triple (fun _ => true) .recordNotFound evolving (Since evolving h) t
      fun _ a b => ((∃ u, Live a .user userId u) → userId ∈ userIds) ∧
        Rewrites channel userIds hashes a b) :
    Described (Does (.regenerateBackupCodes userId password totpCode channel)) (fun h => Φ h ∧
        h.getLast? = some (.emit (.regenerated channel userIds hashes))) (withBypassRls t)
      fun _ _ => True := by
  refine describes_after hev ht fun h a c hlast hr => ⟨⟨fun hun => absurd hlast (hun _ _ _),
    fun ch ids hs hl => ?_⟩, trivial⟩
  rw [hlast] at hl
  cases hl
  exact ⟨rfl, hr⟩

def Listed (userId : Id) (memberships : List (Id × User)) (s : Db) : Prop :=
  (∃ u, s.get .user userId = some u) ∧
    ((∃ u, Live s .user userId u) → userId ∈ memberships.map (·.1))

theorem listed_keeps (userId : Id) (memberships : List (Id × User)) :
    evolving.Keeps (Listed userId memberships) := by
  rintro a b hab ⟨⟨u, hu⟩, h⟩
  obtain ⟨u', hu', -⟩ := Evolves.user hab hu
  refine ⟨⟨u', hu'⟩, fun ⟨v, hv⟩ => h ⟨u, (Evolves.live hab hu hv).1⟩⟩

/-- The user whose setup is read, as far as others leave him as he is. -/
def Anchored (userId : Id) (anchor : User) (s : Db) : Prop :=
  ∃ u, s.get .user userId = some u ∧ u.accountId = anchor.accountId ∧ u.email = anchor.email

theorem anchored_keeps (userId : Id) (anchor : User) : evolving.Keeps (Anchored userId anchor) := by
  rintro a b hab ⟨u, hu, ha, he⟩
  obtain ⟨u', hu', hle⟩ := Evolves.user hab hu
  exact ⟨u', hu', hle.accountId.trans ha, hle.email.trans he⟩

theorem sharesSetup_self {anchor u : User} (ha : u.accountId = anchor.accountId)
    (he : u.email = anchor.email) : sharesSetup anchor u = true := by
  unfold sharesSetup
  cases hacc : anchor.accountId with
  | none => simp [he]
  | some accountId => simp [ha, hacc]

theorem triple_loadAdminTwoFactor :
    Triple C e evolving Eq (loadAdminTwoFactor userId) fun o a b =>
      (∀ x : PasswordHash × ResolvedAdminTwoFactor, o = some x →
        Known x.2.memberships a ∧ Listed userId x.2.memberships a) ∧ a = b := by
  have hload : Triple C e evolving (fun a b => a = b) (loadAdminTwoFactorMemberships userId)
      fun o a b => (∀ r : ResolvedAdminTwoFactor, o = some r →
        Known r.memberships a ∧ Listed userId r.memberships a) ∧ a = b := by
    refine .bind (.readFact (F := fun o s => ∀ anchor : User, o = some anchor →
      Anchored userId anchor s) (fun o a b hab hx anchor ho =>
        anchored_keeps userId anchor a b hab (hx anchor ho)) ?_) fun o => ?_
    · rintro a c rfl anchor ho
      exact ⟨anchor, (live_any.mp ho).1, rfl, rfl⟩
    · cases o with
      | none => exact .pure fun a b hab => ⟨fun r hr => (by cases hr), hab.2⟩
      | some anchor =>
        refine .bind (.readFact (F := fun (memberships : List (Id × User)) (s : Db) =>
          Known memberships s ∧ Listed userId memberships s)
          (fun memberships a b hab hx => ⟨known_keeps memberships a b hab hx.1,
            listed_keeps userId memberships a b hab hx.2⟩) ?_) fun memberships => .pure fun a b hab =>
              ⟨fun r hr => (by cases hr; exact hab.1), hab.2.2⟩
        rintro a c ⟨hx, rfl⟩
        obtain ⟨u, hu, ha, he⟩ := hx anchor rfl
        refine ⟨known_seen, ⟨u, hu⟩, fun ⟨v, hv⟩ => List.mem_map.mpr ⟨(userId, v), ?_, rfl⟩⟩
        obtain rfl : u = v := Option.some.inj (hu.symm.trans hv.1)
        exact mem_seen.mpr ⟨hv, sharesSetup_self ha he⟩
  refine .bind (Q := fun _ a b => a = b) (.read fun _ _ _ hab => hab) fun o => ?_
  cases o with
  | none => exact .pure fun a b hab => ⟨fun r hr => (by cases hr), hab⟩
  | some u =>
    refine .bind hload fun o => .pure fun a b hab => ⟨fun x hx => ?_, hab.2⟩
    obtain ⟨r, hr, rfl⟩ := Option.map_eq_some_iff.mp hx
    exact hab.1 r hr

theorem describes_generateBackupCodes {count : ℕ} :
    Described D Φ (generateBackupCodes count) fun _ => Φ := by
  induction count with
  | zero => exact .pure fun _ hh => hh
  | succ count ih =>
    exact .bind ih fun _ => .bind (.input (Ψ := fun _ => Φ) fun _ _ hh => hh) fun _ =>
      .pure fun _ hh => hh

theorem describes_hashBackupCodes {codes : List String} :
    Described D Φ (hashBackupCodes codes) fun _ => Φ := by
  induction codes with
  | nil => exact .pure fun _ hh => hh
  | cons code codes ih =>
    exact .bind (.input (Ψ := fun _ => Φ) fun _ _ hh => hh) fun _ => .bind ih fun _ =>
      .pure fun _ hh => hh

theorem describes_regenerateAdminCodes :
    Described (Does (.regenerateBackupCodes userId password totpCode .adminDashboard)) Unmarked
      (regenerateAdminCodes d userId password totpCode) fun _ _ => True := by
  refine .bind (.learn (Ω := Unmarked) (fun h a hh => does_regenerate_unmarked hh (.refl a))
    (fun h a _ => unmarked_commit h a a) triple_loadAdminTwoFactor) fun o => ?_
  cases o with
  | none => exact .throw
  | some x =>
    obtain ⟨passwordHash, admin⟩ := x
    dsimp only
    split
    · exact .throw
    · refine .bind (describes_readClock fun h now hh => ⟨unmarked_clock h now, holds_emit hh.2⟩)
        fun now => .bind (.ofExcept (Ψ := fun _ h => Unmarked h ∧ Holds (fun s =>
          Known admin.memberships s ∧ Listed userId admin.memberships s) h) fun _ h _ hh => ?_)
          fun _ => .bind describes_generateBackupCodes fun plainCodes => .bind
            describes_hashBackupCodes fun hashes => .bind (.fire (Ω := fun h => Holds (fun s =>
              Known admin.memberships s ∧ Listed userId admin.memberships s) h ∧ h.getLast? = some
                (.emit (.regenerated .adminDashboard (admin.memberships.map (·.1)) hashes)))
              fun h hh => ⟨holds_emit hh.2, getLast?_emit h _⟩) fun _ => .bind (describes_replace
                confined_syncBackupHashes fun h ⟨s, hs, hknown, hlisted⟩ => ?_) fun _ =>
                  .pure fun _ _ => trivial
      · obtain ⟨hun, s, hs, hF⟩ := hh
        exact ⟨hun, s, hs, hF _ rfl⟩
      · have hlist : Triple (fun _ => true) Err.recordNotFound evolving
            (fun a b => Evolves s a ∧ a = b) (syncAdminTwoFactorToMemberships admin.memberships
              fun u => { u with adminTwoFactorBackupHashes := some hashes })
            fun _ a _ => Listed userId admin.memberships a :=
          (confined_syncBackupHashes.keeps (P := fun a _ => Listed userId admin.memberships a)
            fun _ _ _ _ hl => hl).pre fun a b hab => listed_keeps userId _ s a hab.1 hlisted
        refine ((hlist.both (triple_syncBackupHashes hknown)).mono
          (fun a b hab => ⟨hab.1 s hs, hab.2⟩) ?_)
        exact fun _ a b hab => ⟨hab.1.2, hab.2⟩

theorem describes_regenerateUserCodes :
    Described (Does (.regenerateBackupCodes userId password totpCode .organization)) Unmarked
      (regenerateUserCodes d userId password totpCode) fun _ _ => True := by
  refine .bind (plain_regenerate (plain_tx (.read _))) fun o => ?_
  cases o with
  | none => exact .throw
  | some u =>
    dsimp only
    split
    · exact .throw
    · refine .bind (plain_regenerate plain_readClock) fun now => .bind (plain_regenerate (.ofExcept _))
        fun _ => .bind describes_generateBackupCodes fun plainCodes => .bind
          describes_hashBackupCodes fun hashes => .bind (.fire (Ω := fun h => True ∧ h.getLast? =
            some (.emit (.regenerated .organization [userId] hashes)))
            fun h _ => ⟨trivial, getLast?_emit h _⟩) fun _ => .bind (describes_replace
              confined_writeBackupHashes fun h _ => ?_) fun _ => .pure fun _ _ => trivial
      exact triple_writeBackupHashes.mono (fun a b hab => hab.2) fun _ a b hr =>
        ⟨fun _ => List.mem_singleton.mpr rfl, hr⟩

end BackupCodes

/-! ## Every request -/

theorem describes_run (r : Request) : Described (Does r) (fun h => Made 0 h ∧ Unmarked h)
    (r.run d) fun x h => Answers d r x h := by
  have hplain : ∀ {β : Type} {c : ACall β} {f : β → Answer}, Plain c → (∀ h a b, Quiet a b →
      Does r h a b) → (∀ x h, Answers d r x h) → Described (Does r) (fun h => Made 0 h ∧ Unmarked h)
        (c.bind fun x => .pure (f x)) fun x h => Answers d r x h := fun hc hD hΨ =>
    .bind ((hc.describes (Φ := fun _ => True) (fun _ _ _ _ => trivial)
      fun h a b _ hs => hD h a b (.walk hs)).pre fun _ _ => trivial) fun _ => .pure fun h _ => hΨ _ h
  cases r with
  | login email password orgId platformAdmin =>
    exact hplain (plain_login _ _ _ _) (fun h a b hq => catches_quiet hq fun _ hr => hr)
      fun _ _ => trivial
  | completeTwoFactorLogin token code =>
    exact .bind (describes_completeTwoFactorLogin.pre fun _ _ => trivial) fun _ =>
      .pure fun _ hh => hh
  | refreshTokens token =>
    exact .bind (describes_refreshTokens.pre fun _ hh => hh.1) fun _ => .pure fun _ hh => hh
  | authenticate token =>
    exact hplain (plain_authenticate _) (fun h a b hq => catches_quiet hq fun _ hr => hr)
      fun _ _ => trivial
  | logout userId =>
    exact .bind (describes_logout.pre fun _ hh => hh.1) fun _ => .pure fun _ _ => trivial
  | invite orgId actorUserId data =>
    exact hplain (plain_invite _ _ _) (fun h a b hq => catches_quiet hq fun _ hr => hr)
      fun _ _ => trivial
  | setPasswordForUser orgId targetUserId actorUserId newPassword =>
    exact .bind (describes_setPasswordForUser.pre fun _ hh => hh.1) fun _ => .pure fun _ _ => trivial
  | resetTwoFactorForUser orgId targetUserId actorUserId =>
    exact .bind (describes_resetTwoFactorForUser.pre fun _ hh => hh.1) fun _ =>
      .pure fun _ _ => trivial
  | deactivate orgId userId actorUserId =>
    exact .bind (describes_deactivate.pre fun _ hh => hh.1) fun _ => .pure fun _ hh => hh
  | activate orgId userId actorUserId =>
    exact hplain (plain_activate _ _ _) (fun h a b hq => catches_quiet hq fun _ hr => hr)
      fun _ _ => trivial
  | delete orgId userId actorUserId =>
    exact .bind (describes_delete.pre fun _ _ => trivial) fun _ => .pure fun _ hh => hh
  | resetPassword token newPassword =>
    exact .bind (describes_resetPassword.pre fun _ hh => hh.1) fun _ => .pure fun _ _ => trivial
  | regenerateBackupCodes userId password totpCode channel =>
    cases channel with
    | organization =>
      exact .bind (describes_regenerateUserCodes.pre fun _ hh => hh.2) fun _ =>
        .pure fun _ _ => trivial
    | adminDashboard =>
      exact .bind (describes_regenerateAdminCodes.pre fun _ hh => hh.2) fun _ =>
        .pure fun _ _ => trivial

/-- **What a run is made of**: every commit, and every answer, is as described. -/
theorem served {P : Run → ℕ → Prop} {requests : List Request} {c : Run}
    (h : Reach P (start d s₀ requests) c) : Served evolving Does (Answers d) s₀ requests c :=
  reach_served Err.recordNotFound (Φ := fun h => Made 0 h ∧ Unmarked h)
    ⟨rfl, fun m _ hm => by cases hm⟩ (fun r _ => describes_run r) h

end PatronLoyalty.Accounts
