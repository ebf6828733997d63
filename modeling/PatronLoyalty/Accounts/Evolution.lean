import PatronLoyalty.Accounts.SigningIn

/-!
# How the store evolves

`Evolves a b`: what any of the requests may have made of the store `a`. Rows are never taken away. A user
stays in his organisation, under his account and e-mail, and once deleted stays as he is; a session stays
the session of its user and its token, and once revoked or deleted stays so. `Quiet a b`: it has, and
nobody has a backup code that he had not.

Every transaction is confined to the first, and all but those that write backup codes to the second,
whatever the others do (`confined_…`).
-/

namespace PatronLoyalty.Accounts

open Txn
open Txn.Rel (Wrote)
open Loyalty (Id)

variable {s s' a b c : Db} {u u' : User} {k : Kind} {id : Id}

/-! ## Rows -/

structure UserLe (u u' : User) : Prop where
  accountId : u'.accountId = u.accountId
  orgId : u'.orgId = u.orgId
  email : u'.email = u.email
  deleted : u.deleted = true → u' = u

structure SessionLe (r r' : SessionRow) : Prop where
  userId : r'.userId = r.userId
  tokenHash : r'.tokenHash = r.tokenHash
  expiresAt : r'.expiresAt = r.expiresAt
  revoked : r.revokedAt.isSome = true → r'.revokedAt.isSome = true
  deleted : r.deleted = true → r'.deleted = true

theorem UserLe.refl (u : User) : UserLe u u := ⟨rfl, rfl, rfl, fun _ => rfl⟩

theorem UserLe.trans {v w : User} (h : UserLe u v) (h' : UserLe v w) : UserLe u w where
  accountId := h'.accountId.trans h.accountId
  orgId := h'.orgId.trans h.orgId
  email := h'.email.trans h.email
  deleted hd := by
    have hv := h.deleted hd
    rw [h'.deleted (hv ▸ hd), hv]

theorem SessionLe.refl (r : SessionRow) : SessionLe r r := ⟨rfl, rfl, rfl, id, id⟩

theorem SessionLe.trans {q r t : SessionRow} (h : SessionLe q r) (h' : SessionLe r t) :
    SessionLe q t where
  userId := h'.userId.trans h.userId
  tokenHash := h'.tokenHash.trans h.tokenHash
  expiresAt := h'.expiresAt.trans h.expiresAt
  revoked hr := h'.revoked (h.revoked hr)
  deleted hd := h'.deleted (h.deleted hd)

/-- A row, if it is there, has a later version. -/
def Later {α : Type} (le : α → α → Prop) (o o' : Option α) : Prop :=
  ∀ r, o = some r → ∃ r', o' = some r' ∧ le r r'

theorem Later.refl {α : Type} {le : α → α → Prop} (h : ∀ r, le r r) (o : Option α) : Later le o o :=
  fun r hr => ⟨r, hr, h r⟩

theorem Later.trans {α : Type} {le : α → α → Prop} (h : ∀ q r t, le q r → le r t → le q t)
    {o o' o'' : Option α} (h1 : Later le o o') (h2 : Later le o' o'') : Later le o o'' :=
  fun r hr => by
    obtain ⟨r', hr', hle⟩ := h1 r hr
    obtain ⟨r'', hr'', hle'⟩ := h2 r' hr'
    exact ⟨r'', hr'', h _ _ _ hle hle'⟩

/-- What may become of a row. -/
def RowLe : (k : Kind) → Option (Row k) → Option (Row k) → Prop
  | .account => Later fun r r' : Account => r'.email = r.email
  | .user => Later UserLe
  | .session => Later SessionLe
  | .passwordReset => fun o o' => Later (fun r r' : PasswordReset => r'.userId = r.userId ∧
      r'.tokenHash = r.tokenHash) o o' ∧ (o = none → o' = none)
  | .roleAssignment | .authUser => fun _ _ => True
  | _ => fun o o' => o' = o

theorem RowLe.refl : (k : Kind) → (o : Option (Row k)) → RowLe k o o
  | .account, _ => fun r hr => ⟨r, hr, rfl⟩
  | .user, o => Later.refl UserLe.refl o
  | .session, o => Later.refl SessionLe.refl o
  | .passwordReset, o => ⟨Later.refl (fun _ => ⟨rfl, rfl⟩) o, id⟩
  | .roleAssignment, _ | .authUser, _ => trivial
  | .organization, _ | .role, _ | .branch, _ | .blacklist, _ => rfl

theorem RowLe.trans {o o' o'' : Option (Row k)} (h : RowLe k o o') (h' : RowLe k o' o'') :
    RowLe k o o'' := by
  cases k with
  | account =>
    exact fun q hq => by
      obtain ⟨r, hr, h1⟩ := h q hq
      obtain ⟨t, ht, h2⟩ := h' r hr
      exact ⟨t, ht, h2.trans h1⟩
  | user => exact @Later.trans User UserLe (fun _ _ _ => .trans) o o' o'' h h'
  | session => exact @Later.trans SessionRow SessionLe (fun _ _ _ => .trans) o o' o'' h h'
  | passwordReset =>
    refine ⟨fun q hq => ?_, fun hn => h'.2 (h.2 hn)⟩
    obtain ⟨r, hr, h1⟩ := h.1 q hq
    obtain ⟨t, ht, h2⟩ := h'.1 r hr
    exact ⟨t, ht, h2.1.trans h1.1, h2.2.trans h1.2⟩
  | roleAssignment => trivial
  | authUser => trivial
  | organization => exact Eq.trans h' h
  | role => exact Eq.trans h' h
  | branch => exact Eq.trans h' h
  | blacklist => exact Eq.trans h' h

/-! ## Stores -/

/-- **What the requests may have made of a store.** -/
def Evolves (a b : Db) : Prop := ∀ k id, RowLe k (a.get k id) (b.get k id)

theorem Evolves.refl (a : Db) : Evolves a a := fun k _ => .refl k _

theorem Evolves.trans (h : Evolves a b) (h' : Evolves b c) : Evolves a c :=
  fun k id => (h k id).trans (h' k id)

/-- Whatever the requests do. -/
def evolving : Guarantee Db where
  rel := Evolves
  refl := .refl
  trans := .trans

theorem Evolves.walk (h : Relation.ReflTransGen Evolves a b) : Evolves a b := by
  induction h with
  | refl => exact .refl a
  | tail _ hs ih => exact ih.trans hs

theorem evolves_set {r : Row k} (h : RowLe k (a.get k id) (some r)) :
    Evolves a (a.set k id r) := by
  intro k' id'
  by_cases hk : (k', id') = (k, id)
  · cases hk
    rw [Rel.get_set_self]
    exact h
  · rw [Rel.get_set_ne hk]
    exact .refl k' _

theorem Evolves.user (h : Evolves a b) (hu : a.get .user id = some u) :
    ∃ u', b.get .user id = some u' ∧ UserLe u u' := h .user id u hu

theorem Evolves.session (h : Evolves a b) {r : SessionRow}
    (hr : a.get .session id = some r) : ∃ r', b.get .session id = some r' ∧ SessionLe r r' :=
  h .session id r hr

/-- A user who is there later was there before, if he has been a user. -/
theorem Evolves.live (h : Evolves a b) (hu : a.get .user id = some u)
    (hu' : Live b .user id u') : Live a .user id u ∧ UserLe u u' := by
  obtain ⟨v, hv, hle⟩ := h.user hu
  obtain rfl : v = u' := Option.some.inj (hv.symm.trans hu'.1)
  refine ⟨⟨hu, ?_⟩, hle⟩
  by_contra hd
  have hdel : u.deleted = true := by simpa [gone] using hd
  have hgone : u.deleted = false := hle.deleted hdel ▸ hu'.2
  rw [hdel] at hgone
  cases hgone

/-! ## Backup codes -/

def User.hashes (u : User) : TotpChannel → List BackupHash
  | .organization => u.twoFactorBackupHashes.getD []
  | .adminDashboard => u.adminTwoFactorBackupHashes.getD []

def Has (s : Db) (channel : TotpChannel) (id : Id) (hash : BackupHash) : Prop :=
  ∃ u, Live s .user id u ∧ hash ∈ u.hashes channel

/-- **What requests may do that write no backup codes.** -/
structure Quiet (a b : Db) : Prop where
  evolves : Evolves a b
  has {channel : TotpChannel} {id : Id} {hash : BackupHash} :
    Has b channel id hash → Has a channel id hash

theorem Quiet.refl (a : Db) : Quiet a a := ⟨.refl a, id⟩

theorem Quiet.trans (h : Quiet a b) (h' : Quiet b c) : Quiet a c :=
  ⟨h.evolves.trans h'.evolves, fun hx => h.has (h'.has hx)⟩

theorem Quiet.walk (h : Relation.ReflTransGen Quiet a b) : Quiet a b := by
  induction h with
  | refl => exact .refl a
  | tail _ hs ih => exact ih.trans hs

theorem quiet_set {r : Row k} (hk : k ≠ .user) (h : Evolves a (a.set k id r)) :
    Quiet a (a.set k id r) where
  evolves := h
  has {channel i hash} := by
    rintro ⟨u, hu, hx⟩
    refine ⟨u, ⟨?_, hu.2⟩, hx⟩
    rw [← hu.1, Rel.get_set_ne (by simp [Ne.symm hk])]

/-- A later version of a user, who has got no backup codes. -/
structure UserQuiet (u u' : User) : Prop where
  le : UserLe u u'
  hashes (channel : TotpChannel) : u'.hashes channel ⊆ u.hashes channel

theorem evolves_user (hu : a.get .user id = some u) (h : UserLe u u') :
    Evolves a (a.set .user id u') :=
  evolves_set fun r hr => by
    rw [hu] at hr
    cases hr
    exact ⟨u', rfl, h⟩

theorem quiet_user (hu : Live a .user id u) (h : UserQuiet u u') :
    Quiet a (a.set .user id u') where
  evolves := evolves_user hu.1 h.le
  has {channel i hash} := by
    rintro ⟨v, hv, hx⟩
    by_cases hi : i = id
    · subst hi
      have hv' := hv.1
      rw [Rel.get_set_self] at hv'
      cases hv'
      exact ⟨u, hu, h.hashes channel hx⟩
    · refine ⟨v, ⟨?_, hv.2⟩, hx⟩
      rw [← hv.1, Rel.get_set_ne (by simp [hi])]

theorem quiet_newUser (hn : a.get .user id = none)
    (h : ∀ channel, u.hashes channel = []) : Quiet a (a.set .user id u) where
  evolves := evolves_set fun q hq => by rw [hn] at hq; cases hq
  has {channel i hash} := by
    rintro ⟨v, hv, hx⟩
    by_cases hi : i = id
    · subst hi
      have hv' := hv.1
      rw [Rel.get_set_self] at hv'
      cases hv'
      rw [h channel] at hx
      cases hx
    · refine ⟨v, ⟨?_, hv.2⟩, hx⟩
      rw [← hv.1, Rel.get_set_ne (by simp [hi])]

theorem userLe_of (hd : u.deleted = false) (ha : u'.accountId = u.accountId)
    (ho : u'.orgId = u.orgId) (he : u'.email = u.email) : UserLe u u' :=
  ⟨ha, ho, he, fun h => by rw [hd] at h; cases h⟩

theorem userQuiet_of (hle : UserLe u u') (h : u'.twoFactorBackupHashes = u.twoFactorBackupHashes)
    (h' : u'.adminTwoFactorBackupHashes = u.adminTwoFactorBackupHashes) : UserQuiet u u' where
  le := hle
  hashes channel := by
    cases channel with
    | organization => rw [User.hashes, h]; exact List.Subset.refl _
    | adminDashboard => rw [User.hashes, h']; exact List.Subset.refl _

theorem userQuiet_clear (hle : UserLe u u') (h : u'.twoFactorBackupHashes = none)
    (h' : u'.adminTwoFactorBackupHashes = none) : UserQuiet u u' where
  le := hle
  hashes channel := by
    cases channel with
    | organization => rw [User.hashes, h]; exact List.nil_subset _
    | adminDashboard => rw [User.hashes, h']; exact List.nil_subset _

/-! ## Transactions -/

section Transactions

variable {C : DbWrite → Bool} {e : Err} {G : Guarantee Db} {accountId id orgId userId : Id}
  {f : User → User} {now : ℕ} {hash : PasswordHash}

theorem evolves_session {r r' : SessionRow} (hr : a.get .session id = some r)
    (h : SessionLe r r') : Evolves a (a.set .session id r') :=
  evolves_set fun q hq => by
    rw [hr] at hq
    cases hq
    exact ⟨r', rfl, h⟩

theorem quiet_none {k : Kind} {r : Row k} (hn : a.get k id = none)
    (hk : k = .account ∨ k = .session ∨ k = .roleAssignment) : Quiet a (a.set k id r) := by
  refine quiet_set (by rcases hk with rfl | rfl | rfl <;> decide) (evolves_set ?_)
  rw [hn]
  rcases hk with rfl | rfl | rfl
  · exact fun q hq => by cases hq
  · exact fun q hq => by cases hq
  · trivial

theorem confined_updateUser {p : User → Bool} (hf : ∀ u, u.deleted = false → UserQuiet u (f u)) :
    Confined C e G Quiet (update .user id p f) :=
  confined_update fun r a b hl _ hw => by
    rw [hw.2.2.2]
    exact quiet_user hl (hf r hl.2)

theorem confined_updateUsers {p : Id → User → Bool}
    (hk : ∀ u, uniqueKeys .user (f u) ⊆ uniqueKeys .user u)
    (hf : ∀ u, u.deleted = false → UserQuiet u (f u)) :
    Confined C e G Quiet (updateMany .user p f) :=
  confined_updateMany hk fun id r a b hl _ hw => by
    rw [hw.2.2.2]
    exact quiet_user hl (hf r hl.2)

theorem confined_createSession_quiet {tokenHash : Sha256 Jwt} {expiresAt : ℕ} :
    Confined C e G Quiet (createSession userId tokenHash expiresAt) :=
  confined_createSession fun id a b hw => by
    rw [hw.2.2.2]
    exact quiet_none hw.2.1 (by decide)

theorem confined_revokeSessions {E : Db → Db → Prop} {userIds : List Id}
    (h : ∀ id r a b, Live a .session id r → userIds.contains r.userId = true → r.revokedAt = none →
      Wrote C Kind.session id (some r) { r with revokedAt := some now } a b → E a b) :
    Confined C e G E (revokeSessions userIds now) :=
  confined_updateMany (fun _ => List.Subset.refl _) fun id r a b hl hp hw => by
    simp only [Bool.and_eq_true, Option.isNone_iff_eq_none] at hp
    exact h id r a b hl hp.1 hp.2 hw

theorem confined_revokeSessions_quiet {userIds : List Id} :
    Confined C e G Quiet (revokeSessions userIds now) :=
  confined_revokeSessions fun id r a b hl _ _ hw => by
    rw [hw.2.2.2]
    exact quiet_set (by decide) (evolves_session hl.1 ⟨rfl, rfl, rfl, fun _ => rfl, fun h => h⟩)

theorem confined_setAuthUser {r : CacheEntry} :
    Confined C e G Quiet (setKey .authUser id r) :=
  confined_setKey rfl fun old a b hw => by
    rw [hw.2.2.2]
    exact quiet_set (by decide) (evolves_set trivial)

theorem confined_syncPassword :
    Confined C e G Quiet (syncPassword accountId hash) :=
  confined_update fun r a b hl _ hw => by
    rw [hw.2.2.2]
    refine quiet_set (by decide) (evolves_set fun q hq => ?_)
    rw [hl.1] at hq
    cases hq
    exact ⟨_, rfl, rfl⟩

theorem confined_touchLastLogin {orgId userId : ℕ} :
    Confined C e G Quiet (touchLastLogin orgId userId now) :=
  confined_updateUser fun _ hd => userQuiet_of (userLe_of hd rfl rfl rfl) rfl rfl

theorem confined_writeBackupHashes {hashes : Option (List BackupHash)} :
    Confined C e G Evolves (writeBackupHashes orgId userId hashes) :=
  confined_update fun r a b hl _ hw => by
    rw [hw.2.2.2]
    exact evolves_user hl.1 (userLe_of hl.2 rfl rfl rfl)

theorem confined_syncBackupHashes {memberships : List (Id × User)}
    {hashes : Option (List BackupHash)} :
    Confined C e G Evolves (syncAdminTwoFactorToMemberships memberships fun u =>
      { u with adminTwoFactorBackupHashes := hashes }) := by
  unfold syncAdminTwoFactorToMemberships
  generalize (memberships.map fun m => m.2.orgId).eraseDups = orgIds
  induction orgIds with
  | nil => exact .pure _
  | cons orgId orgIds ih =>
    refine .bind (confined_updateMany (fun _ => List.Subset.refl _) fun id r a b hl _ hw => ?_)
      fun _ => ih
    rw [hw.2.2.2]
    exact evolves_user hl.1 (userLe_of hl.2 rfl rfl rfl)

theorem confined_inviteTx {roleId : Id} {emailNorm roleName : String} {branchIds : List Id} :
    Confined C e G Quiet (inviteTx orgId emailNorm hash roleId roleName branchIds) := by
  refine .bind (.bind (.read _) fun o => ?_) fun acc => .bind (confined_create fun id a b hw => ?_)
    fun userId => .bind (confined_assignRole fun _ _ _ _ hw => hw.2.2.2 ▸
      quiet_none hw.2.1 (by decide)) fun _ => .pure _
  · cases o with
    | some r => exact .pure _
    | none =>
      refine .bind (confined_create fun id a b hw => ?_) fun _ => .pure _
      rw [hw.2.2.2]
      exact quiet_none hw.2.1 (by decide)
  · rw [hw.2.2.2]
    exact quiet_newUser hw.2.1 fun channel => by cases channel <;> rfl

theorem confined_recoverTx {orgId userId : ℕ} (hf : ∀ u, u.deleted = false → UserQuiet u (f u)) :
    Confined C e G Quiet (recoverTx orgId userId f now) :=
  .bind (confined_updateUser hf) fun _ => .bind confined_revokeSessions_quiet fun _ => .pure _

theorem confined_setStatus {status : UserStatus} :
    Confined C e G Quiet (setStatus orgId userId status) :=
  confined_updateUser fun _ hd => userQuiet_of (userLe_of hd rfl rfl rfl) rfl rfl

theorem confined_deleteAssignments {p : Id → RoleAssignment → Bool} :
    Confined C e G Quiet (updateMany .roleAssignment p fun r => { r with deleted := true }) :=
  confined_updateMany (fun _ => List.nil_subset _) fun id r a b _ _ hw => by
    rw [hw.2.2.2]
    exact quiet_set (by decide) (evolves_set trivial)

theorem confined_deleteSessions : Confined C e G Quiet (deleteSessions userId) :=
  confined_updateMany (fun _ => List.Subset.refl _) fun id r a b hl _ hw => by
    rw [hw.2.2.2]
    exact quiet_set (by decide) (evolves_session hl.1 ⟨rfl, rfl, rfl, fun h => h, fun _ => rfl⟩)

theorem evolves_passwordReset {r r' : PasswordReset} (hr : a.get .passwordReset id = some r)
    (hu : r'.userId = r.userId) (ht : r'.tokenHash = r.tokenHash) :
    Evolves a (a.set .passwordReset id r') := by
  refine evolves_set ⟨fun q hq => ?_, fun hn => ?_⟩
  · rw [hr] at hq
    cases hq
    exact ⟨r', rfl, hu, ht⟩
  · rw [hr] at hn
    cases hn

theorem confined_deleteTx : Confined C e G Quiet (deleteTx orgId userId) := by
  refine .bind (.bind (.read _) fun _ => .bind confined_deleteAssignments fun _ => .pure _) fun _ =>
    .bind confined_deleteSessions fun _ => .bind .input fun _ => .ite (.throw _)
    (.bind (confined_updateUser fun _ hd => userQuiet_of (userLe_of hd rfl rfl rfl) rfl rfl) fun _ =>
      .bind confined_deleteSessions fun _ => .bind (confined_updateMany
        (fun _ => List.Subset.refl _) fun id r a b hl _ hw => ?_) fun _ =>
          .bind confined_deleteAssignments fun _ => .pure _)
  rw [hw.2.2.2]
  exact quiet_set (by decide) (evolves_passwordReset hl.1 rfl rfl)

theorem confined_markUsed {id : ℕ} : Confined C e G Quiet (markUsed id now) :=
  confined_update fun r a b hl _ hw => by
    rw [hw.2.2.2]
    exact quiet_set (by decide) (evolves_passwordReset hl.1 rfl rfl)

theorem userQuiet_recover {u : User} (hd : u.deleted = false) :
    UserQuiet u (u.recover hash) := userQuiet_clear (userLe_of hd rfl rfl rfl) rfl rfl

theorem confined_recoverOrganizations {orgIds : List Id} :
    Confined C e G Quiet (recoverOrganizations accountId hash orgIds) := by
  induction orgIds with
  | nil => exact .pure _
  | cons orgId orgIds ih =>
    exact .bind (confined_updateUsers (fun _ => List.Subset.refl _) fun _ => userQuiet_recover)
      fun _ => ih

theorem confined_recoverAccount :
    Confined C e G Quiet (update .account accountId anyRow fun (r : Account) =>
      { r with passwordHash := hash, emailVerified := true }) :=
  confined_update fun r a b hl _ hw => by
    rw [hw.2.2.2]
    refine quiet_set (by decide) (evolves_set fun q hq => ?_)
    rw [hl.1] at hq
    cases hq
    exact ⟨_, rfl, rfl⟩

theorem confined_resetPasswordTx {resetId userId : ℕ} {target : User} :
    Confined C e G Quiet (resetPasswordTx resetId userId target hash now) := by
  refine .bind confined_markUsed fun _ => ?_
  cases target.accountId with
  | some accountId =>
    exact .bind confined_recoverAccount fun _ => .bind (.read _) fun _ =>
      .bind confined_recoverOrganizations fun _ => .bind confined_revokeSessions_quiet fun _ =>
        .pure _
  | none =>
    exact .bind (confined_updateUser fun _ => userQuiet_recover) fun _ =>
      .bind confined_revokeSessions_quiet fun _ => .pure _

end Transactions

end PatronLoyalty.Accounts
