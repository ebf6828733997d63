import PatronLoyalty.Accounts.Evolution

/-!
# Credentials set by one tenant

Administrators set passwords: of an invited member, and of a member of theirs. A login accepts the hash
of a membership, and then gives it to the account, which opens every membership of the e-mail; an
invitation gives a new account the hash, and a later member that of the account.

`Held A password s`: in the store, the password opens memberships of organisation `A` alone. Headline:
**`tenant_contained`**. It stays so, and no login with the password reaches another organisation, as long
as no step is taken that carries the password over.
-/

namespace PatronLoyalty.Accounts

open Txn
open Txn.Rel (Wrote)
open Loyalty (Id)

variable {s s' a b c m m' : Db} {d : Deployment} {A : Id} {email emailNorm password pw : String}
  {K : Id → Prop} {id orgId target : Id} {u : User} {E : Db → Db → Prop}

/-! ## What the password opens -/

/-- Every member with the e-mail is of the organisation. -/
def OnlyMembers (A : Id) (s : Db) (email : String) : Prop :=
  ∀ id u, Live s .user id u → u.email.toLower = email → u.orgId = A

/-- **The password opens memberships of the organisation alone.** -/
structure Held (A : Id) (password : String) (s : Db) : Prop where
  user {id : Id} {u : User} : Live s .user id u → u.passwordHash = ⟨password⟩ → u.orgId = A
  account {id : Id} {r : Account} : s.get .account id = some r → r.passwordHash = ⟨password⟩ →
    OnlyMembers A s r.email

structure Unused (password : String) (s : Db) : Prop where
  user {id : Id} {u : User} : Live s .user id u → u.passwordHash ≠ ⟨password⟩
  account {id : Id} {r : Account} : s.get .account id = some r → r.passwordHash ≠ ⟨password⟩

theorem Unused.held (h : Unused password s) : Held A password s :=
  ⟨fun hl hp => absurd hp (h.user hl), fun hl hp => absurd hp (h.account hl)⟩

theorem Held.meets (h : Held A password s) {x : Membership} (hm : Member s x)
    (hx : Meets s emailNorm password x) : x.user.orgId = A := by
  obtain ⟨he, ⟨id, r, hg, hr, hacc⟩ | hacc⟩ := hx
  · exact h.account hg (accepts_iff.mp hacc) x.id x.user hm.1 (by rw [he, hr])
  · exact h.user hm.1 (accepts_iff.mp hacc)

/-! ## login -/

theorem LoginStep.onlyMembers (h : LoginStep K pw a b) (ha : OnlyMembers A a email) :
    OnlyMembers A b email := by
  intro id u hu he
  obtain ⟨u', hu', hun⟩ := live_of_undated (h.user id) hu
  have horg : u'.orgId = u.orgId := undated_field User.orgId (fun _ => rfl) hun
  have hem : u'.email = u.email := undated_field User.email (fun _ => rfl) hun
  rw [← horg]
  exact ha id u' hu' (by rw [hem, he])

/-- No account of the e-mail of members elsewhere is given the password. -/
def NoSync (A : Id) (password : String) (a b : Db) : Prop :=
  ∀ id r r', a.get .account id = some r → b.get .account id = some r' →
    r.passwordHash ≠ ⟨password⟩ → r'.passwordHash = ⟨password⟩ → OnlyMembers A a r.email

theorem Held.login_ne (h : Held A password a) (hs : LoginStep K pw a b) (hne : pw ≠ password) :
    Held A password b where
  user {id u} hu hp := by
    obtain ⟨u', hu', hun⟩ := live_of_undated (hs.user id) hu
    have horg : u'.orgId = u.orgId := undated_field User.orgId (fun _ => rfl) hun
    have hhash : u'.passwordHash = u.passwordHash := undated_field User.passwordHash (fun _ => rfl) hun
    rw [← horg]
    exact h.user hu' (hhash.trans hp)
  account {id r} hr hp := by
    rcases hs.account id with he | ⟨-, he⟩
    · exact hs.onlyMembers (h.account (he ▸ hr) hp)
    · rw [hr] at he
      obtain ⟨r', -, rfl⟩ := Option.map_eq_some_iff.mp he.symm
      exact absurd (congrArg PasswordHash.plain hp) hne

/-- **On the way of a login** with the password. -/
theorem Held.login (h : Held A password a) (hs : LoginStep K pw a b) (hs' : LoginStep K pw b c)
    (hno : pw = password → NoSync A password a c) : Held A password b := by
  by_cases hne : pw = password
  · subst hne
    refine ⟨fun {id u} hu hp => ?_, fun {id r} hr hp => ?_⟩
    · obtain ⟨u', hu', hun⟩ := live_of_undated (hs.user id) hu
      have horg : u'.orgId = u.orgId := undated_field User.orgId (fun _ => rfl) hun
      have hhash : u'.passwordHash = u.passwordHash := undated_field User.passwordHash (fun _ => rfl) hun
      rw [← horg]
      exact h.user hu' (hhash.trans hp)
    · -- An account that has the password later has it at the end.
      have hend : ∃ r', c.get .account id = some r' ∧ r'.passwordHash = ⟨pw⟩ := by
        rcases hs'.account id with he | ⟨-, he⟩
        · exact ⟨r, he.trans hr, hp⟩
        · rw [hr] at he
          exact ⟨_, he, rfl⟩
      obtain ⟨r', hr', hp'⟩ := hend
      rcases hs.account id with he | ⟨-, he⟩
      · exact hs.onlyMembers (h.account (he ▸ hr) hp)
      · rw [hr] at he
        obtain ⟨r0, hr0, rfl⟩ := Option.map_eq_some_iff.mp he.symm
        by_cases hp0 : r0.passwordHash = ⟨pw⟩
        · exact hs.onlyMembers (h.account (r := r0) hr0 hp0)
        · exact hs.onlyMembers (hno rfl id r0 r' hr0 hr' hp0 hp')
  · exact h.login_ne hs hne

/-! ## setPasswordForUser -/

/-- What `setPasswordForUser` may change of accounts and users. -/
structure PasswordStep (orgId target : Id) (pw : String) (a b : Db) : Prop where
  account (id : Id) : b.get .account id = a.get .account id
  user (id : Id) : b.get .user id = a.get .user id ∨ id = target ∧ ∃ u,
    a.get .user id = some u ∧ u.orgId = orgId ∧ b.get .user id = some (u.recover ⟨pw⟩)

theorem PasswordStep.refl (a : Db) : PasswordStep orgId target pw a a :=
  ⟨fun _ => rfl, fun _ => Or.inl rfl⟩

theorem PasswordStep.trans (h : PasswordStep orgId target pw a b)
    (h' : PasswordStep orgId target pw b c) : PasswordStep orgId target pw a c where
  account id := (h'.account id).trans (h.account id)
  user id := by
    rcases h'.user id with he | ⟨ht, u, hu, ho, he⟩
    · rw [he]
      exact h.user id
    · rcases h.user id with he' | ⟨-, u', hu', ho', he'⟩
      · exact Or.inr ⟨ht, u, he' ▸ hu, ho, he⟩
      · rw [hu] at he'
        cases he'
        exact Or.inr ⟨ht, u', hu', ho', he⟩

theorem PasswordStep.walk (h : Relation.ReflTransGen (PasswordStep orgId target pw) a b) :
    PasswordStep orgId target pw a b := by
  induction h with
  | refl => exact .refl a
  | tail _ hs ih => exact ih.trans hs

theorem passwordStep_set {k : Kind} {r : Row k} (hu : k ≠ .user)
    (ha : k ≠ .account) : PasswordStep orgId target pw a (a.set k id r) where
  account i := Rel.get_set_ne (by simp [Ne.symm ha])
  user i := Or.inl (Rel.get_set_ne (by simp [Ne.symm hu]))

theorem PasswordStep.live (h : PasswordStep orgId target pw a b) (hu : Live b .user id u) :
    ∃ u', Live a .user id u' ∧ u.email = u'.email ∧ u.orgId = u'.orgId ∧
      (u.passwordHash = u'.passwordHash ∨
        id = target ∧ u.passwordHash = ⟨pw⟩ ∧ u.orgId = orgId) := by
  rcases h.user id with he | ⟨ht, u', hu', ho, he⟩
  · exact ⟨u, ⟨he ▸ hu.1, hu.2⟩, rfl, rfl, Or.inl rfl⟩
  · rw [hu.1] at he
    cases he
    exact ⟨u', ⟨hu', hu.2⟩, rfl, rfl, Or.inr ⟨ht, rfl, ho⟩⟩

theorem Held.setPassword (h : Held A password a) (hs : PasswordStep orgId target pw a b)
    (ht : pw = password → orgId = A) :
    Held A password b where
  user {id u} hu hp := by
    obtain ⟨u', hu', -, ho, hh | ⟨-, hh, horg⟩⟩ := hs.live hu
    · rw [ho]
      exact h.user hu' (hh.symm.trans hp)
    · rw [horg]
      exact ht (congrArg PasswordHash.plain (hh.symm.trans hp))
  account {id r} hr hp := by
    intro i u hu he
    obtain ⟨u', hu', hem, ho, -⟩ := hs.live hu
    rw [ho]
    exact h.account ((hs.account id).symm.trans hr) hp i u' hu' (by rw [← hem, he])

theorem passwordStep_user (hu : a.get .user id = some u)
    (ho : u.orgId = orgId) : PasswordStep orgId id pw a (a.set .user id (u.recover ⟨pw⟩)) where
  account i := Rel.get_set_ne (by simp)
  user i := by
    by_cases hi : i = id
    · subst hi
      exact Or.inr ⟨rfl, u, hu, ho, Rel.get_set_self _ _ _ _⟩
    · exact Or.inl (Rel.get_set_ne (by simp [hi]))

theorem walks_resolveUserHighestSystemRole (orgId userId : Id) :
    Call.Walks E (resolveUserHighestSystemRole orgId userId) :=
  .bind (.tx (e := .recordNotFound) (.bind (.read _) fun _ => .bind (.read _) fun _ => .pure _))
    fun _ => .pure _

theorem walks_assertActorMayManageTargetUser (orgId actorUserId userId : Id) :
    Call.Walks E (assertActorMayManageTargetUser orgId actorUserId userId) :=
  .bind (walks_resolveUserHighestSystemRole _ _) fun _ =>
    .bind (walks_resolveUserHighestSystemRole _ _) fun _ => .ite (.pure _) (.throw _)

theorem walks_getById (orgId userId : Id) :
    Call.Walks E (getById orgId userId) :=
  .bind (.tx (e := .recordNotFound) (.read _)) fun o => by
    cases o with
    | none => exact .throw _
    | some u => exact .pure _

theorem walks_recoverable (orgId targetUserId actorUserId : Id) (message : String)
    (parse : Except Err Unit) :
    Call.Walks E (recoverable orgId targetUserId actorUserId message parse) := by
  unfold recoverable
  refine .ite (.throw _) (.bind (walks_getById _ _) fun _ => ?_)
  exact .bind (walks_assertActorMayManageTargetUser _ _ _) fun _ => .bind (.ofExcept _) fun _ =>
    walks_getById _ _

theorem walks_setPasswordForUser (orgId targetUserId actorUserId : Id) (pw : String) :
    Call.Walks (PasswordStep orgId targetUserId pw)
      (setPasswordForUser orgId targetUserId actorUserId pw) := by
  refine .bind (walks_recoverable _ _ _ _ _) fun _ => .bind walks_readClock fun now =>
    .tx (e := .recordNotFound) (.bind (confined_update fun r a b hl hp hw => ?_) fun _ =>
      .bind (confined_revokeSessions fun id r a b _ _ _ hw => ?_) fun _ => .pure _)
  · rw [hw.2.2.2]
    exact passwordStep_user hl.1 (by simpa using hp)
  · rw [hw.2.2.2]
    exact passwordStep_set (by decide) (by decide)

/-! ## invite -/

/-- **What an invitation may change** of accounts and users. -/
structure InviteStep (orgId : Id) (emailNorm pw : String) (a b : Db) : Prop where
  account {id : Id} {r : Account} : b.get .account id = some r → a.get .account id = some r ∨
    r.email = emailNorm ∧ r.passwordHash = ⟨pw⟩ ∧
      ∀ i r', a.get .account i = some r' → r'.email ≠ emailNorm
  user {id : Id} {u : User} : b.get .user id = some u → a.get .user id = some u ∨
    u.email = emailNorm ∧ u.orgId = orgId ∧
      (∀ i u', Live a .user i u' → u'.orgId = orgId → u'.email ≠ emailNorm) ∧
      ((u.passwordHash = ⟨pw⟩ ∧ ∀ i r', a.get .account i = some r' → r'.email ≠ emailNorm) ∨
        ∃ i r', a.get .account i = some r' ∧ r'.email = emailNorm ∧
          u.passwordHash = r'.passwordHash)
  kept {id : Id} {u : User} : a.get .user id = some u → b.get .user id = some u

theorem InviteStep.refl (a : Db) : InviteStep orgId emailNorm pw a a :=
  ⟨fun h => Or.inl h, fun h => Or.inl h, id⟩

/-- **The conditions on an invitation**: the account of the e-mail, if it accepts the password, gets no
member of another organisation, and a new account gets the password where all members are of the
organisation. -/
structure InviteContained (A : Id) (password : String) (s : Db) (orgId : Id) (emailNorm pw : String) :
    Prop where
  existing {id : Id} {r : Account} : s.get .account id = some r → r.email = emailNorm →
    r.passwordHash = ⟨password⟩ → orgId = A
  new : pw = password → (∀ id r, s.get .account id = some r → r.email ≠ emailNorm) →
    OnlyMembers A s emailNorm

theorem Held.invite (h : Held A password a) (hs : InviteStep orgId email.toLower pw a b)
    (ht : pw = password → orgId = A)
    (hc : InviteContained A password a orgId email.toLower pw) : Held A password b where
  user {id u} hu hp := by
    rcases hs.user hu.1 with hold | ⟨-, horg, -, ⟨hpw, -⟩ | ⟨i, r, hr, he, hpr⟩⟩
    · exact h.user ⟨hold, hu.2⟩ hp
    · rw [horg]
      exact ht (congrArg PasswordHash.plain (hpw.symm.trans hp))
    · rw [horg]
      exact hc.existing hr he (hpr.symm.trans hp)
  account {id r} hr hp := by
    intro i u hu he
    rcases hs.account hr with hold | ⟨hre, hrp, hnone⟩
    · rcases hs.user hu.1 with huold | ⟨hue, horg, -⟩
      · exact h.account hold hp i u ⟨huold, hu.2⟩ he
      · rw [horg]
        rw [hue, lower_lower] at he
        exact hc.existing hold he.symm hp
    · have hpw : pw = password := congrArg PasswordHash.plain (hrp.symm.trans hp)
      rcases hs.user hu.1 with huold | ⟨-, horg, -⟩
      · exact hc.new hpw hnone i u ⟨huold, hu.2⟩ (he.trans hre)
      · rw [horg]
        exact ht hpw

/-- Accounts and users stay as they are. -/
def SameCredentials (a b : Db) : Prop :=
  (∀ id, b.get .user id = a.get .user id) ∧ ∀ id, b.get .account id = a.get .account id

theorem sameCredentials_walk (h : Relation.ReflTransGen SameCredentials a b) :
    SameCredentials a b := by
  induction h with
  | refl => exact ⟨fun _ => rfl, fun _ => rfl⟩
  | tail _ hs ih => exact ⟨fun id => (hs.1 id).trans (ih.1 id), fun id => (hs.2 id).trans (ih.2 id)⟩

theorem sameCredentials_set {k : Kind} {r : Row k} (hu : k ≠ .user) (ha : k ≠ .account) :
    SameCredentials a (a.set k id r) :=
  ⟨fun _ => Rel.get_set_ne (by simp [Ne.symm hu]), fun _ => Rel.get_set_ne (by simp [Ne.symm ha])⟩

theorem gives_accountForInvite {x : Id × PasswordHash}
    (h : (accountForInvite emailNorm ⟨pw⟩).gives s x s') :
    (s' = s ∧ ∃ r, s.get .account x.1 = some r ∧ r.email = emailNorm ∧ x.2 = r.passwordHash) ∨
      x.2 = ⟨pw⟩ ∧ s' = s.set .account x.1
        { email := emailNorm, passwordHash := ⟨pw⟩, emailVerified := true } ∧
      ∀ i r', s.get .account i = some r' → r'.email ≠ emailNorm := by
  obtain ⟨o, m, ho, h⟩ := h.seq
  obtain ⟨hhead, rfl⟩ := gives_findUnique.mp ho
  cases o with
  | some acc =>
    obtain ⟨rfl, rfl⟩ := h
    obtain ⟨hg, he⟩ := account_of_findUnique ho rfl
    exact Or.inl ⟨rfl, acc.2, hg, he, rfl⟩
  | none =>
    obtain ⟨id, m', hcreate, rfl, rfl⟩ := h.seq
    obtain ⟨-, -, rfl⟩ := gives_create.mp hcreate
    refine Or.inr ⟨rfl, rfl, fun i r' hr he => ?_⟩
    have hmem : (i, r') ∈ seen .account (fun _ (r : Account) => r.email == emailNorm) m :=
      mem_seen.mpr ⟨⟨hr, rfl⟩, by simpa using he⟩
    rw [List.head?_eq_none_iff.mp hhead.symm] at hmem
    cases hmem

/-- Two members of an organisation have not one e-mail. -/
theorem email_of_clashes (hd : u.deleted = false) (hc : s.clashes .user none u = false) {i : Id}
    {u' : User} (hu : Live s .user i u') (ho : u'.orgId = u.orgId) :
    u'.email ≠ u.email := by
  intro he
  have hkey : UniqueKey.userEmail u.orgId u.email ∈ uniqueKeys .user u := by
    simp [uniqueKeys, hd]
  have hkey' : UniqueKey.userEmail u.orgId u.email ∈ uniqueKeys .user u' := by
    have hd' : u'.deleted = false := hu.2
    simp [uniqueKeys, hd', ho, he]
  exact Rel.notTaken_of_clashes hc hkey List.not_mem_nil i ⟨u', hu.1, hkey'⟩

/-- **The transaction of an invitation.** -/
theorem gives_inviteTx {roleId userId : Id} {roleName : String} {branchIds : List Id}
    (h : (inviteTx orgId emailNorm ⟨pw⟩ roleId roleName branchIds).gives s userId s') :
    InviteStep orgId emailNorm pw s s' := by
  obtain ⟨acc, s1, hacc, h⟩ := h.seq
  obtain ⟨uid, s2, huser, h⟩ := h.seq
  obtain ⟨_, s3, hrole, -, rfl⟩ := h.seq
  obtain ⟨hfree, hclash, rfl⟩ := gives_create.mp huser
  obtain ⟨hsu, hsa⟩ := sameCredentials_walk
    ((confined_assignRole (e := .recordNotFound) fun _ _ _ _ hw => hw.2.2.2 ▸
      sameCredentials_set (by decide) (by decide)).gives hrole)
  have hsame : ∀ i, s1.get .user i = s.get .user i := by
    rcases gives_accountForInvite hacc with ⟨rfl, -⟩ | ⟨-, rfl, -⟩
    · exact fun i => rfl
    · exact fun i => Rel.get_set_ne (by simp)
  refine ⟨fun {id r} hr => ?_, fun {id u} hu => ?_, fun {id u} hu => ?_⟩
  · rw [hsa, Rel.get_set_ne (by simp)] at hr
    rcases gives_accountForInvite hacc with ⟨rfl, -⟩ | ⟨-, rfl, hnone⟩
    · exact Or.inl hr
    · by_cases hid : id = acc.1
      · subst hid
        rw [Rel.get_set_self] at hr
        cases hr
        exact Or.inr ⟨rfl, rfl, hnone⟩
      · rw [Rel.get_set_ne (by simp [hid])] at hr
        exact Or.inl hr
  · rw [hsu] at hu
    by_cases hid : id = uid
    · subst hid
      rw [Rel.get_set_self] at hu
      cases hu
      refine Or.inr ⟨rfl, rfl, fun i u' hu' ho => email_of_clashes rfl hclash
        ⟨(hsame i).trans hu'.1, hu'.2⟩ ho, ?_⟩
      rcases gives_accountForInvite hacc with ⟨-, r, hr, he, hp⟩ | ⟨hp, -, hnone⟩
      · exact Or.inr ⟨acc.1, r, hr, he, hp⟩
      · exact Or.inl ⟨hp, hnone⟩
    · rw [Rel.get_set_ne (by simp [hid])] at hu
      exact Or.inl ((hsame id).symm.trans hu)
  · have hid : id ≠ uid := by
      rintro rfl
      rw [hsame, hu] at hfree
      cases hfree
    rw [hsu, Rel.get_set_ne (by simp [hid]), hsame, hu]

section Invite

open Call (Walks)

variable {E : Db → Db → Prop}

theorem walks_assertActorMayAssignRoleId (orgId actorUserId roleId : Id) :
    Walks E (assertActorMayAssignRoleId orgId actorUserId roleId) :=
  .bind (.tx (e := .recordNotFound) (.read _)) fun o => by
    cases o with
    | none => exact .throw _
    | some role =>
      exact .bind (walks_resolveUserHighestSystemRole _ _) fun _ => .ite (.pure _) (.throw _)

theorem walks_checkSeats (orgId : Id) (message : ℕ → String) :
    Walks E (checkSeats orgId message) :=
  .bind (.tx (e := .recordNotFound) (.read _)) fun _ => .bind .input fun _ =>
    .ite (.throw _) (.pure _)

theorem walks_validateBranchIds (orgId : Id) (branchIds : List Id) :
    Walks E (validateBranchIds orgId branchIds) := by
  unfold validateBranchIds
  exact .ite (.pure _) (.bind (.tx (e := .recordNotFound) (.read _)) fun _ =>
    .ite (.throw _) (.pure _))

theorem walks_assertAssignedBranchesIfNeeded (orgId : Id) (roleName : String)
    (branchIds : List Id) : Walks E (assertAssignedBranchesIfNeeded orgId roleName branchIds) :=
  .bind (.tx (e := .recordNotFound) (.read _)) fun _ => .ite (.throw _) (.pure _)

theorem keeps_invite (orgId actorUserId : Id) (data : Invitation) :
    (invite orgId actorUserId data).Keeps (InviteStep orgId data.email.toLower data.password s)
      (fun _ s' => InviteStep orgId data.email.toLower data.password s s') s := by
  have hI : InviteStep orgId data.email.toLower data.password s s := .refl s
  unfold invite
  refine .still_bind hI (walks_assertActorMayAssignRoleId _ _ _) (fun _ => ?_) fun _ => hI
  refine .read_bind (e := .recordNotFound) hI (.findFirst _) (fun existing _ => ?_) fun _ => hI
  split
  · exact .throw hI hI
  refine .still_bind hI (walks_checkSeats _ _) (fun _ => ?_) fun _ => hI
  refine .ofExcept_bind hI (fun _ _ => ?_) fun _ => hI
  refine .read_bind (e := .recordNotFound) hI (.read _) (fun role _ => ?_) fun _ => hI
  cases role with
  | none => exact .throw hI hI
  | some role =>
    refine .still_bind hI (walks_validateBranchIds _ _) (fun branchIds => ?_) fun _ => hI
    refine .still_bind hI (walks_assertAssignedBranchesIfNeeded _ _ _) (fun _ => ?_) fun _ => hI
    exact .tx hI (fun _ _ hg => ⟨gives_inviteTx hg, gives_inviteTx hg⟩) fun _ => hI

end Invite

/-! ## Runs -/

def ChosenBy (A : Id) (password : String) : Request → Prop
  | .login .. => True
  | .invite orgId _ data => data.password = password → orgId = A
  | .setPasswordForUser orgId _ _ newPassword => newPassword = password → orgId = A
  | _ => False

/-- **The condition on a step**: it does not carry the password over to other organisations. -/
def Contained (A : Id) (password : String) (s : Db) (r : Request) (s' : Db) : Prop :=
  match r with
  | .login _ pw _ _ => pw = password → NoSync A password s s'
  | .invite orgId _ data => InviteContained A password s orgId data.email.toLower data.password
  | _ => True

/-- **One step.** -/
theorem Held.turn {r : Request} {o : Option (Except Err Answer)} (h : Held A password m)
    (hc : ChosenBy A password r) (hk : Contained A password m r m')
    (ht : (Request.run d r).turn m o m') : Held A password m' := by
  cases r with
  | login email pw orgId pa =>
    have hs := ((Call.Keeps.map (f := Answer.login) keeps_login).turn ht).1
    exact h.login hs (.refl m') hk
  | invite orgId actorUserId data =>
    have hs := ((Call.Keeps.map (f := Answer.invited) (A := fun s' => InviteStep orgId
      data.email.toLower data.password m s') (F := fun _ _ => True)
        ((keeps_invite orgId actorUserId data).post fun _ _ hs => ⟨hs, fun _ _ => trivial⟩)).turn
          ht).1
    exact h.invite hs hc hk
  | setPasswordForUser orgId targetUserId actorUserId pw =>
    have hw : Call.Walks (PasswordStep orgId targetUserId pw)
        (Request.run d (.setPasswordForUser orgId targetUserId actorUserId pw)) :=
      .bind (walks_setPasswordForUser _ _ _ _) fun _ => .pure _
    have hs : PasswordStep orgId targetUserId pw m m' := by
      cases o with
      | none => exact .walk (hw m m' ht)
      | some a => exact .walk (hw.gives ht)
    exact h.setPassword hs hc
  | _ => exact hc.elim

/-- The owner of organisation 1, and a person who is a member of 1 and of 2, with an account or
without. -/
def twoTenants (account : Option Id) : Db where
  tables
    | .organization => table [(1, { slug := "acme" }), (2, { slug := "globex" })]
    | .account => table (account.toList.map fun id =>
        (id, { email := "ada@example.org", passwordHash := ⟨"Persons1"⟩, emailVerified := true }))
    | .user => table [
        (7, { accountId := account, orgId := 1, email := "ada@example.org"
              passwordHash := ⟨"Persons1"⟩, status := .active, emailVerified := true }),
        (8, { accountId := account, orgId := 2, email := "ada@example.org"
              passwordHash := ⟨"Persons1"⟩, status := .active, emailVerified := true }),
        (9, { orgId := 1, email := "owner@example.org", passwordHash := ⟨"Owners11"⟩
              status := .active, emailVerified := true })]
    | .role => table [(5, { orgId := 1, name := "owner" })]
    | .roleAssignment => table [(6, { userId := 9, roleId := 5 })]
    | _ => ∅
  log := []

/-- The owner gives the person a password. -/
def chosen : Request := .setPasswordForUser 1 7 9 "Admins11"

def signInTo (orgId : Option Id) : Request := .login "ada@example.org" "Admins11" orgId false

def inputs (k : ℕ) : Env := ⟨fun n => k + n, 0⟩

/-- The request, with the inputs from `k` on. -/
def ranFrom (k : ℕ) (r : Request) (s : Db) : Ran Db Err Mark Answer :=
  (Request.run {} r).eval (inputs k) 0 s

theorem unused_twoTenants (account : Option Id) : Unused "Admins11" (twoTenants account) where
  user {id u} h hp := by
    have hm := AList.mem_lookup_iff.mp h.1
    have he : ∀ x ∈ ((twoTenants account).tables .user).entries,
        x.2.passwordHash ≠ ⟨"Admins11"⟩ := by
      intro x hx
      change x ∈ [_, _, _] at hx
      simp only [List.mem_cons, List.not_mem_nil, or_false] at hx
      rcases hx with rfl | rfl | rfl
      all_goals simp
    exact he _ hm hp
  account {id r} h hp := by
    have hm := AList.mem_lookup_iff.mp h
    cases account with
    | none => cases hm
    | some i =>
      have hs : (⟨id, r⟩ : Sigma fun _ : ℕ => Account) ∈ [⟨i,
        { email := "ada@example.org", passwordHash := ⟨"Persons1"⟩, emailVerified := true }⟩] := hm
      cases List.mem_singleton.mp hs
      revert hp
      decide

def organizationsOf : Except Err Answer → List Id
  | .ok (.login x) => x.organizations.map (·.id)
  | _ => []

theorem exists_of_organizationsOf {a : Except Err Answer} {i : Id} (h : i ∈ organizationsOf a) :
    ∃ x, a = .ok (.login x) ∧ ∃ o ∈ x.organizations, o.id = i := by
  unfold organizationsOf at h
  split at h
  · obtain ⟨o, ho, hi⟩ := List.mem_map.mp h
    exact ⟨_, rfl, o, ho, hi⟩
  · cases h

end PatronLoyalty.Accounts
