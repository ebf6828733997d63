import PatronLoyalty.Accounts.Tenants
import PatronLoyalty.Accounts.TwoFactor

/-!
# Passwords an administrator has set

`setPasswordForUser` gives a member a new hash, and leaves the account of the e-mail as it is. A login
accepts either of the two, and it copies the hash of a member into the account.

`Effective s id orgId email password`: in the store, only the password opens the member. Headline:
**`reset_takesEffect`**. After a reset a login gets to the member with the new password alone, as long as
the account of the e-mail has no other password, and is given none.
-/

namespace PatronLoyalty.Accounts

open Txn
open Loyalty (Id)

variable {s s' a b m m' : Db} {d : Deployment} {id orgId target actor : Id}
  {email emailNorm password pw : String} {K : Id → Prop} {u : User} {account : Option Id}

/-- The login has got past the credentials of the member: he is chosen, or his organisation is offered. -/
def LoginResult.Accepts (x : LoginResult) (orgId userId : Id) : Prop :=
  (∃ o ∈ x.organizations, o.id = orgId) ∧ ∀ id ∈ x.user, id = userId

instance (x : LoginResult) (orgId userId : Id) : Decidable (x.Accepts orgId userId) :=
  inferInstanceAs (Decidable (_ ∧ _))

/-! ## What opens a member -/

structure Given (s : Db) (id orgId : Id) (emailNorm password : String) : Prop where
  user : ∃ u, Live s .user id u ∧ u.orgId = orgId ∧ u.email = emailNorm ∧
    u.passwordHash = ⟨password⟩
  /-- No other member of the organisation has the e-mail. -/
  sole {i : Id} {u : User} : Live s .user i u → u.orgId = orgId → u.email.toLower = emailNorm → i = id

def AccountHas (s : Db) (emailNorm password : String) : Prop :=
  ∀ i r, s.get .account i = some r → r.email = emailNorm → r.passwordHash = ⟨password⟩

/-- **Only the password opens the member.** -/
structure Effective (s : Db) (id orgId : Id) (emailNorm password : String) : Prop
    extends Given s id orgId emailNorm password where
  account : AccountHas s emailNorm password

theorem Effective.meets (h : Effective s id orgId emailNorm password) {x : Membership}
    (hx : Member s x) (ho : x.user.orgId = orgId) (hm : Meets s emailNorm pw x) :
    x.id = id ∧ pw = password := by
  have hid : x.id = id := h.sole hx.1 ho hm.1
  refine ⟨hid, ?_⟩
  rcases hm.2 with ⟨i, r, hr, he, hacc⟩ | hacc
  · have hp := (accepts_iff.mp hacc).symm.trans (h.account i r hr he)
    exact congrArg PasswordHash.plain hp
  · obtain ⟨u, hu, -, -, hp⟩ := h.user
    have hux : u = x.user := Option.some.inj (hu.1.symm.trans (hid ▸ hx.1.1))
    exact congrArg PasswordHash.plain ((accepts_iff.mp hacc).symm.trans (hux ▸ hp))

/-! ## login -/

/-- A later version of a member, seen from the earlier store. -/
theorem LoginStep.live (h : LoginStep K pw a b) {i : Id} (hu : Live a .user i u) :
    ∃ u', Live b .user i u' ∧ u'.undated = u.undated := by
  have hi := h.user i
  rw [hu.1] at hi
  obtain ⟨u', hg, hu'⟩ := Option.map_eq_some_iff.mp hi
  exact ⟨u', ⟨hg, (undated_field User.deleted (fun _ => rfl) hu').trans hu.2⟩, hu'⟩

theorem Given.login (h : Given a id orgId emailNorm password) (hs : LoginStep K pw a b) :
    Given b id orgId emailNorm password where
  user := by
    obtain ⟨u, hu, ho, he, hp⟩ := h.user
    obtain ⟨u', hu', hun⟩ := hs.live hu
    exact ⟨u', hu', (undated_field User.orgId (fun _ => rfl) hun).trans ho,
      (undated_field User.email (fun _ => rfl) hun).trans he,
      (undated_field User.passwordHash (fun _ => rfl) hun).trans hp⟩
  sole {i u} hu ho he := by
    obtain ⟨u', hu', hun⟩ := live_of_undated (hs.user i) hu
    refine h.sole hu' ((undated_field User.orgId (fun _ => rfl) hun).trans ho) ?_
    rw [undated_field User.email (fun _ => rfl) hun, he]

theorem Effective.login (h : Effective a id orgId emailNorm password)
    (hs : LoginStep K pw a b)
    (hK : ∀ i r, K i → a.get .account i = some r → r.email = emailNorm → pw = password) :
    Effective b id orgId emailNorm password where
  toGiven := h.toGiven.login hs
  account i r hr he := by
    rcases hs.account i with hi | ⟨hKi, hi⟩
    · exact h.account i r (hi ▸ hr) he
    · rw [hr] at hi
      obtain ⟨r', hr', rfl⟩ := Option.map_eq_some_iff.mp hi.symm
      exact congrArg PasswordHash.mk (hK i r' hKi hr' he)

/-! ## invite -/

theorem Effective.invite {orgId' : Id} {email' : String}
    (h : Effective a id orgId emailNorm password) (hs : InviteStep orgId' email'.toLower pw a b)
    (hc : email'.toLower = emailNorm → pw = password ∨
      ∃ i r, a.get .account i = some r ∧ r.email = emailNorm) :
    Effective b id orgId emailNorm password where
  user := by
    obtain ⟨u, hu, ho, he, hp⟩ := h.user
    exact ⟨u, ⟨hs.kept hu.1, hu.2⟩, ho, he, hp⟩
  sole {i u} hu ho he := by
    rcases hs.user hu.1 with hold | ⟨hue, horg, hfresh, -⟩
    · exact h.sole ⟨hold, hu.2⟩ ho he
    · -- The member himself is in the way of another one.
      obtain ⟨u', hu', ho', he', -⟩ := h.user
      rw [hue, lower_lower] at he
      exact absurd (he'.trans he.symm) (hfresh id u' hu' (ho'.trans (ho.symm.trans horg)))
  account i r hr he := by
    rcases hs.account hr with hold | ⟨hre, hrp, hnone⟩
    · exact h.account i r hold he
    · rcases hc (hre.symm.trans he) with rfl | ⟨j, r', hr', he'⟩
      · exact hrp
      · exact absurd (he'.trans (he.symm.trans hre)) (hnone j r' hr')

/-! ## setPasswordForUser -/

theorem Effective.setPassword {orgId' : Id} (h : Effective a id orgId emailNorm password)
    (hs : PasswordStep orgId' target pw a b) (ht : target ≠ id) :
    Effective b id orgId emailNorm password where
  user := by
    obtain ⟨u, hu, hrest⟩ := h.user
    rcases hs.user id with he | ⟨hid, -⟩
    · exact ⟨u, ⟨he.trans hu.1, hu.2⟩, hrest⟩
    · exact absurd hid.symm ht
  sole {i u} hu ho he := by
    obtain ⟨u', hu', hem, horg, -⟩ := hs.live hu
    exact h.sole hu' (horg.symm.trans ho) (by rw [← hem, he])
  account i r hr he := h.account i r ((hs.account i).symm.trans hr) he

/-- **The reset** gives the member the hash of the password. -/
theorem gives_setPasswordForUser
    (h : (setPasswordForUser orgId target actor pw).gives s (.ok ()) s') :
    ∃ u, Live s .user target u ∧ u.orgId = orgId ∧
      s'.get .user target = some (u.recover ⟨pw⟩) := by
  obtain ⟨_, s1, hrec, h1⟩ := h.seq
  obtain rfl := Call.Walks.still (walks_recoverable _ _ _ _ _) hrec
  obtain ⟨now, s2, hnow, h2⟩ := h1.seq
  obtain rfl := gives_readClock.mp hnow
  obtain ⟨_, s3, hupdate, h3⟩ := Tx.gives_bind.mp (Call.gives_withTx_ok.mp h2)
  obtain ⟨_, s4, hrevoke, -, rfl⟩ := h3.seq
  obtain ⟨u, hu, ho, rfl, -, rfl⟩ := gives_update.mp hupdate
  have hsame := (sameCredentials_walk ((confined_revokeSessions (C := fun _ => true)
    (e := .recordNotFound) (G := alone) (E := SameCredentials) fun id r a b _ _ _ hw => by
      rw [hw.2.2.2]
      exact sameCredentials_set (by decide) (by decide)).gives hrevoke)).1 target
  refine ⟨u, hu, by simpa using ho, ?_⟩
  rw [hsame, Rel.get_set_self]

theorem Effective.of_reset (hw : WellFormed s) (hu : Live s .user id u)
    (h : (setPasswordForUser u.orgId id actor password).gives s (.ok ()) s')
    (ha : AccountHas s u.email password) : Effective s' id u.orgId u.email password where
  user := by
    obtain ⟨v, hv, -, hg⟩ := gives_setPasswordForUser h
    obtain rfl : v = u := Option.some.inj (hv.1.symm.trans hu.1)
    exact ⟨_, ⟨hg, hv.2⟩, rfl, rfl, rfl⟩
  sole {i v} hv ho he := by
    obtain ⟨v', hv', hem, horg, -⟩ :=
      (PasswordStep.walk ((walks_setPasswordForUser _ _ _ _).gives h)).live hv
    have hkey : ∀ {x : User}, Live s .user i x → x.orgId = u.orgId → x.email = u.email →
        s.Owns (UniqueKey.userEmail u.orgId u.email) .user i := fun {x} hx hxo hxe =>
      ⟨x, hx.1, by simp [Keyed.keys, uniqueKeys, live_user hx, hxo, hxe]⟩
    refine hw.unique.row (hkey hv' (horg.symm.trans ho) ?_)
      ⟨u, hu.1, by simp [Keyed.keys, uniqueKeys, live_user hu]⟩
    rw [← (hw.email hv').1, ← hem, he]
  account i r hr he := by
    have hs := PasswordStep.walk ((walks_setPasswordForUser _ _ _ _).gives h)
    exact ha i r ((hs.account i).symm.trans hr) he

/-! ## Runs -/

/-- Until the next change of the member's password. -/
def Undisturbed (id : Id) : Request → Prop
  | .login .. | .invite .. => True
  | .setPasswordForUser _ target _ _ => target ≠ id
  | _ => False

/-- The e-mail has an account. -/
def Registered (s : Db) (emailNorm : String) : Prop :=
  ∃ i r, s.get .account i = some r ∧ r.email = emailNorm

/-- **The condition on a step**, of the store before it: the account of the e-mail is given no other
password. A login with another password does not meet a member of the e-mail, whose hash the account
would get, and an invitation that creates the account has the password. -/
def KeepsAccount (emailNorm password : String) (s : Db) : Request → Prop
  | .login email pw _ _ => email.toLower = emailNorm → pw ≠ password → Registered s emailNorm →
    ∀ i u, Live s .user i u → u.email.toLower = emailNorm → u.passwordHash ≠ ⟨pw⟩
  | .invite _ _ data => data.email.toLower = emailNorm → data.password = password ∨
    Registered s emailNorm
  | _ => True

/-- On the way of a login. -/
theorem Effective.attempt {org : Option Id} {pa : Bool}
    (h : Effective m id orgId emailNorm password)
    (hk : KeepsAccount emailNorm password m (.login email pw org pa))
    (hs : LoginStep (Syncs m email.toLower pw) pw m b) :
    Effective b id orgId emailNorm password := by
  refine h.login hs fun i r hi hri he => ?_
  obtain ⟨⟨r', hr', hre'⟩, j, u, hu, hue, hup⟩ := hi
  obtain rfl : r' = r := Option.some.inj (hr'.symm.trans hri)
  have hemail : email.toLower = emailNorm := hre'.symm.trans he
  by_contra hne
  exact hk hemail hne ⟨i, r', hr', he⟩ j u hu (hue.trans hemail) hup

/-- **One step.** -/
theorem Effective.turn {r : Request} {o : Option (Except Err Answer)}
    (h : Effective m id orgId emailNorm password) (hr : Undisturbed id r)
    (hk : KeepsAccount emailNorm password m r) (ht : (Request.run d r).turn m o m') :
    Effective m' id orgId emailNorm password := by
  cases r with
  | login email pw orgId' pa =>
    exact h.attempt hk ((Call.Keeps.map (f := Answer.login) keeps_login).turn ht).1
  | invite orgId' actorUserId data =>
    have hs := ((Call.Keeps.map (f := Answer.invited) (A := fun s' => InviteStep orgId'
      data.email.toLower data.password m s') (F := fun _ _ => True)
        ((keeps_invite orgId' actorUserId data).post fun _ _ hs => ⟨hs, fun _ _ => trivial⟩)).turn
          ht).1
    exact h.invite hs hk
  | setPasswordForUser orgId' target actorUserId pw =>
    have hw : Call.Walks (PasswordStep orgId' target pw)
        (Request.run d (.setPasswordForUser orgId' target actorUserId pw)) :=
      .bind (walks_setPasswordForUser _ _ _ _) fun _ => .pure _
    have hs : PasswordStep orgId' target pw m m' := by
      cases o with
      | none => exact .walk (hw m m' ht)
      | some a => exact .walk (hw.gives ht)
    exact h.setPassword hs hr
  | _ => exact hr.elim

theorem twoTenants_user (h : Live (twoTenants account) .user id u) :
    (u.orgId = 1 ∨ u.orgId = 2) ∧ (u.email = "ada@example.org" ∨ u.email = "owner@example.org") := by
  have hm := AList.mem_lookup_iff.mp h.1
  have hall : ∀ x ∈ ((twoTenants account).tables .user).entries, (x.2.orgId = 1 ∨ x.2.orgId = 2) ∧
      (x.2.email = "ada@example.org" ∨ x.2.email = "owner@example.org") := by
    intro x hx
    change x ∈ [_, _, _] at hx
    simp only [List.mem_cons, List.not_mem_nil, or_false] at hx
    rcases hx with rfl | rfl | rfl
    all_goals simp
  exact hall _ hm

theorem wellFormed_twoTenants (h : account = none ∨ account = some 3) :
    WellFormed (twoTenants account) where
  unique := by
    refine Rel.unique_of_entries (fun k => ?_) rfl
    rcases h with rfl | rfl
    all_goals cases k <;> decide
  organization hu := by
    rcases (twoTenants_user hu).1 with ho | ho
    all_goals
      rw [ho]
      exact ⟨_, rfl⟩
  email hu := by
    rcases (twoTenants_user hu).2 with he | he
    all_goals
      rw [he]
      decide +kernel

/-- What the store is once the owner has given the person a password. -/
def afterReset (account : Option Id) : Db :=
  ((setPasswordForUser 1 7 9 "Admins11").eval (inputs 100) 0 (twoTenants account)).db

theorem gives_afterReset (h : account = none ∨ account = some 3) :
    (setPasswordForUser 1 7 9 "Admins11").gives (twoTenants account) (.ok ())
      (afterReset account) := by
  have hg := Call.gives_eval (inputs 100) (setPasswordForUser 1 7 9 "Admins11") 0
    (twoTenants account)
  have hok : ((setPasswordForUser 1 7 9 "Admins11").eval (inputs 100) 0
      (twoTenants account)).answer.isOk = true := by
    rcases h with rfl | rfl
    all_goals decide +kernel
  cases ha : ((setPasswordForUser 1 7 9 "Admins11").eval (inputs 100) 0
      (twoTenants account)).answer with
  | ok u => exact ha ▸ hg
  | error e =>
    rw [ha] at hok
    cases hok

/-- The person signs in to organisation 1 after that. -/
def signIn1 (password : String) : Request := .login "ada@example.org" password (some 1) false

def signedIn1 (account : Option Id) (password : String) : Ran Db Err Mark Answer :=
  ranFrom 200 (signIn1 password) (afterReset account)

/-- The login has got to the member of organisation 1. -/
def getsToMember : Except Err Answer → Bool
  | .ok (.login x) => decide (x.Accepts 1 7)
  | _ => false

theorem exists_of_getsToMember {a : Except Err Answer} (h : getsToMember a = true) :
    ∃ x, a = .ok (.login x) ∧ x.Accepts 1 7 := by
  unfold getsToMember at h
  split at h
  · exact ⟨_, rfl, of_decide_eq_true h⟩
  · cases h

end PatronLoyalty.Accounts
