import PatronLoyalty.Accounts.Refreshing

/-!
# Backup codes

A login with a backup code reads the list of hashes, looks for one that accepts the code, and writes back
the others. A regeneration writes a list that it has drawn. Both write the whole list, whatever has
become of it since it was read, and for the memberships that were read.

Headline: **`codes_singleUse`**. Each code is accepted once, and neither a code that has been accepted nor
one that has been replaced comes back, as long as whatever a login writes back is still held, what a
regeneration draws is new, and both reach everybody who holds the code.
-/

namespace PatronLoyalty.Accounts

open Txn
open Loyalty (Id)

variable {d : Deployment} {requests : List Request} {s₀ a b : Db} {c : Run}
  {channel : TotpChannel} {hash : BackupHash} {userIds : List Id} {hashes : List BackupHash}
  {s : Db} {es : List (ℕ × Line)} {i : ℕ}

def InUse (s : Db) (channel : TotpChannel) (hash : BackupHash) : Prop := ∃ id, Has s channel id hash

/-- A login with a second factor is about to write back what is left of these hashes. -/
def Matched (requests : List Request) (es : List (ℕ × Line)) (i : ℕ) (channel : TotpChannel)
    (userIds : List Id) (hashes : List BackupHash) (place : ℕ) : Prop :=
  (∃ token code, requests[i]? = some (.completeTwoFactorLogin token code)) ∧
    (linesOf i es).getLast? = some (.emit (.matched channel userIds hashes place))

/-- A regeneration for the user is about to write these hashes. -/
def Regenerated (requests : List Request) (es : List (ℕ × Line)) (i : ℕ) (channel : TotpChannel)
    (userId : Id) (userIds : List Id) (hashes : List BackupHash) : Prop :=
  (∃ password totpCode,
    requests[i]? = some (.regenerateBackupCodes userId password totpCode channel)) ∧
    (linesOf i es).getLast? = some (.emit (.regenerated channel userIds hashes))

/-- **A login accepts the code** at position `p`: it commits the list without its hash. -/
def AcceptedAt (requests : List Request) (es : List (ℕ × Line)) (p : ℕ) (channel : TotpChannel)
    (hash : BackupHash) : Prop :=
  ∃ i a b userIds hashes place, es[p]? = some (i, .commit a b) ∧
    Matched requests (es.take p) i channel userIds hashes place ∧ hashes[place]? = some hash

/-- **A regeneration replaces the code** at position `p`: the user had it before. -/
def ReplacedAt (requests : List Request) (es : List (ℕ × Line)) (p : ℕ) (channel : TotpChannel)
    (hash : BackupHash) : Prop :=
  ∃ i a b userId userIds hashes, es[p]? = some (i, .commit a b) ∧
    Regenerated requests (es.take p) i channel userId userIds hashes ∧ Has a channel userId hash

/-- **Each code works once.** -/
structure SingleUse (d : Deployment) (requests : List Request) (c : Run) : Prop where
  /-- A login that succeeds with a code the authenticator does not accept has a code accepted. -/
  factor {token : Jwt} {code : String} {i p : ℕ} {x : Answer} :
    requests[i]? = some (.completeTwoFactorLogin token code) →
      c.trace[p]? = some (i, .answer (.ok x)) →
        (∀ secret now, verifyTotp d secret (removeSpaces code) now = false) →
          ∃ q channel hash, q < p ∧ AcceptedAt requests c.trace q channel hash ∧
            compareBackupCode (removeSpaces code) hash = true
  once {p q : ℕ} {channel : TotpChannel} {hash : BackupHash} :
    AcceptedAt requests c.trace p channel hash → AcceptedAt requests c.trace q channel hash → p = q
  /-- An accepted code is gone. -/
  accepted {p : ℕ} {channel : TotpChannel} {hash : BackupHash} :
    AcceptedAt requests c.trace p channel hash → ¬ InUse c.db channel hash
  replaced {p : ℕ} {channel : TotpChannel} {hash : BackupHash} :
    ReplacedAt requests c.trace p channel hash → ¬ InUse c.db channel hash
  /-- It has been accepted before, if ever. -/
  before {p q : ℕ} {channel : TotpChannel} {hash : BackupHash} :
    ReplacedAt requests c.trace p channel hash → AcceptedAt requests c.trace q channel hash → q < p

/-! ## The condition -/

/-- **The condition on a commit.** -/
structure CodesInOrder (requests : List Request) (es : List (ℕ × Line)) (i : ℕ) (a : Db) : Prop where
  held {channel : TotpChannel} {userIds : List Id} {hashes : List BackupHash} {place : ℕ} :
    Matched requests es i channel userIds hashes place → ∀ hash ∈ hashes, InUse a channel hash
  nodup {channel : TotpChannel} {userIds : List Id} {hashes : List BackupHash} {place : ℕ} :
    Matched requests es i channel userIds hashes place → hashes.Nodup
  /-- Whoever has the code that is accepted is written to. -/
  shared {channel : TotpChannel} {userIds : List Id} {hashes : List BackupHash} {place : ℕ}
    {hash : BackupHash} : Matched requests es i channel userIds hashes place →
      hashes[place]? = some hash → ∀ id, Has a channel id hash → id ∈ userIds
  /-- A regeneration draws hashes that nobody has had. -/
  fresh {channel : TotpChannel} {userId : Id} {userIds : List Id} {hashes : List BackupHash} :
    Regenerated requests es i channel userId userIds hashes → ∀ hash ∈ hashes,
      ¬ InUse a channel hash ∧ ∀ (q j : ℕ) (x y : Db), es[q]? = some (j, .commit x y) →
        ¬ InUse x channel hash
  /-- Whoever has a code of the user's is written to. -/
  covers {channel : TotpChannel} {userId : Id} {userIds : List Id} {hashes : List BackupHash} :
    Regenerated requests es i channel userId userIds hashes → ∀ hash id,
      Has a channel userId hash → Has a channel id hash → id ∈ userIds

theorem Quiet.inUse (h : Quiet a b) (hb : InUse b channel hash) : InUse a channel hash := by
  obtain ⟨id, hx⟩ := hb
  exact ⟨id, h.has hx⟩

theorem Rewrites.inUse {ch : TotpChannel} (h : Rewrites ch userIds hashes a b)
    (hb : InUse b channel hash) :
    channel = ch ∧ hash ∈ hashes ∨ InUse a channel hash := by
  obtain ⟨id, hx⟩ := hb
  rcases h channel id hash hx with ⟨hc, -, hm⟩ | ⟨-, ha⟩
  · exact Or.inl ⟨hc, hm⟩
  · exact Or.inr ⟨id, ha⟩

/-- What is written has left nobody the hash, where everybody who had it is written to. -/
theorem Rewrites.not_inUse (h : Rewrites channel userIds hashes a b) (hm : hash ∉ hashes)
    (hall : ∀ id, Has a channel id hash → id ∈ userIds) : ¬ InUse b channel hash := by
  rintro ⟨id, hx⟩
  rcases h channel id hash hx with ⟨-, -, hin⟩ | ⟨hout, ha⟩
  · exact hm hin
  · rcases hout with hne | hnot
    · exact hne rfl
    · exact hnot (hall id ha)

section Runs

variable (hs : Served evolving Does (Answers d) s₀ requests c)
  (hk : ∀ {p i a b}, c.trace[p]? = some (i, .commit a b) →
    CodesInOrder requests (c.trace.take p) i a) {p : ℕ}

include hs hk

/-- **A code that is accepted** was held, and is not. -/
theorem accepted_step (h : AcceptedAt requests c.trace p channel hash) :
    ∃ i a b, c.trace[p]? = some (i, .commit a b) ∧ InUse a channel hash ∧ ¬ InUse b channel hash := by
  obtain ⟨i, a, b, userIds, hashes, place, hp, hmatch, hx⟩ := h
  have hin := hk hp
  refine ⟨i, a, b, hp, hin.held hmatch hash (List.mem_of_getElem? hx), ?_⟩
  obtain ⟨r, hr, -, hd⟩ := hs.commit hp
  obtain ⟨⟨token, code, hi⟩, hlast⟩ := hmatch
  obtain rfl : r = .completeTwoFactorLogin token code := Option.some.inj (hr.symm.trans hi)
  refine (hd.2 _ _ _ _ hlast).2.not_inUse (fun hmem => ?_) (hin.shared ⟨⟨token, code, hi⟩, hlast⟩ hx)
  -- The hash stood in one place only.
  have hnodup := hin.nodup ⟨⟨token, code, hi⟩, hlast⟩
  obtain ⟨n, hne, hn⟩ := List.mem_eraseIdx_iff_getElem?.mp hmem
  have hlt := (List.getElem?_eq_some_iff.mp hn).1
  exact hne ((List.getElem?_inj hlt hnodup).mp (hn.trans hx.symm))

/-- **So is a code that is replaced.** -/
theorem replaced_step (h : ReplacedAt requests c.trace p channel hash) :
    ∃ i a b, c.trace[p]? = some (i, .commit a b) ∧ InUse a channel hash ∧ ¬ InUse b channel hash := by
  obtain ⟨i, a, b, userId, userIds, hashes, hp, hregen, hx⟩ := h
  have hin := hk hp
  refine ⟨i, a, b, hp, ⟨userId, hx⟩, ?_⟩
  obtain ⟨r, hr, -, hd⟩ := hs.commit hp
  have hfresh := hin.fresh hregen
  have hcovers := hin.covers hregen hash
  obtain ⟨⟨password, totpCode, hi⟩, hlast⟩ := hregen
  obtain rfl := Option.some.inj (hr.symm.trans hi)
  exact (hd.2 _ _ _ hlast).2.2.not_inUse (fun hmem => (hfresh hash hmem).1 ⟨userId, hx⟩)
    fun id hid => hcovers id hx hid

/-- **A hash that was held once and is not** is not held after any later commit. -/
theorem stays_gone {q i j : ℕ} {x y : Db} (hp : c.trace[p]? = some (i, .commit x y))
    (hx : InUse x channel hash) (hlt : p < q) (hq : c.trace[q]? = some (j, .commit a b))
    (ha : ¬ InUse a channel hash) : ¬ InUse b channel hash := by
  intro hb
  have hin := hk hq
  obtain ⟨r, hr, -, hd⟩ := hs.commit hq
  cases r with
  | refreshTokens token => exact ha (hd.1.inUse hb)
  | completeTwoFactorLogin token code =>
    by_cases hmark : ∃ ch ids hashes place,
        (linesOf j (c.trace.take q)).getLast? = some (.emit (.matched ch ids hashes place))
    · obtain ⟨ch, ids, hashes, place, hlast⟩ := hmark
      rcases (hd.2 _ _ _ _ hlast).2.inUse hb with ⟨rfl, hm⟩ | h
      · exact ha (hin.held ⟨⟨token, code, hr⟩, hlast⟩ hash (List.mem_of_mem_eraseIdx hm))
      · exact ha h
    · exact ha ((hd.1 fun ch ids hashes place hlast => hmark ⟨ch, ids, hashes, place, hlast⟩).inUse hb)
  | regenerateBackupCodes userId password totpCode ch =>
    by_cases hmark : ∃ ch' ids hashes,
        (linesOf j (c.trace.take q)).getLast? = some (.emit (.regenerated ch' ids hashes))
    · obtain ⟨ch', ids, hashes, hlast⟩ := hmark
      obtain ⟨rfl, -, hrewrites⟩ := hd.2 _ _ _ hlast
      rcases hrewrites.inUse hb with ⟨rfl, hm⟩ | h
      · refine (hin.fresh ⟨⟨password, totpCode, hr⟩, hlast⟩ hash hm).2 p i x y ?_ hx
        rwa [List.getElem?_take_of_lt hlt]
      · exact ha h
    · exact ha ((hd.1 fun ch ids hashes hlast => hmark ⟨ch, ids, hashes, hlast⟩).inUse hb)
  | _ => exact ha (hd.1.inUse hb)

end Runs

/-- **Each backup code works once**, as long as the commits come in order. -/
theorem codes_singleUse
    (h : Reach (fun c i => c.AtCommit (fun a _ => CodesInOrder requests c.trace i a) i)
      (start d s₀ requests) c) : SingleUse d requests c := by
  have hs := served h
  have hk : ∀ {p i a b}, c.trace[p]? = some (i, .commit a b) →
      CodesInOrder requests (c.trace.take p) i a := fun hp =>
    reach_atCommit (K := fun es i a _ => CodesInOrder requests es i a) (fun _ _ hc => hc) h hp
  -- No hash is held again once it has been accepted or replaced.
  have hgone : ∀ {p : ℕ} {channel : TotpChannel} {hash : BackupHash},
    (∃ i a b, c.trace[p]? = some (i, .commit a b) ∧
      InUse a channel hash ∧ ¬ InUse b channel hash) → ¬ InUse c.db channel hash := by
    rintro p channel hash ⟨i, a, b, hp, ha, hb⟩
    exact hs.linear.carry_after (F := fun s => ¬ InUse s channel hash) hp
      (fun q j x y hlt hq hx => stays_gone hs hk hp ha hlt hq hx) hb
  have horder : ∀ {p q : ℕ} {channel : TotpChannel} {hash : BackupHash}, (∃ i a b,
      c.trace[p]? = some (i, .commit a b) ∧ InUse a channel hash ∧ ¬ InUse b channel hash) →
        (∃ i a b, c.trace[q]? = some (i, .commit a b) ∧
        InUse a channel hash ∧ ¬ InUse b channel hash) → ¬ p < q := by
    rintro p q channel hash ⟨i, a, b, hp, ha, hb⟩ ⟨j, a', b', hq, ha', -⟩ hlt
    exact hs.linear.carry_to (F := fun s => ¬ InUse s channel hash) hp hq hlt
      (fun q j x y hlt hq hx => stays_gone hs hk hp ha hlt hq hx) hb ha'
  refine ⟨?_, ?_, ?_, ?_, ?_⟩
  · intro token code i p x hi hp hno
    obtain ⟨r, hr, ha⟩ := hs.answer hp
    obtain rfl : r = .completeTwoFactorLogin token code := Option.some.inj (hr.symm.trans hi)
    rcases ha with ⟨secret, now, hv⟩ | ⟨h1, a, b, h2, channel, userIds, hashes, place, hlines, hlast⟩
    · rw [hno secret now] at hv
      cases hv
    · obtain ⟨q, hqp, hq, htake⟩ := exists_take_of_linesOf hlines
      obtain ⟨r, hr, -, hd⟩ := hs.commit hq
      obtain rfl : r = .completeTwoFactorLogin token code := Option.some.inj (hr.symm.trans hi)
      rw [← htake] at hlast
      have hplace := (hd.2 _ _ _ _ hlast).1
      obtain ⟨hlt, hacc, -⟩ := List.findIdx?_eq_some_iff_getElem.mp hplace
      exact ⟨q, channel, hashes[place], hqp, ⟨i, a, b, userIds, hashes, place, hq,
        ⟨⟨token, code, hi⟩, hlast⟩, List.getElem?_eq_getElem hlt⟩, hacc⟩
  · intro p q channel hash hp hq
    have h1 := horder (accepted_step hs hk hp) (accepted_step hs hk hq)
    have h2 := horder (accepted_step hs hk hq) (accepted_step hs hk hp)
    omega
  · exact fun hp => hgone (accepted_step hs hk hp)
  · exact fun hp => hgone (replaced_step hs hk hp)
  · intro p q channel hash hp hq
    have hle := horder (replaced_step hs hk hp) (accepted_step hs hk hq)
    have hne : q ≠ p := by
      rintro rfl
      obtain ⟨i, a, b, userIds, hashes, place, hi, ⟨⟨token, code, hri⟩, -⟩, -⟩ := hq
      obtain ⟨j, a', b', userId, ids, hs', hj, ⟨⟨password, totpCode, hrj⟩, -⟩, -⟩ := hp
      rw [hi] at hj
      cases hj
      rw [hri] at hrj
      cases hrj
    omega

/-! ## Runs -/

def holders (s : Db) (channel : TotpChannel) (hash : BackupHash) : List Id :=
  (seen .user (fun _ (u : User) => (u.hashes channel).contains hash) s).map (·.1)

theorem mem_holders {id : Id} : id ∈ holders s channel hash ↔ Has s channel id hash := by
  rw [holders, List.mem_map]
  constructor
  · rintro ⟨⟨i, u⟩, hm, rfl⟩
    obtain ⟨hl, hx⟩ := mem_seen.mp hm
    exact ⟨u, hl, by simpa using hx⟩
  · rintro ⟨u, hl, hx⟩
    exact ⟨(id, u), mem_seen.mpr ⟨hl, by simpa using hx⟩, rfl⟩

def loginInOrder (a : Db) (channel : TotpChannel) (userIds : List Id) (hashes : List BackupHash)
    (place : ℕ) : Bool :=
  (hashes.all fun hash => !(holders a channel hash).isEmpty) && decide hashes.Nodup &&
    hashes[place]?.all fun hash => (holders a channel hash).all fun id => userIds.contains id

def regenerationInOrder (es : List (ℕ × Line)) (a : Db) (channel : TotpChannel) (userId : Id)
    (userIds : List Id) (hashes : List BackupHash) : Bool :=
  (hashes.all fun hash => (holders a channel hash).isEmpty && es.all fun e => match e.2 with
      | .commit x _ => (holders x channel hash).isEmpty
      | _ => true) &&
    (a.get .user userId).all fun (u : User) => (u.hashes channel).all fun hash =>
      (holders a channel hash).all fun id => userIds.contains id

/-- The condition, computed. -/
def codesInOrder (requests : List Request) (es : List (ℕ × Line)) (i : ℕ) (a : Db) : Bool :=
  match (linesOf i es).getLast?, requests[i]? with
  | some (.emit (.matched channel userIds hashes place)), some (.completeTwoFactorLogin _ _) =>
    loginInOrder a channel userIds hashes place
  | some (.emit (.regenerated channel userIds hashes)), some (.regenerateBackupCodes userId _ _ _) =>
    regenerationInOrder es a channel userId userIds hashes
  | _, _ => true

theorem inUse_of_holders (h : (!(holders s channel hash).isEmpty) = true) :
    InUse s channel hash := by
  obtain ⟨id, hid⟩ := List.exists_mem_of_ne_nil (holders s channel hash) (by simpa using h)
  exact ⟨id, mem_holders.mp hid⟩

theorem not_inUse_of_holders (h : (holders s channel hash).isEmpty = true) :
    ¬ InUse s channel hash := by
  rintro ⟨id, hid⟩
  have hm := mem_holders.mpr hid
  rw [List.isEmpty_iff.mp h] at hm
  cases hm

theorem loginInOrder_of {place : ℕ} (h : codesInOrder requests es i a = true)
    (hm : Matched requests es i channel userIds hashes place) :
    (∀ hash ∈ hashes, InUse a channel hash) ∧ hashes.Nodup ∧
      ∀ hash, hashes[place]? = some hash → ∀ id, Has a channel id hash → id ∈ userIds := by
  obtain ⟨⟨token, code, hi⟩, hlast⟩ := hm
  simp only [codesInOrder, hlast, hi, loginInOrder, Bool.and_eq_true, decide_eq_true_eq] at h
  refine ⟨fun hash hx => inUse_of_holders (List.all_eq_true.mp h.1.1 hash hx), h.1.2,
    fun hash hx id hid => ?_⟩
  have hall := h.2
  rw [hx, Option.all_some] at hall
  simpa using List.all_eq_true.mp hall id (mem_holders.mpr hid)

theorem regenerationInOrder_of {userId : Id} (h : codesInOrder requests es i a = true)
    (hm : Regenerated requests es i channel userId userIds hashes) :
    (∀ hash ∈ hashes, ¬ InUse a channel hash ∧
      ∀ (q j : ℕ) (x y : Db), es[q]? = some (j, .commit x y) → ¬ InUse x channel hash) ∧
      ∀ hash id, Has a channel userId hash → Has a channel id hash → id ∈ userIds := by
  obtain ⟨⟨password, totpCode, hi⟩, hlast⟩ := hm
  simp only [codesInOrder, hlast, hi, regenerationInOrder, Bool.and_eq_true] at h
  refine ⟨fun hash hx => ?_, fun hash id hu hid => ?_⟩
  · have hall := List.all_eq_true.mp h.1 hash hx
    rw [Bool.and_eq_true] at hall
    refine ⟨not_inUse_of_holders hall.1, fun q j x y hq => not_inUse_of_holders ?_⟩
    exact List.all_eq_true.mp hall.2 _ (List.mem_of_getElem? hq)
  · obtain ⟨u, hl, hx⟩ := hu
    have hall := h.2
    rw [hl.1, Option.all_some] at hall
    have := List.all_eq_true.mp (List.all_eq_true.mp hall hash hx) id (mem_holders.mpr hid)
    simpa using this

theorem codesInOrder_of (h : codesInOrder requests es i a = true) :
    CodesInOrder requests es i a where
  held hm := (loginInOrder_of h hm).1
  nodup hm := (loginInOrder_of h hm).2.1
  shared hm := (loginInOrder_of h hm).2.2 _
  fresh hm := (regenerationInOrder_of h hm).1
  covers hm := (regenerationInOrder_of h hm).2

def codedStore : Db where
  tables
    | .organization => table [(1, { slug := "acme" })]
    | .user => table [(7, { orgId := 1, email := "ada@example.org", passwordHash := ⟨"Correct1"⟩
                            status := .active, emailVerified := true, twoFactorEnabled := true
                            twoFactorSecret := some "JBSWY3DP"
                            twoFactorBackupHashes := some [.bcrypt "AAAAAAAAAA" 1, .bcrypt "BBBBBBBBBB" 2] })]
    | _ => ∅
  log := []

def withAuthenticator : Deployment := { authenticator := fun _ code _ => code == "123456" }

/-- What a login has answered to the password. -/
def secondFactorToken : Jwt :=
  sign withAuthenticator.jwtSecret { sub := 7, typ := some "2fa_pending" } 300 0

def withCode (code : String) : Request := .completeTwoFactorLogin secondFactorToken code

/-- Request `i` has accepted a code with this hash. -/
def accepts (requests : List Request) (es : List (ℕ × Line)) (p : ℕ) (channel : TotpChannel)
    (hash : BackupHash) : Bool :=
  es[p]?.any fun e => e.2.isCommit (fun _ _ => true) &&
    match (linesOf e.1 (es.take p)).getLast?, requests[e.1]? with
    | some (.emit (.matched ch _ hashes place)), some (.completeTwoFactorLogin _ _) =>
      ch == channel && hashes[place]? == some hash
    | _, _ => false

theorem acceptedAt_of {p : ℕ}
    (h : accepts requests es p channel hash = true) : AcceptedAt requests es p channel hash := by
  obtain ⟨⟨i, e⟩, hp, hx⟩ := (Option.any_eq_true _ _).mp h
  rw [Bool.and_eq_true] at hx
  obtain ⟨hcommit, hx⟩ := hx
  cases e with
  | commit a b =>
    dsimp only at hx
    split at hx
    · rename_i ch userIds hashes place token code hlast hi
      simp only [Bool.and_eq_true, beq_iff_eq] at hx
      obtain ⟨rfl, hx⟩ := hx
      exact ⟨i, a, b, userIds, hashes, place, hp, ⟨⟨token, code, hi⟩, hlast⟩, hx⟩
    · cases hx
  | start | rollback | emit | answer => cases hcommit

/-- **Two logins** with different codes read the list before either writes it back. The second writes
back the code of the first, which a third login then uses. -/
theorem code_accepted_twice : ∃ c : Run, Reach Always (start withAuthenticator codedStore
    [withCode "aaaaaaaaaa", withCode "bbbbbbbbbb", withCode "aaaaaaaaaa"]) c ∧
      ¬ SingleUse withAuthenticator
        [withCode "aaaaaaaaaa", withCode "bbbbbbbbbb", withCode "aaaaaaaaaa"] c := by
  obtain ⟨c, hc, hp⟩ := exists_reach_anywhere
    (start withAuthenticator codedStore
      [withCode "aaaaaaaaaa", withCode "bbbbbbbbbb", withCode "aaaaaaaaaa"])
    (turns 0 12 ++ turns 1 12 ++ turns 0 24 ++ List.replicate 24 (1, .go 1) ++
      List.replicate 36 (2, .go 2))
    (fun c => accepts [withCode "aaaaaaaaaa", withCode "bbbbbbbbbb", withCode "aaaaaaaaaa"] c.trace 12
        .organization (.bcrypt "AAAAAAAAAA" 1) &&
      accepts [withCode "aaaaaaaaaa", withCode "bbbbbbbbbb", withCode "aaaaaaaaaa"] c.trace 36
        .organization (.bcrypt "AAAAAAAAAA" 1)) (by decide +kernel)
  rw [Bool.and_eq_true] at hp
  refine ⟨c, hc, fun h => ?_⟩
  have := h.once (acceptedAt_of hp.1) (acceptedAt_of hp.2)
  omega

theorem codes_singleUse_regenerated : ∃ c : Run,
    Reach (fun c i => c.AtCommit (fun a _ => CodesInOrder [withCode "aaaaaaaaaa",
      .regenerateBackupCodes 7 "Correct1" "123456" .organization] c.trace i a) i)
      (start withAuthenticator codedStore
        [withCode "aaaaaaaaaa", .regenerateBackupCodes 7 "Correct1" "123456" .organization]) c ∧
    succeeded 0 c = true ∧ succeeded 1 c = true ∧
      SingleUse withAuthenticator [withCode "aaaaaaaaaa",
        .regenerateBackupCodes 7 "Correct1" "123456" .organization] c := by
  obtain ⟨c, hc, hp⟩ := exists_reach
    (o := fun c i => c.atCommit (fun a _ => codesInOrder [withCode "aaaaaaaaaa",
      .regenerateBackupCodes 7 "Correct1" "123456" .organization] c.trace i a) i)
    (P := fun c i => c.AtCommit (fun a _ => CodesInOrder [withCode "aaaaaaaaaa",
      .regenerateBackupCodes 7 "Correct1" "123456" .organization] c.trace i a) i)
    (fun c i h => Config.atCommit_of (fun _ _ => codesInOrder_of) h)
    (start withAuthenticator codedStore
      [withCode "aaaaaaaaaa", .regenerateBackupCodes 7 "Correct1" "123456" .organization])
    (turns 0 36 ++ turns 1 27) (fun c => succeeded 0 c && succeeded 1 c) (by decide +kernel)
  rw [Bool.and_eq_true] at hp
  exact ⟨c, hc, hp.1, hp.2, codes_singleUse hc⟩

end PatronLoyalty.Accounts
