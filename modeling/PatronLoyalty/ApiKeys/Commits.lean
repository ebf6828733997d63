import PatronLoyalty.ApiKeys.Service
import PatronLoyalty.Txn.InTurn

/-!
# What the requests commit

`Does r h a b`: the request `r`, with the history `h` so far, may take the store from `a` to `b` by a
commit. A rotation stores the digest of the key that it has generated, in the row of its organisation or
in a new one; a revocation removes rows of its organisation; an update of the last use gives a row of its
organisation a value. Headline: **`served`**.
-/

namespace PatronLoyalty.ApiKeys

open Txn
open Txn.Rel (Wrote)
open Loyalty (Id)
open Accounts (Err Sha256)

variable {enabled : Features} {requests : List Request} {s s₀ a b c : Db} {orgId : Id}
  {h : List Line} {id : Id} {r : Setting} {C : DbWrite → Bool} {e : Err}

/-! ## Keys in the store -/

/-- Row `id` is that of the organisation's key. -/
def LiveKey (s : Db) (orgId id : Id) (r : Setting) : Prop :=
  s.get .setting id = some r ∧ r.deleted = false ∧ isApiKeyOf orgId r = true

/-- The store has the digest for the organisation. -/
def Holds (s : Db) (orgId : Id) (hash : Sha256 String) : Prop :=
  ∃ id r, LiveKey s orgId id r ∧ hasHash hash r = true

/-- No organisation has two rows. -/
def Single (s : Db) : Prop :=
  ∀ orgId id id' r r', LiveKey s orgId id r → LiveKey s orgId id' r' → id = id'

structure SettingLe (r r' : Setting) : Prop where
  key (orgId : Id) : isApiKeyOf orgId r' = isApiKeyOf orgId r
  deleted : r.deleted = true → r'.deleted = true

/-- **What the requests may have made of a store**: rows stay what they are, and deleted ones deleted. -/
def Evolves (a b : Db) : Prop :=
  ∀ id r, a.get .setting id = some r → ∃ r', b.get .setting id = some r' ∧ SettingLe r r'

theorem SettingLe.refl (r : Setting) : SettingLe r r := ⟨fun _ => rfl, fun hd => hd⟩

theorem Evolves.refl (a : Db) : Evolves a a := fun _ r hr => ⟨r, hr, .refl r⟩

theorem Evolves.trans (h : Evolves a b) (h' : Evolves b c) : Evolves a c := by
  intro id r hr
  obtain ⟨r1, hr1, hle⟩ := h id r hr
  obtain ⟨r2, hr2, hle'⟩ := h' id r1 hr1
  exact ⟨r2, hr2, fun o => (hle'.key o).trans (hle.key o), fun hd => hle'.deleted (hle.deleted hd)⟩

def evolving : Guarantee Db where
  rel := Evolves
  refl := .refl
  trans := .trans

/-- One row is written. -/
theorem get_set {id' : Id} : (a.set .setting id r).get .setting id' =
    if id' = id then some r else a.get .setting id' := by
  split
  · subst id'
    exact Rel.get_set_self _ _ _ _
  · rename_i hne
    exact Rel.get_set_ne (by simp [hne])

theorem evolves_set
    (h : ∀ r0, a.get .setting id = some r0 → SettingLe r0 r) : Evolves a (a.set .setting id r) := by
  intro i r0 hr0
  rw [get_set]
  split
  · subst i
    exact ⟨r, rfl, h r0 hr0⟩
  · exact ⟨r0, hr0, .refl r0⟩

/-! ## Commits -/

/-- A rotation stores the digest, in the row of the organisation or in one of its own. -/
def Stores (orgId : Id) (hash : Sha256 String) (a b : Db) : Prop :=
  ∃ id r, b = a.set .setting id r ∧ LiveKey b orgId id r ∧ hasHash hash r = true ∧
    (a.get .setting id = none ∨ ∃ r₀, LiveKey a orgId id r₀)

def Removes (orgId : Id) (a b : Db) : Prop :=
  ∀ id, b.get .setting id = a.get .setting id ∨
    ∃ r, LiveKey a orgId id r ∧ b.get .setting id = some { r with deleted := true }

/-- An update of the last use gives a row a value. -/
def Touches (orgId : Id) (a b : Db) : Prop :=
  ∃ id r payload, LiveKey a orgId id r ∧ b = a.set .setting id { r with value := some payload }

/-- **What a commit of the request does**, with this history. -/
def Does (r : Request) (h : List Line) (a b : Db) : Prop :=
  match r with
  | .rotateKey orgId => Made 0 h ∧ ∃ raw, h.getLast? = some (.emit (.generated raw)) ∧
      Stores orgId (hashKey raw) a b
  | .revokeKey orgId => Made 0 h ∧ Removes orgId a b
  | .touchLastUsedAt orgId => b = a ∨ Touches orgId a b
  | .resolveOrgId _ | .getStatus _ => b = a

/-- The last commit of the history has stored the key. -/
def Stored (raw : String) (h : List Line) : Prop :=
  ∃ h₁ a b, h = h₁ ++ [.commit a b] ∧ h₁.getLast? = some (.emit (.generated raw))

/-- **What an answer tells** of the history. -/
def Answers (enabled : Features) (r : Request) (x : Answer) (h : List Line) : Prop :=
  match r, x with
  | .rotateKey orgId, .rotated key => enabled orgId = true ∧
      (∃ bytes, key.apiKey = generateRawKey bytes) ∧ Stored key.apiKey h
  | .revokeKey _, _ => Made 1 h
  | _, _ => True

/-! ## Statements -/

section Statements

variable {C : DbWrite → Bool} {e : Err} {G : Guarantee Db} {id : Id} {r : Setting}

theorem mem_seen {p : Setting → Bool} :
    (id, r) ∈ seen p s ↔ s.get .setting id = some r ∧ r.deleted = false ∧ p r = true := by
  rw [seen, Rel.mem_rows]
  simp

theorem mem_seen_apiKey :
    (id, r) ∈ seen (isApiKeyOf orgId) s ↔ LiveKey s orgId id r := mem_seen

/-- The row that has been found is one of the organisation's key. -/
def Was (orgId id : Id) (s : Db) : Prop :=
  ∃ r, s.get .setting id = some r ∧ isApiKeyOf orgId r = true

theorem was_keeps (orgId id : Id) : evolving.Keeps (Was orgId id) := by
  rintro a b hab ⟨r, hr, hk⟩
  obtain ⟨r', hr', hle⟩ := hab id r hr
  exact ⟨r', hr', (hle.key orgId).trans hk⟩

theorem triple_findFirst : Triple C e evolving Eq (findFirst (isApiKeyOf orgId))
    fun o a b => (∀ x, o = some x → Was orgId x.1 a) ∧ a = b := by
  refine .pick fun n => .readFirst (fun o => ?_) fun s x hx => ?_
  · intro a b hab h x hx
    exact was_keeps orgId x.1 a b hab (h x hx)
  · obtain ⟨id, r⟩ := x
    obtain ⟨hr, -, hk⟩ := mem_seen_apiKey.mp (List.mem_of_getElem? hx)
    exact ⟨r, hr, hk⟩

theorem triple_update {P : Db → Db → Prop} {Q : Setting → Db → Db → Prop} {f : Setting → Setting}
    (h : ∀ r a b, P a b → b.get .setting id = some r → r.deleted = false →
      Q (f r) a (b.set .setting id (f r))) : Triple C e G P (update id f) Q :=
  .modify fun r r' a b c hp hf hw => by
    split at hf
    · rename_i hd
      cases hf
      rw [hw.2.2.2]
      exact h r a b hp hw.2.1 (by simpa using hd)
    · cases hf

theorem triple_create {P : Db → Db → Prop} {Q : Unit → Db → Db → Prop}
    (h : ∀ id a b, P a b → b.get .setting id = none → Q () a (b.set .setting id r)) :
    Triple C e G P (create r) Q := by
  refine .bind (.input (Q := fun _ => P) fun _ _ _ hp => hp) fun id => .insert fun a b c hp hw => ?_
  rw [hw.2.2.2]
  exact h id a b hp hw.2.1

end Statements

/-! ## Transactions -/

/-- A row is that of one organisation. -/
theorem isApiKeyOf_eq (h : isApiKeyOf orgId r = true) (o : Id) :
    isApiKeyOf o r = (orgId == o) := by
  rw [isApiKeyOf, Bool.and_eq_true, beq_iff_eq] at h
  rw [isApiKeyOf, h.1, h.2, Bool.and_true]

theorem LiveKey.org {o : Id} (h : LiveKey s orgId id r) (h' : LiveKey s o id r) :
    o = orgId := by
  have he := isApiKeyOf_eq h.2.2 o
  rw [h'.2.2] at he
  exact (beq_iff_eq.mp he.symm).symm

theorem liveKey_value {value : Option StoredApiKey} (h : LiveKey s orgId id r) :
    LiveKey (s.set .setting id { r with value }) orgId id { r with value } :=
  ⟨Rel.get_set_self _ _ _ _, h.2.1, h.2.2⟩

theorem triple_storeKey {payload : StoredApiKey} :
    Triple C e evolving Eq (storeKey orgId payload) fun _ => Stores orgId payload.hash := by
  refine .bind triple_findFirst fun o => ?_
  cases o with
  | none =>
    refine triple_create fun id a b hp hb => ?_
    obtain ⟨-, rfl⟩ := hp
    exact ⟨id, _, rfl, ⟨Rel.get_set_self _ _ _ _, rfl, by simp [isApiKeyOf, isApiKey]⟩,
      by simp [hasHash], Or.inl hb⟩
  | some x =>
    refine .bind (Q := fun _ => Stores orgId payload.hash) (triple_update fun r a b hp hr hd => ?_)
      fun _ => .pure fun _ _ hq => hq
    obtain ⟨hw, rfl⟩ := hp
    obtain ⟨r', hr', hk⟩ := hw x rfl
    obtain rfl : r = r' := Option.some.inj (hr.symm.trans hr')
    have hlive : LiveKey a orgId x.1 r := ⟨hr, hd, hk⟩
    exact ⟨x.1, _, rfl, liveKey_value hlive, by simp [hasHash], Or.inr ⟨r, hlive⟩⟩

theorem triple_storeLastUse {payload : StoredApiKey} :
    Triple C e evolving Eq (storeLastUse orgId payload) fun _ a b => b = a ∨ Touches orgId a b := by
  refine .bind triple_findFirst fun o => ?_
  cases o with
  | none => exact .pure fun a b hp => Or.inl hp.2.symm
  | some x =>
    refine .bind (Q := fun _ a b => b = a ∨ Touches orgId a b) (triple_update fun r a b hp hr hd => ?_)
      fun _ => .pure fun _ _ hq => hq
    obtain ⟨hw, rfl⟩ := hp
    obtain ⟨r', hr', hk⟩ := hw x rfl
    obtain rfl : r = r' := Option.some.inj (hr.symm.trans hr')
    exact Or.inr ⟨x.1, r, payload, ⟨hr, hd, hk⟩, rfl⟩

def RemovesOne (orgId : Id) (a b : Db) : Prop :=
  ∃ id r, LiveKey a orgId id r ∧ b = a.set .setting id { r with deleted := true }

theorem Removes.refl (a : Db) : Removes orgId a a := fun _ => Or.inl rfl

theorem Removes.snoc (h : Removes orgId a b) (h' : RemovesOne orgId b c) : Removes orgId a c := by
  obtain ⟨id, r, hr, rfl⟩ := h'
  intro i
  rw [get_set]
  split
  · subst i
    rcases h id with hid | ⟨r', -, hid⟩
    · exact Or.inr ⟨r, ⟨hid ▸ hr.1, hr.2⟩, rfl⟩
    · obtain rfl : r = { r' with deleted := true } := Option.some.inj (hr.1.symm.trans hid)
      exact absurd hr.2.1 (by simp)
  · exact h i

theorem Removes.walk (h : Relation.ReflTransGen (RemovesOne orgId) a b) : Removes orgId a b := by
  induction h with
  | refl => exact .refl a
  | tail _ h ih => exact ih.snoc h

theorem confined_deleteMany {G : Guarantee Db} :
    Confined C e G (RemovesOne orgId) (deleteMany (isApiKeyOf orgId)) :=
  .modifyAll (fun r => by simp [Keyed.keys, uniqueKeys]) fun id r a b hp hw => by
    simp only [Bool.and_eq_true, Bool.not_eq_true'] at hp
    exact ⟨id, r, ⟨hw.2.1, hp.1, hp.2⟩, hw.2.2.2⟩

theorem Stores.evolves {hash : Sha256 String} (h : Stores orgId hash a b) : Evolves a b := by
  obtain ⟨id, r, rfl, hr, -, hbefore⟩ := h
  refine evolves_set fun r0 hr0 => ?_
  rcases hbefore with hnone | ⟨r1, hr1⟩
  · rw [hnone] at hr0
    cases hr0
  · obtain rfl : r0 = r1 := Option.some.inj (hr0.symm.trans hr1.1)
    refine ⟨fun o => ?_, fun hd => absurd hr1.2.1 (by simp [hd])⟩
    rw [isApiKeyOf_eq hr.2.2, isApiKeyOf_eq hr1.2.2]

theorem Removes.evolves (h : Removes orgId a b) : Evolves a b := by
  intro id r hr
  rcases h id with hid | ⟨r', hr', hid⟩
  · exact ⟨r, hid.trans hr, .refl r⟩
  · obtain rfl : r = r' := Option.some.inj (hr.symm.trans hr'.1)
    exact ⟨_, hid, fun _ => rfl, fun _ => rfl⟩

theorem Touches.evolves (h : Touches orgId a b) : Evolves a b := by
  obtain ⟨id, r, payload, hr, rfl⟩ := h
  refine evolves_set fun r0 hr0 => ?_
  obtain rfl : r0 = r := Option.some.inj (hr0.symm.trans hr.1)
  exact ⟨fun _ => rfl, fun hd => hd⟩

/-! ## Requests -/

section Requests

variable {Φ : List Line → Prop} {D : List Line → Db → Db → Prop}

abbrev Described {β : Type} (D : List Line → Db → Db → Prop) (Φ : List Line → Prop) (c : KCall β)
    (Ψ : β → List Line → Prop) : Prop :=
  Describes (fun _ => true) .recordNotFound evolving D Φ c Ψ

theorem described_read {β : Type} {t : KTx β}
    (hD : ∀ h a, D h a a)
    (ht : Confined (fun _ => true) Err.recordNotFound evolving (fun _ _ => False) t) :
    Described D Φ (Call.withTx t) fun _ _ => True :=
  .confined ht (fun a _ hs => eq_of_noSteps hs ▸ .refl a)
    (fun h a _ _ hs => eq_of_noSteps hs ▸ hD h a) fun _ _ _ _ _ => trivial

theorem describes_rotateKey : Described (Does (.rotateKey orgId)) (Made 0)
    (rotateKey enabled orgId) fun key h => enabled orgId = true ∧
      (∃ bytes, key.apiKey = generateRawKey bytes) ∧ Stored key.apiKey h := by
  refine .bind (Ψ := fun _ h => enabled orgId = true ∧ Made 0 h) (.ofExcept fun _ h hr hm => ?_)
    fun _ => ?_
  · unfold requireEnabled at hr
    split at hr
    · exact ⟨‹_›, hm⟩
    · cases hr
  refine .bind (Ψ := fun _ h => enabled orgId = true ∧ Made 0 h) (.input fun _ _ hh => hh)
    fun bytes => ?_
  refine .bind (Ψ := fun _ h => enabled orgId = true ∧ Made 0 h) (.input fun _ _ hh => hh)
    fun createdAt => ?_
  refine .bind (.fire (Ω := fun h => (enabled orgId = true ∧ Made 0 h) ∧
    h.getLast? = some (.emit (.generated (generateRawKey bytes)))) fun h hh => ⟨⟨hh.1, ?_⟩, ?_⟩)
    fun _ => ?_
  · exact (commits_emit _).trans hh.2
  · exact List.getLast?_concat
  refine .bind (.tx (R := fun _ _ a b => Stores orgId (hashKey (generateRawKey bytes)) a b)
    (Ψ := fun _ h => enabled orgId = true ∧ Stored (generateRawKey bytes) h)
    (fun h hh => triple_storeKey.pre fun a b hs => hs.2) fun h u a b hh hs =>
      ⟨hs.evolves, ⟨hh.1.2, _, hh.2, hs⟩, hh.1.1, h, a, b, rfl, hh.2⟩)
    fun _ => .pure fun _ hh => ⟨hh.1, ⟨bytes, rfl⟩, hh.2⟩

theorem describes_revokeKey : Described (Does (.revokeKey orgId)) (Made 0) (revokeKey orgId)
    fun _ h => Made 1 h :=
  .bind (.confined (Ψ := fun _ => Made 1) confined_deleteMany (fun _ _ hs => (Removes.walk hs).evolves)
    (fun _ _ _ hm hs => ⟨hm, .walk hs⟩) fun _ h a b hm => by
      rw [Made, commits_snoc, hm]) fun _ => .pure fun _ hh => hh

theorem describes_readStored (hD : ∀ h a, D h a a) :
    Described D Φ (readStored orgId) fun _ _ => True :=
  .bind (described_read hD (.findFirst _)) fun _ => .pure fun _ _ => trivial

theorem describes_resolveOrgId {rawKey : String} : Described (Does (.resolveOrgId rawKey))
    Φ (resolveOrgId enabled rawKey) fun _ _ => True := by
  unfold resolveOrgId
  dsimp only
  split
  · exact .pure fun _ _ => trivial
  · refine .bind (described_read (fun _ _ => rfl) (.findFirst _)) fun o => ?_
    cases o with
    | none => exact .pure fun _ _ => trivial
    | some x =>
      simp only
      split
      · exact .bind (.fire (Ω := fun _ => True) fun _ _ => trivial) fun _ => .pure fun _ _ => trivial
      · exact .pure fun _ _ => trivial

theorem describes_touchLastUsedAt : Described (Does (.touchLastUsedAt orgId)) Φ
    (touchLastUsedAt orgId) fun _ _ => True := by
  refine .bind (describes_readStored fun _ _ => Or.inl rfl) fun o => ?_
  cases o with
  | none => exact .pure fun _ _ => trivial
  | some stored =>
    refine .bind (Ψ := fun _ _ => True) (.input fun _ _ _ => trivial) fun lastUsedAt =>
      .handle (.tx (R := fun _ _ a b => b = a ∨ Touches orgId a b)
        (fun h hh => triple_storeLastUse.pre fun a b hs => hs.2) fun h u a b hh hs =>
          ⟨?_, hs, trivial⟩) fun _ => .pure fun _ _ => trivial
    rcases hs with rfl | hs
    · exact .refl _
    · exact hs.evolves

theorem describes_getStatus : Described (Does (.getStatus orgId)) Φ
    (getStatus orgId) fun _ _ => True := by
  refine .bind (describes_readStored fun _ _ => rfl) fun o => ?_
  cases o with
  | none => exact .pure fun _ _ => trivial
  | some stored => exact .pure fun _ _ => trivial

/-- **Every request** is described. -/
theorem describes_run (r : Request) :
    Described (Does r) (Made 0) (r.run enabled) (Answers enabled r) := by
  cases r with
  | rotateKey orgId => exact Describes.bind describes_rotateKey fun key => .pure fun h hh => hh
  | revokeKey orgId => exact Describes.bind describes_revokeKey fun _ => .pure fun _ hh => hh
  | resolveOrgId rawKey =>
    exact Describes.bind describes_resolveOrgId fun _ => .pure fun _ _ => trivial
  | touchLastUsedAt orgId =>
    exact Describes.bind describes_touchLastUsedAt fun _ => .pure fun _ _ => trivial
  | getStatus orgId => exact Describes.bind describes_getStatus fun _ => .pure fun _ _ => trivial

/-- **What a run is made of.** -/
theorem served {P : Run → ℕ → Prop} {c : Run} (h : Reach P (start enabled s₀ requests) c) :
    Served evolving Does (Answers enabled) s₀ requests c :=
  reach_served Err.recordNotFound (Φ := Made 0) rfl (fun r _ => describes_run r) h

end Requests

end PatronLoyalty.ApiKeys
