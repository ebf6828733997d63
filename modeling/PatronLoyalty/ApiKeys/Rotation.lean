import PatronLoyalty.ApiKeys.Commits
import PatronLoyalty.Txn.Under

/-!
# Rotation and revocation

A rotation gives the organisation a new key, and a revocation takes its key away. The update of the last
use replaces the value that it has read before, whatever has become of the row since, and the key it had
then comes back.

Headline: **`keys_final`**. Once a rotation has returned, no key issued before is accepted, and the one
it returned is, until the next rotation or revocation; and once a revocation has returned no earlier key
is accepted. It holds of every run in which no update of the last use changes a key, a row is created
only where there is none, no other rotation or revocation commits between that of a rotation and its
answer, and the keys are distinct.
-/

namespace PatronLoyalty.ApiKeys

open Txn
open Loyalty (Id trim)
open Accounts (Err Sha256 sha256)

variable {enabled : Features} {requests : List Request} {s s₀ a b : Db} {orgId : Id}
  {l : List Line} {hash : Sha256 String} {r : Request} {es : List (ℕ × Line)} {i : ℕ} {id o : Id}

/-! ## The statement -/

/-- The request gives the organisation another key, or none. -/
def Request.Rekeys (orgId : Id) : Request → Prop
  | .rotateKey id => id = orgId
  | .revokeKey id => id = orgId
  | _ => False

/-- The organisation's key was issued before position `p`, by another request than `j`: a rotation has
returned it, or the store had it at the start. -/
def IssuedBefore (requests : List Request) (s₀ : Db) (es : List (ℕ × Line)) (orgId : Id)
    (raw : String) (j p : ℕ) : Prop :=
  Holds s₀ orgId (hashKey raw) ∨ ∃ i n key, i ≠ j ∧ requests[i]? = some (.rotateKey orgId) ∧
    es[n]? = some (i, .answer (.ok (.rotated key))) ∧ key.apiKey = raw ∧ n < p

/-- **Rotation and revocation are final.** -/
structure Final (requests : List Request) (s₀ : Db) (c : Run) : Prop where
  /-- Once a rotation has returned, no key issued before is accepted by a later request. -/
  replaced {j m p q : ℕ} {orgId : Id} {key : RotatedKey} {rawKey : String} {o : Option Id} :
    requests[j]? = some (.rotateKey orgId) → c.trace[p]? = some (j, .answer (.ok (.rotated key))) →
      IssuedBefore requests s₀ c.trace orgId (trim rawKey) j p →
        requests[m]? = some (.resolveOrgId rawKey) → linesOf m (c.trace.take p) = [] →
          c.trace[q]? = some (m, .answer (.ok (.resolved o))) → o = none
  /-- The key it returned is, until another rotation or revocation is made. -/
  accepted {j m p q : ℕ} {orgId : Id} {key : RotatedKey} {rawKey : String} {o : Option Id} :
    requests[j]? = some (.rotateKey orgId) → c.trace[p]? = some (j, .answer (.ok (.rotated key))) →
      trim rawKey = key.apiKey → requests[m]? = some (.resolveOrgId rawKey) →
        linesOf m (c.trace.take p) = [] → c.trace[q]? = some (m, .answer (.ok (.resolved o))) →
          (∀ k n r e, k ≠ j → requests[k]? = some r → r.Rekeys orgId → p < n → n < q →
            c.trace[n]? ≠ some (k, e)) → o = some orgId
  /-- Once a revocation that no rotation overlaps has returned, no key issued before is accepted. -/
  revoked {k m p q : ℕ} {orgId : Id} {x : Answer} {rawKey : String} {o : Option Id} :
    requests[k]? = some (.revokeKey orgId) → c.trace[p]? = some (k, .answer (.ok x)) →
      (∀ j n e, requests[j]? = some (.rotateKey orgId) → c.trace[n]? = some (j, e) → n < p →
        linesOf k (c.trace.take n) = []) →
          IssuedBefore requests s₀ c.trace orgId (trim rawKey) k p →
            requests[m]? = some (.resolveOrgId rawKey) → linesOf m (c.trace.take p) = [] →
              c.trace[q]? = some (m, .answer (.ok (.resolved o))) → o = none

/-! ## The condition -/

/-- **The condition on a commit.** -/
structure InOrder (requests : List Request) (s₀ : Db) (es : List (ℕ × Line)) (i : ℕ) (a b : Db) :
    Prop where
  /-- An update of the last use changes no key. -/
  touched {orgId : Id} : requests[i]? = some (.touchLastUsedAt orgId) →
    ∀ o hash, Holds b o hash ↔ Holds a o hash
  created {orgId id id' : Id} {r' : Setting} : requests[i]? = some (.rotateKey orgId) →
    a.get .setting id = none → b.get .setting id ≠ none → ¬ LiveKey a orgId id' r'
  fresh {orgId : Id} {raw : String} : requests[i]? = some (.rotateKey orgId) →
    (linesOf i es).getLast? = some (.emit (.generated raw)) →
      (∀ o, ¬ Holds s₀ o (hashKey raw)) ∧ ∀ j, (j, Entry.emit (.generated raw)) ∈ es → j = i

/-- **The condition on an answer**: since the commit of a rotation no other rotation or revocation of the
organisation has committed. -/
def Latest (requests : List Request) (es : List (ℕ × Line)) (i : ℕ) : Prop :=
  ∀ (orgId : Id) (n : ℕ) (a b : Db), requests[i]? = some (.rotateKey orgId) →
    es[n]? = some (i, .commit a b) → ∀ (m k : ℕ) (r : Request) (a' b' : Db), n < m →
      es[m]? = some (k, .commit a' b') → requests[k]? = some r → ¬ r.Rekeys orgId

/-- What is asked of the store at the start: no organisation has two rows, and no two have one key. -/
structure Proper (s : Db) : Prop where
  single : Single s
  owner {o o' : Id} {hash : Sha256 String} : Holds s o hash → Holds s o' hash → o' = o

/-! ## What a commit does to the keys -/

theorem hasHash_inj {hash' : Sha256 String} {r : Setting} (h : hasHash hash r = true)
    (h' : hasHash hash' r = true) : hash' = hash := by
  rw [hasHash, beq_iff_eq] at h h'
  exact Option.some.inj (h'.symm.trans h)

theorem Single.of_live (h : Single a)
    (hb : ∀ o id r, LiveKey b o id r → ∃ r', LiveKey a o id r') : Single b := by
  intro o id id' r r' hr hr'
  obtain ⟨q, hq⟩ := hb o id r hr
  obtain ⟨q', hq'⟩ := hb o id' r' hr'
  exact h o id id' q q' hq hq'

theorem Removes.live (h : Removes orgId a b) {r : Setting} (hr : LiveKey b o id r) :
    LiveKey a o id r := by
  rcases h id with hid | ⟨r', -, hid⟩
  · exact ⟨hid ▸ hr.1, hr.2⟩
  · obtain rfl : r = { r' with deleted := true } := Option.some.inj (hr.1.symm.trans hid)
    exact absurd hr.2.1 (by simp)

theorem Touches.live (h : Touches orgId a b) {r : Setting} (hr : LiveKey b o id r) :
    ∃ r', LiveKey a o id r' := by
  obtain ⟨i, r0, payload, hr0, rfl⟩ := h
  have hg := hr.1
  rw [get_set] at hg
  split at hg
  · subst i
    cases hg
    exact ⟨r0, hr0.1, hr0.2.1, hr.2.2⟩
  · exact ⟨r, hg, hr.2⟩

/-- **One row** for each organisation. -/
theorem Single.does (ha : Single a) (hd : Does r l a b) (hi : requests[i]? = some r)
    (hk : InOrder requests s₀ es i a b) :
    Single b := by
  cases r with
  | rotateKey orgId =>
    obtain ⟨-, raw, -, id, r, rfl, hr, -, hbefore⟩ := hd
    -- No other row of the organisation is live.
    have hother : ∀ id' r', LiveKey (a.set .setting id r) orgId id' r' → id' = id := by
      intro id' r' hr'
      by_contra hne
      have hg := hr'.1
      rw [get_set, if_neg hne] at hg
      have hlive : LiveKey a orgId id' r' := ⟨hg, hr'.2⟩
      rcases hbefore with hnone | ⟨r0, hr0⟩
      · exact hk.created hi hnone (by simp) hlive
      · exact hne (ha orgId id' id r' r0 hlive hr0)
    intro o id1 id2 r1 r2 h1 h2
    by_cases ho : o = orgId
    · subst ho
      exact (hother id1 r1 h1).trans (hother id2 r2 h2).symm
    · have hold : ∀ {id' r'}, LiveKey (a.set .setting id r) o id' r' → LiveKey a o id' r' := by
        intro id' r' hr'
        have hg := hr'.1
        rw [get_set] at hg
        split at hg
        · subst id'
          cases hg
          exact absurd (hr.org hr') ho
        · exact ⟨hg, hr'.2⟩
      exact ha o id1 id2 r1 r2 (hold h1) (hold h2)
  | revokeKey orgId => exact ha.of_live fun o id r hr => ⟨r, hd.2.live hr⟩
  | touchLastUsedAt orgId =>
    rcases hd with rfl | ht
    · exact ha
    · exact ha.of_live fun o id r hr => ht.live hr
  | resolveOrgId rawKey | getStatus orgId =>
    cases hd
    exact ha

/-- **A key comes** with a rotation that has generated it. -/
theorem Does.comes (hd : Does r l a b) (hi : requests[i]? = some r)
    (hk : InOrder requests s₀ es i a b) (ha : ¬ Holds a o hash)
    (hb : Holds b o hash) : r = .rotateKey o ∧
      ∃ raw, l.getLast? = some (.emit (.generated raw)) ∧ hash = hashKey raw := by
  cases r with
  | rotateKey orgId =>
    obtain ⟨-, raw, hlast, id, r, rfl, hr, hhash, -⟩ := hd
    obtain ⟨id', r', hr', hh'⟩ := hb
    have hg := hr'.1
    rw [get_set] at hg
    split at hg
    · subst id'
      cases hg
      obtain rfl := hr.org hr'
      exact ⟨rfl, raw, hlast, hasHash_inj hhash hh'⟩
    · exact absurd ⟨id', r', ⟨hg, hr'.2⟩, hh'⟩ ha
  | revokeKey orgId =>
    obtain ⟨id, r, hr, hh⟩ := hb
    exact absurd ⟨id, r, hd.2.live hr, hh⟩ ha
  | touchLastUsedAt orgId => exact absurd ((hk.touched hi o hash).mp hb) ha
  | resolveOrgId rawKey | getStatus orgId =>
    cases hd
    exact absurd hb ha

/-- **A row comes to life** with a rotation. -/
theorem Does.creates {row : Setting} (hd : Does r l a b) (ha : ¬ ∃ row, LiveKey a o id row)
    (hb : LiveKey b o id row) : r = .rotateKey o := by
  cases r with
  | rotateKey orgId =>
    obtain ⟨-, raw, -, id', r, rfl, hr, -, -⟩ := hd
    have hg := hb.1
    rw [get_set] at hg
    split at hg
    · subst id'
      cases hg
      obtain rfl := hr.org hb
      rfl
    · exact absurd ⟨row, hg, hb.2⟩ ha
  | revokeKey orgId => exact absurd ⟨row, hd.2.live hb⟩ ha
  | touchLastUsedAt orgId =>
    rcases hd with rfl | ht
    · exact absurd ⟨row, hb⟩ ha
    · exact absurd (ht.live hb) ha
  | resolveOrgId rawKey | getStatus orgId =>
    cases hd
    exact absurd ⟨row, hb⟩ ha

/-- **A key goes** with a rotation or a revocation. -/
theorem Does.goes (hd : Does r l a b) (hi : requests[i]? = some r)
    (hk : InOrder requests s₀ es i a b) (ha : Holds a o hash)
    (hb : ¬ Holds b o hash) : r.Rekeys o := by
  obtain ⟨id, q, hq, hh⟩ := ha
  cases r with
  | rotateKey orgId =>
    obtain ⟨-, raw, -, id', r, rfl, -, -, hbefore⟩ := hd
    by_cases hid : id = id'
    · subst hid
      rcases hbefore with hnone | ⟨r0, hr0⟩
      · rw [hq.1] at hnone
        cases hnone
      · obtain rfl : q = r0 := Option.some.inj (hq.1.symm.trans hr0.1)
        exact hq.org hr0
    · refine absurd ⟨id, q, ⟨?_, hq.2⟩, hh⟩ hb
      rw [get_set, if_neg hid]
      exact hq.1
  | revokeKey orgId =>
    rcases hd.2 id with hid | ⟨r', hr', -⟩
    · exact absurd ⟨id, q, ⟨hid.trans hq.1, hq.2⟩, hh⟩ hb
    · obtain rfl : q = r' := Option.some.inj (hq.1.symm.trans hr'.1)
      exact hq.org hr'
  | touchLastUsedAt orgId => exact absurd ((hk.touched hi o hash).mpr ⟨id, q, hq, hh⟩) hb
  | resolveOrgId rawKey | getStatus orgId =>
    cases hd
    exact absurd ⟨id, q, hq, hh⟩ hb

/-! ## Requests that look for a key -/

/-- What `resolveOrgId` finds is the row of an organisation that has the key. -/
theorem holds_of_seen {x : Id × Setting}
    (hx : x ∈ seen (fun r => isApiKey r && hasHash hash r) s) : Holds s x.2.orgId hash := by
  obtain ⟨hr, hd, hp⟩ := mem_seen.mp hx
  rw [Bool.and_eq_true] at hp
  exact ⟨x.1, x.2, ⟨hr, hd, by simp [isApiKeyOf, hp.1]⟩, hp.2⟩

theorem Holds.seen (h : Holds s orgId hash) :
    ∃ x, x ∈ seen (fun r => isApiKey r && hasHash hash r) s := by
  obtain ⟨id, r, hr, hh⟩ := h
  have hk := hr.2.2
  rw [isApiKeyOf, Bool.and_eq_true] at hk
  exact ⟨(id, r), mem_seen.mpr ⟨hr.1, hr.2.1, by rw [hk.2, hh]; rfl⟩⟩

theorem under_resolve_none {rawKey : String} :
    Under (fun s => ∀ o, ¬ Holds s o (hashKey (trim rawKey))) (fun _ => True)
      (Request.run enabled (.resolveOrgId rawKey))
      fun x (_ : List Line) => ∀ o, x = .resolved o → o = none := by
  have hfind : Sees (fun s => ∀ o, ¬ Holds s o (hashKey (trim rawKey)))
      (fun o : Option (Id × Setting) => o = none)
      (findFirst fun r => isApiKey r && hasHash (hashKey (trim rawKey)) r) :=
    .pick fun n => .read fun s hA => by
      exact Option.eq_none_iff_forall_ne_some.mpr fun x hx =>
        hA x.2.orgId (holds_of_seen (List.mem_of_getElem? hx))
  have hresolve : Under (fun s => ∀ o, ¬ Holds s o (hashKey (trim rawKey))) (fun _ => True)
      (ApiKeys.resolveOrgId enabled rawKey) fun o (_ : List Line) => o = none := by
    unfold ApiKeys.resolveOrgId
    dsimp only
    split
    · exact .pure fun _ _ => rfl
    · refine .bind (.tx (Q := fun o _ => o = none) hfind fun _ _ _ _ _ ho => ho) fun o => ?_
      cases o with
      | none => exact .pure fun _ _ => rfl
      | some x => exact .fact fun hx => by cases hx
  exact .bind hresolve fun o => .pure fun _ ho _ he => by
    cases he
    exact ho

/-- The organisation has it, and no other. -/
theorem under_resolve_some {rawKey : String} (hkey : startsWithLms (trim rawKey) = true)
    (hon : enabled orgId = true) :
    Under (fun s => Holds s orgId (hashKey (trim rawKey)) ∧
        ∀ o, Holds s o (hashKey (trim rawKey)) → o = orgId) (fun _ => True)
      (Request.run enabled (.resolveOrgId rawKey))
      fun x (_ : List Line) => ∀ o, x = .resolved o → o = some orgId := by
  have hfind : Sees (fun s => Holds s orgId (hashKey (trim rawKey)) ∧
        ∀ o, Holds s o (hashKey (trim rawKey)) → o = orgId)
      (fun o : Option (Id × Setting) => ∃ x, o = some x ∧ x.2.orgId = orgId)
      (findFirst fun r => isApiKey r && hasHash (hashKey (trim rawKey)) r) :=
    .pick fun n => .read fun s hA => by
      obtain ⟨y, hy⟩ := hA.1.seen
      have hlt : n % (seen (fun r => isApiKey r && hasHash (hashKey (trim rawKey)) r) s).length <
          (seen (fun r => isApiKey r && hasHash (hashKey (trim rawKey)) r) s).length :=
        Nat.mod_lt _ (List.length_pos_of_mem hy)
      exact ⟨_, List.getElem?_eq_getElem hlt, hA.2 _ (holds_of_seen (List.getElem_mem hlt))⟩
  have hresolve : Under (fun s => Holds s orgId (hashKey (trim rawKey)) ∧
        ∀ o, Holds s o (hashKey (trim rawKey)) → o = orgId) (fun _ => True)
      (ApiKeys.resolveOrgId enabled rawKey) fun o (_ : List Line) => o = some orgId := by
    unfold ApiKeys.resolveOrgId
    dsimp only
    rw [hkey, if_neg (by simp)]
    refine .bind (.tx (Q := fun o _ => ∃ x, o = some x ∧ x.2.orgId = orgId) hfind
      fun _ _ _ _ _ ho => ho) fun o => ?_
    cases o with
    | none => exact .fact fun hx => by obtain ⟨x, hx, -⟩ := hx; cases hx
    | some x =>
      refine .fact fun hx => ?_
      obtain ⟨y, hy, horg⟩ := hx
      cases hy
      simp only
      rw [horg, hon, if_pos rfl]
      exact .bind (.fire (Q := fun _ _ => True) fun _ _ => trivial) fun _ => .pure fun _ _ => rfl
  exact .bind hresolve fun o => .pure fun _ ho _ he => by
    cases he
    exact ho

theorem startsWithLms_generateRawKey (bytes : ℕ) :
    startsWithLms (generateRawKey bytes) = true := by
  have hl : (generateRawKey bytes).toList = "lms_".toList ++ hexDigits bytes := String.toList_ofList
  rw [startsWithLms, hl, List.isPrefixOf_iff_prefix]
  exact List.prefix_append _ _

/-! ## The statement of a revocation -/

/-- The protocol of a session that finds these rows live until it commits, and leaves none of them. -/
def catching (orgId : Id) (T : Id → Prop) : Protocol Db Err Mark Answer anything where
  cond h s := h = [] ∨ (∃ x y, Entry.commit x y ∈ h) ∨ ∀ id, T id → ∃ r, LiveKey s orgId id r
  keeps h _ := ∀ x y, Entry.commit x y ∈ h → ∀ id r, T id → ¬ LiveKey y orgId id r
  keeps_stable _ hk := hk

theorem catching_snoc {T : Id → Prop} {e : Line} (he : ∀ x y, e ≠ .commit x y)
    (hk : (catching orgId T).keeps h s) : (catching orgId T).keeps (h ++ [e]) s := by
  intro x y hm
  rcases mem_snoc.mp hm with hm | hm
  · exact hk x y hm
  · exact absurd hm.symm (he x y)

/-- **A revocation removes the rows it finds.** -/
theorem safe_revokeKey (T : Id → Prop) :
    Safe (catching orgId T) (Request.run enabled (.revokeKey orgId)) s₀ := by
  have hstart : (catching orgId T).keeps [.start] s₀ := fun x y hm => by simp at hm
  have hroll : ∀ e, (catching orgId T).keeps [.start, .rollback e] s₀ := fun e x y hm => by simp at hm
  refine ⟨fun x y hm => by simp at hm, fun s1 _ _ => ⟨hstart, ?_⟩⟩
  refine Call.wp_bind (Call.wp_bind (Call.wp_withTx fun s2 _ _ => ⟨?_, fun e _ s3 _ _ =>
    ⟨hroll e, fun _ _ => catching_snoc (fun _ _ h => by cases h) (hroll e)⟩⟩))
  refine Tx.wp_modifyAll (fun r => by simp [Keyed.keys, uniqueKeys])
    (fun s3 _ s4 _ _ => ⟨hroll _, fun _ _ => catching_snoc (fun _ _ h => by cases h) (hroll _)⟩)
    fun s3 ws hA hw s4 hst _ => ?_
  have hlive : ∀ id, T id → ∃ r, LiveKey s3 orgId id r := by
    rcases hA with hA | ⟨x, y, hm⟩ | hA
    · cases hA
    · simp at hm
    · exact hA
  have hgone : ∀ id r, T id → ¬ LiveKey (view ws s4) orgId id r := by
    intro id r hT hr
    obtain ⟨q, hq⟩ := hlive id hT
    have hmem := ((hw s4 hst).mem (Rel.mem_rows.mpr ⟨hq.1, by simp [hq.2.1, hq.2.2]⟩)).2
    obtain rfl := Option.some.inj (hr.1.symm.trans hmem)
    exact absurd hr.2.1 (by simp)
  have hk : (catching orgId T).keeps [.start, .commit s4 (view ws s4)] s₀ := by
    intro x y hm
    simp only [List.mem_cons, Entry.commit.injEq, List.not_mem_nil, or_false, reduceCtorEq,
      false_or] at hm
    rw [hm.2]
    exact hgone
  exact ⟨trivial, hk, fun _ _ => catching_snoc (fun _ _ h => by cases h) hk⟩

/-! ## Runs -/

/-- **The run condition.** -/
def Careful (requests : List Request) (s₀ : Db) (c : Run) (i : ℕ) : Prop :=
  c.AtCommit (InOrder requests s₀ c.trace i) i ∧ Latest requests c.trace i

/-- Session `k` commits at position `n`, a rotation that has generated this key. -/
def Generates (requests : List Request) (es : List (ℕ × Line)) (n k : ℕ) (orgId : Id)
    (raw : String) : Prop :=
  requests[k]? = some (.rotateKey orgId) ∧ (∃ a b, es[n]? = some (k, .commit a b)) ∧
    (linesOf k (es.take n)).getLast? = some (.emit (.generated raw))

section Runs

variable {c : Run} (h : Reach (Careful requests s₀) (start enabled s₀ requests) c) {j k m n p q : ℕ}
  {raw rawKey : String} {o : Id} {key : RotatedKey} {x : Answer}

include h

theorem inOrder_at {i : ℕ} (hp : c.trace[p]? = some (i, .commit a b)) :
    InOrder requests s₀ (c.trace.take p) i a b :=
  reach_atCommit (K := InOrder requests s₀) (fun _ _ hP => hP.1) h hp

theorem commits_once {r : Request} {a' b' : Db} (hk : requests[k]? = some r) (hr : r.Rekeys orgId)
    (hn : c.trace[n]? = some (k, .commit a b))
    (hm : c.trace[m]? = some (k, .commit a' b')) : n = m := by
  have hzero : ∀ {n a b}, c.trace[n]? = some (k, .commit a b) →
      commits (linesOf k (c.trace.take n)) = 0 := by
    intro n a b hn
    obtain ⟨r', hr', -, hd⟩ := (served h).commit hn
    obtain rfl : r' = r := Option.some.inj (hr'.symm.trans hk)
    cases r' with
    | rotateKey | revokeKey => exact hd.1
    | _ => exact hr.elim
  rcases Nat.lt_trichotomy n m with hlt | heq | hlt
  · have := commits_lt_of_commit hn hlt
    have := hzero hm
    omega
  · exact heq
  · have := commits_lt_of_commit hm hlt
    have := hzero hn
    omega

theorem Generates.fresh (hg : Generates requests c.trace n k orgId raw)
    (o : Id) : ¬ Holds s₀ o (hashKey raw) := by
  obtain ⟨hk, ⟨a, b, hn⟩, hlast⟩ := hg
  exact ((inOrder_at h hn).fresh hk hlast).1 o

theorem Generates.unique {n' k' : ℕ} {o' : Id} (hg : Generates requests c.trace n k o raw)
    (hg' : Generates requests c.trace n' k' o' raw) :
    k = k' ∧ n = n' := by
  obtain ⟨hk, ⟨a, b, hn⟩, hlast⟩ := hg
  obtain ⟨hk', ⟨a', b', hn'⟩, hlast'⟩ := hg'
  have hsession : k = k' := by
    have hmem := mem_linesOf.mp (List.mem_of_getLast? hlast)
    have hmem' := mem_linesOf.mp (List.mem_of_getLast? hlast')
    rcases Nat.le_total n n' with hle | hle
    · exact ((inOrder_at h hn').fresh hk' hlast').2 k ((List.take_subset_take_left _ hle) hmem)
    · exact (((inOrder_at h hn).fresh hk hlast).2 k' ((List.take_subset_take_left _ hle) hmem')).symm
  subst hsession
  exact ⟨rfl, commits_once h hk (show Request.Rekeys o _ from rfl) hn hn'⟩

theorem exists_generates (hj : requests[j]? = some (.rotateKey orgId))
    (hp : c.trace[p]? = some (j, .answer (.ok (.rotated key)))) :
    enabled orgId = true ∧ (∃ bytes, key.apiKey = generateRawKey bytes) ∧
      ∃ n, n < p ∧ Generates requests c.trace n j orgId key.apiKey := by
  obtain ⟨r, hr, hans⟩ := (served h).answer hp
  obtain rfl : r = .rotateKey orgId := Option.some.inj (hr.symm.trans hj)
  obtain ⟨hon, hkey, h1, a, b, hlines, hlast⟩ := hans
  obtain ⟨n, hlt, hn, htake⟩ := exists_take_of_linesOf hlines
  exact ⟨hon, hkey, n, hlt, hj, ⟨a, b, hn⟩, by rw [htake]; exact hlast⟩

omit h in
/-- The trace up to a configuration that the run has reached leads to its store. -/
theorem linear_take {d : Run} {P : Run → ℕ → Prop} (hd : Reach P (start enabled s₀ requests) d)
    (hn : d.trace = c.trace.take n) :
    Linear s₀ (c.trace.take n) d.db := hn ▸ reach_linear hd

/-- **Where a key comes from**: it was there, or has been generated for its organisation. -/
theorem origin (hl : Linear s₀ (c.trace.take n) s)
    (hs : Holds s o (hashKey raw)) : Holds s₀ o (hashKey raw) ∨
      ∃ m k, m < n ∧ Generates requests c.trace m k o raw := by
  by_cases h0 : Holds s₀ o (hashKey raw)
  · exact Or.inl h0
  · obtain ⟨m, k, a, b, hm, ha, hb⟩ := hl.changes (F := fun s => Holds s o (hashKey raw)) h0 hs
    obtain ⟨hlen, -⟩ := List.getElem?_eq_some_iff.mp hm
    rw [List.length_take] at hlen
    rw [List.getElem?_take_of_lt (by omega)] at hm
    obtain ⟨r, hr, -, hd⟩ := (served h).commit hm
    obtain ⟨rfl, raw', hlast, hhash⟩ := hd.comes hr (inOrder_at h hm) ha hb
    cases hhash
    exact Or.inr ⟨m, k, by omega, hr, ⟨a, b, hm⟩, hlast⟩

/-- The same, of a key that a commit has left without. -/
theorem origin_after {i : ℕ} (hl : Linear s₀ (c.trace.take n) s) (hpn : p < n)
    (hp : c.trace[p]? = some (i, .commit a b)) (hb : ¬ Holds b o (hashKey raw))
    (hs : Holds s o (hashKey raw)) :
    ∃ m k, p < m ∧ m < n ∧ Generates requests c.trace m k o raw := by
  have hp' : (c.trace.take n)[p]? = some (i, .commit a b) := by rwa [List.getElem?_take_of_lt hpn]
  obtain ⟨m, k, x, y, hpm, hm, hx, hy⟩ :=
    hl.changes_after (F := fun s => Holds s o (hashKey raw)) hp' hb hs
  obtain ⟨hlen, -⟩ := List.getElem?_eq_some_iff.mp hm
  rw [List.length_take] at hlen
  rw [List.getElem?_take_of_lt (by omega)] at hm
  obtain ⟨r, hr, -, hd⟩ := (served h).commit hm
  obtain ⟨rfl, raw', hlast, hhash⟩ := hd.comes hr (inOrder_at h hm) hx hy
  cases hhash
  exact ⟨m, k, hpm, by omega, hr, ⟨x, y, hm⟩, hlast⟩

/-- **A key issued before** is only ever its organisation's, and generated before, by another. -/
theorem issued_generates (hi : IssuedBefore requests s₀ c.trace orgId raw j p)
    (hg : Generates requests c.trace m k o raw) : k ≠ j ∧ o = orgId ∧ ∃ n, m < n ∧ n < p ∧
      ∃ key, c.trace[n]? = some (k, .answer (.ok (.rotated key))) := by
  rcases hi with h0 | ⟨i, n, key, hij, hi, hn, rfl, hnp⟩
  · exact absurd h0 (hg.fresh h orgId)
  · obtain ⟨-, -, n', hlt, hg'⟩ := exists_generates h hi hn
    obtain ⟨rfl, rfl⟩ := hg.unique h hg'
    have ho := hg.1.symm.trans hi
    cases ho
    exact ⟨hij, rfl, n, hlt, hnp, key, hn⟩

theorem issued_owner (hw : Proper s₀) (hl : Linear s₀ (c.trace.take n) s)
    (hi : IssuedBefore requests s₀ c.trace orgId raw j p)
    (hs : Holds s o (hashKey raw)) : o = orgId := by
  rcases origin h hl hs with h0 | ⟨m, k, -, hg⟩
  · rcases hi with h1 | ⟨i, n', key, hij, hi, hn, rfl, hnp⟩
    · exact hw.owner h1 h0
    · obtain ⟨-, -, n'', -, hg⟩ := exists_generates h hi hn
      exact absurd h0 (hg.fresh h o)
  · exact (issued_generates h hi hg).2.1

omit h in
theorem lt_of_begun (hnil : linesOf m (c.trace.take p) = [])
    (hn : linesOf m (c.trace.take n) ≠ []) : p < n := by
  by_contra hle
  obtain ⟨e, he⟩ := List.exists_mem_of_ne_nil _ hn
  have hm := mem_linesOf.mpr (List.take_subset_take_left _ (Nat.le_of_not_lt hle)
    (mem_linesOf.mp he))
  rw [hnil] at hm
  cases hm

/-- **A key that is gone stays away**, unless it is generated again. -/
theorem rejected (hw : Proper s₀) {v : ℕ} {o : Option Id}
    (hi : IssuedBefore requests s₀ c.trace orgId (trim rawKey) j p)
    (hv : c.trace[v]? = some (k, .commit a b)) (hvp : v < p)
    (hb : ¬ Holds b orgId (hashKey (trim rawKey)))
    (hno : ∀ n k', v < n → ¬ Generates requests c.trace n k' orgId (trim rawKey))
    (hm : requests[m]? = some (.resolveOrgId rawKey)) (hnil : linesOf m (c.trace.take p) = [])
    (hq : c.trace[q]? = some (m, .answer (.ok (.resolved o)))) : o = none := by
  have hcall : (requests.map (Request.run enabled))[m]? =
      some (Request.run enabled (.resolveOrgId rawKey)) := by simp [hm]
  refine reach_under hcall under_resolve_none h (fun d n hd hn hbegun o ho => ?_) hq o rfl
  have hl : Linear s₀ (c.trace.take n) d.db := linear_take hd hn
  obtain rfl := issued_owner h hw hl hi ho
  have hpn := lt_of_begun hnil hbegun
  obtain ⟨n', k', hlt, -, hg⟩ := origin_after h hl (by omega) hv hb ho
  exact hno n' k' hlt hg

theorem single_commit (hw : Proper s₀) (hn : c.trace[n]? = some (k, .commit a b)) :
    Single b := by
  have hstep : ∀ {n k : ℕ} {a b : Db}, c.trace[n]? = some (k, .commit a b) → Single a →
      Single b := by
    intro n k a b hn ha
    obtain ⟨r, hr, -, hd⟩ := (served h).commit hn
    exact ha.does hd hr (inOrder_at h hn)
  refine hstep hn (((served h).linear.before hn).carry (F := Single) (fun i x y hc hx => ?_) hw.single)
  obtain ⟨m, hm⟩ := List.getElem?_of_mem (List.mem_of_mem_take hc)
  exact hstep hm hx

theorem Generates.only (hw : Proper s₀)
    (hg : Generates requests c.trace n k orgId raw) : ∃ a b, c.trace[n]? = some (k, .commit a b) ∧
      Holds b orgId (hashKey raw) ∧ ∀ hash, Holds b orgId hash → hash = hashKey raw := by
  obtain ⟨hk, ⟨a, b, hn⟩, hlast⟩ := hg
  obtain ⟨r, hr, -, hd⟩ := (served h).commit hn
  obtain rfl : r = .rotateKey orgId := Option.some.inj (hr.symm.trans hk)
  obtain ⟨-, raw', hlast', id, row, -, hrow, hhash, -⟩ := hd
  cases hlast.symm.trans hlast'
  refine ⟨a, b, hn, ⟨id, row, hrow, hhash⟩, fun hash ho => ?_⟩
  obtain ⟨id', row', hrow', hhash'⟩ := ho
  obtain rfl := single_commit h hw hn orgId id id' row row' hrow hrow'
  obtain rfl : row = row' := Option.some.inj (hrow.1.symm.trans hrow'.1)
  exact hasHash_inj hhash hhash'

/-- Between the commit of a rotation and its answer no other commits. -/
theorem latest_at {n' : ℕ} {r : Request} {a' b' : Db} (hj : requests[j]? = some (.rotateKey orgId))
    (hp : c.trace[p]? = some (j, .answer (.ok x))) (hn : c.trace[n]? = some (j, .commit a b))
    (hlt : n < n') (hlt' : n' < p) (hn' : c.trace[n']? = some (k, .commit a' b'))
    (hk : requests[k]? = some r) :
    ¬ r.Rekeys orgId := by
  obtain ⟨d, -, -, -, hP, -, ht, -⟩ := reach_at h hp
  have hl := hP.2
  rw [ht] at hl
  exact hl orgId n a b hj (by rwa [List.getElem?_take_of_lt (by omega)]) n' k r a' b' hlt
    (by rwa [List.getElem?_take_of_lt hlt']) hk

theorem final_replaced (hw : Proper s₀) {o : Option Id}
    (hj : requests[j]? = some (.rotateKey orgId))
    (hp : c.trace[p]? = some (j, .answer (.ok (.rotated key))))
    (hi : IssuedBefore requests s₀ c.trace orgId (trim rawKey) j p)
    (hm : requests[m]? = some (.resolveOrgId rawKey)) (hnil : linesOf m (c.trace.take p) = [])
    (hq : c.trace[q]? = some (m, .answer (.ok (.resolved o)))) : o = none := by
  obtain ⟨-, -, v, hvp, hg⟩ := exists_generates h hj hp
  obtain ⟨a, b, hv, -, honly⟩ := hg.only h hw
  refine rejected h hw hi hv hvp (fun hb => ?_) (fun n k hlt hgen => ?_) hm hnil hq
  · have he : trim rawKey = key.apiKey := congrArg Sha256.preimage (honly _ hb)
    rw [← he] at hg
    exact (issued_generates h hi hg).1 rfl
  · obtain ⟨-, -, n', hnn', hnp, -⟩ := issued_generates h hi hgen
    obtain ⟨hk, ⟨a', b', hn⟩, -⟩ := hgen
    exact latest_at h hj hp hv hlt (by omega) hn hk rfl

theorem final_accepted (hw : Proper s₀) {o : Option Id}
    (hj : requests[j]? = some (.rotateKey orgId))
    (hp : c.trace[p]? = some (j, .answer (.ok (.rotated key)))) (hkey : trim rawKey = key.apiKey)
    (hm : requests[m]? = some (.resolveOrgId rawKey)) (hnil : linesOf m (c.trace.take p) = [])
    (hq : c.trace[q]? = some (m, .answer (.ok (.resolved o))))
    (halone : ∀ k n r e, k ≠ j → requests[k]? = some r → r.Rekeys orgId → p < n → n < q →
      c.trace[n]? ≠ some (k, e)) : o = some orgId := by
  obtain ⟨hon, ⟨bytes, hbytes⟩, v, hvp, hg⟩ := exists_generates h hj hp
  rw [← hkey] at hg hbytes
  obtain ⟨a, b, hv, hb, -⟩ := hg.only h hw
  have hlms : startsWithLms (trim rawKey) = true := by
    rw [hbytes]
    exact startsWithLms_generateRawKey bytes
  have hcall : (requests.map (Request.run enabled))[m]? =
      some (Request.run enabled (.resolveOrgId rawKey)) := by simp [hm]
  -- The run up to the answer.
  obtain ⟨d, d', mv, hd, hP, hs, ht, ht'⟩ := reach_at h hq
  have hd' : Reach (Careful requests s₀) (start enabled s₀ requests) d' := hd.tail hP hs
  have htake : d'.trace = c.trace.take (q + 1) := by
    rw [ht', ht]
    obtain ⟨hlen, hget⟩ := List.getElem?_eq_some_iff.mp hq
    rw [List.take_add_one, hq]
    rfl
  have hq' : d'.trace[q]? = some (m, .answer (.ok (.resolved o))) := by
    rw [htake, List.getElem?_take_of_lt (by omega)]
    exact hq
  refine reach_under hcall (under_resolve_some hlms hon) hd' (fun e n he hn hbegun => ?_) hq' o rfl
  rw [htake, List.take_take] at hn hbegun
  have hl : Linear s₀ (c.trace.take (min n (q + 1))) e.db := linear_take he hn
  have hpn := lt_of_begun hnil hbegun
  have hold : Holds e.db orgId (hashKey (trim rawKey)) := by
    by_contra hgone
    have hv' : (c.trace.take (min n (q + 1)))[v]? = some (j, .commit a b) := by
      rwa [List.getElem?_take_of_lt (by omega)]
    obtain ⟨n', k, x, y, hvn', hn', hx, hy⟩ := hl.changes_after
      (F := fun s => ¬ Holds s orgId (hashKey (trim rawKey))) hv' (fun hnot => hnot hb) hgone
    obtain ⟨hlen, -⟩ := List.getElem?_eq_some_iff.mp hn'
    rw [List.length_take] at hlen
    rw [List.getElem?_take_of_lt (by omega)] at hn'
    obtain ⟨r, hr, -, hdoes⟩ := (served h).commit hn'
    have hre : r.Rekeys orgId := hdoes.goes hr (inOrder_at h hn') (not_not.mp hx) hy
    have hkj : k ≠ j := by
      rintro rfl
      obtain rfl : r = .rotateKey orgId := Option.some.inj (hr.symm.trans hj)
      have := commits_once h hj rfl hv hn'
      omega
    rcases Nat.lt_trichotomy n' p with hlt | rfl | hlt
    · exact latest_at h hj hp hv hvn' hlt hn' hr hre
    · rw [hp] at hn'
      cases hn'
    · refine halone k n' r _ hkj hr hre hlt ?_ hn'
      rcases Nat.lt_or_ge n' q with hlt' | hge
      · exact hlt'
      · obtain rfl : n' = q := by omega
        rw [hq] at hn'
        cases hn'
  refine ⟨hold, fun o' ho' => ?_⟩
  rcases origin h hl ho' with h0 | ⟨n', k, -, hg'⟩
  · exact absurd h0 (hg.fresh h o')
  · obtain ⟨rfl, rfl⟩ := hg.unique h hg'
    cases hg.1.symm.trans hg'.1
    rfl

/-- **A revocation that no rotation overlaps** leaves the organisation without a key. -/
theorem revokes_all (hk : requests[k]? = some (.revokeKey orgId))
    (hp : c.trace[p]? = some (k, .answer (.ok x)))
    (hno : ∀ j n e, requests[j]? = some (.rotateKey orgId) → c.trace[n]? = some (j, e) → n < p →
      linesOf k (c.trace.take n) = []) :
    ∃ v a b, v < p ∧ c.trace[v]? = some (k, .commit a b) ∧ ∀ hash, ¬ Holds b orgId hash := by
  obtain ⟨r, hr, hans⟩ := (served h).answer hp
  obtain rfl : r = .revokeKey orgId := Option.some.inj (hr.symm.trans hk)
  have hone : commits (linesOf k (c.trace.take p)) = 1 := hans
  obtain ⟨v, a, b, hvp, hv, -⟩ := exists_commit_take (k := 0) (by rw [hone]; omega)
  obtain ⟨r, hr, -, hd⟩ := (served h).commit hv
  obtain rfl : r = .revokeKey orgId := Option.some.inj (hr.symm.trans hk)
  -- The run up to the commit; the rows that are live when it is made, its statement has found.
  obtain ⟨d, d', mv, hreach, hP, hs, ht, ht'⟩ := reach_at h hv
  have hd' : Reach (Careful requests s₀) (start enabled s₀ requests) d' := hreach.tail hP hs
  have hcall : (requests.map (Request.run enabled))[k]? =
      some (Request.run enabled (.revokeKey orgId)) := by simp [hk]
  have hlast : d'.trace = c.trace.take v ++ [(k, .commit a b)] := by rw [ht', ht]
  have hlen : (c.trace.take v).length = v := by
    rw [List.length_take]
    have := (List.getElem?_eq_some_iff.mp hv).1
    omega
  have hkeeps := reach_finds (p := catching orgId fun id => ∃ r, LiveKey a orgId id r) hcall
    (safe_revokeKey _) hd' fun e n he hn => by
      by_cases hbegun : linesOf k (d'.trace.take n) = []
      · exact Or.inl hbegun
      refine Or.inr ?_
      rcases Nat.lt_or_ge v n with hvn | hnv
      · refine Or.inl ⟨a, b, mem_linesOf.mpr ?_⟩
        rw [hlast, List.take_of_length_le (by simp [hlen]; omega)]
        simp
      · refine Or.inr fun id hT => ?_
        rw [hlast, List.take_append_of_le_length (by omega), List.take_take,
          Nat.min_eq_left hnv] at hn hbegun
        by_contra hdead
        have hl : Linear s₀ ((c.trace.take v).take n) e.db := by
          rw [List.take_take, Nat.min_eq_left hnv]
          exact linear_take he hn
        obtain ⟨n', j, x', y', hnn', hn', hx, hy⟩ := ((served h).linear.before hv).changes_since
          (F := fun s => ∃ r, LiveKey s orgId id r) hl hdead hT
        obtain ⟨hlt, -⟩ := List.getElem?_eq_some_iff.mp hn'
        rw [hlen] at hlt
        rw [List.getElem?_take_of_lt hlt] at hn'
        obtain ⟨r, hr, -, hdoes⟩ := (served h).commit hn'
        obtain ⟨row, hrow⟩ := hy
        cases hdoes.creates hx hrow
        have := lt_of_begun (hno j n' _ hr hn' (by omega)) hbegun
        omega
  refine ⟨v, a, b, hvp, hv, fun hash ho => ?_⟩
  obtain ⟨id, row, hrow, -⟩ := ho
  have hmem : Entry.commit a b ∈ linesOf k d'.trace := mem_linesOf.mpr (by rw [hlast]; simp)
  exact hkeeps a b hmem id row ⟨row, hd.2.live hrow⟩ hrow

theorem final_revoked (hw : Proper s₀) {o : Option Id} (hk : requests[k]? = some (.revokeKey orgId))
    (hp : c.trace[p]? = some (k, .answer (.ok x)))
    (hno : ∀ j n e, requests[j]? = some (.rotateKey orgId) → c.trace[n]? = some (j, e) → n < p →
      linesOf k (c.trace.take n) = [])
    (hi : IssuedBefore requests s₀ c.trace orgId (trim rawKey) k p)
    (hm : requests[m]? = some (.resolveOrgId rawKey)) (hnil : linesOf m (c.trace.take p) = [])
    (hq : c.trace[q]? = some (m, .answer (.ok (.resolved o)))) : o = none := by
  obtain ⟨v, a, b, hvp, hv, hb⟩ := revokes_all h hk hp hno
  refine rejected h hw hi hv hvp (hb _) (fun n j hlt hgen => ?_) hm hnil hq
  obtain ⟨-, -, n', hnn', hnp, -⟩ := issued_generates h hi hgen
  obtain ⟨hj, ⟨a', b', hn⟩, -⟩ := hgen
  have hmem := mem_linesOf_take hv hlt
  rw [hno j n _ hj hn (by omega)] at hmem
  cases hmem

end Runs

/-- **Rotation and revocation are final** in every careful run. -/
theorem keys_final {c : Run} (hw : Proper s₀)
    (h : Reach (Careful requests s₀) (start enabled s₀ requests) c) : Final requests s₀ c where
  replaced hj hp hi hm hnil hq := final_replaced h hw hj hp hi hm hnil hq
  accepted hj hp hkey hm hnil hq halone := final_accepted h hw hj hp hkey hm hnil hq halone
  revoked hk hp hno hi hm hnil hq := final_revoked h hw hk hp hno hi hm hnil hq

/-! ## Runs on an empty store -/

def emptyStore : Db where
  tables
    | .setting => ∅
  log := []

theorem not_holds_emptyStore (o : Id) (hash : Sha256 String) : ¬ Holds emptyStore o hash := by
  rintro ⟨id, r, hr, -⟩
  cases hr.1

theorem proper_emptyStore : Proper emptyStore where
  single o id id' r r' hr _ := by cases hr.1
  owner h _ := absurd h (not_holds_emptyStore _ _)

/-- The successful answer of request `i` at position `p`. -/
def answerAt (c : Run) (p i : ℕ) : Option Answer :=
  match c.trace[p]? with
  | some (j, .answer (.ok x)) => if j = i then some x else none
  | _ => none

theorem getElem?_of_answerAt {c : Run} {p : ℕ} {x : Answer} (h : answerAt c p i = some x) :
    c.trace[p]? = some (i, .answer (.ok x)) := by
  unfold answerAt at h
  split at h
  · split at h
    · rename_i hp hj
      cases h
      rw [hp, hj]
    · cases h
  · cases h

/-- An update of the last use begins only after a key has been accepted. -/
def Spawned (requests : List Request) (c : Run) (i : ℕ) : Prop :=
  ∀ orgId, requests[i]? = some (.touchLastUsedAt orgId) → linesOf i c.trace = [] →
    ∃ j, (j, Entry.emit (.touches orgId)) ∈ c.trace

/-- The line starts an update of the last use. -/
def touching (orgId : Id) : ℕ × Line → Bool
  | (_, .emit (.touches o)) => o == orgId
  | _ => false

def spawned (requests : List Request) (c : Run) (i : ℕ) : Bool :=
  match requests[i]? with
  | some (.touchLastUsedAt orgId) => !(linesOf i c.trace).isEmpty || c.trace.any (touching orgId)
  | _ => true

theorem spawned_of {c : Run} (h : spawned requests c i = true) : Spawned requests c i := by
  intro orgId hi hnil
  rw [spawned, hi, hnil] at h
  obtain ⟨e, he, ht⟩ := List.any_eq_true.mp (show c.trace.any (touching orgId) = true from h)
  obtain ⟨j, e⟩ := e
  unfold touching at ht
  split at ht
  · rename_i heq
    cases heq
    exact ⟨j, by rwa [beq_iff_eq.mp ht] at he⟩
  · cases ht

/-- The last use of the first key is stored after the second rotation. -/
def staleTouch : List Request :=
  [.rotateKey 1, .resolveOrgId (generateRawKey 1), .touchLastUsedAt 1, .rotateKey 1,
    .resolveOrgId (generateRawKey 1)]

/-- **A key comes back**: the first key is accepted again once the second rotation has returned. -/
theorem exists_key_back : ∃ c : Run, Reach (Spawned staleTouch)
    (start (fun _ => true) emptyStore staleTouch) c ∧ Proper emptyStore ∧
      ¬ Final staleTouch emptyStore c := by
  obtain ⟨c, hc, hp⟩ := exists_reach (o := spawned staleTouch) (fun _ _ => spawned_of)
    (start (fun _ => true) emptyStore staleTouch)
    (turns 0 11 1 ++ turns 1 7 0 ++ turns 2 6 0 ++ turns 3 10 2 ++ turns 2 6 0 ++ turns 4 7 0)
    (fun c => answerAt c 3 0 == some (.rotated ⟨generateRawKey 1, "lms_00000000", 1⟩) &&
      answerAt c 13 3 == some (.rotated ⟨generateRawKey 2, "lms_00000000", 2⟩) &&
      answerAt c 19 4 == some (.resolved (some 1)) && (linesOf 4 (c.trace.take 13)).isEmpty &&
      trim (generateRawKey 1) == generateRawKey 1)
    (by decide +kernel)
  simp only [Bool.and_eq_true, beq_iff_eq, List.isEmpty_iff] at hp
  obtain ⟨⟨⟨⟨h0, h3⟩, h4⟩, hnil⟩, htrim⟩ := hp
  refine ⟨c, hc, proper_emptyStore, fun hf => ?_⟩
  have hissued : IssuedBefore staleTouch emptyStore c.trace 1 (trim (generateRawKey 1)) 3 13 :=
    Or.inr ⟨0, 3, _, by decide, rfl, getElem?_of_answerAt h0, htrim.symm, by decide⟩
  have hnone := hf.replaced (j := 3) (m := 4) rfl (getElem?_of_answerAt h3) hissued rfl hnil
    (getElem?_of_answerAt h4)
  cases hnone

def keysOf (s : Db) : List (Id × Sha256 String) :=
  (seen isApiKey s).filterMap fun x => x.2.value.map fun v => (x.2.orgId, v.hash)

theorem holds_iff :
    Holds s o hash ↔ (o, hash) ∈ keysOf s := by
  unfold keysOf
  rw [List.mem_filterMap]
  constructor
  · rintro ⟨id, r, ⟨hr, hd, hk⟩, hh⟩
    rw [isApiKeyOf, Bool.and_eq_true, beq_iff_eq] at hk
    refine ⟨(id, r), mem_seen.mpr ⟨hr, hd, hk.2⟩, ?_⟩
    rw [hasHash, beq_iff_eq, Option.map_eq_some_iff] at hh
    obtain ⟨v, hv, rfl⟩ := hh
    simp [hv, hk.1]
  · rintro ⟨⟨id, r⟩, hx, hv⟩
    obtain ⟨hr, hd, hk⟩ := mem_seen.mp hx
    obtain ⟨v, hv', he⟩ := Option.map_eq_some_iff.mp hv
    cases he
    have hvalue : r.value = some v := hv'
    exact ⟨id, r, ⟨hr, hd, by simp [isApiKeyOf, hk]⟩, by simp [hasHash, hvalue]⟩

def settingRows (s : Db) : List (Id × Setting) := s.rows .setting fun _ _ => true

def generatedBy (i : ℕ) (raw : String) : ℕ × Line → Bool
  | (j, .emit (.generated raw')) => raw' == raw && j != i
  | _ => false

/-- The condition on a commit, computed. -/
def inOrder (requests : List Request) (s₀ : Db) (es : List (ℕ × Line)) (i : ℕ) (a b : Db) : Bool :=
  match requests[i]? with
  | some (.touchLastUsedAt _) => keysOf b == keysOf a
  | some (.rotateKey orgId) =>
    ((settingRows b).all fun x => (a.get .setting x.1).isSome || (seen (isApiKeyOf orgId) a).isEmpty) &&
      match (linesOf i es).getLast? with
      | some (.emit (.generated raw)) => ((keysOf s₀).all fun x => x.2 != hashKey raw) &&
          !es.any (generatedBy i raw)
      | _ => true
  | _ => true

theorem inOrder_of (h : inOrder requests s₀ es i a b = true) :
    InOrder requests s₀ es i a b where
  touched hi o hash := by
    simp only [inOrder, hi, beq_iff_eq] at h
    rw [holds_iff, holds_iff, h]
  created {orgId id id' r'} hi ha hb hlive := by
    simp only [inOrder, hi, Bool.and_eq_true] at h
    obtain ⟨row, hrow⟩ := Option.ne_none_iff_exists'.mp hb
    have hx := List.all_eq_true.mp h.1 (id, row) (Rel.mem_rows.mpr ⟨hrow, rfl⟩)
    simp only [ha, Option.isSome_none, Bool.false_or, List.isEmpty_iff] at hx
    have hmem := mem_seen_apiKey.mpr hlive
    rw [hx] at hmem
    cases hmem
  fresh {orgId raw} hi hlast := by
    simp only [inOrder, hi, hlast, Bool.and_eq_true, Bool.not_eq_true'] at h
    refine ⟨fun o ho => ?_, fun j hj => ?_⟩
    · have hx := List.all_eq_true.mp h.2.1 _ (holds_iff.mp ho)
      simp at hx
    · by_contra hne
      have hany := List.any_eq_false.mp h.2.2 _ hj
      simp [generatedBy, hne] at hany

/-- The line is a commit of a rotation or revocation of the organisation. -/
def rekeys (requests : List Request) (orgId : Id) : ℕ × Line → Bool
  | (k, .commit _ _) => match requests[k]? with
    | some (.rotateKey o) | some (.revokeKey o) => o == orgId
    | _ => false
  | _ => false

def commitOf (i : ℕ) : ℕ × Line → Bool
  | (j, .commit _ _) => j == i
  | _ => false

/-- The condition on an answer, computed. -/
def latest (requests : List Request) (es : List (ℕ × Line)) (i : ℕ) : Bool :=
  match requests[i]? with
  | some (.rotateKey orgId) => (List.range es.length).all fun n =>
    !es[n]?.any (commitOf i) || !(es.drop (n + 1)).any (rekeys requests orgId)
  | _ => true

theorem latest_of (h : latest requests es i = true) :
    Latest requests es i := by
  intro orgId n a b hi hn m k r a' b' hlt hm hk hr
  simp only [latest, hi] at h
  have hx := List.all_eq_true.mp h n (List.mem_range.mpr (List.getElem?_eq_some_iff.mp hn).1)
  have hmem : (k, Entry.commit a' b') ∈ es.drop (n + 1) := by
    refine List.mem_of_getElem? (i := m - (n + 1)) ?_
    rw [List.getElem?_drop, ← hm]
    congr 1
    omega
  have hrekeys : rekeys requests orgId (k, Entry.commit a' b') = true := by
    cases r with
    | rotateKey o | revokeKey o =>
      obtain rfl := hr
      simp [rekeys, hk]
    | _ => exact hr.elim
  rw [hn, Option.any_some, List.any_eq_true.mpr ⟨_, hmem, hrekeys⟩] at hx
  simp [commitOf] at hx

/-- Two rotations, a last use in between, and a revocation. -/
def inTurn : List Request :=
  [.rotateKey 1, .resolveOrgId (generateRawKey 1), .touchLastUsedAt 1, .rotateKey 1,
    .resolveOrgId (generateRawKey 1), .resolveOrgId (generateRawKey 2), .revokeKey 1,
    .resolveOrgId (generateRawKey 2)]

theorem keys_final_inTurn : ∃ c : Run, Reach (Careful inTurn emptyStore)
    (start (fun _ => true) emptyStore inTurn) c ∧
      (answerAt c 7 1 = some (.resolved (some 1)) ∧ answerAt c 18 4 = some (.resolved none) ∧
        answerAt c 22 5 = some (.resolved (some 1)) ∧ answerAt c 28 7 = some (.resolved none)) ∧
          Final inTurn emptyStore c := by
  obtain ⟨c, hc, hp⟩ := exists_reach
    (o := fun c i => c.atCommit (inOrder inTurn emptyStore c.trace i) i && latest inTurn c.trace i)
    (P := Careful inTurn emptyStore)
    (fun c i h => ⟨Config.atCommit_of (fun _ _ => inOrder_of) (Bool.and_eq_true_iff.mp h).1,
      latest_of (Bool.and_eq_true_iff.mp h).2⟩)
    (start (fun _ => true) emptyStore inTurn)
    (turns 0 11 1 ++ turns 1 7 0 ++ turns 2 12 0 ++ turns 3 10 2 ++ turns 4 6 0 ++ turns 5 7 0 ++
      turns 6 5 0 ++ turns 7 6 0)
    (fun c => answerAt c 7 1 == some (.resolved (some 1)) && answerAt c 18 4 == some (.resolved none)
      && answerAt c 22 5 == some (.resolved (some 1)) && answerAt c 28 7 == some (.resolved none))
    (by decide +kernel)
  simp only [Bool.and_eq_true, beq_iff_eq] at hp
  obtain ⟨⟨⟨h1, h2⟩, h3⟩, h4⟩ := hp
  exact ⟨c, hc, ⟨h1, h2, h3, h4⟩, keys_final proper_emptyStore hc⟩

end PatronLoyalty.ApiKeys
