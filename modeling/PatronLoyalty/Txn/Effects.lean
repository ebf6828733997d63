import PatronLoyalty.Txn.Relational

/-!
# Effects of transactions

A transaction reads and writes while other sessions commit. `Did G R ws s` says what it has done so
far in terms that interference cannot invalidate: at every store the others can reach from `s`, the
transaction's view is related to that store by `R`. At its commit, `R` relates the store before to
the store after.

Over a relational store, a row version extends `R` by `Replaced`, a log row by `Pushed`; the rules
`Did.wp_insert`, `Did.wp_insertLog`, `Did.wp_modify` and `Did.wp_modifyIf` follow the statements.

Results: **`Replaced.unique`** and **`Pushed.unique`**, unique indexes stay unique.
-/

namespace PatronLoyalty.Txn

open Relation

section Did

variable {σ ω ι ε β : Type} [Store σ ω ι] {G : Guarantee σ} {R R' : σ → σ → Prop} {ws : List ω}
  {s s' : σ}

/-- What a transaction with the pending writes `ws` has done, whatever the others do. -/
def Did (G : Guarantee σ) (R : σ → σ → Prop) (ws : List ω) (s : σ) : Prop :=
  ∀ s', Stable G ws s s' → R s' (view ws s')

theorem Did.here (h : Did G R ws s) : R s (view ws s) := h s (Stable.refl ws s)

theorem Did.stable (h : Did G R ws s) (hs : Stable G ws s s') : Did G R ws s' :=
  fun s'' hs' => h s'' (hs.trans hs')

theorem Did.mono (hR : ∀ a b, R a b → R' a b) (h : Did G R ws s) : Did G R' ws s :=
  fun s' hs => hR _ _ (h s' hs)

theorem did_nil : Did G R ([] : List ω) s ↔ ∀ s', G.rel s s' → R s' s' :=
  forall_congr' fun s' => by rw [stable_nil, view_nil]

theorem did_start : Did G Eq ([] : List ω) s := did_nil.mpr fun _ _ => rfl

/-- A fact about the committed store that interference respects. -/
theorem Did.note {F : σ → Prop} (hF : ∀ a b, G.rel a b → F a → F b) (hs : F s)
    (h : Did G R ws s) : Did G (fun a b => F a ∧ R a b) ws s :=
  fun s' hs' => ⟨hF s s' hs'.1 hs, h s' hs'⟩

variable {A : σ → Prop} {exc : ε → σ → Prop}

theorem Did.wp_read {f : σ → β} {post : β → List ω → σ → Prop} (h : Did G R ws s)
    (hp : ∀ s', G.rel s s' → A s' → Did G R ws s' → post (f (view ws s')) ws s') :
    Tx.wp G A post exc (Tx.read f) ws s := by
  rw [Tx.wp_read]
  exact fun s' hs hA => hp s' hs.1 hA (h.stable hs)

theorem Did.wp_readOrThrow {f : σ → Option β} {e : ε} {post : β → List ω → σ → Prop}
    (h : Did G R ws s)
    (hp : ∀ s' b, G.rel s s' → A s' → Did G R ws s' → f (view ws s') = some b → post b ws s')
    (he : ∀ s', G.rel s s' → A s' → Did G R ws s' → f (view ws s') = none → exc e s') :
    Tx.wp G A post exc (Tx.readOrThrow e f) ws s := by
  rw [Tx.wp_readOrThrow]
  exact fun s' hs hA => ⟨fun b hb => hp s' b hs.1 hA (h.stable hs) hb,
    fun hn => he s' hs.1 hA (h.stable hs) hn⟩

theorem Did.wp_findFirst {rows : σ → List β} {post : Option β → List ω → σ → Prop}
    (h : Did G R ws s)
    (hp : ∀ s' n, G.rel s s' → A s' → Did G R ws s' →
      post (rows (view ws s'))[n % (rows (view ws s')).length]? ws s') :
    Tx.wp G A post exc (Tx.findFirst rows) ws s := by
  rw [Tx.wp_findFirst]
  exact fun n s' hs hA => hp s' n hs.1 hA (h.stable hs)

end Did

namespace Rel

variable {κ : Type} {ρ : κ → Type} {L υ : Type} [DecidableEq κ] [DecidableEq υ]
  [∀ k, DecidableEq (ρ k)] [Keyed ρ L υ]

/-! ## Row versions and log rows as relations -/

/-- `b` is `a` with the version `old` of a row replaced by `new`, which takes no index entry of
another row. -/
def Replaced (k : κ) (id : ℕ) (old : Option (ρ k)) (new : ρ k) (a b : Rel ρ L) : Prop :=
  a.get k id = old ∧ a.clashes k old new = false ∧ b = a.set k id new

def push (s : Rel ρ L) (l : L) : Rel ρ L := { s with log := s.log ++ [l] }

/-- `b` is `a` with a log row appended, whose index entries were free. -/
def Pushed (l : L) (a b : Rel ρ L) : Prop :=
  (∀ u ∈ Keyed.logKeys ρ l, a.logAt u = []) ∧ b = a.push l

omit [DecidableEq κ] [DecidableEq υ] [∀ k, DecidableEq (ρ k)] [Keyed ρ L υ] in
@[simp] theorem get_push (s : Rel ρ L) (l : L) (k : κ) (id : ℕ) :
    (s.push l).get k id = s.get k id := rfl

omit [DecidableEq κ] [DecidableEq υ] [∀ k, DecidableEq (ρ k)] [Keyed ρ L υ] in
@[simp] theorem log_push (s : Rel ρ L) (l : L) : (s.push l).log = s.log ++ [l] := rfl

section

variable {k : κ} {id : ℕ} {old : Option (ρ k)} {new : ρ k} {l : L} {a b : Rel ρ L} {s : Rel ρ L}

omit [∀ k, DecidableEq (ρ k)] in
theorem Replaced.get_old (h : Replaced k id old new a b) : a.get k id = old := h.1

omit [∀ k, DecidableEq (ρ k)] in
theorem Replaced.get_self (h : Replaced k id old new a b) : b.get k id = some new := by
  rw [h.2.2, get_set_self]

omit [∀ k, DecidableEq (ρ k)] in
theorem Replaced.get_ne (h : Replaced k id old new a b) {k' : κ} {id' : ℕ}
    (hne : (k', id') ≠ (k, id)) : b.get k' id' = a.get k' id' := by
  rw [h.2.2, get_set_ne hne]

omit [∀ k, DecidableEq (ρ k)] in
theorem Replaced.log (h : Replaced k id old new a b) : b.log = a.log := by
  rw [h.2.2, log_set]

omit [∀ k, DecidableEq (ρ k)] in
theorem Replaced.tables_ne (h : Replaced k id old new a b) {k' : κ} (hk : k' ≠ k) :
    b.tables k' = a.tables k' := by
  rw [h.2.2]
  exact Function.update_of_ne hk _ _

omit [DecidableEq κ] [∀ k, DecidableEq (ρ k)] in
theorem Pushed.tables (h : Pushed l a b) : b.tables = a.tables := by
  rw [h.2]
  rfl

omit [DecidableEq κ] [∀ k, DecidableEq (ρ k)] in
theorem Pushed.get (h : Pushed l a b) (k : κ) (id : ℕ) : b.get k id = a.get k id := by
  rw [h.2, get_push]

omit [DecidableEq κ] [∀ k, DecidableEq (ρ k)] in
theorem Pushed.log (h : Pushed l a b) : b.log = a.log ++ [l] := by rw [h.2, log_push]

omit [DecidableEq κ] [∀ k, DecidableEq (ρ k)] in
theorem clashes_of_keys_subset {r : ρ k}
    (h : Keyed.keys L k new ⊆ Keyed.keys L k r) : s.clashes k (some r) new = false := by
  unfold clashes
  rw [List.any_eq_false]
  intro u hu
  have hold : u ∈ versionKeys (L := L) k (some r) := h hu
  simp [hold]

omit [DecidableEq κ] [∀ k, DecidableEq (ρ k)] in
theorem clashes_of_keys_eq {r : ρ k}
    (h : Keyed.keys L k new = Keyed.keys L k r) : s.clashes k (some r) new = false := by
  unfold clashes versionKeys
  rw [h, List.any_eq_false]
  intro u hu
  simp [hu]

omit [DecidableEq κ] [∀ k, DecidableEq (ρ k)] in
theorem notTaken_of_clashes (h : s.clashes k old new = false) {u : υ} (hu : u ∈ Keyed.keys L k new)
    (ho : u ∉ versionKeys (L := L) k old) (id : ℕ) :
    ¬ s.Owns u k id := by
  intro hown
  have ht : s.taken k u = true := taken_iff.mpr ⟨id, hown⟩
  have := List.any_eq_false.mp h u hu
  simp [ho, ht] at this

end

omit [DecidableEq υ] [∀ k, DecidableEq (ρ k)] [Keyed ρ L υ] in
/-- Writing a row once more, with a log row in between. -/
theorem set_push_set (s : Rel ρ L) (k : κ) (id : ℕ) (r r' : ρ k) (l : L) :
    ((s.set k id r).push l).set k id r' = (s.set k id r').push l := by
  simp only [set, push, Function.update_idem, Function.update_self, AList.insert_insert]

/-! ## Unique indexes -/

/-- No two rows of a table, and no two log rows, are under one index entry. -/
structure Unique (s : Rel ρ L) : Prop where
  row {k : κ} {u : υ} {id id' : ℕ} : s.Owns u k id → s.Owns u k id' → id = id'
  log (u : υ) : (s.logAt u).length ≤ 1

/-- A store with no rows. -/
def empty : Rel ρ L := ⟨fun _ => ∅, []⟩

omit [DecidableEq κ] [∀ k, DecidableEq (ρ k)] in
theorem unique_empty : Unique (empty : Rel ρ L) where
  row h := by
    obtain ⟨r, hr, -⟩ := h
    cases hr
  log _ := Nat.zero_le 1

omit [DecidableEq κ] [∀ k, DecidableEq (ρ k)] in
theorem unique_of_entries {s : Rel ρ L}
    (h : ∀ k, ∀ x ∈ (s.tables k).entries, ∀ y ∈ (s.tables k).entries, x.1 ≠ y.1 →
      ∀ u ∈ Keyed.keys L k x.2, u ∉ Keyed.keys L k y.2) (hl : s.log = []) : Unique s where
  row {k u id id'} := by
    rintro ⟨r, hr, hu⟩ ⟨r', hr', hu'⟩
    by_contra hne
    exact h k ⟨id, r⟩ (AList.mem_lookup_iff.mp hr) ⟨id', r'⟩ (AList.mem_lookup_iff.mp hr') hne u hu hu'
  log u := by
    rw [logAt, hl]
    exact Nat.zero_le 1

section

variable {k : κ} {id : ℕ} {old : Option (ρ k)} {new : ρ k} {l : L} {a b : Rel ρ L}

omit [∀ k, DecidableEq (ρ k)] in
/-- An index entry of the new version belongs to no other row. -/
theorem Replaced.fresh (h : Replaced k id old new a b) (ha : Unique a) {u : υ}
    (hu : u ∈ Keyed.keys L k new) {id' : ℕ} (ho : a.Owns u k id') : id' = id := by
  by_cases hold : u ∈ versionKeys (L := L) k old
  · exact ha.row ho ((owns_iff_versionKeys h.1).mpr hold)
  · exact absurd ho (notTaken_of_clashes h.2.1 hu hold id')

omit [∀ k, DecidableEq (ρ k)] in
/-- **A row version keeps the unique indexes.** -/
theorem Replaced.unique (h : Replaced k id old new a b) (ha : Unique a) : Unique b where
  row {k' u i j} hi hj := by
    rw [h.2.2, owns_set] at hi hj
    split at hi <;> split at hj
    · rename_i h1 h2
      cases h1
      cases h2
      rfl
    · rename_i h1 h2
      cases h1
      exact (h.fresh ha hi hj).symm
    · rename_i h1 h2
      cases h2
      exact h.fresh ha hj hi
    · exact ha.row hi hj
  log u := by
    unfold logAt
    rw [h.log]
    exact ha.log u

omit [DecidableEq κ] [∀ k, DecidableEq (ρ k)] in
/-- **A log row keeps the unique indexes.** -/
theorem Pushed.unique (h : Pushed l a b) (ha : Unique a) : Unique b where
  row {k u i j} hi hj := by
    unfold Owns at hi hj
    rw [h.get] at hi hj
    exact ha.row hi hj
  log u := by
    unfold logAt
    rw [h.log, List.filter_append, List.length_append]
    by_cases hu : u ∈ Keyed.logKeys ρ l
    · have h0 : a.log.filter (fun l => decide (u ∈ Keyed.logKeys ρ l)) = [] := h.1 u hu
      rw [h0]
      simp [hu]
    · simpa [hu, logAt] using ha.log u

end

end Rel

/-! ## Statements -/

section Statements

open Txn.Rel

variable {κ : Type} {ρ : κ → Type} {L υ : Type} [DecidableEq κ] [DecidableEq υ]
  [∀ k, DecidableEq (ρ k)] [Keyed ρ L υ] {k : κ} {id : ℕ}

variable {ε : Type} {G : Guarantee (Rel ρ L)} {R : Rel ρ L → Rel ρ L → Prop}
  {ws : List (Write ρ L)} {s : Rel ρ L}

/-- A pending row version. -/
theorem Did.put {old : Option (ρ k)} {new : ρ k} (h : Did G R ws s)
    (hg : (view ws s).get k id = old) (hc : (view ws s).clashes k old new = false) :
    Did G (Comp R (Replaced k id old new)) (ws ++ [.put k id old new]) s := by
  intro s' hs
  have hm : Write.put k id old new ∈ ws ++ [.put k id old new] := by simp
  have hg' : (view ws s').get k id = old := (get_view_of_stable hs hm).trans hg
  refine ⟨view ws s', h s' hs.left, hg', ?_, ?_⟩
  · unfold clashes at hc ⊢
    rw [List.any_eq_false] at hc ⊢
    intro u hu
    by_cases hold : u ∈ versionKeys (L := L) k old
    · simp [hold]
    · have hch : u ∈ changedKeys (L := L) k old new := by
        by_contra hn
        exact hold ((notMem_changedKeys.mp hn).mpr hu)
      have ho := owns_view_of_stable hs hm hch
      have htk : (view ws s').taken k u = (view ws s).taken k u := by
        rw [Bool.eq_iff_iff, taken_iff, taken_iff, ho]
      rw [htk]
      exact hc u hu
  · rw [view_append, view_cons, view_nil, apply_put, put_eq hg']

/-- A pending log row. -/
theorem Did.append {l : L} (h : Did G R ws s)
    (hk : ∀ u ∈ Keyed.logKeys ρ l, (view ws s).logAt u = []) :
    Did G (Comp R (Pushed l)) (ws ++ [.append l]) s := by
  intro s' hs
  refine ⟨view ws s', h s' hs.left, fun u hu => ?_, ?_⟩
  · rw [logAt_view_of_stable hs (by simp) hu]
    exact hk u hu
  · rw [view_append, view_cons, view_nil, apply_append]
    rfl

variable {A : Rel ρ L → Prop} {exc : ε → Rel ρ L → Prop}

theorem Did.wp_insert {post : Unit → List (Write ρ L) → Rel ρ L → Prop} {dup : ε} {r : ρ k}
    (h : Did G R ws s)
    (hp : ∀ s' ws', G.rel s s' → A s' → Did G (Comp R (Replaced k id none r)) ws' s' →
      post () ws' s') (he : ∀ s', G.rel s s' → A s' → Did G R ws s' → exc dup s') :
    Tx.wp G A post exc (Rel.insert dup k id r) ws s :=
  Rel.wp_insert
    (fun s' hs hA hg hc => hp s' _ hs.1 hA (Did.put (h.stable hs) hg hc))
    (fun s' hs hA _ => he s' hs.1 hA (h.stable hs))

theorem Did.wp_insertLog {post : Unit → List (Write ρ L) → Rel ρ L → Prop} {dup : ε} {l : L}
    (h : Did G R ws s)
    (hp : ∀ s' ws', G.rel s s' → A s' → Did G (Comp R (Pushed l)) ws' s' → post () ws' s')
    (he : ∀ s' u, G.rel s s' → A s' → Did G R ws s' → u ∈ Keyed.logKeys ρ l →
      (view ws s').logAt u ≠ [] → exc dup s') :
    Tx.wp G A post exc (insertLog dup l) ws s :=
  Rel.wp_insertLog
    (fun s' hs hA hk => hp s' _ hs.1 hA (Did.append (h.stable hs) hk))
    (fun s' u hs hA hu hne => he s' u hs.1 hA (h.stable hs) hu hne)

theorem Did.wp_modify {post : ρ k → List (Write ρ L) → Rel ρ L → Prop} {miss dup : ε}
    {f : ρ k → Except ε (ρ k)} (h : Did G R ws s)
    (hp : ∀ s' ws' r r', G.rel s s' → A s' → f r = .ok r' →
      Did G (Comp R (Replaced k id (some r) r')) ws' s' → post r' ws' s')
    (hm : ∀ s', G.rel s s' → A s' → Did G R ws s' → (view ws s').get k id = none → exc miss s')
    (hf : ∀ s' r e, G.rel s s' → A s' → Did G R ws s' → (view ws s').get k id = some r →
      f r = .error e → exc e s')
    (hd : ∀ s' r r', G.rel s s' → A s' → Did G R ws s' → (view ws s').get k id = some r →
      f r = .ok r' → (view ws s').clashes k (some r) r' = true → exc dup s') :
    Tx.wp G A post exc (modify miss dup k id f) ws s :=
  Rel.wp_modify
    (fun s' r r' hs hA hg hr hc => hp s' _ r r' hs.1 hA hr (Did.put (h.stable hs) hg hc))
    (fun s' hs hA hg => hm s' hs.1 hA (h.stable hs) hg)
    (fun s' r e hs hA hg hr => hf s' r e hs.1 hA (h.stable hs) hg hr)
    (fun s' r r' hs hA hg hr hc => hd s' r r' hs.1 hA (h.stable hs) hg hr hc)

theorem Did.wp_modifyIf {post : ℕ → List (Write ρ L) → Rel ρ L → Prop} {dup : ε} {p : ρ k → Bool}
    {f : ρ k → Except ε (ρ k)} (h : Did G R ws s)
    (hp : ∀ s' ws' r r', G.rel s s' → A s' → p r = true → f r = .ok r' →
      Did G (Comp R (Replaced k id (some r) r')) ws' s' → post 1 ws' s')
    (h0 : ∀ s', G.rel s s' → A s' → Did G R ws s' →
      (∀ r, (view ws s').get k id = some r → p r = false) → post 0 ws s')
    (hf : ∀ s' r e, G.rel s s' → A s' → Did G R ws s' → (view ws s').get k id = some r →
      p r = true → f r = .error e → exc e s')
    (hd : ∀ s' r r', G.rel s s' → A s' → Did G R ws s' → (view ws s').get k id = some r →
      p r = true → f r = .ok r' → (view ws s').clashes k (some r) r' = true → exc dup s') :
    Tx.wp G A post exc (modifyIf dup k id p f) ws s :=
  Rel.wp_modifyIf
    (fun s' r r' hs hA hg hpr hr hc => hp s' _ r r' hs.1 hA hpr hr (Did.put (h.stable hs) hg hc))
    (fun s' hs hA hg => h0 s' hs.1 hA (h.stable hs) hg)
    (fun s' r e hs hA hg hpr hr => hf s' r e hs.1 hA (h.stable hs) hg hpr hr)
    (fun s' r r' hs hA hg hpr hr hc => hd s' r r' hs.1 hA (h.stable hs) hg hpr hr hc)

end Statements

end PatronLoyalty.Txn
