import PatronLoyalty.Txn.Bodies
import PatronLoyalty.Txn.Sequential

/-!
# What a request comes to alone

`Tx.gives t s b s'`: on the store `s` that nobody else touches, the body `t` may return `b` and leave
`s'`, for some inputs. `Call.gives c s r s'`: the request `c` may come to the answer `r` and leave `s'`,
where any of its transactions may fail and be rolled back.

Both are computed along the text of the program: sequencing is composition (`Tx.gives_bind`,
`Call.gives_bind`). What a Hoare triple says of a body holds of what it gives (`Triple.gives`).

`Call.passes c s s'`: on its way the request leaves `s'` committed.

`Tx.Reads f t`: the body `t` writes nothing, and what it reads of the store is in `f`.

Headline: **`reach_gives`**, a request that has the server for itself comes by what it passes, and to
what it gives.
-/

namespace PatronLoyalty.Txn

open Relation

variable {σ ω ι ε ev α β γ : Type} [Store σ ω ι] {t : Tx σ ω ε β} {s s' : σ} {x : β} {e : ε}

/-! ## Bodies -/

namespace Tx

/-- What a body may return, and the store it sees then. -/
def gives : Tx σ ω ε β → σ → β → σ → Prop
  | pure b, s, x, s' => x = b ∧ s' = s
  | throw _, _, _, _ => False
  | pick k, s, x, s' => ∃ n, (k n).gives s x s'
  | clock k, s, x, s' => ∃ n, (k n).gives s x s'
  | stmt q k, s, x, s' => ∃ b ws, q s = .ok (b, ws) ∧ (k b).gives (view ws s) x s'

variable {s s' : σ} {x : β} {t : Tx σ ω ε β}

@[simp] theorem gives_pure {b : β} :
    (pure b : Tx σ ω ε β).gives s x s' ↔ x = b ∧ s' = s := Iff.rfl

@[simp] theorem gives_throw {e : ε} : ¬ (throw e : Tx σ ω ε β).gives s x s' := id

/-- **Sequencing.** -/
theorem gives_bind {f : β → Tx σ ω ε γ} {y : γ} :
    (t.bind f).gives s y s' ↔ ∃ b m, t.gives s b m ∧ (f b).gives m y s' := by
  induction t generalizing s with
  | pure b =>
    constructor
    · exact fun h => ⟨b, s, ⟨rfl, rfl⟩, h⟩
    · rintro ⟨b', m, ⟨rfl, rfl⟩, h⟩
      exact h
  | throw e => exact ⟨False.elim, by rintro ⟨_, _, h, _⟩; exact h.elim⟩
  | pick k ih =>
    constructor
    · rintro ⟨n, h⟩
      obtain ⟨b, m, hb, hf⟩ := (ih n).mp h
      exact ⟨b, m, ⟨n, hb⟩, hf⟩
    · rintro ⟨b, m, ⟨n, hb⟩, hf⟩
      exact ⟨n, (ih n).mpr ⟨b, m, hb, hf⟩⟩
  | clock k ih =>
    constructor
    · rintro ⟨n, h⟩
      obtain ⟨b, m, hb, hf⟩ := (ih n).mp h
      exact ⟨b, m, ⟨n, hb⟩, hf⟩
    · rintro ⟨b, m, ⟨n, hb⟩, hf⟩
      exact ⟨n, (ih n).mpr ⟨b, m, hb, hf⟩⟩
  | stmt q k ih =>
    constructor
    · rintro ⟨c, ws, hq, h⟩
      obtain ⟨b, m, hb, hf⟩ := (ih c).mp h
      exact ⟨b, m, ⟨c, ws, hq, hb⟩, hf⟩
    · rintro ⟨b, m, ⟨c, ws, hq, hb⟩, hf⟩
      exact ⟨c, ws, hq, (ih c).mpr ⟨b, m, hb, hf⟩⟩

theorem gives.seq {f : β → Tx σ ω ε γ} {y : γ} (h : (t.bind f).gives s y s') :
    ∃ b m, t.gives s b m ∧ (f b).gives m y s' := gives_bind.mp h

@[simp] theorem gives_read {f : σ → β} :
    (read f : Tx σ ω ε β).gives s x s' ↔ x = f s ∧ s' = s := by
  constructor
  · rintro ⟨b, ws, hq, rfl, rfl⟩
    cases hq
    exact ⟨rfl, rfl⟩
  · rintro ⟨rfl, rfl⟩
    exact ⟨_, _, rfl, rfl, rfl⟩

theorem gives_exec {q : σ → Except ε (β × List ω)} :
    (exec q).gives s x s' ↔ ∃ ws, q s = .ok (x, ws) ∧ s' = view ws s := by
  constructor
  · rintro ⟨b, ws, hq, rfl, hs⟩
    exact ⟨ws, hq, hs⟩
  · rintro ⟨ws, hq, rfl⟩
    exact ⟨x, ws, hq, rfl, rfl⟩

@[simp] theorem gives_input {n : ℕ} : (input : Tx σ ω ε ℕ).gives s n s' ↔ s' = s :=
  ⟨by rintro ⟨_, _, h⟩; exact h, fun h => ⟨n, rfl, h⟩⟩

@[simp] theorem gives_now {n : ℕ} : (now : Tx σ ω ε ℕ).gives s n s' ↔ s' = s :=
  ⟨by rintro ⟨_, _, h⟩; exact h, fun h => ⟨n, rfl, h⟩⟩

/-- A row of an unordered query, or none where there is none. -/
theorem gives_findFirst {rows : σ → List β} {o : Option β} :
    (findFirst rows : Tx σ ω ε (Option β)).gives s o s' ↔
      s' = s ∧ (o = none ∧ rows s = [] ∨ ∃ r ∈ rows s, o = some r) := by
  constructor
  · rintro ⟨n, h⟩
    obtain ⟨ho, rfl⟩ := gives_read.mp h
    refine ⟨rfl, ?_⟩
    by_cases hr : rows s' = []
    · exact Or.inl ⟨by rw [ho, hr]; rfl, hr⟩
    · have hlt : n % (rows s').length < (rows s').length :=
        Nat.mod_lt _ (List.length_pos_iff.mpr hr)
      exact Or.inr ⟨_, List.getElem_mem hlt, ho.trans (List.getElem?_eq_getElem hlt)⟩
  · rintro ⟨rfl, h⟩
    rcases h with ⟨rfl, hr⟩ | ⟨r, hr, rfl⟩
    · exact ⟨0, gives_read.mpr ⟨by rw [hr]; rfl, rfl⟩⟩
    · obtain ⟨n, hn⟩ := List.getElem?_of_mem hr
      have hlt := (List.getElem?_eq_some_iff.mp hn).1
      exact ⟨n, gives_read.mpr ⟨by rw [Nat.mod_eq_of_lt hlt, hn], rfl⟩⟩

@[simp] theorem gives_mapError {f : ε → ε} :
    (t.mapError f).gives s x s' ↔ t.gives s x s' := by
  induction t generalizing s with
  | pure b => exact Iff.rfl
  | throw e => exact Iff.rfl
  | pick k ih => exact exists_congr fun n => ih n
  | clock k ih => exact exists_congr fun n => ih n
  | stmt q k ih =>
    refine exists_congr fun b => exists_congr fun ws => and_congr ?_ (ih b)
    cases hq : q s with
    | error e => simp [Except.mapError, hq]
    | ok r => simp [Except.mapError, hq]

theorem gives_wp {A : σ → Prop} {post : β → List ω → σ → Prop} {exc : ε → σ → Prop} {ws : List ω}
    {c : σ} (hA : A c) (h : wp alone A post exc t ws c)
    (hg : t.gives (view ws c) x s') : ∃ ws', s' = view ws' c ∧ post x ws' c := by
  induction t generalizing ws with
  | pure b =>
    obtain ⟨rfl, rfl⟩ := hg
    exact ⟨ws, rfl, h⟩
  | throw e => exact hg.elim
  | pick k ih =>
    obtain ⟨n, hn⟩ := hg
    exact ih n (h n) hn
  | clock k ih =>
    obtain ⟨n, hn⟩ := hg
    exact ih n (h n) hn
  | stmt q k ih =>
    obtain ⟨b, ws', hq, hk⟩ := hg
    have hw := h c (Stable.refl ws c) hA
    rw [hq] at hw
    exact ih b hw (by rwa [view_append])

end Tx

/-- What a body has done when it returns. -/
theorem Tx.gives_did {A : σ → Prop} {exc : ε → σ → Prop} {R : β → σ → σ → Prop} (hA : A s)
    (h : Tx.wp alone A (fun b => Did alone (R b)) exc t [] s) (hg : t.gives s x s') : R x s s' := by
  have hnil : t.gives (view [] s) x s' := hg
  obtain ⟨ws, rfl, hd⟩ := Tx.gives_wp hA h hnil
  exact hd.here

/-- **What a triple says** of a transaction holds of what it gives. -/
theorem Triple.gives {Q : β → σ → σ → Prop} (h : Triple (fun _ => true) e alone Eq t Q)
    (hg : t.gives s x s') : Q x s s' := by
  have hnone : t.gives (view [] s) x s' := hg
  obtain ⟨ws, rfl, hd⟩ := Tx.gives_wp (A := fun _ => True) trivial (h.wp_free _ s) hnone
  exact hd.here

theorem Confined.gives {E : σ → σ → Prop} (h : Confined (fun _ => true) e alone E t)
    (hg : t.gives s x s') : ReflTransGen E s s' := by
  obtain ⟨m, rfl, hs⟩ := (h Eq).gives hg
  exact hs

/-- A body that only reads leaves the store. -/
theorem Confined.gives_still (h : Confined (fun _ => true) e alone (fun _ _ => False) t)
    (hg : t.gives s x s') : s' = s := by
  rcases ReflTransGen.cases_tail (h.gives hg) with rfl | ⟨_, _, hf⟩
  · rfl
  · exact hf.elim

/-! ## Bodies that only read -/

namespace Tx

variable {τ : Type*} {s s' : σ} {x : β} {env : Env} {t : Tx σ ω ε β} {m n : ℕ} {ws ws' : List ω}

theorem bind_assoc (t : Tx σ ω ε β) (f : β → Tx σ ω ε γ) (g : γ → Tx σ ω ε α) :
    (t.bind f).bind g = t.bind fun b => (f b).bind g := by
  induction t with
  | pure b => rfl
  | throw e => rfl
  | pick k ih => exact congrArg Tx.pick (funext fun n => ih n)
  | clock k ih => exact congrArg Tx.clock (funext fun n => ih n)
  | stmt q k ih => exact congrArg (Tx.stmt q) (funext fun b => ih b)

/-- Sequencing after a part that returns. -/
theorem eval_bind_ok {f : β → Tx σ ω ε γ} (h : t.eval env n ws s = (.ok (x, ws'), m)) :
    (t.bind f).eval env n ws s = (f x).eval env m ws' s := by
  rw [eval_bind, h]

/-- The parts of a sequence that returns. -/
theorem eval_bind_eq_ok {f : β → Tx σ ω ε γ} {y : γ}
    (h : (t.bind f).eval env n ws s = (.ok (y, ws'), m)) :
    ∃ b vs k, t.eval env n ws s = (.ok (b, vs), k) ∧ (f b).eval env k vs s = (.ok (y, ws'), m) := by
  rw [eval_bind] at h
  cases ht : t.eval env n ws s with
  | mk r k =>
    rw [ht] at h
    cases r with
    | ok r => exact ⟨r.1, r.2, k, rfl, h⟩
    | error e => cases h

/-- What a body comes to, it may return. -/
theorem gives_of_eval
    (h : t.eval env n ws s = (.ok (x, ws'), m)) : t.gives (view ws s) x (view ws' s) := by
  induction t generalizing n ws with
  | pure b =>
    cases h
    exact ⟨rfl, rfl⟩
  | throw e => cases h
  | pick k ih => exact ⟨_, ih _ h⟩
  | clock k ih => exact ⟨_, ih _ h⟩
  | stmt q k ih =>
    unfold eval at h
    cases hq : q (view ws s) with
    | error e =>
      rw [hq] at h
      cases h
    | ok r =>
      rw [hq] at h
      refine ⟨r.1, r.2, hq, ?_⟩
      have hk := ih r.1 h
      rwa [view_append] at hk

/-- The body writes nothing, and what it reads of the store is in `f`. -/
def Reads (f : σ → τ) : Tx σ ω ε β → Prop
  | pure _ => True
  | throw _ => True
  | pick k => ∀ n, (k n).Reads f
  | clock k => ∀ n, (k n).Reads f
  | stmt q k => (∀ s s', f s = f s' → q s = q s') ∧ (∀ s b ws, q s = .ok (b, ws) → ws = []) ∧
      ∀ b, (k b).Reads f

variable {f : σ → τ}

omit [Store σ ω ι] in
theorem Reads.bind {g : β → Tx σ ω ε γ} (ht : t.Reads f)
    (hg : ∀ b, (g b).Reads f) : (t.bind g).Reads f := by
  induction t with
  | pure b => exact hg b
  | throw e => trivial
  | pick k ih => exact fun n => ih n (ht n)
  | clock k ih => exact fun n => ih n (ht n)
  | stmt q k ih => exact ⟨ht.1, ht.2.1, fun b => ih b (ht.2.2 b)⟩

omit [Store σ ω ι] in
theorem Reads.read {g : σ → β} (hg : ∀ s s', f s = f s' → g s = g s') :
    (read g : Tx σ ω ε β).Reads f := by
  refine ⟨fun s s' h => ?_, fun s b ws h => ?_, fun _ => trivial⟩
  · simp only [hg s s' h]
  · cases h
    rfl

omit [Store σ ω ι] in
theorem Reads.findFirst {rows : σ → List β} (h : ∀ s s', f s = f s' → rows s = rows s') :
    (findFirst rows : Tx σ ω ε (Option β)).Reads f :=
  fun _ => .read fun s s' hs => by rw [h s s' hs]

omit [Store σ ω ι] in
theorem Reads.ite {p : Prop} [Decidable p] {u : Tx σ ω ε β} (ht : t.Reads f) (hu : u.Reads f) :
    (if p then t else u).Reads f := by
  split
  · exact ht
  · exact hu

theorem Reads.eval (h : t.Reads f) (hf : f s = f s') (env : Env) (n : ℕ) :
    t.eval env n [] s = t.eval env n [] s' := by
  induction t generalizing n with
  | pure b => rfl
  | throw e => rfl
  | pick k ih => exact ih _ (h _) _
  | clock k ih => exact ih _ (h _) _
  | stmt q k ih =>
    simp only [Tx.eval, view_nil, ← h.1 s s' hf]
    cases hq : q s with
    | error e => rfl
    | ok r =>
      obtain ⟨b, ws⟩ := r
      cases h.2.1 s b ws hq
      exact ih b (h.2.2 b) n

theorem Reads.eval_ok (h : t.Reads f) (he : t.eval env n [] s = (.ok (x, ws), m)) : ws = [] := by
  induction t generalizing n with
  | pure b =>
    cases he
    rfl
  | throw e => cases he
  | pick k ih => exact ih _ (h _) he
  | clock k ih => exact ih _ (h _) he
  | stmt q k ih =>
    simp only [Tx.eval, view_nil] at he
    cases hq : q s with
    | error e =>
      rw [hq] at he
      cases he
    | ok r =>
      obtain ⟨b, ws'⟩ := r
      cases h.2.1 s b ws' hq
      rw [hq] at he
      exact ih b (h.2.2 b) he

theorem Reads.gives {m : σ} (h : t.Reads f) (hf : f s = f s')
    (hg : t.gives s x m) : m = s ∧ t.gives s' x s' := by
  induction t with
  | pure b => exact ⟨hg.2, hg.1, rfl⟩
  | throw e => exact hg.elim
  | pick k ih =>
    obtain ⟨n, hn⟩ := hg
    exact (ih n (h n) hn).imp_right fun hn => ⟨n, hn⟩
  | clock k ih =>
    obtain ⟨n, hn⟩ := hg
    exact (ih n (h n) hn).imp_right fun hn => ⟨n, hn⟩
  | stmt q k ih =>
    obtain ⟨b, ws, hq, hk⟩ := hg
    cases h.2.1 s b ws hq
    exact (ih b (h.2.2 b) hk).imp_right fun hk => ⟨b, [], h.1 s s' hf ▸ hq, hk⟩

end Tx

/-! ## Requests -/

namespace Call

/-- What a request may come to. Any of its transactions may fail. -/
def gives : Call σ ω ε ev α → σ → Except ε α → σ → Prop
  | pure a, s, r, s' => r = .ok a ∧ s' = s
  | throw e, s, r, s' => r = .error e ∧ s' = s
  | pick k, s, r, s' => ∃ n, (k n).gives s r s'
  | emit _ k, s, r, s' => k.gives s r s'
  | tx t k, s, r, s' => (∃ b m, t.gives s b m ∧ (k (.ok b)).gives m r s') ∨
      ∃ e, (k (.error e)).gives s r s'

variable {s s' : σ} {c : Call σ ω ε ev β} {f : β → Call σ ω ε ev γ} {r : Except ε β}
  {t : Tx σ ω ε β}

/-- **Sequencing.** -/
theorem gives_bind {r : Except ε γ} :
    (c.bind f).gives s r s' ↔ (∃ b m, c.gives s (.ok b) m ∧ (f b).gives m r s') ∨
      ∃ e, c.gives s (.error e) s' ∧ r = .error e := by
  induction c generalizing s with
  | pure b =>
    constructor
    · exact fun h => Or.inl ⟨b, s, ⟨rfl, rfl⟩, h⟩
    · rintro (⟨b', m, ⟨hb, rfl⟩, h⟩ | ⟨e, ⟨he, -⟩, -⟩)
      · cases hb
        exact h
      · cases he
  | throw e =>
    constructor
    · exact fun h => Or.inr ⟨e, ⟨rfl, h.2⟩, h.1⟩
    · rintro (⟨b, m, ⟨hb, -⟩, -⟩ | ⟨e', ⟨he, hs⟩, hr⟩)
      · cases hb
      · cases he
        exact ⟨hr, hs⟩
  | pick k ih =>
    constructor
    · rintro ⟨n, h⟩
      rcases (ih n).mp h with ⟨b, m, hb, hf⟩ | ⟨e, he, hr⟩
      · exact Or.inl ⟨b, m, ⟨n, hb⟩, hf⟩
      · exact Or.inr ⟨e, ⟨n, he⟩, hr⟩
    · rintro (⟨b, m, ⟨n, hb⟩, hf⟩ | ⟨e, ⟨n, he⟩, hr⟩)
      · exact ⟨n, (ih n).mpr (Or.inl ⟨b, m, hb, hf⟩)⟩
      · exact ⟨n, (ih n).mpr (Or.inr ⟨e, he, hr⟩)⟩
  | emit v k ih => exact ih
  | tx t k ih =>
    constructor
    · rintro (⟨x, m, ht, h⟩ | ⟨x, h⟩)
      · rcases (ih (.ok x)).mp h with ⟨b, m', hb, hf⟩ | ⟨e, he, hr⟩
        · exact Or.inl ⟨b, m', Or.inl ⟨x, m, ht, hb⟩, hf⟩
        · exact Or.inr ⟨e, Or.inl ⟨x, m, ht, he⟩, hr⟩
      · rcases (ih (.error x)).mp h with ⟨b, m', hb, hf⟩ | ⟨e, he, hr⟩
        · exact Or.inl ⟨b, m', Or.inr ⟨x, hb⟩, hf⟩
        · exact Or.inr ⟨e, Or.inr ⟨x, he⟩, hr⟩
    · rintro (⟨b, m', ⟨x, m, ht, hb⟩ | ⟨x, hb⟩, hf⟩ | ⟨e, ⟨x, m, ht, he⟩ | ⟨x, he⟩, hr⟩)
      · exact Or.inl ⟨x, m, ht, (ih (.ok x)).mpr (Or.inl ⟨b, m', hb, hf⟩)⟩
      · exact Or.inr ⟨x, (ih (.error x)).mpr (Or.inl ⟨b, m', hb, hf⟩)⟩
      · exact Or.inl ⟨x, m, ht, (ih (.ok x)).mpr (Or.inr ⟨e, he, hr⟩)⟩
      · exact Or.inr ⟨x, (ih (.error x)).mpr (Or.inr ⟨e, he, hr⟩)⟩

theorem gives_withTx :
    (withTx t : Call σ ω ε ev β).gives s r s' ↔
      (∃ b, r = .ok b ∧ t.gives s b s') ∨ ∃ e, r = .error e ∧ s' = s := by
  constructor
  · rintro (⟨b, m, ht, hr, rfl⟩ | ⟨e, hr, rfl⟩)
    · exact Or.inl ⟨b, hr, ht⟩
    · exact Or.inr ⟨e, hr, rfl⟩
  · rintro (⟨b, rfl, ht⟩ | ⟨e, rfl, rfl⟩)
    · exact Or.inl ⟨b, s', ht, rfl, rfl⟩
    · exact Or.inr ⟨e, rfl, rfl⟩

/-- A sequence whose first part is a transaction. -/
theorem gives_tx_bind {r : Except ε γ} (h : ((withTx t).bind f).gives s r s') :
    (∃ b m, t.gives s b m ∧ (f b).gives m r s') ∨ ∃ e, r = .error e ∧ s' = s := by
  rcases gives_bind.mp h with ⟨b, m, ht, hf⟩ | ⟨e, ht, hr⟩
  · rcases gives_withTx.mp ht with ⟨b', hb, hg⟩ | ⟨e, he, -⟩
    · cases hb
      exact Or.inl ⟨b, m, hg, hf⟩
    · cases he
  · rcases gives_withTx.mp ht with ⟨b', hb, -⟩ | ⟨e', he, hs⟩
    · cases hb
    · exact Or.inr ⟨e, hr, hs⟩

/-- The committed stores a request comes by. -/
def passes : Call σ ω ε ev α → σ → σ → Prop
  | pure _, s, s' => s' = s
  | throw _, s, s' => s' = s
  | pick k, s, s' => ∃ n, (k n).passes s s'
  | emit _ k, s, s' => k.passes s s'
  | tx t k, s, s' => s' = s ∨ (∃ b m, t.gives s b m ∧ (k (.ok b)).passes m s') ∨
      ∃ e, (k (.error e)).passes s s'

theorem passes_here (c : Call σ ω ε ev β) : c.passes s s := by
  induction c with
  | pure b => rfl
  | throw e => rfl
  | pick k ih => exact ⟨0, ih 0⟩
  | emit v k ih => exact ih
  | tx t k ih => exact Or.inl rfl

/-- Where a request comes to, it comes by. -/
theorem gives_passes (h : c.gives s r s') :
    c.passes s s' := by
  induction c generalizing s with
  | pure b => exact h.2
  | throw e => exact h.2
  | pick k ih =>
    obtain ⟨n, hn⟩ := h
    exact ⟨n, ih n hn⟩
  | emit v k ih => exact ih h
  | tx t k ih =>
    rcases h with ⟨b, m, ht, hk⟩ | ⟨e, hk⟩
    · exact Or.inr (Or.inl ⟨b, m, ht, ih (.ok b) hk⟩)
    · exact Or.inr (Or.inr ⟨e, ih (.error e) hk⟩)

/-- **Sequencing.** -/
theorem passes_bind (h : (c.bind f).passes s s') :
    c.passes s s' ∨ ∃ b m, c.gives s (.ok b) m ∧ (f b).passes m s' := by
  induction c generalizing s with
  | pure b => exact Or.inr ⟨b, s, ⟨rfl, rfl⟩, h⟩
  | throw e => exact Or.inl h
  | pick k ih =>
    obtain ⟨n, hn⟩ := h
    rcases ih n hn with hc | ⟨b, m, hb, hf⟩
    · exact Or.inl ⟨n, hc⟩
    · exact Or.inr ⟨b, m, ⟨n, hb⟩, hf⟩
  | emit v k ih => exact ih h
  | tx t k ih =>
    rcases h with h | ⟨x, u, ht, h⟩ | ⟨x, h⟩
    · exact Or.inl (Or.inl h)
    · rcases ih (.ok x) h with hc | ⟨b, m, hb, hf⟩
      · exact Or.inl (Or.inr (Or.inl ⟨x, u, ht, hc⟩))
      · exact Or.inr ⟨b, m, Or.inl ⟨x, u, ht, hb⟩, hf⟩
    · rcases ih (.error x) h with hc | ⟨b, m, hb, hf⟩
      · exact Or.inl (Or.inr (Or.inr ⟨x, hc⟩))
      · exact Or.inr ⟨b, m, Or.inr ⟨x, hb⟩, hf⟩

theorem passes_handle {f : ε → Call σ ω ε ev β} (h : (c.handle f).passes s s') :
    c.passes s s' ∨ ∃ e m, c.gives s (.error e) m ∧ (f e).passes m s' := by
  induction c generalizing s with
  | pure b => exact Or.inl h
  | throw e => exact Or.inr ⟨e, s, ⟨rfl, rfl⟩, h⟩
  | pick k ih =>
    obtain ⟨n, hn⟩ := h
    rcases ih n hn with hc | ⟨e, m, he, hf⟩
    · exact Or.inl ⟨n, hc⟩
    · exact Or.inr ⟨e, m, ⟨n, he⟩, hf⟩
  | emit v k ih => exact ih h
  | tx t k ih =>
    rcases h with h | ⟨x, u, ht, h⟩ | ⟨x, h⟩
    · exact Or.inl (Or.inl h)
    · rcases ih (.ok x) h with hc | ⟨e, m, he, hf⟩
      · exact Or.inl (Or.inr (Or.inl ⟨x, u, ht, hc⟩))
      · exact Or.inr ⟨e, m, Or.inl ⟨x, u, ht, he⟩, hf⟩
    · rcases ih (.error x) h with hc | ⟨e, m, he, hf⟩
      · exact Or.inl (Or.inr (Or.inr ⟨x, hc⟩))
      · exact Or.inr ⟨e, m, Or.inr ⟨x, he⟩, hf⟩

theorem passes_withTx (h : (withTx t : Call σ ω ε ev β).passes s s') :
    s' = s ∨ ∃ b, t.gives s b s' := by
  rcases h with h | ⟨b, m, ht, h⟩ | ⟨e, h⟩
  · exact Or.inl h
  · cases h
    exact Or.inr ⟨b, ht⟩
  · exact Or.inl h

/-- A sequence whose first part is a transaction. -/
theorem passes_tx_bind (h : ((withTx t).bind f).passes s s') :
    s' = s ∨ ∃ b m, t.gives s b m ∧ (f b).passes m s' := by
  rcases h with h | ⟨b, m, ht, h⟩ | ⟨e, h⟩
  · exact Or.inl h
  · exact Or.inr ⟨b, m, ht, h⟩
  · exact Or.inl h

theorem gives_handle {f : ε → Call σ ω ε ev β} (h : (c.handle f).gives s r s') :
    (∃ b, r = .ok b ∧ c.gives s (.ok b) s') ∨ ∃ e m, c.gives s (.error e) m ∧ (f e).gives m r s' := by
  induction c generalizing s with
  | pure b => exact Or.inl ⟨b, h.1, rfl, h.2⟩
  | throw e => exact Or.inr ⟨e, s, ⟨rfl, rfl⟩, h⟩
  | pick k ih =>
    obtain ⟨n, hn⟩ := h
    rcases ih n hn with ⟨b, hr, hc⟩ | ⟨e, m, he, hf⟩
    · exact Or.inl ⟨b, hr, n, hc⟩
    · exact Or.inr ⟨e, m, ⟨n, he⟩, hf⟩
  | emit v k ih => exact ih h
  | tx t k ih =>
    rcases h with ⟨x, u, ht, h⟩ | ⟨x, h⟩
    · rcases ih (.ok x) h with ⟨b, hr, hc⟩ | ⟨e, m, he, hf⟩
      · exact Or.inl ⟨b, hr, Or.inl ⟨x, u, ht, hc⟩⟩
      · exact Or.inr ⟨e, m, Or.inl ⟨x, u, ht, he⟩, hf⟩
    · rcases ih (.error x) h with ⟨b, hr, hc⟩ | ⟨e, m, he, hf⟩
      · exact Or.inl ⟨b, hr, Or.inr ⟨x, hc⟩⟩
      · exact Or.inr ⟨e, m, Or.inr ⟨x, he⟩, hf⟩

/-- **Walks**: the request leads along steps of `E`. -/
def Walks (E : σ → σ → Prop) (c : Call σ ω ε ev β) : Prop :=
  ∀ s s', c.passes s s' → ReflTransGen E s s'

namespace Walks

variable {E : σ → σ → Prop} {c : Call σ ω ε ev β}

theorem gives {r : Except ε β} (h : Walks E c) (hg : c.gives s r s') :
    ReflTransGen E s s' := h s s' (gives_passes hg)

theorem pure (b : β) : Walks E (Call.pure b : Call σ ω ε ev β) := by
  rintro s s' rfl
  exact .refl

theorem throw (e : ε) : Walks E (Call.throw e : Call σ ω ε ev β) := by
  rintro s s' rfl
  exact .refl

theorem input : Walks E (Call.input : Call σ ω ε ev ℕ) := by
  rintro s s' ⟨-, rfl⟩
  exact .refl

/-- **Sequencing.** -/
theorem bind {f : β → Call σ ω ε ev γ} (hc : Walks E c)
    (hf : ∀ b, Walks E (f b)) : Walks E (c.bind f) := by
  intro s s' h
  rcases passes_bind h with h | ⟨b, m, hb, h⟩
  · exact hc s s' h
  · exact (hc.gives hb).trans (hf b m s' h)

/-- **`try … catch`.** -/
theorem handle {f : ε → Call σ ω ε ev β} (hc : Walks E c)
    (hf : ∀ e, Walks E (f e)) : Walks E (c.handle f) := by
  intro s s' h
  rcases passes_handle h with h | ⟨e, m, he, h⟩
  · exact hc s s' h
  · exact (hc.gives he).trans (hf e m s' h)

theorem ite {p : Prop} [Decidable p] {d : Call σ ω ε ev β} (hc : Walks E c) (hd : Walks E d) :
    Walks E (if p then c else d) := by
  split
  · exact hc
  · exact hd

theorem tx {e : ε} {t : Tx σ ω ε β} (h : Confined (fun _ => true) e alone E t) :
    Walks E (withTx t : Call σ ω ε ev β) := by
  intro s s' hp
  rcases passes_withTx hp with rfl | ⟨b, ht⟩
  · exact .refl
  · exact h.gives ht

end Walks

/-- **A triple for requests**: from the store `s`, what is committed on the way meets `I`, and the answer
meets `Q`. -/
structure Keeps (I : σ → Prop) (Q : Except ε α → σ → Prop) (c : Call σ ω ε ev α) (s : σ) : Prop where
  passes : ∀ s', c.passes s s' → I s'
  gives : ∀ r s', c.gives s r s' → Q r s'

namespace Keeps

variable {I : σ → Prop} {Q : Except ε β → σ → Prop} {s : σ} {c : Call σ ω ε ev β}

theorem pure {b : β} (hI : I s) (hQ : Q (.ok b) s) :
    Keeps I Q (Call.pure b : Call σ ω ε ev β) s where
  passes := by
    rintro s' rfl
    exact hI
  gives := by
    rintro r s' ⟨rfl, rfl⟩
    exact hQ

/-- **Consequence.** -/
theorem post {Q' : Except ε β → σ → Prop} (h : Keeps I Q c s)
    (hQ : ∀ r m, Q r m → Q' r m) : Keeps I Q' c s :=
  ⟨h.passes, fun r m hr => hQ r m (h.gives r m hr)⟩

theorem weaken {I' : σ → Prop} (h : Keeps I Q c s) (hI : ∀ m, I m → I' m) : Keeps I' Q c s :=
  ⟨fun m hm => hI m (h.passes m hm), h.gives⟩

/-- **Sequencing.** -/
theorem bind {Q' : Except ε γ → σ → Prop} {f : β → Call σ ω ε ev γ} (hc : Keeps I Q c s)
    (hok : ∀ b m, Q (.ok b) m → Keeps I Q' (f b) m)
    (herr : ∀ e m, Q (.error e) m → Q' (.error e) m) : Keeps I Q' (c.bind f) s where
  passes s' h := by
    rcases passes_bind h with h | ⟨b, m, hb, h⟩
    · exact hc.passes s' h
    · exact (hok b m (hc.gives _ m hb)).passes s' h
  gives r s' h := by
    rcases gives_bind.mp h with ⟨b, m, hb, h⟩ | ⟨e, he, rfl⟩
    · exact (hok b m (hc.gives _ m hb)).gives r s' h
    · exact herr e s' (hc.gives _ s' he)

/-- A transaction; it may fail. -/
theorem tx {t : Tx σ ω ε β} (hI : I s) (hok : ∀ b s', t.gives s b s' → I s' ∧ Q (.ok b) s')
    (herr : ∀ e, Q (.error e) s) : Keeps I Q (withTx t : Call σ ω ε ev β) s where
  passes s' h := by
    rcases passes_withTx h with rfl | ⟨b, hb⟩
    · exact hI
    · exact (hok b s' hb).1
  gives r s' h := by
    rcases gives_withTx.mp h with ⟨b, rfl, hb⟩ | ⟨e, rfl, rfl⟩
    · exact (hok b s' hb).2
    · exact herr e

/-- A transaction, by what it has done when it returns. -/
theorem did {t : Tx σ ω ε β} {R : β → σ → σ → Prop} {exc : ε → σ → Prop} (hI : I s)
    (h : Tx.wp alone (fun _ => True) (fun b => Did alone (R b)) exc t [] s)
    (hok : ∀ b s', R b s s' → I s' ∧ Q (.ok b) s') (herr : ∀ e, Q (.error e) s) :
    Keeps I Q (withTx t : Call σ ω ε ev β) s :=
  .tx hI (fun b s' hg => hok b s' (Tx.gives_did trivial h hg)) herr

/-- A request of whose steps enough is known. -/
theorem walks {E : σ → σ → Prop} (h : Walks E c) (hI : ∀ s', ReflTransGen E s s' → I s') :
    Keeps I (fun r s' => c.gives s r s' ∧ ReflTransGen E s s') c s :=
  ⟨fun s' hp => hI s' (h s s' hp), fun _ _ hg => ⟨hg, h.gives hg⟩⟩

end Keeps

end Call

/-! ## Soundness -/

section

variable [Faulty ε]

/-- What a session may come to, from the committed store `s`. -/
def Session.gives (s : σ) : Session σ ω ε ev α → Except ε α → σ → Prop
  | .new c, r, s' => c.gives s r s'
  | .idle c, r, s' => c.gives s r s'
  | .inTx ws t k, r, s' => (∃ b m, t.gives (view ws s) b m ∧ (k (.ok b)).gives m r s') ∨
      ∃ e, (k (.error e)).gives s r s'
  | .done, _, _ => False

/-- The committed stores a session comes by, from the committed store `s`. -/
def Session.passes (s : σ) : Session σ ω ε ev α → σ → Prop
  | .new c, s' => c.passes s s'
  | .idle c, s' => c.passes s s'
  | .inTx ws t k, s' => s' = s ∨ (∃ b m, t.gives (view ws s) b m ∧ (k (.ok b)).passes m s') ∨
      ∃ e, (k (.error e)).passes s s'
  | .done, s' => s' = s

omit [Faulty ε] in
theorem Session.passes_here (s : σ) (ss : Session σ ω ε ev α) : ss.passes s s := by
  cases ss with
  | new c => exact Call.passes_here c
  | idle c => exact Call.passes_here c
  | inTx ws t k => exact Or.inl rfl
  | done => rfl

/-- What a session may still do after a move, it could do before; and what it answers. -/
structure Session.Follows (ss : Session σ ω ε ev α) (s : σ) (ss' : Session σ ω ε ev α) (s' : σ)
    (es : List (Entry σ ε ev α)) : Prop where
  gives : ∀ r u, ss'.gives s' r u → ss.gives s r u
  passes : ∀ u, ss'.passes s' u → ss.passes s u
  answers : ∀ r, .answer r ∈ es → ss.gives s r s'

omit [Faulty ε] in
/-- A move within a transaction. -/
theorem Session.Follows.of_body {ws ws' : List ω} {t t' : Tx σ ω ε β}
    {k : Except ε β → Call σ ω ε ev α}
    (h : ∀ b v, t'.gives (view ws' s) b v → t.gives (view ws s) b v) :
    (Session.inTx ws t k).Follows s (.inTx ws' t' k) s [] where
  gives := by
    rintro r u (⟨b, v, ht, hk⟩ | he)
    · exact Or.inl ⟨b, v, h b v ht, hk⟩
    · exact Or.inr he
  passes := by
    rintro u (hu | ⟨b, v, ht, hk⟩ | he)
    · exact Or.inl hu
    · exact Or.inr (Or.inl ⟨b, v, h b v ht, hk⟩)
    · exact Or.inr (Or.inr he)
  answers _ hr := absurd hr List.not_mem_nil

/-- **One move** of a session. -/
theorem Session.follows_advance {s' : σ} {ss ss' : Session σ ω ε ev α} {m : Move ε}
    {es : List (Entry σ ε ev α)} (h : ss.advance s m = some (ss', s', es)) :
    ss.Follows s ss' s' es := by
  cases m with
  | crash =>
    have hdone : ss' = .done ∧ s' = s ∧ es = [] := by
      cases ss <;> cases h <;> exact ⟨rfl, rfl, rfl⟩
    obtain ⟨rfl, rfl, rfl⟩ := hdone
    exact ⟨fun _ _ hf => hf.elim, fun _ hu => hu ▸ ss.passes_here s', by simp⟩
  | fail e =>
    cases ss with
    | inTx ws t k =>
      simp only [Session.advance] at h
      split at h
      · cases h
        exact ⟨fun r u hr => Or.inr ⟨e, hr⟩, fun u hu => Or.inr (Or.inr ⟨e, hu⟩), by simp⟩
      · cases h
    | _ => cases h
  | go n =>
    cases ss with
    | new c =>
      cases h
      exact ⟨fun _ _ hr => hr, fun _ hu => hu, by simp⟩
    | done => cases h
    | idle c =>
      cases c with
      | pure a =>
        cases h
        refine ⟨fun _ _ hf => hf.elim, fun _ hu => hu, fun r hr => ?_⟩
        cases List.mem_singleton.mp hr
        exact ⟨rfl, rfl⟩
      | throw e =>
        cases h
        refine ⟨fun _ _ hf => hf.elim, fun _ hu => hu, fun r hr => ?_⟩
        cases List.mem_singleton.mp hr
        exact ⟨rfl, rfl⟩
      | pick k =>
        cases h
        exact ⟨fun _ _ hr => ⟨n, hr⟩, fun _ hu => ⟨n, hu⟩, by simp⟩
      | emit v k =>
        cases h
        exact ⟨fun _ _ hr => hr, fun _ hu => hu, by simp⟩
      | tx t k =>
        cases h
        exact ⟨fun _ _ hr => hr, fun _ hu => hu, by simp⟩
    | inTx ws t k =>
      cases t with
      | pure b =>
        cases h
        exact ⟨fun _ _ hr => Or.inl ⟨b, _, ⟨rfl, rfl⟩, hr⟩,
          fun _ hu => Or.inr (Or.inl ⟨b, _, ⟨rfl, rfl⟩, hu⟩), by simp⟩
      | throw e =>
        cases h
        exact ⟨fun _ _ hr => Or.inr ⟨e, hr⟩, fun _ hu => Or.inr (Or.inr ⟨e, hu⟩), by simp⟩
      | pick t =>
        cases h
        exact .of_body (fun _ _ ht => ⟨n, ht⟩)
      | clock t =>
        cases h
        exact .of_body (fun _ _ ht => ⟨n, ht⟩)
      | stmt q t =>
        simp only [Session.advance, Session.next] at h
        split at h
        · rename_i e hq
          cases h
          exact ⟨fun _ _ hr => Or.inr ⟨e, hr⟩, fun _ hu => Or.inr (Or.inr ⟨e, hu⟩), by simp⟩
        · rename_i c ws' hq
          cases h
          exact .of_body fun _ _ ht => ⟨c, ws', hq, by rwa [← view_append]⟩

variable [DecidableEq ι] {P : Config σ ω ε ev α → ℕ → Prop} {s : σ} {c : Call σ ω ε ev α}
  {d : Config σ ω ε ev α}

/-- **Soundness.** A request that has the server for itself comes by what it passes, and to what it
gives. -/
theorem reach_gives (h : Reach P (Config.init s [c]) d) :
    c.passes s d.db ∧ ∀ r, .answer r ∈ d.histOf 0 → c.gives s r d.db := by
  have hinv : ∃ ss, d.sess = [ss] ∧ (∀ r s', ss.gives d.db r s' → c.gives s r s') ∧
      (∀ s', ss.passes d.db s' → c.passes s s') ∧
      ∀ r, .answer r ∈ d.histOf 0 → c.gives s r d.db ∧ ss = .done := by
    induction h with
    | refl => exact ⟨.new c, rfl, fun _ _ hr => hr, fun _ hu => hu, nofun⟩
    | @tail d d' i m hd _ hstep ih =>
      obtain ⟨ss, hss, hg, hp, ha⟩ := ih
      unfold Config.step at hstep
      rw [hss] at hstep
      split at hstep
      · cases hstep
      · rename_i ss0 hi
        have h0 : i = 0 ∧ ss0 = ss := by
          cases i with
          | zero => exact ⟨rfl, (Option.some.inj hi).symm⟩
          | succ i => simp at hi
        obtain ⟨rfl, rfl⟩ := h0
        split at hstep
        · cases hstep
        · rename_i ss' db' es hadv
          split at hstep
          · cases hstep
            have hf := Session.follows_advance hadv
            refine ⟨ss', rfl, fun r u hr => hg r u (hf.gives r u hr), fun u hu => hp u (hf.passes u hu),
              fun r hr => ?_⟩
            rw [Config.histOf_append, if_pos rfl, List.mem_append] at hr
            rcases hr with hr | hr
            · have hdone := (ha r hr).2
              subst hdone
              cases m <;> cases hadv
            · obtain ⟨-, rfl, -⟩ := Session.advance_answers hadv hr
              exact ⟨hg r _ (hf.answers r hr), rfl⟩
          · cases hstep
  obtain ⟨ss, -, -, hp, ha⟩ := hinv
  exact ⟨hp _ (ss.passes_here d.db), fun r hr => (ha r hr).1⟩

end

/-! ## Errors of statements -/

namespace Rel

variable {κ : Type} {ρ : κ → Type} {L υ : Type} [DecidableEq κ] [DecidableEq υ]
  [Keyed ρ L υ] {X : ε → Prop} {miss dup : ε} {k : κ} {id : ℕ}

omit [DecidableEq κ] in
theorem throws_insert {r : ρ k} (hdup : X dup) : (Rel.insert (L := L) dup k id r).Throws X :=
  Tx.throws_exec fun s e h => by
    split at h
    · cases h
      exact hdup
    · cases h

omit [DecidableEq κ] in
theorem throws_insertLog {l : L} (hdup : X dup) :
    (Rel.insertLog (ρ := ρ) dup l).Throws X :=
  Tx.throws_exec fun s e h => by
    split at h
    · cases h
      exact hdup
    · cases h

omit [DecidableEq κ] in
theorem throws_modify {f : ρ k → Except ε (ρ k)} (hmiss : X miss) (hdup : X dup)
    (hf : ∀ r e, f r = .error e → X e) : (Rel.modify (L := L) miss dup k id f).Throws X :=
  Tx.throws_exec fun s e h => by
    split at h
    · cases h
      exact hmiss
    · split at h
      · rename_i he
        cases h
        exact hf _ _ he
      · split at h
        · cases h
          exact hdup
        · cases h

end Rel

end PatronLoyalty.Txn
