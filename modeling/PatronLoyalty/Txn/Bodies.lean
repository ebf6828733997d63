import PatronLoyalty.Txn.Counting
import PatronLoyalty.Txn.Guarded
import PatronLoyalty.Txn.OneShot

/-!
# Hoare triples for transaction bodies

`Triple G P t Q`: a transaction body `t` that starts having done `P` has done `Q b` when it returns `b`,
whatever the others do in between (`Did`). The rules follow the statements; a body may be guarded
(`Tx.guard`), and then a write comes with the check it has passed.

`Confined G E t` says that the body changes the store in steps of `E` alone, whatever it has done
before. It is what a caller needs of a part whose result does not matter, and it is closed under
sequencing.

At the level of requests, `Calm` says that every commit of the guarded request respects the guarantee.
Headline: **`reach_calm`**, the commits of a run of calm requests, whose statements pass their checks,
respect it.

A row that a body locks (`Rel.lock`, `Rel.lockNth`) is replaced by itself: from then on it is what the
body has read.
-/

namespace PatronLoyalty.Txn

open Relation

variable {σ ω ι ε ev α β γ : Type}

/-! ## Triples -/

section Triple

variable [Store σ ω ι] {C : ω → Bool} {e : ε} {G : Guarantee σ}

/-- **A Hoare triple** for the guarded body. -/
def Triple (C : ω → Bool) (e : ε) (G : Guarantee σ) (P : σ → σ → Prop) (t : Tx σ ω ε β)
    (Q : β → σ → σ → Prop) : Prop :=
  ∀ A ws s, Did G P ws s → Tx.wp G A (fun b => Did G (Q b)) (fun _ _ => True) (t.guard C e) ws s

/-- A statement, where it returns. -/
theorem wp_guard_exec {A : σ → Prop} {post : β → List ω → σ → Prop}
    {q : σ → Except ε (β × List ω)} {ws : List ω} {s : σ}
    (h : ∀ s' b ws', Stable G ws s s' → q (view ws s') = .ok (b, ws') →
      (∀ w ∈ ws', C w = true) → post b (ws ++ ws') s') :
    Tx.wp G A post (fun _ _ => True) ((Tx.exec q).guard C e) ws s := by
  show ∀ s', Stable G ws s s' → A s' → _
  intro s' hs _
  cases hq : Tx.guardStmt C e q (view ws s') with
  | error e' => trivial
  | ok r =>
    obtain ⟨hq', hC⟩ := Tx.guardStmt_eq_ok hq
    exact h s' r.1 r.2 hs hq' hC

namespace Triple

variable {P P' : σ → σ → Prop} {Q Q' : β → σ → σ → Prop} {t : Tx σ ω ε β} {f : σ → β}

/-- **Consequence.** -/
theorem mono (h : Triple C e G P t Q) (hP : ∀ a b, P' a b → P a b)
    (hQ : ∀ r a b, Q r a b → Q' r a b) : Triple C e G P' t Q' := fun A ws s hd =>
  Tx.wp_mono (fun r _ _ hr => hr.mono (hQ r)) (fun _ _ _ => trivial) (h A ws s (hd.mono hP))

theorem pre (h : Triple C e G P t Q) (hP : ∀ a b, P' a b → P a b) : Triple C e G P' t Q :=
  h.mono hP fun _ _ _ hr => hr

theorem post (h : Triple C e G P t Q) (hQ : ∀ r a b, Q r a b → Q' r a b) :
    Triple C e G P t Q' := h.mono (fun _ _ hp => hp) hQ

/-- **Conjunction.** -/
theorem both (h : Triple C e G P t Q) (h' : Triple C e G P t Q') :
    Triple C e G P t fun r a b => Q r a b ∧ Q' r a b := fun A ws s hd =>
  Tx.wp_mono (fun _ _ _ hr s' hs => ⟨hr.1 s' hs, hr.2 s' hs⟩) (fun _ _ _ => trivial)
    (Tx.wp_and (h A ws s hd) (h' A ws s hd))

/-- What is known of the values may be assumed. -/
theorem fact {p : Prop} (h : p → Triple C e G P t Q) :
    Triple C e G (fun a b => p ∧ P a b) t Q := fun A ws s hd =>
  h hd.here.1 A ws s (hd.mono fun _ _ hp => hp.2)

theorem pure {b : β} (h : ∀ a c, P a c → Q b a c) :
    Triple C e G P (Tx.pure b : Tx σ ω ε β) Q := fun _ _ _ hd => hd.mono h

theorem throw {e' : ε} : Triple C e G P (Tx.throw e' : Tx σ ω ε β) Q := fun _ _ _ _ => trivial

/-- **Sequencing.** -/
theorem bind {R : γ → σ → σ → Prop} {f : β → Tx σ ω ε γ} (ht : Triple C e G P t Q)
    (hf : ∀ b, Triple C e G (Q b) (f b) R) : Triple C e G P (t.bind f) R := by
  intro A ws s hd
  rw [Tx.guard_bind, Tx.wp_bind]
  exact Tx.wp_mono (fun b ws' s' hb => hf b A ws' s' hb) (fun _ _ _ => trivial) (ht A ws s hd)

theorem pick {k : ℕ → Tx σ ω ε β} (h : ∀ n, Triple C e G P (k n) Q) :
    Triple C e G P (Tx.pick k) Q := fun A ws s hd n => h n A ws s hd

theorem clock {k : ℕ → Tx σ ω ε β} (h : ∀ n, Triple C e G P (k n) Q) :
    Triple C e G P (Tx.clock k) Q := fun A ws s hd n => h n A ws s hd

theorem exec {q : σ → Except ε (β × List ω)}
    (h : ∀ ws s b ws', Did G P ws s → q (view ws s) = .ok (b, ws') →
      (∀ w ∈ ws', C w = true) → Did G (Q b) (ws ++ ws') s) :
    Triple C e G P (Tx.exec q) Q := fun _ ws _ hd =>
  wp_guard_exec fun s' b ws' hs hq hC => h ws s' b ws' (hd.stable hs) hq hC

theorem read (h : ∀ s a b, P a b → Q (f s) a b) :
    Triple C e G P (Tx.read f) Q := by
  refine exec fun ws s b ws' hd hq _ => ?_
  cases hq
  rw [List.append_nil]
  exact hd.mono (h _)

theorem readFact {F : β → σ → Prop} (hF : ∀ b, G.Keeps (F b))
    (h : ∀ a c, P a c → F (f c) a) : Triple C e G P (Tx.read f) fun b a c => F b a ∧ P a c := by
  refine exec fun ws s b ws' hd hq _ => ?_
  cases hq
  rw [List.append_nil]
  exact fun s' hs => ⟨hF _ s s' hs.1 (h s _ hd.here), hd s' hs⟩

theorem readFirst {F : β → σ → Prop} (hF : ∀ b, G.Keeps (F b)) (h : ∀ s, F (f s) s) :
    Triple C e G Eq (Tx.read f) fun b a c => F b a ∧ a = c :=
  readFact hF fun a _ hac => hac ▸ h a

theorem readOrThrow {e' : ε} {f : σ → Option β} (h : ∀ s b a c, f s = some b → P a c → Q b a c) :
    Triple C e G P (Tx.readOrThrow e' f) Q := by
  refine exec fun ws s b ws' hd hq _ => ?_
  split at hq
  · rename_i b' hb
    cases hq
    rw [List.append_nil]
    exact hd.mono fun a c hac => h _ b a c hb hac
  · cases hq

theorem findFirst {rows : σ → List β} {Q : Option β → σ → σ → Prop}
    (h : ∀ o a b, (∀ r, o = some r → ∃ s, r ∈ rows s) → P a b → Q o a b) :
    Triple C e G P (Tx.findFirst rows) Q :=
  pick fun _ => read fun s _ _ hp => h _ _ _ (fun _ hr => ⟨s, List.mem_of_getElem? hr⟩) hp

theorem input {Q : ℕ → σ → σ → Prop} (h : ∀ n a b, P a b → Q n a b) :
    Triple C e G P (Tx.input : Tx σ ω ε ℕ) Q := pick fun n => pure (h n)

theorem now {Q : ℕ → σ → σ → Prop} (h : ∀ n a b, P a b → Q n a b) :
    Triple C e G P (Tx.now : Tx σ ω ε ℕ) Q := clock fun n => pure (h n)

/-- What a body throws does not matter. -/
theorem mapError {f : ε → ε} (h : Triple C e G P t Q) : Triple C e G P (t.mapError f) Q := by
  intro A ws s hd
  have hw := h A ws s hd
  clear h hd
  induction t generalizing ws s with
  | pure b => exact hw
  | throw e' => trivial
  | pick k ih => exact fun n => ih n ws s (hw n)
  | clock k ih => exact fun n => ih n ws s (hw n)
  | stmt q k ih =>
    intro s' hs hA
    have hq := hw s' hs hA
    cases hqs : q (view ws s') with
    | error e' =>
      have hf : Tx.guardStmt C e (fun x => (q x).mapError f) (view ws s') = .error (f e') :=
        Tx.guardStmt_error (by rw [hqs]; rfl)
      rw [hf]
      trivial
    | ok r =>
      by_cases hC : ∀ w ∈ r.2, C w = true
      · rw [Tx.guardStmt_ok (b := r.1) hqs hC] at hq
        rw [Tx.guardStmt_ok (b := r.1) (by rw [hqs]; rfl) hC]
        exact ih r.1 _ s' hq
      · cases hg : Tx.guardStmt C e (fun x => (q x).mapError f) (view ws s') with
        | error e' => trivial
        | ok r' =>
          obtain ⟨hm, hC'⟩ := Tx.guardStmt_eq_ok hg
          rw [hqs] at hm
          cases hm
          exact absurd hC' hC

theorem wp_start (h : Triple C e G Eq t Q) (A : σ → Prop) (s : σ) :
    Tx.wp G A (fun b => Did G (Q b)) (fun _ _ => True) (t.guard C e) [] s := h A [] s did_start

/-- The same, of a body without a check. -/
theorem wp_free (h : Triple (fun _ => true) e G Eq t Q) (A : σ → Prop) (s : σ) :
    Tx.wp G A (fun b => Did G (Q b)) (fun _ _ => True) t [] s := by
  have hw := h.wp_start A s
  rwa [Tx.guard_true] at hw

end Triple

/-! ## Confined bodies -/

/-- **Confined**: the guarded body changes the store in steps of `E` alone. -/
def Confined (C : ω → Bool) (e : ε) (G : Guarantee σ) (E : σ → σ → Prop) (t : Tx σ ω ε β) : Prop :=
  ∀ P, Triple C e G P t fun _ => Comp P (ReflTransGen E)

theorem comp_steps {P E : σ → σ → Prop} {a c : σ}
    (h : Comp (Comp P (ReflTransGen E)) (ReflTransGen E) a c) : Comp P (ReflTransGen E) a c := by
  obtain ⟨b, ⟨b', hp, h1⟩, h2⟩ := h
  exact ⟨b', hp, h1.trans h2⟩

theorem comp_none {P E : σ → σ → Prop} {a b : σ} (h : P a b) : Comp P (ReflTransGen E) a b :=
  ⟨b, h, .refl⟩

namespace Confined

variable {E E' : σ → σ → Prop} {t : Tx σ ω ε β} {P : σ → σ → Prop}

theorem mono (h : Confined C e G E t) (hE : ∀ a b, E a b → E' a b) : Confined C e G E' t :=
  fun P => (h P).post fun _ _ _ ⟨b, hp, hs⟩ => ⟨b, hp, ReflTransGen.mono hE _ _ hs⟩

theorem beside {Q : β → σ → σ → Prop} (h : Confined C e G E t) (ht : Triple C e G Eq t Q) :
    Triple C e G Eq t fun r a b => ReflTransGen E a b ∧ Q r a b :=
  ((h Eq).both ht).post fun _ _ _ ⟨⟨_, hab, hs⟩, hq⟩ => ⟨hab ▸ hs, hq⟩

theorem triple {Q : β → σ → σ → Prop} (h : Confined C e G E t)
    (hQ : ∀ r a b c, P a b → ReflTransGen E b c → Q r a c) : Triple C e G P t Q :=
  (h P).post fun r a _ ⟨b, hp, hs⟩ => hQ r a b _ hp hs

theorem keeps (h : Confined C e G E t)
    (hE : ∀ a b c, E b c → P a b → P a c) : Triple C e G P t fun _ => P :=
  h.triple fun _ a b c hp hs => by
    induction hs with
    | refl => exact hp
    | tail _ hstep ih => exact hE a _ _ hstep ih

/-- A body that only reads keeps what is known. -/
theorem still (h : Confined C e G (fun _ _ => False) t) :
    Triple C e G P t fun _ => P := h.keeps fun _ _ _ hf => hf.elim

theorem pure (b : β) : Confined C e G E (Tx.pure b : Tx σ ω ε β) :=
  fun _ => Triple.pure fun _ _ => comp_none

theorem throw (e' : ε) : Confined C e G E (Tx.throw e' : Tx σ ω ε β) := fun _ => Triple.throw

theorem pick {k : ℕ → Tx σ ω ε β} (h : ∀ n, Confined C e G E (k n)) :
    Confined C e G E (Tx.pick k) := fun P => Triple.pick fun n => h n P

theorem ite {p : Prop} [Decidable p] {t' : Tx σ ω ε β} (h : Confined C e G E t)
    (h' : Confined C e G E t') : Confined C e G E (if p then t else t') := by
  split
  · exact h
  · exact h'

/-- **Sequencing.** -/
theorem bind {f : β → Tx σ ω ε γ} (ht : Confined C e G E t) (hf : ∀ b, Confined C e G E (f b)) :
    Confined C e G E (t.bind f) := fun P =>
  (ht P).bind fun b => (hf b _).post fun _ _ _ => comp_steps

theorem mapError {f : ε → ε} (h : Confined C e G E t) : Confined C e G E (t.mapError f) :=
  fun P => (h P).mapError

theorem read (f : σ → β) : Confined C e G E (Tx.read f : Tx σ ω ε β) :=
  fun _ => Triple.read fun _ _ _ => comp_none

theorem readOrThrow (e' : ε) (f : σ → Option β) :
    Confined C e G E (Tx.readOrThrow e' f : Tx σ ω ε β) :=
  fun _ => Triple.readOrThrow fun _ _ _ _ _ => comp_none

theorem findFirst (rows : σ → List β) :
    Confined C e G E (Tx.findFirst rows : Tx σ ω ε (Option β)) :=
  fun _ => Triple.findFirst fun _ _ _ _ => comp_none

theorem input : Confined C e G E (Tx.input : Tx σ ω ε ℕ) :=
  fun _ => Triple.input fun _ _ _ => comp_none

theorem now : Confined C e G E (Tx.now : Tx σ ω ε ℕ) := fun _ => Triple.now fun _ _ _ => comp_none

end Confined

end Triple

/-! ## Statements over relational stores -/

namespace Rel

variable {κ : Type} {ρ : κ → Type} {L υ : Type} [DecidableEq κ] [DecidableEq υ]
  [∀ k, DecidableEq (ρ k)] [Keyed ρ L υ]

/-- `SELECT … WHERE id = … AND p FOR UPDATE`: the row is locked as it is. -/
def lock (k : κ) (id : ℕ) (p : ρ k → Bool) : Tx (Rel ρ L) (Write ρ L) ε (Option (ρ k)) :=
  .exec fun s =>
    match (s.get k id).filter p with
    | none => .ok (none, [])
    | some r => .ok (some r, [.put k id (some r) r])

/-- `SELECT … FOR UPDATE SKIP LOCKED LIMIT 1`: the first `n` rows of the query are passed over, the
next one is locked as it is. -/
def lockNth (k : κ) (rows : Rel ρ L → List (ℕ × ρ k)) (n : ℕ) :
    Tx (Rel ρ L) (Write ρ L) ε (Option (ℕ × ρ k)) :=
  .exec fun s =>
    match (rows s)[n]? with
    | none => .ok (none, [])
    | some r => .ok (some r, [.put k r.1 (some r.2) r.2])

/-- `UPDATE … WHERE p`: all rows that match. Answers their number. -/
def modifyAll (dup : ε) (k : κ) (p : ℕ → ρ k → Bool) (f : ρ k → ρ k) :
    Tx (Rel ρ L) (Write ρ L) ε ℕ :=
  .exec fun s =>
    let rows := s.rows k p
    if rows.any fun r => s.clashes k (some r.2) (f r.2) then .error dup
    else .ok (rows.length, rows.map fun r => .put k r.1 (some r.2) (f r.2))

/-- A step that changes one row. -/
def Wrote (C : Write ρ L → Bool) (k : κ) (id : ℕ) (old : Option (ρ k)) (new : ρ k)
    (a b : Rel ρ L) : Prop :=
  C (.put k id old new) = true ∧ Replaced k id old new a b

omit [∀ k, DecidableEq (ρ k)] in
theorem Wrote.row {C : Write ρ L → Bool} {k : κ} {id id' : ℕ} {old : Option (ρ k)} {new r : ρ k}
    {a b : Rel ρ L} (h : Wrote C k id old new a b) (hr : a.get k id' = some r) :
    id' = id ∧ old = some r ∧ b.get k id' = some new ∨ b.get k id' = some r := by
  by_cases hid : id' = id
  · subst hid
    exact Or.inl ⟨rfl, h.2.get_old.symm.trans hr, h.2.get_self⟩
  · exact Or.inr ((h.2.get_ne (by simpa using hid)).trans hr)

end Rel

section Statements

open Txn.Rel

variable {κ : Type} {ρ : κ → Type} {L υ : Type} [DecidableEq κ] [DecidableEq υ]
  [∀ k, DecidableEq (ρ k)] [Keyed ρ L υ] {k : κ} {s : Rel ρ L}

variable {C : Write ρ L → Bool} {e : ε} {G : Guarantee (Rel ρ L)} {P : Rel ρ L → Rel ρ L → Prop}

namespace Triple

variable {k : κ} {id : ℕ}

theorem insert {Q : Unit → Rel ρ L → Rel ρ L → Prop} {dup : ε} {r : ρ k}
    (h : ∀ a b c, P a b → Wrote C k id none r b c → Q () a c) :
    Triple C e G P (Rel.insert dup k id r) Q := by
  refine exec fun ws s b ws' hd hq hC => ?_
  split at hq
  · cases hq
  · rename_i hc
    cases hq
    rw [Bool.or_eq_true, not_or, Bool.not_eq_true, Bool.not_eq_true, Option.isSome_eq_false_iff,
      Option.isNone_iff_eq_none] at hc
    have hC' := hC _ List.mem_cons_self
    refine (Did.put hd hc.1 hc.2).mono ?_
    rintro a c ⟨m, hp, hr⟩
    exact h a m c hp ⟨hC', hr⟩

theorem modify {Q : ρ k → Rel ρ L → Rel ρ L → Prop} {miss dup : ε} {f : ρ k → Except ε (ρ k)}
    (h : ∀ r r' a b c, P a b → f r = .ok r' → Wrote C k id (some r) r' b c → Q r' a c) :
    Triple C e G P (Rel.modify miss dup k id f) Q := by
  refine exec fun ws s b ws' hd hq hC => ?_
  split at hq
  · cases hq
  · rename_i r hr
    split at hq
    · cases hq
    · rename_i r' hf
      split at hq
      · cases hq
      · rename_i hc
        cases hq
        have hC' := hC _ List.mem_cons_self
        refine (Did.put hd hr (Bool.eq_false_iff.mpr hc)).mono ?_
        rintro a c ⟨m, hp, hw⟩
        exact h r _ a m c hp hf ⟨hC', hw⟩

theorem lock {Q : Option (ρ k) → Rel ρ L → Rel ρ L → Prop} {p : ρ k → Bool}
    (h : ∀ r a b c, P a b → p r = true → Wrote C k id (some r) r b c → Q (some r) a c)
    (h0 : ∀ a b, P a b → Q none a b) : Triple C e G P (Rel.lock k id p) Q := by
  refine exec fun ws s b ws' hd hq hC => ?_
  split at hq
  · cases hq
    rw [List.append_nil]
    exact hd.mono h0
  · rename_i r hr
    cases hq
    obtain ⟨hg, hp⟩ := Option.filter_eq_some_iff.mp hr
    have hC' := hC _ List.mem_cons_self
    refine (Did.put hd hg (clashes_of_keys_eq rfl)).mono ?_
    rintro a c ⟨m, hm, hw⟩
    exact h r a m c hm hp ⟨hC', hw⟩

theorem lockNth {Q : Option (ℕ × ρ k) → Rel ρ L → Rel ρ L → Prop}
    {rows : Rel ρ L → List (ℕ × ρ k)} {n : ℕ}
    (hrows : ∀ s r, r ∈ rows s → s.get k r.1 = some r.2)
    (h : ∀ s r a b c, P a b → r ∈ rows s → Wrote C k r.1 (some r.2) r.2 b c → Q (some r) a c)
    (h0 : ∀ a b, P a b → Q none a b) : Triple C e G P (Rel.lockNth k rows n) Q := by
  refine exec fun ws s b ws' hd hq hC => ?_
  split at hq
  · cases hq
    rw [List.append_nil]
    exact hd.mono h0
  · rename_i r hr
    cases hq
    have hm := List.mem_of_getElem? hr
    have hC' := hC _ List.mem_cons_self
    exact (Did.put hd (hrows _ r hm) (clashes_of_keys_eq rfl)).mono fun a c ⟨m, hp, hw⟩ =>
      h _ r a m c hp hm ⟨hC', hw⟩

end Triple

variable {f : ρ k → ρ k}

/-- `c` is `b` with the rows of table `k` replaced by what `f` makes of them. -/
structure Overwrote (k : κ) (f : ρ k → ρ k) (rows : List (ℕ × ρ k)) (b c : Rel ρ L) : Prop where
  mem {r : ℕ × ρ k} : r ∈ rows → b.get k r.1 = some r.2 ∧ c.get k r.1 = some (f r.2)
  frame {k' : κ} {id' : ℕ} : (∀ r ∈ rows, (k', id') ≠ (k, r.1)) → c.get k' id' = b.get k' id'

variable {p : ℕ → ρ k → Bool}

omit [Keyed ρ L υ] [DecidableEq υ] [DecidableEq κ] [∀ k, DecidableEq (ρ k)] in
theorem Overwrote.get {b c : Rel ρ L} (h : Overwrote k f (b.rows k p) b c) (i : ℕ) :
    c.get k i = (b.get k i).map fun r => if p i r then f r else r := by
  cases hi : b.get k i with
  | none =>
    refine (h.frame fun r hr he => ?_).trans hi
    have hrow := (h.mem hr).1
    rw [← (Prod.mk.inj he).2, hi] at hrow
    cases hrow
  | some r =>
    by_cases hp : p i r = true
    · simpa [hp] using (h.mem (mem_rows.mpr ⟨hi, hp⟩)).2
    · have hne : ∀ x ∈ b.rows k p, (k, i) ≠ (k, x.1) := by
        intro x hx he
        obtain ⟨hx, hpx⟩ := mem_rows.mp hx
        rw [← (Prod.mk.inj he).2, hi] at hx
        obtain rfl := Option.some.inj hx
        rw [(Prod.mk.inj he).2] at hp
        exact hp hpx
      simpa [hp] using (h.frame hne).trans hi

/-- Several rows of a table, each with its own key, are replaced in one statement, by steps of `E`. -/
theorem Did.putAll {R E : Rel ρ L → Rel ρ L → Prop} {rows : List (ℕ × ρ k)} {ws : List (Write ρ L)}
    (hE : ∀ r ∈ rows, ∀ a b, Replaced k r.1 (some r.2) (f r.2) a b → E a b)
    (hn : (rows.map (·.1)).Nodup) (hg : ∀ r ∈ rows, (view ws s).get k r.1 = some r.2)
    (hk : ∀ r ∈ rows, Keyed.keys L k (f r.2) ⊆ Keyed.keys L k r.2) (h : Did G R ws s) :
    Did G (Comp R fun a b => ReflTransGen E a b ∧ Overwrote k f rows a b)
      (ws ++ rows.map fun r => .put k r.1 (some r.2) (f r.2)) s := by
  induction rows generalizing ws R with
  | nil =>
    rw [List.map_nil, List.append_nil]
    exact h.mono fun _ b hab => ⟨b, hab, .refl, nofun, fun _ => rfl⟩
  | cons r rows ih =>
    have hr := hg r List.mem_cons_self
    have hd := Did.put h hr (clashes_of_keys_subset (hk r List.mem_cons_self))
    have hv : view (ws ++ [Write.put k r.1 (some r.2) (f r.2)]) s =
        (view ws s).set k r.1 (f r.2) := by
      rw [view_append]
      exact put_eq hr
    rw [List.map_cons, List.nodup_cons] at hn
    have hne : ∀ r' ∈ rows, (k, r'.1) ≠ (k, r.1) := fun r' hr' he => hn.1 (by
      rw [← (Prod.mk.inj he).2]
      exact List.mem_map_of_mem hr')
    rw [List.map_cons, List.append_cons]
    refine (ih (fun r' hr' => hE r' (List.mem_cons_of_mem _ hr')) hn.2 (fun r' hr' => ?_)
      (fun r' hr' => hk r' (List.mem_cons_of_mem _ hr')) hd).mono ?_
    · rw [hv, get_set_ne (hne r' hr')]
      exact hg r' (List.mem_cons_of_mem _ hr')
    · rintro a c ⟨m, ⟨b, hab, hw⟩, hs, ho⟩
      refine ⟨b, hab, .head (hE r List.mem_cons_self _ _ hw) hs, fun {r'} hr' => ?_,
        fun {k' id'} hf => ?_⟩
      · rcases List.mem_cons.mp hr' with rfl | hr'
        · refine ⟨hw.get_old, ?_⟩
          rw [ho.frame fun q hq => (hne q hq).symm]
          exact hw.get_self
        · obtain ⟨hm, hc⟩ := ho.mem hr'
          exact ⟨(hw.get_ne (hne r' hr')).symm.trans hm, hc⟩
      · rw [ho.frame fun q hq => hf q (List.mem_cons_of_mem _ hq)]
        exact hw.get_ne (hf r List.mem_cons_self)

theorem Did.overwrite {R : Rel ρ L → Rel ρ L → Prop} {p : ℕ → ρ k → Bool} {m : Rel ρ L}
    {ws : List (Write ρ L)} (hg : ∀ r ∈ m.rows k p, (view ws s).get k r.1 = some r.2)
    (hk : ∀ r, Keyed.keys L k (f r) ⊆ Keyed.keys L k r) (h : Did G R ws s) :
    Did G (Comp R (Overwrote k f (m.rows k p)))
      (ws ++ (m.rows k p).map fun r => .put k r.1 (some r.2) (f r.2)) s :=
  (Did.putAll (E := fun _ _ => True) (fun _ _ _ _ _ => trivial) (Rel.nodup_ids _ k p) hg
    (fun r _ => hk r.2) h).mono fun _ _ ⟨b, hab, _, ho⟩ => ⟨b, hab, ho⟩

/-- `UPDATE … WHERE p` as the first statement: the rows it finds it replaces. -/
theorem Tx.wp_modifyAll {A : Rel ρ L → Prop} {post : ℕ → List (Write ρ L) → Rel ρ L → Prop}
    {exc : ε → Rel ρ L → Prop} {dup : ε} (hk : ∀ r, Keyed.keys L k (f r) ⊆ Keyed.keys L k r)
    (hexc : ∀ s', A s' → exc dup s') (h : ∀ s' ws, A s' →
      (∀ s'', Stable G ws s' s'' → Overwrote k f (s'.rows k p) s'' (view ws s'')) →
        post (s'.rows k p).length ws s') :
    Tx.wp G A post exc (Rel.modifyAll dup k p f) [] s := by
  intro s' _ hA
  simp only [view_nil]
  by_cases hc : ((s'.rows k p).any fun r => s'.clashes k (some r.2) (f r.2)) = true
  · simp only [hc, if_true]
    exact hexc s' hA
  · simp only [hc, Bool.false_eq_true, if_false]
    refine h s' _ hA fun s'' hs => ?_
    have hd : Did G Eq ([] : List (Write ρ L)) s' := fun _ _ => rfl
    obtain ⟨m, rfl, ho⟩ := Did.overwrite (f := f)
      (fun r hr => (mem_rows.mp hr).1) hk hd s'' hs
    exact ho

/-- `UPDATE … WHERE p`: the rows that matched when the statement ran are locked, and replaced. -/
theorem Triple.modifyAll {Q : ℕ → Rel ρ L → Rel ρ L → Prop} {dup : ε}
    (hk : ∀ r, Keyed.keys L k (f r) ⊆ Keyed.keys L k r)
    (h : ∀ s m a b c, P s m → G.rel s a → P a b → Overwrote k f (m.rows k p) b c →
      Q (m.rows k p).length a c) : Triple C e G P (Rel.modifyAll dup k p f) Q := by
  refine Triple.exec fun ws s b ws' hd hq _ => ?_
  simp only at hq
  split at hq
  · cases hq
  · cases hq
    intro s' hs
    obtain ⟨m, hm, ho⟩ := Did.overwrite (f := f)
      (fun r hr => (mem_rows.mp hr).1) hk hd s' hs
    exact h s _ s' m _ hd.here hs.1 hm ho

namespace Confined

variable {E : Rel ρ L → Rel ρ L → Prop} {k : κ} {id : ℕ} {dup : ε}

theorem insert {r : ρ k} (h : ∀ a b, Wrote C k id none r a b → E a b) :
    Confined C e G E (Rel.insert dup k id r) :=
  fun _ => Triple.insert fun _ b c hp hw => ⟨b, hp, .single (h b c hw)⟩

theorem modify {miss : ε} {f : ρ k → Except ε (ρ k)}
    (h : ∀ r r' a b, f r = .ok r' → Wrote C k id (some r) r' a b → E a b) :
    Confined C e G E (Rel.modify miss dup k id f) :=
  fun _ => Triple.modify fun r r' _ b c hp hf hw => ⟨b, hp, .single (h r r' b c hf hw)⟩

theorem insertLog {l : L} (h : ∀ a b, Pushed l a b → E a b) :
    Confined C e G E (Rel.insertLog dup l) := by
  refine fun P => Triple.exec fun ws s b ws' hd hq _ => ?_
  split at hq
  · cases hq
  · rename_i hk
    cases hq
    refine (hd.append fun u hu => ?_).mono ?_
    · simp only [List.any_eq_true, not_exists, not_and, Bool.not_eq_true, Bool.not_eq_false',
        List.isEmpty_iff] at hk
      exact hk u hu
    · rintro a c ⟨m, hp, hm⟩
      exact ⟨m, hp, .single (h m c hm)⟩

theorem lock {p : ρ k → Bool} (h : ∀ r a b, p r = true → Wrote C k id (some r) r a b → E a b) :
    Confined C e G E (Rel.lock k id p) :=
  fun _ => Triple.lock (fun r _ b c hm hp hw => ⟨b, hm, .single (h r b c hp hw)⟩)
    fun _ _ => comp_none

theorem modifyAll {p : ℕ → ρ k → Bool} {f : ρ k → ρ k}
    (hk : ∀ r, Keyed.keys L k (f r) ⊆ Keyed.keys L k r)
    (h : ∀ id r a b, p id r = true → Wrote C k id (some r) (f r) a b → E a b) :
    Confined C e G E (Rel.modifyAll dup k p f) := by
  refine fun P => Triple.exec fun ws s b ws' hd hq hC => ?_
  simp only at hq
  split at hq
  · cases hq
  · cases hq
    have hput := Did.putAll (fun r hr a b hw => h r.1 r.2 a b (mem_rows.mp hr).2
      ⟨hC _ (List.mem_map_of_mem hr), hw⟩) (Rel.nodup_ids _ k p)
      (fun r hr => (mem_rows.mp hr).1) (fun r _ => hk r.2) hd
    refine hput.mono ?_
    rintro a c ⟨b, hab, hs, -⟩
    exact ⟨b, hab, hs⟩

end Confined

end Statements

/-! ## Requests -/

/-- The commits that take the store along in steps of `E`. -/
def Guarantee.steps (E : σ → σ → Prop) : Guarantee σ where
  rel := ReflTransGen E
  refl _ := .refl
  trans := .trans

/-- Whatever the others do. -/
def Guarantee.any : Guarantee σ where
  rel _ _ := True
  refl _ := trivial
  trans _ _ := trivial

/-- The protocol that asks of every commit to be within `U`. -/
abbrev Protocol.within (G : Guarantee σ) (U : σ → σ → Prop) : Protocol σ ε ev α G :=
  .ofHistory G (fun _ _ => True) (Within U)

section Calm

variable {U : σ → σ → Prop} {G : Guarantee σ}

theorem within_quiet (hU : ∀ a, U a a) :
    (Protocol.within G U : Protocol σ ε ev α G).Quiet where
  read _ _ hw := Within.snoc hw fun _ _ he => by cases he; exact hU _
  rollback _ _ _ hw := Within.snoc hw fun _ _ he => by cases he
  emit _ _ _ hw := Within.snoc hw fun _ _ he => by cases he

variable [Store σ ω ι] [Faulty ε] {C : ω → Bool} {e : ε}

/-- **Calm**: every commit of the guarded request respects the guarantee, and is within `U`. -/
def Calm (C : ω → Bool) (e : ε) (G : Guarantee σ) (U : σ → σ → Prop) (α : Type)
    (c : Call σ ω ε ev β) : Prop :=
  (∀ a, U a a) → Tame (Protocol.within G U : Protocol σ ε ev α G) (c.guard C e)

namespace Calm

theorem pure (b : β) : Calm C e G U α (Call.pure b : Call σ ω ε ev β) := fun _ => Tame.pure b

theorem throw (e' : ε) : Calm C e G U α (Call.throw e' : Call σ ω ε ev β) := fun _ => Tame.throw e'

theorem input : Calm C e G U α (Call.input : Call σ ω ε ev ℕ) := fun _ => Tame.input

theorem fire (v : ev) : Calm C e G U α (Call.fire v : Call σ ω ε ev Unit) :=
  fun hU => Tame.fire (within_quiet hU) v

/-- **Sequencing.** -/
theorem bind {c : Call σ ω ε ev β} {f : β → Call σ ω ε ev γ} (hc : Calm C e G U α c)
    (hf : ∀ b, Calm C e G U α (f b)) : Calm C e G U α (c.bind f) := by
  intro hU
  rw [Call.guard_bind]
  exact Tame.bind (hc hU) fun b => hf b hU

/-- **`try … catch`.** -/
theorem handle {c : Call σ ω ε ev β} {f : ε → Call σ ω ε ev β} (hc : Calm C e G U α c)
    (hf : ∀ e', Calm C e G U α (f e')) : Calm C e G U α (c.handle f) := by
  intro hU
  rw [Call.guard_handle]
  exact Tame.handle (hc hU) fun e' => hf e' hU

theorem forEach {xs : List β} {f : β → Call σ ω ε ev Unit}
    (hf : ∀ x ∈ xs, Calm C e G U α (f x)) : Calm C e G U α (Call.forEach xs f) := by
  intro hU
  rw [Call.guard_forEach]
  exact Tame.forEach fun x hx => hf x hx hU

theorem foldEach {xs : List β} {a : γ} {f : γ → β → Call σ ω ε ev γ}
    (hf : ∀ a, ∀ x ∈ xs, Calm C e G U α (f a x)) : Calm C e G U α (Call.foldEach xs a f) := by
  intro hU
  rw [Call.guard_foldEach]
  exact Tame.foldEach fun a x hx => hf a x hx hU

/-- **One transaction.** -/
theorem tx {t : Tx σ ω ε β} {Q : β → σ → σ → Prop} (ht : Triple C e G Eq t Q)
    (hQ : ∀ b a c, Q b a c → G.rel a c ∧ U a c) :
    Calm C e G U α (Call.withTx t : Call σ ω ε ev β) := by
  intro hU
  rw [Call.guard_withTx]
  have hadm : (Protocol.within G U : Protocol σ ε ev α G).Admits fun a c => G.rel a c ∧ U a c :=
    fun _ _ _ _ hw h => ⟨h.1, Within.snoc hw fun _ _ he => by cases he; exact h.2⟩
  refine Tame.tx hadm (within_quiet hU) fun A s => ?_
  exact Tx.wp_mono (fun b _ _ hd => hd.mono (hQ b)) (fun _ _ _ => trivial) (ht.wp_start A s)

theorem confined {E : σ → σ → Prop} {t : Tx σ ω ε β} (ht : Confined C e G E t)
    (hE : ∀ a b, ReflTransGen E a b → G.rel a b ∧ U a b) :
    Calm C e G U α (Call.withTx t : Call σ ω ε ev β) :=
  tx (ht Eq) fun _ _ _ ⟨_, hab, hs⟩ => hE _ _ (hab ▸ hs)

theorem safe {c : Call σ ω ε ev α} (h : Calm C e G U α c) (hU : ∀ a, U a a) (s : σ) :
    Safe (Protocol.within G U) (c.guard C e) s := by
  have hstart : Within U ([.start] : List (Entry σ ε ev α)) :=
    within_nil.snoc (h := []) fun _ _ he => by cases he
  refine ⟨within_nil, fun s' _ _ => ⟨hstart, ?_⟩⟩
  refine Call.wp_mono (fun r h s hw s' _ => ?_) (h hU [.start] s' hstart trivial)
  exact hw.1.snoc fun _ _ he => by cases he

end Calm

/-- **Calm** from a store that meets `P` on. -/
def CalmFrom (C : ω → Bool) (e : ε) (G : Guarantee σ) (U : σ → σ → Prop) (α : Type) (P : σ → Prop)
    (c : Call σ ω ε ev β) : Prop :=
  (∀ a, U a a) →
    Ensures (Protocol.within G U : Protocol σ ε ev α G) P (c.guard C e) fun _ _ => True

namespace CalmFrom

variable {P : σ → Prop} {f : β → Call σ ω ε ev γ}

theorem after {c : Call σ ω ε ev β} (hP : G.Keeps P) (hc : Calm C e G U α c)
    (hf : ∀ b, CalmFrom C e G U α P (f b)) :
    CalmFrom C e G U α P (c.bind f) := by
  intro hU
  rw [Call.guard_bind]
  exact Ensures.after (hc hU) hP (fun b => hf b hU) fun _ _ _ => trivial

theorem bind {c : Call σ ω ε ev β} (hc : CalmFrom C e G U α P c)
    (hf : ∀ b, Calm C e G U α (f b)) : CalmFrom C e G U α P (c.bind f) := by
  intro hU
  rw [Call.guard_bind]
  exact Ensures.bind (M := fun _ _ => True) ((hc hU).post fun r _ _ => by cases r <;> trivial)
    fun b => hf b hU

/-- **One transaction**, at whose commit `P` holds. -/
theorem tx {t : Tx σ ω ε β} {Q : β → σ → σ → Prop} (hP : G.Keeps P) (ht : Triple C e G Eq t Q)
    (hQ : ∀ b a c, P a → Q b a c → G.rel a c ∧ U a c) :
    CalmFrom C e G U α P (Call.withTx t : Call σ ω ε ev β) := by
  intro hU
  rw [Call.guard_withTx]
  have hadm : (Protocol.within G U : Protocol σ ε ev α G).Admits
      fun a c => P a ∧ (P a → G.rel a c ∧ U a c) := fun _ _ _ _ hw h =>
    ⟨(h.2 h.1).1, Within.snoc hw fun _ _ he => by cases he; exact (h.2 h.1).2⟩
  refine Ensures.commit (E := fun a c => P a → G.rel a c ∧ U a c) (F := fun _ _ _ => True) hP hadm
    (within_quiet hU).toSilent (fun A s _ => ?_) (fun _ _ _ _ _ _ => trivial) fun _ _ _ => trivial
  exact Tx.wp_mono (fun b _ _ hd => hd.mono fun a c hq => ⟨fun hp => hQ b a c hp hq, trivial⟩)
    (fun _ _ _ => trivial) (ht.wp_start A s)

/-- **A transaction that reads**, for a later one that relies on what it has read. -/
theorem readBind {t : Tx σ ω ε β} {F : β → σ → Prop}
    (ht : Triple C e G Eq t fun b a c => F b a ∧ a = c)
    (hf : ∀ b, CalmFrom C e G U α (F b) (f b)) : Calm C e G U α ((Call.withTx t).bind f) := by
  intro hU
  rw [Call.guard_bind, Call.guard_withTx]
  refine Ensures.bind (M := F) (Ensures.readTx (F := F) (X := fun _ _ => True)
    (within_quiet hU).toSilent (fun _ _ s' _ _ _ => ?_) (fun b s a _ _ h => h)
    fun _ _ _ _ _ _ _ _ => trivial) fun b => hf b hU
  exact Tx.wp_mono (fun b _ _ hd => hd.mono fun _ _ h => ⟨h.2.symm, h.1⟩) (fun _ _ _ => trivial)
    (ht.wp_start _ s')

end CalmFrom

variable [DecidableEq ι] {Cs : ℕ → ω → Bool} {Us : ℕ → σ → σ → Prop}
  {calls : List (Call σ ω ε ev α)} {s₀ : σ} {c : Config σ ω ε ev α}
  {P : Config σ ω ε ev α → ℕ → Prop}

/-- **The commits of a run** of calm requests whose statements pass their checks respect the
guarantee, and each is within what its request allows. -/
theorem reach_calm (hcalm : ∀ i c, calls[i]? = some c → Calm (Cs i) e G (Us i) α c)
    (hU : ∀ i a, Us i a a) (hP : ∀ c i, P c i → c.Meets Cs i)
    (h : Reach P (Config.init s₀ calls) c) {i : ℕ} {a b : σ} (hc : Commit c.trace i a b) :
    G.rel a b ∧ Us i a b := by
  have hg : Reach Always (Config.init s₀ (guardCalls Cs e calls)) (c.guard Cs e) := by
    rw [← Config.guard_init]
    exact h.guard fun c i hp => ⟨hP c i hp, trivial⟩
  have hsafe : ∀ (j : ℕ) d, (guardCalls Cs e calls)[j]? = some d →
      Safe (Protocol.within G (Us j)) d s₀ := by
    intro j d hd
    rw [guardCalls, List.getElem?_mapIdx, Option.map_eq_some_iff] at hd
    obtain ⟨d', hd', rfl⟩ := hd
    exact (hcalm j d' hd').safe (hU j) s₀
  refine ⟨reach_commits hsafe (fun _ _ _ _ _ => trivial) hg hc, ?_⟩
  have hlt : i < (guardCalls Cs e calls).length := by
    rw [guardCalls, List.length_mapIdx]
    exact reach_owned h hc
  have hkeep : Within (Us i) ((c.guard Cs e).histOf i) :=
    reach_keeps hsafe (fun _ _ _ _ _ => trivial) hg hlt
  exact hkeep a b (Config.mem_histOf.mpr hc)

end Calm

end PatronLoyalty.Txn
