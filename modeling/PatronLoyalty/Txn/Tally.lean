import Mathlib.Algebra.BigOperators.Ring.Finset
import PatronLoyalty.Txn.OneShot

/-!
# Counting the commits of a run

`f` counts something of the store, and no commit raises it by more than one. Along a history it then
grows by the number of commits that raise it (`Linear.tally`), and the commits of a run are those of
its sessions (`countP_sessions`). Where the commits of a session have amounts of their own, what comes
together in the store is the sum of what the sessions give (`reach_accumulates`). Headline:
**`reach_tally`**, when each session raises the count at most once, the count tells how many sessions
did.
-/

namespace PatronLoyalty.Txn

variable {σ ω ι ε ev α : Type}

/-- The line is a commit that raises `f`. -/
def Entry.raises (f : σ → ℕ) : Entry σ ε ev α → Bool :=
  Entry.isCommit fun a b => decide (f a < f b)

section History

variable {f : σ → ℕ} {h : List (Entry σ ε ev α)} {U E : σ → σ → Prop} {β : Type} {n : ℕ}

theorem sum_sessions (g : ℕ → β → ℕ) (es : List (ℕ × β)) (ho : ∀ e ∈ es, e.1 < n) :
    (es.map fun e => g e.1 e.2).sum = ∑ i ∈ Finset.range n,
      ((es.filterMap fun e => if e.1 = i then some e.2 else none).map (g i)).sum := by
  induction es with
  | nil => simp
  | cons e es ih =>
    have hmem : e.1 ∈ Finset.range n := Finset.mem_range.mpr (ho e List.mem_cons_self)
    have hsplit : ∀ i, (((e :: es).filterMap fun e => if e.1 = i then some e.2 else none).map
        (g i)).sum = ((es.filterMap fun e => if e.1 = i then some e.2 else none).map (g i)).sum +
          if e.1 = i then g e.1 e.2 else 0 := by
      intro i
      by_cases hi : e.1 = i
      · simp [hi, Nat.add_comm]
      · simp [hi]
    rw [List.map_cons, List.sum_cons, ih fun e he => ho e (List.mem_cons_of_mem _ he),
      Finset.sum_congr rfl fun i _ => hsplit i, Finset.sum_add_distrib, Finset.sum_ite_eq,
      if_pos hmem, Nat.add_comm]

/-- **Along a history**, `F n` says that `n` has come together; a commit of session `i` gives what `g i`
says of it. -/
theorem Linear.accumulates {F : ℕ → σ → Prop} {g : ℕ → Entry σ ε ev α → ℕ}
    {es : List (ℕ × Entry σ ε ev α)} {s s' : σ} (h : Linear s es s')
    (hF : ∀ i a b n, Commit es i a b → F n a → F (n + g i (.commit a b)) b)
    (hg : ∀ i e, (∀ a b, e ≠ .commit a b) → g i e = 0) (hs : F n s) :
    F (n + (es.map fun e => g e.1 e.2).sum) s' := by
  induction es generalizing s n with
  | nil =>
    cases h
    exact hs
  | cons e es ih =>
    obtain ⟨m, he, hm⟩ := h
    rw [List.map_cons, List.sum_cons, ← Nat.add_assoc]
    refine ih hm (fun i a b n hc => hF i a b n (List.mem_cons_of_mem _ hc)) ?_
    obtain ⟨i, e⟩ := e
    cases e with
    | commit a b =>
      obtain ⟨rfl, rfl⟩ := he
      exact hF i s m n List.mem_cons_self hs
    | _ =>
      cases he
      rw [hg i _ (by simp), Nat.add_zero]
      exact hs

theorem sum_map_ones (p : β → Bool) (bs : List β) :
    (bs.map fun b => if p b then 1 else 0).sum = bs.countP p := by
  induction bs with
  | nil => rfl
  | cons b bs ih => rw [List.map_cons, List.sum_cons, ih, List.countP_cons, Nat.add_comm]

theorem countP_sessions (p : β → Bool) (es : List (ℕ × β)) (ho : ∀ e ∈ es, e.1 < n) :
    es.countP (fun e => p e.2) = ∑ i ∈ Finset.range n,
      (es.filterMap fun e => if e.1 = i then some e.2 else none).countP p := by
  rw [← sum_map_ones, sum_sessions (fun _ b => if p b then 1 else 0) es ho]
  exact Finset.sum_congr rfl fun i _ => sum_map_ones p _

/-- **Along a history** the count grows by the commits that raise it. -/
theorem Linear.tally {es : List (ℕ × Entry σ ε ev α)} {s s' : σ} (h : Linear s es s')
    (hf : ∀ i a b, Commit es i a b → f b = f a ∨ f b = f a + 1) :
    f s' = f s + es.countP fun e => e.2.raises f := by
  have hsum := h.accumulates (F := fun n x => f x = f s + n)
    (g := fun _ e => if e.raises f then 1 else 0) (n := 0) (fun i a b n hc hn => ?_)
    (fun i e he => ?_) rfl
  · rwa [Nat.zero_add, sum_map_ones fun e : ℕ × Entry σ ε ev α => e.2.raises f] at hsum
  · simp only [Entry.raises, Entry.isCommit, decide_eq_true_eq]
    split <;> rcases hf i a b hc with hr | hr <;> omega
  · cases e with
    | commit a b => exact absurd rfl (he a b)
    | _ => rfl

theorem Within.countP_raises (hw : Within U h) (hU : ∀ a b, U a b → ¬ f a < f b) :
    h.countP (Entry.raises f) = 0 := by
  refine List.countP_eq_zero.mpr fun e he => ?_
  cases e with
  | commit a b => simpa [Entry.raises, Entry.isCommit] using hU a b (hw a b he)
  | _ => simp [Entry.raises, Entry.isCommit]

theorem OnceOnly.countP_raises (ho : OnceOnly U E h) (hU : ∀ a b, U a b → ¬ f a < f b)
    {p : Prop} [Decidable p] (hE : ∀ a b, E a b → (f a < f b ↔ p)) :
    h.countP (Entry.raises f) = if p then 1 else 0 := by
  obtain ⟨h1, a, b, h2, rfl, hab, hw⟩ := ho
  have h0 := hw.countP_raises hU
  rw [List.countP_append] at h0
  rw [List.countP_append, List.countP_cons]
  simp only [Entry.raises, Entry.isCommit, hE a b hab, decide_eq_true_eq] at h0 ⊢
  omega

end History

variable [Store σ ω ι] [Faulty ε] [DecidableEq ι] {P : Config σ ω ε ev α → ℕ → Prop} {s₀ : σ}
  {calls : List (Call σ ω ε ev α)} {c : Config σ ω ε ev α} {f : σ → ℕ}

/-- **The count tells how many sessions have raised it.** -/
theorem reach_tally (h : Reach P (Config.init s₀ calls) c)
    (hf : ∀ i a b, Commit c.trace i a b → f b = f a ∨ f b = f a + 1) {q : ℕ → Prop}
    [DecidablePred q]
    (hq : ∀ i < calls.length, (c.histOf i).countP (Entry.raises f) = if q i then 1 else 0) :
    f c.db = f s₀ + ((Finset.range calls.length).filter q).card := by
  rw [(reach_linear h).tally hf, countP_sessions (Entry.raises f) c.trace
    fun e he => reach_owned h he, Finset.card_filter]
  exact congrArg _ (Finset.sum_congr rfl fun i hi => hq i (Finset.mem_range.mp hi))

/-- **What has come together** is the sum of what the sessions have given. -/
theorem reach_accumulates (h : Reach P (Config.init s₀ calls) c) {F : ℕ → σ → Prop}
    {g : ℕ → Entry σ ε ev α → ℕ}
    (hF : ∀ i a b n, Commit c.trace i a b → F n a → F (n + g i (.commit a b)) b)
    (hg : ∀ i e, (∀ a b, e ≠ .commit a b) → g i e = 0) (hs : F 0 s₀) :
    F (∑ i ∈ Finset.range calls.length, ((c.histOf i).map (g i)).sum) c.db := by
  have hsum := (reach_linear h).accumulates hF hg hs
  rw [Nat.zero_add, sum_sessions g c.trace fun e he => reach_owned h he] at hsum
  exact hsum

end PatronLoyalty.Txn
