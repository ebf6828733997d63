import PatronLoyalty.Txn.Retry

/-!
# Steady requests

`Steady G E V c`: every commit of the request `c` is a sequence of steps of `E`, and every event it emits
meets `V`, whatever has been done before. It keeps, also when it fails, whatever no such line takes away.

It is what a caller needs of a part whose result does not matter, and it is closed under sequencing,
handlers and retries. Headline: **`Steady.describes`**.
-/

namespace PatronLoyalty.Txn

open Relation

variable {σ ω ι ε ev α β γ : Type} [Store σ ω ι] [Faulty ε] {C : ω → Bool} {e : ε} {G : Guarantee σ}
  {E : σ → σ → Prop} {V : ev → Prop}

/-- No line but an event outside `V` takes `Φ` away. -/
def Lasts (V : ev → Prop) (Φ : List (Entry σ ε ev α) → Prop) : Prop :=
  ∀ h l, Φ h → (∀ v, l = .emit v → V v) → Φ (h ++ [l])

/-- **Steady**: the request commits in steps of `E` alone, and emits events of `V` alone. -/
def Steady (C : ω → Bool) (e : ε) (G : Guarantee σ) (E : σ → σ → Prop) (V : ev → Prop) (α : Type)
    (c : Call σ ω ε ev β) : Prop :=
  ∀ (D : List (Entry σ ε ev α) → σ → σ → Prop) (Φ : List (Entry σ ε ev α) → Prop), Lasts V Φ →
    (∀ h a b, Φ h → ReflTransGen E a b → D h a b) →
      ∀ h s, (Protocol.describing G D).keeps h s → Φ h → Call.wp (.describing G D)
        (fun _ h' s' => (Protocol.describing G D).keeps h' s' ∧ Φ h') (c.guard C e) h s

namespace Steady

variable {c : Call σ ω ε ev β}

theorem describes {D : List (Entry σ ε ev α) → σ → σ → Prop} {Φ : List (Entry σ ε ev α) → Prop}
    (hc : Steady C e G E V α c) (hΦ : Lasts V Φ)
    (hD : ∀ h a b, Φ h → ReflTransGen E a b → D h a b) :
    Describes C e G D Φ c fun _ => Φ := fun h s hk hh =>
  Call.wp_mono (fun _ _ _ hr => ⟨hr.1, fun _ _ => hr.2⟩) (hc D Φ hΦ hD h s hk hh)

theorem pure (b : β) : Steady C e G E V α (Call.pure b : Call σ ω ε ev β) :=
  fun _ _ _ _ _ _ hk hh => ⟨hk, hh⟩

theorem throw (e' : ε) : Steady C e G E V α (Call.throw e' : Call σ ω ε ev β) :=
  fun _ _ _ _ _ _ hk hh => ⟨hk, hh⟩

theorem input : Steady C e G E V α (Call.input : Call σ ω ε ev ℕ) :=
  fun _ _ _ _ _ _ hk hh _ => ⟨hk, hh⟩

theorem ofExcept (r : Except ε β) : Steady C e G E V α (Call.ofExcept r : Call σ ω ε ev β) := by
  cases r with
  | ok b => exact pure b
  | error e' => exact throw e'

theorem ite {p : Prop} [Decidable p] {c' : Call σ ω ε ev β} (h : Steady C e G E V α c)
    (h' : Steady C e G E V α c') : Steady C e G E V α (if p then c else c') := by
  split
  · exact h
  · exact h'

theorem fire {v : ev} (hv : V v) : Steady C e G E V α (Call.fire v : Call σ ω ε ev Unit) := by
  intro D Φ hΦ hD h s hk hh s' hs _
  have hk' := Protocol.describing_snoc (e := .emit v) (by simp)
    ((Protocol.describing G D).keeps_stable hs hk)
  exact ⟨hk', hk', hΦ h _ hh fun w hw => by cases hw; exact hv⟩

/-- **Sequencing.** -/
theorem bind {f : β → Call σ ω ε ev γ} (hc : Steady C e G E V α c)
    (hf : ∀ b, Steady C e G E V α (f b)) : Steady C e G E V α (c.bind f) := by
  intro D Φ hΦ hD h s hk hh
  rw [Call.guard_bind]
  refine Call.wp_bind (Call.wp_mono (fun r h' s' hr => ?_) (hc D Φ hΦ hD h s hk hh))
  cases r with
  | ok b => exact hf b D Φ hΦ hD h' s' hr.1 hr.2
  | error e' => exact hr

/-- **`try … catch`.** -/
theorem handle {f : ε → Call σ ω ε ev β} (hc : Steady C e G E V α c)
    (hf : ∀ e', Steady C e G E V α (f e')) : Steady C e G E V α (c.handle f) := by
  intro D Φ hΦ hD h s hk hh
  rw [Call.guard_handle]
  refine Call.wp_handle (Call.wp_mono (fun r h' s' hr => ?_) (hc D Φ hΦ hD h s hk hh))
  cases r with
  | ok b => exact hr
  | error e' => exact hf e' D Φ hΦ hD h' s' hr.1 hr.2

theorem retry {again : ε → Bool} {n : ℕ} (hc : Steady C e G E V α c) :
    Steady C e G E V α (c.retry again n) := by
  induction n with
  | zero => exact hc
  | succ n ih => exact hc.handle fun e' => ih.ite (throw e')

/-- **One transaction.** -/
theorem tx {t : Tx σ ω ε β} (ht : Confined C e G E t)
    (hE : ∀ a b, ReflTransGen E a b → G.rel a b) :
    Steady C e G E V α (Call.withTx t : Call σ ω ε ev β) := by
  intro D Φ hΦ hD h s hk hh
  have hline : ∀ l : Entry σ ε ev α, (∀ v, l ≠ .emit v) → Φ (h ++ [l]) := fun l hl =>
    hΦ h l hh fun v hv => absurd hv (hl v)
  have hd : Describes C e G D Φ (Call.withTx t : Call σ ω ε ev β) fun _ => Φ :=
    .confined ht hE hD fun r h a b hh => hΦ h _ hh fun v hv => by cases hv
  have hw := hd h s hk hh
  rw [Call.guard_withTx] at hw ⊢
  refine Call.wp_mono (fun r h' s' hr => ?_) (Call.wp_withTx_error hw)
  cases r with
  | ok b => exact ⟨hr.1.1, hr.1.2 b rfl⟩
  | error e' =>
    refine ⟨hr.1.1, ?_⟩
    rw [hr.2 e' rfl]
    exact hline _ fun v hv => by cases hv

end Steady

end PatronLoyalty.Txn
