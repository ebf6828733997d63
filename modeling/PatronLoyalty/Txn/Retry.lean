import PatronLoyalty.Txn.Alone
import PatronLoyalty.Txn.Serving

/-!
# Requests that are tried again

`Call.retry again n c` is the request `c`, tried again up to `n` times while it fails with an error that
`again` accepts. What holds of every attempt holds of all of them: `Describes.retry`, `Call.Keeps.retry`.
-/

namespace PatronLoyalty.Txn

variable {σ ω ι ε ev α β : Type} {G : Guarantee σ}

/-- **Tried again** while it fails with such an error, at most `n` times. -/
def Call.retry (again : ε → Bool) : ℕ → Call σ ω ε ev β → Call σ ω ε ev β
  | 0, c => c
  | n + 1, c => c.handle fun e => if again e then retry again n c else .throw e

variable [Store σ ω ι] {again : ε → Bool} {n : ℕ}

theorem Describes.retry [Faulty ε] {D : List (Entry σ ε ev α) → σ → σ → Prop} {C : ω → Bool} {e : ε}
    {c : Call σ ω ε ev β} {Ψ : β → List (Entry σ ε ev α) → Prop}
    (hc : Describes C e G D (fun _ => True) c Ψ) :
    Describes C e G D (fun _ => True) (c.retry again n) Ψ := by
  induction n with
  | zero => exact hc
  | succ n ih =>
    refine hc.handle fun e' => ?_
    split
    · exact ih
    · exact .throw

/-- A transaction that fails is one line. -/
theorem Call.wp_withTx_error [Faulty ε] {pr : Protocol σ ε ev α G} {t : Tx σ ω ε β}
    {Q : Except ε β → List (Entry σ ε ev α) → σ → Prop} {h : List (Entry σ ε ev α)} {s : σ}
    (hw : Call.wp pr Q (Call.withTx t) h s) : Call.wp pr (fun r h' s' => Q r h' s' ∧
      ∀ e', r = .error e' → h' = h ++ [.rollback e']) (Call.withTx t) h s := by
  intro s' hs hc
  obtain ⟨ht, hf⟩ := hw s' hs hc
  refine ⟨Tx.wp_mono (fun b ws s1 hcm s2 hs2 hc2 => ?_) (fun e' s1 ha s2 hs2 hc2 => ?_) ht,
    fun e' hfault s2 hs2 hc2 => ?_⟩
  · obtain ⟨hG, hk, hq⟩ := hcm s2 hs2 hc2
    exact ⟨hG, hk, hq, fun _ he => by cases he⟩
  · obtain ⟨hk, hq⟩ := ha s2 hs2 hc2
    exact ⟨hk, hq, fun _ he => by cases he; rfl⟩
  · obtain ⟨hk, hq⟩ := hf e' hfault s2 hs2 hc2
    exact ⟨hk, hq, fun _ he => by cases he; rfl⟩

/-- A single transaction, tried again: the attempts that fail leave no more than their rollbacks. -/
theorem Describes.retryTx [Faulty ε] {D : List (Entry σ ε ev α) → σ → σ → Prop} {C : ω → Bool}
    {e : ε} {t : Tx σ ω ε β} {Φ : List (Entry σ ε ev α) → Prop}
    {Ψ : β → List (Entry σ ε ev α) → Prop} (hΦ : ∀ h e', Φ h → Φ (h ++ [.rollback e']))
    (hc : Describes C e G D Φ (Call.withTx t) Ψ) :
    Describes C e G D Φ ((Call.withTx t : Call σ ω ε ev β).retry again n) Ψ := by
  induction n with
  | zero => exact hc
  | succ n ih =>
    intro h s hk hh
    have hw := hc h s hk hh
    rw [Call.guard_withTx] at hw
    rw [Call.retry, Call.guard_handle, Call.guard_withTx]
    refine Call.wp_handle (Call.wp_mono (fun r h' s' hr => ?_) (Call.wp_withTx_error hw))
    cases r with
    | ok b => exact hr.1
    | error e' =>
      obtain rfl := hr.2 e' rfl
      by_cases ha : again e' = true
      · simp only [ha, if_true]
        exact ih _ s' hr.1.1 (hΦ h e' hh)
      · simp only [ha]
        exact ⟨hr.1.1, fun _ he => by cases he⟩

namespace Call

variable {c : Call σ ω ε ev β} {s : σ}

/-- An attempt that fails leaves the store where the next may begin. -/
theorem Keeps.retry {I : σ → Prop} {Q : Except ε β → σ → Prop} (hI : I s)
    (hc : ∀ s, I s → Keeps I (fun r m => I m ∧ Q r m) c s) :
    Keeps I (fun r m => I m ∧ Q r m) (c.retry again n) s := by
  induction n generalizing s with
  | zero => exact hc s hI
  | succ n ih =>
    refine ⟨fun s' h => ?_, fun r s' h => ?_⟩
    · rcases passes_handle h with h | ⟨e, m, hg, h⟩
      · exact (hc s hI).passes s' h
      · have hm := (hc s hI).gives _ m hg
        split at h
        · exact (ih hm.1).passes s' h
        · cases h
          exact hm.1
    · rcases gives_handle h with ⟨b, rfl, hb⟩ | ⟨e, m, hg, h⟩
      · exact (hc s hI).gives _ s' hb
      · have hm := (hc s hI).gives _ m hg
        split at h
        · exact (ih hm.1).gives r s' h
        · obtain ⟨rfl, rfl⟩ := h
          exact hm

theorem gives_handle_ok {f : ε → Call σ ω ε ev β} {s' : σ} {b : β}
    (h : c.gives s (.ok b) s') : (c.handle f).gives s (.ok b) s' := by
  induction c generalizing s with
  | pure b => exact h
  | throw e => cases h.1
  | pick k ih =>
    obtain ⟨n, hn⟩ := h
    exact ⟨n, ih n hn⟩
  | emit v k ih => exact ih h
  | tx t k ih =>
    rcases h with ⟨x, m, ht, hk⟩ | ⟨e, hk⟩
    · exact Or.inl ⟨x, m, ht, ih _ hk⟩
    · exact Or.inr ⟨e, ih _ hk⟩

/-- The first attempt, when it succeeds. -/
theorem gives_retry_ok {s' : σ} {b : β} (h : c.gives s (.ok b) s') :
    (c.retry again n).gives s (.ok b) s' := by
  cases n with
  | zero => exact h
  | succ n => exact gives_handle_ok h

end Call

end PatronLoyalty.Txn
