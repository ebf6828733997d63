import PatronLoyalty.Txn.History

/-!
# The events of a request

`Call.Emits V c`: every event the request `c` may emit is in `V`, whatever its transactions return. The
rules follow the text of the request. Headline: **`reach_emits`**, along a run a session emits events of
its own `V` only.
-/

namespace PatronLoyalty.Txn

variable {σ ω ι ε ev α β γ : Type}

namespace Call

/-- **Events within `V`.** -/
def Emits (V : ev → Prop) : Call σ ω ε ev β → Prop
  | pure _ | throw _ => True
  | pick k => ∀ n, (k n).Emits V
  | emit v k => V v ∧ k.Emits V
  | tx _ k => ∀ r, (k r).Emits V

variable {V : ev → Prop}

theorem emits_all (hV : ∀ v, V v) (c : Call σ ω ε ev β) : c.Emits V := by
  induction c with
  | pure | throw => trivial
  | pick k ih => exact ih
  | emit v k ih => exact ⟨hV v, ih⟩
  | tx t k ih => exact ih

theorem Emits.ofExcept (r : Except ε β) : (ofExcept r : Call σ ω ε ev β).Emits V := by
  cases r <;> trivial

/-- **Sequencing.** -/
theorem Emits.bind {c : Call σ ω ε ev β} {f : β → Call σ ω ε ev γ} (hc : c.Emits V)
    (hf : ∀ b, (f b).Emits V) : (c.bind f).Emits V := by
  induction c with
  | pure b => exact hf b
  | throw e => trivial
  | pick k ih => exact fun n => ih n (hc n)
  | emit v k ih => exact ⟨hc.1, ih hc.2⟩
  | tx t k ih => exact fun r => ih r (hc r)

/-- **`try … catch`.** -/
theorem Emits.handle {c : Call σ ω ε ev β} {f : ε → Call σ ω ε ev β} (hc : c.Emits V)
    (hf : ∀ e, (f e).Emits V) : (c.handle f).Emits V := by
  induction c with
  | pure b => trivial
  | throw e => exact hf e
  | pick k ih => exact fun n => ih n (hc n)
  | emit v k ih => exact ⟨hc.1, ih hc.2⟩
  | tx t k ih => exact fun r => ih r (hc r)

theorem Emits.withTx (t : Tx σ ω ε β) : (withTx t : Call σ ω ε ev β).Emits V := by
  intro r
  cases r <;> trivial

theorem Emits.input : (input : Call σ ω ε ev ℕ).Emits V := fun _ => trivial

theorem Emits.forEach {xs : List β} {f : β → Call σ ω ε ev Unit} (hf : ∀ x, (f x).Emits V) :
    (forEach xs f).Emits V := by
  induction xs with
  | nil => trivial
  | cons x xs ih => exact .bind (hf x) fun _ => ih

theorem Emits.foldEach {xs : List β} {a : γ} {f : γ → β → Call σ ω ε ev γ}
    (hf : ∀ a x, (f a x).Emits V) : (foldEach xs a f).Emits V := by
  induction xs generalizing a with
  | nil => trivial
  | cons x xs ih => exact .bind (hf a x) fun a' => ih

end Call

namespace Session

/-- The session emits events of `V` only from here on. -/
def Emits (V : ev → Prop) : Session σ ω ε ev α → Prop
  | new c | idle c => c.Emits V
  | inTx _ _ k => ∀ r, (k r).Emits V
  | done => True

variable [Store σ ω ι] [Faulty ε] {V : ev → Prop}

/-- **One move** emits an event of `V`, if any, and so will the moves after it. -/
theorem emits_advance {ss ss' : Session σ ω ε ev α} {s s' : σ} {m : Move ε}
    {es : List (Entry σ ε ev α)} (h : ss.advance s m = some (ss', s', es)) (he : ss.Emits V) :
    ss'.Emits V ∧ ∀ v, .emit v ∈ es → V v := by
  cases m with
  | crash =>
    cases ss <;> cases h <;> exact ⟨trivial, fun _ hv => by cases hv⟩
  | fail e =>
    cases ss with
    | inTx ws t k =>
      simp only [advance] at h
      split at h
      · cases h
        exact ⟨he _, fun _ hv => by simp at hv⟩
      · cases h
    | new c => cases h
    | idle c => cases h
    | done => cases h
  | go n =>
    cases ss with
    | new c => cases h; exact ⟨he, fun _ hv => by simp at hv⟩
    | done => cases h
    | idle c =>
      cases c with
      | pure a => cases h; exact ⟨trivial, fun _ hv => by simp at hv⟩
      | throw e => cases h; exact ⟨trivial, fun _ hv => by simp at hv⟩
      | pick k => cases h; exact ⟨he n, fun _ hv => by cases hv⟩
      | emit v k =>
        cases h
        refine ⟨he.2, fun v' hv => ?_⟩
        rw [List.mem_singleton] at hv
        cases hv
        exact he.1
      | tx t k => cases h; exact ⟨he, fun _ hv => by cases hv⟩
    | inTx ws t k =>
      cases t with
      | pure b => cases h; exact ⟨he _, fun _ hv => by simp at hv⟩
      | throw e => cases h; exact ⟨he _, fun _ hv => by simp at hv⟩
      | pick t => cases h; exact ⟨he, fun _ hv => by cases hv⟩
      | clock t => cases h; exact ⟨he, fun _ hv => by cases hv⟩
      | stmt q t =>
        simp only [advance, next] at h
        split at h
        · cases h; exact ⟨he _, fun _ hv => by simp at hv⟩
        · cases h; exact ⟨he, fun _ hv => by cases hv⟩

end Session

variable [Store σ ω ι] [Faulty ε] [DecidableEq ι] {P : Config σ ω ε ev α → ℕ → Prop}
  {calls : List (Call σ ω ε ev α)} {s₀ : σ} {c : Config σ ω ε ev α} {V : ℕ → ev → Prop}

/-- **Along a run** every session emits events of its own only. -/
theorem reach_emits (hV : ∀ (i : ℕ) (d : Call σ ω ε ev α), calls[i]? = some d → d.Emits (V i))
    (h : Reach P (Config.init s₀ calls) c) :
    (∀ (i : ℕ) (ss : Session σ ω ε ev α), c.sess[i]? = some ss → ss.Emits (V i)) ∧
      ∀ i v, (i, .emit v) ∈ c.trace → V i v := by
  induction h with
  | refl =>
    refine ⟨fun i ss hs => ?_, fun _ _ hm => by cases hm⟩
    rw [Config.init, List.getElem?_map, Option.map_eq_some_iff] at hs
    obtain ⟨d, hd, rfl⟩ := hs
    exact hV i d hd
  | @tail d d' i m _ _ hs ih =>
    obtain ⟨ss, ss', db', es, hi, ha, -, rfl⟩ := Config.step_cases hs
    obtain ⟨he, hes⟩ := Session.emits_advance ha (ih.1 i ss hi)
    constructor
    · intro j tt hj
      rw [List.getElem?_set] at hj
      split at hj
      · rename_i hij
        split at hj
        · cases hj
          rw [← hij]
          exact he
        · cases hj
      · exact ih.1 j tt hj
    · intro j v hm
      rcases List.mem_append.mp hm with hm | hm
      · exact ih.2 j v hm
      · obtain ⟨e, hem, hje⟩ := List.mem_map.mp hm
        cases hje
        exact hes v hem

end PatronLoyalty.Txn
