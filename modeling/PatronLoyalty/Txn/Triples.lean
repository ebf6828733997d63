import PatronLoyalty.Txn.Effects

/-!
# Hoare triples for requests

`Ensures pr P c Φ`: run under interference from a store that meets `P`, the request `c` keeps
its protocol `pr` and, when it gets to an answer, leaves a store that meets `Φ` of the answer.

A protocol is told what the transactions of a request may do by `Protocol.Admits`, commits within a
relation, and `Protocol.Quiet`, everything in a history that is no write. `Ensures.phase` puts
parts of a request that keep different protocols together. The rules follow the text
of a request: `Ensures.bind`, `Ensures.handle`, `Ensures.tx`, `Ensures.forEach`; `Ensures.frame`
carries a fact that interference respects.
-/

namespace PatronLoyalty.Txn

variable {σ ω ι ε ev α β γ : Type} [Store σ ω ι] {G : Guarantee σ} {pr : Protocol σ ε ev α G}
  {h : List (Entry σ ε ev α)} {s : σ}

/-- Commits within `E` respect the guarantee and keep the protocol. -/
def Protocol.Admits (pr : Protocol σ ε ev α G) (E : σ → σ → Prop) : Prop :=
  ∀ h s s', pr.cond h s → pr.keeps h s → E s s' →
    G.rel s s' ∧ pr.keeps (h ++ [.commit s s']) s'

theorem Protocol.Admits.mono {E E' : σ → σ → Prop} (h : pr.Admits E)
    (hE : ∀ a b, E' a b → E a b) : pr.Admits E' :=
  fun l s s' hc hk he => h l s s' hc hk (hE s s' he)

structure Protocol.Silent (pr : Protocol σ ε ev α G) : Prop where
  read (h : List (Entry σ ε ev α)) (s : σ) : pr.keeps h s → pr.keeps (h ++ [.commit s s]) s
  rollback (h : List (Entry σ ε ev α)) (e : ε) (s : σ) :
    pr.keeps h s → pr.keeps (h ++ [.rollback e]) s

/-- Reads, aborts and events keep the protocol. -/
structure Protocol.Quiet (pr : Protocol σ ε ev α G) : Prop extends pr.Silent where
  emit (h : List (Entry σ ε ev α)) (v : ev) (s : σ) :
    pr.keeps h s → pr.keeps (h ++ [.emit v]) s

theorem Protocol.Admits.orRead {E : σ → σ → Prop} (hE : pr.Admits E)
    (hq : pr.Silent) : pr.Admits fun a b => b = a ∨ E a b := by
  rintro h s s' hc hk (rfl | he)
  · exact ⟨G.refl _, hq.read h _ hk⟩
  · exact hE h s s' hc hk he

/-- A fact that interference respects. -/
def Guarantee.Keeps (G : Guarantee σ) (F : σ → Prop) : Prop := ∀ a b, G.rel a b → F a → F b

/-- `p` of a result, `q` of an error. -/
def onResult (p : β → σ → Prop) (q : ε → σ → Prop) : Except ε β → σ → Prop
  | .ok b => p b
  | .error e => q e

@[simp] theorem onResult_ok (p : β → σ → Prop) (q : ε → σ → Prop) (b : β) (s : σ) :
    onResult p q (.ok b) s ↔ p b s := Iff.rfl

@[simp] theorem onResult_error (p : β → σ → Prop) (q : ε → σ → Prop) (e : ε) (s : σ) :
    onResult p q (.error e) s ↔ q e s := Iff.rfl

variable [Faulty ε]

/-- **A Hoare triple** under interference. -/
def Ensures (pr : Protocol σ ε ev α G) (P : σ → Prop) (c : Call σ ω ε ev β)
    (Φ : Except ε β → σ → Prop) : Prop :=
  ∀ h s, pr.keeps h s → P s →
    Call.wp pr (fun r h' s' => pr.keeps h' s' ∧ G.rel s s' ∧ Φ r s') c h s

namespace Ensures

variable {pr : Protocol σ ε ev α G} {P : σ → Prop} {Φ : Except ε β → σ → Prop} {c : Call σ ω ε ev β}
  {F : σ → Prop} {t : Tx σ ω ε β}

theorem mono {P' : σ → Prop} {Φ' : Except ε β → σ → Prop} (h : Ensures pr P c Φ)
    (hp : ∀ s, P' s → P s) (hΦ : ∀ r s, Φ r s → Φ' r s) :
    Ensures pr P' c Φ' := fun l s hk hs =>
  Call.wp_mono (fun _ _ _ hr => ⟨hr.1, hr.2.1, hΦ _ _ hr.2.2⟩) (h l s hk (hp s hs))

theorem post {Φ' : Except ε β → σ → Prop} (h : Ensures pr P c Φ)
    (hΦ : ∀ r s, Φ r s → Φ' r s) : Ensures pr P c Φ' :=
  h.mono (fun _ hs => hs) hΦ

theorem pure {b : β} (h : ∀ s, P s → Φ (.ok b) s) :
    Ensures pr P (Call.pure b : Call σ ω ε ev β) Φ :=
  fun _ s hk hs => ⟨hk, G.refl s, h s hs⟩

theorem throw {e : ε} (h : ∀ s, P s → Φ (.error e) s) :
    Ensures pr P (Call.throw e : Call σ ω ε ev β) Φ :=
  fun _ s hk hs => ⟨hk, G.refl s, h s hs⟩

/-- **Sequencing.** -/
theorem bind {Φ : Except ε γ → σ → Prop} {f : β → Call σ ω ε ev γ} {M : β → σ → Prop}
    (hc : Ensures pr P c (onResult M fun e => Φ (.error e)))
    (hf : ∀ b, Ensures pr (M b) (f b) Φ) : Ensures pr P (c.bind f) Φ := by
  intro h s hk hs
  refine Call.wp_bind (Call.wp_mono (fun r h' s' hr => ?_) (hc h s hk hs))
  obtain ⟨hk', hG, hm⟩ := hr
  cases r with
  | ok b =>
    exact Call.wp_mono (fun _ _ _ hr => ⟨hr.1, G.trans hG hr.2.1, hr.2.2⟩) (hf b h' s' hk' hm)
  | error e => exact ⟨hk', hG, hm⟩

/-- **`try … catch`.** -/
theorem handle {f : ε → Call σ ω ε ev β} {B : ε → σ → Prop}
    (hc : Ensures pr P c (onResult (fun b => Φ (.ok b)) B))
    (hf : ∀ e, Ensures pr (B e) (f e) Φ) : Ensures pr P (c.handle f) Φ := by
  intro h s hk hs
  refine Call.wp_handle (Call.wp_mono (fun r h' s' hr => ?_) (hc h s hk hs))
  obtain ⟨hk', hG, hm⟩ := hr
  cases r with
  | ok b => exact ⟨hk', hG, hm⟩
  | error e =>
    exact Call.wp_mono (fun _ _ _ hr => ⟨hr.1, G.trans hG hr.2.1, hr.2.2⟩) (hf e h' s' hk' hm)

/-- A fact that interference respects is carried along. -/
theorem frame (hF : G.Keeps F) (h : Ensures pr P c Φ) :
    Ensures pr (fun s => F s ∧ P s) c fun r s => F s ∧ Φ r s := fun l s hk hs =>
  Call.wp_mono (fun _ _ _ hr => ⟨hr.1, hr.2.1, hF _ _ hr.2.1 hs.1, hr.2.2⟩) (h l s hk hs.2)

theorem pick {k : ℕ → Call σ ω ε ev β} (h : ∀ n, Ensures pr P (k n) Φ) :
    Ensures pr P (Call.pick k) Φ := fun l s hk hs n => h n l s hk hs

theorem input {Φ : Except ε ℕ → σ → Prop} (h : ∀ n s, P s → Φ (.ok n) s) :
    Ensures pr P (Call.input : Call σ ω ε ev ℕ) Φ := fun _ s hk hs n => ⟨hk, G.refl s, h n s hs⟩

/-- **One transaction.** It commits within `E`, with `F` of its result at the commit. -/
theorem tx {E : σ → σ → Prop} {F : β → σ → σ → Prop} {X : ε → σ → Prop} (hE : pr.Admits E)
    (hq : pr.Silent) (ht : ∀ h s s', pr.cond h s' → P s → G.rel s s' →
      Tx.wp G (pr.cond h) (fun b => Did G fun a c => E a c ∧ F b a c) X t [] s')
    (hok : ∀ b s a c, P s → G.rel s a → G.rel a c → F b a c → Φ (.ok b) c)
    (herr : ∀ e s s1 s2, P s → G.rel s s1 → G.rel s1 s2 → (Faulty.fault e = false → X e s1) →
      Φ (.error e) s2) :
    Ensures pr P (Call.withTx t) Φ := by
  intro h s hk hs
  refine Call.wp_withTx fun s' hG hA => ⟨?_, fun e hfault s'' hG' hA' => ?_⟩
  · have hw : Tx.wp G (pr.cond h)
        (fun b ws s1 => G.rel s s1 ∧ Did G (fun a c => E a c ∧ F b a c) ws s1)
        (fun e s1 => G.rel s s1 ∧ X e s1) t [] s' := Tx.wp_from hG (ht h s s' hA hs hG)
    refine Tx.wp_mono (fun b ws s1 hd => ?_) (fun e s1 hx => ?_) hw
    · intro s2 hst hA2
      obtain ⟨hEF, hFb⟩ := hd.2 s2 hst
      have hk2 : pr.keeps h s2 := pr.keeps_stable (G.trans hd.1 hst.1) hk
      obtain ⟨hrel, hkeep⟩ := hE h s2 _ hA2 hk2 hEF
      exact ⟨hrel, hkeep, hkeep, G.trans (G.trans hd.1 hst.1) hrel,
        hok b s s2 _ hs (G.trans hd.1 hst.1) hrel hFb⟩
    · intro s2 hG2 hA2
      have hk2 : pr.keeps h s2 := pr.keeps_stable (G.trans hx.1 hG2) hk
      exact ⟨hq.rollback h e s2 hk2, hq.rollback h e s2 hk2, G.trans hx.1 hG2,
        herr e s s1 s2 hs hx.1 hG2 fun _ => hx.2⟩
  · have hk2 : pr.keeps h s'' := pr.keeps_stable (G.trans hG hG') hk
    exact ⟨hq.rollback h e s'' hk2, hq.rollback h e s'' hk2, G.trans hG hG',
      herr e s s' s'' hs hG hG' fun hf => by rw [hfault] at hf; cases hf⟩

theorem commit {E : σ → σ → Prop} {F : β → σ → σ → Prop} (hPre : G.Keeps P)
    (hE : pr.Admits fun a b => P a ∧ E a b) (hq : pr.Silent) (ht : ∀ A s, P s →
      Tx.wp G A (fun b => Did G fun a c => E a c ∧ F b a c) (fun _ _ => True) t [] s)
    (hok : ∀ b a c, P a → P c → F b a c → Φ (.ok b) c)
    (herr : ∀ e s, P s → Φ (.error e) s) : Ensures pr P (Call.withTx t) Φ := by
  refine tx (F := fun b a c => P a ∧ F b a c) (X := fun _ _ => True)
    (E := fun a c => P a ∧ E a c) hE hq (fun h s s' _ hs hG => ?_) ?_ ?_
  · refine Tx.wp_mono (fun b ws s1 hd => ?_) (fun _ _ hx => trivial)
      (Tx.wp_from (G.refl s') (ht (pr.cond h) s' (hPre _ _ hG hs)))
    exact (hd.2.note hPre (hPre _ _ (G.trans hG hd.1) hs)).mono
      fun a c hac => ⟨⟨hac.1, hac.2.1⟩, hac.1, hac.2.2⟩
  · exact fun b s a c _ _ hac hF => hok b a c hF.1 (hPre _ _ hac hF.1) hF.2
  · exact fun e s s1 s2 hs h1 h2 _ => herr e s2 (hPre _ _ (G.trans h1 h2) hs)

theorem readTx {F : β → σ → Prop} {X : ε → σ → Prop} (hq : pr.Silent)
    (ht : ∀ h s s', pr.cond h s' → P s → G.rel s s' →
      Tx.wp G (pr.cond h) (fun b => Did G fun a c => c = a ∧ F b a) X t [] s')
    (hok : ∀ b s a, P s → G.rel s a → F b a → Φ (.ok b) a)
    (herr : ∀ e s s1 s2, P s → G.rel s s1 → G.rel s1 s2 → (Faulty.fault e = false → X e s1) →
      Φ (.error e) s2) :
    Ensures pr P (Call.withTx t) Φ := by
  refine tx (E := fun a c => c = a) (F := fun b a c => c = a ∧ F b a) ?_ hq ?_ ?_ herr
  · intro h s s' _ hk he
    cases he
    exact ⟨G.refl s, hq.read h s hk⟩
  · exact fun h s s' hA hs hG => Tx.wp_mono
      (fun b ws s1 hd => hd.mono fun a c hac => ⟨hac.1, hac.1, hac.2⟩) (fun _ _ hx => hx)
      (ht h s s' hA hs hG)
  · rintro b s a c hs hG - ⟨rfl, hF⟩
    exact hok b s c hs hG hF

theorem fire {Φ : Except ε Unit → σ → Prop} {v : ev} (hq : pr.Quiet)
    (h : ∀ s s', P s → G.rel s s' → Φ (.ok ()) s') :
    Ensures pr P (Call.fire v : Call σ ω ε ev Unit) Φ := fun l s hk hs =>
  Call.wp_fire fun s' hG _ =>
    have hk' := hq.emit l v s' (pr.keeps_stable hG hk)
    ⟨hk', hk', hG, h s s' hs hG⟩

theorem fireAll {Φ : Except ε Unit → σ → Prop} (hq : pr.Quiet) (hF : G.Keeps F)
    (hΦ : ∀ s, F s → Φ (.ok ()) s) (vs : List ev) :
    Ensures pr F (Call.fireAll vs : Call σ ω ε ev Unit) Φ := by
  induction vs with
  | nil => exact pure hΦ
  | cons v vs ih =>
    intro h s hk hs s' hG _
    have hk' := hq.emit h v s' (pr.keeps_stable hG hk)
    exact ⟨hk', Call.wp_mono (fun _ _ _ hr => ⟨hr.1, G.trans hG hr.2.1, hr.2.2⟩)
      (ih _ s' hk' (hF s s' hG hs))⟩

/-- **A loop** with the invariant `F`. -/
theorem forEach {Φ : Except ε Unit → σ → Prop} {xs : List β} {f : β → Call σ ω ε ev Unit}
    (hf : ∀ x ∈ xs, Ensures pr F (f x) (onResult (fun _ => F) fun e => Φ (.error e)))
    (hΦ : ∀ s, F s → Φ (.ok ()) s) : Ensures pr F (Call.forEach xs f) Φ := by
  induction xs with
  | nil => exact pure hΦ
  | cons x xs ih =>
    exact bind (M := fun _ => F) (hf x List.mem_cons_self)
      fun _ => ih fun y hy => hf y (List.mem_cons_of_mem _ hy)

theorem foldEach {Φ : Except ε γ → σ → Prop} {xs : List β} {a : γ} {f : γ → β → Call σ ω ε ev γ}
    (hf : ∀ a, ∀ x ∈ xs, Ensures pr F (f a x) (onResult (fun _ => F) fun e => Φ (.error e)))
    (hΦ : ∀ a s, F s → Φ (.ok a) s) : Ensures pr F (Call.foldEach xs a f) Φ := by
  induction xs generalizing a with
  | nil => exact pure (hΦ a)
  | cons x xs ih =>
    exact bind (M := fun _ => F) (hf a x List.mem_cons_self)
      fun _ => ih fun a y hy => hf a y (List.mem_cons_of_mem _ hy)

end Ensures

/-- **A phase** of a request: what the phase's own protocol `pr` keeps, and more, the request's
protocol `pr'` asks for. -/
theorem Ensures.phase {P : σ → Prop} {Φ : Except ε β → σ → Prop} {c : Call σ ω ε ev β}
    (hw : Ensures pr P c Φ) (pr' : Protocol σ ε ev α G) (hc : ∀ h s, pr'.cond h s → pr.cond h s)
    (hk : ∀ h s, pr.keeps h s → pr'.keeps h s) (hh : pr.keeps h s) (hs : P s) :
    Call.wp pr' (fun r h' s' => pr.keeps h' s' ∧ G.rel s s' ∧ Φ r s') c h s :=
  Call.wp_weaken hc hk (hw h s hh hs)

/-- **From one phase to the next**: a transaction that takes a history in `K` to one in `L`, or
aborts with an error in `X` and leaves it in `K`. -/
theorem Call.wp_phaseTx_err {t : Tx σ ω ε β} {K : List (Entry σ ε ev α) → σ → Prop}
    {L : β → List (Entry σ ε ev α) → σ → Prop} {R : β → σ → σ → Prop} {X : ε → Prop}
    (hK : ∀ h s, K h s → pr.keeps h s) (hL : ∀ b h s, L b h s → pr.keeps h s)
    (hstable : ∀ h s s', G.rel s s' → K h s → K h s')
    (hroll : ∀ h e s, K h s → K (h ++ [.rollback e]) s) (hX : ∀ e, Faulty.fault e = true → X e)
    (hh : K h s) (ht : ∀ s', G.rel s s' → pr.cond h s' →
      Tx.wp G (pr.cond h) (fun b => Did G (R b)) (fun e _ => X e) t [] s')
    (hR : ∀ b a c, pr.cond h a → K h a → R b a c → G.rel a c ∧ L b (h ++ [.commit a c]) c) :
    Call.wp pr (fun r h' s' => match r with
      | .ok b => L b h' s'
      | .error e => X e ∧ K h' s') (Call.withTx t) h s := by
  have aborted : ∀ e s', X e → G.rel s s' →
      pr.keeps (h ++ [.rollback e]) s' ∧ X e ∧ K (h ++ [.rollback e]) s' :=
    fun e s' hx hG =>
      have hroll' := hroll h e s' (hstable h s s' hG hh)
      ⟨hK _ _ hroll', hx, hroll'⟩
  refine Call.wp_withTx fun s' hG hA =>
    ⟨?_, fun e hf s2 hG2 _ => aborted e s2 (hX e hf) (G.trans hG hG2)⟩
  refine Tx.wp_mono (fun b ws s1 hd s2 hst hA => ?_)
    (fun e s1 hx s2 hG2 _ => aborted e s2 hx.2 (G.trans hx.1 hG2)) (Tx.wp_from hG (ht s' hG hA))
  have hK2 : K h s2 := hstable h s s2 (G.trans hd.1 hst.1) hh
  obtain ⟨hrel, hnext⟩ := hR b _ _ hA hK2 (hd.2 s2 hst)
  exact ⟨hrel, hL b _ _ hnext, hnext⟩

theorem Call.wp_phaseTx {t : Tx σ ω ε β} {K : List (Entry σ ε ev α) → σ → Prop}
    {L : β → List (Entry σ ε ev α) → σ → Prop} {R : β → σ → σ → Prop}
    (hK : ∀ h s, K h s → pr.keeps h s) (hL : ∀ b h s, L b h s → pr.keeps h s)
    (hstable : ∀ h s s', G.rel s s' → K h s → K h s')
    (hroll : ∀ h e s, K h s → K (h ++ [.rollback e]) s) (hh : K h s) (ht : ∀ s', G.rel s s' →
      Tx.wp G (pr.cond h) (fun b => Did G (R b)) (fun _ _ => True) t [] s')
    (hR : ∀ b a c, pr.cond h a → K h a → R b a c → G.rel a c ∧ L b (h ++ [.commit a c]) c) :
    Call.wp pr (fun r h' s' => match r with
      | .ok b => L b h' s'
      | .error _ => K h' s') (Call.withTx t) h s := by
  refine Call.wp_mono (fun r h' s' hr => ?_) (Call.wp_phaseTx_err (X := fun _ => True) hK hL hstable
    hroll (fun _ _ => trivial) hh (fun s' hG _ => ht s' hG) hR)
  cases r with
  | ok b => exact hr
  | error e => exact hr.2

/-- **A tame request** keeps its protocol, whatever it answers. -/
def Tame (pr : Protocol σ ε ev α G) (c : Call σ ω ε ev β) : Prop :=
  Ensures pr (fun _ => True) c fun _ _ => True

section Tame

variable {pr : Protocol σ ε ev α G} {c : Call σ ω ε ev β}

theorem Ensures.tame {Φ : Except ε β → σ → Prop}
    (h : Ensures pr (fun _ => True) c Φ) : Tame pr c := h.post fun _ _ _ => trivial

theorem Tame.carry {F : σ → Prop} (h : Tame pr c) (hF : G.Keeps F) :
    Ensures pr F c fun _ => F :=
  (h.frame hF).mono (fun _ hs => ⟨hs, trivial⟩) fun _ _ hr => hr.1

/-- Interference and a tame part before it do not matter. -/
theorem Ensures.after {Φ : Except ε γ → σ → Prop} {F : σ → Prop} {f : β → Call σ ω ε ev γ}
    (hc : Tame pr c) (hF : G.Keeps F) (hf : ∀ b, Ensures pr F (f b) Φ)
    (herr : ∀ e s, F s → Φ (.error e) s) :
    Ensures pr F (c.bind f) Φ := by
  refine Ensures.bind (M := fun _ => F) ((hc.carry hF).post fun r s hr => ?_) hf
  cases r with
  | ok b => exact hr
  | error e => exact herr e s hr

theorem Tame.pure (b : β) : Tame pr (Call.pure b : Call σ ω ε ev β) :=
  Ensures.pure fun _ _ => trivial

theorem Tame.throw (e : ε) : Tame pr (Call.throw e : Call σ ω ε ev β) :=
  Ensures.throw fun _ _ => trivial

theorem Tame.input : Tame pr (Call.input : Call σ ω ε ev ℕ) := Ensures.input fun _ _ _ => trivial

theorem Tame.bind {f : β → Call σ ω ε ev γ} (hc : Tame pr c)
    (hf : ∀ b, Tame pr (f b)) : Tame pr (c.bind f) :=
  Ensures.after hc (fun _ _ _ _ => trivial) hf fun _ _ _ => trivial

theorem Tame.handle {f : ε → Call σ ω ε ev β} (hc : Tame pr c)
    (hf : ∀ e, Tame pr (f e)) : Tame pr (c.handle f) :=
  Ensures.handle (B := fun _ _ => True) (hc.post fun r _ _ => by cases r <;> trivial) hf

theorem Tame.fire (hq : pr.Quiet) (v : ev) : Tame pr (Call.fire v : Call σ ω ε ev Unit) :=
  Ensures.fire hq fun _ _ _ _ => trivial

theorem Tame.fireAll (hq : pr.Quiet) (vs : List ev) :
    Tame pr (Call.fireAll vs : Call σ ω ε ev Unit) :=
  Ensures.fireAll hq (fun _ _ _ _ => trivial) (fun _ _ => trivial) vs

theorem Tame.forEach {xs : List β} {f : β → Call σ ω ε ev Unit} (hf : ∀ x ∈ xs, Tame pr (f x)) :
    Tame pr (Call.forEach xs f) :=
  Ensures.forEach (F := fun _ => True)
    (fun x hx => (hf x hx).post fun r _ _ => by cases r <;> trivial) fun _ _ => trivial

theorem Tame.foldEach {xs : List β} {a : γ} {f : γ → β → Call σ ω ε ev γ}
    (hf : ∀ a, ∀ x ∈ xs, Tame pr (f a x)) : Tame pr (Call.foldEach xs a f) :=
  Ensures.foldEach (F := fun _ => True)
    (fun a x hx => (hf a x hx).post fun r _ _ => by cases r <;> trivial) fun _ _ _ => trivial

/-- A transaction that commits within what the protocol admits. -/
theorem Tame.tx {t : Tx σ ω ε β} {E : σ → σ → Prop} (hE : pr.Admits E) (hq : pr.Quiet)
    (ht : ∀ A s, Tx.wp G A (fun _ => Did G E) (fun _ _ => True) t [] s) :
    Tame pr (Call.withTx t) :=
  Ensures.tx (F := fun _ _ _ => True) (X := fun _ _ => True) hE hq.toSilent
    (fun _ _ s' _ _ _ => Tx.wp_mono (fun _ _ _ hd => hd.mono fun _ _ hab => ⟨hab, trivial⟩)
      (fun _ _ _ => trivial) (ht _ s'))
    (fun _ _ _ _ _ _ _ _ => trivial) (fun _ _ _ _ _ _ _ _ => trivial)

theorem Tame.readTx {t : Tx σ ω ε β} (hq : pr.Quiet)
    (ht : ∀ A s, Tx.wp G A (fun _ => Did G Eq) (fun _ _ => True) t [] s) :
    Tame pr (Call.withTx t) :=
  Ensures.readTx (F := fun _ _ => True) (X := fun _ _ => True) hq.toSilent
    (fun _ _ s' _ _ _ => Tx.wp_mono (fun _ _ _ hd => hd.mono fun _ _ hab => ⟨hab.symm, trivial⟩)
      (fun _ _ _ => trivial) (ht _ s'))
    (fun _ _ _ _ _ _ => trivial) (fun _ _ _ _ _ _ _ _ => trivial)

end Tame

end PatronLoyalty.Txn
