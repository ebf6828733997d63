import PatronLoyalty.Txn.Interleaving

/-!
# Rely–guarantee reasoning for interleaved transactions

A `Guarantee` is a preorder on stores that every commit of every session is to respect. Between
two statements of a transaction the other sessions can then do no more than `Stable`: move the
committed store along the guarantee, without touching a row the transaction holds.

`Tx.wp` and `Call.wp` are weakest preconditions under that interference. They are computed by
recursion on the program, so the proof of a request follows its text: `wp_bind`, `wp_read`,
`wp_exec`, and at call level `wp_withTx`, `wp_handle`. What a session may assume at its own steps
(`Protocol.cond`) and what its own history must say about the store at any time
(`Protocol.keeps`) are part of the protocol it is verified against.

Headline: **`reach_sound`**. If every request of a run is safe for its protocol, then in every
reachable configuration the store has moved along the guarantee, no two sessions hold one row,
and every session's history keeps what its protocol says.
-/

namespace PatronLoyalty.Txn

/-- What commits may do to the store: a preorder. -/
structure Guarantee (σ : Type) where
  rel : σ → σ → Prop
  refl (s : σ) : rel s s
  trans {a b c : σ} : rel a b → rel b c → rel a c

/-- What one session is verified against, beside the common guarantee. -/
structure Protocol (σ ε ev α : Type) (G : Guarantee σ) where
  /-- What the run condition lets the session assume at its own steps. -/
  cond : List (Entry σ ε ev α) → σ → Prop
  /-- What the session's own history says about the store, at any time. -/
  keeps : List (Entry σ ε ev α) → σ → Prop
  keeps_stable {h : List (Entry σ ε ev α)} {s s' : σ} : G.rel s s' → keeps h s → keeps h s'

variable {σ ω ι ε ev α β γ : Type} [Store σ ω ι] {G : Guarantee σ} {ws : List ω} {a b : σ}
  {c c' : Config σ ω ε ev α} {i : ℕ} {calls : List (Call σ ω ε ev α)}
  {P : Config σ ω ε ev α → ℕ → Prop}

/-- What the other sessions can do to the store while a transaction has `ws` pending. -/
def Stable (G : Guarantee σ) (ws : List ω) (s s' : σ) : Prop :=
  G.rel s s' ∧ ∀ r ∈ held (σ := σ) ws, Store.same r s s'

theorem Stable.refl (ws : List ω) (s : σ) : Stable G ws s s :=
  ⟨G.refl s, fun r _ => same_refl r s⟩

theorem Stable.trans {c : σ} (h : Stable G ws a b) (h' : Stable G ws b c) :
    Stable G ws a c :=
  ⟨G.trans h.1 h'.1, fun r hr => same_trans (h.2 r hr) (h'.2 r hr)⟩

/-- With more rows held, less can happen. -/
theorem Stable.left {ws' : List ω} (h : Stable G (ws ++ ws') a b) :
    Stable G ws a b :=
  ⟨h.1, fun r hr => h.2 r (by rw [held_append]; exact List.mem_append_left _ hr)⟩

theorem stable_nil : Stable G ([] : List ω) a b ↔ G.rel a b := by
  simp [Stable]

/-- A held row looks the same to its holder, whatever the others do, also below the writes that
came after a prefix `ws` of the pending ones. -/
theorem Stable.same_view {ws' : List ω} (h : Stable G (ws ++ ws') a b) {r : ι}
    (hr : r ∈ held (σ := σ) (ws ++ ws')) : Store.same r (view ws a) (view ws b) :=
  Txn.same_view h.left.2 (h.2 r hr)

/-! ## Weakest preconditions of transaction bodies -/

namespace Tx

/-- `wp G A post exc t ws s`: from the committed store `s`, with `ws` pending, under any
interference and with `A` holding at each statement, `t` ends in `post` or aborts in `exc`. -/
def wp (G : Guarantee σ) (A : σ → Prop) (post : β → List ω → σ → Prop) (exc : ε → σ → Prop) :
    Tx σ ω ε β → List ω → σ → Prop
  | pure b, ws, s => post b ws s
  | throw e, _, s => exc e s
  | pick k, ws, s => ∀ n, wp G A post exc (k n) ws s
  | clock k, ws, s => ∀ n, wp G A post exc (k n) ws s
  | stmt q k, ws, s => ∀ s', Stable G ws s s' → A s' →
    match q (view ws s') with
    | .error e => exc e s'
    | .ok (b, ws') => wp G A post exc (k b) (ws ++ ws') s'

variable {A : σ → Prop} {post : β → List ω → σ → Prop} {exc : ε → σ → Prop} {t : Tx σ ω ε β}
  {ws : List ω} {s : σ}

@[simp] theorem wp_pure (b : β) (ws : List ω) (s : σ) :
    wp G A post exc (pure b) ws s ↔ post b ws s := Iff.rfl

@[simp] theorem wp_throw (e : ε) (ws : List ω) (s : σ) :
    wp G A post exc (throw e : Tx σ ω ε β) ws s ↔ exc e s := Iff.rfl

theorem wp_pick (k : ℕ → Tx σ ω ε β) (ws : List ω) (s : σ) :
    wp G A post exc (pick k) ws s ↔ ∀ n, wp G A post exc (k n) ws s := Iff.rfl

/-- **Sequencing.** -/
theorem wp_bind {post : γ → List ω → σ → Prop} (t : Tx σ ω ε β) (f : β → Tx σ ω ε γ)
    (ws : List ω) (s : σ) :
    wp G A post exc (t.bind f) ws s ↔
      wp G A (fun b ws s => wp G A post exc (f b) ws s) exc t ws s := by
  induction t generalizing ws s with
  | pure b => exact Iff.rfl
  | throw e => exact Iff.rfl
  | pick k ih => exact forall_congr' fun n => ih n ws s
  | clock k ih => exact forall_congr' fun n => ih n ws s
  | stmt q k ih =>
    refine forall_congr' fun s' => forall_congr' fun _ => forall_congr' fun _ => ?_
    cases q (view ws s') with
    | error e => exact Iff.rfl
    | ok r => exact ih r.1 _ _

theorem wp_do {post : γ → List ω → σ → Prop} (t : Tx σ ω ε β) (f : β → Tx σ ω ε γ) (ws : List ω)
    (s : σ) : wp G A post exc (t >>= f) ws s ↔
      wp G A (fun b ws s => wp G A post exc (f b) ws s) exc t ws s := wp_bind t f ws s

/-- **Consequence.** -/
theorem wp_mono {post' : β → List ω → σ → Prop} {exc' : ε → σ → Prop}
    (hp : ∀ b ws s, post b ws s → post' b ws s) (he : ∀ e s, exc e s → exc' e s)
    (h : wp G A post exc t ws s) : wp G A post' exc' t ws s := by
  induction t generalizing ws s with
  | pure b => exact hp _ _ _ h
  | throw e => exact he _ _ h
  | pick k ih => exact fun n => ih n (h n)
  | clock k ih => exact fun n => ih n (h n)
  | stmt q k ih =>
    intro s' hs hA
    have := h s' hs hA
    revert this
    cases q (view ws s') with
    | error e => exact he e s'
    | ok r => exact ih r.1

/-- **Conjunction.** -/
theorem wp_and {post' : β → List ω → σ → Prop} {exc' : ε → σ → Prop} (h : wp G A post exc t ws s)
    (h' : wp G A post' exc' t ws s) :
    wp G A (fun b ws s => post b ws s ∧ post' b ws s) (fun e s => exc e s ∧ exc' e s) t ws s := by
  induction t generalizing ws s with
  | pure b => exact ⟨h, h'⟩
  | throw e => exact ⟨h, h'⟩
  | pick k ih => exact fun n => ih n (h n) (h' n)
  | clock k ih => exact fun n => ih n (h n) (h' n)
  | stmt q k ih =>
    intro s' hs hA
    have hq := h s' hs hA
    have hq' := h' s' hs hA
    revert hq hq'
    cases q (view ws s') with
    | error e => exact fun he he' => ⟨he, he'⟩
    | ok r => exact ih r.1

/-- A body whose outcomes stay good under interference stays safe under it. -/
theorem wp_stable {s' : σ} (hp : ∀ b ws s s', Stable G ws s s' → post b ws s → post b ws s')
    (he : ∀ e s s', G.rel s s' → exc e s → exc e s') (hs : Stable G ws s s')
    (h : wp G A post exc t ws s) : wp G A post exc t ws s' := by
  induction t generalizing ws s s' with
  | pure b => exact hp _ _ _ _ hs h
  | throw e => exact he _ _ _ hs.1 h
  | pick k ih => exact fun n => ih n hs (h n)
  | clock k ih => exact fun n => ih n hs (h n)
  | stmt q k _ => exact fun s'' hs' hA => h s'' (hs.trans hs') hA

theorem wp_assume {A' : σ → Prop} (hA : ∀ s, A' s → A s)
    (h : wp G A post exc t ws s) : wp G A' post exc t ws s := by
  induction t generalizing ws s with
  | pure b => exact h
  | throw e => exact h
  | pick k ih => exact fun n => ih n (h n)
  | clock k ih => exact fun n => ih n (h n)
  | stmt q k ih =>
    intro s' hs hA'
    have := h s' hs (hA s' hA')
    revert this
    cases q (view ws s') with
    | error e => exact id
    | ok r => exact ih r.1

/-- How far the store has moved since the transaction began is known at its end. -/
theorem wp_from (hG : G.rel s₀ s) (h : wp G A post exc t ws s) :
    wp G A (fun b ws s => G.rel s₀ s ∧ post b ws s) (fun e s => G.rel s₀ s ∧ exc e s) t ws s := by
  induction t generalizing ws s with
  | pure b => exact ⟨hG, h⟩
  | throw e => exact ⟨hG, h⟩
  | pick k ih => exact fun n => ih n hG (h n)
  | clock k ih => exact fun n => ih n hG (h n)
  | stmt q k ih =>
    intro s' hs hA
    have := h s' hs hA
    revert this
    cases q (view ws s') with
    | error e => exact fun he => ⟨G.trans hG hs.1, he⟩
    | ok r => exact ih r.1 (G.trans hG hs.1)

@[simp] theorem wp_read (f : σ → β) (ws : List ω) (s : σ) :
    wp G A post exc (read f : Tx σ ω ε β) ws s ↔
      ∀ s', Stable G ws s s' → A s' → post (f (view ws s')) ws s' := by
  simp [read, wp]

@[simp] theorem wp_readOrThrow (e : ε) (f : σ → Option β) (ws : List ω) (s : σ) :
    wp G A post exc (readOrThrow e f : Tx σ ω ε β) ws s ↔
      ∀ s', Stable G ws s s' → A s' →
        (∀ b, f (view ws s') = some b → post b ws s') ∧ (f (view ws s') = none → exc e s') := by
  refine forall_congr' fun s' => forall_congr' fun _ => forall_congr' fun _ => ?_
  cases hf : f (view ws s') <;> simp [hf]

@[simp] theorem wp_exec (q : σ → Except ε (β × List ω)) (ws : List ω) (s : σ) :
    wp G A post exc (exec q : Tx σ ω ε β) ws s ↔
      ∀ s', Stable G ws s s' → A s' →
        (∀ b ws', q (view ws s') = .ok (b, ws') → post b (ws ++ ws') s') ∧
        (∀ e, q (view ws s') = .error e → exc e s') := by
  refine forall_congr' fun s' => forall_congr' fun _ => forall_congr' fun _ => ?_
  cases q (view ws s') with
  | error e => simp
  | ok r =>
    obtain ⟨b, ws'⟩ := r
    simp [wp]

@[simp] theorem wp_input (ws : List ω) (s : σ) {post : ℕ → List ω → σ → Prop} :
    wp G A post exc (input : Tx σ ω ε ℕ) ws s ↔ ∀ n, post n ws s := Iff.rfl

@[simp] theorem wp_now (ws : List ω) (s : σ) {post : ℕ → List ω → σ → Prop} :
    wp G A post exc (now : Tx σ ω ε ℕ) ws s ↔ ∀ n, post n ws s := Iff.rfl

@[simp] theorem wp_findFirst (rows : σ → List β) {post : Option β → List ω → σ → Prop}
    (ws : List ω) (s : σ) :
    wp G A post exc (findFirst rows : Tx σ ω ε (Option β)) ws s ↔
      ∀ n s', Stable G ws s s' → A s' →
        post (rows (view ws s'))[n % (rows (view ws s')).length]? ws s' := by
  simp [findFirst, wp_pick]

end Tx

/-! ## Weakest preconditions of requests -/

namespace Call

variable {pr : Protocol σ ε ev α G} {h : List (Entry σ ε ev α)} {s : σ} {c : Call σ ω ε ev β}

/-- What a transaction must establish at its commit: the guarantee, and `K` of the store it
leaves, with the commit in the history. -/
def Commits (pr : Protocol σ ε ev α G)
    (K : Except ε β → List (Entry σ ε ev α) → σ → Prop) (h : List (Entry σ ε ev α))
    (b : β) (ws : List ω) (s : σ) : Prop :=
  ∀ s', Stable G ws s s' → pr.cond h s' → G.rel s' (view ws s') ∧
    K (.ok b) (h ++ [.commit s' (view ws s')]) (view ws s')

/-- What an abort must leave behind: `K` of the store as it is, with the rollback in the
history. -/
def Aborts (pr : Protocol σ ε ev α G)
    (K : Except ε β → List (Entry σ ε ev α) → σ → Prop) (h : List (Entry σ ε ev α))
    (e : ε) (s : σ) : Prop :=
  ∀ s', G.rel s s' → pr.cond h s' → K (.error e) (h ++ [.rollback e]) s'

/-- `wp pr Q c h s`: from the committed store `s`, with the history `h`, the request runs to an
answer that meets `Q`, every commit keeps the guarantee and the history is kept throughout. -/
def wp [Faulty ε] (pr : Protocol σ ε ev α G) (Q : Except ε β → List (Entry σ ε ev α) → σ → Prop) :
    Call σ ω ε ev β → List (Entry σ ε ev α) → σ → Prop
  | pure b, h, s => Q (.ok b) h s
  | throw e, h, s => Q (.error e) h s
  | pick k, h, s => ∀ n, wp pr Q (k n) h s
  | emit v k, h, s => ∀ s', G.rel s s' → pr.cond h s' →
    pr.keeps (h ++ [.emit v]) s' ∧ wp pr Q k (h ++ [.emit v]) s'
  | tx t k, h, s => ∀ s', G.rel s s' → pr.cond h s' →
    Tx.wp G (pr.cond h) (Commits pr (fun r h s => pr.keeps h s ∧ wp pr Q (k r) h s) h)
      (Aborts pr (fun r h s => pr.keeps h s ∧ wp pr Q (k r) h s) h) t [] s' ∧
    ∀ e, Faulty.fault e → Aborts pr (fun r h s => pr.keeps h s ∧ wp pr Q (k r) h s) h e s'

variable [Faulty ε] {Q : Except ε β → List (Entry σ ε ev α) → σ → Prop}

@[simp] theorem wp_pure (b : β) (h : List (Entry σ ε ev α)) (s : σ) :
    wp pr Q (pure b : Call σ ω ε ev β) h s ↔ Q (.ok b) h s := Iff.rfl

@[simp] theorem wp_throw (e : ε) (h : List (Entry σ ε ev α)) (s : σ) :
    wp pr Q (throw e : Call σ ω ε ev β) h s ↔ Q (.error e) h s := Iff.rfl

/-- Two continuations that agree leave the obligations of a transaction the same. -/
theorem wp_tx_congr {t : Tx σ ω ε γ} {K K' : Except ε γ → List (Entry σ ε ev α) → σ → Prop}
    (hK : ∀ r h s, K r h s → K' r h s)
    (hw : Tx.wp G (pr.cond h) (Commits pr K h) (Aborts pr K h) t [] s ∧
      ∀ e, Faulty.fault e → Aborts pr K h e s) :
    Tx.wp G (pr.cond h) (Commits pr K' h) (Aborts pr K' h) t [] s ∧
      ∀ e, Faulty.fault e → Aborts pr K' h e s :=
  ⟨Tx.wp_mono (fun _ _ _ hc s' hs hA => ⟨(hc s' hs hA).1, hK _ _ _ (hc s' hs hA).2⟩)
    (fun _ _ he s' hs hA => hK _ _ _ (he s' hs hA)) hw.1,
   fun e hf s' hs hA => hK _ _ _ (hw.2 e hf s' hs hA)⟩

/-- **Consequence.** -/
theorem wp_mono {Q' : Except ε β → List (Entry σ ε ev α) → σ → Prop}
    (hQ : ∀ r h s, Q r h s → Q' r h s) (hw : wp pr Q c h s) : wp pr Q' c h s := by
  induction c generalizing h s with
  | pure b => exact hQ _ _ _ hw
  | throw e => exact hQ _ _ _ hw
  | pick k ih => exact fun n => ih n (hw n)
  | emit v k ih => exact fun s' hs hA => ⟨(hw s' hs hA).1, ih (hw s' hs hA).2⟩
  | tx t k ih =>
    exact fun s' hs hA => wp_tx_congr (fun r h s hk => ⟨hk.1, ih r hk.2⟩) (hw s' hs hA)

/-- **Weakening.** What keeps one protocol keeps every protocol that assumes more and asks for
less. -/
theorem wp_weaken {pr' : Protocol σ ε ev α G} (hc : ∀ h s, pr'.cond h s → pr.cond h s)
    (hk : ∀ h s, pr.keeps h s → pr'.keeps h s) (hw : wp pr Q c h s) : wp pr' Q c h s := by
  induction c generalizing h s with
  | pure b => exact hw
  | throw e => exact hw
  | pick k ih => exact fun n => ih n (hw n)
  | emit v k ih =>
    intro s' hs hA
    obtain ⟨hkeep, hrest⟩ := hw s' hs (hc _ _ hA)
    exact ⟨hk _ _ hkeep, ih hrest⟩
  | tx t k ih =>
    intro s' hs hA
    obtain ⟨ht, hf⟩ := hw s' hs (hc _ _ hA)
    refine ⟨Tx.wp_mono (fun b ws s1 hcm s2 hst hA2 => ?_) (fun e s1 hab s2 hG hA2 => ?_)
      (Tx.wp_assume (hc h) ht), fun e hfault s2 hG hA2 => ?_⟩
    · obtain ⟨hrel, hkeep, hrest⟩ := hcm s2 hst (hc _ _ hA2)
      exact ⟨hrel, hk _ _ hkeep, ih _ hrest⟩
    · obtain ⟨hkeep, hrest⟩ := hab s2 hG (hc _ _ hA2)
      exact ⟨hk _ _ hkeep, ih _ hrest⟩
    · obtain ⟨hkeep, hrest⟩ := hf e hfault s2 hG (hc _ _ hA2)
      exact ⟨hk _ _ hkeep, ih _ hrest⟩

/-- **Sequencing.** An error of the first part is the answer. -/
theorem wp_bind {Q : Except ε γ → List (Entry σ ε ev α) → σ → Prop} {f : β → Call σ ω ε ev γ}
    (hw : wp pr (fun r h s => match r with
      | .ok b => wp pr Q (f b) h s
      | .error e => Q (.error e) h s) c h s) : wp pr Q (c.bind f) h s := by
  induction c generalizing h s with
  | pure b => exact hw
  | throw e => exact hw
  | pick k ih => exact fun n => ih n (hw n)
  | emit v k ih => exact fun s' hs hA => ⟨(hw s' hs hA).1, ih (hw s' hs hA).2⟩
  | tx t k ih =>
    exact fun s' hs hA => wp_tx_congr (fun r h s hk => ⟨hk.1, ih r hk.2⟩) (hw s' hs hA)

/-- **`try … catch`.** An error of the body is handed to the handler. -/
theorem wp_handle {f : ε → Call σ ω ε ev β} (hw : wp pr (fun r h s => match r with
      | .ok b => Q (.ok b) h s
      | .error e => wp pr Q (f e) h s) c h s) : wp pr Q (c.handle f) h s := by
  induction c generalizing h s with
  | pure b => exact hw
  | throw e => exact hw
  | pick k ih => exact fun n => ih n (hw n)
  | emit v k ih => exact fun s' hs hA => ⟨(hw s' hs hA).1, ih (hw s' hs hA).2⟩
  | tx t k ih =>
    exact fun s' hs hA => wp_tx_congr (fun r h s hk => ⟨hk.1, ih r hk.2⟩) (hw s' hs hA)

/-- One transaction: it commits into `Q`, and any abort leads to `Q` too. -/
theorem wp_withTx {t : Tx σ ω ε β} (hw : ∀ s', G.rel s s' → pr.cond h s' →
      Tx.wp G (pr.cond h) (Commits pr (fun r h s => pr.keeps h s ∧ Q r h s) h)
        (Aborts pr (fun r h s => pr.keeps h s ∧ Q r h s) h) t [] s' ∧
      ∀ e, Faulty.fault e → Aborts pr (fun r h s => pr.keeps h s ∧ Q r h s) h e s') :
    wp pr Q (withTx t) h s := by
  intro s' hs hA
  refine wp_tx_congr (fun r h s hk => ⟨hk.1, ?_⟩) (hw s' hs hA)
  cases r with
  | ok b => exact hk.2
  | error e => exact hk.2

theorem wp_fire {Q : Except ε Unit → List (Entry σ ε ev α) → σ → Prop} {v : ev}
    (hw : ∀ s', G.rel s s' → pr.cond h s' →
      pr.keeps (h ++ [.emit v]) s' ∧ Q (.ok ()) (h ++ [.emit v]) s') :
    wp pr Q (fire v : Call σ ω ε ev Unit) h s := hw

end Call

/-! ## Soundness -/

variable [Faulty ε]

def Answers (pr : Protocol σ ε ev α G) (r : Except ε α) (h : List (Entry σ ε ev α)) (s : σ) :
    Prop :=
  ∀ s', G.rel s s' → pr.keeps (h ++ [.answer r]) s'

/-- **A request is safe** for its protocol from the store `s` on. -/
def Safe (pr : Protocol σ ε ev α G) (c : Call σ ω ε ev α) (s : σ) : Prop :=
  pr.keeps [] s ∧ ∀ s', G.rel s s' → pr.cond [] s' →
    pr.keeps [.start] s' ∧ Call.wp pr (Answers pr) c [.start] s'

/-- What soundness maintains of a session in the middle of its run. -/
def Session.Ok (pr : Protocol σ ε ev α G) :
    Session σ ω ε ev α → List (Entry σ ε ev α) → σ → Prop
  | new c, h, s => h = [] ∧ Safe pr c s
  | idle c, h, s => pr.keeps h s ∧ Call.wp pr (Answers pr) c h s
  | inTx ws t k, h, s => pr.keeps h s ∧
    Tx.wp G (pr.cond h)
      (Call.Commits pr (fun r h s => pr.keeps h s ∧ Call.wp pr (Answers pr) (k r) h s) h)
      (Call.Aborts pr (fun r h s => pr.keeps h s ∧ Call.wp pr (Answers pr) (k r) h s) h) t ws s ∧
    ∀ e, Faulty.fault e →
      Call.Aborts pr (fun r h s => pr.keeps h s ∧ Call.wp pr (Answers pr) (k r) h s) h e s
  | done, h, s => pr.keeps h s

namespace Call

variable {pr : Protocol σ ε ev α G} {Q : Except ε β → List (Entry σ ε ev α) → σ → Prop}
  {h : List (Entry σ ε ev α)} {s s' : σ}

omit [Faulty ε] in
theorem Aborts.stable {K : Except ε β → List (Entry σ ε ev α) → σ → Prop} {e : ε} (hs : G.rel s s')
    (ha : Aborts pr K h e s) : Aborts pr K h e s' :=
  fun s'' hs' hA => ha s'' (G.trans hs hs') hA

omit [Faulty ε] in
theorem Commits.stable {K : Except ε β → List (Entry σ ε ev α) → σ → Prop} {b : β} {ws : List ω}
    (hs : Stable G ws s s') (hc : Commits pr K h b ws s) : Commits pr K h b ws s' :=
  fun s'' hs' hA => hc s'' (hs.trans hs') hA

theorem wp_stable {c : Call σ ω ε ev β} (hQ : ∀ r h s s', G.rel s s' → Q r h s → Q r h s')
    (hs : G.rel s s') (hw : wp pr Q c h s) : wp pr Q c h s' := by
  induction c generalizing h s s' with
  | pure b => exact hQ _ _ _ _ hs hw
  | throw e => exact hQ _ _ _ _ hs hw
  | pick k ih => exact fun n => ih n hs (hw n)
  | emit v k _ => exact fun s'' hs' hA => hw s'' (G.trans hs hs') hA
  | tx t k _ => exact fun s'' hs' hA => hw s'' (G.trans hs hs') hA

end Call

namespace Session

variable {pr : Protocol σ ε ev α G} {ss : Session σ ω ε ev α} {h : List (Entry σ ε ev α)} {s : σ}

theorem Ok.keeps (ho : Ok pr ss h s) : pr.keeps h s := by
  cases ss with
  | new c => rw [ho.1]; exact ho.2.1
  | idle c => exact ho.1
  | inTx ws t k => exact ho.1
  | done => exact ho

/-- **Interference** leaves a session as it was. -/
theorem Ok.stable {s' : σ} (hG : G.rel s s') (hl : ∀ r ∈ ss.locks, Store.same r s s')
    (ho : Ok pr ss h s) :
    Ok pr ss h s' := by
  cases ss with
  | new c =>
    obtain ⟨hh, hk, hw⟩ := ho
    exact ⟨hh, pr.keeps_stable hG hk, fun s'' hs => hw s'' (G.trans hG hs)⟩
  | idle c =>
    exact ⟨pr.keeps_stable hG ho.1, Call.wp_stable (fun _ _ _ _ hs ha s'' hs' =>
      ha s'' (G.trans hs hs')) hG ho.2⟩
  | inTx ws t k =>
    exact ⟨pr.keeps_stable hG ho.1, Tx.wp_stable (fun _ _ _ _ hs hc => hc.stable hs)
      (fun _ _ _ hs ha => ha.stable hs) ⟨hG, hl⟩ ho.2.1, fun e hf => (ho.2.2 e hf).stable hG⟩
  | done => exact pr.keeps_stable hG ho

/-- **One move of a session**: it stays safe, and the store moves along the guarantee, by a
commit that changes only rows the session held. -/
theorem Ok.advance {ss' : Session σ ω ε ev α} {es : List (Entry σ ε ev α)} {s' : σ} {m : Move ε}
    (ho : Ok pr ss h s) (hA : ss.ends = false → pr.cond h s)
    (ha : ss.advance s m = some (ss', s', es)) :
    Ok pr ss' (h ++ es) s' ∧ G.rel s s' ∧ ∀ r, r ∉ ss.locks → Store.same r s s' := by
  have idle_frame : ∀ r : ι, Store.same r s s := fun r => same_refl r s
  cases m with
  | go n =>
    cases ss with
    | new c =>
      cases ha
      obtain ⟨rfl, -, hw⟩ := ho
      exact ⟨hw s (G.refl s) (hA rfl), G.refl s, fun r _ => idle_frame r⟩
    | idle c =>
      cases c with
      | pure a => cases ha; exact ⟨ho.2 s (G.refl s), G.refl s, fun r _ => idle_frame r⟩
      | throw e => cases ha; exact ⟨ho.2 s (G.refl s), G.refl s, fun r _ => idle_frame r⟩
      | pick k =>
        cases ha
        rw [List.append_nil]
        exact ⟨⟨ho.1, ho.2 n⟩, G.refl s, fun r _ => idle_frame r⟩
      | emit v k => cases ha; exact ⟨ho.2 s (G.refl s) (hA rfl), G.refl s, fun r _ => idle_frame r⟩
      | tx t k =>
        cases ha
        rw [List.append_nil]
        exact ⟨⟨ho.1, ho.2 s (G.refl s) (hA rfl)⟩, G.refl s, fun r _ => idle_frame r⟩
    | inTx ws t k =>
      obtain ⟨hk, hw, hf⟩ := ho
      cases t with
      | pure b =>
        cases ha
        obtain ⟨hG, hK⟩ := hw s (Stable.refl ws s) (hA rfl)
        exact ⟨hK, hG, fun r hr => frame_view s hr⟩
      | throw e => cases ha; exact ⟨hw s (G.refl s) (hA rfl), G.refl s, fun r _ => idle_frame r⟩
      | pick t =>
        cases ha
        rw [List.append_nil]
        exact ⟨⟨hk, hw n, hf⟩, G.refl s, fun r _ => idle_frame r⟩
      | clock t =>
        cases ha
        rw [List.append_nil]
        exact ⟨⟨hk, hw n, hf⟩, G.refl s, fun r _ => idle_frame r⟩
      | stmt q t =>
        have hq := hw s (Stable.refl ws s) (hA rfl)
        simp only [Session.advance, Session.next] at ha
        revert ha hq
        cases q (view ws s) with
        | error e =>
          intro ha hq
          cases ha
          exact ⟨hq s (G.refl s) (hA rfl), G.refl s, fun r _ => idle_frame r⟩
        | ok r =>
          intro ha hq
          cases ha
          rw [List.append_nil]
          exact ⟨⟨hk, hq, hf⟩, G.refl s, fun r _ => idle_frame r⟩
    | done => cases ha
  | fail e =>
    cases ss with
    | inTx ws t k =>
      simp only [Session.advance] at ha
      split at ha
      · rename_i hfault
        cases ha
        exact ⟨ho.2.2 e hfault s (G.refl s) (hA rfl), G.refl s, fun r _ => idle_frame r⟩
      · cases ha
    | new c => cases ha
    | idle c => cases ha
    | done => cases ha
  | crash =>
    have hk := ho.keeps
    cases ss with
    | done => cases ha
    | new c => cases ha; rw [List.append_nil]; exact ⟨hk, G.refl s, fun r _ => idle_frame r⟩
    | idle c => cases ha; rw [List.append_nil]; exact ⟨hk, G.refl s, fun r _ => idle_frame r⟩
    | inTx ws t k =>
      cases ha; rw [List.append_nil]; exact ⟨hk, G.refl s, fun r _ => idle_frame r⟩

end Session

/-- What soundness maintains of a configuration of a run from the store `s₀`. -/
structure Config.Ok (pr : ℕ → Protocol σ ε ev α G) (s₀ : σ) (c : Config σ ω ε ev α) : Prop where
  rel : G.rel s₀ c.db
  sess : ∀ (i : ℕ) (ss : Session σ ω ε ev α), c.sess[i]? = some ss →
    ss.Ok (pr i) (c.histOf i) c.db
  locks : ∀ (i j : ℕ) (ss tt : Session σ ω ε ev α), i ≠ j → c.sess[i]? = some ss →
    c.sess[j]? = some tt → ∀ r ∈ ss.locks, r ∉ tt.locks

variable {pr : ℕ → Protocol σ ε ev α G} {s₀ : σ}

theorem Config.ok_init
    (h : ∀ i c, calls[i]? = some c → Safe (pr i) c s₀) : (Config.init s₀ calls).Ok pr s₀ where
  rel := G.refl s₀
  sess i ss hs := by
    rw [Config.init, List.getElem?_map] at hs
    cases hc : calls[i]? with
    | none => simp [hc] at hs
    | some c =>
      rw [hc] at hs
      cases hs
      exact ⟨rfl, h i c hc⟩
  locks i j ss tt _ hs _ r hr := by
    rw [Config.init, List.getElem?_map] at hs
    cases hc : calls[i]? with
    | none => simp [hc] at hs
    | some c =>
      rw [hc] at hs
      cases hs
      exact absurd hr List.not_mem_nil

theorem Config.Ok.keeps (ho : c.Ok pr s₀)
    (hi : i < c.sess.length) : (pr i).keeps (c.histOf i) c.db :=
  (ho.sess i _ (List.getElem?_eq_getElem hi)).keeps

variable [DecidableEq ι]

theorem Config.Ok.step_rel {m : Move ε} (ho : c.Ok pr s₀)
    (hA : c.ends i = false → (pr i).cond (c.histOf i) c.db)
    (hs : c.step i m = some c') : G.rel c.db c'.db := by
  obtain ⟨ss, ss', db', es, hi, ha, -, rfl⟩ := Config.step_cases hs
  exact ((ho.sess i ss hi).advance (fun he => hA (by rw [Config.ends, hi]; exact he)) ha).2.1

/-- **One step** keeps a configuration sound, when the acting session may assume its condition. -/
theorem Config.Ok.step {m : Move ε} (ho : c.Ok pr s₀)
    (hA : c.ends i = false → (pr i).cond (c.histOf i) c.db)
    (hs : c.step i m = some c') : c'.Ok pr s₀ := by
  obtain ⟨ss, ss', db', es, hi, ha, hfree, rfl⟩ := Config.step_cases hs
  obtain ⟨hok, hG, hframe⟩ :=
    (ho.sess i ss hi).advance (fun he => hA (by rw [Config.ends, hi]; exact he)) ha
  have hlt : i < c.sess.length := (List.getElem?_eq_some_iff.mp hi).1
  refine ⟨G.trans ho.rel hG, fun j tt hj => ?_, fun j k tt uu hjk hj hk => ?_⟩
  · rw [Config.histOf_append]
    by_cases hij : i = j
    · subst hij
      rw [if_pos rfl]
      rw [List.getElem?_set_self hlt] at hj
      cases hj
      exact hok
    · rw [if_neg hij]
      rw [List.getElem?_set_ne hij] at hj
      refine (ho.sess j tt hj).stable hG fun r hr => hframe r fun hr' => ?_
      exact ho.locks j i tt ss (Ne.symm hij) hj hi r hr hr'
  · intro r hr hr'
    by_cases hij : i = j
    · subst hij
      rw [List.getElem?_set_self hlt] at hj
      cases hj
      rw [List.getElem?_set_ne hjk] at hk
      exact hfree r hr k uu (Ne.symm hjk) hk hr'
    · rw [List.getElem?_set_ne hij] at hj
      by_cases hik : i = k
      · subst hik
        rw [List.getElem?_set_self hlt] at hk
        cases hk
        exact hfree r hr' j tt hjk hj hr
      · rw [List.getElem?_set_ne hik] at hk
        exact ho.locks j k tt uu hjk hj hk r hr hr'

/-- **Soundness.** If every request is safe for its protocol and the run condition gives every
session its condition, every reachable configuration is sound. -/
theorem reach_sound (hsafe : ∀ i c, calls[i]? = some c → Safe (pr i) c s₀)
    (hP : ∀ c i, c.Ok pr s₀ → P c i → c.ends i = false → (pr i).cond (c.histOf i) c.db)
    (h : Reach P (Config.init s₀ calls) c) : c.Ok pr s₀ := by
  induction h with
  | refl => exact Config.ok_init hsafe
  | tail _ hp hs ih => exact ih.step (hP _ _ ih hp) hs

/-- What a run says of one session's history. -/
theorem reach_keeps (hsafe : ∀ i c, calls[i]? = some c → Safe (pr i) c s₀)
    (hP : ∀ c i, c.Ok pr s₀ → P c i → c.ends i = false → (pr i).cond (c.histOf i) c.db)
    (h : Reach P (Config.init s₀ calls) c)
    (hi : i < calls.length) : (pr i).keeps (c.histOf i) c.db := by
  refine (reach_sound hsafe hP h).keeps ?_
  rw [h.length_sess, Config.init, List.length_map]
  exact hi

theorem Config.Ok.reach (ho : c.Ok pr s₀)
    (hP : ∀ d i, d.Ok pr s₀ → P d i → d.ends i = false → (pr i).cond (d.histOf i) d.db)
    (h : Reach P c c') : c'.Ok pr s₀ ∧ G.rel c.db c'.db := by
  induction h with
  | refl => exact ⟨ho, G.refl _⟩
  | tail _ hp hs ih =>
    have hd := ih.1.step (hP _ _ ih.1 hp) hs
    exact ⟨hd, G.trans ih.2 (ih.1.step_rel (hP _ _ ih.1 hp) hs)⟩

end PatronLoyalty.Txn
