import PatronLoyalty.Txn.Retry

/-!
# Requests that find an assumption

`Under A P c Q`: the request `c`, from a history that meets `P`, ends with an answer and a history that
meet `Q`, if the committed store meets `A` whenever it takes a step. The other sessions may do anything
that leaves `A` as it is.

`Sees A F t` is the same for the body of a transaction that only reads. Headline: **`reach_under`**. If
the store of a run meets `A` whenever one of its sessions takes a step after its first, that session
answers as described.
-/

namespace PatronLoyalty.Txn

variable {σ ω ι ε ev α β γ : Type} [Store σ ω ι] {A : σ → Prop}

/-- Commits may do anything. -/
def anything : Guarantee σ where
  rel _ _ := True
  refl _ := trivial
  trans _ _ := trivial

/-- Every body ends somehow. -/
theorem Tx.wp_any {G : Guarantee σ} (t : Tx σ ω ε β) (ws : List ω) (s : σ) :
    t.wp G A (fun _ _ _ => True) (fun _ _ => True) ws s := by
  induction t generalizing ws s with
  | pure b => trivial
  | throw e => trivial
  | pick k ih => exact fun n => ih n ws s
  | clock k ih => exact fun n => ih n ws s
  | stmt q k ih =>
    intro s' _ _
    cases q (view ws s') with
    | error e => trivial
    | ok r => exact ih r.1 _ s'

/-! ## Bodies that read -/

/-- **The body only reads**, and what it returns meets `F`, if the store meets `A` at its statements. -/
def Sees (A : σ → Prop) (F : β → Prop) (t : Tx σ ω ε β) : Prop :=
  ∀ B : σ → Prop, (∀ s, B s → A s) → ∀ s,
    Tx.wp anything B (fun b ws _ => ws = [] ∧ F b) (fun _ _ => True) t [] s

namespace Sees

variable {F : β → Prop}

theorem pure {b : β} (h : F b) : Sees A F (Tx.pure b : Tx σ ω ε β) := fun _ _ _ => ⟨rfl, h⟩

theorem bind {t : Tx σ ω ε γ} {f : γ → Tx σ ω ε β} {M : γ → Prop} (ht : Sees A M t)
    (hf : ∀ c, M c → Sees A F (f c)) : Sees A F (t.bind f) := by
  intro B hB s
  refine (Tx.wp_bind t f [] s).mpr (Tx.wp_mono ?_ (fun _ _ _ => trivial) (ht B hB s))
  rintro c ws s' ⟨rfl, hc⟩
  exact hf c hc B hB s'

theorem pick {k : ℕ → Tx σ ω ε β} (h : ∀ n, Sees A F (k n)) : Sees A F (Tx.pick k) :=
  fun B hB s n => h n B hB s

theorem read {f : σ → β} (h : ∀ s, A s → F (f s)) : Sees A F (Tx.read f : Tx σ ω ε β) :=
  fun _ hB _ => (Tx.wp_read _ _ _).mpr fun s' _ hs => ⟨rfl, h s' (hB s' hs)⟩

theorem readOrThrow {e : ε} {f : σ → Option β} (h : ∀ s b, A s → f s = some b → F b) :
    Sees A F (Tx.readOrThrow e f : Tx σ ω ε β) := fun _ hB _ =>
  (Tx.wp_readOrThrow _ _ _ _).mpr fun s' _ hs =>
    ⟨fun b hb => ⟨rfl, h s' b (hB s' hs) hb⟩, fun _ => trivial⟩

end Sees

/-! ## Requests -/

variable [Faulty ε]

/-- The protocol of a session that finds `A` whenever it takes a step after its first. -/
def Protocol.under (A : σ → Prop) (Ψ : α → List (Entry σ ε ev α) → Prop) :
    Protocol σ ε ev α anything where
  cond h s := h = [] ∨ A s
  keeps h _ := AnswersAs Ψ h
  keeps_stable _ hk := hk

/-- **A request that finds `A`.** -/
def Under (A : σ → Prop) (P : List (Entry σ ε ev α) → Prop) (c : Call σ ω ε ev β)
    (Q : β → List (Entry σ ε ev α) → Prop) : Prop :=
  ∀ (Ψ : α → List (Entry σ ε ev α) → Prop) h s, h ≠ [] → AnswersAs Ψ h → P h →
    Call.wp (.under A Ψ)
      (fun r h' _ => (h' ≠ [] ∧ AnswersAs Ψ h') ∧ ∀ b, r = .ok b → Q b h') c h s

namespace Under

variable {P : List (Entry σ ε ev α) → Prop} {Q : β → List (Entry σ ε ev α) → Prop}
  {c : Call σ ω ε ev β}

theorem pre {P' : List (Entry σ ε ev α) → Prop} (hc : Under A P c Q) (hP : ∀ h, P' h → P h) :
    Under A P' c Q := fun Ψ h s hn hk hh => hc Ψ h s hn hk (hP h hh)

theorem post {Q' : β → List (Entry σ ε ev α) → Prop} (hc : Under A P c Q)
    (hQ : ∀ b h, Q b h → Q' b h) : Under A P c Q' := fun Ψ h s hn hk hh =>
  Call.wp_mono (fun _ _ _ hr => ⟨hr.1, fun b he => hQ b _ (hr.2 b he)⟩) (hc Ψ h s hn hk hh)

/-- What is known does not depend on the history. -/
theorem fact {p : Prop} (hc : p → Under A (fun _ => True) c Q) : Under A (fun _ => p) c Q :=
  fun Ψ h s hn hk hp => hc hp Ψ h s hn hk trivial

theorem pure {b : β} (h : ∀ l, P l → Q b l) : Under A P (Call.pure b : Call σ ω ε ev β) Q :=
  fun _ l _ hn hk hh => ⟨⟨hn, hk⟩, fun _ he => by cases he; exact h l hh⟩

theorem throw {e : ε} : Under A P (Call.throw e : Call σ ω ε ev β) Q :=
  fun _ _ _ hn hk _ => ⟨⟨hn, hk⟩, fun _ he => by cases he⟩

theorem ofExcept {r : Except ε β} (h : ∀ b l, r = .ok b → P l → Q b l) :
    Under A P (Call.ofExcept r : Call σ ω ε ev β) Q := by
  cases r with
  | ok b => exact pure fun l hl => h b l rfl hl
  | error e => exact throw

theorem ite {p : Prop} [Decidable p] {c' : Call σ ω ε ev β} (h : p → Under A P c Q)
    (h' : ¬ p → Under A P c' Q) : Under A P (if p then c else c') Q := by
  split
  · exact h ‹_›
  · exact h' ‹_›

theorem input {Q : ℕ → List (Entry σ ε ev α) → Prop} (h : ∀ n l, P l → Q n l) :
    Under A P (Call.input : Call σ ω ε ev ℕ) Q :=
  fun _ l _ hn hk hh n => ⟨⟨hn, hk⟩, fun _ he => by cases he; exact h n l hh⟩

theorem fire {v : ev} {Q : Unit → List (Entry σ ε ev α) → Prop}
    (h : ∀ l, P l → Q () (l ++ [.emit v])) : Under A P (Call.fire v : Call σ ω ε ev Unit) Q := by
  intro Ψ l s hn hk hh s' _ _
  have hk' : AnswersAs Ψ (l ++ [.emit v]) := hk.snoc (by simp)
  exact ⟨hk', ⟨by simp, hk'⟩, fun _ _ => h l hh⟩

/-- **Sequencing.** -/
theorem bind {Q : γ → List (Entry σ ε ev α) → Prop} {f : β → Call σ ω ε ev γ}
    {M : β → List (Entry σ ε ev α) → Prop} (hc : Under A P c M)
    (hf : ∀ b, Under A (M b) (f b) Q) : Under A P (c.bind f) Q := by
  intro Ψ h s hn hk hh
  refine Call.wp_bind (Call.wp_mono (fun r h' s' hr => ?_) (hc Ψ h s hn hk hh))
  cases r with
  | ok b => exact hf b Ψ h' s' hr.1.1 hr.1.2 (hr.2 b rfl)
  | error e => exact ⟨hr.1, fun _ he => by cases he⟩

/-- **`try … catch`**: the handler knows nothing of what the body has done. -/
theorem handle {f : ε → Call σ ω ε ev β} (hc : Under A P c Q)
    (hf : ∀ e, Under A (fun _ => True) (f e) Q) : Under A P (c.handle f) Q := by
  intro Ψ h s hn hk hh
  refine Call.wp_handle (Call.wp_mono (fun r h' s' hr => ?_) (hc Ψ h s hn hk hh))
  cases r with
  | ok b => exact ⟨hr.1, fun _ he => by cases he; exact hr.2 b rfl⟩
  | error e => exact hf e Ψ h' s' hr.1.1 hr.1.2 trivial

theorem retry {again : ε → Bool} {n : ℕ} (hc : Under A (fun _ => True) c Q) :
    Under A P (c.retry again n) Q := by
  have hall : Under A (fun _ => True) (c.retry again n) Q := by
    induction n with
    | zero => exact hc
    | succ n ih => exact hc.handle fun e => ite (fun _ => ih) fun _ => throw
  exact hall.pre fun _ _ => trivial

/-- **A transaction that reads.** -/
theorem tx {t : Tx σ ω ε β} {F : β → Prop} (ht : Sees A F t)
    (hQ : ∀ b l a a', P l → F b → Q b (l ++ [.commit a a'])) :
    Under A P (Call.withTx t : Call σ ω ε ev β) Q := by
  intro Ψ h s hn hk hh
  have hroll : ∀ e, AnswersAs Ψ (h ++ [.rollback e]) := fun e => hk.snoc (by simp)
  refine Call.wp_withTx fun s' _ _ => ⟨?_, fun e _ s2 _ _ => ?_⟩
  · refine Tx.wp_mono (fun b ws s1 hb s2 _ _ => ?_) (fun e s1 _ s2 _ _ => ?_)
      (ht _ (fun s hs => hs.resolve_left hn) s')
    · have hk' : AnswersAs Ψ (h ++ [.commit s2 (view ws s2)]) := hk.snoc (by simp)
      exact ⟨trivial, hk', ⟨by simp, hk'⟩, fun _ he => by cases he; exact hQ b h _ _ hh hb.2⟩
    · exact ⟨hroll e, ⟨by simp, hroll e⟩, fun _ he => by cases he⟩
  · exact ⟨hroll e, ⟨by simp, hroll e⟩, fun _ he => by cases he⟩

/-- **A transaction that writes**, whatever it finds. -/
theorem write {t : Tx σ ω ε β} {e : ε} {R : β → σ → σ → Prop}
    (ht : Triple (fun _ => true) e anything Eq t R)
    (hQ : ∀ b l a a', P l → R b a a' → Q b (l ++ [.commit a a'])) :
    Under A P (Call.withTx t : Call σ ω ε ev β) Q := by
  intro Ψ h s hn hk hh
  have hroll : ∀ e, AnswersAs Ψ (h ++ [.rollback e]) := fun e => hk.snoc (by simp)
  refine Call.wp_withTx fun s' _ _ => ⟨?_, fun e _ s2 _ _ => ?_⟩
  · have hw := ht (fun s => h = [] ∨ A s) [] s' (did_nil.mpr fun _ _ => rfl)
    rw [Tx.guard_true] at hw
    refine Tx.wp_mono (fun b ws s1 hb s2 hs2 _ => ?_) (fun e s1 _ s2 _ _ => ?_) hw
    · have hk' : AnswersAs Ψ (h ++ [.commit s2 (view ws s2)]) := hk.snoc (by simp)
      exact ⟨trivial, hk', ⟨by simp, hk'⟩, fun _ he => by cases he; exact hQ b h _ _ hh (hb s2 hs2)⟩
    · exact ⟨hroll e, ⟨by simp, hroll e⟩, fun _ he => by cases he⟩
  · exact ⟨hroll e, ⟨by simp, hroll e⟩, fun _ he => by cases he⟩

/-- **`try … catch` around a transaction**: the handler finds that it has been rolled back. -/
theorem attempt {t : Tx σ ω ε γ} {g : γ → β} {f : ε → β} {M : γ → List (Entry σ ε ev α) → Prop}
    (ht : Under A P (Call.withTx t) M) (hg : ∀ b l, M b l → Q (g b) l)
    (hf : ∀ e l, P l → Q (f e) (l ++ [.rollback e])) :
    Under A P (((Call.withTx t : Call σ ω ε ev γ).bind fun b => .pure (g b)).handle
      fun e => .pure (f e)) Q := by
  intro Ψ h s hn hk hh
  refine Call.wp_handle (Call.wp_bind (Call.wp_mono (fun r h' s' hr => ?_)
    (Call.wp_withTx_error (ht Ψ h s hn hk hh))))
  cases r with
  | ok b => exact ⟨hr.1.1, fun _ he => by cases he; exact hg b h' (hr.1.2 b rfl)⟩
  | error e =>
    obtain rfl := hr.2 e rfl
    exact ⟨hr.1.1, fun _ he => by cases he; exact hf e h hh⟩

/-- **Whatever a request does**, it keeps what no further line takes away. -/
theorem lasts (hP : ∀ l e, P l → P (l ++ [e])) : Under A P c fun _ => P := by
  intro Ψ h s hn hk hh
  induction c generalizing h s with
  | pure b => exact ⟨⟨hn, hk⟩, fun _ _ => hh⟩
  | throw e => exact ⟨⟨hn, hk⟩, fun _ he => by cases he⟩
  | pick k ih => exact fun n => ih n h s hn hk hh
  | emit v k ih =>
    intro s' _ _
    have hk' : AnswersAs Ψ (h ++ [.emit v]) := hk.snoc (by simp)
    exact ⟨hk', ih _ s' (by simp) hk' (hP h _ hh)⟩
  | tx t k ih =>
    intro s' _ _
    have hroll : ∀ e, AnswersAs Ψ (h ++ [.rollback e]) := fun e => hk.snoc (by simp)
    refine ⟨Tx.wp_mono (fun b ws s1 _ s2 _ _ => ?_) (fun e s1 _ s2 _ _ => ?_)
      (Tx.wp_any t [] s'), fun e _ s2 _ _ => ?_⟩
    · have hk' : AnswersAs Ψ (h ++ [.commit s2 (view ws s2)]) := hk.snoc (by simp)
      exact ⟨trivial, hk', ih _ _ _ (by simp) hk' (hP h _ hh)⟩
    · exact ⟨hroll e, ih _ _ _ (by simp) (hroll e) (hP h _ hh)⟩
    · exact ⟨hroll e, ih _ _ _ (by simp) (hroll e) (hP h _ hh)⟩

/-- Nothing is asked. -/
theorem any : Under A P c fun _ _ => True :=
  (lasts (P := fun _ => True) fun _ _ _ => trivial).pre fun _ _ => trivial

/-- A session that runs the request. -/
theorem safe {c : Call σ ω ε ev α} {Ψ : α → List (Entry σ ε ev α) → Prop}
    (hc : Under A (fun _ => True) c Ψ) (s : σ) : Safe (.under A Ψ) c s := by
  have hk : AnswersAs Ψ ([.start] : List (Entry σ ε ev α)) :=
    answersAs_nil.snoc (e := .start) (by simp)
  refine ⟨answersAs_nil, fun s' _ _ => ⟨hk, Call.wp_mono (fun r h s hr s' _ => ?_)
    (hc Ψ [.start] s' (by simp) hk trivial)⟩⟩
  exact hr.1.2.snoc fun x hx => by cases hx; exact hr.2 x rfl

end Under

/-! ## Runs -/

variable [DecidableEq ι] {P : Config σ ω ε ev α → ℕ → Prop} {s₀ : σ}
  {calls : List (Call σ ω ε ev α)} {c c₀ : Config σ ω ε ev α}

theorem reach_on (h : Reach P c₀ c) :
    Reach (fun d _ => Reach P c₀ d ∧ ∃ n, d.trace = c.trace.take n) c₀ c := by
  induction h with
  | refl => exact .refl
  | @tail c c' i m hr hP hs ih =>
    obtain ⟨ss, ss', db', es, -, -, -, rfl⟩ := Config.step_cases hs
    refine .tail (ih.mono ?_) ⟨hr, c.trace.length, (List.take_left' rfl).symm⟩ hs
    rintro d - ⟨hd, n, hn⟩
    refine ⟨hd, min n c.trace.length, ?_⟩
    rw [List.take_append_of_le_length (by omega), hn, List.take_eq_take_min]

/-- **One session against all others**: if the condition of its protocol is met whenever it takes a
step, its history keeps the protocol. -/
theorem reach_finds {i : ℕ} {call : Call σ ω ε ev α} {p : Protocol σ ε ev α anything}
    (hcall : calls[i]? = some call) (hsafe : Safe p call s₀)
    (h : Reach P (Config.init s₀ calls) c)
    (hA : ∀ d n, Reach P (Config.init s₀ calls) d → d.trace = c.trace.take n →
      p.cond (linesOf i (c.trace.take n)) d.db) : p.keeps (linesOf i c.trace) c.db := by
  let prs : ℕ → Protocol σ ε ev α anything := fun j =>
    if j = i then p else .under (fun _ => True) fun _ _ => True
  have hall : ∀ (j : ℕ) d, calls[j]? = some d → Safe (prs j) d s₀ := by
    intro j d hd
    by_cases hj : j = i
    · subst hj
      obtain rfl : d = call := Option.some.inj (hd.symm.trans hcall)
      simpa [prs] using hsafe
    · -- Of the others nothing is asked.
      have hany : Under (fun _ => True) (fun _ => True) d
          (fun _ _ => True : α → List (Entry σ ε ev α) → Prop) :=
        (Under.lasts (P := fun _ => True) fun _ _ _ => trivial).post fun _ _ _ => trivial
      simpa [prs, hj] using hany.safe s₀
  have hcond : ∀ d j, (Reach P (Config.init s₀ calls) d ∧ ∃ n, d.trace = c.trace.take n) →
      (prs j).cond (d.histOf j) d.db := by
    rintro d j ⟨hd, n, hn⟩
    by_cases hj : j = i
    · subst hj
      simp only [prs, if_true, Config.histOf, hn]
      exact hA d n hd hn
    · simp only [prs, if_neg hj]
      exact Or.inr trivial
  have hk : (prs i).keeps (c.histOf i) c.db :=
    reach_keeps hall (fun d j _ hd _ => hcond d j hd) (reach_on h)
      (List.getElem?_eq_some_iff.mp hcall).1
  simp only [prs, if_true] at hk
  exact hk

/-- **A session that finds `A`** whenever it takes a step after its first, answers as described. -/
theorem reach_under {i : ℕ} {call : Call σ ω ε ev α} {Ψ : α → List (Entry σ ε ev α) → Prop}
    (hcall : calls[i]? = some call) (hu : Under A (fun _ => True) call Ψ)
    (h : Reach P (Config.init s₀ calls) c)
    (hA : ∀ d n, Reach P (Config.init s₀ calls) d → d.trace = c.trace.take n →
      linesOf i (c.trace.take n) ≠ [] → A d.db)
    {p : ℕ} {x : α} (hp : c.trace[p]? = some (i, .answer (.ok x))) :
    Ψ x (linesOf i (c.trace.take p)) := by
  have hk : AnswersAs Ψ (linesOf i c.trace) := reach_finds hcall (hu.safe s₀) h fun d n hd hn => by
    by_cases hnil : linesOf i (c.trace.take n) = []
    · exact Or.inl hnil
    · exact Or.inr (hA d n hd hn hnil)
  have hlen : p < c.trace.length := (List.getElem?_eq_some_iff.mp hp).1
  obtain ⟨h2, hh⟩ := linesOf_split hp hlen
  rw [List.take_length] at hh
  exact hk _ x h2 hh

end PatronLoyalty.Txn
