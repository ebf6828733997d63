import PatronLoyalty.Txn.RelyGuarantee

/-!
# Requests that run alone

`Call.eval` runs one request on a store that nobody else touches: its transactions commit one after
the other, its inputs come from an environment, and the database does not fail. It computes, so a
request can be tried on a concrete store.

`Call.leads` is the weakest precondition of a request that runs alone, whatever its inputs; its rules
follow the text of the request, and inside a transaction it is `Tx.wp` for the guarantee `alone`,
under which nobody else commits.

Headline: **`eval_leads`**, what `Call.leads` promises, `Call.eval` comes to.
-/

namespace PatronLoyalty.Txn

/-- The inputs of a request, by the order in which it asks for them, and the time at which it
runs. -/
structure Env where
  pick : ℕ → ℕ
  today : ℕ

variable {σ ω ι ε ev α β γ : Type} [Store σ ω ι] {env : Env} {s : σ} {ws : List ω}

namespace Tx

/-- What a transaction that has `ws` pending and has asked for `n` inputs comes to: its result with
all its writes, or the error that aborts it. -/
def eval (env : Env) : Tx σ ω ε β → ℕ → List ω → σ → Except ε (β × List ω) × ℕ
  | pure b, n, ws, _ => (.ok (b, ws), n)
  | throw e, n, _, _ => (.error e, n)
  | pick k, n, ws, s => (k (env.pick n)).eval env (n + 1) ws s
  | clock k, n, ws, s => (k env.today).eval env n ws s
  | stmt q k, n, ws, s =>
    match q (view ws s) with
    | .error e => (.error e, n)
    | .ok (b, ws') => (k b).eval env n (ws ++ ws') s

@[simp] theorem eval_pure (b : β) (n : ℕ) (ws : List ω) (s : σ) :
    (pure b : Tx σ ω ε β).eval env n ws s = (.ok (b, ws), n) := rfl

@[simp] theorem eval_throw (e : ε) (n : ℕ) (ws : List ω) (s : σ) :
    (throw e : Tx σ ω ε β).eval env n ws s = (.error e, n) := rfl

@[simp] theorem eval_now (n : ℕ) (ws : List ω) (s : σ) :
    (now : Tx σ ω ε ℕ).eval env n ws s = (.ok (env.today, ws), n) := rfl

@[simp] theorem eval_read (f : σ → β) (n : ℕ) (ws : List ω) (s : σ) :
    (read f : Tx σ ω ε β).eval env n ws s = (.ok (f (view ws s), ws), n) := by
  simp [read, eval]

theorem eval_exec {q : σ → Except ε (β × List ω)} {n : ℕ} {ws ws' : List ω} {s : σ} {b : β}
    (h : q (view ws s) = .ok (b, ws')) :
    (exec q : Tx σ ω ε β).eval env n ws s = (.ok (b, ws ++ ws'), n) := by
  simp [exec, eval, h]

@[simp] theorem eval_findFirst (rows : σ → List β) (n : ℕ) (ws : List ω) (s : σ) :
    (findFirst rows : Tx σ ω ε (Option β)).eval env n ws s =
      (.ok ((rows (view ws s))[env.pick n % (rows (view ws s)).length]?, ws), n + 1) := by
  simp [findFirst, eval]

/-- **Sequencing.** -/
theorem eval_bind (t : Tx σ ω ε β) (f : β → Tx σ ω ε γ) (n : ℕ) (ws : List ω) (s : σ) :
    (t.bind f).eval env n ws s =
      match (t.eval env n ws s).1 with
      | .ok (b, ws') => (f b).eval env (t.eval env n ws s).2 ws' s
      | .error e => (.error e, (t.eval env n ws s).2) := by
  induction t generalizing n ws with
  | pure b => rfl
  | throw e => rfl
  | pick k ih => exact ih _ _ _
  | clock k ih => exact ih _ _ _
  | stmt q k ih =>
    simp only [bind, eval]
    cases q (view ws s) with
    | error e => rfl
    | ok r => exact ih r.1 _ _

end Tx

/-- Every error the body throws, on any store, is in `X`. -/
def Tx.Throws (X : ε → Prop) : Tx σ ω ε β → Prop
  | pure _ => True
  | throw e => X e
  | pick k => ∀ n, (k n).Throws X
  | clock k => ∀ n, (k n).Throws X
  | stmt q k => (∀ s e, q s = .error e → X e) ∧ ∀ b, (k b).Throws X

namespace Tx

variable {X : ε → Prop}

omit [Store σ ω ι] in
theorem throws_bind {t : Tx σ ω ε β} {f : β → Tx σ ω ε γ} (ht : t.Throws X)
    (hf : ∀ b, (f b).Throws X) : (t.bind f).Throws X := by
  induction t with
  | pure b => exact hf b
  | throw e => exact ht
  | pick k ih => exact fun n => ih n (ht n)
  | clock k ih => exact fun n => ih n (ht n)
  | stmt q k ih => exact ⟨ht.1, fun b => ih b (ht.2 b)⟩

omit [Store σ ω ι] in
theorem throws_read (f : σ → β) : (read f : Tx σ ω ε β).Throws X :=
  ⟨fun _ _ h => by simp at h, fun _ => trivial⟩

omit [Store σ ω ι] in
theorem throws_exec {q : σ → Except ε (β × List ω)} (h : ∀ s e, q s = .error e → X e) :
    (exec q).Throws X := ⟨h, fun _ => trivial⟩

/-- **What a transaction fails with** when it runs alone. -/
theorem eval_throws {t : Tx σ ω ε β} (ht : t.Throws X) {n m : ℕ} {ws : List ω} {s : σ} {e : ε}
    (h : t.eval env n ws s = (.error e, m)) : X e := by
  induction t generalizing n ws with
  | pure b => cases h
  | throw e' => cases h; exact ht
  | pick k ih => exact ih _ (ht _) h
  | clock k ih => exact ih _ (ht _) h
  | stmt q k ih =>
    unfold eval at h
    cases hq : q (view ws s) with
    | error e' =>
      rw [hq] at h
      cases h
      exact ht.1 _ _ hq
    | ok r =>
      rw [hq] at h
      exact ih _ (ht.2 _) h

end Tx

/-- `p` of a result, `q` of an error. -/
def onAnswer (p : β → List ev → σ → Prop) (q : ε → List ev → σ → Prop) :
    Except ε β → List ev → σ → Prop
  | .ok b => p b
  | .error e => q e

/-- What a request that ran alone has come to. -/
structure Ran (σ ε ev α : Type) where
  answer : Except ε α
  db : σ
  events : List ev
  used : ℕ

/-- A result that is passed on. -/
def Ran.andThen (r : Ran σ ε ev β) (f : β → ℕ → σ → Ran σ ε ev γ) : Ran σ ε ev γ :=
  match r.answer with
  | .ok b =>
    let q := f b r.used r.db
    { q with events := r.events ++ q.events }
  | .error e => ⟨.error e, r.db, r.events, r.used⟩

namespace Call

/-- **What a request comes to alone.** -/
def eval (env : Env) : Call σ ω ε ev α → ℕ → σ → Ran σ ε ev α
  | pure a, n, s => ⟨.ok a, s, [], n⟩
  | throw e, n, s => ⟨.error e, s, [], n⟩
  | pick k, n, s => (k (env.pick n)).eval env (n + 1) s
  | emit v k, n, s =>
    let r := k.eval env n s
    { r with events := v :: r.events }
  | tx t k, n, s =>
    match t.eval env n [] s with
    | (.ok (b, ws), m) => (k (.ok b)).eval env m (view ws s)
    | (.error e, m) => (k (.error e)).eval env m s

@[simp] theorem eval_pure (a : α) (n : ℕ) (s : σ) :
    (pure a : Call σ ω ε ev α).eval env n s = ⟨.ok a, s, [], n⟩ := rfl

@[simp] theorem eval_throw (e : ε) (n : ℕ) (s : σ) :
    (throw e : Call σ ω ε ev α).eval env n s = ⟨.error e, s, [], n⟩ := rfl

@[simp] theorem eval_input (n : ℕ) (s : σ) :
    (input : Call σ ω ε ev ℕ).eval env n s = ⟨.ok (env.pick n), s, [], n + 1⟩ := rfl

@[simp] theorem eval_ofExcept (r : Except ε α) (n : ℕ) (s : σ) :
    (ofExcept r : Call σ ω ε ev α).eval env n s = ⟨r, s, [], n⟩ := by
  cases r <;> rfl

variable {t : Tx σ ω ε β} {m n : ℕ} {s : σ} {b : β}

/-- A transaction that commits. -/
theorem eval_withTx {ws : List ω} (h : t.eval env n [] s = (.ok (b, ws), m)) :
    (withTx t : Call σ ω ε ev β).eval env n s = ⟨.ok b, view ws s, [], m⟩ := by
  simp [withTx, eval, h]

/-- A transaction that aborts. -/
theorem eval_withTx_error {e : ε}
    (h : ((withTx t : Call σ ω ε ev β).eval env n s).answer = .error e) :
    ∃ m, t.eval env n [] s = (.error e, m) := by
  unfold withTx eval at h
  split at h
  · cases h
  · rename_i e' m he
    cases h
    exact ⟨m, he⟩

theorem answer_withTx (t : Tx σ ω ε β) (n : ℕ) (s : σ) :
    ((withTx t : Call σ ω ε ev β).eval env n s).answer = (t.eval env n [] s).1.map (·.1) := by
  unfold withTx eval
  split <;> simp_all [Except.map]

theorem eval_readTx (h : t.eval env n [] s = (.ok (b, []), m)) :
    (withTx t : Call σ ω ε ev β).eval env n s = ⟨.ok b, s, [], m⟩ := eval_withTx h

/-- **Sequencing.** -/
theorem eval_bind (c : Call σ ω ε ev β) (f : β → Call σ ω ε ev γ) (n : ℕ) (s : σ) :
    (c.bind f).eval env n s = (c.eval env n s).andThen fun b m s' => (f b).eval env m s' := by
  induction c generalizing n s with
  | pure b => rfl
  | throw e => rfl
  | pick k ih => exact ih _ _ _
  | emit v k ih =>
    simp only [bind, eval, ih, Ran.andThen]
    cases (k.eval env n s).answer <;> rfl
  | tx t k ih =>
    simp only [bind, eval]
    split
    · exact ih _ _ _
    · exact ih _ _ _

/-- Sequencing after a part that answers. -/
theorem eval_bind_ok {c : Call σ ω ε ev β} {f : β → Call σ ω ε ev γ} {s' : σ}
    (h : c.eval env n s = ⟨.ok b, s', [], m⟩) : (c.bind f).eval env n s = (f b).eval env m s' := by
  rw [eval_bind, h]
  rfl

/-- The parts of a sequence that answers. -/
theorem eval_bind_eq_ok {c : Call σ ω ε ev β} {f : β → Call σ ω ε ev γ} {g : γ}
    (h : ((c.bind f).eval env n s).answer = .ok g) :
    ∃ b, (c.eval env n s).answer = .ok b ∧
      ((f b).eval env (c.eval env n s).used (c.eval env n s).db).answer = .ok g := by
  rw [eval_bind, Ran.andThen] at h
  cases hb : (c.eval env n s).answer with
  | ok b =>
    rw [hb] at h
    exact ⟨b, rfl, h⟩
  | error e =>
    rw [hb] at h
    cases h

end Call

/-! ## Weakest preconditions without interference -/

/-- Nobody else commits. -/
def alone : Guarantee σ where
  rel := Eq
  refl _ := rfl
  trans := Eq.trans

@[simp] theorem alone_rel {s' : σ} : alone.rel s s' ↔ s = s' := Iff.rfl

theorem stable_alone {s' : σ} : Stable alone ws s s' ↔ s' = s := by
  constructor
  · exact fun h => h.1.symm
  · rintro rfl
    exact Stable.refl ws s'

theorem did_alone {R : σ → σ → Prop} (h : R s (view ws s)) :
    ∀ s', Stable alone ws s s' → R s' (view ws s') := by
  intro s' hs
  rw [stable_alone] at hs
  subst hs
  exact h

/-- What a transaction comes to alone is one of the outcomes of its weakest precondition. -/
theorem Tx.eval_wp (env : Env) {A : σ → Prop} {post : β → List ω → σ → Prop} {exc : ε → σ → Prop}
    {t : Tx σ ω ε β} (hA : A s) (h : Tx.wp alone A post exc t ws s) (n : ℕ) :
    (∀ b ws' m, t.eval env n ws s = (.ok (b, ws'), m) → post b ws' s) ∧
      ∀ e m, t.eval env n ws s = (.error e, m) → exc e s := by
  induction t generalizing n ws with
  | pure b =>
    refine ⟨fun b' ws' m he => ?_, fun e m he => ?_⟩
    · cases he
      exact h
    · cases he
  | throw e =>
    refine ⟨fun b' ws' m he => ?_, fun e' m he => ?_⟩
    · cases he
    · cases he
      exact h
  | pick k ih => exact ih _ (h _) _
  | clock k ih => exact ih _ (h _) _
  | stmt q k ih =>
    have hq := h s (Stable.refl ws s) hA
    simp only [eval]
    revert hq
    cases q (view ws s) with
    | error e =>
      intro hq
      refine ⟨fun b ws' m he => ?_, fun e' m he => ?_⟩
      · cases he
      · cases he
        exact hq
    | ok r => exact fun hq => ih r.1 hq _

namespace Call

/-- `leads Q c es s`: with the events `es` behind it, the request `c` runs alone from `s` to an
answer that meets `Q`, whatever its inputs. -/
def leads (Q : Except ε β → List ev → σ → Prop) : Call σ ω ε ev β → List ev → σ → Prop
  | pure b, es, s => Q (.ok b) es s
  | throw e, es, s => Q (.error e) es s
  | pick k, es, s => ∀ n, leads Q (k n) es s
  | emit v k, es, s => leads Q k (es ++ [v]) s
  | tx t k, es, s => Tx.wp alone (fun _ => True) (fun b ws s => leads Q (k (.ok b)) es (view ws s))
      (fun e s => leads Q (k (.error e)) es s) t [] s

variable {Q : Except ε β → List ev → σ → Prop} {c : Call σ ω ε ev β} {es : List ev} {s : σ}

@[simp] theorem leads_pure (b : β) (es : List ev) (s : σ) :
    leads Q (pure b : Call σ ω ε ev β) es s ↔ Q (.ok b) es s := Iff.rfl

@[simp] theorem leads_throw (e : ε) (es : List ev) (s : σ) :
    leads Q (throw e : Call σ ω ε ev β) es s ↔ Q (.error e) es s := Iff.rfl

/-- **Consequence.** -/
theorem leads_mono {Q' : Except ε β → List ev → σ → Prop} (hQ : ∀ r es s, Q r es s → Q' r es s)
    (h : leads Q c es s) : leads Q' c es s := by
  induction c generalizing es s with
  | pure b => exact hQ _ _ _ h
  | throw e => exact hQ _ _ _ h
  | pick k ih => exact fun n => ih n (h n)
  | emit v k ih => exact ih h
  | tx t k ih => exact Tx.wp_mono (fun b _ _ => ih (.ok b)) (fun e _ => ih (.error e)) h

/-- **Sequencing.** -/
theorem leads_bind {Q : Except ε γ → List ev → σ → Prop} {f : β → Call σ ω ε ev γ}
    (h : leads (onAnswer (fun b => leads Q (f b)) fun e => Q (.error e)) c es s) :
    leads Q (c.bind f) es s := by
  induction c generalizing es s with
  | pure b => exact h
  | throw e => exact h
  | pick k ih => exact fun n => ih n (h n)
  | emit v k ih => exact ih h
  | tx t k ih => exact Tx.wp_mono (fun b _ _ => ih (.ok b)) (fun e _ => ih (.error e)) h

/-- **`try … catch`.** -/
theorem leads_handle {f : ε → Call σ ω ε ev β}
    (h : leads (onAnswer (fun b => Q (.ok b)) fun e => leads Q (f e)) c es s) :
    leads Q (c.handle f) es s := by
  induction c generalizing es s with
  | pure b => exact h
  | throw e => exact h
  | pick k ih => exact fun n => ih n (h n)
  | emit v k ih => exact ih h
  | tx t k ih => exact Tx.wp_mono (fun b _ _ => ih (.ok b)) (fun e _ => ih (.error e)) h

/-- One transaction: it takes the store from `s` to what `K` says, or leaves it. -/
theorem leads_withTx {t : Tx σ ω ε β} {K : β → σ → σ → Prop}
    (h : Tx.wp alone (fun _ => True) (fun b ws s => K b s (view ws s)) (fun _ _ => True) t [] s)
    (hok : ∀ b s', K b s s' → Q (.ok b) es s') (herr : ∀ e, Q (.error e) es s) :
    leads Q (withTx t) es s := by
  refine Tx.wp_mono (fun b ws s' hb => ?_) (fun e s' he => ?_) (Tx.wp_from (alone.refl s) h)
  · obtain ⟨hs, hK⟩ := hb
    rw [alone_rel] at hs
    subst hs
    exact hok b _ hK
  · obtain ⟨hs, -⟩ := he
    rw [alone_rel] at hs
    subst hs
    exact herr e

theorem leads_input {Q : Except ε ℕ → List ev → σ → Prop}
    (h : ∀ n, Q (.ok n) es s) : leads Q (input : Call σ ω ε ev ℕ) es s := h

theorem leads_fireAll {Q : Except ε Unit → List ev → σ → Prop} {vs : List ev}
    (h : Q (.ok ()) (es ++ vs) s) : leads Q (fireAll vs : Call σ ω ε ev Unit) es s := by
  induction vs generalizing es with
  | nil => simpa [fireAll] using h
  | cons v vs ih =>
    have h' : Q (.ok ()) ((es ++ [v]) ++ vs) s := by
      rw [List.append_assoc]
      exact h
    exact ih h'

/-- What a request comes to with the events `es` behind it. -/
theorem eval_leads_from (h : leads Q c es s) (n : ℕ) :
    Q (c.eval env n s).answer (es ++ (c.eval env n s).events) (c.eval env n s).db := by
  induction c generalizing es n s with
  | pure b =>
    simp only [eval, List.append_nil]
    exact h
  | throw e =>
    simp only [eval, List.append_nil]
    exact h
  | pick k ih => exact ih _ (h _) _
  | emit v k ih =>
    have := ih h n
    simp only [eval]
    rw [List.append_assoc] at this
    exact this
  | tx t k ih =>
    obtain ⟨hok, herr⟩ := Tx.eval_wp env trivial h n
    simp only [eval]
    split
    · rename_i b ws m heq
      exact ih _ (hok b ws m heq) m
    · rename_i e m heq
      exact ih _ (herr e m heq) m

/-- **Adequacy.** What `leads` promises, `eval` comes to. -/
theorem eval_leads (h : leads Q c [] s) (n : ℕ) :
    Q (c.eval env n s).answer (c.eval env n s).events (c.eval env n s).db :=
  eval_leads_from h n

end Call

end PatronLoyalty.Txn
