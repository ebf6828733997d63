import PatronLoyalty.Txn.RelyGuarantee

/-!
# The history of a run

The store changes only at commits, so the trace of a run is a **linear history**: `Linear s₀ trace s`
says that the commits of the trace lead, one after the other, from the store `s₀` to the store `s`.
Facts about single commits add up along it: `Linear.carry` takes an invariant, and `Linear.once`
says that what can only be done where it has not been done yet is done at most once.

Results: **`reach_linear`**, every run has a linear history; **`mem_histOf`**, a session's history is
its share of it.
-/

namespace PatronLoyalty.Txn

variable {σ ω ι ε ev α : Type} {es : List (Entry σ ε ev α)} {a b s s' : σ}
  {ss ss' : Session σ ω ε ev α} {m : Move ε} {i : ℕ} {e : Entry σ ε ev α} {r : Except ε α}

/-- What a line of the history does to the store. -/
def Entry.Effect : Entry σ ε ev α → σ → σ → Prop
  | .commit a b, s, s' => s = a ∧ s' = b
  | _, s, s' => s' = s

/-- The commits of `es` lead from `s` to `s'`. -/
def Linear : σ → List (ℕ × Entry σ ε ev α) → σ → Prop
  | s, [], s' => s' = s
  | s, e :: es, s' => ∃ m, e.2.Effect s m ∧ Linear m es s'

/-- A change of the store: a commit of session `i`. -/
def Commit (es : List (ℕ × Entry σ ε ev α)) (i : ℕ) (a b : σ) : Prop := (i, .commit a b) ∈ es

/-- The line is a commit that meets `p`. -/
def Entry.isCommit (p : σ → σ → Bool) : Entry σ ε ev α → Bool
  | .commit a b => p a b
  | _ => false

/-- Some commit of the history meets `p`. -/
def anyCommit (p : σ → σ → Bool) (es : List (ℕ × Entry σ ε ev α)) : Bool :=
  es.any fun e => e.2.isCommit p

theorem exists_commit {p : σ → σ → Bool} {es : List (ℕ × Entry σ ε ev α)}
    (h : anyCommit p es = true) : ∃ i a b, Commit es i a b ∧ p a b = true := by
  obtain ⟨⟨i, e⟩, hm, he⟩ := List.any_eq_true.mp h
  cases e with
  | commit a b => exact ⟨i, a, b, hm, he⟩
  | start => cases he
  | rollback e => cases he
  | emit v => cases he
  | answer r => cases he

/-- The change of the store at position `p` of the history. -/
def CommitAt (es : List (ℕ × Entry σ ε ev α)) (p : ℕ) (a b : σ) : Prop :=
  ∃ i, es[p]? = some (i, .commit a b)

theorem commitAt_of_commit {es : List (ℕ × Entry σ ε ev α)}
    (h : Commit es i a b) : ∃ p, CommitAt es p a b := by
  obtain ⟨p, hp⟩ := List.mem_iff_getElem?.mp h
  exact ⟨p, i, hp⟩

theorem mem_snoc {h : List (Entry σ ε ev α)} {x : Entry σ ε ev α} :
    x ∈ h ++ [e] ↔ x ∈ h ∨ x = e := by
  rw [List.mem_append, List.mem_singleton]

namespace Linear

variable {es es' : List (ℕ × Entry σ ε ev α)} {s s' : σ} {F : σ → Prop} {i j p q : ℕ}
  {a a' b b' : σ}

theorem append_iff : Linear s (es ++ es') s' ↔ ∃ m, Linear s es m ∧ Linear m es' s' := by
  induction es generalizing s with
  | nil =>
    constructor
    · exact fun h => ⟨s, rfl, h⟩
    · rintro ⟨m, rfl, h⟩
      exact h
  | cons e es ih =>
    constructor
    · rintro ⟨m, he, h⟩
      obtain ⟨n, hn, h'⟩ := ih.mp h
      exact ⟨n, ⟨m, he, hn⟩, h'⟩
    · rintro ⟨n, ⟨m, he, hn⟩, h'⟩
      exact ⟨m, he, ih.mpr ⟨n, hn, h'⟩⟩

/-- **What every commit keeps** holds at the end. -/
theorem carry (h : Linear s es s') (hF : ∀ i a b, Commit es i a b → F a → F b)
    (hs : F s) : F s' := by
  induction es generalizing s with
  | nil =>
    cases h
    exact hs
  | cons e es ih =>
    obtain ⟨m, he, h⟩ := h
    refine ih h (fun i a b hm => hF i a b (List.mem_cons_of_mem _ hm)) ?_
    obtain ⟨i, e⟩ := e
    cases e with
    | commit a b =>
      obtain ⟨rfl, rfl⟩ := he
      exact hF i s m List.mem_cons_self hs
    | start | rollback | emit | answer =>
      cases he
      exact hs

/-- A history leads to one store. -/
theorem det {s'' : σ} (h : Linear s es s') (h' : Linear s es s'') : s' = s'' := by
  induction es generalizing s with
  | nil => exact h.trans h'.symm
  | cons e es ih =>
    obtain ⟨m, he, h⟩ := h
    obtain ⟨m', he', h'⟩ := h'
    obtain ⟨i, e⟩ := e
    cases e with
    | commit a b =>
      obtain ⟨-, rfl⟩ := he
      obtain ⟨-, rfl⟩ := he'
      exact ih h h'
    | start | rollback | emit | answer =>
      cases he
      cases he'
      exact ih h h'

theorem split_at {e : ℕ × Entry σ ε ev α} (h : es[p]? = some e) :
    es = es.take p ++ e :: es.drop (p + 1) := by
  obtain ⟨hlt, rfl⟩ := List.getElem?_eq_some_iff.mp h
  rw [List.getElem_cons_drop, List.take_append_drop]

theorem between (h : Linear s es s') (hp : es[p]? = some (i, .commit a b))
    (hq : es[q]? = some (j, .commit a' b')) (hlt : p < q) :
    ∃ mid : List (ℕ × Entry σ ε ev α), mid ⊆ es ∧ Linear b mid a' := by
  rw [split_at hp] at h
  obtain ⟨m, -, m', ⟨rfl, rfl⟩, h'⟩ := append_iff.mp h
  have hq' : (es.drop (p + 1))[q - (p + 1)]? = some (j, .commit a' b') := by
    rw [List.getElem?_drop, ← hq]
    congr 1
    omega
  rw [split_at hq'] at h'
  obtain ⟨n, hn, n', ⟨rfl, -⟩, -⟩ := append_iff.mp h'
  exact ⟨_, fun x hx => List.mem_of_mem_drop (List.mem_of_mem_take hx), hn⟩

theorem before (h : Linear s es s') (hq : es[q]? = some (j, .commit a b)) :
    Linear s (es.take q) a := by
  rw [split_at hq] at h
  obtain ⟨m, hm, m', ⟨rfl, -⟩, -⟩ := append_iff.mp h
  exact hm

theorem after (h : Linear s es s') (hp : es[p]? = some (i, .commit a b)) :
    Linear b (es.drop (p + 1)) s' := by
  rw [split_at hp] at h
  obtain ⟨m, -, m', ⟨-, rfl⟩, hm⟩ := append_iff.mp h
  exact hm

/-- **What every commit guarantees**, from the start and from every commit to the end. -/
theorem guaranteed (G : Guarantee σ) (h : Linear s es s')
    (hG : ∀ {i : ℕ} {a b : σ}, Commit es i a b → G.rel a b) :
    G.rel s s' ∧ ∀ (p i : ℕ) (a b : σ), es[p]? = some (i, .commit a b) → G.rel b s' :=
  ⟨h.carry (F := G.rel s) (fun _ _ _ hc hs => G.trans hs (hG hc)) (G.refl s), fun _ _ _ b hp =>
    (h.after hp).carry (F := G.rel b) (fun _ _ _ hc hs => G.trans hs
      (hG (List.mem_of_mem_drop hc))) (G.refl b)⟩

/-- **What every later commit keeps**, holds from a commit on. -/
theorem carry_after (h : Linear s es s') (hp : es[p]? = some (i, .commit a b))
    (hF : ∀ q j x y, p < q → es[q]? = some (j, .commit x y) → F x → F y) (hb : F b) : F s' := by
  refine (h.after hp).carry (fun j x y hc hx => ?_) hb
  obtain ⟨n, hn⟩ := List.getElem?_of_mem hc
  rw [List.getElem?_drop] at hn
  exact hF (p + 1 + n) j x y (by omega) hn hx

/-- The same, up to another commit. -/
theorem carry_to (h : Linear s es s') (hp : es[p]? = some (i, .commit a b))
    (hq : es[q]? = some (j, .commit a' b')) (hlt : p < q)
    (hF : ∀ q j x y, p < q → es[q]? = some (j, .commit x y) → F x → F y) (hb : F b) : F a' := by
  refine (h.before hq).carry_after (p := p) (i := i) (a := a) ?_ (fun n k x y hn hx => ?_) hb
  · rwa [List.getElem?_take_of_lt hlt]
  · have hlen := (List.getElem?_eq_some_iff.mp hx).1
    rw [List.length_take] at hlen
    rw [List.getElem?_take_of_lt (by omega)] at hx
    exact hF n k x y hn hx

/-- **A change** happens at a commit. -/
theorem changes (h : Linear s es s') (hs : ¬ F s) (hs' : F s') :
    ∃ (m k : ℕ) (a b : σ), es[m]? = some (k, Entry.commit a b) ∧ ¬ F a ∧ F b := by
  by_contra hno
  refine h.carry (F := fun x => ¬ F x) (fun k a b hk ha hb => hno ?_) hs hs'
  obtain ⟨m, hm⟩ := List.getElem?_of_mem hk
  exact ⟨m, k, a, b, hm, ha, hb⟩

/-- What does not hold after a part of the history and holds at the end has come about since. -/
theorem changes_since (h : Linear s es s') {n : ℕ} {m : σ} (hn : Linear s (es.take n) m)
    (hm : ¬ F m) (hs' : F s') :
    ∃ p k x y, n ≤ p ∧ es[p]? = some (k, .commit x y) ∧ ¬ F x ∧ F y := by
  rw [← List.take_append_drop n es] at h
  obtain ⟨m', hm', h'⟩ := append_iff.mp h
  obtain rfl := hm'.det hn
  obtain ⟨p, k, x, y, hp, hx, hy⟩ := h'.changes hm hs'
  rw [List.getElem?_drop] at hp
  exact ⟨n + p, k, x, y, by omega, hp, hx, hy⟩

theorem changes_after (h : Linear s es s') (hp : es[p]? = some (i, .commit a b)) (hb : ¬ F b)
    (hs' : F s') :
    ∃ m k x y, p < m ∧ es[m]? = some (k, .commit x y) ∧ ¬ F x ∧ F y := by
  obtain ⟨n, k, x, y, hn, hx, hy⟩ := (h.after hp).changes hb hs'
  rw [List.getElem?_drop] at hn
  exact ⟨p + 1 + n, k, x, y, by omega, hn, hx, hy⟩

/-- What does not hold after one commit and holds before another has come about in between. -/
theorem changes_between (h : Linear s es s') (hp : es[p]? = some (i, .commit a b))
    (hq : es[q]? = some (j, .commit a' b')) (hlt : p < q) (hb : ¬ F b) (ha' : F a') :
    ∃ m k x y, p < m ∧ m < q ∧ es[m]? = some (k, .commit x y) ∧ ¬ F x ∧ F y := by
  have hp' : (es.take q)[p]? = some (i, .commit a b) := by rwa [List.getElem?_take_of_lt hlt]
  obtain ⟨m, k, x, y, hpm, hm, hx, hy⟩ := (h.before hq).changes_after hp' hb ha'
  obtain ⟨hlen, -⟩ := List.getElem?_eq_some_iff.mp hm
  rw [List.length_take] at hlen
  rw [List.getElem?_take_of_lt (by omega)] at hm
  exact ⟨m, k, x, y, hpm, by omega, hm, hx, hy⟩

/-- **Once.** Commits that need `F` not to hold, and make it hold for good, come at most once. -/
theorem once (h : Linear s es s') (hF : ∀ i a b, Commit es i a b → F a → F b)
    (hp : es[p]? = some (i, .commit a b)) (hq : es[q]? = some (j, .commit a' b')) (hb : F b)
    (ha : ¬ F a) (hb' : F b') (ha' : ¬ F a') :
    p = q := by
  rcases Nat.lt_trichotomy p q with hlt | heq | hlt
  · obtain ⟨mid, hmid, hl⟩ := h.between hp hq hlt
    have hlost : F a' := hl.carry (fun k x y hk => hF k x y (hmid hk)) hb
    exact absurd hlost ha'
  · exact heq
  · obtain ⟨mid, hmid, hl⟩ := h.between hq hp hlt
    have hlost : F a := hl.carry (fun k x y hk => hF k x y (hmid hk)) hb'
    exact absurd hlost ha

end Linear

theorem Config.mem_histOf {c : Config σ ω ε ev α} :
    e ∈ c.histOf i ↔ (i, e) ∈ c.trace := by
  unfold Config.histOf
  rw [List.mem_filterMap]
  constructor
  · rintro ⟨⟨j, e'⟩, hm, he⟩
    dsimp only at he
    split at he
    · rename_i hj
      cases he
      exact hj ▸ hm
    · cases he
  · exact fun hm => ⟨(i, e), hm, if_pos rfl⟩

/-- What request `i` has been answered. -/
def Config.answersOf (c : Config σ ω ε ev α) (i : ℕ) : List (Except ε α) :=
  (c.histOf i).filterMap fun
    | .answer r => some r
    | _ => none

theorem Config.mem_answersOf {c : Config σ ω ε ev α} :
    r ∈ c.answersOf i ↔ .answer r ∈ c.histOf i := by
  unfold Config.answersOf
  rw [List.mem_filterMap]
  constructor
  · rintro ⟨e, he, hr⟩
    cases e with
    | answer r' =>
      cases hr
      exact he
    | start | commit | rollback | emit => cases hr
  · exact fun h => ⟨_, h, rfl⟩

variable [Store σ ω ι]

/-- **One move** commits, or leaves the store and the record of commits as they are. -/
theorem Session.advance_cases [Faulty ε] (h : ss.advance s m = some (ss', s', es)) :
    es = [.commit s s'] ∨ s' = s ∧ ∀ a b, .commit a b ∉ es := by
  cases m with
  | go n =>
    cases ss with
    | new c => cases h; exact Or.inr ⟨rfl, by simp⟩
    | idle c => cases c <;> cases h <;> exact Or.inr ⟨rfl, by simp⟩
    | inTx ws t k =>
      cases t with
      | pure b => cases h; exact Or.inl rfl
      | stmt q t =>
        simp only [Session.advance, Session.next] at h
        revert h
        cases q (view ws s) with
        | error e => intro h; cases h; exact Or.inr ⟨rfl, by simp⟩
        | ok r => intro h; cases h; exact Or.inr ⟨rfl, by simp⟩
      | throw e => cases h; exact Or.inr ⟨rfl, by simp⟩
      | pick t => cases h; exact Or.inr ⟨rfl, by simp⟩
      | clock t => cases h; exact Or.inr ⟨rfl, by simp⟩
    | done => cases h
  | fail e =>
    cases ss with
    | inTx ws t k =>
      simp only [Session.advance] at h
      split at h
      · cases h
        exact Or.inr ⟨rfl, by simp⟩
      · cases h
    | new c => cases h
    | idle c => cases h
    | done => cases h
  | crash =>
    cases ss with
    | done => cases h
    | new c => cases h; exact Or.inr ⟨rfl, by simp⟩
    | idle c => cases h; exact Or.inr ⟨rfl, by simp⟩
    | inTx ws t k => cases h; exact Or.inr ⟨rfl, by simp⟩

theorem Session.advance_commits [Faulty ε] (h : ss.advance s m = some (ss', s', es))
    (hc : .commit a b ∈ es) : ss.ends = false := by
  cases ss with
  | idle c =>
    cases c with
    | pure r => cases m <;> cases h <;> simp at hc
    | throw e => cases m <;> cases h <;> simp at hc
    | pick k => rfl
    | emit v k => rfl
    | tx t k => rfl
  | new c => rfl
  | inTx ws t k => rfl
  | done => rfl

omit [Store σ ω ι] in
/-- Lines that are no commits leave the store alone. -/
theorem linear_silent (s : σ) (i : ℕ)
    (h : ∀ a b, .commit a b ∉ es) : Linear s (es.map (i, ·)) s := by
  induction es with
  | nil => rfl
  | cons e es ih =>
    have htail : Linear s (es.map (i, ·)) s := ih fun a b hm => h a b (List.mem_cons_of_mem _ hm)
    refine ⟨s, ?_, htail⟩
    cases e with
    | commit a b => exact absurd List.mem_cons_self (h a b)
    | start | rollback | emit | answer => rfl

theorem Session.advance_answers [Faulty ε] (h : ss.advance s m = some (ss', s', es))
    (hr : .answer r ∈ es) :
    ss = .idle (.ofExcept r) ∧ ss' = .done ∧ es = [.answer r] := by
  cases m with
  | go n =>
    cases ss with
    | new c => cases h; simp at hr
    | idle c =>
      cases c with
      | pure a => cases h; cases List.mem_singleton.mp hr; exact ⟨rfl, rfl, rfl⟩
      | throw e => cases h; cases List.mem_singleton.mp hr; exact ⟨rfl, rfl, rfl⟩
      | pick k => cases h; cases hr
      | emit v k => cases h; simp at hr
      | tx t k => cases h; cases hr
    | inTx ws t k =>
      cases t with
      | pure b => cases h; simp at hr
      | stmt q t =>
        simp only [Session.advance, Session.next] at h
        revert h
        cases q (view ws s) with
        | error e => intro h; cases h; simp at hr
        | ok r => intro h; cases h; cases hr
      | throw e => cases h; simp at hr
      | pick t => cases h; cases hr
      | clock t => cases h; cases hr
    | done => cases h
  | fail e =>
    cases ss with
    | inTx ws t k =>
      simp only [Session.advance] at h
      split at h
      · cases h
        simp at hr
      · cases h
    | new c => cases h
    | idle c => cases h
    | done => cases h
  | crash =>
    cases ss with
    | done => cases h
    | new c => cases h; cases hr
    | idle c => cases h; cases hr
    | inTx ws t k => cases h; cases hr

variable [Faulty ε] [DecidableEq ι] {P : Config σ ω ε ev α → ℕ → Prop} {s₀ : σ}
  {calls : List (Call σ ω ε ev α)} {c : Config σ ω ε ev α}

omit [Faulty ε] [DecidableEq ι] in
theorem histOf_step {c : Config σ ω ε ev α} (db : σ) (ss : List (Session σ ω ε ev α))
    (es : List (Entry σ ε ev α)) (j : ℕ) (hij : j ≠ i) :
    (⟨db, ss, c.trace ++ es.map (i, ·)⟩ : Config σ ω ε ev α).histOf j = c.histOf j := by
  rw [Config.histOf_append, if_neg (Ne.symm hij)]

/-- **One step of a run** adds to the history of its session: a commit, or nothing that changes the
store. -/
theorem Config.step_history {c c' : Config σ ω ε ev α}
    (h : c.step i m = some c') : ∃ es : List (Entry σ ε ev α), i < c.sess.length ∧
      c'.histOf i = c.histOf i ++ es ∧ (∀ j, j ≠ i → c'.histOf j = c.histOf j) ∧
      (es = [.commit c.db c'.db] ∧ c.ends i = false ∨ c'.db = c.db ∧ ∀ a b, .commit a b ∉ es) := by
  obtain ⟨ss, ss', db', es, hi, ha, -, rfl⟩ := Config.step_cases h
  refine ⟨es, (List.getElem?_eq_some_iff.mp hi).1, ?_, histOf_step db' _ es, ?_⟩
  · rw [Config.histOf_append, if_pos rfl]
  · rcases Session.advance_cases ha with rfl | ⟨rfl, hes⟩
    · refine Or.inl ⟨rfl, ?_⟩
      rw [Config.ends, hi]
      exact Session.advance_commits ha (List.mem_singleton_self _)
    · exact Or.inr ⟨rfl, hes⟩

/-- **Every run has a linear history.** -/
theorem reach_linear (h : Reach P (Config.init s₀ calls) c) : Linear s₀ c.trace c.db := by
  induction h with
  | refl => rfl
  | @tail c c' i m _ _ hs ih =>
    obtain ⟨ss, ss', db', es, -, ha, -, rfl⟩ := Config.step_cases hs
    refine Linear.append_iff.mpr ⟨c.db, ih, ?_⟩
    rcases Session.advance_cases ha with rfl | ⟨rfl, hes⟩
    · exact ⟨db', ⟨rfl, rfl⟩, rfl⟩
    · exact linear_silent c.db i hes

/-- **Every commit of a sound run is along the guarantee.** -/
theorem reach_commits {G : Guarantee σ} {pr : ℕ → Protocol σ ε ev α G}
    (hsafe : ∀ (i : ℕ) (c : Call σ ω ε ev α), calls[i]? = some c → Safe (pr i) c s₀)
    (hP : ∀ c i, c.Ok pr s₀ → P c i → c.ends i = false → (pr i).cond (c.histOf i) c.db)
    (h : Reach P (Config.init s₀ calls) c) (hc : Commit c.trace i a b) :
    G.rel a b := by
  induction h with
  | refl => cases hc
  | @tail c c' j m hr hp hs ih =>
    have hok := reach_sound hsafe hP hr
    have hrel := hok.step_rel (hP _ _ hok hp) hs
    obtain ⟨ss, ss', db', es, -, ha, -, rfl⟩ := Config.step_cases hs
    rcases List.mem_append.mp hc with hold | hnew
    · exact ih hold
    · obtain ⟨e, he, heq⟩ := List.mem_map.mp hnew
      cases heq
      rcases Session.advance_cases ha with rfl | ⟨-, hes⟩
      · cases List.mem_singleton.mp he
        exact hrel
      · exact absurd he (hes a b)

/-- Every line of the history is a session's. -/
theorem reach_owned (h : Reach P (Config.init s₀ calls) c)
    (he : (i, e) ∈ c.trace) : i < calls.length := by
  induction h with
  | refl => cases he
  | @tail c c' j m hr _ hs ih =>
    obtain ⟨ss, ss', db', es, hj, -, -, rfl⟩ := Config.step_cases hs
    rcases List.mem_append.mp he with hold | hnew
    · exact ih hold
    · obtain ⟨e', -, heq⟩ := List.mem_map.mp hnew
      cases heq
      have hlen : c.sess.length = calls.length := by
        rw [hr.length_sess, Config.init, List.length_map]
      rw [← hlen]
      exact (List.getElem?_eq_some_iff.mp hj).1

omit [Faulty ε] [DecidableEq ι] in
theorem histOf_init (i : ℕ) : (Config.init s₀ calls).histOf i = [] := rfl

/-- **An answer** was about to be given at its step, and nothing follows it. -/
theorem reach_answered (h : Reach P (Config.init s₀ calls) c)
    (hr : .answer r ∈ c.histOf i) : c.sess[i]? = some .done ∧
      ∃ d : Config σ ω ε ev α, Reach P (Config.init s₀ calls) d ∧ P d i ∧
        d.sess[i]? = some (.idle (.ofExcept r)) ∧ c.histOf i = d.histOf i ++ [.answer r] := by
  induction h with
  | refl =>
    rw [histOf_init] at hr
    cases hr
  | @tail c c' j m hreach hp hs ih =>
    obtain ⟨ss, ss', db', es, hj, ha, -, rfl⟩ := Config.step_cases hs
    rw [Config.histOf_append] at hr ⊢
    by_cases hij : j = i
    · subst hij
      rw [if_pos rfl] at hr ⊢
      rcases List.mem_append.mp hr with hold | hnew
      · -- a session that has answered does not move
        have hdone := (ih hold).1
        rw [hj] at hdone
        cases hdone
        cases m <;> cases ha
      · obtain ⟨rfl, rfl, rfl⟩ := Session.advance_answers ha hnew
        have hlt : j < c.sess.length := (List.getElem?_eq_some_iff.mp hj).1
        exact ⟨List.getElem?_set_self hlt, c, hreach, hp, hj, rfl⟩
    · rw [if_neg hij] at hr ⊢
      rw [List.getElem?_set_ne hij]
      exact ih hr

/-! ## Requests of one kind -/

section Each

variable {θ : Type} {reqs : List θ} {call : θ → Call σ ω ε ev α} {G : Guarantee σ}
  {pr : θ → Protocol σ ε ev α G}

/-- The protocol of request `i`; there is none beyond the last. -/
def Protocol.each (pr : θ → Protocol σ ε ev α G) (reqs : List θ) (i : ℕ) : Protocol σ ε ev α G :=
  match reqs[i]? with
  | some q => pr q
  | none => ⟨fun _ _ => True, fun _ _ => True, fun _ _ => trivial⟩

omit [DecidableEq ι] in
theorem each_safe (hsafe : ∀ q ∈ reqs, Safe (pr q) (call q) s₀) (i : ℕ) (c : Call σ ω ε ev α)
    (hi : (reqs.map call)[i]? = some c) : Safe (Protocol.each pr reqs i) c s₀ := by
  rw [List.getElem?_map] at hi
  cases hq : reqs[i]? with
  | none => simp [hq] at hi
  | some q =>
    rw [hq] at hi
    cases hi
    rw [Protocol.each, hq]
    exact hsafe q (List.mem_of_getElem? hq)

omit [Store σ ω ι] [Faulty ε] [DecidableEq ι] in
theorem each_cond (hcond : ∀ q h s, G.rel s₀ s → (pr q).cond h s) (i : ℕ)
    (h : List (Entry σ ε ev α)) (s : σ) (hs : G.rel s₀ s) : (Protocol.each pr reqs i).cond h s := by
  unfold Protocol.each
  cases reqs[i]? with
  | none => trivial
  | some q => exact hcond q h s hs

variable (hsafe : ∀ q ∈ reqs, Safe (pr q) (call q) s₀)
  (hcond : ∀ q h s, G.rel s₀ s → (pr q).cond h s)
  (h : Reach P (Config.init s₀ (reqs.map call)) c)

include hsafe hcond h

/-- **Each request** of the run keeps its protocol. -/
theorem reach_each {i : ℕ} {q : θ} (hi : reqs[i]? = some q) : (pr q).keeps (c.histOf i) c.db := by
  have hlt : i < (reqs.map call).length := by
    rw [List.length_map]
    exact (List.getElem?_eq_some_iff.mp hi).1
  have hk := reach_keeps (each_safe hsafe) (fun _ j hd _ _ => each_cond hcond j _ _ hd.rel) h hlt
  rw [Protocol.each, hi] at hk
  exact hk

theorem reach_each_commits {i : ℕ} {a b : σ} (hc : Commit c.trace i a b) : G.rel a b :=
  reach_commits (each_safe hsafe) (fun _ j hd _ _ => each_cond hcond j _ _ hd.rel) h hc

/-- The store has moved along the guarantee. -/
theorem reach_each_rel : G.rel s₀ c.db :=
  (reach_sound (each_safe hsafe) (fun _ j hd _ _ => each_cond hcond j _ _ hd.rel) h).rel

end Each

end PatronLoyalty.Txn
