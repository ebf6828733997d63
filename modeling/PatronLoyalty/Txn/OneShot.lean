import PatronLoyalty.Txn.History
import PatronLoyalty.Txn.Triples

/-!
# Requests with one effect

Many requests commit any number of harmless transactions (reads, provisions) and one that matters,
and their answer tells whether that one was committed. `OneShot U E` says so of a history: its
commits are within `U` but for at most one within `E r`; the answer `r` is given only after it,
and an error only without it.

A history is `Clear` before the effect and `Acted` from it on. The rules `wp_clear_bind`, `wp_act` and
`wp_acted_bind` take a request through the two phases.
-/

namespace PatronLoyalty.Txn

variable {σ ω ι ε ev α β γ : Type}

def Protocol.ofHistory (G : Guarantee σ) (cond : List (Entry σ ε ev α) → σ → Prop)
    (K : List (Entry σ ε ev α) → Prop) : Protocol σ ε ev α G where
  cond := cond
  keeps h _ := K h
  keeps_stable _ h := h

section History

variable {U E : σ → σ → Prop} {h : List (Entry σ ε ev α)} {e : Entry σ ε ev α} {a b : σ}

def Unanswered (h : List (Entry σ ε ev α)) : Prop := ∀ r, .answer r ∉ h

/-- Every commit is within `U`. -/
def Within (U : σ → σ → Prop) (h : List (Entry σ ε ev α)) : Prop :=
  ∀ a b, .commit a b ∈ h → U a b

/-- One commit is within `E`, the others are within `U`. -/
def OnceOnly (U E : σ → σ → Prop) (h : List (Entry σ ε ev α)) : Prop :=
  ∃ h₁ a b h₂, h = h₁ ++ .commit a b :: h₂ ∧ E a b ∧ Within U (h₁ ++ h₂)

theorem unanswered_nil : Unanswered ([] : List (Entry σ ε ev α)) := fun _ h => by cases h

theorem within_nil : Within U ([] : List (Entry σ ε ev α)) := fun _ _ h => by cases h

theorem Unanswered.snoc (hu : Unanswered h) (he : ∀ r, e ≠ .answer r) : Unanswered (h ++ [e]) := by
  intro r hm
  rcases mem_snoc.mp hm with hm | hm
  · exact hu r hm
  · exact he r hm.symm

theorem Within.snoc (hw : Within U h) (he : ∀ a b, e = .commit a b → U a b) :
    Within U (h ++ [e]) := by
  intro a b hm
  rcases mem_snoc.mp hm with hm | hm
  · exact hw a b hm
  · exact he a b hm.symm

theorem OnceOnly.snoc (ho : OnceOnly U E h) (he : ∀ a b, e = .commit a b → U a b) :
    OnceOnly U E (h ++ [e]) := by
  obtain ⟨h1, a, b, h2, rfl, hE, hw⟩ := ho
  refine ⟨h1, a, b, h2 ++ [e], by rw [List.append_assoc, List.cons_append], hE, ?_⟩
  rw [← List.append_assoc]
  exact hw.snoc he

/-- The effect itself. -/
theorem Within.once (hw : Within U h) (hE : E a b) :
    OnceOnly U E (h ++ [.commit a b]) :=
  ⟨h, a, b, [], rfl, hE, by rw [List.append_nil]; exact hw⟩

theorem OnceOnly.commits (ho : OnceOnly U E h) (hm : .commit a b ∈ h) :
    U a b ∨ E a b := by
  obtain ⟨h1, x, y, h2, rfl, hE, hw⟩ := ho
  rcases List.mem_append.mp hm with hm | hm
  · exact Or.inl (hw a b (List.mem_append_left _ hm))
  · rcases List.mem_cons.mp hm with heq | hm
    · cases heq
      exact Or.inr hE
    · exact Or.inl (hw a b (List.mem_append_right _ hm))

/-- Before the effect. -/
structure Clear (U : σ → σ → Prop) (h : List (Entry σ ε ev α)) : Prop where
  unanswered : Unanswered h
  within : Within U h

/-- After the effect. -/
structure Acted (U E : σ → σ → Prop) (h : List (Entry σ ε ev α)) : Prop where
  unanswered : Unanswered h
  once : OnceOnly U E h

theorem Clear.snoc (hc : Clear U h) (hr : ∀ r, e ≠ .answer r)
    (he : ∀ a b, e = .commit a b → U a b) : Clear U (h ++ [e]) :=
  ⟨hc.unanswered.snoc hr, hc.within.snoc he⟩

theorem Acted.snoc (ha : Acted U E h) (hr : ∀ r, e ≠ .answer r)
    (he : ∀ a b, e = .commit a b → U a b) : Acted U E (h ++ [e]) :=
  ⟨ha.unanswered.snoc hr, ha.once.snoc he⟩

theorem clear_nil : Clear U ([] : List (Entry σ ε ev α)) := ⟨unanswered_nil, within_nil⟩

theorem clear_start : Clear U ([.start] : List (Entry σ ε ev α)) :=
  clear_nil.snoc (fun _ he => by cases he) fun _ _ he => by cases he

theorem Clear.rollback (hc : Clear U h) (e : ε) : Clear U (h ++ [.rollback e]) :=
  hc.snoc (fun _ he => by cases he) fun _ _ he => by cases he

theorem Clear.acts (hc : Clear U h) (hE : E a b) : Acted U E (h ++ [.commit a b]) where
  unanswered := hc.unanswered.snoc fun _ he => by cases he
  once := hc.within.once hE

end History

/-- **One effect**, and an answer that tells of it. -/
structure OneShot (U : σ → σ → Prop) (E : α → σ → σ → Prop) (h : List (Entry σ ε ev α)) : Prop where
  commits : ∀ a b, .commit a b ∈ h → U a b ∨ ∃ r, E r a b
  answered : ∀ r, .answer (.ok r) ∈ h → OnceOnly U (E r) h
  refused : ∀ e, .answer (.error e) ∈ h → Within U h

section OneShot

variable {U : σ → σ → Prop} {E : α → σ → σ → Prop} {h : List (Entry σ ε ev α)} {r : α}

theorem Clear.oneShot (hc : Clear U h) : OneShot U E h where
  commits _ _ hm := Or.inl (hc.within _ _ hm)
  answered _ hm := absurd hm (hc.unanswered _)
  refused _ hm := absurd hm (hc.unanswered _)

theorem Acted.oneShot (ha : Acted U (E r) h) : OneShot U E h where
  commits _ _ hm := (ha.once.commits hm).imp id fun hE => ⟨r, hE⟩
  answered _ hm := absurd hm (ha.unanswered _)
  refused _ hm := absurd hm (ha.unanswered _)

theorem Acted.answer (ha : Acted U (E r) h) : OneShot U E (h ++ [.answer (.ok r)]) := by
  have honce : OnceOnly U (E r) (h ++ [.answer (.ok r)]) :=
    ha.once.snoc fun _ _ he => by cases he
  refine ⟨fun a b hm => (honce.commits hm).imp id fun hE => ⟨r, hE⟩, fun x hm => ?_,
    fun e hm => ?_⟩
  · rcases mem_snoc.mp hm with hm | hm
    · exact absurd hm (ha.unanswered _)
    · cases hm
      exact honce
  · rcases mem_snoc.mp hm with hm | hm
    · exact absurd hm (ha.unanswered _)
    · cases hm

theorem Clear.refuse (hc : Clear U h) (e : ε) : OneShot U E (h ++ [.answer (.error e)]) := by
  have hw : Within U (h ++ [.answer (.error e)]) := hc.within.snoc fun _ _ he => by cases he
  refine ⟨fun a b hm => Or.inl (hw a b hm), fun x hm => ?_, fun _ _ => hw⟩
  rcases mem_snoc.mp hm with hm | hm
  · exact absurd hm (hc.unanswered _)
  · cases hm

end OneShot

/-! ## Requests -/

section Calls

variable [Store σ ω ι] [Faulty ε] {G : Guarantee σ} {cond : List (Entry σ ε ev α) → σ → Prop}
  {U : σ → σ → Prop} {E : α → σ → σ → Prop} {h : List (Entry σ ε ev α)} {s : σ}
  {c : Call σ ω ε ev β}

omit [Store σ ω ι] [Faulty ε] in
theorem clear_quiet (hU : ∀ a, U a a) : (Protocol.ofHistory G cond (Clear U)).Quiet where
  read _ _ hc := Clear.snoc hc (fun _ he => by cases he) fun _ _ he => by cases he; exact hU _
  rollback _ _ _ hc := Clear.rollback hc _
  emit _ _ _ hc := Clear.snoc hc (fun _ he => by cases he) fun _ _ he => by cases he

omit [Store σ ω ι] [Faulty ε] in
theorem acted_quiet (hU : ∀ a, U a a) (E : σ → σ → Prop) :
    (Protocol.ofHistory G cond (Acted U E)).Quiet where
  read _ _ hc := Acted.snoc hc (fun _ he => by cases he) fun _ _ he => by cases he; exact hU _
  rollback _ _ _ hc := Acted.snoc hc (fun _ he => by cases he) fun _ _ he => by cases he
  emit _ _ _ hc := Acted.snoc hc (fun _ he => by cases he) fun _ _ he => by cases he

omit [Store σ ω ι] [Faulty ε] in
/-- Before the effect, harmless commits. -/
theorem clear_admits {R : σ → σ → Prop} (hR : ∀ a b, R a b → G.rel a b ∧ U a b) :
    (Protocol.ofHistory G cond (Clear U)).Admits R := fun _ a b _ hc hab =>
  ⟨(hR a b hab).1, Clear.snoc hc (fun _ he => by cases he) fun _ _ he => by
    cases he; exact (hR a b hab).2⟩

/-- A harmless part of a request, before the effect. -/
theorem wp_clear_bind {P : σ → Prop} {Φ : Except ε β → σ → Prop} {f : β → Call σ ω ε ev γ}
    {Q : Except ε γ → List (Entry σ ε ev α) → σ → Prop}
    (hc : Ensures (Protocol.ofHistory G cond (Clear U)) P c Φ) (hh : Clear U h) (hs : P s)
    (hf : ∀ b h' s', G.rel s s' → Φ (.ok b) s' → Clear U h' →
      Call.wp (Protocol.ofHistory G cond (OneShot U E)) Q (f b) h' s')
    (he : ∀ e h' s', Clear U h' → Q (.error e) h' s') :
    Call.wp (Protocol.ofHistory G cond (OneShot U E)) Q (c.bind f) h s := by
  refine Call.wp_bind (Call.wp_mono (fun r h' s' hr => ?_) (hc.phase
    (Protocol.ofHistory G cond (OneShot U E)) (fun _ _ hc => hc) (fun _ _ hc => Clear.oneShot hc)
    hh hs))
  obtain ⟨hk, hG, hΦ⟩ := hr
  cases r with
  | ok b => exact hf b h' s' hG hΦ hk
  | error e => exact he e h' s' hk

/-- **The effect**: a transaction that commits within `E`, or aborts. -/
theorem wp_act {t : Tx σ ω ε β} {R : β → σ → σ → Prop} {f : β → α} (hh : Clear U h)
    (ht : ∀ s', G.rel s s' →
      Tx.wp G (cond h) (fun b => Did G (R b)) (fun _ _ => True) t [] s')
    (hR : ∀ b a c, cond h a → R b a c → G.rel a c ∧ E (f b) a c) :
    Call.wp (Protocol.ofHistory G cond (OneShot U E)) (fun r h' _ => match r with
        | .ok b => Acted U (E (f b)) h'
        | .error _ => Clear U h') (Call.withTx t) h s := by
  have aborted : ∀ e, Clear U (h ++ [.rollback e]) := hh.rollback
  refine Call.wp_withTx fun s' hG _ => ⟨?_, fun e _ _ _ _ => ⟨(aborted e).oneShot, aborted e⟩⟩
  refine Tx.wp_mono (fun b ws s1 hd s2 hst hA => ?_)
    (fun e s1 _ s2 _ _ => ⟨(aborted e).oneShot, aborted e⟩) (ht s' hG)
  obtain ⟨hrel, hE⟩ := hR b _ _ hA (hd s2 hst)
  have hacted : Acted U (E (f b)) (h ++ [.commit s2 (view ws s2)]) := hh.acts hE
  exact ⟨hrel, hacted.oneShot, hacted⟩

/-- A harmless part of a request that cannot fail, after the effect. -/
theorem wp_acted_bind {r : α} {f : β → Call σ ω ε ev γ}
    {Q : Except ε γ → List (Entry σ ε ev α) → σ → Prop}
    (hc : Ensures (Protocol.ofHistory G cond (Acted U (E r))) (fun _ => True) c
      (onResult (fun _ _ => True) fun _ _ => False)) (hh : Acted U (E r) h)
    (hf : ∀ b h' s', Acted U (E r) h' →
      Call.wp (Protocol.ofHistory G cond (OneShot U E)) Q (f b) h' s') :
    Call.wp (Protocol.ofHistory G cond (OneShot U E)) Q (c.bind f) h s := by
  refine Call.wp_bind (Call.wp_mono (fun r h' s' hr => ?_) (hc.phase
    (Protocol.ofHistory G cond (OneShot U E)) (fun _ _ hc => hc) (fun _ _ hc => Acted.oneShot hc)
    hh trivial))
  obtain ⟨hk, -, hr⟩ := hr
  cases r with
  | ok b => exact hf b h' s' hk
  | error e => exact hr.elim

/-- What a service has come to when it answers: its effect, or an error without it. -/
def Comes (U : σ → σ → Prop) (E : α → σ → σ → Prop) (f : β → α) (r : Except ε β)
    (h : List (Entry σ ε ev α)) (_ : σ) : Prop :=
  match r with
  | .ok b => Acted U (E (f b)) h
  | .error _ => Clear U h

theorem oneShot_safe {c : Call σ ω ε ev α}
    (hc : ∀ s', G.rel s s' → cond [] s' →
      Call.wp (Protocol.ofHistory G cond (OneShot U E)) (fun r h _ => match r with
        | .ok r => Acted U (E r) h
        | .error _ => Clear U h) c [.start] s') :
    Safe (Protocol.ofHistory G cond (OneShot U E)) c s := by
  refine ⟨clear_nil.oneShot, fun s' hG hA => ⟨clear_start.oneShot, ?_⟩⟩
  refine Call.wp_mono (fun r h s1 hr s2 _ => ?_) (hc s' hG hA)
  cases r with
  | ok r => exact Acted.answer hr
  | error e => exact Clear.refuse hr e

/-- A service that comes to its effect, under a request that wraps its result. -/
theorem oneShot_safe_of_bind {f : β → α} (hc : ∀ s', G.rel s s' → cond [] s' →
      Call.wp (Protocol.ofHistory G cond (OneShot U E)) (Comes U E f) c [.start] s') :
    Safe (Protocol.ofHistory G cond (OneShot U E)) (c.bind fun b => Call.pure (f b)) s := by
  refine oneShot_safe fun s' hG hA => ?_
  refine Call.wp_bind (Call.wp_mono (fun r h' s1 hr => ?_) (hc s' hG hA))
  cases r with
  | ok b => exact hr
  | error e => exact hr

end Calls

end PatronLoyalty.Txn
