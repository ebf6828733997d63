import PatronLoyalty.Txn.Under

/-!
# Requests whose events are not recorded

`c.silent` is the request `c` without its events, over any other kind of events. It is made for a run
that records what one part of a service emits and leaves the rest of it out.

`c.Makes e G E` says that the transactions of `c` are confined to `E`, whatever the events around them.
Headlines: **`Call.Makes.tame`**, a silenced request keeps a protocol that admits these commits;
**`Rel.reach_lasts`**, no commit of any run takes a row away.
-/

namespace PatronLoyalty.Txn

open Relation

variable {σ ω ι ε ev ev' ev'' α β γ : Type}

namespace Call

/-- The request without its events. -/
def silent : Call σ ω ε ev β → Call σ ω ε ev' β
  | pure b => pure b
  | throw e => throw e
  | pick k => pick fun n => (k n).silent
  | emit _ k => k.silent
  | tx t k => tx t fun r => (k r).silent

theorem silent_bind (c : Call σ ω ε ev β) (f : β → Call σ ω ε ev γ) :
    ((c.bind f).silent : Call σ ω ε ev' γ) = c.silent.bind fun b => (f b).silent := by
  induction c with
  | pure b => rfl
  | throw e => rfl
  | pick k ih => exact congrArg pick (funext fun n => ih n)
  | emit v k ih => exact ih
  | tx t k ih => exact congrArg (tx t) (funext fun r => ih r)

theorem silent_withTx (t : Tx σ ω ε β) :
    ((withTx t : Call σ ω ε ev β).silent : Call σ ω ε ev' β) = withTx t := by
  refine congrArg (tx t) (funext fun r => ?_)
  cases r <;> rfl

theorem silent_fireAll (vs : List ev) :
    ((fireAll vs : Call σ ω ε ev Unit).silent : Call σ ω ε ev' Unit) = pure () := by
  induction vs with
  | nil => rfl
  | cons v vs ih => exact ih

theorem silent_silent (c : Call σ ω ε ev β) :
    ((c.silent : Call σ ω ε ev' β).silent : Call σ ω ε ev'' β) = c.silent := by
  induction c with
  | pure b => rfl
  | throw e => rfl
  | pick k ih => exact congrArg pick (funext fun n => ih n)
  | emit v k ih => exact ih
  | tx t k ih => exact congrArg (tx t) (funext fun r => ih r)

end Call

/-! ## What the transactions of a request do -/

section Makes

variable [Store σ ω ι] {e : ε} {G : Guarantee σ} {E : σ → σ → Prop}

/-- **The transactions** of the request are confined to `E`. -/
def Call.Makes (e : ε) (G : Guarantee σ) (E : σ → σ → Prop) : Call σ ω ε ev β → Prop
  | pure _ | throw _ => True
  | pick k => ∀ n, (k n).Makes e G E
  | emit _ k => k.Makes e G E
  | tx t k => Confined (fun _ => true) e G E t ∧ ∀ r, (k r).Makes e G E

namespace Call.Makes

variable {c : Call σ ω ε ev β}

theorem bind {f : β → Call σ ω ε ev γ} (hc : c.Makes e G E)
    (hf : ∀ b, (f b).Makes e G E) : (c.bind f).Makes e G E := by
  induction c with
  | pure b => exact hf b
  | throw e' => trivial
  | pick k ih => exact fun n => ih n (hc n)
  | emit v k ih => exact ih hc
  | tx t k ih => exact ⟨hc.1, fun r => ih r (hc.2 r)⟩

theorem handle {f : ε → Call σ ω ε ev β} (hc : c.Makes e G E)
    (hf : ∀ e', (f e').Makes e G E) : (c.handle f).Makes e G E := by
  induction c with
  | pure b => trivial
  | throw e' => exact hf e'
  | pick k ih => exact fun n => ih n (hc n)
  | emit v k ih => exact ih hc
  | tx t k ih => exact ⟨hc.1, fun r => ih r (hc.2 r)⟩

theorem ite {p : Prop} [Decidable p] {c' : Call σ ω ε ev β} (h : c.Makes e G E)
    (h' : c'.Makes e G E) : (if p then c else c').Makes e G E := by
  split
  · exact h
  · exact h'

theorem input : (input : Call σ ω ε ev ℕ).Makes e G E := fun _ => trivial

theorem tx {t : Tx σ ω ε β} (h : Confined (fun _ => true) e G E t) :
    (withTx t : Call σ ω ε ev β).Makes e G E :=
  ⟨h, fun r => by cases r <;> trivial⟩

variable [Faulty ε]

/-- **A silenced request** keeps a protocol that admits its commits. -/
theorem tame (hc : c.Makes e G E) {pr : Protocol σ ε ev' α G} (hE : pr.Admits (ReflTransGen E))
    (hq : pr.Silent) :
    Tame pr (c.silent : Call σ ω ε ev' β) := by
  induction c with
  | pure b => exact .pure b
  | throw e' => exact .throw e'
  | pick k ih => exact Ensures.pick fun n => ih n (hc n)
  | emit v k ih => exact ih hc
  | tx t k ih =>
    intro h s hk _ s' hG hA
    have rolled : ∀ e' s2, G.rel s s2 → pr.keeps (h ++ [.rollback e']) s2 := fun e' s2 hs =>
      hq.rollback h e' s2 (pr.keeps_stable hs hk)
    have after : ∀ r h' s2, G.rel s s2 → pr.keeps h' s2 →
        Call.wp pr (fun _ h' s' => pr.keeps h' s' ∧ G.rel s s' ∧ True) (k r).silent h' s2 :=
      fun r h' s2 hs hk' => Call.wp_mono
        (fun _ _ _ hr => ⟨hr.1, G.trans hs hr.2.1, trivial⟩) (ih r (hc.2 r) h' s2 hk' trivial)
    refine ⟨?_, fun e' _ s2 hs2 _ => ⟨rolled e' s2 (G.trans hG hs2),
      after _ _ s2 (G.trans hG hs2) (rolled e' s2 (G.trans hG hs2))⟩⟩
    refine Tx.wp_mono (fun b ws s1 hd s2 hst hA2 => ?_) (fun e' s1 hx s2 hs2 _ => ?_)
      (Tx.wp_from hG ((hc.1 Eq).wp_free (pr.cond h) s'))
    · obtain ⟨m, rfl, hsteps⟩ := hd.2 s2 hst
      have hs2 : G.rel s s2 := G.trans hd.1 hst.1
      obtain ⟨hrel, hkeep⟩ := hE h s2 _ hA2 (pr.keeps_stable hs2 hk) hsteps
      exact ⟨hrel, hkeep, after _ _ _ (G.trans hs2 hrel) hkeep⟩
    · have hs : G.rel s s2 := G.trans hx.1 hs2
      exact ⟨rolled e' s2 hs, after _ _ s2 hs (rolled e' s2 hs)⟩

end Call.Makes

end Makes

/-! ## Bodies that find an assumption -/

section Finding

variable [Store σ ω ι] {A : σ → Prop} {G : Guarantee σ} {P : σ → σ → Prop} {Q : β → σ → σ → Prop}

/-- **A Hoare triple** for a body at whose statements the committed store meets `A`. -/
def Finding (A : σ → Prop) (G : Guarantee σ) (P : σ → σ → Prop) (t : Tx σ ω ε β)
    (Q : β → σ → σ → Prop) : Prop :=
  ∀ ws s, Did G P ws s → Tx.wp G A (fun b => Did G (Q b)) (fun _ _ => True) t ws s

theorem Triple.finding {e : ε} {t : Tx σ ω ε β} (h : Triple (fun _ => true) e G P t Q) :
    Finding A G P t Q := by
  intro ws s hd
  have hw := h A ws s hd
  rwa [Tx.guard_true] at hw

namespace Finding

theorem pure {b : β} (h : ∀ a c, P a c → Q b a c) : Finding A G P (Tx.pure b : Tx σ ω ε β) Q :=
  fun _ _ hd => hd.mono h

/-- **Sequencing.** -/
theorem bind {t : Tx σ ω ε β} {f : β → Tx σ ω ε γ} {R : γ → σ → σ → Prop}
    (ht : Finding A G P t Q) (hf : ∀ b, Finding A G (Q b) (f b) R) : Finding A G P (t.bind f) R := by
  intro ws s hd
  rw [Tx.wp_bind]
  exact Tx.wp_mono (fun b ws' s' hb => hf b ws' s' hb) (fun _ _ _ => trivial) (ht ws s hd)

/-- **A read**: what it returns is that of a store that meets `A`. -/
theorem findFirst {rows : σ → List β} {p : Option β → Prop}
    (h : ∀ a c n, A a → P a c → p (rows c)[n % (rows c).length]?) :
    Finding A G P (Tx.findFirst rows : Tx σ ω ε (Option β)) fun o a c => p o ∧ P a c := fun _ _ hd =>
  hd.wp_findFirst fun s' n _ hA hd' s'' hs => ⟨h s' _ n hA hd'.here, hd' s'' hs⟩

theorem mapError {t : Tx σ ω ε β} {f : ε → ε} (h : Finding A G P t Q) :
    Finding A G P (t.mapError f) Q := by
  intro ws s hd
  have hw := h ws s hd
  clear h hd
  induction t generalizing ws s with
  | pure b => exact hw
  | throw e => trivial
  | pick k ih => exact fun n => ih n ws s (hw n)
  | clock k ih => exact fun n => ih n ws s (hw n)
  | stmt q k ih =>
    intro s' hs hA
    have hq := hw s' hs hA
    revert hq
    dsimp only
    cases q (view ws s') with
    | error e => exact fun _ => trivial
    | ok r => exact fun hq => ih r.1 _ s' hq

end Finding

end Finding

/-! ## Rows last -/

namespace Rel

variable {κ : Type} {ρ : κ → Type} {L υ : Type} [DecidableEq κ] [DecidableEq υ]
  [∀ k, DecidableEq (ρ k)] [Keyed ρ L υ] {k : κ} {id : ℕ}

theorem get_apply_ne_none {w : Write ρ L} {s : Rel ρ L}
    (h : s.get k id ≠ none) : (Store.apply w s).get k id ≠ none := by
  cases w with
  | append l => exact h
  | put k' id' old new =>
    rw [apply_put]
    by_cases hv : s.get k' id' = old
    · rw [put_eq hv]
      by_cases hk : (k, id) = (k', id')
      · cases hk
        rw [get_set_self]
        exact Option.some_ne_none _
      · rwa [get_set_ne hk]
    · rwa [put, if_neg hv]

/-- The writes of a transaction take no row away. -/
theorem get_view_ne_none {ws : List (Write ρ L)} {s : Rel ρ L}
    (h : s.get k id ≠ none) : (view ws s).get k id ≠ none := by
  induction ws generalizing s with
  | nil => exact h
  | cons w ws ih => exact ih (get_apply_ne_none h)

variable [Faulty ε] {P : Config (Rel ρ L) (Write ρ L) ε ev α → ℕ → Prop} {s₀ : Rel ρ L}
  {calls : List (Call (Rel ρ L) (Write ρ L) ε ev α)} {c : Config (Rel ρ L) (Write ρ L) ε ev α}

/-- **Rows last**: no commit of a run takes one away. -/
theorem reach_lasts (h : Reach P (Config.init s₀ calls) c) {i : ℕ} {a b : Rel ρ L}
    (hc : Commit c.trace i a b) (ha : a.get k id ≠ none) : b.get k id ≠ none := by
  have hall := reach_commitMeets (K := fun _ _ a b => ∀ k id, a.get k id ≠ none →
    b.get k id ≠ none) (fun d j _ ss _ => ?_) h i
  · obtain ⟨h1, hlast⟩ := hall.mem (Config.mem_histOf.mpr hc)
    exact hlast k id ha
  · cases ss with
    | inTx ws t k' =>
      cases t with
      | pure r => exact fun k id hk => get_view_ne_none hk
      | throw | pick | clock | stmt => trivial
    | new | idle | done => trivial

end Rel

end PatronLoyalty.Txn
