import Mathlib.Algebra.GroupWithZero.Nat
import Mathlib.Data.List.Basic

/-!
# Tasks that share a state

A `System` has tasks that make their steps one at a time, in any order, on a state they share. A task is
what is left of it: where it stands, and what it has found. `world` is what happens to the shared state
without a task: time passes, somebody else writes.

`Reaches S P p p'`: a run leads from `p` to `p'`, each of whose steps met `P` before it was made.
`Invariant I J K p`: `I` holds of the shared state, `J` of every task and `K` of every two tasks. Headline:
**`Reaches.invariant`**, what a step has to keep for that.
-/

namespace PatronLoyalty.Async

variable {σ τ ι e : Type}

/-- The shared state and the tasks. -/
structure Pool (σ τ : Type) where
  shared : σ
  tasks : List τ

/-- What happens in a step. -/
inductive Label (ι e : Type)
  | task (i : ℕ) (x : ι)
  | world (x : e)

theorem ended_of_fails {s s' : σ} {t t' ended : τ} [Decidable (t = ended)]
    (h : (if t = ended then none else some (s, ended)) = some (s', t')) : s' = s ∧ t' = ended := by
  split at h
  · cases h
  · cases h
    exact ⟨rfl, rfl⟩

/-- What a task does in a step, with what it is told, and what happens without a task. -/
structure System (σ τ ι e : Type) where
  next : σ → τ → ι → Option (σ × τ)
  world : σ → e → Option σ

namespace System

variable {S : System σ τ ι e} {P P' : Pool σ τ → Label ι e → Prop} {p m p' : Pool σ τ}
  {s s' : σ} {t t' : τ} {x : ι}

/-- **One step.** -/
def step (S : System σ τ ι e) (p : Pool σ τ) : Label ι e → Option (Pool σ τ)
  | .task i x =>
    match p.tasks[i]? with
    | none => none
    | some t => (S.next p.shared t x).map fun r => ⟨r.1, p.tasks.set i r.2⟩
  | .world x => (S.world p.shared x).map fun s => { p with shared := s }

theorem step_task {i : ℕ} (h : S.step p (.task i x) = some p') : ∃ t s' t', p.tasks[i]? = some t ∧
    S.next p.shared t x = some (s', t') ∧ p' = ⟨s', p.tasks.set i t'⟩ := by
  simp only [step] at h
  cases hi : p.tasks[i]? with
  | none =>
    simp only [hi] at h
    cases h
  | some t =>
    simp only [hi] at h
    obtain ⟨⟨s', t'⟩, hn, rfl⟩ := Option.map_eq_some_iff.mp h
    exact ⟨t, s', t', rfl, hn, rfl⟩

theorem step_world {x : e} (h : S.step p (.world x) = some p') :
    ∃ s', S.world p.shared x = some s' ∧ p' = { p with shared := s' } := by
  obtain ⟨s', hw, rfl⟩ := Option.map_eq_some_iff.mp h
  exact ⟨s', hw, rfl⟩

/-- **The pools of the runs** from `p` whose steps met `P`. -/
inductive Reaches (S : System σ τ ι e) (P : Pool σ τ → Label ι e → Prop) (p : Pool σ τ) :
    Pool σ τ → Prop
  | refl : Reaches S P p p
  | tail {m p' : Pool σ τ} {l : Label ι e} :
      Reaches S P p m → P m l → S.step m l = some p' → Reaches S P p p'

/-- What is known of every pool on the way may be added to the condition. -/
theorem Reaches.imp (h : Reaches S P p p') (hP : ∀ m l, Reaches S P p m → P m l → P' m l) :
    Reaches S P' p p' := by
  induction h with
  | refl => exact .refl
  | tail h hm hs ih => exact .tail ih (hP _ _ h hm) hs

theorem Reaches.trans (h : Reaches S P p m) (h' : Reaches S P m p') : Reaches S P p p' := by
  induction h' with
  | refl => exact h
  | tail _ hm hs ih => exact .tail ih hm hs

/-- **What every step keeps** holds at the end. -/
theorem Reaches.keeps {I : Pool σ τ → Prop} (h : Reaches S P p p') (h0 : I p)
    (hI : ∀ m l m', I m → P m l → S.step m l = some m' → I m') : I p' := by
  induction h with
  | refl => exact h0
  | tail _ hm hs ih => exact hI _ _ _ ih hm hs

/-! ## Schedules -/

/-- Run a schedule, as long as every step is possible and made where `ok` holds. -/
def runs (S : System σ τ ι e) (ok : Pool σ τ → Label ι e → Bool) :
    Pool σ τ → List (Label ι e) → Option (Pool σ τ)
  | p, [] => some p
  | p, l :: ls =>
    if ok p l then
      match S.step p l with
      | none => none
      | some p' => S.runs ok p' ls
    else none

theorem reaches_of_runs {ok : Pool σ τ → Label ι e → Bool} (hok : ∀ m l, ok m l = true → P m l)
    {ls : List (Label ι e)} (h : S.runs ok p ls = some p') : Reaches S P p p' := by
  induction ls generalizing p with
  | nil =>
    cases h
    exact .refl
  | cons l ls ih =>
    unfold runs at h
    split at h
    · rename_i hl
      cases hs : S.step p l with
      | none => simp [hs] at h
      | some m =>
        rw [hs] at h
        exact (Reaches.tail .refl (hok p l hl) hs).trans (ih h)
    · cases h

theorem exists_reaches (ok : Pool σ τ → Label ι e → Bool) (hok : ∀ m l, ok m l = true → P m l)
    (p : Pool σ τ) (ls : List (Label ι e)) (q : Pool σ τ → Bool)
    (h : (S.runs ok p ls).any q = true) : ∃ p', Reaches S P p p' ∧ q p' = true := by
  obtain ⟨p', hp, hq⟩ := (Option.any_eq_true _ _).mp h
  exact ⟨p', reaches_of_runs hok hp, hq⟩

/-! ## Conditions on runs -/

/-- A condition on what a task does, on what the others are then, and on what happens without one. -/
structure Condition (σ τ ι e : Type) where
  task : σ → τ → ι → Prop := fun _ _ _ => True
  others : σ → τ → ι → τ → Prop := fun _ _ _ _ => True
  world : σ → e → Prop := fun _ _ => True

/-- **The step meets the condition.** -/
def Condition.Meets (C : Condition σ τ ι e) (p : Pool σ τ) : Label ι e → Prop
  | .task i x => ∀ t ∈ p.tasks[i]?, C.task p.shared t x ∧
      ∀ j < p.tasks.length, j ≠ i → ∀ u ∈ p.tasks[j]?, C.others p.shared t x u
  | .world x => C.world p.shared x

instance (C : Condition σ τ ι e) [∀ s t x, Decidable (C.task s t x)]
    [∀ s t x u, Decidable (C.others s t x u)] [∀ s x, Decidable (C.world s x)] (p : Pool σ τ) :
    (l : Label ι e) → Decidable (C.Meets p l)
  | .task i x => inferInstanceAs (Decidable (∀ t ∈ p.tasks[i]?, C.task p.shared t x ∧
      ∀ j < p.tasks.length, j ≠ i → ∀ u ∈ p.tasks[j]?, C.others p.shared t x u))
  | .world x => inferInstanceAs (Decidable (C.world p.shared x))

theorem Condition.Meets.task {C : Condition σ τ ι e} {i : ℕ} (h : C.Meets p (.task i x))
    (hi : p.tasks[i]? = some t) : C.task p.shared t x := (h t hi).1

theorem Condition.Meets.others {C : Condition σ τ ι e} {i j : ℕ} (h : C.Meets p (.task i x))
    (hi : p.tasks[i]? = some t) (hij : j ≠ i) {u : τ} (hj : p.tasks[j]? = some u) :
    C.others p.shared t x u :=
  (h t hi).2 j (List.getElem?_eq_some_iff.mp hj).1 hij u hj

theorem exists_meets (C : Condition σ τ ι e) [∀ p (l : Label ι e), Decidable (C.Meets p l)]
    (p : Pool σ τ) (ls : List (Label ι e)) (q : Pool σ τ → Bool)
    (h : (S.runs (fun m l => decide (C.Meets m l)) p ls).any q = true) :
    ∃ p', Reaches S C.Meets p p' ∧ q p' = true :=
  exists_reaches _ (fun _ _ h => of_decide_eq_true h) p ls q h

/-! ## Invariants -/

/-- `I` of the shared state, `J` of every task, and `K` of every two. -/
structure Invariant (I : σ → Prop) (J : σ → τ → Prop) (K : τ → τ → Prop) (p : Pool σ τ) : Prop where
  shared : I p.shared
  task {i : ℕ} {t : τ} : p.tasks[i]? = some t → J p.shared t
  pair {i j : ℕ} {t u : τ} : i ≠ j → p.tasks[i]? = some t → p.tasks[j]? = some u → K t u

variable {I : σ → Prop} {J : σ → τ → Prop} {K : τ → τ → Prop}

/-- What the step of a task keeps, when the others meet `R`. -/
structure KeptBy (I : σ → Prop) (J : σ → τ → Prop) (K : τ → τ → Prop) (R : τ → Prop) (s : σ)
    (t : τ) (s' : σ) (t' : τ) : Prop where
  shared : I s'
  task : J s' t'
  others {u : τ} : R u → J s u → K t u → K u t → J s' u ∧ K t' u ∧ K u t'

theorem getElem?_set_cases {l : List τ} {i j : ℕ} {u : τ} (h : (l.set i t')[j]? = some u) :
    (j = i ∧ u = t') ∨ (j ≠ i ∧ l[j]? = some u) := by
  by_cases hij : i = j
  · subst hij
    by_cases hlt : i < l.length
    · rw [List.getElem?_set_self hlt] at h
      exact Or.inl ⟨rfl, (Option.some.inj h).symm⟩
    · rw [List.getElem?_eq_none (by rw [List.length_set]; exact Nat.le_of_not_lt hlt)] at h
      cases h
  · rw [List.getElem?_set_ne hij] at h
    exact Or.inr ⟨fun he => hij he.symm, h⟩

theorem sum_map_set (f : τ → ℕ) {l : List τ} {i : ℕ} (h : l[i]? = some t) :
    ((l.set i t').map f).sum + f t = (l.map f).sum + f t' := by
  induction l generalizing i with
  | nil => cases h
  | cons u l ih =>
    cases i with
    | zero =>
      cases h
      simp only [List.set_cons_zero, List.map_cons, List.sum_cons]
      omega
    | succ i =>
      have hl := ih h
      simp only [List.set_cons_succ, List.map_cons, List.sum_cons]
      omega

theorem Invariant.next {R : τ → Prop} {i : ℕ} (h : Invariant I J K p) (hi : p.tasks[i]? = some t)
    (hR : ∀ j u, j ≠ i → p.tasks[j]? = some u → R u) (hk : KeptBy I J K R p.shared t s' t') :
    Invariant I J K ⟨s', p.tasks.set i t'⟩ := by
  have hother : ∀ {j : ℕ} {u : τ}, j ≠ i → p.tasks[j]? = some u → J s' u ∧ K t' u ∧ K u t' :=
    fun hne hu => hk.others (hR _ _ hne hu) (h.task hu) (h.pair (Ne.symm hne) hi hu)
      (h.pair hne hu hi)
  refine ⟨hk.shared, fun {j u} hj => ?_, fun {j k u v} hjk hj hl => ?_⟩
  · rcases getElem?_set_cases hj with ⟨-, rfl⟩ | ⟨hne, hu⟩
    · exact hk.task
    · exact (hother hne hu).1
  · rcases getElem?_set_cases hj with ⟨rfl, rfl⟩ | ⟨hne, hu⟩
    · rcases getElem?_set_cases hl with ⟨rfl, -⟩ | ⟨hne, hv⟩
      · exact absurd rfl hjk
      · exact (hother hne hv).2.1
    · rcases getElem?_set_cases hl with ⟨rfl, rfl⟩ | ⟨hne', hv⟩
      · exact (hother hne hu).2.2
      · exact h.pair hjk hu hv

variable {C : Condition σ τ ι e}

/-- **An invariant of a run**: what the step of a task keeps, and what is kept without one. -/
theorem Reaches.invariant (h : Reaches S C.Meets p p') (h0 : Invariant I J K p)
    (hnext : ∀ s t x s' t', I s → J s t → C.task s t x → S.next s t x = some (s', t') →
      KeptBy I J K (C.others s t x) s t s' t')
    (hworld : ∀ s x s', I s → C.world s x → S.world s x = some s' →
      I s' ∧ ∀ u, J s u → J s' u) :
    Invariant I J K p' := by
  refine h.keeps h0 fun m l m' hm hP hs => ?_
  cases l with
  | task i x =>
    obtain ⟨t, s', t', hi, hn, rfl⟩ := step_task hs
    exact hm.next hi (fun j u hj hu => hP.others hi hj hu)
      (hnext _ _ _ _ _ hm.shared (hm.task hi) (hP.task hi) hn)
  | world x =>
    obtain ⟨s', hw, rfl⟩ := step_world hs
    obtain ⟨hI, hJ⟩ := hworld _ _ _ hm.shared hP hw
    exact ⟨hI, fun hi => hJ _ (hm.task hi), hm.pair⟩

/-! ## What some task is to do -/

/-- Whatever is due in the shared state, some task is about to do. -/
def Owned {κ : Type} (A : σ → κ → Prop) (B : τ → κ → Prop) (p : Pool σ τ) : Prop :=
  ∀ k, A p.shared k → ∃ t ∈ p.tasks, B t k

/-- **What is due after a step** is for the task that made it to do, or was due before and for another. -/
theorem Reaches.owned {κ : Type} {A : σ → κ → Prop} {B : τ → κ → Prop}
    (h : Reaches S C.Meets p p') (h0 : Owned A B p)
    (hnext : ∀ s t x s' t' k, C.task s t x → S.next s t x = some (s', t') → A s' k →
      B t' k ∨ A s k ∧ ¬ B t k)
    (hworld : ∀ s x s' k, S.world s x = some s' → A s' k → A s k) : Owned A B p' := by
  refine h.keeps h0 fun m l m' hm hP hs k hk => ?_
  cases l with
  | task i x =>
    obtain ⟨t, s', t', hi, hn, rfl⟩ := step_task hs
    have hlt : i < m.tasks.length := (List.getElem?_eq_some_iff.mp hi).1
    rcases hnext _ _ _ _ _ k (hP.task hi) hn hk with ht | ⟨hk', ht⟩
    · exact ⟨t', List.mem_set hlt t', ht⟩
    · obtain ⟨u, hu, hb⟩ := hm k hk'
      obtain ⟨j, hj⟩ := List.getElem?_of_mem hu
      have hij : i ≠ j := by
        rintro rfl
        rw [hi] at hj
        cases hj
        exact ht hb
      exact ⟨u, List.mem_of_getElem? (by rw [List.getElem?_set_ne hij]; exact hj), hb⟩
  | world x =>
    obtain ⟨s', hw, rfl⟩ := step_world hs
    exact hm k (hworld _ _ _ k hw hk)

end System

end PatronLoyalty.Async
