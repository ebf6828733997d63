import Mathlib.Data.List.Count
import Mathlib.Data.List.Infix

/-!
# Replacing a word

`replaceAll` replaces the occurrences of a word in a text from left to right, without overlaps, each by
a text that may depend on what stands before and after it; `occurrences` counts them, overlaps included.

A text is often the concatenation of pieces, some of which are the word.

Results:
* `occurrences_append`: how often a word occurs in two texts put together.
* `countP_le_occurrences`: pieces that are the word are occurrences of it.
* **`replaceAll_pieces`**: where there are no others, exactly these pieces are replaced.
-/

namespace PatronLoyalty.Formats.Replacement

variable {α β : Type} [DecidableEq α] {p t w : List α}

/-- The number of places where the text goes on with `p`. -/
def occurrences (p : List α) : List α → ℕ
  | [] => 0
  | c :: t => (if p <+: c :: t then 1 else 0) + occurrences p t

/-- Replacing in the rest of a text, after `skip` units that have been replaced already. -/
def replaceFrom (p : List α) (sub : List α → List α → List α) : ℕ → List α → List α → List α
  | _, _, [] => []
  | skip + 1, before, c :: t => replaceFrom p sub skip (before ++ [c]) t
  | 0, before, c :: t =>
    if p <+: c :: t then
      sub before ((c :: t).drop p.length) ++ replaceFrom p sub (p.length - 1) (before ++ [c]) t
    else c :: replaceFrom p sub 0 (before ++ [c]) t

/-- **Replacing every occurrence** of `p`; `sub` makes the replacement from what is around it. -/
def replaceAll (p : List α) (sub : List α → List α → List α) (t : List α) : List α :=
  replaceFrom p sub 0 [] t

/-! ## Occurrences -/

theorem occurrences_le_append (p w t : List α) : occurrences p t ≤ occurrences p (w ++ t) := by
  induction w with
  | nil => exact Nat.le_refl _
  | cons c w ih => exact Nat.le_trans ih (Nat.le_add_left _ _)

theorem occurrences_word (hp : p ≠ []) (t : List α) :
    occurrences p (p ++ t) = 1 + occurrences p (p.tail ++ t) := by
  cases p with
  | nil => exact absurd rfl hp
  | cons c p =>
    show (if c :: p <+: c :: p ++ t then 1 else 0) + occurrences (c :: p) (p ++ t) = _
    rw [if_pos (List.prefix_append _ _)]
    rfl

/-- **A junction makes no occurrence**, if no proper end of the word begins the second text. -/
theorem occurrences_append (h : ∀ s ∈ p.tails, s ≠ [] → s ≠ p → ¬ s <+: t) (w : List α) :
    occurrences p (w ++ t) = occurrences p w + occurrences p t := by
  induction w with
  | nil => simp [occurrences]
  | cons c w ih =>
    have hiff : p <+: c :: (w ++ t) ↔ p <+: c :: w := by
      refine ⟨fun hp => ?_, fun hp => hp.trans (List.prefix_append (c :: w) t)⟩
      rcases List.prefix_or_prefix_of_prefix hp (List.prefix_append (c :: w) t) with hw | ⟨s, rfl⟩
      · exact hw
      · by_cases hs : s = []
        · rw [hs, List.append_nil]
        · have hst : s <+: t := (List.prefix_append_right_inj (c :: w)).mp hp
          refine absurd hst (h s ((List.mem_tails _ _).mpr (List.suffix_append _ _)) hs fun heq => ?_)
          have hlen := congrArg List.length heq
          rw [List.length_append, List.length_cons] at hlen
          omega
    rw [List.cons_append, occurrences, occurrences, ih, Nat.add_assoc]
    simp only [hiff]

/-! ## Replacing -/

variable {sub : List α → List α → List α}

theorem replaceFrom_skip (before w t : List α) :
    replaceFrom p sub w.length before (w ++ t) = replaceFrom p sub 0 (before ++ w) t := by
  induction w generalizing before with
  | nil => simp
  | cons c w ih =>
    rw [List.length_cons, List.cons_append, replaceFrom, ih, List.append_assoc]
    rfl

theorem replaceFrom_keep (before : List α) (h : occurrences p (w ++ t) = occurrences p t) :
    replaceFrom p sub 0 before (w ++ t) = w ++ replaceFrom p sub 0 (before ++ w) t := by
  induction w generalizing before with
  | nil => simp
  | cons c w ih =>
    have hle := occurrences_le_append p w t
    rw [List.cons_append, occurrences] at h
    by_cases hp : p <+: c :: (w ++ t)
    · rw [if_pos hp] at h
      omega
    · rw [if_neg hp] at h
      rw [List.cons_append, replaceFrom, if_neg hp, ih _ (by omega), List.append_assoc]
      rfl

theorem replaceFrom_word (hp : p ≠ []) (before t : List α) :
    replaceFrom p sub 0 before (p ++ t) = sub before t ++ replaceFrom p sub 0 (before ++ p) t := by
  cases p with
  | nil => exact absurd rfl hp
  | cons c p =>
    have hskip : replaceFrom (c :: p) sub p.length (before ++ [c]) (p ++ t) = _ :=
      replaceFrom_skip (before ++ [c]) p t
    have hprefix : c :: p <+: c :: (p ++ t) := List.prefix_append (c :: p) t
    have hdrop : (c :: (p ++ t)).drop (c :: p).length = t := @List.drop_left _ (c :: p) t
    rw [List.cons_append, replaceFrom, if_pos hprefix, hdrop, List.length_cons, Nat.add_sub_cancel,
      hskip, List.append_assoc]
    rfl

/-! ## Pieces -/

section Pieces

variable {source : β → List α} {hole : β → Bool} {pieces : List β} {v : List α}

/-- **Pieces that are the word** are occurrences of it. -/
theorem countP_le_occurrences (hp : p ≠ []) (hhole : ∀ b ∈ pieces, hole b = true → source b = p) :
    pieces.countP hole ≤ occurrences p (pieces.flatMap source) := by
  induction pieces with
  | nil => exact Nat.zero_le _
  | cons b pieces ih =>
    have hrest := ih fun b hb => hhole b (List.mem_cons_of_mem _ hb)
    rw [List.flatMap_cons, List.countP_cons]
    cases hb : hole b with
    | false =>
      exact Nat.le_trans (by simpa using hrest) (occurrences_le_append p (source b) _)
    | true =>
      have hle := occurrences_le_append p p.tail (pieces.flatMap source)
      rw [hhole b List.mem_cons_self hb, occurrences_word hp, if_pos rfl]
      omega

/-- **Where the pieces that are the word are all its occurrences**, they are what is replaced. -/
theorem replaceFrom_pieces (hp : p ≠ []) (hhole : ∀ b ∈ pieces, hole b = true → source b = p)
    (hsub : ∀ b ∈ pieces, hole b = true → ∀ x y, sub x y = v)
    (hcount : occurrences p (pieces.flatMap source) = pieces.countP hole) (before : List α) :
    replaceFrom p sub 0 before (pieces.flatMap source) =
      pieces.flatMap fun b => if hole b then v else source b := by
  induction pieces generalizing before with
  | nil => rfl
  | cons b pieces ih =>
    have hhole' := fun b hb => hhole b (List.mem_cons_of_mem _ hb)
    have hsub' := fun b hb => hsub b (List.mem_cons_of_mem _ hb)
    have hle := countP_le_occurrences hp hhole'
    rw [List.flatMap_cons, List.countP_cons] at hcount
    rw [List.flatMap_cons, List.flatMap_cons]
    cases hb : hole b with
    | false =>
      rw [hb, if_neg Bool.false_ne_true, Nat.add_zero] at hcount
      have happend := occurrences_le_append p (source b) (pieces.flatMap source)
      rw [replaceFrom_keep _ (by omega), ih hhole' hsub' (by omega), if_neg Bool.false_ne_true]
    | true =>
      rw [hb, if_pos rfl, hhole b List.mem_cons_self hb, occurrences_word hp] at hcount
      have happend := occurrences_le_append p p.tail (pieces.flatMap source)
      rw [hhole b List.mem_cons_self hb, replaceFrom_word hp, ih hhole' hsub' (by omega),
        hsub b List.mem_cons_self hb, if_pos rfl]

/-- **Where the pieces that are the word are all its occurrences**, they are what is replaced. -/
theorem replaceAll_pieces (hp : p ≠ []) (hhole : ∀ b ∈ pieces, hole b = true → source b = p)
    (hsub : ∀ b ∈ pieces, hole b = true → ∀ x y, sub x y = v)
    (hcount : occurrences p (pieces.flatMap source) = pieces.countP hole) :
    replaceAll p sub (pieces.flatMap source) =
      pieces.flatMap fun b => if hole b then v else source b :=
  replaceFrom_pieces hp hhole hsub hcount []

end Pieces

end PatronLoyalty.Formats.Replacement
