import PatronLoyalty.Formats.Utf16

/-!
# Base64

Bytes in groups of six bits, each written as a letter. There are two alphabets, and the text may be
padded to a multiple of four letters.

Results: **`octets_sextets`**, the bytes are found again; `letterValue_letter`, and so is each
group.
-/

namespace PatronLoyalty.Formats.Base64

/-- The groups of six bits. -/
def sextets : List ℕ → List ℕ
  | [] => []
  | [a] => [a / 4, a % 4 * 16]
  | [a, b] => [a / 4, a % 4 * 16 + b / 16, b % 16 * 4]
  | a :: b :: c :: l =>
    a / 4 :: (a % 4 * 16 + b / 16) :: (b % 16 * 4 + c / 64) :: c % 64 :: sextets l

/-- The bytes of groups of six bits; bits that are left over are dropped. -/
def octets : List ℕ → List ℕ
  | x :: y :: z :: w :: l =>
    (x * 4 + y / 16) :: (y % 16 * 16 + z / 4) :: (z % 4 * 64 + w) :: octets l
  | [x, y, z] => [x * 4 + y / 16, y % 16 * 16 + z / 4]
  | [x, y] => [x * 4 + y / 16]
  | _ => []

/-- The letter of a group; `last` are the letters of 62 and 63. -/
def letter (last : String) (x : ℕ) : UInt16 :=
  (units ("ABCDEFGHIJKLMNOPQRSTUVWXYZabcdefghijklmnopqrstuvwxyz0123456789" ++ last)).getD x 0

def letterValue (c : UInt16) : Option ℕ := (List.range 64).find? fun x => letter "+/" x == c

theorem letterValue_letter {x : ℕ} (h : x < 64) : letterValue (letter "+/" x) = some x := by
  have hall : ∀ x < 64, letterValue (letter "+/" x) = some x := by decide +kernel
  exact hall x h

variable {l : List ℕ}

theorem sextets_lt (h : ∀ b ∈ l, b < 256) : ∀ x ∈ sextets l, x < 64 := by
  fun_induction sextets l with
  | case1 => simp
  | case2 a =>
    simp only [List.forall_mem_cons, List.not_mem_nil, false_implies, implies_true, and_true] at h ⊢
    omega
  | case3 a b =>
    simp only [List.forall_mem_cons, List.not_mem_nil, false_implies, implies_true, and_true] at h ⊢
    omega
  | case4 a b c l ih =>
    simp only [List.forall_mem_cons] at h ⊢
    exact ⟨by omega, by omega, by omega, by omega, ih h.2.2.2⟩

/-- **The bytes** are found again. -/
theorem octets_sextets (h : ∀ b ∈ l, b < 256) : octets (sextets l) = l := by
  fun_induction sextets l with
  | case1 => rfl
  | case2 a =>
    simp only [List.forall_mem_cons] at h
    simp only [octets, List.cons.injEq, and_true]
    omega
  | case3 a b =>
    simp only [List.forall_mem_cons] at h
    simp only [octets, List.cons.injEq, and_true]
    omega
  | case4 a b c l ih =>
    simp only [List.forall_mem_cons] at h
    simp only [octets, List.cons.injEq]
    exact ⟨by omega, by omega, by omega, ih h.2.2.2⟩

/-- No group stands alone at the end. -/
theorem length_sextets (l : List ℕ) : (sextets l).length % 4 ≠ 1 := by
  fun_induction sextets l with
  | case1 => decide
  | case2 a => simp
  | case3 a b => simp
  | case4 a b c l ih =>
    simp only [List.length_cons]
    omega

end PatronLoyalty.Formats.Base64
