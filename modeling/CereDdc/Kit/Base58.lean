import Mathlib.Data.List.TakeWhile
import Mathlib.Data.Nat.Digits.Lemmas

/-!
# Kit — Base58

Texts in base 58: bytes are the digits of a number in base 256, which is written
with the digits of base 58. Zeros in front are no part of the number; there are as
many of them after the change of the base as there were before.
-/

namespace Kit.Base58

/-! ## Changing the base -/

/-- The digits of the same number in another base, highest first, after the same number of
zeros. -/
def rebase (b c : Nat) (digits : List Nat) : List Nat :=
  List.replicate (digits.takeWhile (· = 0)).length 0 ++
    (Nat.digits c (Nat.ofDigits b digits.reverse)).reverse

theorem takeWhile_zero (digits : List Nat) :
    digits.takeWhile (· = 0) = List.replicate (digits.takeWhile (· = 0)).length 0 := by
  apply List.eq_replicate_of_mem
  intro d hd
  have hzero := List.mem_takeWhile_imp hd
  exact of_decide_eq_true hzero

/-- The zeros in front, and digits that begin with another one. -/
theorem exists_zeros (digits : List Nat) :
    ∃ rest, digits = List.replicate (digits.takeWhile (· = 0)).length 0 ++ rest ∧
      rest.head? ≠ some 0 := by
  refine ⟨digits.dropWhile (· = 0), ?_, ?_⟩
  · rw [← takeWhile_zero, List.takeWhile_append_dropWhile]
  · intro h
    have := List.head?_dropWhile_not (· = 0) digits
    rw [h] at this
    simp at this

theorem takeWhile_zeros_append {n : Nat} {rest : List Nat} (h : rest.head? ≠ some 0) :
    (List.replicate n 0 ++ rest).takeWhile (· = 0) = List.replicate n 0 := by
  rw [List.takeWhile_append_of_pos fun _ hd => decide_eq_true (List.eq_of_mem_replicate hd)]
  cases rest with
  | nil => rw [List.takeWhile_nil, List.append_nil]
  | cons d rest =>
    rw [List.takeWhile_cons_of_neg (by simpa using h), List.append_nil]

theorem ofDigits_zeros_append {b n : Nat} {rest : List Nat} :
    Nat.ofDigits b (List.replicate n 0 ++ rest).reverse = Nat.ofDigits b rest.reverse := by
  rw [List.reverse_append, List.reverse_replicate, Nat.ofDigits_append_replicate_zero]

theorem head?_reverse_digits {c n : Nat} : (Nat.digits c n).reverse.head? ≠ some 0 := by
  rw [List.head?_reverse]
  intro h
  obtain ⟨hne, hlast⟩ := List.mem_getLast?_eq_getLast h
  exact Nat.getLast_digit_ne_zero c (Nat.digits_ne_nil_iff_ne_zero.mp hne) hlast.symm

/-- Changing the base and changing it back. -/
theorem rebase_rebase {b c : Nat} (hb : 1 < b) {digits : List Nat} (h : ∀ d ∈ digits, d < b) :
    rebase c b (rebase b c digits) = digits := by
  obtain ⟨rest, heq, hrest⟩ := exists_zeros digits
  have hnumber : Nat.ofDigits b digits.reverse = Nat.ofDigits b rest.reverse := by
    rw [heq, ofDigits_zeros_append]
  have hdigits : Nat.digits b (Nat.ofDigits b rest.reverse) = rest.reverse := by
    apply Nat.digits_ofDigits b hb
    · intro d hd
      apply h
      rw [heq]
      exact List.mem_append_right _ (List.mem_reverse.mp hd)
    · intro hne hlast
      apply hrest
      rw [← List.getLast?_reverse, List.getLast?_eq_some_getLast hne, hlast]
  unfold rebase
  rw [takeWhile_zeros_append head?_reverse_digits, List.length_replicate, ofDigits_zeros_append,
    List.reverse_reverse, Nat.ofDigits_digits, hnumber, hdigits, List.reverse_reverse, ← heq]

theorem lt_of_mem_rebase {b c d : Nat} (hc : 1 < c) {digits : List Nat}
    (h : d ∈ rebase b c digits) : d < c := by
  rcases List.mem_append.mp h with h | h
  · rw [List.eq_of_mem_replicate h]
    omega
  · exact Nat.digits_lt_base hc (List.mem_reverse.mp h)

/-! ## Texts -/

def alphabet : List Char :=
  ['1', '2', '3', '4', '5', '6', '7', '8', '9', 'A', 'B', 'C', 'D', 'E', 'F', 'G', 'H', 'J', 'K',
    'L', 'M', 'N', 'P', 'Q', 'R', 'S', 'T', 'U', 'V', 'W', 'X', 'Y', 'Z', 'a', 'b', 'c', 'd', 'e',
    'f', 'g', 'h', 'i', 'j', 'k', 'm', 'n', 'o', 'p', 'q', 'r', 's', 't', 'u', 'v', 'w', 'x', 'y',
    'z']

def encode (bytes : List UInt8) : List Char :=
  (rebase 256 58 (bytes.map (·.toNat))).map (alphabet.getD · '1')

/-- The bytes of a text, if all its characters are in the alphabet. -/
def decode (chars : List Char) : Option (List UInt8) :=
  (chars.mapM alphabet.idxOf?).map fun digits => (rebase 58 256 digits).map UInt8.ofNat

theorem idxOf?_getD : ∀ d < 58, alphabet.idxOf? (alphabet.getD d '1') = some d := by decide

theorem mapM_idxOf? {digits : List Nat} (h : ∀ d ∈ digits, d < 58) :
    (digits.map (alphabet.getD · '1')).mapM alphabet.idxOf? = some digits := by
  induction digits with
  | nil => rfl
  | cons d digits ih =>
    rw [List.map_cons, List.mapM_cons, idxOf?_getD d (h d (by simp)),
      ih fun d hd => h d (by simp [hd])]
    rfl

/-- What is encoded can be decoded. -/
theorem decode_encode (bytes : List UInt8) : decode (encode bytes) = some bytes := by
  have hbytes : ∀ d ∈ bytes.map (·.toNat), d < 256 := by
    intro d hd
    obtain ⟨byte, -, rfl⟩ := List.mem_map.mp hd
    exact byte.toNat_lt
  unfold decode encode
  rw [mapM_idxOf? fun d => lt_of_mem_rebase (by decide), Option.map_some,
    rebase_rebase (by decide) hbytes, List.map_map]
  simp only [Function.comp_def, UInt8.ofNat_toNat, List.map_id']

end Kit.Base58
