import Mathlib.Algebra.Group.Nat.Defs
import Mathlib.Tactic.Common

/-!
# Kit — Base32

Texts in base 32 with the lower case alphabet of RFC 4648, without padding and
with the letter `b` in front: bytes are cut into groups of five bits, the last of
which is filled up with zeros, and each group is a character.
-/

namespace Kit.Base32

/-! ## Bits -/

/-- The lowest `width` bits of a number, highest first. -/
def bitsOf : (width n : Nat) → List Bool
  | 0, _ => []
  | width + 1, n => bitsOf width (n / 2) ++ [decide (n % 2 = 1)]

/-- The number that bits stand for, highest first. -/
def ofBits (bits : List Bool) : Nat := bits.foldl (fun n bit => 2 * n + bit.toNat) 0

@[simp] theorem length_bitsOf {width n : Nat} : (bitsOf width n).length = width := by
  induction width generalizing n with
  | zero => rfl
  | succ width ih => simp [bitsOf, ih]

theorem ofBits_append_singleton {bits : List Bool} {bit : Bool} :
    ofBits (bits ++ [bit]) = 2 * ofBits bits + bit.toNat := by
  simp [ofBits]

theorem ofBits_bitsOf {width n : Nat} (h : n < 2 ^ width) : ofBits (bitsOf width n) = n := by
  induction width generalizing n with
  | zero =>
    rw [pow_zero] at h
    change 0 = n
    omega
  | succ width ih =>
    rw [pow_succ] at h
    rw [bitsOf, ofBits_append_singleton, ih (by omega)]
    by_cases hodd : n % 2 = 1
    · simp only [hodd, decide_true, Bool.toNat_true]
      omega
    · simp only [hodd, decide_false, Bool.toNat_false]
      omega

/-! ## Groups of bits -/

/-- Groups of five bits, the last one filled up with zeros. -/
def quintets : List Bool → List (List Bool)
  | a :: b :: c :: d :: e :: bits => [a, b, c, d, e] :: quintets bits
  | [a, b, c, d] => [[a, b, c, d, false]]
  | [a, b, c] => [[a, b, c, false, false]]
  | [a, b] => [[a, b, false, false, false]]
  | [a] => [[a, false, false, false, false]]
  | [] => []

/-- Groups of eight bits, and the bits that are left. -/
def octets : List Bool → List (List Bool) × List Bool
  | a :: b :: c :: d :: e :: f :: g :: h :: bits =>
    ([a, b, c, d, e, f, g, h] :: (octets bits).1, (octets bits).2)
  | bits => ([], bits)

theorem length_of_mem_quintets {bits group : List Bool} (h : group ∈ quintets bits) :
    group.length = 5 := by
  fun_induction quintets bits with
  | case1 a b c d e bits ih =>
    rcases List.mem_cons.mp h with rfl | h
    · rfl
    · exact ih h
  | case2 a b c d =>
    rw [List.mem_singleton.mp h]
    rfl
  | case3 a b c =>
    rw [List.mem_singleton.mp h]
    rfl
  | case4 a b =>
    rw [List.mem_singleton.mp h]
    rfl
  | case5 a =>
    rw [List.mem_singleton.mp h]
    rfl
  | case6 => cases h

/-- The groups are the bits and fewer than five zeros. -/
theorem flatten_quintets (bits : List Bool) :
    ∃ n < 5, (quintets bits).flatten = bits ++ List.replicate n false := by
  fun_induction quintets bits with
  | case1 a b c d e bits ih =>
    obtain ⟨n, hn, heq⟩ := ih
    exact ⟨n, hn, by simp [heq]⟩
  | case2 a b c d => exact ⟨1, by decide, rfl⟩
  | case3 a b c => exact ⟨2, by decide, rfl⟩
  | case4 a b => exact ⟨3, by decide, rfl⟩
  | case5 a => exact ⟨4, by decide, rfl⟩
  | case6 => exact ⟨0, by decide, rfl⟩

theorem octets_of_short {bits : List Bool} (h : bits.length < 8) : octets bits = ([], bits) := by
  fun_cases octets bits with
  | case1 a b c d e f g h' bits => simp only [List.length_cons] at h; omega
  | case2 => rfl

theorem octets_append {group bits : List Bool} (h : group.length = 8) :
    octets (group ++ bits) = (group :: (octets bits).1, (octets bits).2) := by
  match group, h with
  | [_, _, _, _, _, _, _, _], _ => rfl

/-! ## Characters -/

def alphabet : List Char :=
  ['a', 'b', 'c', 'd', 'e', 'f', 'g', 'h', 'i', 'j', 'k', 'l', 'm', 'n', 'o', 'p', 'q', 'r', 's',
    't', 'u', 'v', 'w', 'x', 'y', 'z', '2', '3', '4', '5', '6', '7']

def charOf (group : List Bool) : Char := alphabet.getD (ofBits group) 'a'

/-- The bits of a character of the alphabet. -/
def groupOf (c : Char) : Option (List Bool) := (alphabet.idxOf? c).map (bitsOf 5)

theorem groupOf_charOf {group : List Bool} (h : group.length = 5) :
    groupOf (charOf group) = some group := by
  match group, h with
  | [a, b, c, d, e], _ => revert a b c d e; decide

theorem charOf_ne_padding {group : List Bool} (h : group.length = 5) : charOf group ≠ '=' := by
  match group, h with
  | [a, b, c, d, e], _ => revert a b c d e; decide

/-! ## Texts -/

def encode (bytes : List UInt8) : List Char :=
  'b' :: (quintets (bytes.flatMap fun byte => bitsOf 8 byte.toNat)).map charOf

/-- The text without the `=` at its end. -/
def withoutPadding (chars : List Char) : List Char :=
  (chars.reverse.dropWhile (· = '=')).reverse

/-- The bytes of a text. What is left after the last byte has to be the zeros that fill up a
group. -/
def decode : List Char → Option (List UInt8)
  | 'b' :: chars => do
    let groups ← (withoutPadding chars).mapM groupOf
    let (bytes, rest) := octets groups.flatten
    if rest.length < 5 ∧ rest.all (! ·) then
      some (bytes.map fun group => UInt8.ofNat (ofBits group))
    else none
  | _ => none

theorem withoutPadding_eq_self {chars : List Char} (h : ∀ c ∈ chars, c ≠ '=') :
    withoutPadding chars = chars := by
  unfold withoutPadding
  have hkeep : chars.reverse.dropWhile (· = '=') = chars.reverse := by
    cases hrev : chars.reverse with
    | nil => rfl
    | cons c rest =>
      have hc : c ∈ chars := List.mem_reverse.mp (by simp [hrev])
      rw [List.dropWhile_cons_of_neg (by simp [h c hc])]
  rw [hkeep, List.reverse_reverse]

theorem mapM_groupOf {groups : List (List Bool)} (h : ∀ group ∈ groups, group.length = 5) :
    (groups.map charOf).mapM groupOf = some groups := by
  induction groups with
  | nil => rfl
  | cons group groups ih =>
    rw [List.map_cons, List.mapM_cons, groupOf_charOf (h group (by simp)),
      ih fun g hg => h g (by simp [hg])]
    rfl

theorem octets_flatMap {bytes : List UInt8} {rest : List Bool} (h : rest.length < 8) :
    octets ((bytes.flatMap fun byte => bitsOf 8 byte.toNat) ++ rest)
      = (bytes.map fun byte => bitsOf 8 byte.toNat, rest) := by
  induction bytes with
  | nil => exact octets_of_short h
  | cons byte bytes ih =>
    rw [List.flatMap_cons, List.append_assoc, octets_append length_bitsOf, ih]
    rfl

/-- What is encoded can be decoded. -/
theorem decode_encode (bytes : List UInt8) : decode (encode bytes) = some bytes := by
  obtain ⟨n, hn, hflatten⟩ := flatten_quintets (bytes.flatMap fun byte => bitsOf 8 byte.toNat)
  have hchars : ∀ c ∈ (quintets (bytes.flatMap fun byte => bitsOf 8 byte.toNat)).map charOf,
      c ≠ '=' := by
    intro c hc
    obtain ⟨group, hgroup, rfl⟩ := List.mem_map.mp hc
    exact charOf_ne_padding (length_of_mem_quintets hgroup)
  have hbytes : (bytes.map fun byte => bitsOf 8 byte.toNat).map
      (fun group => UInt8.ofNat (ofBits group)) = bytes := by
    rw [List.map_map]
    conv_rhs => rw [← List.map_id bytes]
    refine List.map_congr_left fun byte _ => ?_
    have hbyte : ofBits (bitsOf 8 byte.toNat) = byte.toNat := ofBits_bitsOf byte.toNat_lt
    simp [hbyte]
  simp only [encode, decode]
  rw [withoutPadding_eq_self hchars, mapM_groupOf fun group => length_of_mem_quintets,
    Option.bind_eq_bind, Option.bind_some, hflatten,
    octets_flatMap (by rw [List.length_replicate]; omega)]
  simp [hn, hbytes]

end Kit.Base32
