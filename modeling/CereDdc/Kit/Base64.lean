import Mathlib.Tactic.Common

/-!
# Kit — Base64

Texts in base 64 with the standard alphabet of RFC 4648: three bytes are four
characters, and the last characters are filled up with `=`.
-/

namespace Kit.Base64

def alphabet : List Char :=
  ['A', 'B', 'C', 'D', 'E', 'F', 'G', 'H', 'I', 'J', 'K', 'L', 'M', 'N', 'O', 'P', 'Q', 'R', 'S',
    'T', 'U', 'V', 'W', 'X', 'Y', 'Z', 'a', 'b', 'c', 'd', 'e', 'f', 'g', 'h', 'i', 'j', 'k', 'l',
    'm', 'n', 'o', 'p', 'q', 'r', 's', 't', 'u', 'v', 'w', 'x', 'y', 'z', '0', '1', '2', '3', '4',
    '5', '6', '7', '8', '9', '+', '/']

def charOf (n : Nat) : Char := alphabet.getD n 'A'

theorem idxOf?_charOf : ∀ n < 64, alphabet.idxOf? (charOf n) = some n := by decide

theorem charOf_ne_padding : ∀ n < 64, charOf n ≠ '=' := by decide

def encode : List UInt8 → List Char
  | a :: b :: c :: bytes =>
    let n := a.toNat * 65536 + b.toNat * 256 + c.toNat
    charOf (n / 262144) :: charOf (n / 4096 % 64) :: charOf (n / 64 % 64) :: charOf (n % 64) ::
      encode bytes
  | [a, b] =>
    let n := (a.toNat * 256 + b.toNat) * 4
    [charOf (n / 4096), charOf (n / 64 % 64), charOf (n % 64), '=']
  | [a] =>
    let n := a.toNat * 16
    [charOf (n / 64), charOf (n % 64), '=', '=']
  | [] => []

/-- The bytes of a text; the bits that fill up the last character are not looked at. -/
def decode : List Char → Option (List UInt8)
  | p :: q :: r :: s :: chars => do
    let p ← alphabet.idxOf? p
    let q ← alphabet.idxOf? q
    if s = '=' ∧ chars = [] then
      if r = '=' then return [UInt8.ofNat ((p * 64 + q) / 16)]
      else
        let r ← alphabet.idxOf? r
        let n := (p * 4096 + q * 64 + r) / 4
        return [UInt8.ofNat (n / 256), UInt8.ofNat (n % 256)]
    else
      let r ← alphabet.idxOf? r
      let s ← alphabet.idxOf? s
      let n := p * 262144 + q * 4096 + r * 64 + s
      let bytes ← decode chars
      return UInt8.ofNat (n / 65536) :: UInt8.ofNat (n / 256 % 256) :: UInt8.ofNat (n % 256) ::
        bytes
  | [] => some []
  | _ => none

theorem ofNat_eq {n : Nat} {a : UInt8} (h : n = a.toNat) : UInt8.ofNat n = a := by
  rw [h, UInt8.ofNat_toNat]

/-- What is encoded can be decoded. -/
theorem decode_encode (bytes : List UInt8) : decode (encode bytes) = some bytes := by
  fun_induction encode bytes with
  | case1 a b c bytes n ih =>
    have ha := a.toNat_lt
    have hb := b.toNat_lt
    have hc := c.toNat_lt
    have hn : n = a.toNat * 65536 + b.toNat * 256 + c.toNat := rfl
    clear_value n
    have hsum : n / 262144 * 262144 + n / 4096 % 64 * 4096 + n / 64 % 64 * 64 + n % 64 = n := by
      omega
    rw [decode, idxOf?_charOf _ (by omega), idxOf?_charOf _ (by omega), idxOf?_charOf _ (by omega),
      idxOf?_charOf _ (by omega), ih]
    simp only [Option.bind_eq_bind, Option.bind_some, Option.pure_def, hsum]
    rw [if_neg fun h => charOf_ne_padding _ (by omega) h.1, ofNat_eq (a := a) (by omega),
      ofNat_eq (a := b) (by omega), ofNat_eq (a := c) (by omega)]
  | case2 a b n =>
    have ha := a.toNat_lt
    have hb := b.toNat_lt
    have hn : n = (a.toNat * 256 + b.toNat) * 4 := rfl
    clear_value n
    have hsum : n / 4096 * 4096 + n / 64 % 64 * 64 + n % 64 = n := by omega
    rw [decode, idxOf?_charOf _ (by omega), idxOf?_charOf _ (by omega), idxOf?_charOf _ (by omega)]
    simp only [Option.bind_eq_bind, Option.bind_some, Option.pure_def, hsum]
    rw [if_pos ⟨trivial, trivial⟩, if_neg (charOf_ne_padding _ (by omega)),
      ofNat_eq (a := a) (by omega), ofNat_eq (a := b) (by omega)]
  | case3 a n =>
    have ha := a.toNat_lt
    have hn : n = a.toNat * 16 := rfl
    clear_value n
    have hsum : n / 64 * 64 + n % 64 = n := by omega
    rw [decode, idxOf?_charOf _ (by omega), idxOf?_charOf _ (by omega)]
    simp only [Option.bind_eq_bind, Option.bind_some, Option.pure_def, hsum]
    rw [if_pos ⟨trivial, trivial⟩, if_pos trivial, ofNat_eq (a := a) (by omega)]
  | case4 => rfl

end Kit.Base64
