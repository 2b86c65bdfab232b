import Castr.Lib.Bytes
import Castr.Lib.Text

/-! Bytes as hexadecimal text, two digits to a byte. -/

namespace Castr.Lib.Hex

open Castr.Lib.Bytes (leBytes)
open Castr.Lib.Text (digit digit_digitChar)

def pair (byte : UInt8) : List Char :=
  [Nat.digitChar (byte.toNat / 16), Nat.digitChar (byte.toNat % 16)]

/-- Lower-case digits, the higher one of a byte first. -/
def encode (bytes : List UInt8) : List Char := bytes.flatMap pair

/-- Digits of either case; an odd one out is an error. -/
def decode : List Char → Option (List UInt8)
  | [] => some []
  | [_] => none
  | high :: low :: rest =>
      match digit high, digit low with
      | some h, some l => (decode rest).map (fun bytes => UInt8.ofNat (16 * h + l) :: bytes)
      | _, _ => none

def padded (width n : Nat) : List Char :=
  List.replicate (width - (Nat.toDigits 16 n).length) '0' ++ Nat.toDigits 16 n

theorem decode_pair (byte : UInt8) (rest : List Char) :
    decode (pair byte ++ rest) = (decode rest).map (fun bytes => byte :: bytes) := by
  have small := byte.toNat_lt
  have whole : 16 * (byte.toNat / 16) + byte.toNat % 16 = byte.toNat := by omega
  rw [pair, List.cons_append, List.singleton_append, decode,
    digit_digitChar _ (by omega : byte.toNat / 16 < 16),
    digit_digitChar _ (by omega : byte.toNat % 16 < 16)]
  dsimp only
  rw [whole, UInt8.ofNat_toNat]

theorem decode_encode (bytes : List UInt8) : decode (encode bytes) = some bytes := by
  induction bytes with
  | nil => rfl
  | cons byte bytes ih =>
      have later : decode (bytes.flatMap pair) = some bytes := ih
      rw [encode, List.flatMap_cons, decode_pair, later]
      rfl

theorem encode_length (bytes : List UInt8) : (encode bytes).length = 2 * bytes.length := by
  induction bytes with
  | nil => rfl
  | cons byte bytes ih =>
      rw [encode, List.flatMap_cons, List.length_append, ← encode, ih, List.length_cons, pair]
      simp only [List.length_cons, List.length_nil]
      omega

theorem encode_append (front back : List UInt8) :
    encode (front ++ back) = encode front ++ encode back := List.flatMap_append

def lastDigits : Nat → Nat → List Char
  | 0, _ => []
  | width + 1, n => lastDigits width (n / 16) ++ [Nat.digitChar (n % 16)]

theorem lastDigits_zero (width : Nat) : lastDigits width 0 = List.replicate width '0' := by
  induction width with
  | zero => rfl
  | succ width ih =>
      rw [lastDigits, Nat.zero_div, ih, List.replicate_succ']
      rfl

theorem padded_eq {width n : Nat} (some : 1 ≤ width) (small : n < 16 ^ width) :
    padded width n = lastDigits width n := by
  induction width, some using Nat.le_induction generalizing n with
  | base =>
      have digit : Nat.toDigits 16 n = [Nat.digitChar n] := Nat.toDigits_of_lt_base small
      rw [padded, digit, lastDigits, Nat.mod_eq_of_lt (Nat.lt_of_lt_of_eq small (Nat.pow_one 16))]
      rfl
  | succ width some ih =>
      by_cases more : 16 ≤ n
      · have rest := ih (n := n / 16) (by rw [Nat.pow_succ] at small; omega)
        rw [lastDigits, ← rest, padded, padded, Nat.toDigits_of_base_le (by decide) more,
          List.length_append, List.length_singleton, Nat.add_sub_add_right, List.append_assoc]
      · have digit : Nat.toDigits 16 n = [Nat.digitChar n] := Nat.toDigits_of_lt_base (by omega)
        rw [padded, digit, lastDigits, Nat.div_eq_of_lt (by omega), lastDigits_zero,
          Nat.mod_eq_of_lt (by omega)]
        rfl

theorem lastDigits_byte (width n : Nat) :
    lastDigits (width + 2) n = lastDigits width (n / 256) ++ pair (UInt8.ofNat (n % 256)) := by
  have low : (UInt8.ofNat (n % 256)).toNat = n % 256 := by
    rw [UInt8.toNat_ofNat']
    omega
  have high : n / 16 % 16 = n % 256 / 16 := by omega
  have last : n % 16 = n % 256 % 16 := by omega
  have rest : n / 16 / 16 = n / 256 := by rw [Nat.div_div_eq_div_mul]
  rw [lastDigits, lastDigits, rest, high, last, List.append_assoc, pair, low]
  rfl

theorem lastDigits_bytes (width n : Nat) :
    lastDigits (2 * width) n = encode (leBytes width n).reverse := by
  induction width generalizing n with
  | zero => rfl
  | succ width ih =>
      have alone : encode [UInt8.ofNat (n % 256)] = pair (UInt8.ofNat (n % 256)) :=
        List.append_nil _
      rw [Nat.mul_succ, lastDigits_byte, ih, leBytes, List.reverse_cons, encode_append, alone]

theorem padded_bytes (width n : Nat) (some : 1 ≤ width) (small : n < 256 ^ width) :
    padded (2 * width) n = encode (leBytes width n).reverse := by
  have digits : (256 : Nat) ^ width = 16 ^ (2 * width) := by rw [Nat.pow_mul]
  rw [padded_eq (by omega) (by rwa [← digits]), lastDigits_bytes]

end Castr.Lib.Hex
