import Castr.Lib.Bytes
import Castr.Lib.Framing
import Castr.Proto.Control

/-! Values in frames: four bytes of length, then the encoding of the value. -/

namespace Castr.Proto

open Castr.Lib.Bytes
open Castr.Lib.Framing

def maxControlFrame : Nat := 64 * 1024

inductive ControlError where
  | tooLarge
  | postcard
  deriving DecidableEq, Repr

/-- The encoding of values, which is no part of this code. -/
structure Postcard (T : Type) where
  encode : T → Bytes
  decode : Bytes → Option T

/-- What is relied on for a value: its documented size, that it reads back, and that no part of
its encoding reads as a value. -/
structure Postcard.Faithful {T : Type} (codec : Postcard T) (size : T → Nat) (value : T) :
    Prop where
  length : (codec.encode value).length = size value
  whole : codec.decode (codec.encode value) = some value
  cut : ∀ front back, codec.encode value = front ++ back → back ≠ [] → codec.decode front = none

section Frames

variable {T : Type} (codec : Postcard T)

/-- The length is cut to 32 bits, and not checked. -/
def encodeLenPrefixed (value : T) : Bytes :=
  let body := codec.encode value
  leBytes 4 (body.length % 2 ^ 32) ++ body

def decodeLenPrefixed (buf : Bytes) : Except ControlError (Option (T × Nat)) :=
  if buf.length < 4 then .ok none
  else
    let len := readLe (buf.take 4)
    if maxControlFrame < len then .error .tooLarge
    else if buf.length < 4 + len then .ok none
    else
      match codec.decode ((buf.drop 4).take len) with
      | none => .error .postcard
      | some value => .ok (some (value, 4 + len))

variable (size : T → Nat) (value : T) (faithful : codec.Faithful size value)

theorem decode_prefix (length : Nat) (fits : length < 2 ^ 32) (body : Bytes) :
    decodeLenPrefixed codec (leBytes 4 length ++ body) =
      if maxControlFrame < length then .error .tooLarge
      else if body.length < length then .ok none
      else
        match codec.decode (body.take length) with
        | none => .error .postcard
        | some value => .ok (some (value, 4 + length)) := by
  have width : (leBytes 4 length).length = 4 := leBytes_length 4 length
  have long : ¬ (leBytes 4 length ++ body).length < 4 := by
    rw [List.length_append, width]
    omega
  have read : readLe ((leBytes 4 length ++ body).take 4) = length := by
    rw [List.take_left' width, readLe_leBytes 4 length fits]
  have more : (leBytes 4 length ++ body).length < 4 + length ↔ body.length < length := by
    rw [List.length_append, width]
    omega
  rw [decodeLenPrefixed, if_neg long]
  simp only [read, more, List.drop_left' width]

include faithful

theorem framed_small (small : size value ≤ maxControlFrame) :
    Framed (decodeLenPrefixed codec) (encodeLenPrefixed codec value) value := by
  have length := faithful.length
  have same : (codec.encode value).length % 2 ^ 32 = size value := by
    rw [length]
    exact Nat.mod_eq_of_lt (Nat.lt_of_le_of_lt small (by decide))
  have bound : size value < 2 ^ 32 := Nat.lt_of_le_of_lt small (by decide)
  have width : (leBytes 4 (size value)).length = 4 := leBytes_length 4 _
  constructor
  · intro rest
    have short : ¬ (codec.encode value ++ rest).length < size value := by
      rw [List.length_append, length]
      omega
    rw [encodeLenPrefixed, same, List.append_assoc, decode_prefix codec _ bound,
      if_neg (Nat.not_lt.mpr small), if_neg short, List.take_left' length, faithful.whole,
      List.length_append, width, length]
  · intro front back split missing
    rw [encodeLenPrefixed, same] at split
    by_cases early : front.length < 4
    · rw [decodeLenPrefixed, if_pos early]
    · rcases List.append_eq_append_iff.mp split with ⟨part, here, rest⟩ | ⟨part, here, rest⟩
      · have sizes := congrArg List.length rest
        have some := List.length_pos_iff.mpr missing
        rw [List.length_append, length] at sizes
        rw [here, decode_prefix codec _ bound, if_neg (Nat.not_lt.mpr small), if_pos (by omega)]
      · have sizes := congrArg List.length here
        rw [List.length_append, width] at sizes
        have none : part = [] := List.length_eq_zero_iff.mp (by omega)
        have some : ([] : Bytes).length < size value := by
          have all := congrArg List.length rest
          have back_some := List.length_pos_iff.mpr missing
          simp only [none, List.nil_append] at all
          rw [List.length_nil]
          omega
        rw [none, List.append_nil] at here
        rw [← here, ← List.append_nil (leBytes 4 (size value)), decode_prefix codec _ bound,
          if_neg (Nat.not_lt.mpr small), if_pos some]

theorem refused_large (large : ¬ size value ≤ maxControlFrame) :
    Refused (decodeLenPrefixed codec) (encodeLenPrefixed codec value) := by
  intro rest
  have length := faithful.length
  have bound : (codec.encode value).length % 2 ^ 32 < 2 ^ 32 := Nat.mod_lt _ (by decide)
  rw [encodeLenPrefixed, List.append_assoc, decode_prefix codec _ bound]
  split
  · exact ⟨.tooLarge, rfl⟩
  · rename_i within
    have less : (codec.encode value).length % 2 ^ 32 < (codec.encode value).length := by omega
    have enough : ¬ (codec.encode value ++ rest).length < (codec.encode value).length % 2 ^ 32 := by
      rw [List.length_append]
      omega
    have part : (codec.encode value ++ rest).take ((codec.encode value).length % 2 ^ 32) =
        (codec.encode value).take ((codec.encode value).length % 2 ^ 32) :=
      List.take_append_of_le_length less.le
    have cut : codec.decode ((codec.encode value).take ((codec.encode value).length % 2 ^ 32)) =
        none := by
      apply faithful.cut _ _ (List.take_append_drop _ _).symm
      rw [ne_eq, List.drop_eq_nil_iff]
      omega
    rw [if_neg enough, part, cut]
    exact ⟨.postcard, rfl⟩

end Frames

end Castr.Proto
