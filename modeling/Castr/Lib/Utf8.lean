import Castr.Lib.Text

/-! Text as UTF-8 bytes: reading back what was written, and lines that end in `\r\n`. -/

namespace Castr.Lib.Utf8

def utf8 (text : List Char) : List UInt8 := text.flatMap String.utf8EncodeChar

@[simp] theorem utf8_nil : utf8 [] = [] := rfl

@[simp] theorem utf8_append (front back : List Char) :
    utf8 (front ++ back) = utf8 front ++ utf8 back := List.flatMap_append

theorem utf8_crlf (rest : List Char) : utf8 ('\r' :: '\n' :: rest) = 13 :: 10 :: utf8 rest := by
  have crlf : utf8 ['\r', '\n'] = [13, 10] := by decide
  calc utf8 ('\r' :: '\n' :: rest)
      = utf8 ['\r', '\n'] ++ utf8 rest := utf8_append ['\r', '\n'] rest
    _ = 13 :: 10 :: utf8 rest := by rw [crlf]; rfl

theorem fromUTF8_utf8 (text : List Char) :
    String.fromUTF8? (utf8 text).toByteArray = some (String.ofList text) := by
  have valid : (utf8 text).toByteArray.IsValidUTF8 := ⟨text, rfl⟩
  rw [String.fromUTF8?, dif_pos valid]
  rfl

theorem utf8_length (text : List Char) :
    (utf8 text).length = (String.ofList text).utf8ByteSize := by
  calc (utf8 text).length
      = (utf8 text).toByteArray.size := List.size_toByteArray.symm
    _ = (String.ofList text).utf8ByteSize := rfl

theorem ascii_of_mem (c : Char) (b : UInt8) (low : b.toNat < 128)
    (member : b ∈ String.utf8EncodeChar c) : c.toNat = b.toNat := by
  have code (value : Nat) (small : value < 256) : (UInt8.ofNat value).toNat = value := by
    rw [UInt8.toNat_ofNat']
    omega
  have value : c.toNat = c.val.toNat := rfl
  unfold String.utf8EncodeChar at member
  dsimp only at member
  split at member
  · rename_i small
    rw [List.mem_singleton.mp member, code _ (by omega), value]
  · split at member
    · simp only [List.mem_cons, List.not_mem_nil, or_false] at member
      rcases member with rfl | rfl <;> rw [code _ (by omega)] at low <;> omega
    · split at member
      · simp only [List.mem_cons, List.not_mem_nil, or_false] at member
        rcases member with rfl | rfl | rfl <;> rw [code _ (by omega)] at low <;> omega
      · simp only [List.mem_cons, List.not_mem_nil, or_false] at member
        rcases member with rfl | rfl | rfl | rfl <;> rw [code _ (by omega)] at low <;> omega

theorem return_of_mem (text : List Char) (member : 13 ∈ utf8 text) : '\r' ∈ text := by
  obtain ⟨c, inside, byte⟩ := List.mem_flatMap.mp member
  have same := ascii_of_mem c 13 (by decide) byte
  have carriage : c = '\r' := Char.toNat_inj.mp same
  rwa [← carriage]

end Castr.Lib.Utf8
