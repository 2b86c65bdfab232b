import Castr.Lib.Bytes

/-! Attributes in a byte string: a number of two bytes, a length of two bytes, and as many bytes,
numbers written from their high byte. -/

namespace Castr.Lib.Attributes

open Castr.Lib.Bytes

abbrev Attribute := Nat × List UInt8

variable {β : Type*}

def pairOf (high low : UInt8) : Nat := 256 * high.toNat + low.toNat

/-- What the first attribute that speaks has to say. An attribute that runs past the end of the
string ends the search. -/
def seek (speaks : Attribute → Option β) : List UInt8 → Option β
  | high :: low :: more :: less :: rest =>
      let size := pairOf more less
      if size ≤ rest.length then
        match speaks (pairOf high low, rest.take size) with
        | some said => some said
        | none => seek speaks (rest.drop size)
      else none
  | _ => none
  termination_by bytes => bytes.length
  decreasing_by
    simp only [List.length_drop, List.length_cons]
    omega

def encode (entry : Attribute) : List UInt8 :=
  (leBytes 2 entry.1).reverse ++ (leBytes 2 entry.2.length).reverse ++ entry.2

structure Fits (entry : Attribute) : Prop where
  number : entry.1 < 65536
  size : entry.2.length < 65536

variable {speaks : Attribute → Option β}

theorem beBytes_two (n : Nat) :
    (leBytes 2 n).reverse = [UInt8.ofNat (n / 256 % 256), UInt8.ofNat (n % 256)] := rfl

theorem pairOf_bytes (n : Nat) (small : n < 65536) :
    pairOf (UInt8.ofNat (n / 256 % 256)) (UInt8.ofNat (n % 256)) = n := by
  rw [pairOf, UInt8.toNat_ofNat', UInt8.toNat_ofNat']
  omega

theorem bytes_pairOf (high low : UInt8) : (leBytes 2 (pairOf high low)).reverse = [high, low] := by
  have h := high.toNat_lt
  have l := low.toNat_lt
  have front : pairOf high low / 256 % 256 = high.toNat := by rw [pairOf]; omega
  have back : pairOf high low % 256 = low.toNat := by rw [pairOf]; omega
  rw [beBytes_two, front, back, UInt8.ofNat_toNat, UInt8.ofNat_toNat]

theorem seek_encode (entry : Attribute) (fits : Fits entry) (rest : List UInt8) :
    seek speaks (encode entry ++ rest) = (speaks entry).or (seek speaks rest) := by
  rw [encode, beBytes_two, beBytes_two]
  simp only [List.cons_append, List.nil_append]
  rw [seek, pairOf_bytes _ fits.number, pairOf_bytes _ fits.size]
  simp only [List.length_append, Nat.le_add_right, ↓reduceIte, List.take_left, List.drop_left,
    Prod.mk.eta]
  cases speaks entry <;> rfl

theorem seek_silent (entries : List Attribute) (fits : ∀ a ∈ entries, Fits a)
    (silent : ∀ a ∈ entries, speaks a = none) (rest : List UInt8) :
    seek speaks (entries.flatMap encode ++ rest) = seek speaks rest := by
  induction entries with
  | nil => rfl
  | cons entry entries ih =>
      rw [List.flatMap_cons, List.append_assoc,
        seek_encode entry (fits entry List.mem_cons_self),
        silent entry List.mem_cons_self, Option.none_or]
      exact ih (fun a member => fits a (List.mem_cons_of_mem entry member))
        (fun a member => silent a (List.mem_cons_of_mem entry member))

theorem encode_split (high low more less : UInt8) (rest : List UInt8)
    (inside : pairOf more less ≤ rest.length) :
    high :: low :: more :: less :: rest =
      encode (pairOf high low, rest.take (pairOf more less)) ++ rest.drop (pairOf more less) := by
  rw [encode, List.length_take, Nat.min_eq_left inside, bytes_pairOf, bytes_pairOf]
  simp

theorem pairOf_lt (high low : UInt8) : pairOf high low < 65536 := by
  have h := high.toNat_lt
  have l := low.toNat_lt
  rw [pairOf]
  omega

theorem seek_sound (bytes : List UInt8) (said : β) (found : seek speaks bytes = some said) :
    ∃ (silent : List Attribute) (entry : Attribute) (rest : List UInt8),
      bytes = silent.flatMap encode ++ (encode entry ++ rest) ∧
        (∀ a ∈ silent, Fits a ∧ speaks a = none) ∧ Fits entry ∧ speaks entry = some said := by
  induction bytes using seek.induct speaks with
  | case1 high low more less rest size inside told spoken =>
      rw [seek, if_pos inside, spoken] at found
      cases found
      refine ⟨[], _, _, encode_split high low more less rest inside, ?_, ⟨pairOf_lt _ _, ?_⟩,
        spoken⟩
      · intro a member
        cases member
      · rw [List.length_take]
        exact Nat.lt_of_le_of_lt (Nat.min_le_left _ _) (pairOf_lt more less)
  | case2 high low more less rest size inside quiet ih =>
      rw [seek, if_pos inside, quiet] at found
      obtain ⟨silent, entry, behind, same, skipped, fits, spoken⟩ := ih found
      refine ⟨(pairOf high low, rest.take size) :: silent, entry, behind, ?_, ?_, fits, spoken⟩
      · rw [List.flatMap_cons, List.append_assoc, ← same]
        exact encode_split high low more less rest inside
      · refine List.forall_mem_cons.mpr ⟨⟨⟨pairOf_lt _ _, ?_⟩, quiet⟩, skipped⟩
        rw [List.length_take]
        exact Nat.lt_of_le_of_lt (Nat.min_le_left _ _) (pairOf_lt more less)
  | case3 high low more less rest size outside =>
      rw [seek, if_neg outside] at found
      cases found
  | case4 bytes short =>
      rw [seek] at found
      · cases found
      · exact short

theorem seek_iff (bytes : List UInt8) (said : β) :
    seek speaks bytes = some said ↔
      ∃ (silent : List Attribute) (entry : Attribute) (rest : List UInt8),
        bytes = silent.flatMap encode ++ (encode entry ++ rest) ∧
        (∀ a ∈ silent, Fits a ∧ speaks a = none) ∧ Fits entry ∧ speaks entry = some said := by
  constructor
  · exact seek_sound bytes said
  · rintro ⟨silent, entry, rest, rfl, skipped, fits, spoken⟩
    rw [seek_silent silent (fun a member => (skipped a member).1)
      (fun a member => (skipped a member).2), seek_encode entry fits, spoken, Option.some_or]

end Castr.Lib.Attributes
