import Mathlib.Data.List.Basic

/-! Lists of tagged values in a byte string: a tag, a byte with the length, and as many bytes; a
tag of its own pads, and another ends the list. -/

namespace Castr.Lib.Tagged

abbrev Item := UInt8 × List UInt8

/-- The items up to the end tag, and what is left from there on. A list that runs out before a
length has no end tag; a length past the end of the string is an error. -/
def walk (pad stop : UInt8) : List UInt8 → Option (List Item × List UInt8)
  | [] => some ([], [])
  | [tag] => some ([], [tag])
  | tag :: size :: rest =>
      if tag = stop then some ([], tag :: size :: rest)
      else if tag = pad then walk pad stop (size :: rest)
      else if size.toNat ≤ rest.length then
        (walk pad stop (rest.drop size.toNat)).map
          (fun walked => ((tag, rest.take size.toNat) :: walked.1, walked.2))
      else none
  termination_by bytes => bytes.length
  decreasing_by
    · simp
    · simp only [List.length_drop, List.length_cons]
      omega

/-- An item as it is written; the length has one byte. -/
def encode (item : Item) : List UInt8 := item.1 :: UInt8.ofNat item.2.length :: item.2

structure Plain (pad stop : UInt8) (item : Item) : Prop where
  notPad : item.1 ≠ pad
  notStop : item.1 ≠ stop
  short : item.2.length ≤ 255

section Walks

variable {pad stop : UInt8}

theorem walk_stop (rest : List UInt8) : walk pad stop (stop :: rest) = some ([], stop :: rest) := by
  cases rest with
  | nil => rw [walk]
  | cons size rest => rw [walk, if_pos rfl]

theorem walk_item {item : Item} (plain : Plain pad stop item) (rest : List UInt8) :
    walk pad stop (encode item ++ rest) =
      (walk pad stop rest).map (fun walked => (item :: walked.1, walked.2)) := by
  have short := plain.short
  have size : (UInt8.ofNat item.2.length).toNat = item.2.length := by
    rw [UInt8.toNat_ofNat']
    omega
  rw [encode, List.cons_append, List.cons_append, walk, if_neg plain.notStop, if_neg plain.notPad,
    size, if_pos (by simp), List.drop_left, List.take_left]

theorem walk_encode (items : List Item) (plain : ∀ item ∈ items, Plain pad stop item)
    (rest : List UInt8) :
    walk pad stop (items.flatMap encode ++ stop :: rest) = some (items, stop :: rest) := by
  induction items with
  | nil => exact walk_stop rest
  | cons item items ih =>
      have others := ih (fun other member => plain other (List.mem_cons_of_mem item member))
      rw [List.flatMap_cons, List.append_assoc, walk_item (plain item List.mem_cons_self), others]
      rfl

theorem walk_short (bytes : List UInt8) {items : List Item} {rest : List UInt8}
    (walked : walk pad stop bytes = some (items, rest)) :
    ∀ item ∈ items, item.2.length ≤ 255 := by
  induction bytes using walk.induct pad stop generalizing items rest with
  | case1 =>
      rw [walk] at walked
      cases walked
      simp
  | case2 tag =>
      rw [walk] at walked
      cases walked
      simp
  | case3 size rest =>
      rw [walk_stop] at walked
      cases walked
      simp
  | case4 size rest other ih =>
      rw [walk, if_neg other, if_pos rfl] at walked
      exact ih walked
  | case5 tag size rest notStop notPad inside ih =>
      rw [walk, if_neg notStop, if_neg notPad, if_pos inside] at walked
      obtain ⟨⟨others, left⟩, behind, same⟩ := Option.map_eq_some_iff.mp walked
      cases same
      have small := size.toNat_lt
      refine List.forall_mem_cons.mpr ⟨?_, ih behind⟩
      rw [List.length_take]
      omega
  | case6 tag size rest notStop notPad outside =>
      rw [walk, if_neg notStop, if_neg notPad, if_neg outside] at walked
      exact absurd walked (by simp)

end Walks

section Last

variable {β : Type*}

def lastOf (speaks : Item → Option β) (items : List Item) : Option β :=
  (items.filterMap speaks).getLast?

theorem lastOf_cons (speaks : Item → Option β) (item : Item) (items : List Item) :
    lastOf speaks (item :: items) = (lastOf speaks items).or (speaks item) := by
  unfold lastOf
  rw [List.filterMap_cons]
  cases speaks item with
  | none => rw [Option.or_none]
  | some said =>
      dsimp only
      rw [List.getLast?_cons]
      cases (items.filterMap speaks).getLast? <;> rfl

theorem lastOf_mem (speaks : Item → Option β) {items : List Item} {said : β}
    (last : lastOf speaks items = some said) : ∃ item ∈ items, speaks item = some said :=
  List.mem_filterMap.mp (List.mem_of_getLast? last)

end Last

end Castr.Lib.Tagged
