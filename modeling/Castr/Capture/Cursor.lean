import Castr.Lib.Folding
import Castr.Lib.Slices
import Mathlib.Algebra.Group.Int.Defs
import Mathlib.Algebra.Group.Nat.Defs
import Mathlib.Data.List.ProdSigma
import Mathlib.Data.List.Nodup

/-! Drawing a cursor into a frame, with every index and every sum checked: `none` is a panic. -/

namespace Castr.Capture

open Castr.Lib.Folding
open Castr.Lib.Slices

inductive CursorKind where
  | color
  | monochrome
  | maskedColor
  deriving DecidableEq, Repr

structure CursorShape where
  kind : CursorKind
  width : UInt32
  height : UInt32
  pitch : UInt32
  data : List UInt8

def CursorShape.drawnHeight (shape : CursorShape) : UInt32 :=
  match shape.kind with
  | .monochrome => shape.height / 2
  | _ => shape.height

section Arithmetic

def addI32 (a b : Int) : Option Int :=
  if -2 ^ 31 ≤ a + b ∧ a + b < 2 ^ 31 then some (a + b) else none

def addU32 (a b : Nat) : Option Nat := if a + b < 2 ^ 32 then some (a + b) else none

def mulU32 (a b : Nat) : Option Nat := if a * b < 2 ^ 32 then some (a * b) else none

/-- `n as i32`, for a word of 32 bits. -/
def asI32 (n : Nat) : Int := if n < 2 ^ 31 then n else n - 2 ^ 32

def place (row width column : Nat) : Option Nat := do
  let rows ← mulU32 row width
  let columns ← mulU32 column 4
  addU32 rows columns

theorem place_iff (row width column found : Nat) : place row width column = some found ↔
    row * width + column * 4 < 2 ^ 32 ∧ row * width + column * 4 = found := by
  unfold place mulU32 addU32
  by_cases rows : row * width < 2 ^ 32
  · by_cases columns : column * 4 < 2 ^ 32
    · rw [if_pos rows, if_pos columns]
      simp
    · rw [if_pos rows, if_neg columns]
      simp
      omega
  · rw [if_neg rows]
    simp
    omega

theorem place_bind {row width column : Nat} {rest : Nat → Option (List UInt8)}
    {next : List UInt8} : (place row width column).bind rest = some next ↔
      row * width + column * 4 < 2 ^ 32 ∧ rest (row * width + column * 4) = some next := by
  rw [Option.bind_eq_some_iff]
  constructor
  · rintro ⟨found, placed, rest⟩
    obtain ⟨fits, rfl⟩ := (place_iff row width column found).mp placed
    exact ⟨fits, rest⟩
  · rintro ⟨fits, rest⟩
    exact ⟨_, (place_iff row width column _).mpr ⟨fits, rfl⟩, rest⟩

end Arithmetic

/-- `for c in 0..3`: each of the three bytes from what it was. -/
def channels (f : Nat → UInt8 → Option UInt8) (dst : List UInt8) (di : Nat) :
    Option (List UInt8) :=
  [0, 1, 2].foldlM (fun dst c => do
    let d ← fetch dst (di + c)
    let value ← f c d
    store dst (di + c) value) dst

def mix (s d a : UInt8) : Option UInt8 := do
  let front ← mulU32 s.toNat a.toNat
  let left ← less 255 a.toNat
  let back ← mulU32 d.toNat left
  let sum ← addU32 front back
  some (UInt8.ofNat (sum / 255))

def maskBit (byte : UInt8) (cx : Nat) : UInt8 := (byte >>> UInt8.ofNat (7 - cx % 8)) &&& 1

def blendColor (shape : CursorShape) (dst : List UInt8) (di cy cx : Nat) :
    Option (List UInt8) := do
  let si ← place cy shape.pitch.toNat cx
  match getRange shape.data si (si + 4) with
  | none => some dst
  | some src => do
      let a ← fetch src 3
      if a = 0 then some dst
      else
        channels (fun c d => do
          let s ← fetch src c
          mix s d a) dst di

def blendMonochrome (shape : CursorShape) (dst : List UInt8) (di cy cx : Nat) :
    Option (List UInt8) := do
  let above ← mulU32 cy shape.pitch.toNat
  let row ← addU32 cy shape.drawnHeight.toNat
  let below ← mulU32 row shape.pitch.toNat
  match shape.data[above + cx / 8]?, shape.data[below + cx / 8]? with
  | some aByte, some xByte =>
      if maskBit aByte cx = 0 then
        if maskBit xByte cx = 0 then channels (fun _ _ => some 0) dst di
        else channels (fun _ _ => some 255) dst di
      else if maskBit xByte cx = 0 then some dst
      else channels (fun _ d => some (~~~d)) dst di
  | _, _ => some dst

def blendMaskedColor (shape : CursorShape) (dst : List UInt8) (di cy cx : Nat) :
    Option (List UInt8) := do
  let si ← place cy shape.pitch.toNat cx
  match getRange shape.data si (si + 4) with
  | none => some dst
  | some src => do
      let a ← fetch src 3
      if a = 0 then channels (fun c _ => fetch src c) dst di
      else
        channels (fun c d => do
          let s ← fetch src c
          some (d ^^^ s)) dst di

def blendPixel (shape : CursorShape) (dst : List UInt8) (di cy cx : Nat) : Option (List UInt8) :=
  match shape.kind with
  | .color => blendColor shape dst di cy cx
  | .monochrome => blendMonochrome shape dst di cy cx
  | .maskedColor => blendMaskedColor shape dst di cy cx

/-- The body of the loop over the columns; `continue` leaves the destination as it is. -/
def blendColumn (shape : CursorShape) (x : Int32) (dy : Int) (cy : Nat)
    (dstWidth dstStride : UInt32) (dst : List UInt8) (cx : Nat) : Option (List UInt8) := do
  let dx ← addI32 x.toInt (asI32 cx)
  if dx < 0 ∨ dstWidth.toNat ≤ dx.toNat then some dst
  else do
    let di ← place dy.toNat dstStride.toNat dx.toNat
    if dst.length ≤ di + 3 then some dst else blendPixel shape dst di cy cx

def blendRow (shape : CursorShape) (x y : Int32) (dstWidth dstHeight dstStride : UInt32)
    (dst : List UInt8) (cy : Nat) : Option (List UInt8) := do
  let dy ← addI32 y.toInt (asI32 cy)
  if dy < 0 ∨ dstHeight.toNat ≤ dy.toNat then some dst
  else
    (List.range shape.width.toNat).foldlM (blendColumn shape x dy cy dstWidth dstStride) dst

def blend (shape : CursorShape) (x y : Int32) (dst : List UInt8)
    (dstWidth dstHeight dstStride : UInt32) : Option (List UInt8) :=
  (List.range shape.drawnHeight.toNat).foldlM
    (blendRow shape x y dstWidth dstHeight dstStride) dst

section Rules

/-- The four bytes of a pixel of the shape, where the data reaches it. -/
def CursorShape.pixel (shape : CursorShape) (cy cx : Nat) : Option (List UInt8) :=
  getRange shape.data (cy * shape.pitch.toNat + cx * 4) (cy * shape.pitch.toNat + cx * 4 + 4)

def CursorShape.mask (shape : CursorShape) (row cx : Nat) : Option UInt8 :=
  shape.data[row * shape.pitch.toNat + cx / 8]?

def CursorShape.rule (shape : CursorShape) (cy cx c : Nat) (d : UInt8) : UInt8 :=
  match shape.kind with
  | .color =>
      match shape.pixel cy cx with
      | none => d
      | some src =>
          let a := (src.getD 3 0).toNat
          UInt8.ofNat (((src.getD c 0).toNat * a + d.toNat * (255 - a)) / 255)
  | .monochrome =>
      match shape.mask cy cx, shape.mask (cy + shape.drawnHeight.toNat) cx with
      | some aByte, some xByte =>
          if maskBit aByte cx = 0 then if maskBit xByte cx = 0 then 0 else 255
          else if maskBit xByte cx = 0 then d else ~~~d
      | _, _ => d
  | .maskedColor =>
      match shape.pixel cy cx with
      | none => d
      | some src => if src.getD 3 0 = 0 then src.getD c 0 else d ^^^ src.getD c 0

def paint (g : Nat → UInt8 → UInt8) (dst : List UInt8) (di : Nat) : List UInt8 :=
  [0, 1, 2].foldl (fun dst c => dst.set (di + c) (g c (dst.getD (di + c) 0))) dst

theorem set_touching (g : Nat → UInt8 → UInt8) (di size : Nat) :
    Touching (fun dst c => dst.set (di + c) (g c (dst.getD (di + c) 0))) (fun c k => k = di + c)
      (fun c _ => g c) size where
  length cells c sized := by rw [List.length_set, sized]
  touched cells c k sized touch := by
    subst touch
    rw [List.getElem?_set, if_pos rfl]
    split
    · rename_i here
      rw [List.getD_eq_getElem _ _ here, List.getElem?_eq_getElem here]
      rfl
    · rename_i outside
      rw [List.getElem?_eq_none (Nat.le_of_not_lt outside)]
      rfl
  apart cells c k sized apart := by
    rw [List.getElem?_set, if_neg (fun same => apart same.symm)]

theorem paint_length (g : Nat → UInt8 → UInt8) (dst : List UInt8) (di : Nat) :
    (paint g dst di).length = dst.length :=
  (set_touching g di dst.length).foldl_length [0, 1, 2] dst rfl

theorem paint_touched (g : Nat → UInt8 → UInt8) (dst : List UInt8) (di : Nat) {c : Nat}
    (small : c < 3) : (paint g dst di)[di + c]? = dst[di + c]?.map (g c) := by
  refine (set_touching g di dst.length).foldl_touched [0, 1, 2] (by decide) dst rfl (di + c) ?_
    rfl ?_
  · simp
    omega
  · intro other _ same
    omega

theorem paint_apart (g : Nat → UInt8 → UInt8) (dst : List UInt8) (di k : Nat)
    (apart : ∀ c < 3, k ≠ di + c) : (paint g dst di)[k]? = dst[k]? := by
  refine (set_touching g di dst.length).foldl_apart [0, 1, 2] dst rfl k (fun c member => ?_)
  exact apart c (by simp at member; omega)

theorem paint_same {g : Nat → UInt8 → UInt8} (same : ∀ c < 3, ∀ d, g c d = d) (dst : List UInt8)
    (di : Nat) : paint g dst di = dst := by
  refine List.ext_getElem? (fun k => ?_)
  by_cases touched : ∃ c < 3, k = di + c
  · obtain ⟨c, small, rfl⟩ := touched
    rw [paint_touched g dst di small]
    cases dst[di + c]? with
    | none => rfl
    | some d => exact congrArg some (same c small d)
  · exact paint_apart g dst di k (fun c small same => touched ⟨c, small, same⟩)

theorem channels_eq {f : Nat → UInt8 → Option UInt8} {g : Nat → UInt8 → UInt8}
    (values : ∀ c < 3, ∀ d, f c d = some (g c d)) {dst : List UInt8} {di : Nat}
    (inside : di + 3 < dst.length) : channels f dst di = some (paint g dst di) := by
  have turn : ∀ c < 3, ∀ cells : List UInt8, cells.length = dst.length →
      (do let d ← fetch cells (di + c)
          let value ← f c d
          store cells (di + c) value) =
        some (cells.set (di + c) (g c (cells.getD (di + c) 0))) := by
    intro c small cells sized
    rw [fetch_eq 0 (by omega), Option.bind_eq_bind, Option.bind_some, values c small,
      Option.bind_some, store, if_pos (by omega)]
  unfold channels paint
  rw [List.foldlM_cons, turn 0 (by decide) _ rfl, Option.bind_eq_bind, Option.bind_some,
    List.foldlM_cons, turn 1 (by decide) _ List.length_set, Option.bind_eq_bind, Option.bind_some,
    List.foldlM_cons, turn 2 (by decide) _ (List.length_set.trans List.length_set),
    Option.bind_eq_bind, Option.bind_some]
  rfl

theorem mix_eq (s d a : UInt8) :
    mix s d a = some (UInt8.ofNat ((s.toNat * a.toNat + d.toNat * (255 - a.toNat)) / 255)) := by
  have := s.toNat_lt
  have := d.toNat_lt
  have := a.toNat_lt
  have front : s.toNat * a.toNat ≤ 255 * a.toNat := Nat.mul_le_mul_right _ (by omega)
  have back : d.toNat * (255 - a.toNat) ≤ 255 * (255 - a.toNat) :=
    Nat.mul_le_mul_right _ (by omega)
  unfold mix mulU32 addU32
  rw [if_pos (by omega), less_eq (by omega), Option.bind_eq_bind, Option.bind_some,
    Option.bind_some, if_pos (by omega), Option.bind_some, if_pos (by omega)]
  rfl

/-- What a pixel of the shape asks of the arithmetic that finds its data. -/
def CursorShape.reached (shape : CursorShape) (cy cx : Nat) : Prop :=
  match shape.kind with
  | .monochrome => cy + shape.drawnHeight.toNat < 2 ^ 32 ∧
      (cy + shape.drawnHeight.toNat) * shape.pitch.toNat < 2 ^ 32
  | _ => cy * shape.pitch.toNat + cx * 4 < 2 ^ 32

theorem pixel_length {shape : CursorShape} {cy cx : Nat} {src : List UInt8}
    (found : shape.pixel cy cx = some src) : src.length = 4 := by
  rw [CursorShape.pixel, getRange_eq] at found
  split at found
  · rename_i inside
    cases found
    rw [List.length_take]
    omega
  · exact nomatch found

section Sourced

variable {shape : CursorShape} {dst : List UInt8} {di : Nat} (cy cx : Nat)

theorem sourced_iff (draw : List UInt8 → UInt8 → Option (List UInt8))
    (outside : shape.pixel cy cx = none → ∀ c d, shape.rule cy cx c d = d)
    (drawn : ∀ src, shape.pixel cy cx = some src → src.length = 4 →
      draw src (src.getD 3 0) = some (paint (shape.rule cy cx) dst di)) (next : List UInt8) :
    (do
      let si ← place cy shape.pitch.toNat cx
      match getRange shape.data si (si + 4) with
      | none => some dst
      | some src => do
          let a ← fetch src 3
          draw src a) = some next ↔
      cy * shape.pitch.toNat + cx * 4 < 2 ^ 32 ∧ paint (shape.rule cy cx) dst di = next := by
  refine place_bind.trans (and_congr_right (fun _ => (Eq.congr ?_ rfl).trans Option.some_inj))
  change (match shape.pixel cy cx with
    | none => some dst
    | some src => _) = _
  cases found : shape.pixel cy cx with
  | none => exact congrArg some (paint_same (fun c _ d => outside found c d) dst di).symm
  | some src =>
      have four := pixel_length found
      dsimp only
      rw [fetch_eq 0 (by omega), Option.bind_eq_bind, Option.bind_some]
      exact drawn src found four

theorem blendColor_iff (kind : shape.kind = .color) (inside : di + 3 < dst.length)
    (next : List UInt8) : blendColor shape dst di cy cx = some next ↔
      shape.reached cy cx ∧ paint (shape.rule cy cx) dst di = next := by
  rw [CursorShape.reached, kind]
  refine sourced_iff cy cx (fun src a => if a = 0 then some dst else channels (fun c d => do
    let s ← fetch src c
    mix s d a) dst di) ?_ ?_ next
  · intro found c d
    rw [CursorShape.rule, kind, found]
  · intro src found four
    have rule : ∀ c d, shape.rule cy cx c d = UInt8.ofNat (((src.getD c 0).toNat *
        (src.getD 3 0).toNat + d.toNat * (255 - (src.getD 3 0).toNat)) / 255) := by
      intro c d
      rw [CursorShape.rule, kind, found]
    split
    · rename_i clear
      refine congrArg some (paint_same (fun c _ d => ?_) dst di).symm
      rw [rule, clear, show (0 : UInt8).toNat = 0 from rfl, Nat.mul_zero, Nat.zero_add,
        Nat.sub_zero, Nat.mul_div_cancel _ (by decide), UInt8.ofNat_toNat]
    · refine channels_eq (fun c small d => ?_) inside
      rw [fetch_eq 0 (by omega), Option.bind_eq_bind, Option.bind_some, mix_eq, rule]

theorem blendMaskedColor_iff (kind : shape.kind = .maskedColor) (inside : di + 3 < dst.length)
    (next : List UInt8) : blendMaskedColor shape dst di cy cx = some next ↔
      shape.reached cy cx ∧ paint (shape.rule cy cx) dst di = next := by
  rw [CursorShape.reached, kind]
  refine sourced_iff cy cx (fun src a => if a = 0 then channels (fun c _ => fetch src c) dst di
    else channels (fun c d => do
      let s ← fetch src c
      some (d ^^^ s)) dst di) ?_ ?_ next
  · intro found c d
    rw [CursorShape.rule, kind, found]
  · intro src found four
    have rule : ∀ c d, shape.rule cy cx c d =
        if src.getD 3 0 = 0 then src.getD c 0 else d ^^^ src.getD c 0 := by
      intro c d
      rw [CursorShape.rule, kind, found]
    split
    · rename_i copied
      refine channels_eq (fun c small d => ?_) inside
      rw [fetch_eq 0 (by omega), rule, if_pos copied]
    · rename_i turned
      refine channels_eq (fun c small d => ?_) inside
      rw [fetch_eq 0 (by omega), Option.bind_eq_bind, Option.bind_some, rule, if_neg turned]

end Sourced

theorem monochrome_rule {shape : CursorShape} (kind : shape.kind = .monochrome)
    {dst : List UInt8} {di : Nat} (inside : di + 3 < dst.length) (cy cx : Nat) :
    (match shape.mask cy cx, shape.mask (cy + shape.drawnHeight.toNat) cx with
      | some aByte, some xByte =>
          if maskBit aByte cx = 0 then
            if maskBit xByte cx = 0 then channels (fun _ _ => some 0) dst di
            else channels (fun _ _ => some 255) dst di
          else if maskBit xByte cx = 0 then some dst
          else channels (fun _ d => some (~~~d)) dst di
      | _, _ => some dst) = some (paint (shape.rule cy cx) dst di) := by
  have rule : ∀ c d, shape.rule cy cx c d =
      match shape.mask cy cx, shape.mask (cy + shape.drawnHeight.toNat) cx with
      | some aByte, some xByte =>
          if maskBit aByte cx = 0 then if maskBit xByte cx = 0 then 0 else 255
          else if maskBit xByte cx = 0 then d else ~~~d
      | _, _ => d := by
    intro c d
    rw [CursorShape.rule, kind]
  generalize shape.mask cy cx = above at rule ⊢
  generalize shape.mask (cy + shape.drawnHeight.toNat) cx = below at rule ⊢
  match above, below with
  | none, _ => exact congrArg some (paint_same (fun c _ d => rule c d) dst di).symm
  | some aByte, none => exact congrArg some (paint_same (fun c _ d => rule c d) dst di).symm
  | some aByte, some xByte =>
    dsimp only at rule ⊢
    split
    · rename_i dark
      split
      · rename_i black
        exact channels_eq (fun c _ d => by rw [rule, if_pos dark, if_pos black]) inside
      · rename_i white
        exact channels_eq (fun c _ d => by rw [rule, if_pos dark, if_neg white]) inside
    · rename_i clear
      split
      · rename_i kept
        refine congrArg some (paint_same (fun c _ d => ?_) dst di).symm
        rw [rule, if_neg clear, if_pos kept]
      · rename_i turned
        exact channels_eq (fun c _ d => by rw [rule, if_neg clear, if_neg turned]) inside

theorem blendMonochrome_iff {shape : CursorShape} (kind : shape.kind = .monochrome)
    {dst : List UInt8} {di : Nat} (inside : di + 3 < dst.length) (cy cx : Nat)
    (next : List UInt8) : blendMonochrome shape dst di cy cx = some next ↔
      shape.reached cy cx ∧ paint (shape.rule cy cx) dst di = next := by
  rw [CursorShape.reached, kind]
  have done := monochrome_rule kind inside cy cx
  unfold blendMonochrome mulU32 addU32
  by_cases row : cy + shape.drawnHeight.toNat < 2 ^ 32
  · by_cases below : (cy + shape.drawnHeight.toNat) * shape.pitch.toNat < 2 ^ 32
    · have above : cy * shape.pitch.toNat < 2 ^ 32 :=
        Nat.lt_of_le_of_lt (Nat.mul_le_mul_right _ (Nat.le_add_right cy _)) below
      rw [if_pos row, if_pos above]
      dsimp only [Option.bind_eq_bind, Option.bind_some]
      rw [if_pos below]
      exact ⟨fun run => ⟨⟨row, below⟩, Option.some.inj (done.symm.trans run)⟩,
        fun same => done.trans (congrArg some same.2)⟩
    · refine ⟨fun run => ?_, fun same => absurd same.1.2 below⟩
      rw [if_pos row] at run
      dsimp only [Option.bind_eq_bind, Option.bind_some] at run
      rw [if_neg below] at run
      split at run <;> exact nomatch run
  · refine ⟨fun run => ?_, fun same => absurd same.1.1 row⟩
    rw [if_neg row] at run
    split at run <;> exact nomatch run

theorem blendPixel_iff (shape : CursorShape) {dst : List UInt8} {di : Nat}
    (inside : di + 3 < dst.length) (cy cx : Nat) (next : List UInt8) :
    blendPixel shape dst di cy cx = some next ↔
      shape.reached cy cx ∧ paint (shape.rule cy cx) dst di = next := by
  unfold blendPixel
  cases kind : shape.kind with
  | color => exact blendColor_iff cy cx kind inside next
  | monochrome => exact blendMonochrome_iff kind inside cy cx next
  | maskedColor => exact blendMaskedColor_iff cy cx kind inside next

end Rules

section Loops

variable (shape : CursorShape) (x y : Int32) (dstWidth dstHeight dstStride : UInt32)

def Shown (start : Int32) (limit : UInt32) (k : Nat) : Prop :=
  0 ≤ start.toInt + asI32 k ∧ start.toInt + asI32 k < limit.toNat

instance (start : Int32) (limit : UInt32) (k : Nat) : Decidable (Shown start limit k) :=
  inferInstanceAs (Decidable (_ ∧ _))

def Sums (start : Int32) (k : Nat) : Prop :=
  -2 ^ 31 ≤ start.toInt + asI32 k ∧ start.toInt + asI32 k < 2 ^ 31

def byteAt (cy cx : Nat) : Nat :=
  (y.toInt + asI32 cy).toNat * dstStride.toNat + (x.toInt + asI32 cx).toNat * 4

def drawPixel (dst : List UInt8) (pixel : Nat × Nat) : List UInt8 :=
  if Shown y dstHeight pixel.1 ∧ Shown x dstWidth pixel.2 ∧
      byteAt x y dstStride pixel.1 pixel.2 + 3 < dst.length then
    paint (shape.rule pixel.1 pixel.2) dst (byteAt x y dstStride pixel.1 pixel.2)
  else dst

def PixelFits (len cy cx : Nat) : Prop :=
  byteAt x y dstStride cy cx < 2 ^ 32 ∧
    (byteAt x y dstStride cy cx + 3 < len → shape.reached cy cx)

theorem drawPixel_length (dst : List UInt8) (pixel : Nat × Nat) :
    (drawPixel shape x y dstWidth dstHeight dstStride dst pixel).length = dst.length := by
  unfold drawPixel
  split
  · exact paint_length _ dst _
  · rfl

theorem addI32_bind {start : Int32} {k : Nat} {rest : Int → Option (List UInt8)}
    {next : List UInt8} : (addI32 start.toInt (asI32 k)).bind rest = some next ↔
      Sums start k ∧ rest (start.toInt + asI32 k) = some next := by
  unfold addI32 Sums
  split
  · rename_i fits
    exact ⟨fun run => ⟨fits, run⟩, fun run => run.2⟩
  · rename_i wide
    refine ⟨?_, fun run => absurd run.1 wide⟩
    intro run
    cases run

theorem hidden_iff (start : Int32) (limit : UInt32) (k : Nat) :
    (start.toInt + asI32 k < 0 ∨ limit.toNat ≤ (start.toInt + asI32 k).toNat) ↔
      ¬Shown start limit k := by
  unfold Shown
  omega

theorem blendColumn_iff {cy : Nat} (row : Shown y dstHeight cy) (dst : List UInt8) (cx : Nat)
    (next : List UInt8) :
    blendColumn shape x (y.toInt + asI32 cy) cy dstWidth dstStride dst cx = some next ↔
      (Sums x cx ∧ (Shown x dstWidth cx → PixelFits shape x y dstStride dst.length cy cx)) ∧
        drawPixel shape x y dstWidth dstHeight dstStride dst (cy, cx) = next := by
  unfold blendColumn
  rw [Option.bind_eq_bind, addI32_bind, and_assoc]
  refine and_congr_right (fun _ => ?_)
  by_cases column : Shown x dstWidth cx
  · rw [if_neg (fun hidden => (hidden_iff x dstWidth cx).mp hidden column)]
    have here : (y.toInt + asI32 cy).toNat * dstStride.toNat + (x.toInt + asI32 cx).toNat * 4 =
        byteAt x y dstStride cy cx := rfl
    rw [Option.bind_eq_bind, place_bind, here, PixelFits]
    by_cases inside : byteAt x y dstStride cy cx + 3 < dst.length
    · rw [if_neg (by omega), blendPixel_iff shape inside, drawPixel,
        if_pos ⟨row, column, inside⟩]
      simp [column, inside, and_assoc]
    · rw [if_pos (by omega), drawPixel, if_neg (fun shown => inside shown.2.2)]
      simp [column, inside]
  · rw [if_pos ((hidden_iff x dstWidth cx).mpr column), drawPixel,
      if_neg (fun shown => column shown.2.1)]
    simp [column]

def RowFits (len cy : Nat) : Prop :=
  Sums y cy ∧ (Shown y dstHeight cy → ∀ cx ∈ List.range shape.width.toNat,
    Sums x cx ∧ (Shown x dstWidth cx → PixelFits shape x y dstStride len cy cx))

def drawRow (dst : List UInt8) (cy : Nat) : List UInt8 :=
  (List.range shape.width.toNat).foldl
    (fun dst cx => drawPixel shape x y dstWidth dstHeight dstStride dst (cy, cx)) dst

theorem drawRow_length (dst : List UInt8) (cy : Nat) :
    (drawRow shape x y dstWidth dstHeight dstStride dst cy).length = dst.length := by
  unfold drawRow
  generalize List.range shape.width.toNat = columns
  induction columns generalizing dst with
  | nil => rfl
  | cons cx columns ih => exact (ih _).trans (drawPixel_length shape x y _ _ _ dst (cy, cx))

theorem drawRow_hidden {cy : Nat} (hidden : ¬Shown y dstHeight cy) (dst : List UInt8) :
    drawRow shape x y dstWidth dstHeight dstStride dst cy = dst := by
  unfold drawRow
  generalize List.range shape.width.toNat = columns
  induction columns generalizing dst with
  | nil => rfl
  | cons cx columns ih =>
      rw [List.foldl_cons, drawPixel, if_neg (fun shown => hidden shown.1)]
      exact ih dst

theorem blendRow_iff (dst : List UInt8) (cy : Nat) (next : List UInt8) :
    blendRow shape x y dstWidth dstHeight dstStride dst cy = some next ↔
      RowFits shape x y dstWidth dstHeight dstStride dst.length cy ∧
        drawRow shape x y dstWidth dstHeight dstStride dst cy = next := by
  unfold blendRow
  rw [Option.bind_eq_bind, addI32_bind, RowFits, and_assoc]
  refine and_congr_right (fun _ => ?_)
  by_cases row : Shown y dstHeight cy
  · rw [if_neg (fun hidden => (hidden_iff y dstHeight cy).mp hidden row),
      foldlM_iff _ (fun dst cx => drawPixel shape x y dstWidth dstHeight dstStride dst (cy, cx))
        (fun cx => Sums x cx ∧
          (Shown x dstWidth cx → PixelFits shape x y dstStride dst.length cy cx))
        (fun cells => cells.length = dst.length) ?_ ?_ _ dst rfl next]
    · simp only [row, true_implies]
      rfl
    · intro cells sized cx after
      rw [← sized]
      exact blendColumn_iff shape x y dstWidth dstHeight dstStride row cells cx after
    · intro cells cx sized
      exact (drawPixel_length shape x y _ _ _ cells (cy, cx)).trans sized
  · rw [if_pos ((hidden_iff y dstHeight cy).mpr row), drawRow_hidden _ _ _ _ _ _ row]
    simp [row]

theorem blend_iff (dst : List UInt8) (out : List UInt8) :
    blend shape x y dst dstWidth dstHeight dstStride = some out ↔
      (∀ cy ∈ List.range shape.drawnHeight.toNat,
        RowFits shape x y dstWidth dstHeight dstStride dst.length cy) ∧
      (List.range shape.drawnHeight.toNat ×ˢ List.range shape.width.toNat).foldl
        (drawPixel shape x y dstWidth dstHeight dstStride) dst = out := by
  have flat : (List.range shape.drawnHeight.toNat ×ˢ List.range shape.width.toNat).foldl
      (drawPixel shape x y dstWidth dstHeight dstStride) dst =
        (List.range shape.drawnHeight.toNat).foldl
          (drawRow shape x y dstWidth dstHeight dstStride) dst := by
    change List.foldl _ _ (List.flatMap _ _) = _
    rw [List.foldl_flatMap]
    simp only [List.foldl_map]
    rfl
  rw [flat]
  refine foldlM_iff _ _ _ (fun cells => cells.length = dst.length) ?_ ?_ _ dst rfl out
  · intro cells sized cy next
    rw [← sized]
    exact blendRow_iff shape x y dstWidth dstHeight dstStride cells cy next
  · intro cells cy sized
    exact (drawRow_length shape x y _ _ _ cells cy).trans sized

end Loops

section Positions

/-- None of the loop's sums from `start` overflows; from zero none can. -/
def Spans (start : Int32) (n : UInt32) : Prop :=
  start.toInt = 0 ∨ (n.toNat ≤ 2 ^ 31 ∧ start.toInt + n.toNat ≤ 2 ^ 31)

def Seen (start : Int32) (limit : UInt32) (k : Nat) : Prop :=
  0 ≤ start.toInt + k ∧ start.toInt + k < limit.toNat

theorem asI32_small {k : Nat} (small : k < 2 ^ 31) : asI32 k = k := if_pos small

theorem asI32_large {k : Nat} (large : 2 ^ 31 ≤ k) : asI32 k = k - 2 ^ 32 :=
  if_neg (Nat.not_lt.mpr large)

theorem asI32_inj {j k : Nat} (left : j < 2 ^ 32) (right : k < 2 ^ 32)
    (same : asI32 j = asI32 k) : j = k := by
  unfold asI32 at same
  split at same <;> split at same <;> omega

theorem sums_iff (start : Int32) (n : UInt32) :
    (∀ k ∈ List.range n.toNat, Sums start k) ↔ Spans start n := by
  have below := start.toInt_lt
  have above := start.le_toInt
  have size := n.toNat_lt
  unfold Spans Sums
  constructor
  · intro sums
    rcases Int.lt_trichotomy start.toInt 0 with negative | zero | positive
    · right
      have short : n.toNat ≤ 2 ^ 31 := by
        refine Nat.le_of_not_lt (fun long => ?_)
        have last := (sums (2 ^ 31) (List.mem_range.mpr long)).1
        rw [asI32_large (Nat.le_refl _)] at last
        omega
      omega
    · exact .inl zero
    · right
      have short : start.toInt + n.toNat ≤ 2 ^ 31 := by
        refine Int.le_of_not_gt (fun long => ?_)
        have last := (sums (2 ^ 31 - start.toInt.toNat) (List.mem_range.mpr (by omega))).2
        rw [asI32_small (by omega)] at last
        omega
      omega
  · rintro spans k member
    have inside := List.mem_range.mp member
    rcases Nat.lt_or_ge k (2 ^ 31) with small | large
    · rw [asI32_small small]
      omega
    · rw [asI32_large large]
      omega

theorem shown_position {start : Int32} {n limit : UInt32} (spans : Spans start n) {k : Nat}
    (inside : k < n.toNat) (shown : Shown start limit k) : asI32 k = k := by
  have size := n.toNat_lt
  rcases Nat.lt_or_ge k (2 ^ 31) with small | large
  · exact asI32_small small
  · have negative := shown.1
    rw [asI32_large large] at negative
    unfold Spans at spans
    omega

theorem seen_position {start : Int32} {n : UInt32} (spans : Spans start n) {k : Nat}
    (inside : k < n.toNat) : asI32 k = k ∨ (start.toInt = 0 ∧ 2 ^ 31 ≤ k) := by
  rcases Nat.lt_or_ge k (2 ^ 31) with small | large
  · exact .inl (asI32_small small)
  · right
    unfold Spans at spans
    omega

theorem place_inj {width stride py px py' px' c c' : Nat} (wide : 4 * width ≤ stride)
    (column : px < width) (column' : px' < width) (byte : c < 4) (byte' : c' < 4)
    (same : py * stride + px * 4 + c = py' * stride + px' * 4 + c') :
    py = py' ∧ px = px' ∧ c = c' := by
  have row : ∀ q p b, p < width → b < 4 → (q * stride + p * 4 + b) / stride = q := by
    intro q p b column byte
    rw [Nat.add_assoc, Nat.mul_comm, Nat.mul_add_div (by omega), Nat.div_eq_of_lt (by omega),
      Nat.add_zero]
  have rows : (py * stride + px * 4 + c) / stride = (py' * stride + px' * 4 + c') / stride := by
    rw [same]
  rw [row py px c column byte, row py' px' c' column' byte'] at rows
  subst rows
  omega

end Positions

section Confinement

variable (shape : CursorShape) (x y : Int32) (dstWidth dstHeight dstStride : UInt32)

def spot (cy cx : Nat) : Nat :=
  (y.toInt + cy).toNat * dstStride.toNat + (x.toInt + cx).toNat * 4

/-- The pixel of the shape lies in the frame, and its bytes in the buffer. -/
structure Covers (len cy cx : Nat) : Prop where
  row : cy < shape.drawnHeight.toNat
  column : cx < shape.width.toNat
  down : Seen y dstHeight cy
  across : Seen x dstWidth cx
  inside : spot x y dstStride cy cx + 3 < len

/-- What the arithmetic of the drawing needs: the rows' sums, the columns' where a row is in the
frame, the place of each pixel that is in the frame, and of its data where it is drawn. -/
structure Fits (len : Nat) : Prop where
  rows : Spans y shape.drawnHeight
  columns : (∃ cy < shape.drawnHeight.toNat, Seen y dstHeight cy) → Spans x shape.width
  places : ∀ cy < shape.drawnHeight.toNat, ∀ cx < shape.width.toNat, Seen y dstHeight cy →
    Seen x dstWidth cx → spot x y dstStride cy cx < 2 ^ 32
  data : ∀ cy cx, Covers shape x y dstWidth dstHeight dstStride len cy cx → shape.reached cy cx

/-- The frame afterwards: each byte of a colour that the shape covers is what its rule says, every
other byte is what it was, and so is all alpha. -/
structure Confined (dst out : List UInt8) : Prop where
  length : out.length = dst.length
  drawn : ∀ cy cx, Covers shape x y dstWidth dstHeight dstStride dst.length cy cx → ∀ c < 3,
    out[spot x y dstStride cy cx + c]? =
      dst[spot x y dstStride cy cx + c]?.map (shape.rule cy cx c)
  kept : ∀ k, (∀ cy cx, Covers shape x y dstWidth dstHeight dstStride dst.length cy cx →
    ∀ c < 3, k ≠ spot x y dstStride cy cx + c) → out[k]? = dst[k]?
  alpha : ∀ py < dstHeight.toNat, ∀ px < dstWidth.toNat,
    out[py * dstStride.toNat + px * 4 + 3]? = dst[py * dstStride.toNat + px * 4 + 3]?

variable {shape x y dstWidth dstHeight dstStride}

theorem byteAt_spot {cy cx : Nat} (row : asI32 cy = cy) (column : asI32 cx = cx) :
    byteAt x y dstStride cy cx = spot x y dstStride cy cx := by
  rw [byteAt, spot, row, column]

theorem shown_iff {start : Int32} {limit : UInt32} {k : Nat} (position : asI32 k = k) :
    Shown start limit k ↔ Seen start limit k := by
  rw [Shown, Seen, position]

theorem shown_row (spans : Spans y shape.drawnHeight) {cy : Nat}
    (row : cy < shape.drawnHeight.toNat) (down : Seen y dstHeight cy) :
    ∃ r < shape.drawnHeight.toNat, Shown y dstHeight r := by
  rcases seen_position spans row with position | ⟨zero, large⟩
  · exact ⟨cy, row, (shown_iff position).mpr down⟩
  · refine ⟨0, by omega, (shown_iff rfl).mpr ?_⟩
    unfold Seen at down ⊢
    omega

theorem column_position (wide : 4 * dstWidth.toNat ≤ dstStride.toNat)
    (spans : Spans x shape.width) {cx : Nat} (column : cx < shape.width.toNat)
    (across : Seen x dstWidth cx) : asI32 cx = cx := by
  have size := dstStride.toNat_lt
  rcases seen_position spans column with position | ⟨zero, large⟩
  · exact position
  · unfold Seen at across
    omega

theorem row_position (wide : 4 * dstWidth.toNat ≤ dstStride.toNat)
    (spans : Spans y shape.drawnHeight) {cy cx : Nat} (row : cy < shape.drawnHeight.toNat)
    (down : Seen y dstHeight cy) (across : Seen x dstWidth cx)
    (places : ∀ r < shape.drawnHeight.toNat, r < 2 ^ 31 → Seen y dstHeight r →
      spot x y dstStride r cx < 2 ^ 32) : asI32 cy = cy := by
  rcases seen_position spans row with position | ⟨zero, large⟩
  · exact position
  · have middle : Seen y dstHeight (2 ^ 30) := by
      unfold Seen at down ⊢
      omega
    have far := places (2 ^ 30) (by omega) (by decide) middle
    have four : 4 ≤ dstStride.toNat := by
      unfold Seen at across
      omega
    have row : (y.toInt + (2 ^ 30 : Nat)).toNat = 2 ^ 30 := by omega
    have long : 2 ^ 30 * 4 ≤ 2 ^ 30 * dstStride.toNat := Nat.mul_le_mul_left _ four
    rw [spot, row] at far
    omega

/-- The drawing returns exactly where its arithmetic fits. -/
theorem rows_fit_iff (wide : 4 * dstWidth.toNat ≤ dstStride.toNat) (len : Nat) :
    (∀ cy ∈ List.range shape.drawnHeight.toNat,
      RowFits shape x y dstWidth dstHeight dstStride len cy) ↔
        Fits shape x y dstWidth dstHeight dstStride len := by
  constructor
  · intro fits
    have rows := (sums_iff y shape.drawnHeight).mp (fun cy member => (fits cy member).1)
    have columns : (∃ cy < shape.drawnHeight.toNat, Seen y dstHeight cy) → Spans x shape.width := by
      rintro ⟨cy, row, down⟩
      obtain ⟨r, inside, shown⟩ := shown_row rows row down
      exact (sums_iff x shape.width).mp
        (fun cx member => ((fits r (List.mem_range.mpr inside)).2 shown cx member).1)
    have pixel : ∀ cy < shape.drawnHeight.toNat, ∀ cx < shape.width.toNat, asI32 cy = cy →
        Seen y dstHeight cy → Seen x dstWidth cx → spot x y dstStride cy cx < 2 ^ 32 ∧
          (spot x y dstStride cy cx + 3 < len → shape.reached cy cx) := by
      intro cy row cx column position down across
      have placed := column_position wide (columns ⟨cy, row, down⟩) column across
      have both := ((fits cy (List.mem_range.mpr row)).2 ((shown_iff position).mpr down) cx
        (List.mem_range.mpr column)).2 ((shown_iff placed).mpr across)
      rwa [PixelFits, byteAt_spot position placed] at both
    have position : ∀ cy < shape.drawnHeight.toNat, ∀ cx < shape.width.toNat,
        Seen y dstHeight cy → Seen x dstWidth cx → asI32 cy = cy := by
      intro cy row cx column down across
      refine row_position wide rows row down across (fun r inside small seen => ?_)
      exact (pixel r inside cx column (asI32_small small) seen across).1
    refine ⟨rows, columns, ?_, ?_⟩
    · intro cy row cx column down across
      exact (pixel cy row cx column (position cy row cx column down across) down across).1
    · intro cy cx covers
      have placed := position cy covers.row cx covers.column covers.down covers.across
      exact (pixel cy covers.row cx covers.column placed covers.down covers.across).2 covers.inside
  · intro fits cy member
    have row := List.mem_range.mp member
    refine ⟨(sums_iff y shape.drawnHeight).mpr fits.rows cy member, fun shown cx inside => ?_⟩
    have position := shown_position fits.rows row shown
    have down := (shown_iff position).mp shown
    have columns := fits.columns ⟨cy, row, down⟩
    refine ⟨(sums_iff x shape.width).mpr columns cx inside, fun seen => ?_⟩
    have column := List.mem_range.mp inside
    have placed := shown_position columns column seen
    have across := (shown_iff placed).mp seen
    rw [PixelFits, byteAt_spot position placed]
    exact ⟨fits.places cy row cx column down across,
      fun drawn => fits.data cy cx ⟨row, column, down, across, drawn⟩⟩

def Touches (x y : Int32) (dstWidth dstHeight dstStride : UInt32) (len : Nat)
    (pixel : Nat × Nat) (k : Nat) : Prop :=
  (Shown y dstHeight pixel.1 ∧ Shown x dstWidth pixel.2 ∧
      byteAt x y dstStride pixel.1 pixel.2 + 3 < len) ∧
    ∃ c < 3, k = byteAt x y dstStride pixel.1 pixel.2 + c

theorem drawPixel_touching (len : Nat) :
    Touching (drawPixel shape x y dstWidth dstHeight dstStride)
      (Touches x y dstWidth dstHeight dstStride len)
      (fun pixel k => shape.rule pixel.1 pixel.2 (k - byteAt x y dstStride pixel.1 pixel.2))
      len where
  length cells pixel sized := (drawPixel_length shape x y _ _ _ cells pixel).trans sized
  touched cells pixel k sized touch := by
    obtain ⟨shown, c, small, rfl⟩ := touch
    rw [drawPixel, if_pos (sized ▸ shown), paint_touched _ cells _ small,
      Nat.add_sub_cancel_left]
  apart cells pixel k sized apart := by
    unfold drawPixel
    split
    · rename_i shown
      refine paint_apart _ cells _ k (fun c small same => ?_)
      exact apart ⟨sized ▸ shown, c, small, same⟩
    · rfl

theorem touches_inj (wide : 4 * dstWidth.toNat ≤ dstStride.toNat) {len k : Nat}
    {first second : Nat × Nat}
    (inside : first ∈ List.range shape.drawnHeight.toNat ×ˢ List.range shape.width.toNat)
    (inside' : second ∈ List.range shape.drawnHeight.toNat ×ˢ List.range shape.width.toNat)
    (touch : Touches x y dstWidth dstHeight dstStride len first k)
    (touch' : Touches x y dstWidth dstHeight dstStride len second k) : second = first := by
  have heights := shape.drawnHeight.toNat_lt
  have widths := shape.width.toNat_lt
  obtain ⟨rows, columns⟩ := List.mem_product.mp inside
  obtain ⟨rows', columns'⟩ := List.mem_product.mp inside'
  obtain ⟨⟨down, across, _⟩, c, small, rfl⟩ := touch
  obtain ⟨⟨down', across', _⟩, c', small', same⟩ := touch'
  rw [List.mem_range] at rows rows' columns columns'
  unfold Shown at down down' across across'
  obtain ⟨row, column, _⟩ := place_inj wide (by omega) (by omega) (Nat.lt_succ_of_lt small)
    (Nat.lt_succ_of_lt small') same
  exact Prod.ext (asI32_inj (by omega) (by omega) (by omega))
    (asI32_inj (by omega) (by omega) (by omega))

/-- What the drawing leaves is confined to what the shape covers. -/
theorem drawn_confined (wide : 4 * dstWidth.toNat ≤ dstStride.toNat) (dst : List UInt8)
    (fits : Fits shape x y dstWidth dstHeight dstStride dst.length) :
    Confined shape x y dstWidth dstHeight dstStride dst
      ((List.range shape.drawnHeight.toNat ×ˢ List.range shape.width.toNat).foldl
        (drawPixel shape x y dstWidth dstHeight dstStride) dst) := by
  have touching : Touching (drawPixel shape x y dstWidth dstHeight dstStride)
      (Touches x y dstWidth dstHeight dstStride dst.length) _ dst.length :=
    drawPixel_touching dst.length
  have nodup : (List.range shape.drawnHeight.toNat ×ˢ List.range shape.width.toNat).Nodup :=
    List.Nodup.product List.nodup_range List.nodup_range
  -- what the loop shows is covered, at the place where it belongs
  have covered : ∀ pixel ∈ List.range shape.drawnHeight.toNat ×ˢ List.range shape.width.toNat,
      ∀ k, Touches x y dstWidth dstHeight dstStride dst.length pixel k →
        Covers shape x y dstWidth dstHeight dstStride dst.length pixel.1 pixel.2 ∧
          byteAt x y dstStride pixel.1 pixel.2 = spot x y dstStride pixel.1 pixel.2 := by
    rintro ⟨cy, cx⟩ member k ⟨⟨down, across, inside⟩, _⟩
    obtain ⟨row, column⟩ := List.mem_product.mp member
    rw [List.mem_range] at row column
    have position := shown_position fits.rows row down
    have seen := (shown_iff position).mp down
    have placed := shown_position (fits.columns ⟨cy, row, seen⟩) column across
    have same : byteAt x y dstStride cy cx = spot x y dstStride cy cx :=
      byteAt_spot position placed
    exact ⟨⟨row, column, seen, (shown_iff placed).mp across, same ▸ inside⟩, same⟩
  refine ⟨touching.foldl_length _ dst rfl, ?_, ?_, ?_⟩
  · intro cy cx covers c small
    have placed := column_position wide (fits.columns ⟨cy, covers.row, covers.down⟩)
      covers.column covers.across
    have position := row_position wide fits.rows covers.row covers.down covers.across
      (fun r inside _ seen => fits.places r inside cx covers.column seen covers.across)
    have same : byteAt x y dstStride cy cx = spot x y dstStride cy cx :=
      byteAt_spot position placed
    have member : (cy, cx) ∈
        List.range shape.drawnHeight.toNat ×ˢ List.range shape.width.toNat :=
      List.mem_product.mpr ⟨List.mem_range.mpr covers.row, List.mem_range.mpr covers.column⟩
    have touch : Touches x y dstWidth dstHeight dstStride dst.length (cy, cx)
        (spot x y dstStride cy cx + c) :=
      ⟨⟨(shown_iff position).mpr covers.down, (shown_iff placed).mpr covers.across,
        same.symm ▸ covers.inside⟩, c, small, by rw [same]⟩
    have changed := touching.foldl_touched _ nodup dst rfl _ member touch
      (fun other inside again => touches_inj wide member inside touch again)
    rwa [same, Nat.add_sub_cancel_left] at changed
  · intro k apart
    refine touching.foldl_apart _ dst rfl k (fun pixel member touch => ?_)
    obtain ⟨covers, same⟩ := covered pixel member k touch
    obtain ⟨_, c, small, place⟩ := touch
    exact apart pixel.1 pixel.2 covers c small (place.trans (by rw [same]))
  · intro py down px across
    refine touching.foldl_apart _ dst rfl _ (fun pixel member touch => ?_)
    obtain ⟨⟨_, shown, _⟩, c, small, place⟩ := touch
    unfold Shown at shown
    obtain ⟨_, _, byte⟩ := place_inj wide across (by omega) (by decide) (Nat.lt_succ_of_lt small)
      place
    omega

/-- The drawing neither panics nor leaves the pixels that the shape covers, exactly where its
arithmetic fits. -/
theorem blend_confined_iff (wide : 4 * dstWidth.toNat ≤ dstStride.toNat) (dst : List UInt8) :
    (∃ out, blend shape x y dst dstWidth dstHeight dstStride = some out ∧
      Confined shape x y dstWidth dstHeight dstStride dst out) ↔
        Fits shape x y dstWidth dstHeight dstStride dst.length := by
  constructor
  · rintro ⟨out, drawn, _⟩
    exact (rows_fit_iff wide dst.length).mp ((blend_iff shape x y _ _ _ dst out).mp drawn).1
  · intro fits
    exact ⟨_, (blend_iff shape x y _ _ _ dst _).mpr ⟨(rows_fit_iff wide dst.length).mpr fits, rfl⟩,
      drawn_confined wide dst fits⟩

def twoRedPixels : CursorShape := ⟨.color, 1, 2, 4, [0, 0, 255, 255, 0, 0, 255, 255]⟩

/-- At the last row that there is, the second row of the shape overflows. -/
theorem blend_overflows : ¬∃ out, blend twoRedPixels 0 2147483647 [0, 0, 0, 255] 1 1 4 = some out ∧
    Confined twoRedPixels 0 2147483647 1 1 4 [0, 0, 0, 255] out := by
  rintro ⟨out, drawn, _⟩
  have panics : blend twoRedPixels 0 2147483647 [0, 0, 0, 255] 1 1 4 = none := by decide
  rw [panics] at drawn
  exact nomatch drawn

theorem blend_confined_corner : ∃ out, blend twoRedPixels 0 0 [0, 0, 0, 255] 1 1 4 = some out ∧
    Confined twoRedPixels 0 0 1 1 4 [0, 0, 0, 255] out := by
  refine (blend_confined_iff (by decide) _).mpr ⟨.inl rfl, fun _ => .inl rfl, ?_, ?_⟩
  · intro cy row cx column down across
    have below : cy < 2 := row
    have left : cx < 1 := column
    have first : spot 0 0 4 cy cx = cy * 4 + cx * 4 := by
      change ((0 : Int) + cy).toNat * 4 + ((0 : Int) + cx).toNat * 4 = _
      omega
    omega
  · intro cy cx covers
    have below : cy < 2 := covers.row
    have left : cx < 1 := covers.column
    change cy * 4 + cx * 4 < 2 ^ 32
    omega

end Confinement

end Castr.Capture
