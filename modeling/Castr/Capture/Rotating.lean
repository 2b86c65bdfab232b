import Mathlib.Data.List.Nodup
import Castr.Sender.Scaling
import Castr.V4l2.Decoder

/-! A desktop on a monitor that stands on its side or on its head, and the picture of it that is
cast: the pixels are copied one by one to where they belong, then the whole is fitted to the size
that was negotiated. Reads and writes are checked, and so is the arithmetic; `none` is a panic. -/

namespace Castr.Capture

open Castr.Lib.Checked (mul32)
open Castr.Lib.Filling Castr.Lib.Rows Castr.Lib.Slices
open Castr.Sender (Holds fitBgraLetterbox letterbox letterboxed pixelAt scaled_below)
open Castr.V4l2 (RawFrame)

inductive Rotation where
  | unspecified
  | identity
  | rotate90
  | rotate180
  | rotate270
  deriving DecidableEq, Repr

namespace Rotation

def sideways : Rotation → Bool
  | .rotate90 => true
  | .rotate270 => true
  | _ => false

def size {Side : Type} (rotation : Rotation) (width height : Side) : Side × Side :=
  if rotation.sideways then (height, width) else (width, height)

/-- The column and the row that a pixel at a column and a row goes to. -/
def place (rotation : Rotation) (width height x y : Nat) : Nat × Nat :=
  match rotation with
  | .rotate90 => (height - 1 - y, x)
  | .rotate180 => (width - 1 - x, height - 1 - y)
  | .rotate270 => (y, width - 1 - x)
  | _ => (x, y)

def opposite : Rotation → Rotation
  | .rotate90 => .rotate270
  | .rotate270 => .rotate90
  | rotation => rotation

end Rotation

/-- A number that an unsigned word of 32 bits holds. -/
def fit32 (n : Nat) : Option Nat := if n < 2 ^ 32 then some n else none

def rotateTurn (src : List UInt8) (width height stride outWidth : Nat) (rotation : Rotation)
    (out : List UInt8) (y x : Nat) : Option (List UInt8) := do
  let (ox, oy) := rotation.place width height x y
  let above ← fit32 (y * stride)
  let along ← fit32 (x * 4)
  let origin ← fit32 (above + along)
  let before ← fit32 (oy * outWidth)
  let pixels ← fit32 (before + ox)
  let target ← fit32 (pixels * 4)
  let pixel ← between src origin (origin + 4)
  copyInto out target (target + 4) pixel

def rotateBgra (src : List UInt8) (width height stride : UInt32) (rotation : Rotation) :
    Option (List UInt8 × UInt32 × UInt32) := do
  let (outWidth, outHeight) := rotation.size width height
  let area ← mul32 outWidth outHeight
  let bytes ← mul32 area 4
  let out ← eachCell (List.range height.toNat) (List.range width.toNat)
    (rotateTurn src width.toNat height.toNat stride.toNat outWidth.toNat rotation)
    (List.replicate bytes.toNat 0)
  some (out, outWidth, outHeight)

namespace Rotation

variable {width height x y : Nat}

theorem place_inside (rotation : Rotation) (right : x < width) (down : y < height) :
    (rotation.place width height x y).1 < (rotation.size width height).1 ∧
      (rotation.place width height x y).2 < (rotation.size width height).2 := by
  cases rotation <;> simp [place, size, sideways] <;> omega

theorem place_back (rotation : Rotation) (right : x < width) (down : y < height) :
    rotation.opposite.place (rotation.size width height).1 (rotation.size width height).2
      (rotation.place width height x y).1 (rotation.place width height x y).2 = (x, y) := by
  cases rotation <;> simp [place, size, sideways, opposite] <;> omega

theorem size_opposite {Side : Type} (rotation : Rotation) (width height : Side) :
    rotation.opposite.size (rotation.size width height).1 (rotation.size width height).2 =
      (width, height) := by
  cases rotation <;> rfl

theorem opposite_opposite (rotation : Rotation) : rotation.opposite.opposite = rotation := by
  cases rotation <;> rfl

end Rotation

theorem size_toNat (rotation : Rotation) (width height : UInt32) :
    ((rotation.size width height).1.toNat, (rotation.size width height).2.toNat) =
      rotation.size width.toNat height.toNat := by
  cases rotation <;> rfl

theorem size_area (rotation : Rotation) (width height : Nat) :
    (rotation.size width height).1 * (rotation.size width height).2 = width * height := by
  cases rotation <;> first | rfl | exact Nat.mul_comm height width

variable {src : List UInt8} {width height stride : UInt32}

def target (rotation : Rotation) (width height : Nat) (cell : Nat × Nat) : Nat :=
  (rotation.place width height cell.2 cell.1).2 * (rotation.size width height).1 +
    (rotation.place width height cell.2 cell.1).1

theorem target_inj (rotation : Rotation) {w h : Nat} {cell other : Nat × Nat}
    (down : cell.1 < h) (right : cell.2 < w) (down' : other.1 < h) (right' : other.2 < w)
    (same : target rotation w h cell = target rotation w h other) : cell = other := by
  obtain ⟨across, -⟩ := rotation.place_inside right down
  obtain ⟨across', -⟩ := rotation.place_inside right' down'
  have back := rotation.place_back right down
  have back' := rotation.place_back right' down'
  unfold target at same
  generalize rotation.place w h cell.2 cell.1 = place at across back same
  generalize rotation.place w h other.2 other.1 = place' at across' back' same
  generalize (rotation.size w h).1 = outW at across across' same back back'
  have columns : place.1 = place'.1 := by
    have rests := congrArg (· % outW) same
    rwa [Nat.mul_add_mod_of_lt across, Nat.mul_add_mod_of_lt across'] at rests
  have rows : place.2 = place'.2 := by
    rw [columns] at same
    exact Nat.eq_of_mul_eq_mul_right (Nat.zero_lt_of_lt across) (Nat.add_right_cancel same)
  have places : place = place' := Prod.ext columns rows
  rw [places] at back
  have turned := back.symm.trans back'
  exact Prod.ext (congrArg Prod.snd turned) (congrArg Prod.fst turned)

theorem target_below (rotation : Rotation) {w h : Nat} {cell : Nat × Nat} (down : cell.1 < h)
    (right : cell.2 < w) : target rotation w h cell < w * h := by
  obtain ⟨across, under⟩ := rotation.place_inside right down
  have rows := Nat.mul_le_mul_right (rotation.size w h).1 (Nat.succ_le_of_lt under)
  rw [Nat.succ_mul, Nat.mul_comm (rotation.size w h).2, size_area] at rows
  unfold target
  omega

theorem fit32_eq {n : Nat} (small : n < 2 ^ 32) : fit32 n = some n := if_pos small

theorem pixels_le (holds : Holds src width height stride) :
    width.toNat * height.toNat * 4 ≤ src.length := by
  obtain ⟨columns, rows, room, data⟩ := holds
  obtain ⟨above, same⟩ := Nat.exists_eq_succ_of_ne_zero (Nat.pos_iff_ne_zero.mp rows)
  rw [same] at data ⊢
  have wide := Nat.mul_le_mul_left above room
  calc width.toNat * (above + 1) * 4 = above * (4 * width.toNat) + 4 * width.toNat := by
        rw [Nat.mul_right_comm, Nat.mul_succ, Nat.mul_comm width.toNat 4, Nat.mul_comm above]
    _ ≤ above * stride.toNat + 4 * width.toNat := Nat.add_le_add_right wide _
    _ ≤ src.length := data

theorem rotateTurn_eq (rotation : Rotation) (holds : Holds src width height stride)
    (small : src.length < 2 ^ 32) {cell : Nat × Nat} (down : cell.1 < height.toNat)
    (right : cell.2 < width.toNat) (out : List UInt8) :
    rotateTurn src width.toNat height.toNat stride.toNat
        (rotation.size width.toNat height.toNat).1 rotation out cell.1 cell.2 =
      copyInto out (target rotation width.toNat height.toNat cell * 4)
        (target rotation width.toNat height.toNat cell * 4 + 4)
        (pixelAt src stride.toNat cell.1 cell.2) := by
  have inside := holds.inside down right
  have below := target_below rotation down right
  have area := pixels_le holds
  unfold target at below ⊢
  unfold rotateTurn
  generalize rotation.place width.toNat height.toNat cell.2 cell.1 = place at below ⊢
  obtain ⟨ox, oy⟩ := place
  dsimp only at below ⊢
  simp (disch := omega) only [fit32_eq, Option.bind_eq_bind, Option.bind_some]
  rw [between_eq (Nat.le_add_right _ _) inside, Nat.add_sub_cancel_left]
  rfl

theorem grid_nodup (rows columns : Nat) : (grid (List.range rows) (List.range columns)).Nodup :=
  List.Nodup.product List.nodup_range List.nodup_range

/-- The pixels stand where they belong, and the result is a picture as the source was. -/
theorem rotated (rotation : Rotation) (holds : Holds src width height stride)
    (small : src.length < 2 ^ 32) :
    ∃ out, rotateBgra src width height stride rotation =
        some (out, (rotation.size width height).1, (rotation.size width height).2) ∧
      out.length = width.toNat * height.toNat * 4 ∧
      ∀ y < height.toNat, ∀ x < width.toNat,
        piece out 4 (target rotation width.toNat height.toNat (y, x)) =
          pixelAt src stride.toNat y x := by
  have area := pixels_le holds
  let cells := grid (List.range height.toNat) (List.range width.toNat)
  have within {cell : Nat × Nat} (member : cell ∈ cells) :
      cell.1 < height.toNat ∧ cell.2 < width.toNat := by
    obtain ⟨down, right⟩ := mem_grid.mp member
    exact ⟨List.mem_range.mp down, List.mem_range.mp right⟩
  obtain ⟨out, copied, length, shown, -⟩ := copyPieces_spec 4
    (target rotation width.toNat height.toNat) (fun cell => pixelAt src stride.toNat cell.1 cell.2)
    cells (List.replicate (width.toNat * height.toNat * 4) 0)
    (List.Nodup.map_on (fun cell member other member' => target_inj
      rotation (within member).1 (within member).2 (within member').1 (within member').2)
      (grid_nodup _ _))
    (fun cell member => holds.pixel (within member).1 (within member).2)
    (fun cell member => by
      have below := target_below rotation (within member).1 (within member).2
      rw [List.length_replicate]
      omega)
  rw [List.length_replicate] at length
  refine ⟨out, ?_, length, fun y down x right => shown (y, x)
    (mem_grid.mpr ⟨List.mem_range.mpr down, List.mem_range.mpr right⟩)⟩
  have wide : (rotation.size width height).1.toNat * (rotation.size width height).2.toNat =
      width.toNat * height.toNat := by
    rw [← size_area rotation width.toNat height.toNat, ← size_toNat]
  have product : ((rotation.size width height).1 * (rotation.size width height).2).toNat =
      width.toNat * height.toNat := by
    rw [UInt32.toNat_mul, wide]
    exact Nat.mod_eq_of_lt (by omega)
  have bytes : ((rotation.size width height).1 * (rotation.size width height).2 * 4).toNat =
      width.toNat * height.toNat * 4 := by
    rw [UInt32.toNat_mul, product]
    exact Nat.mod_eq_of_lt (show width.toNat * height.toNat * 4 < 2 ^ 32 by omega)
  have side : (rotation.size width height).1.toNat =
      (rotation.size width.toNat height.toNat).1 := congrArg Prod.fst (size_toNat _ _ _)
  rw [rotateBgra]
  dsimp only
  rw [mul32, if_pos (by omega), Option.bind_eq_bind, Option.bind_some, mul32,
    if_pos (by rw [product]; show width.toNat * height.toNat * 4 < 2 ^ 32; omega),
    Option.bind_eq_bind, Option.bind_some, bytes, side, eachCell_eq,
    foldlM_congr _ (fun cell member out => rotateTurn_eq rotation holds small (within member).1
      (within member).2 out)]
  rw [copyPieces] at copied
  rw [copied]
  rfl

/-- The end of `next_frame`: the picture as the monitor shows it. -/
def upright (rotation : Rotation) (frame : RawFrame) : Option RawFrame :=
  if rotation ≠ .identity ∧ rotation ≠ .unspecified then do
    let (data, width, height) ←
      rotateBgra frame.data frame.width frame.height frame.stride rotation
    let stride ← mul32 width 4
    some { frame with data := data, width := width, height := height, stride := stride }
  else some frame

/-- The picture at the size that was negotiated. -/
def scaled (frame : RawFrame) (width height roundedW roundedH : UInt32) : Option RawFrame :=
  if frame.width ≠ width ∨ frame.height ≠ height then do
    let data ← fitBgraLetterbox frame.data frame.width frame.height frame.stride width height
      roundedW roundedH
    let stride ← mul32 width 4
    some ⟨.bgra, width, height, stride, data, frame.timestampUs⟩
  else some frame

def viewOf (frame : RawFrame) (width height roundedW roundedH : UInt32) : Window :=
  if frame.width ≠ width ∨ frame.height ≠ height then letterbox width height roundedW roundedH
  else ⟨0, 0, width.toNat, height.toNat⟩

def Whole (frame : RawFrame) : Prop := Holds frame.data frame.width frame.height frame.stride

/-- The pixel of a frame at a row and a column. -/
def pixel (frame : RawFrame) (row col : Nat) : List UInt8 :=
  pixelAt frame.data frame.stride.toNat row col

theorem rotated_pixel (rotation : Rotation) {w h : Nat} {out : List UInt8}
    (shown : ∀ y < h, ∀ x < w, piece out 4 (target rotation w h (y, x)) =
      pixelAt src stride.toNat y x)
    (row col : Nat) (down : row < (rotation.size w h).2) (right : col < (rotation.size w h).1) :
    pixelAt out ((rotation.size w h).1 * 4) row col =
      let source := rotation.opposite.place (rotation.size w h).1 (rotation.size w h).2 col row
      pixelAt src stride.toNat source.2 source.1 := by
  have inside := rotation.opposite.place_inside right down
  have back := rotation.opposite.place_back right down
  rw [Rotation.size_opposite, Rotation.opposite_opposite] at back
  rw [Rotation.size_opposite] at inside
  have here := shown _ inside.2 _ inside.1
  rw [target, back] at here
  dsimp only at here ⊢
  rw [← here, pixelAt, piece, Nat.add_mul, Nat.mul_assoc]

theorem whole_packed {out : List UInt8} {w h : UInt32} (columns : 0 < w.toNat) (rows : 0 < h.toNat)
    (length : out.length = w.toNat * h.toNat * 4) (small : out.length < 2 ^ 32) :
    (w * 4).toNat = w.toNat * 4 ∧ Holds out w h (w * 4) := by
  have across : w.toNat ≤ w.toNat * h.toNat := Nat.le_mul_of_pos_right _ rows
  have stride : (w * 4).toNat = w.toNat * 4 := by
    rw [UInt32.toNat_mul]
    exact Nat.mod_eq_of_lt (show w.toNat * 4 < 2 ^ 32 by omega)
  have above : (h.toNat - 1) * (w.toNat * 4) + w.toNat * 4 = w.toNat * h.toNat * 4 := by
    rw [← Nat.succ_mul, Nat.succ_eq_add_one, Nat.sub_add_cancel rows, Nat.mul_right_comm,
      Nat.mul_comm]
  refine ⟨stride, columns, rows, ?_, ?_⟩
  · exact Nat.le_of_eq (by rw [stride, Nat.mul_comm])
  · exact Nat.le_of_eq (by rw [stride, Nat.mul_comm 4, above, length])

theorem upright_shows (rotation : Rotation) (frame : RawFrame) (whole : Whole frame)
    (small : frame.data.length < 2 ^ 32) :
    ∃ up, upright rotation frame = some up ∧
      (up.width, up.height) = rotation.size frame.width frame.height ∧ Whole up ∧
      ∀ row < up.height.toNat, ∀ col < up.width.toNat, pixel up row col =
        let source := rotation.opposite.place up.width.toNat up.height.toNat col row
        pixel frame source.2 source.1 := by
  by_cases turns : rotation ≠ .identity ∧ rotation ≠ .unspecified
  · obtain ⟨out, rotates, length, shown⟩ := rotated rotation whole small
    have area := pixels_le whole
    have some_ := Nat.mul_pos whole.columns whole.rows
    have pixels := rotated_pixel rotation shown
    have sides := size_toNat rotation frame.width frame.height
    rw [← size_area rotation frame.width.toNat, ← sides] at length some_ area
    rw [← sides] at pixels
    generalize whole_ : rotation.size frame.width frame.height = size at *
    obtain ⟨width, height⟩ := size
    dsimp only at length some_ area pixels
    obtain ⟨stride, packed⟩ := whole_packed (Nat.pos_of_mul_pos_right some_)
      (Nat.pos_of_mul_pos_left some_) length (by omega)
    refine ⟨{ frame with data := out, width := width, height := height, stride := width * 4 }, ?_,
      rfl, packed, fun row down col right => ?_⟩
    · have fits : width.toNat * (4 : UInt32).toNat < 2 ^ 32 :=
        lt_of_eq_of_lt stride.symm (width * 4).toNat_lt
      rw [upright, if_pos turns, rotates]
      dsimp only [Option.bind_eq_bind, Option.bind_some]
      rw [mul32, if_pos fits]
      rfl
    · have here := pixels row col down right
      rw [← stride] at here
      exact here
  · rw [upright, if_neg turns]
    rw [← not_or, not_not] at turns
    have same : rotation.size frame.width frame.height = (frame.width, frame.height) := by
      rcases turns with rfl | rfl <;> rfl
    refine ⟨frame, rfl, same.symm, whole, fun row _ col _ => ?_⟩
    rcases turns with rfl | rfl <;> rfl

/-- However the monitor is turned and the scale is rounded: the picture that goes to the encoder is
of the negotiated size, the desktop stands upright in the middle of it by its nearest pixels, and
the rest is black; nothing is read or written out of bounds. -/
theorem presented (rotation : Rotation) (frame : RawFrame)
    (width height roundedW roundedH : UInt32) (whole : Whole frame)
    (small : frame.data.length < 2 ^ 32) (wide : 0 < width.toNat) (tall : 0 < height.toNat)
    (fits : width.toNat * height.toNat * 4 < 2 ^ 32) :
    ∃ up input, upright rotation frame = some up ∧
      scaled up width height roundedW roundedH = some input ∧
      (input.width, input.height) = (width, height) ∧
      ∀ row < height.toNat, ∀ col < width.toNat, pixel input row col =
        let view := viewOf up width height roundedW roundedH
        if view.Holds row col then
          let source := rotation.opposite.place up.width.toNat up.height.toNat
            ((col - view.left) * up.width.toNat / view.width)
            ((row - view.top) * up.height.toNat / view.height)
          pixel frame source.2 source.1
        else [0, 0, 0, 0xff] := by
  obtain ⟨up, turns, -, holds, shown⟩ := upright_shows rotation frame whole small
  by_cases other : up.width ≠ width ∨ up.height ≠ height
  · obtain ⟨out, boxed, length, pixels⟩ := letterboxed up.data up.width up.height up.stride width
      height roundedW roundedH holds wide tall fits
    obtain ⟨stride, -⟩ := whole_packed wide tall length (by rw [length]; exact fits)
    have narrow : width.toNat * (4 : UInt32).toNat < 2 ^ 32 :=
      lt_of_eq_of_lt stride.symm (width * 4).toNat_lt
    refine ⟨up, ⟨.bgra, width, height, width * 4, out, up.timestampUs⟩, turns, ?_, rfl,
      fun row down col right => ?_⟩
    · rw [scaled, if_pos other, boxed]
      dsimp only [Option.bind_eq_bind, Option.bind_some]
      rw [mul32, if_pos narrow]
      rfl
    · have view : viewOf up width height roundedW roundedH =
          letterbox width height roundedW roundedH := if_pos other
      have here := pixels row down col right
      rw [← stride, ← view] at here
      generalize viewOf up width height roundedW roundedH = view at here ⊢
      refine here.trans ?_
      by_cases held : view.Holds row col
      · rw [if_pos held, if_pos held]
        obtain ⟨above, under, left, within⟩ := held
        exact shown _ (scaled_below (Nat.sub_lt_left_of_lt_add above under) holds.rows) _
          (scaled_below (Nat.sub_lt_left_of_lt_add left within) holds.columns)
      · rw [if_neg held, if_neg held]
  · rw [not_or, not_not, not_not] at other
    obtain ⟨rfl, rfl⟩ := other
    have full : viewOf up up.width up.height roundedW roundedH =
        ⟨0, 0, up.width.toNat, up.height.toNat⟩ := if_neg (by simp)
    refine ⟨up, up, turns, if_neg (by simp), rfl, fun row down col right => ?_⟩
    rw [full]
    dsimp only
    have held : Window.Holds ⟨0, 0, up.width.toNat, up.height.toNat⟩ row col :=
      ⟨Nat.zero_le row, Nat.lt_add_left 0 down, Nat.zero_le col, Nat.lt_add_left 0 right⟩
    rw [if_pos held, Nat.sub_zero, Nat.sub_zero,
      Nat.mul_div_cancel _ wide, Nat.mul_div_cancel _ tall]
    exact shown row down col right

/-- Two pixels beside each other, on a monitor that stands on its side. -/
def pair : RawFrame := ⟨.bgra, 2, 1, 8, [1, 2, 3, 255, 4, 5, 6, 255], 0⟩

theorem presented_sideways : ∃ up input, upright .rotate90 pair = some up ∧
    scaled up 3 2 1 2 = some input ∧ pixel input 0 1 = [1, 2, 3, 255] ∧
      pixel input 1 1 = [4, 5, 6, 255] ∧ pixel input 1 2 = [0, 0, 0, 0xff] := by
  obtain ⟨up, input, turns, fits, -, shown⟩ := presented .rotate90 pair 3 2 1 2
    ⟨by decide, by decide, by decide, by decide⟩ (by decide) (by decide) (by decide) (by decide)
  have stands : upright .rotate90 pair =
      some ⟨.bgra, 1, 2, 4, [1, 2, 3, 255, 4, 5, 6, 255], 0⟩ := by decide
  obtain rfl := Option.some.inj (stands.symm.trans turns)
  refine ⟨_, input, turns, fits, ?_, ?_, ?_⟩
  · exact (shown 0 (by decide) 1 (by decide)).trans (by decide)
  · exact (shown 1 (by decide) 1 (by decide)).trans (by decide)
  · exact (shown 1 (by decide) 2 (by decide)).trans (by decide)

end Castr.Capture
