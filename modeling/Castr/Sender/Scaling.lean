import Castr.Lib.Checked
import Castr.Lib.Rows

/-! The desktop scaled to the size that is sent: each pixel the nearest one of the source, and for a
display of a fixed size in the middle of a black picture. Reads and writes are checked, and so is
the arithmetic of the sizes; `none` is a panic. -/

namespace Castr.Sender

open Castr.Lib.Checked (mul32)
open Castr.Lib.Filling Castr.Lib.Rows Castr.Lib.Slices

def pixelAt (src : List UInt8) (stride row col : Nat) : List UInt8 :=
  (src.drop (row * stride + col * 4)).take 4

def resizeTurn (src : List UInt8) (w h stride dw dh : Nat) (out : List UInt8) (y x : Nat) :
    Option (List UInt8) := do
  let p := y * h / dh * stride + x * w / dw * 4
  let pixel ← between src p (p + 4)
  some (out ++ pixel)

def resizeBgraNearest (src : List UInt8) (w h stride dw dh : UInt32) : Option (List UInt8) := do
  let area ← mul32 dw dh
  let _ ← mul32 area 4
  eachCell (List.range dh.toNat) (List.range dw.toNat)
    (resizeTurn src w.toNat h.toNat stride.toNat dw.toNat dh.toNat) []

/-- The size of the picture within the display: `rounded` is the scaled side in floating point. -/
def fitted (rounded side : UInt32) : UInt32 := min (max rounded 1) side

def blackout (area : UInt32) : Option (List UInt8) := do
  let bytes ← mul32 area 4
  (List.range' 3 (bytes.toNat / 4) 4).foldlM (fun out alpha => store out alpha 0xff)
    (List.replicate bytes.toNat 0)

def fitBgraLetterbox (src : List UInt8) (w h stride dw dh roundedW roundedH : UInt32) :
    Option (List UInt8) := do
  let fw := fitted roundedW dw
  let fh := fitted roundedH dh
  let picture ← resizeBgraNearest src w h stride fw fh
  let area ← mul32 dw dh
  let out ← blackout area
  let x0 := (dw - fw) / 2
  let y0 := (dh - fh) / 2
  copyRows 4 dw.toNat ⟨x0.toNat, y0.toNat, fw.toNat, fh.toNat⟩ picture out

def letterbox (dw dh roundedW roundedH : UInt32) : Window where
  left := (dw.toNat - (fitted roundedW dw).toNat) / 2
  top := (dh.toNat - (fitted roundedH dh).toNat) / 2
  width := (fitted roundedW dw).toNat
  height := (fitted roundedH dh).toNat

/-- A picture of some rows and columns, long enough for its last row. -/
structure Holds (src : List UInt8) (w h stride : UInt32) : Prop where
  columns : 0 < w.toNat
  rows : 0 < h.toNat
  room : 4 * w.toNat ≤ stride.toNat
  data : (h.toNat - 1) * stride.toNat + 4 * w.toNat ≤ src.length

variable {src : List UInt8} {w h stride dw dh : UInt32}

theorem Holds.inside (holds : Holds src w h stride) {row col : Nat} (down : row < h.toNat)
    (right : col < w.toNat) : row * stride.toNat + col * 4 + 4 ≤ src.length := by
  have above := Nat.mul_le_mul_right stride.toNat (show row ≤ h.toNat - 1 by omega)
  have enough := holds.data
  omega

theorem Holds.pixel (holds : Holds src w h stride) {row col : Nat} (down : row < h.toNat)
    (right : col < w.toNat) : (pixelAt src stride.toNat row col).length = 4 := by
  have inside := holds.inside down right
  rw [pixelAt, List.length_take, List.length_drop]
  omega

theorem scaled_below {place side other : Nat} (inside : place < side) (some_ : 0 < other) :
    place * other / side < other := by
  rw [Nat.div_lt_iff_lt_mul (Nat.zero_lt_of_lt inside), Nat.mul_comm]
  exact Nat.mul_lt_mul_of_pos_left inside some_

def nearest (src : List UInt8) (w h stride dw dh : Nat) (cell : Nat × Nat) : List UInt8 :=
  pixelAt src stride (cell.1 * h / dh) (cell.2 * w / dw)

theorem Holds.nearest (holds : Holds src w h stride) {cell : Nat × Nat}
    (member : cell ∈ grid (List.range dh.toNat) (List.range dw.toNat)) :
    (nearest src w.toNat h.toNat stride.toNat dw.toNat dh.toNat cell).length = 4 := by
  obtain ⟨down, right⟩ := mem_grid.mp member
  exact holds.pixel (scaled_below (List.mem_range.mp down) holds.rows)
    (scaled_below (List.mem_range.mp right) holds.columns)

theorem resized (holds : Holds src w h stride) (small : dw.toNat * dh.toNat * 4 < 2 ^ 32) :
    resizeBgraNearest src w h stride dw dh =
      some ((grid (List.range dh.toNat) (List.range dw.toNat)).flatMap
        (nearest src w.toNat h.toNat stride.toNat dw.toNat dh.toNat)) := by
  have area : dw.toNat * dh.toNat < 2 ^ 32 := by omega
  have product : (dw * dh).toNat = dw.toNat * dh.toNat := by
    rw [UInt32.toNat_mul, Nat.mod_eq_of_lt area]
  have bytes : (dw * dh).toNat * (4 : UInt32).toNat < 2 ^ 32 := by
    rw [product]
    exact small
  rw [resizeBgraNearest, mul32, if_pos area, Option.bind_eq_bind, Option.bind_some, mul32,
    if_pos bytes, Option.bind_some, eachCell_eq]
  refine (foldlM_behind _ _ _ ?_ []).trans (by rw [List.nil_append])
  intro cell member out
  obtain ⟨down, right⟩ := mem_grid.mp member
  have inside := holds.inside (scaled_below (List.mem_range.mp down) holds.rows)
    (scaled_below (List.mem_range.mp right) holds.columns)
  rw [resizeTurn, between_eq (Nat.le_add_right _ _) inside, Nat.add_sub_cancel_left]
  rfl

theorem blackout_some (area count : Nat) (inside : count ≤ area) :
    ∃ out, (List.range' 3 count 4).foldlM (fun out alpha => store out alpha 0xff)
        (List.replicate (area * 4) (0 : UInt8)) = some out ∧
      out.length = area * 4 ∧ ∀ place < area, piece out 4 place =
        if place < count then [0, 0, 0, 0xff] else [0, 0, 0, 0] := by
  induction count with
  | zero =>
      refine ⟨_, rfl, List.length_replicate, fun place below => ?_⟩
      have room : min 4 (area * 4 - place * 4) = 4 := by omega
      rw [piece, List.drop_replicate, List.take_replicate, room, if_neg (Nat.not_lt_zero place)]
      rfl
  | succ count ih =>
      obtain ⟨middle, filled, sized, shows⟩ := ih (by omega)
      have room : 3 + 4 * count < middle.length := by omega
      obtain ⟨out, stored, patched⟩ := store_patched room (0xff : UInt8)
      refine ⟨out, ?_, patched.length.trans sized, fun place below => ?_⟩
      · rw [List.range'_concat, List.foldlM_append, filled]
        simpa using stored
      · by_cases last : place = count
        · subst last
          have before := shows place below
          rw [if_neg (Nat.lt_irrefl place), piece] at before
          have put : out = middle.set (3 + 4 * place) 0xff := by
            rw [store, if_pos room] at stored
            exact (Option.some.inj stored).symm
          have offset : 3 + 4 * place - place * 4 = 3 := by omega
          rw [if_pos (Nat.lt_succ_self place), piece, put, List.drop_set, if_neg (by omega), offset,
            List.take_set, before]
          rfl
        · have outside := patched.outside (place * 4) 4 (by omega)
          rw [piece, outside, ← piece, shows place below]
          refine if_congr ?_ rfl rfl
          omega

theorem blackout_eq (area : UInt32) (small : area.toNat * 4 < 2 ^ 32) :
    ∃ out, blackout area = some out ∧ out.length = area.toNat * 4 ∧
      ∀ place < area.toNat, piece out 4 place = [0, 0, 0, 0xff] := by
  have bytes : (area * 4).toNat = area.toNat * 4 := by
    rw [UInt32.toNat_mul]
    exact Nat.mod_eq_of_lt small
  obtain ⟨out, filled, sized, shows⟩ := blackout_some area.toNat area.toNat (Nat.le_refl _)
  refine ⟨out, ?_, sized, fun place below => by rw [shows place below, if_pos below]⟩
  have fits : area.toNat * (4 : UInt32).toNat < 2 ^ 32 := small
  rw [blackout, mul32, if_pos fits, Option.bind_eq_bind, Option.bind_some, bytes,
    Nat.mul_div_cancel _ (by decide)]
  exact filled

theorem fitted_range {rounded side : UInt32} (some_ : 0 < side.toNat) :
    0 < (fitted rounded side).toNat ∧ (fitted rounded side).toNat ≤ side.toNat := by
  have one : (1 : UInt32).toNat = 1 := rfl
  rw [fitted, Castr.Lib.Checked.min32_toNat, Castr.Lib.Checked.max32_toNat, one]
  omega

theorem margin_toNat {inner side : UInt32} (within : inner.toNat ≤ side.toNat) :
    ((side - inner) / 2).toNat = (side.toNat - inner.toNat) / 2 := by
  rw [UInt32.toNat_div, UInt32.toNat_sub_of_le _ _ (UInt32.le_iff_toNat_le.mpr within)]
  rfl

/-- However the scale is rounded, the display's picture is of its size, the desktop stands in the
middle of it by its nearest pixels, and the rest is black; nothing is read or written out of
bounds. -/
theorem letterboxed (src : List UInt8) (w h stride dw dh roundedW roundedH : UInt32)
    (holds : Holds src w h stride) (wide : 0 < dw.toNat) (tall : 0 < dh.toNat)
    (small : dw.toNat * dh.toNat * 4 < 2 ^ 32) :
    let view := letterbox dw dh roundedW roundedH
    ∃ out, fitBgraLetterbox src w h stride dw dh roundedW roundedH = some out ∧
      out.length = dw.toNat * dh.toNat * 4 ∧
      ∀ row < dh.toNat, ∀ col < dw.toNat, pixelAt out (dw.toNat * 4) row col =
        if view.Holds row col then
          pixelAt src stride.toNat ((row - view.top) * h.toNat / view.height)
            ((col - view.left) * w.toNat / view.width)
        else [0, 0, 0, 0xff] := by
  intro view
  let fw := (fitted roundedW dw).toNat
  let fh := (fitted roundedH dh).toNat
  obtain ⟨someW, withinW⟩ : 0 < fw ∧ fw ≤ dw.toNat := fitted_range wide
  obtain ⟨someH, withinH⟩ : 0 < fh ∧ fh ≤ dh.toNat := fitted_range tall
  have area : fw * fh ≤ dw.toNat * dh.toNat := Nat.mul_le_mul withinW withinH
  have product : (dw * dh).toNat = dw.toNat * dh.toNat := by
    rw [UInt32.toNat_mul]
    exact Nat.mod_eq_of_lt (by omega)
  obtain ⟨black, painted, sized, dark⟩ := blackout_eq (dw * dh) (by rw [product]; exact small)
  rw [product] at sized dark
  have picture := resized holds (show fw * fh * 4 < 2 ^ 32 by omega)
  have each (cell : Nat × Nat) (member : cell ∈ grid (List.range fh) (List.range fw)) :
      (nearest src w.toNat h.toNat stride.toNat fw fh cell).length = 4 := holds.nearest member
  have whole := flatMap_width _ 4 _ each
  rw [grid_length, List.length_range, List.length_range] at whole
  have below (row : Nat) (inside : row < fh) : ((view.top + row) * dw.toNat + view.left) * 4 +
      fw * 4 ≤ black.length := by
    have last : view.top + row + 1 ≤ dh.toNat := by
      show (dh.toNat - fh) / 2 + row + 1 ≤ dh.toNat
      omega
    have rows := Nat.mul_le_mul_right dw.toNat last
    have left : view.left + fw ≤ dw.toNat := by
      show (dw.toNat - fw) / 2 + fw ≤ dw.toNat
      omega
    rw [Nat.succ_mul, Nat.mul_comm dh.toNat] at rows
    rw [sized]
    omega
  obtain ⟨out, copied, shows⟩ := copyRows_shows 4 dw.toNat view _ black
    (show (dw.toNat - fw) / 2 + fw ≤ dw.toNat by omega) below (Nat.le_of_eq whole.symm)
  have cell (row col : Nat) :
      pixelAt out (dw.toNat * 4) row col = piece out 4 (row * dw.toNat + col) := by
    rw [pixelAt, piece, Nat.add_mul, Nat.mul_assoc]
  refine ⟨out, ?_, shows.length.trans sized, fun row down col right => ?_⟩
  · have fits : dw.toNat * dh.toNat < 2 ^ 32 := by omega
    rw [fitBgraLetterbox]
    dsimp only
    rw [picture, mul32, if_pos fits]
    simp only [Option.bind_eq_bind, Option.bind_some]
    rw [painted, Option.bind_some, margin_toNat withinW, margin_toNat withinH]
    exact copied
  · rw [cell]
    split
    · rename_i held
      obtain ⟨above, under, left, within⟩ := held
      rw [shows.inside row col ⟨above, under, left, within⟩]
      have down_ : row - view.top < fh := Nat.sub_lt_left_of_lt_add above under
      have right_ : col - view.left < fw := Nat.sub_lt_left_of_lt_add left within
      exact piece_flatMap _ 4 _ each _ _ (grid_getElem? down_ right_)
    · rename_i aside
      have inside : row * dw.toNat + col < dw.toNat * dh.toNat := by
        have rows := Nat.mul_le_mul_right dw.toNat (Nat.succ_le_of_lt down)
        rw [Nat.succ_mul, Nat.mul_comm dh.toNat] at rows
        omega
      rw [shows.outside row col right aside]
      exact dark _ inside

end Castr.Sender
