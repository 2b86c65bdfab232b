import Mathlib.Algebra.Order.Round
import Mathlib.Data.Rat.Floor
import Mathlib.Tactic.Linarith
import Castr.Lib.Filling
import Castr.V4l2.Decoder

/-! Colours from BGRA to the two layouts of 4:2:0, and from one of these to the other, with every
index checked: `none` is a panic. -/

namespace Castr.Media

open Castr.Lib.Filling Castr.Lib.Slices
open Castr.V4l2 (PixelFormat RawFrame)

def clampI32 (value low high : Int) : Int :=
  if value < low then low else if high < value then high else value

def lumaOf (r g b : Int) : Int := 16 + ((66 * r + 129 * g + 25 * b + 128) >>> (8 : Nat))

def blueOf (r g b : Int) : Int := 128 + ((-38 * r - 74 * g + 112 * b + 128) >>> (8 : Nat))

def redOf (r g b : Int) : Int := 128 + ((112 * r - 94 * g - 18 * b + 128) >>> (8 : Nat))

def rgbToY (r g b : Int) : UInt8 := UInt8.ofInt (clampI32 (lumaOf r g b) 16 235)

def rgbToU (r g b : Int) : UInt8 := UInt8.ofInt (clampI32 (blueOf r g b) 16 240)

def rgbToV (r g b : Int) : UInt8 := UInt8.ofInt (clampI32 (redOf r g b) 16 240)

structure Rgb where
  r : Int
  g : Int
  b : Int
  deriving DecidableEq, Repr

/-- `src[p] as i32`, `src[p + 1] as i32` and `src[p + 2] as i32` -/
def fetchRgb (src : List UInt8) (p : Nat) : Option Rgb := do
  let b ← fetch src p
  let g ← fetch src (p + 1)
  let r ← fetch src (p + 2)
  some ⟨r.toNat, g.toNat, b.toNat⟩

def lumaTurn (src : List UInt8) (w s : Nat) (y : List UInt8) (row col : Nat) :
    Option (List UInt8) := do
  let c ← fetchRgb src (row * s + col * 4)
  store y (row * w + col) (rgbToY c.r c.g c.b)

def blockSums (src : List UInt8) (s row col : Nat) : Option Rgb :=
  [(0, 0), (0, 1), (1, 0), (1, 1)].foldlM (fun (sums : Rgb) (d : Nat × Nat) => do
    let c ← fetchRgb src ((row + d.1) * s + (col + d.2) * 4)
    some ⟨sums.r + c.r, sums.g + c.g, sums.b + c.b⟩) ⟨0, 0, 0⟩

def chromaTurn (src : List UInt8) (w s : Nat) (uv : List UInt8 × List UInt8) (row col : Nat) :
    Option (List UInt8 × List UInt8) := do
  let sums ← blockSums src s row col
  let r := sums.r.tdiv 4
  let g := sums.g.tdiv 4
  let b := sums.b.tdiv 4
  let ci := row / 2 * (w / 2) + col / 2
  let u ← store uv.1 ci (rgbToU r g b)
  let v ← store uv.2 ci (rgbToV r g b)
  some (u, v)

/-- The Y plane, the U plane and the V plane, at 4:2:0. -/
def bgraPlanes (src : List UInt8) (width height stride : UInt32) :
    Option (List UInt8 × List UInt8 × List UInt8) :=
  if width.toNat % 2 = 0 ∧ height.toNat % 2 = 0 then do
    let w := width.toNat
    let h := height.toNat
    let s := stride.toNat
    let chroma := List.replicate (w * h / 4) 0
    let y ← eachCell (List.range h) (List.range w) (lumaTurn src w s) (List.replicate (w * h) 0)
    let (u, v) ← eachCell (everySecond (List.range h)) (everySecond (List.range w))
      (chromaTurn src w s) (chroma, chroma)
    some (y, u, v)
  else none

def bgraToI420 (src : List UInt8) (width height stride : UInt32) : Option (List UInt8) := do
  let (y, u, v) ← bgraPlanes src width height stride
  some (y ++ u ++ v)

def bgraToNv12 (src : List UInt8) (width height stride : UInt32) : Option (List UInt8) := do
  let (y, u, v) ← bgraPlanes src width height stride
  some (y ++ interleave u v)

def nv12ToI420 (src : List UInt8) (width height : UInt32) : Option (List UInt8) := do
  let w := width.toNat
  let h := height.toNat
  let luma ← between src 0 (w * h)
  let uv ← after src (w * h)
  some (luma ++ everySecond uv ++ everySecond (uv.drop 1))

def convert (frame : RawFrame) (target : PixelFormat) : Option RawFrame :=
  if frame.format = target then some frame
  else do
    let data ← match frame.format, target with
      | .bgra, .i420 => bgraToI420 frame.data frame.width frame.height frame.stride
      | .bgra, .nv12 => bgraToNv12 frame.data frame.width frame.height frame.stride
      | .nv12, .i420 => nv12ToI420 frame.data frame.width frame.height
      | _, _ => none
    some ⟨target, frame.width, frame.height, frame.width, data, frame.timestampUs⟩

section Colours

/-- BT.601 at limited range, exactly: its grey, and the three values of a colour. -/
def bt601Grey (r g b : ℚ) : ℚ := 299 / 1000 * r + 587 / 1000 * g + 114 / 1000 * b

def bt601Y (r g b : ℚ) : ℚ := 16 + 219 / 255 * bt601Grey r g b

def bt601U (r g b : ℚ) : ℚ := 128 + 224 / 255 * ((b - bt601Grey r g b) / (1772 / 1000))

def bt601V (r g b : ℚ) : ℚ := 128 + 224 / 255 * ((r - bt601Grey r g b) / (1402 / 1000))

def fixedY (r g b : ℚ) : ℚ := 16 + (66 * r + 129 * g + 25 * b) / 256

def fixedU (r g b : ℚ) : ℚ := 128 + (-38 * r - 74 * g + 112 * b) / 256

def fixedV (r g b : ℚ) : ℚ := 128 + (112 * r - 94 * g - 18 * b) / 256

theorem shift_round (base n : Int) :
    base + ((n + 128) >>> (8 : Nat)) = round ((base : ℚ) + (n : ℚ) / 256) := by
  have half : (n : ℚ) / 256 + 1 / 2 = ((n + 128 : Int) : ℚ) / (256 : Nat) := by
    push_cast
    ring
  have whole := round_intCast_add ((n : ℚ) / 256) base
  rw [whole, round_eq, half, Rat.floor_intCast_div_natCast, Int.shiftRight_eq_div_pow]

theorem lumaOf_round (r g b : Int) : lumaOf r g b = round (fixedY r g b) := by
  have rounded := shift_round 16 (66 * r + 129 * g + 25 * b)
  push_cast at rounded
  exact rounded

theorem blueOf_round (r g b : Int) : blueOf r g b = round (fixedU r g b) := by
  have rounded := shift_round 128 (-38 * r - 74 * g + 112 * b)
  push_cast at rounded
  exact rounded

theorem redOf_round (r g b : Int) : redOf r g b = round (fixedV r g b) := by
  have rounded := shift_round 128 (112 * r - 94 * g - 18 * b)
  push_cast at rounded
  exact rounded

theorem round_close {x y : ℚ} (above : x - y < 1) (below : y - x < 1) :
    |round x - round y| ≤ 1 := by
  have upper (a b : ℚ) (close : a - b < 1) : round a - round b ≤ 1 := by
    have high := round_le_add_half a
    have low := sub_half_lt_round b
    have both : ((round a - round b : Int) : ℚ) < (2 : Int) := by
      push_cast
      linarith
    have strict := Int.cast_lt.mp both
    omega
  have first := upper x y above
  have second := upper y x below
  rw [abs_le]
  omega

/-- A byte of a plane: the value in its nominal range, so that neither the clamp nor the cast
changes it, is the rounded fixed-point value and next to the exact one. -/
structure Rendered (byte : UInt8) (value high : Int) (fixed exact : ℚ) : Prop where
  range : 16 ≤ value ∧ value ≤ high
  kept : (byte.toNat : Int) = value
  rounded : value = round fixed
  close : |value - round exact| ≤ 1

def Rgb.y (c : Rgb) : UInt8 := rgbToY c.r c.g c.b

def Rgb.u (c : Rgb) : UInt8 := rgbToU c.r c.g c.b

def Rgb.v (c : Rgb) : UInt8 := rgbToV c.r c.g c.b

def Rgb.quarter (sums : Rgb) : Rgb := ⟨sums.r.tdiv 4, sums.g.tdiv 4, sums.b.tdiv 4⟩

def Luma (byte : UInt8) (c : Rgb) : Prop :=
  Rendered byte (lumaOf c.r c.g c.b) 235 (fixedY c.r c.g c.b) (bt601Y c.r c.g c.b)

/-- The bytes of a block in the U plane and in the V plane, from the sums of its four pixels. -/
def Blue (byte : UInt8) (sums : Rgb) : Prop :=
  let c := sums.quarter
  Rendered byte (blueOf c.r c.g c.b) 240 (fixedU c.r c.g c.b)
    (bt601U (sums.r / 4) (sums.g / 4) (sums.b / 4))

def Red (byte : UInt8) (sums : Rgb) : Prop :=
  let c := sums.quarter
  Rendered byte (redOf c.r c.g c.b) 240 (fixedV c.r c.g c.b)
    (bt601V (sums.r / 4) (sums.g / 4) (sums.b / 4))

theorem clampI32_byte {value high : Int} (low : 16 ≤ value) (inside : value ≤ high)
    (small : high < 256) : ((UInt8.ofInt (clampI32 value 16 high)).toNat : Int) = value := by
  rw [clampI32, if_neg (by omega), if_neg (by omega)]
  rw [UInt8.ofInt, UInt8.toNat_ofNat']
  omega

theorem rendered_of {value high : Int} {fixed exact : ℚ} (range : 16 ≤ value ∧ value ≤ high)
    (small : high < 256) (rounded : value = round fixed) (above : fixed - exact < 1)
    (below : exact - fixed < 1) :
    Rendered (UInt8.ofInt (clampI32 value 16 high)) value high fixed exact :=
  ⟨range, clampI32_byte range.1 range.2 small, rounded, rounded ▸ round_close above below⟩

structure Rgb.Within (c : Rgb) (n : Int) : Prop where
  r : 0 ≤ c.r ∧ c.r ≤ 255 * n
  g : 0 ≤ c.g ∧ c.g ≤ 255 * n
  b : 0 ≤ c.b ∧ c.b ≤ 255 * n

variable {c : Rgb}

theorem luma_y (within : c.Within 1) : Luma c.y c := by
  obtain ⟨⟨r0, r1⟩, ⟨g0, g1⟩, ⟨b0, b1⟩⟩ := within
  have range : 16 ≤ lumaOf c.r c.g c.b ∧ lumaOf c.r c.g c.b ≤ 235 := by
    rw [lumaOf, Int.shiftRight_eq_div_pow]
    omega
  have r0 : (0 : ℚ) ≤ c.r := by exact_mod_cast r0
  have g0 : (0 : ℚ) ≤ c.g := by exact_mod_cast g0
  have b0 : (0 : ℚ) ≤ c.b := by exact_mod_cast b0
  have r1 : (c.r : ℚ) ≤ 255 := by exact_mod_cast r1
  have g1 : (c.g : ℚ) ≤ 255 := by exact_mod_cast g1
  have b1 : (c.b : ℚ) ≤ 255 := by exact_mod_cast b1
  refine rendered_of range (by omega) (lumaOf_round _ _ _) ?_ ?_
  · unfold fixedY bt601Y bt601Grey
    linarith
  · unfold fixedY bt601Y bt601Grey
    linarith

theorem quarter_close {sum : Int} (range : 0 ≤ sum ∧ sum ≤ 255 * 4) :
    (0 ≤ sum.tdiv 4 ∧ sum.tdiv 4 ≤ 255) ∧ ((sum.tdiv 4 : Int) : ℚ) ≤ sum / 4 ∧
      (sum : ℚ) / 4 ≤ (sum.tdiv 4 : Int) + 3 / 4 := by
  rw [Int.tdiv_eq_ediv_of_nonneg range.1]
  have under : sum / 4 * 4 ≤ sum := by omega
  have above : sum ≤ sum / 4 * 4 + 3 := by omega
  have under : ((sum / 4 : Int) : ℚ) * 4 ≤ sum := by exact_mod_cast under
  have above : (sum : ℚ) ≤ ((sum / 4 : Int) : ℚ) * 4 + 3 := by exact_mod_cast above
  exact ⟨by omega, by linarith, by linarith⟩

theorem blue_red {sums : Rgb} (within : sums.Within 4) :
    Blue sums.quarter.u sums ∧ Red sums.quarter.v sums := by
  obtain ⟨⟨r0, r1⟩, rLow, rHigh⟩ := quarter_close within.r
  obtain ⟨⟨g0, g1⟩, gLow, gHigh⟩ := quarter_close within.g
  obtain ⟨⟨b0, b1⟩, bLow, bHigh⟩ := quarter_close within.b
  unfold Blue Red Rgb.u Rgb.v Rgb.quarter
  dsimp only
  generalize sums.r.tdiv 4 = r at *
  generalize sums.g.tdiv 4 = g at *
  generalize sums.b.tdiv 4 = b at *
  have blue : 16 ≤ blueOf r g b ∧ blueOf r g b ≤ 240 := by
    rw [blueOf, Int.shiftRight_eq_div_pow]
    omega
  have red : 16 ≤ redOf r g b ∧ redOf r g b ≤ 240 := by
    rw [redOf, Int.shiftRight_eq_div_pow]
    omega
  have r0 : (0 : ℚ) ≤ r := by exact_mod_cast r0
  have g0 : (0 : ℚ) ≤ g := by exact_mod_cast g0
  have b0 : (0 : ℚ) ≤ b := by exact_mod_cast b0
  have r1 : (r : ℚ) ≤ 255 := by exact_mod_cast r1
  have g1 : (g : ℚ) ≤ 255 := by exact_mod_cast g1
  have b1 : (b : ℚ) ≤ 255 := by exact_mod_cast b1
  constructor
  · refine rendered_of blue (by omega) (blueOf_round _ _ _) ?_ ?_
    · unfold fixedU bt601U bt601Grey
      linarith
    · unfold fixedU bt601U bt601Grey
      linarith
  · refine rendered_of red (by omega) (redOf_round _ _ _) ?_ ?_
    · unfold fixedV bt601V bt601Grey
      linarith
    · unfold fixedV bt601V bt601Grey
      linarith

end Colours

section Planes

/-- An image of even dimensions whose data is long enough for its last row. -/
structure Fits (src : List UInt8) (width height stride : UInt32) : Prop where
  evenWidth : width.toNat % 2 = 0
  evenHeight : height.toNat % 2 = 0
  room : 4 * width.toNat ≤ stride.toNat
  data : 0 < height.toNat → (height.toNat - 1) * stride.toNat + 4 * width.toNat ≤ src.length

variable (src : List UInt8) (s : Nat)

def pixel (row col : Nat) : Rgb :=
  let byte (k : Nat) : Int := (src.getD (row * s + col * 4 + k) 0).toNat
  ⟨byte 2, byte 1, byte 0⟩

def Rgb.plus (c d : Rgb) : Rgb := ⟨c.r + d.r, c.g + d.g, c.b + d.b⟩

/-- The sums of the four pixels under a pixel of the chroma planes. -/
def block (i j : Nat) : Rgb :=
  (((pixel src s (2 * i) (2 * j)).plus (pixel src s (2 * i) (2 * j + 1))).plus
    (pixel src s (2 * i + 1) (2 * j))).plus (pixel src s (2 * i + 1) (2 * j + 1))

theorem within_pixel (row col : Nat) : (pixel src s row col).Within 1 := by
  have byte (b : UInt8) : 0 ≤ (b.toNat : Int) ∧ (b.toNat : Int) ≤ 255 * 1 := by
    have small := UInt8.toNat_lt b
    omega
  exact ⟨byte _, byte _, byte _⟩

theorem within_plus {c d : Rgb} {m n : Int} (left : c.Within m) (right : d.Within n) :
    (c.plus d).Within (m + n) := by
  obtain ⟨_, _⟩ := left.r
  obtain ⟨_, _⟩ := left.g
  obtain ⟨_, _⟩ := left.b
  obtain ⟨_, _⟩ := right.r
  obtain ⟨_, _⟩ := right.g
  obtain ⟨_, _⟩ := right.b
  unfold Rgb.plus
  constructor <;> dsimp only <;> omega

theorem within_block (i j : Nat) : (block src s i j).Within 4 :=
  within_plus (within_plus (within_plus (within_pixel src s _ _) (within_pixel src s _ _))
    (within_pixel src s _ _)) (within_pixel src s _ _)

theorem fetchRgb_eq {row col : Nat} (inside : row * s + col * 4 + 2 < src.length) :
    fetchRgb src (row * s + col * 4) = some (pixel src s row col) := by
  rw [fetchRgb, fetch_eq 0 (by omega), fetch_eq 0 (by omega), fetch_eq 0 (by omega)]
  rfl

variable {src} {width height stride : UInt32}

theorem Fits.inside (fits : Fits src width height stride) {row col : Nat}
    (down : row < height.toNat) (across : col < width.toNat) :
    row * stride.toNat + col * 4 + 2 < src.length := by
  have data := fits.data (Nat.zero_lt_of_lt down)
  have rows := Nat.mul_le_mul_right stride.toNat (Nat.le_sub_one_of_lt down)
  omega

theorem Fits.lumaTurn_eq (fits : Fits src width height stride) {cell : Nat × Nat}
    (member : cell ∈ grid (List.range height.toNat) (List.range width.toNat)) (y : List UInt8) :
    lumaTurn src width.toNat stride.toNat y cell.1 cell.2 =
      store y (cell.1 * width.toNat + cell.2)
        (pixel src stride.toNat cell.1 cell.2).y := by
  obtain ⟨down, across⟩ := mem_grid.mp member
  rw [lumaTurn, fetchRgb_eq src _ (fits.inside (List.mem_range.mp down) (List.mem_range.mp across))]
  rfl

theorem Fits.blockSums_eq (fits : Fits src width height stride) {i j : Nat}
    (down : i < height.toNat / 2) (across : j < width.toNat / 2) :
    blockSums src stride.toNat (2 * i) (2 * j) = some (block src stride.toNat i j) := by
  have here {row col : Nat} (down : row < height.toNat) (across : col < width.toNat) :=
    fetchRgb_eq src stride.toNat (fits.inside down across)
  unfold blockSums
  simp only [List.foldlM_cons, List.foldlM_nil, Nat.add_zero]
  rw [here (by omega) (by omega), here (by omega) (by omega), here (by omega) (by omega),
    here (by omega) (by omega)]
  simp [block, Rgb.plus]

variable (src stride) in
def planeY (w h : Nat) : List UInt8 :=
  (grid (List.range h) (List.range w)).map (fun cell =>
    (pixel src stride.toNat cell.1 cell.2).y)

variable (src stride) in
def planeU (w h : Nat) : List UInt8 :=
  (grid (List.range (h / 2)) (List.range (w / 2))).map (fun cell =>
    (block src stride.toNat cell.1 cell.2).quarter.u)

variable (src stride) in
def planeV (w h : Nat) : List UInt8 :=
  (grid (List.range (h / 2)) (List.range (w / 2))).map (fun cell =>
    (block src stride.toNat cell.1 cell.2).quarter.v)

theorem Fits.luma_eq (fits : Fits src width height stride) :
    eachCell (List.range height.toNat) (List.range width.toNat)
        (lumaTurn src width.toNat stride.toNat)
        (List.replicate (width.toNat * height.toNat) 0) =
      some (planeY src stride width.toNat height.toNat) := by
  rw [eachCell_eq, foldlM_congr _ (fun cell member y => fits.lumaTurn_eq member y)]
  refine filled _ _ _ _ ?_
  rw [grid_range, List.length_replicate, Nat.mul_comm]

theorem everySecond_even {n : Nat} (even : n % 2 = 0) :
    everySecond (List.range n) = (List.range (n / 2)).map (2 * ·) := by
  have twice : 2 * (n / 2) = n := by omega
  rw [← everySecond_range, twice]

theorem Fits.quarters (fits : Fits src width height stride) :
    width.toNat * height.toNat / 4 = height.toNat / 2 * (width.toNat / 2) := by
  obtain ⟨a, wide⟩ := Nat.dvd_of_mod_eq_zero fits.evenWidth
  obtain ⟨b, tall⟩ := Nat.dvd_of_mod_eq_zero fits.evenHeight
  rw [wide, tall, Nat.mul_div_cancel_left _ Nat.two_pos, Nat.mul_div_cancel_left _ Nat.two_pos,
    show 2 * a * (2 * b) = 4 * (b * a) by ring, Nat.mul_div_cancel_left _ (by omega)]

theorem Fits.chromaTurn_eq (fits : Fits src width height stride) {cell : Nat × Nat}
    (member : cell ∈ grid (List.range (height.toNat / 2)) (List.range (width.toNat / 2)))
    (uv : List UInt8 × List UInt8) :
    chromaTurn src width.toNat stride.toNat uv (2 * cell.1) (2 * cell.2) = (do
      let u ← store uv.1 (cell.1 * (width.toNat / 2) + cell.2)
        (block src stride.toNat cell.1 cell.2).quarter.u
      let v ← store uv.2 (cell.1 * (width.toNat / 2) + cell.2)
        (block src stride.toNat cell.1 cell.2).quarter.v
      pure (u, v)) := by
  obtain ⟨down, across⟩ := mem_grid.mp member
  have sums := fits.blockSums_eq (List.mem_range.mp down) (List.mem_range.mp across)
  have row : 2 * cell.1 / 2 = cell.1 := Nat.mul_div_cancel_left _ Nat.two_pos
  have col : 2 * cell.2 / 2 = cell.2 := Nat.mul_div_cancel_left _ Nat.two_pos
  rw [chromaTurn, sums]
  dsimp only [Option.bind_eq_bind, Option.bind_some]
  rw [row, col]
  rfl

theorem Fits.chroma_eq (fits : Fits src width height stride) :
    eachCell (everySecond (List.range height.toNat)) (everySecond (List.range width.toNat))
        (chromaTurn src width.toNat stride.toNat)
        (List.replicate (width.toNat * height.toNat / 4) 0,
          List.replicate (width.toNat * height.toNat / 4) 0) =
      some (planeU src stride width.toNat height.toNat,
        planeV src stride width.toNat height.toNat) := by
  have sized := (grid_range (height.toNat / 2) (width.toNat / 2)).trans
    (congrArg List.range fits.quarters.symm)
  rw [eachCell_eq, everySecond_even fits.evenWidth, everySecond_even fits.evenHeight, grid_map,
    List.foldlM_map]
  refine (foldlM_congr _ (fun cell member uv => fits.chromaTurn_eq member uv) _).trans ?_
  refine foldlM_pair _ _ _ (filled _ _ _ _ ?_) (filled _ _ _ _ ?_)
  · rw [List.length_replicate]
    exact sized
  · rw [List.length_replicate]
    exact sized

theorem Fits.planes_eq (fits : Fits src width height stride) :
    bgraPlanes src width height stride = some (planeY src stride width.toNat height.toNat,
      planeU src stride width.toNat height.toNat, planeV src stride width.toNat height.toNat) := by
  unfold bgraPlanes
  rw [if_pos ⟨fits.evenWidth, fits.evenHeight⟩]
  dsimp only
  rw [fits.luma_eq, fits.chroma_eq]
  rfl

end Planes

section Layouts

variable {src : List UInt8} {width height stride : UInt32}

variable (src stride) in
theorem planeY_length (w h : Nat) : (planeY src stride w h).length = w * h := by
  rw [planeY, List.length_map, grid_length, List.length_range, List.length_range, Nat.mul_comm]

variable (src stride) in
theorem planeU_length (w h : Nat) : (planeU src stride w h).length = h / 2 * (w / 2) := by
  rw [planeU, List.length_map, grid_length, List.length_range, List.length_range]

variable (src stride) in
theorem planeV_length (w h : Nat) : (planeV src stride w h).length = h / 2 * (w / 2) := by
  rw [planeV, List.length_map, grid_length, List.length_range, List.length_range]

theorem Fits.whole (fits : Fits src width height stride) :
    width.toNat * height.toNat * 3 / 2 =
      width.toNat * height.toNat + 2 * (height.toNat / 2 * (width.toNat / 2)) := by
  have even : 4 ∣ width.toNat * height.toNat :=
    Nat.mul_dvd_mul (Nat.dvd_of_mod_eq_zero fits.evenWidth) (Nat.dvd_of_mod_eq_zero fits.evenHeight)
  have quarters := fits.quarters
  omega

theorem Fits.i420_eq (fits : Fits src width height stride) :
    bgraToI420 src width height stride = some (planeY src stride width.toNat height.toNat ++
      planeU src stride width.toNat height.toNat ++
      planeV src stride width.toNat height.toNat) := by
  rw [bgraToI420, fits.planes_eq]
  rfl

theorem Fits.nv12_eq (fits : Fits src width height stride) :
    bgraToNv12 src width height stride = some (planeY src stride width.toNat height.toNat ++
      interleave (planeU src stride width.toNat height.toNat)
        (planeV src stride width.toNat height.toNat)) := by
  rw [bgraToNv12, fits.planes_eq]
  rfl

theorem nv12ToI420_interleave (y u v : List UInt8)
    (luma : y.length = width.toNat * height.toNat) (chroma : u.length = v.length) :
    nv12ToI420 (y ++ interleave u v) width height = some (y ++ u ++ v) := by
  obtain ⟨first, second⟩ := everySecond_interleave u v chroma
  have room : y.length ≤ (y ++ interleave u v).length := by
    rw [List.length_append]
    omega
  unfold nv12ToI420
  dsimp only
  rw [← luma, between_eq (Nat.zero_le _) room, after_eq room]
  dsimp only [Option.bind_eq_bind, Option.bind_some]
  rw [Nat.sub_zero, List.drop_zero, List.take_left, List.drop_left, first, second]

variable (src width height stride) in
theorem planes_back :
    nv12ToI420 (planeY src stride width.toNat height.toNat ++
        interleave (planeU src stride width.toNat height.toNat)
          (planeV src stride width.toNat height.toNat)) width height =
      some (planeY src stride width.toNat height.toNat ++
        planeU src stride width.toNat height.toNat ++
        planeV src stride width.toNat height.toNat) := by
  refine nv12ToI420_interleave _ _ _ (planeY_length src stride _ _) ?_
  rw [planeU_length, planeV_length]

theorem convert_agree (frame : RawFrame) (format : frame.format = .bgra)
    (fits : Fits frame.data frame.width frame.height frame.stride) :
    ∃ i420 nv12, convert frame .i420 = some i420 ∧ convert frame .nv12 = some nv12 ∧
      convert nv12 .i420 = some i420 := by
  obtain ⟨_, width, height, stride, data, timestampUs⟩ := frame
  obtain rfl := format
  have first := fits.i420_eq
  have second := fits.nv12_eq
  have third := planes_back data width height stride
  refine ⟨⟨.i420, width, height, width, _, timestampUs⟩,
    ⟨.nv12, width, height, width, _, timestampUs⟩,
    Option.bind_eq_some_iff.mpr ⟨_, first, rfl⟩, Option.bind_eq_some_iff.mpr ⟨_, second, rfl⟩,
    Option.bind_eq_some_iff.mpr ⟨_, third, rfl⟩⟩

section Found

variable {α : Type*} (y u v : List α) {k : Nat} {item : α}

theorem found_first (found : y[k]? = some item) : (y ++ u ++ v)[k]? = some item := by
  obtain ⟨inside, _⟩ := List.getElem?_eq_some_iff.mp found
  rw [List.append_assoc, List.getElem?_append_left inside, found]

theorem found_second (found : u[k]? = some item) : (y ++ u ++ v)[y.length + k]? = some item := by
  obtain ⟨inside, _⟩ := List.getElem?_eq_some_iff.mp found
  rw [List.append_assoc, List.getElem?_append_right (Nat.le_add_right _ _),
    Nat.add_sub_cancel_left, List.getElem?_append_left inside, found]

theorem found_third (found : v[k]? = some item) :
    (y ++ u ++ v)[y.length + u.length + k]? = some item := by
  rw [← List.length_append, List.getElem?_append_right (Nat.le_add_right _ _),
    Nat.add_sub_cancel_left, found]

end Found

variable (src stride) in
theorem planeY_getElem? {w h row col : Nat} (down : row < h) (across : col < w) :
    (planeY src stride w h)[row * w + col]? = some (pixel src stride.toNat row col).y := by
  rw [planeY, List.getElem?_map, grid_getElem? down across]
  rfl

variable (src stride) in
theorem planeU_getElem? {w h i j : Nat} (down : i < h / 2) (across : j < w / 2) :
    (planeU src stride w h)[i * (w / 2) + j]? = some (block src stride.toNat i j).quarter.u := by
  rw [planeU, List.getElem?_map, grid_getElem? down across]
  rfl

variable (src stride) in
theorem planeV_getElem? {w h i j : Nat} (down : i < h / 2) (across : j < w / 2) :
    (planeV src stride w h)[i * (w / 2) + j]? = some (block src stride.toNat i j).quarter.v := by
  rw [planeV, List.getElem?_map, grid_getElem? down across]
  rfl

end Layouts

/-- Both conversions stay in bounds and fill one layout each, which agree. A luma byte is the
rounded value of its pixel with coefficients in steps of 1/256, a chroma byte that of its block's
truncated average; none is clamped, and none is more than one off the rounded exact value. -/
theorem conversions_agree (src : List UInt8) (width height stride : UInt32)
    (fits : Fits src width height stride) :
    ∃ i420 nv12, bgraToI420 src width height stride = some i420 ∧
      bgraToNv12 src width height stride = some nv12 ∧
      i420.length = width.toNat * height.toNat * 3 / 2 ∧
      nv12.length = width.toNat * height.toNat * 3 / 2 ∧
      nv12ToI420 nv12 width height = some i420 ∧
      (∀ row col, row < height.toNat → col < width.toNat →
        ∃ y, i420[row * width.toNat + col]? = some y ∧ Luma y (pixel src stride.toNat row col)) ∧
      ∀ i j, i < height.toNat / 2 → j < width.toNat / 2 →
        ∃ u v, i420[width.toNat * height.toNat + (i * (width.toNat / 2) + j)]? = some u ∧
          i420[width.toNat * height.toNat + width.toNat * height.toNat / 4 +
            (i * (width.toNat / 2) + j)]? = some v ∧
          Blue u (block src stride.toNat i j) ∧ Red v (block src stride.toNat i j) := by
  have luma := planeY_length src stride width.toNat height.toNat
  have blue := planeU_length src stride width.toNat height.toNat
  have red := planeV_length src stride width.toNat height.toNat
  refine ⟨_, _, fits.i420_eq, fits.nv12_eq, ?_, ?_, planes_back src width height stride, ?_, ?_⟩
  · rw [fits.whole, List.length_append, List.length_append, luma, blue, red]
    omega
  · rw [fits.whole, List.length_append, interleave_length _ _ (blue.trans red.symm), luma, blue,
      red]
    omega
  · intro row col down across
    have found := found_first _ (planeU src stride width.toNat height.toNat)
      (planeV src stride width.toNat height.toNat) (planeY_getElem? src stride down across)
    exact ⟨_, found, luma_y (within_pixel src stride.toNat row col)⟩
  · intro i j down across
    have first := found_second (planeY src stride width.toNat height.toNat) _
      (planeV src stride width.toNat height.toNat) (planeU_getElem? src stride down across)
    have second := found_third (planeY src stride width.toNat height.toNat)
      (planeU src stride width.toNat height.toNat) _ (planeV_getElem? src stride down across)
    rw [luma] at first second
    rw [blue, ← fits.quarters] at second
    exact ⟨_, _, first, second, blue_red (within_block src stride.toNat i j)⟩

/-- An image of two rows of two pixels fits. -/
theorem conversions_agree_small : ∃ i420 nv12,
    bgraToI420 (List.replicate 16 255) 2 2 8 = some i420 ∧
      bgraToNv12 (List.replicate 16 255) 2 2 8 = some nv12 ∧ i420.length = 6 ∧
      nv12ToI420 nv12 2 2 = some i420 := by
  obtain ⟨i420, nv12, first, second, sized, _, same, _⟩ :=
    conversions_agree (List.replicate 16 255) 2 2 8 ⟨rfl, rfl, by decide, fun _ => by decide⟩
  exact ⟨i420, nv12, first, second, sized, same⟩

/-- The luma of pure red is not the rounded exact value, nor is a chroma byte that of its block's
average when this is not whole. -/
theorem red_off :
    bgraToI420 [0, 0, 255, 255, 0, 0, 255, 255, 0, 0, 255, 255, 0, 0, 255, 255] 2 2 8 =
        some [82, 82, 82, 82, 90, 240] ∧
      round (bt601Y 255 0 0) = 81 ∧
      bgraToI420 [0, 0, 5, 255, 0, 0, 0, 255, 0, 0, 0, 255, 0, 0, 0, 255] 2 2 8 =
        some [17, 16, 16, 16, 128, 128] ∧
      round (fixedV (5 / 4) 0 0) = 129 ∧ round (bt601V (5 / 4) 0 0) = 129 := by
  refine ⟨by decide +kernel, ?_, by decide +kernel, ?_, ?_⟩
  · rw [round_eq, Int.floor_eq_iff]
    norm_num [bt601Y, bt601Grey]
  · rw [round_eq, Int.floor_eq_iff]
    norm_num [fixedV]
  · rw [round_eq, Int.floor_eq_iff]
    norm_num [bt601V, bt601Grey]

end Castr.Media
