import Castr.Lib.Filling
import Castr.Lib.Slices
import Castr.V4l2.Pictures

/-! A picture copied out of the mapping by several threads: each writes bytes of its own, and what
they write together is the visible rectangle, whatever their number and in whatever order. The
arithmetic is that of a release build, where a machine word goes around. -/

namespace Castr.V4l2

open Castr.Lib.Filling Castr.Lib.Slices

def word (n : Nat) : Nat := n % 2 ^ 64

theorem word_small {n : Nat} (small : n < 2 ^ 64) : word n = n := Nat.mod_eq_of_lt small

/-- The rows of one thread, and where in the destination its own part begins. -/
structure Band where
  start : Nat
  rows : Nat
  offset : Nat
  deriving DecidableEq, Repr

/-- Where the loop that hands out the destination stands: `rest` bytes of it from `offset` on. -/
structure Cutting where
  first : Nat
  offset : Nat
  rest : Nat
  bands : List Band

def rowSrc (stride : Nat) (y uv : Nat × Nat) (r : Nat) : Nat :=
  if r < y.2 then word (y.1 + r * stride) else word (uv.1 + (r - y.2) * stride)

/-- The next thread's part; splitting off more than there is panics. -/
def Cutting.turn (rows per w : Nat) (s : Cutting) : Option (Cutting ⊕ List Band) :=
  if s.first < rows then
    let n := min per (rows - s.first)
    if word (n * w) ≤ s.rest then
      some (.inl ⟨s.first + n, s.offset + word (n * w), s.rest - word (n * w),
        s.bands ++ [⟨s.first, n, s.offset⟩]⟩)
    else none
  else some (.inr s.bands)

/-- What each thread is to copy; an assertion that does not hold panics. -/
def copyBands (dstLen srcLen stride w : Nat) (y uv : Nat × Nat) (threads : Nat) :
    Option (List Band) :=
  let rows := y.2 + uv.2
  if dstLen = word (rows * w) ∧ (y.2 = 0 ∨ word (y.1 + (y.2 - 1) * stride + w) ≤ srcLen) ∧
      (uv.2 = 0 ∨ word (uv.1 + (uv.2 - 1) * stride + w) ≤ srcLen) then
    let per := (rows + (max threads 1 - 1)) / max threads 1
    loop (Cutting.turn rows per w) (rows + 1) ⟨0, 0, dstLen, []⟩
  else none

def Band.writes (stride w : Nat) (y uv : Nat × Nat) (band : Band) : List (Nat × Nat) :=
  (List.range band.rows).flatMap (fun i => (List.range w).map (fun j =>
    (band.offset + i * w + j, rowSrc stride y uv (band.start + i) + j)))

/-- One byte is copied; what was not written is not initialised. -/
def copyByte (src : Nat → UInt8) (dst : List (Option UInt8)) (write : Nat × Nat) :
    List (Option UInt8) := dst.set write.1 (some (src write.2))

/-- The check of `take_capture`, against the length of the mapping. -/
def checked (stride codedH top left w h len : Nat) : Bool :=
  word (stride * codedH * 3) / 2 ≤ len ∧ top + h ≤ codedH ∧ left + w ≤ stride

def lumaRows (stride top left h : Nat) : Nat × Nat := (word (top * stride + left), h)

def chromaRows (stride codedH top left h : Nat) : Nat × Nat :=
  (word (stride * codedH + top / 2 * stride + left), h / 2)

def crop (src : Nat → UInt8) (stride codedH top left w h : Nat) : List UInt8 :=
  (List.range h).flatMap (fun row => (List.range w).map (fun column =>
      src ((top + row) * stride + left + column))) ++
    (List.range (h / 2)).flatMap (fun row => (List.range w).map (fun column =>
      src (stride * codedH + (top / 2 + row) * stride + left + column)))

/-- The copy of `take_capture` panics nowhere, reads only inside the mapping, writes each byte of
its destination once, and leaves the crop there, in whatever order the threads go. -/
def Copies (stride codedH top left w h len threads : Nat) : Prop :=
  ∃ bands, copyBands (word (w * h + w * (h / 2))) len stride w (lumaRows stride top left h)
      (chromaRows stride codedH top left h) threads = some bands ∧
    let writes := bands.flatMap (Band.writes stride w (lumaRows stride top left h)
      (chromaRows stride codedH top left h))
    (∀ write ∈ writes, write.2 < len) ∧
      (writes.map Prod.fst).Perm (List.range (w * h + w * (h / 2))) ∧
      ∀ (src : Nat → UInt8) (order : List (Nat × Nat)), order.Perm writes →
        order.foldl (copyByte src) (List.replicate (w * h + w * (h / 2)) none) =
          (crop src stride codedH top left w h).map some

section Rows

variable (stride w : Nat) (y uv : Nat × Nat)

def rowWrites (r : Nat) : List (Nat × Nat) :=
  (List.range w).map (fun j => (r * w + j, rowSrc stride y uv r + j))

theorem band_writes (first n : Nat) :
    Band.writes stride w y uv ⟨first, n, first * w⟩ =
      (List.range n).flatMap (fun i => rowWrites stride w y uv (first + i)) := by
  unfold Band.writes rowWrites
  refine List.flatMap_congr (fun i _ => List.map_congr_left (fun j _ => ?_))
  rw [Nat.add_mul]

/-- Where the loop has handed out the first rows, and all that is left belongs to the others. -/
structure Cutting.Fair (rows : Nat) (s : Cutting) : Prop where
  first : s.first ≤ rows
  offset : s.offset = s.first * w
  rest : s.rest = (rows - s.first) * w
  bands : s.bands.flatMap (Band.writes stride w y uv) =
    (List.range s.first).flatMap (rowWrites stride w y uv)

theorem cutting_ends (rows per : Nat) (filled : rows ≠ 0 → per ≠ 0) (small : rows * w < 2 ^ 64) :
    ∃ bands, loop (Cutting.turn rows per w) (rows + 1) ⟨0, 0, rows * w, []⟩ = some bands ∧
      bands.flatMap (Band.writes stride w y uv) =
        (List.range rows).flatMap (rowWrites stride w y uv) := by
  refine loop_spec (Cutting.turn rows per w) (Cutting.Fair stride w y uv rows)
    (fun s => rows - s.first) _ ?_ _ _ ⟨Nat.zero_le _, by simp, by simp, rfl⟩ (by simp)
  intro s fair
  unfold Cutting.turn
  by_cases more : s.first < rows
  · right
    have turn := filled (by omega)
    have part : min per (rows - s.first) * w ≤ rows * w :=
      Nat.mul_le_mul_right w (Nat.le_trans (Nat.min_le_right _ _) (Nat.sub_le _ _))
    have kept := word_small (Nat.lt_of_le_of_lt part small)
    have fits : min per (rows - s.first) * w ≤ s.rest := by
      rw [fair.rest]
      exact Nat.mul_le_mul_right w (Nat.min_le_right _ _)
    rw [if_pos more]
    dsimp only
    rw [kept, if_pos fits]
    generalize taken : min per (rows - s.first) = n at fits ⊢
    refine ⟨_, rfl, ⟨by dsimp only; omega, ?_, ?_, ?_⟩, by dsimp only; omega⟩
    · rw [fair.offset, Nat.add_mul]
    · dsimp only
      rw [fair.rest, ← Nat.sub_mul, Nat.sub_add_eq]
    · dsimp only
      rw [List.flatMap_append, fair.bands, List.flatMap_singleton, fair.offset, band_writes,
        List.range_add, List.flatMap_append, List.flatMap_map]
  · left
    have all : s.first = rows := by
      have := fair.first
      omega
    rw [if_neg more]
    exact ⟨s.bands, rfl, all ▸ fair.bands⟩

end Rows

section Copying

variable {stride w len : Nat} {y uv : Nat × Nat}

structure Inside (stride w : Nat) (y uv : Nat × Nat) (len : Nat) : Prop where
  luma : y.2 = 0 ∨ y.1 + (y.2 - 1) * stride + w ≤ len
  chroma : uv.2 = 0 ∨ uv.1 + (uv.2 - 1) * stride + w ≤ len
  small : len < 2 ^ 64

theorem Inside.luma_row (inside : Inside stride w y uv len) {r : Nat} (row : r < y.2) :
    rowSrc stride y uv r = y.1 + r * stride ∧ y.1 + r * stride + w ≤ len := by
  have last := inside.luma.resolve_left (by omega)
  have before : r * stride ≤ (y.2 - 1) * stride := Nat.mul_le_mul_right stride (by omega)
  have := inside.small
  rw [rowSrc, if_pos row, word_small (by omega)]
  exact ⟨rfl, by omega⟩

theorem Inside.chroma_row (inside : Inside stride w y uv len) {r : Nat} (row : r < uv.2) :
    rowSrc stride y uv (y.2 + r) = uv.1 + r * stride ∧ uv.1 + r * stride + w ≤ len := by
  have last := inside.chroma.resolve_left (by omega)
  have before : r * stride ≤ (uv.2 - 1) * stride := Nat.mul_le_mul_right stride (by omega)
  have := inside.small
  rw [rowSrc, if_neg (by omega), Nat.add_sub_cancel_left, word_small (by omega)]
  exact ⟨rfl, by omega⟩

theorem Inside.copyBands (inside : Inside stride w y uv len) {rows : Nat}
    (both : y.2 + uv.2 = rows) (total : rows * w < 2 ^ 64) (threads : Nat) :
    ∃ bands, copyBands (rows * w) len stride w y uv threads = some bands ∧
      bands.flatMap (Band.writes stride w y uv) =
        (List.range rows).flatMap (rowWrites stride w y uv) := by
  have := inside.small
  unfold V4l2.copyBands
  dsimp only
  rw [if_pos, both]
  · refine cutting_ends stride w y uv rows _ ?_ total
    intro some none
    rw [Nat.div_eq_zero_iff] at none
    omega
  · refine ⟨by rw [both, word_small total], ?_, ?_⟩
    · refine inside.luma.imp_right (fun fits => ?_)
      rwa [word_small (by omega)]
    · refine inside.chroma.imp_right (fun fits => ?_)
      rwa [word_small (by omega)]

theorem Inside.row (inside : Inside stride w y uv len) {r j : Nat} (row : r < y.2 + uv.2)
    (column : j < w) : rowSrc stride y uv r + j < len := by
  by_cases luma : r < y.2
  · obtain ⟨place, fits⟩ := inside.luma_row luma
    omega
  · obtain ⟨place, fits⟩ := inside.chroma_row (r := r - y.2) (by omega)
    rw [Nat.add_sub_cancel' (by omega)] at place
    omega

def sourceOf (stride w : Nat) (y uv : Nat × Nat) (d : Nat) : Nat :=
  rowSrc stride y uv (d / w) + d % w

theorem sourceOf_row (y uv : Nat × Nat) (r : Nat) {j : Nat} (small : j < w) :
    sourceOf stride w y uv (r * w + j) = rowSrc stride y uv r + j := by
  have row : (r * w + j) / w = r := by
    rw [Nat.mul_comm, Nat.mul_add_div (by omega), Nat.div_eq_of_lt small, Nat.add_zero]
  have column : (r * w + j) % w = j := by
    rw [Nat.mul_comm, Nat.mul_add_mod, Nat.mod_eq_of_lt small]
  rw [sourceOf, row, column]

theorem rows_source (y uv : Nat × Nat) (n : Nat) :
    (List.range n).flatMap (rowWrites stride w y uv) =
      (List.range (n * w)).map (fun d => (d, sourceOf stride w y uv d)) := by
  rw [← range_rows, List.map_flatMap]
  refine List.flatMap_congr (fun r _ => ?_)
  rw [List.map_map]
  refine List.map_congr_left (fun j inside => ?_)
  rw [Function.comp_apply, sourceOf_row y uv r (List.mem_range.mp inside)]

theorem copies_get (src : Nat → UInt8) (source : Nat → Nat) (order : List (Nat × Nat))
    (from_ : ∀ write ∈ order, write.2 = source write.1) (dst : List (Option UInt8)) (k : Nat)
    (inside : k < dst.length) :
    (order.foldl (copyByte src) dst)[k]? =
      if k ∈ order.map Prod.fst then some (some (src (source k))) else dst[k]? := by
  induction order generalizing dst with
  | nil => rfl
  | cons write order ih =>
      have later := ih (fun other behind => from_ other (List.mem_cons_of_mem write behind))
        (copyByte src dst write) (by rwa [copyByte, List.length_set])
      rw [List.foldl_cons, later, copyByte, List.getElem?_set, List.map_cons]
      by_cases same : write.1 = k
      · have byte := from_ write List.mem_cons_self
        rw [if_pos same, same, if_pos inside, byte, same]
        simp
      · have other : k ≠ write.1 := Ne.symm same
        simp only [List.mem_cons, other, false_or, if_neg same]

theorem copies_length (src : Nat → UInt8) (order : List (Nat × Nat))
    (dst : List (Option UInt8)) : (order.foldl (copyByte src) dst).length = dst.length := by
  induction order generalizing dst with
  | nil => rfl
  | cons write order ih => exact (ih _).trans List.length_set

theorem copies_source (src : Nat → UInt8) (rows : Nat) (order : List (Nat × Nat))
    (perm : order.Perm ((List.range rows).flatMap (rowWrites stride w y uv))) :
    order.foldl (copyByte src) (List.replicate (rows * w) none) =
      (List.range (rows * w)).map (fun d => some (src (sourceOf stride w y uv d))) := by
  rw [rows_source] at perm
  have source : ∀ write ∈ order, write.2 = sourceOf stride w y uv write.1 := by
    intro write inside
    obtain ⟨d, _, rfl⟩ := List.mem_map.mp (perm.mem_iff.mp inside)
    rfl
  have places : (order.map Prod.fst).Perm (List.range (rows * w)) := by
    have firsts := perm.map Prod.fst
    rwa [List.map_map, show Prod.fst ∘ (fun d => (d, sourceOf stride w y uv d)) = id from rfl,
      List.map_id] at firsts
  refine List.ext_getElem? (fun k => ?_)
  by_cases inside : k < rows * w
  · rw [copies_get src _ order source _ k (by rwa [List.length_replicate]),
      if_pos (places.mem_iff.mpr (List.mem_range.mpr inside)), List.getElem?_map,
      List.getElem?_range inside]
    rfl
  · rw [List.getElem?_eq_none, List.getElem?_eq_none]
    · rw [List.length_map, List.length_range]
      omega
    · rw [copies_length, List.length_replicate]
      omega

theorem Inside.sources (inside : Inside stride w y uv len) (src : Nat → UInt8) :
    (List.range ((y.2 + uv.2) * w)).map (fun d => src (sourceOf stride w y uv d)) =
      (List.range y.2).flatMap (fun r => (List.range w).map (fun j =>
          src (y.1 + r * stride + j))) ++
        (List.range uv.2).flatMap (fun r => (List.range w).map (fun j =>
          src (uv.1 + r * stride + j))) := by
  rw [← range_rows, List.map_flatMap, List.range_add, List.flatMap_append, List.flatMap_map]
  congr 1
  · refine List.flatMap_congr (fun r row => ?_)
    rw [List.map_map]
    refine List.map_congr_left (fun j column => ?_)
    rw [Function.comp_apply, sourceOf_row _ _ r (List.mem_range.mp column),
      (inside.luma_row (List.mem_range.mp row)).1]
  · refine List.flatMap_congr (fun r row => ?_)
    rw [List.map_map]
    refine List.map_congr_left (fun j column => ?_)
    rw [Function.comp_apply, sourceOf_row _ _ (y.2 + r) (List.mem_range.mp column),
      (inside.chroma_row (List.mem_range.mp row)).1]

end Copying

section Taking

variable {stride codedH top left w h len : Nat}

/-- Rows inside the mapping, none of whose places went around, are copied. -/
theorem Inside.copies
    (inside : Inside stride w (lumaRows stride top left h) (chromaRows stride codedH top left h)
      len)
    (luma : h ≠ 0 → (lumaRows stride top left h).1 = top * stride + left)
    (chroma : h / 2 ≠ 0 →
      (chromaRows stride codedH top left h).1 = stride * codedH + top / 2 * stride + left)
    (small : w * h + w * (h / 2) < 2 ^ 64) (threads : Nat) :
    Copies stride codedH top left w h len threads := by
  have total : w * h + w * (h / 2) = (h + h / 2) * w := by
    rw [← Nat.mul_add, Nat.mul_comm]
  obtain ⟨bands, cut, rows⟩ := inside.copyBands rfl (total ▸ small) threads
  refine ⟨bands, ?_, ?_, ?_, ?_⟩
  · rw [word_small small, total]
    exact cut
  · intro write member
    rw [rows] at member
    obtain ⟨r, row, member⟩ := List.mem_flatMap.mp member
    obtain ⟨j, column, rfl⟩ := List.mem_map.mp member
    exact inside.row (List.mem_range.mp row) (List.mem_range.mp column)
  · rw [rows, rows_source, List.map_map, total,
      show Prod.fst ∘ (fun d => (d, sourceOf stride w (lumaRows stride top left h)
        (chromaRows stride codedH top left h) d)) = id from rfl, List.map_id]
    exact List.Perm.refl _
  · intro src order perm
    rw [rows] at perm
    have filled := copies_source src _ order perm
    have sources := congrArg (List.map some) (inside.sources src)
    rw [List.map_map] at sources
    rw [total]
    refine (filled.trans sources).trans (congrArg (List.map some) ?_)
    unfold crop
    congr 1
    · refine List.flatMap_congr (fun r row => List.map_congr_left (fun j _ => ?_))
      rw [luma (Nat.ne_of_gt (Nat.zero_lt_of_lt (List.mem_range.mp row))), Nat.add_mul]
      congr 1
      omega
    · refine List.flatMap_congr (fun r row => List.map_congr_left (fun j _ => ?_))
      rw [chroma (Nat.ne_of_gt (Nat.zero_lt_of_lt (List.mem_range.mp row))), Nat.add_mul]
      congr 1
      omega

theorem checked_word : checked stride codedH top left w h len = true ↔
    word (stride * codedH * 3) / 2 ≤ len ∧ top + h ≤ codedH ∧ left + w ≤ stride :=
  decide_eq_true_iff

theorem luma_end (rows : top + h ≤ codedH) (columns : left + w ≤ stride) (more : h ≠ 0) :
    top * stride + left + (h - 1) * stride + w ≤ stride * codedH := by
  calc
    _ ≤ top * stride + (h - 1) * stride + 1 * stride := by omega
    _ = (top + (h - 1) + 1) * stride := by rw [Nat.add_mul, Nat.add_mul]
    _ ≤ codedH * stride := Nat.mul_le_mul_right stride (by omega)
    _ = stride * codedH := Nat.mul_comm codedH stride

theorem chroma_end (stride codedH top left w h : Nat) :
    stride * codedH + top / 2 * stride + left + (h / 2 - 1) * stride + w ≤
      stride * codedH + (top * stride + left + (h - 1) * stride + w) := by
  have above : top / 2 * stride ≤ top * stride := Nat.mul_le_mul_right stride (by omega)
  have below : (h / 2 - 1) * stride ≤ (h - 1) * stride :=
    Nat.mul_le_mul_right stride (by omega)
  omega

theorem area_lt (stride codedH : UInt32) :
    stride.toNat * codedH.toNat + 2 ^ 32 < 2 ^ 64 := by
  have area : stride.toNat * codedH.toNat ≤ (2 ^ 32 - 1) * (2 ^ 32 - 1) :=
    Nat.mul_le_mul (Nat.le_sub_one_of_lt stride.toNat_lt) (Nat.le_sub_one_of_lt codedH.toNat_lt)
  omega

theorem total_le (rows : top + h ≤ codedH) (columns : left + w ≤ stride) :
    2 * (w * h + w * (h / 2)) ≤ stride * codedH * 3 := by
  have luma : w * h ≤ stride * codedH := Nat.mul_le_mul (by omega) (by omega)
  have chroma : 2 * (w * (h / 2)) ≤ w * h := by
    rw [Nat.mul_left_comm]
    exact Nat.mul_le_mul_left w (Nat.mul_div_le h 2)
  omega

end Taking

section Reported

variable (stride codedH w h len : UInt32) (top left : Nat)

theorem inside_of_copies
    (pass : checked stride.toNat codedH.toNat top left w.toNat h.toNat len.toNat)
    (copies : Copies stride.toNat codedH.toNat top left w.toNat h.toNat len.toNat 1) :
    (h.toNat ≠ 0 → top * stride.toNat + left + (h.toNat - 1) * stride.toNat + w.toNat ≤
      len.toNat) ∧
    (h.toNat / 2 ≠ 0 → stride.toNat * codedH.toNat ≤ len.toNat) := by
  obtain ⟨_, rows, columns⟩ := checked_word.mp pass
  obtain ⟨bands, cut, _⟩ := copies
  have area := area_lt stride codedH
  have mapped := len.toNat_lt
  rw [copyBands] at cut
  dsimp only at cut
  split at cut
  · rename_i asserted
    have luma : h.toNat ≠ 0 → top * stride.toNat + left + (h.toNat - 1) * stride.toNat +
        w.toNat ≤ len.toNat := by
      intro more
      have last := asserted.2.1.resolve_left more
      have bound := luma_end rows columns more
      dsimp only [lumaRows] at last
      rwa [word_small (n := top * stride.toNat + left) (by omega), word_small (by omega)] at last
    refine ⟨luma, fun more => ?_⟩
    have last := asserted.2.2.resolve_left more
    have bound := chroma_end stride.toNat codedH.toNat top left w.toNat h.toNat
    have fits := luma (by omega)
    dsimp only [chromaRows] at last
    rw [word_small (n := stride.toNat * codedH.toNat + top / 2 * stride.toNat + left) (by omega),
      word_small (by omega)] at last
    omega
  · exact absurd cut (by simp)

/-- A geometry that does not go around in the check is copied, and so is a picture without rows, or
with one that lies inside the mapping. Every other one that passes trips an assertion. -/
theorem copies_iff
    (pass : checked stride.toNat codedH.toNat top left w.toNat h.toNat len.toNat) :
    (∀ threads, Copies stride.toNat codedH.toNat top left w.toNat h.toNat len.toNat threads) ↔
      stride.toNat * codedH.toNat * 3 < 2 ^ 64 ∨ h = 0 ∨
        (h = 1 ∧ top * stride.toNat + left + w.toNat ≤ len.toNat) := by
  have area := area_lt stride codedH
  have mapped := len.toNat_lt
  have wide := w.toNat_lt
  have ⟨coded, rows, columns⟩ := checked_word.mp pass
  constructor
  · intro copies
    obtain ⟨luma, chroma⟩ := inside_of_copies stride codedH w h len top left pass (copies 1)
    by_cases two : h.toNat / 2 = 0
    · right
      by_cases one : h.toNat = 0
      · exact .inl (UInt32.toNat_inj.mp one)
      · have single : h.toNat = 1 := by omega
        have fits := luma one
        rw [single, Nat.sub_self, Nat.zero_mul, Nat.add_zero] at fits
        exact .inr ⟨UInt32.toNat_inj.mp single, fits⟩
    · have := chroma two
      left
      omega
  · rintro (small | rfl | ⟨rfl, fits⟩) threads
    · rw [word_small small] at coded
      have fits := rows_inside _ _ top left w.toNat h.toNat _ coded rows columns
      have total := total_le rows columns
      have luma : h.toNat ≠ 0 → (lumaRows stride.toNat top left h.toNat).1 =
          top * stride.toNat + left := by
        intro more
        have := fits.1.resolve_left more
        exact word_small (by omega)
      have chroma : h.toNat / 2 ≠ 0 →
          (chromaRows stride.toNat codedH.toNat top left h.toNat).1 =
            stride.toNat * codedH.toNat + top / 2 * stride.toNat + left := by
        intro more
        have := fits.2.resolve_left more
        exact word_small (by omega)
      refine Inside.copies ⟨?_, ?_, by omega⟩ luma chroma (by omega) threads
      · by_cases more : h.toNat = 0
        · exact .inl more
        · rw [luma more]
          exact fits.1
      · by_cases more : h.toNat / 2 = 0
        · exact .inl more
        · rw [chroma more]
          exact fits.2
    · refine Inside.copies ⟨.inl rfl, .inl rfl, by omega⟩ (absurd rfl) (absurd rfl) ?_ threads
      change w.toNat * 0 + w.toNat * 0 < 2 ^ 64
      omega
    · have luma : (lumaRows stride.toNat top left 1).1 = top * stride.toNat + left :=
        word_small (by omega)
      refine Inside.copies ⟨.inr ?_, .inl rfl, by omega⟩ (fun _ => luma) (absurd rfl) ?_ threads
      · change (lumaRows stride.toNat top left 1).1 + (1 - 1) * stride.toNat + w.toNat ≤ len.toNat
        rw [luma]
        omega
      · change w.toNat * 1 + w.toNat * 0 < 2 ^ 64
        omega

/-- A device that reports 2147549184 bytes a row and 2863224152 rows passes the check with a
mapping of 1920x1080, and trips the first assertion. -/
theorem copies_wrapped :
    checked 2147549184 2863224152 0 0 1920 1080 3110400 ∧
      ∀ threads, ¬Copies 2147549184 2863224152 0 0 1920 1080 3110400 threads := by
  refine ⟨by decide, fun threads copies => ?_⟩
  obtain ⟨bands, cut, _⟩ := copies
  rw [copyBands, if_neg (by decide)] at cut
  exact absurd cut (by simp)

theorem copies_corner : Copies 8 4 1 2 5 3 48 2 :=
  (copies_iff 8 4 5 3 48 1 2 (by decide)).mpr (.inl (by decide)) 2

end Reported

end Castr.V4l2
