import Castr.Lib.Text

/-! Text as its lines: what is written line by line, each with its end, is read back as those
lines. -/

namespace Castr.Lib.Text

def unlines (text : List (List Char)) : List Char := text.flatMap (fun line => line ++ ['\n'])

def Whole (line : List Char) : Prop := '\n' ∉ line ∧ '\r' ∉ line

theorem unlines_cons (line : List Char) (text : List (List Char)) :
    unlines (line :: text) = line ++ '\n' :: unlines text := by
  rw [unlines, List.flatMap_cons, List.append_assoc, List.singleton_append]
  rfl

theorem unlines_append (front back : List (List Char)) :
    unlines (front ++ back) = unlines front ++ unlines back := List.flatMap_append

theorem lines_newline (line rest : List Char) (whole : Whole line) :
    lines (line ++ '\n' :: rest) = line :: lines rest := by
  induction line with
  | nil => rfl
  | cons c line ih =>
      have later := ih ⟨fun inside => whole.1 (List.mem_cons_of_mem c inside),
        fun inside => whole.2 (List.mem_cons_of_mem c inside)⟩
      have notEnd : c ≠ '\n' := fun same => whole.1 (same ▸ List.mem_cons_self)
      have notReturn : c ≠ '\r' := fun same => whole.2 (same ▸ List.mem_cons_self)
      rw [List.cons_append, lines, later]
      · rfl
      · exact fun _ same => absurd same notReturn
      · exact fun same => absurd same notEnd

theorem lines_unlines (text : List (List Char)) (whole : ∀ line ∈ text, Whole line) :
    lines (unlines text) = text := by
  induction text with
  | nil => rfl
  | cons line text ih =>
      have others := ih (fun other member => whole other (List.mem_cons_of_mem line member))
      rw [unlines_cons, lines_newline line _ (whole line List.mem_cons_self), others]

theorem whole_extend (c : Char) (pieces : List (List Char)) (notEnd : c ≠ '\n')
    (notReturn : c ≠ '\r') (whole : ∀ line ∈ pieces, Whole line) :
    ∀ line ∈ extend c pieces, Whole line := by
  have front : ∀ piece, Whole piece → Whole (c :: piece) := by
    intro piece held
    constructor
    · exact List.not_mem_cons_of_ne_of_not_mem notEnd.symm held.1
    · exact List.not_mem_cons_of_ne_of_not_mem notReturn.symm held.2
  cases pieces with
  | nil => exact fun line member => List.mem_singleton.mp member ▸ front [] ⟨by simp, by simp⟩
  | cons piece pieces =>
      refine List.forall_mem_cons.mpr ⟨front piece (whole piece List.mem_cons_self), ?_⟩
      exact fun line member => whole line (List.mem_cons_of_mem piece member)

theorem lines_whole (text : List Char) (plain : '\r' ∉ text) :
    ∀ line ∈ lines text, Whole line := by
  fun_induction lines text with
  | case1 => simp
  | case2 rest => exact absurd List.mem_cons_self plain
  | case3 rest ih =>
      refine List.forall_mem_cons.mpr ⟨⟨by simp, by simp⟩, ih ?_⟩
      exact fun inside => plain (List.mem_cons_of_mem _ inside)
  | case4 c rest notBoth notEnd ih =>
      refine whole_extend c _ notEnd ?_ (ih ?_)
      · exact fun same => plain (same ▸ List.mem_cons_self)
      · exact fun inside => plain (List.mem_cons_of_mem _ inside)

theorem unlines_plain (text : List (List Char)) (whole : ∀ line ∈ text, Whole line) :
    '\r' ∉ unlines text := by
  intro inside
  obtain ⟨line, member, inside⟩ := List.mem_flatMap.mp inside
  rcases List.mem_append.mp inside with early | last
  · exact (whole line member).2 early
  · exact absurd (List.mem_singleton.mp last) (by decide)

theorem lines_piece (piece : List Char) (whole : Whole piece) (some : piece ≠ []) :
    lines piece = [piece] := by
  induction piece with
  | nil => exact absurd rfl some
  | cons c piece ih =>
      have rest : Whole piece := ⟨fun inside => whole.1 (List.mem_cons_of_mem c inside),
        fun inside => whole.2 (List.mem_cons_of_mem c inside)⟩
      have notEnd : c ≠ '\n' := fun same => whole.1 (same ▸ List.mem_cons_self)
      have notReturn : c ≠ '\r' := fun same => whole.2 (same ▸ List.mem_cons_self)
      have first : lines (c :: piece) = extend c (lines piece) := by
        rw [lines]
        · exact fun _ same => absurd same notReturn
        · exact fun same => absurd same notEnd
      rw [first]
      by_cases last : piece = []
      · rw [last]
        rfl
      · rw [ih rest last]
        rfl

theorem Whole.of_begun {piece line : List Char} (whole : Whole line) (within : piece <+: line) :
    Whole piece :=
  ⟨fun inside => whole.1 (within.subset inside), fun inside => whole.2 (within.subset inside)⟩

theorem lines_cut (text : List (List Char)) (whole : ∀ line ∈ text, Whole line) {cut : List Char}
    (within : cut <+: unlines text) :
    ∃ front, front <+: text ∧ (lines cut = front ∨
      ∃ line piece, front ++ [line] <+: text ∧ piece <+: line ∧ lines cut = front ++ [piece]) := by
  induction text generalizing cut with
  | nil =>
      rw [List.prefix_nil.mp within]
      exact ⟨[], List.prefix_rfl, .inl rfl⟩
  | cons line text ih =>
      have first := whole line List.mem_cons_self
      rw [unlines_cons] at within
      have short (early : cut <+: line) : ∃ front, front <+: line :: text ∧ (lines cut = front ∨
          ∃ next piece, front ++ [next] <+: line :: text ∧ piece <+: next ∧
            lines cut = front ++ [piece]) := by
        refine ⟨[], List.nil_prefix, ?_⟩
        by_cases none : cut = []
        · exact .inl (none ▸ rfl)
        · exact .inr ⟨line, cut, ⟨text, rfl⟩, early, lines_piece cut (first.of_begun early) none⟩
      rcases List.prefix_or_prefix_of_prefix within (List.prefix_append line _) with
        early | ⟨tail, rfl⟩
      · exact short early
      · rcases List.prefix_cons_iff.mp ((List.prefix_append_right_inj line).mp within) with
          rfl | ⟨rest, rfl, later⟩
        · exact short (by simp)
        · obtain ⟨front, begun, found⟩ :=
            ih (fun other member => whole other (List.mem_cons_of_mem line member)) later
          rw [lines_newline line rest first]
          refine ⟨line :: front, List.cons_prefix_cons.mpr ⟨rfl, begun⟩, ?_⟩
          rcases found with all | ⟨next, piece, inside, early, split⟩
          · exact .inl (by rw [all])
          · exact .inr ⟨next, piece, List.cons_prefix_cons.mpr ⟨rfl, inside⟩, early,
              by rw [split]; rfl⟩

end Castr.Lib.Text
