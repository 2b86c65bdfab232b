import Castr.Lib.Lines

/-! The supplicant's working configuration: the deployed settings with `update_config=1`, and the
network blocks that the supplicant has stored, which are carried from one template to the next. -/

namespace Castr.Miracast.SupplicantConf

open Castr.Lib.Text

abbrev Line := List Char

def updateConfig : Line := "update_config=".toList
def writable : Line := "update_config=1".toList
def network : Line := "network=".toList

def updates (line : Line) : Bool := updateConfig.isPrefixOf (trimStart line)

/-- Whether a line opens a network block, and whether it closes one. -/
def opens (line : Line) : Bool := network.isPrefixOf (trimStart line)

def closes (line : Line) : Bool := trim line = ['}']

/-- What has been written, and whether `update_config` has been seen. -/
structure Deriving where
  out : List Char
  seen : Bool

def Deriving.push (s : Deriving) (line : Line) : Deriving :=
  if updates line then ⟨s.out ++ (writable ++ ['\n']), true⟩
  else ⟨s.out ++ line ++ ['\n'], s.seen⟩

def fromTemplate (template : List Char) : List Char :=
  let s := (lines template).foldl Deriving.push ⟨[], false⟩
  if s.seen then s.out else s.out ++ (writable ++ ['\n'])

structure Collecting where
  blocks : List (List Char)
  current : Option (List Char)

def Collecting.push (s : Collecting) (line : Line) : Collecting :=
  match s.current with
  | none => if opens line then { s with current := some (line ++ ['\n']) } else s
  | some buf =>
      let buf := buf ++ line ++ ['\n']
      if closes line then ⟨s.blocks ++ [buf], none⟩ else { s with current := some buf }

def networkBlocks (conf : List Char) : List (List Char) :=
  ((lines conf).foldl Collecting.push ⟨[], none⟩).blocks

def append (out block : List Char) : List Char :=
  (if out.getLast? = some '\n' then out else out ++ ['\n']) ++ block

def reseed (template existing : List Char) : List Char :=
  (networkBlocks existing).foldl append (fromTemplate template)

section Deriving

def derive (line : Line) : Line := if updates line then writable else line

def settings (template : List Line) : List Line :=
  template.map derive ++ if template.any updates then [] else [writable]

theorem derived (template : List Line) (s : Deriving) :
    template.foldl Deriving.push s =
      ⟨s.out ++ unlines (template.map derive), s.seen || template.any updates⟩ := by
  induction template generalizing s with
  | nil => simp [unlines]
  | cons line template ih =>
      rw [List.foldl_cons, ih, List.map_cons, List.any_cons, unlines_cons]
      by_cases update : updates line = true <;> simp [Deriving.push, derive, update]

theorem fromTemplate_eq (template : List Char) :
    fromTemplate template = unlines (settings (lines template)) := by
  unfold fromTemplate settings
  rw [derived]
  dsimp only
  cases (lines template).any updates with
  | true => simp
  | false => simp [unlines]

theorem writable_updates : updates writable = true := by decide

theorem writable_opens : opens writable = false := by decide

theorem writable_whole : Whole writable := ⟨by decide, by decide⟩

theorem derive_updates (line : Line) : updates (derive line) = updates line := by
  unfold derive
  split
  · rename_i update
    rw [writable_updates, update]
  · rfl

theorem derive_derive (line : Line) : derive (derive line) = derive line := by
  rw [derive, derive_updates, derive]
  split <;> rfl

theorem settings_any (template : List Line) : (settings template).any updates = true := by
  unfold settings
  cases any : template.any updates with
  | true =>
      obtain ⟨line, member, update⟩ := List.any_eq_true.mp any
      rw [List.any_append, List.any_map, Bool.or_eq_true_iff]
      exact .inl (List.any_eq_true.mpr ⟨line, member, (derive_updates line).trans update⟩)
  | false => simp [writable_updates]

theorem settings_settings (template : List Line) :
    settings (settings template) = settings template := by
  have kept : (settings template).map derive = settings template := by
    unfold settings
    rw [List.map_append, List.map_map]
    congr 1
    · exact List.map_congr_left (fun line _ => derive_derive line)
    · split <;> rfl
  rw [settings, settings_any, kept, if_pos rfl, List.append_nil]

theorem settings_mem {template : List Line} {line : Line} (member : line ∈ settings template) :
    line = writable ∨ (line ∈ template ∧ updates line = false) := by
  rcases List.mem_append.mp member with early | late
  · obtain ⟨origin, inside, rfl⟩ := List.mem_map.mp early
    unfold derive
    split
    · exact .inl rfl
    · rename_i other
      exact .inr ⟨inside, by simpa using other⟩
  · split at late
    · exact absurd late List.not_mem_nil
    · exact .inl (List.mem_singleton.mp late)

theorem settings_whole {template : List Line} (whole : ∀ line ∈ template, Whole line) :
    ∀ line ∈ settings template, Whole line := by
  intro line member
  rcases settings_mem member with rfl | ⟨kept, _⟩
  · exact writable_whole
  · exact whole line kept

theorem derive_others (template : List Line) :
    (template.map derive).filter (fun line => !updates line) =
      template.filter (fun line => !updates line) := by
  induction template with
  | nil => rfl
  | cons line template ih =>
      rw [List.map_cons, List.filter_cons, List.filter_cons, derive_updates, ih]
      by_cases update : updates line = true
      · rw [update]
        rfl
      · rw [derive, if_neg update]

theorem settings_others (template : List Line) :
    (settings template).filter (fun line => !updates line) =
      template.filter (fun line => !updates line) := by
  have late : (if template.any updates then [] else [writable]).filter
      (fun line => !updates line) = [] := by
    split <;> rfl
  rw [settings, List.filter_append, late, List.append_nil, derive_others]

end Deriving

section Blocks

def blocksOf : Option (List Line) → List Line → List (List Line)
  | _, [] => []
  | none, line :: rest =>
      if opens line then blocksOf (some [line]) rest else blocksOf none rest
  | some block, line :: rest =>
      if closes line then (block ++ [line]) :: blocksOf none rest
      else blocksOf (some (block ++ [line])) rest

structure Opened (block : List Line) : Prop where
  opening : ∃ line inner, block = line :: inner ∧ opens line = true ∧
    ∀ other ∈ inner, closes other = false

structure Block (block : List Line) : Prop where
  closed : ∃ body line, block = body ++ [line] ∧ Opened body ∧ closes line = true

theorem collected (text : List Line) (s : Collecting) (block : Option (List Line))
    (current : s.current = block.map unlines) :
    (text.foldl Collecting.push s).blocks = s.blocks ++ (blocksOf block text).map unlines := by
  induction text generalizing s block with
  | nil => cases block <;> simp [blocksOf]
  | cons line text ih =>
      rw [List.foldl_cons]
      cases block with
      | none =>
          rw [Option.map_none] at current
          by_cases opening : opens line = true
          · rw [ih _ (some [line]) (by simp [Collecting.push, current, opening, unlines]),
              blocksOf, if_pos opening]
            simp [Collecting.push, current, opening]
          · rw [ih _ none (by simp [Collecting.push, current, opening]), blocksOf,
              if_neg opening]
            simp [Collecting.push, current, opening]
      | some block =>
          rw [Option.map_some] at current
          by_cases closing : closes line = true
          · rw [ih _ none (by simp [Collecting.push, current, closing]), blocksOf,
              if_pos closing]
            simp [Collecting.push, current, closing, unlines]
          · rw [ih _ (some (block ++ [line]))
              (by simp [Collecting.push, current, closing, unlines]), blocksOf, if_neg closing]
            simp [Collecting.push, current, closing]

theorem networkBlocks_eq (conf : List Char) :
    networkBlocks conf = (blocksOf none (lines conf)).map unlines :=
  collected (lines conf) ⟨[], none⟩ none rfl

theorem opened_start {line : Line} (opening : opens line = true) : Opened [line] :=
  ⟨line, [], rfl, opening, by simp⟩

theorem Opened.more {block : List Line} (opened : Opened block) {line : Line}
    (inner : closes line = false) : Opened (block ++ [line]) := by
  obtain ⟨first, others, rfl, opening, none⟩ := opened.opening
  refine ⟨first, others ++ [line], rfl, opening, fun other member => ?_⟩
  rcases List.mem_append.mp member with early | late
  · exact none other early
  · exact List.mem_singleton.mp late ▸ inner

theorem blocksOf_block (text : List Line) (held : Option (List Line))
    (opened : ∀ block ∈ held, Opened block) :
    ∀ block ∈ blocksOf held text, Block block := by
  induction text generalizing held with
  | nil => cases held <;> simp [blocksOf]
  | cons line text ih =>
      cases held with
      | none =>
          rw [blocksOf]
          split
          · rename_i opening
            exact ih _ (fun block same => Option.some.inj same ▸ opened_start opening)
          · exact ih _ (by simp)
      | some block =>
          have before := opened block rfl
          rw [blocksOf]
          split
          · rename_i closing
            refine List.forall_mem_cons.mpr ⟨⟨block, line, rfl, before, closing⟩, ?_⟩
            exact ih _ (by simp)
          · rename_i inner
            refine ih _ (fun longer same => Option.some.inj same ▸ before.more ?_)
            simpa using inner

theorem blocksOf_mem (text : List Line) (held : Option (List Line)) :
    ∀ block ∈ blocksOf held text, ∀ line ∈ block, line ∈ held.getD [] ∨ line ∈ text := by
  induction text generalizing held with
  | nil => cases held <;> simp [blocksOf]
  | cons first text ih =>
      intro block found line member
      cases held with
      | none =>
          rw [blocksOf] at found
          split at found
          · have := ih _ block found line member
            simp only [Option.getD_some, List.mem_singleton] at this
            exact .inr (List.mem_cons.mpr this)
          · exact (ih _ block found line member).imp_right (List.mem_cons_of_mem first)
      | some body =>
          have later : line ∈ body ++ [first] →
              line ∈ (some body).getD [] ∨ line ∈ first :: text := by
            intro inside
            rcases List.mem_append.mp inside with early | late
            · exact .inl early
            · exact .inr (List.mem_singleton.mp late ▸ List.mem_cons_self)
          rw [blocksOf] at found
          split at found
          · rcases List.mem_cons.mp found with rfl | found
            · exact later member
            · exact .inr (List.mem_cons_of_mem first
                ((ih _ block found line member).resolve_left (by simp)))
          · rcases ih _ block found line member with early | late
            · exact later early
            · exact .inr (List.mem_cons_of_mem first late)

theorem blocksOf_free (front rest : List Line) (free : ∀ line ∈ front, opens line = false) :
    blocksOf none (front ++ rest) = blocksOf none rest := by
  induction front with
  | nil => rfl
  | cons line front ih =>
      have first := free line List.mem_cons_self
      rw [List.cons_append, blocksOf, first]
      exact ih (fun other member => free other (List.mem_cons_of_mem line member))

theorem blocksOf_inner (inner rest block : List Line)
    (none : ∀ line ∈ inner, closes line = false) :
    blocksOf (some block) (inner ++ rest) = blocksOf (some (block ++ inner)) rest := by
  induction inner generalizing block with
  | nil => rw [List.nil_append, List.append_nil]
  | cons line inner ih =>
      have first := none line List.mem_cons_self
      have others := ih (block ++ [line])
        (fun other member => none other (List.mem_cons_of_mem line member))
      rw [List.cons_append, blocksOf, first]
      rw [List.append_assoc, List.singleton_append] at others
      exact others

theorem blocksOf_append {block : List Line} (whole : Block block) (rest : List Line) :
    blocksOf none (block ++ rest) = block :: blocksOf none rest := by
  obtain ⟨body, last, rfl, ⟨line, inner, rfl, opening, free⟩, closing⟩ := whole.closed
  rw [List.append_assoc, List.cons_append, blocksOf, if_pos opening, blocksOf_inner _ _ _ free,
    List.singleton_append, List.singleton_append, blocksOf, if_pos closing]

theorem blocksOf_flatten (blocks : List (List Line)) (whole : ∀ block ∈ blocks, Block block) :
    blocksOf none blocks.flatten = blocks := by
  induction blocks with
  | nil => rfl
  | cons block blocks ih =>
      rw [List.flatten_cons, blocksOf_append (whole block List.mem_cons_self),
        ih (fun other member => whole other (List.mem_cons_of_mem block member))]

end Blocks

section Reseeding

theorem unlines_last (text : List Line) (some : text ≠ []) :
    (unlines text).getLast? = Option.some '\n' := by
  rw [← List.dropLast_append_getLast some, unlines_append, unlines_cons]
  simp [unlines]

theorem appended (blocks : List (List Line)) (text : List Line) (some : text ≠ []) :
    (blocks.map unlines).foldl append (unlines text) = unlines (text ++ blocks.flatten) := by
  induction blocks generalizing text with
  | nil => simp
  | cons block blocks ih =>
      have first : append (unlines text) (unlines block) = unlines (text ++ block) := by
        rw [append, if_pos (unlines_last text some), unlines_append]
      rw [List.map_cons, List.foldl_cons, first,
        ih _ (List.append_ne_nil_of_left_ne_nil some block), List.flatten_cons,
        List.append_assoc]

theorem settings_ne_nil (template : List Line) : settings template ≠ [] := by
  intro none
  have any := settings_any template
  rw [none] at any
  exact absurd any (by simp)

theorem reseed_eq (template existing : List Char) :
    reseed template existing = unlines (settings (lines template) ++
      (blocksOf none (lines existing)).flatten) := by
  rw [reseed, networkBlocks_eq, fromTemplate_eq, appended _ _ (settings_ne_nil _)]

theorem blocks_whole {existing : List Char} (plain : '\r' ∉ existing) :
    ∀ line ∈ (blocksOf none (lines existing)).flatten, Whole line := by
  intro line member
  obtain ⟨block, found, member⟩ := List.mem_flatten.mp member
  have origin := (blocksOf_mem _ none block found line member).resolve_left (by simp)
  exact lines_whole existing plain line origin

theorem reseed_lines {template existing : List Char} (plain : '\r' ∉ template)
    (stored : '\r' ∉ existing) : lines (reseed template existing) =
      settings (lines template) ++ (blocksOf none (lines existing)).flatten := by
  rw [reseed_eq, lines_unlines]
  intro line member
  rcases List.mem_append.mp member with setting | block
  · exact settings_whole (lines_whole template plain) line setting
  · exact blocks_whole stored line block

theorem reseed_blocks {template existing : List Char} (plain : '\r' ∉ template)
    (stored : '\r' ∉ existing) (none : ∀ line ∈ lines template, opens line = false) :
    networkBlocks (reseed template existing) = networkBlocks existing := by
  have free : ∀ line ∈ settings (lines template), opens line = false := by
    intro line member
    rcases settings_mem member with rfl | ⟨kept, _⟩
    · exact writable_opens
    · exact none line kept
  rw [networkBlocks_eq, networkBlocks_eq, reseed_lines plain stored, blocksOf_free _ _ free,
    blocksOf_flatten _ (blocksOf_block _ _ (by simp))]

theorem fromTemplate_lines {template : List Char} (plain : '\r' ∉ template) :
    lines (fromTemplate template) = settings (lines template) := by
  rw [fromTemplate_eq, lines_unlines _ (settings_whole (lines_whole template plain))]

/-- The working copy of a template: writable, otherwise the template's, and the same when it is
derived again. With the blocks of an existing configuration it holds those, also when they are
carried over again. -/
theorem reseed_preserves (template : List Char) (plain : '\r' ∉ template) :
    fromTemplate (fromTemplate template) = fromTemplate template ∧
      (∀ line ∈ lines (fromTemplate template), updates line = true → line = writable) ∧
      (∃ line ∈ lines (fromTemplate template), updates line = true) ∧
      (lines (fromTemplate template)).filter (fun line => !updates line) =
        (lines template).filter (fun line => !updates line) ∧
      ((∀ line ∈ lines template, opens line = false) →
        ∀ existing : List Char, '\r' ∉ existing →
          networkBlocks (reseed template existing) = networkBlocks existing ∧
            reseed template (reseed template existing) = reseed template existing) := by
  have derived := fromTemplate_lines plain
  refine ⟨?_, ?_, ?_, ?_, ?_⟩
  · rw [fromTemplate_eq (fromTemplate template), derived, settings_settings, ← fromTemplate_eq]
  · intro line member update
    rw [derived] at member
    rcases settings_mem member with same | ⟨_, other⟩
    · exact same
    · rw [update] at other
      exact absurd other (by decide)
  · rw [derived]
    exact List.any_eq_true.mp (settings_any _)
  · rw [derived, settings_others]
  · intro none existing stored
    have blocks := reseed_blocks plain stored none
    refine ⟨blocks, ?_⟩
    rw [reseed, blocks]
    rfl

theorem reseed_preserves_small :
    networkBlocks (reseed "device_name=castr\nupdate_config=0".toList
        "update_config=1\nnetwork=\x7b\n\tmode=3\n\x7d".toList) =
      networkBlocks "update_config=1\nnetwork=\x7b\n\tmode=3\n\x7d".toList :=
  ((reseed_preserves "device_name=castr\nupdate_config=0".toList (by decide)).2.2.2.2 (by decide)
    "update_config=1\nnetwork=\x7b\n\tmode=3\n\x7d".toList (by decide)).1

end Reseeding

end Castr.Miracast.SupplicantConf
