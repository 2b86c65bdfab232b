import Castr.Lib.Replacing
import Castr.Lib.Run
import Castr.Miracast.SupplicantConf

/-! The working configuration over a sink's life: deploys, starts that may end inside either of the
two files they overwrite, and the supplicant's own writes. A file that was cut inside a character
cannot be read, and counts as an empty one. -/

namespace Castr.Miracast.SupplicantConf

open Castr.Lib.Replacing
open Castr.Lib.Run
open Castr.Lib.Text

/-- The working configuration and the template it was derived from; missing files are empty. -/
structure Files where
  working : List Char
  stamp : List Char

/-- Where a start ends: in the working configuration, or behind it in the stamp. -/
inductive Ending where
  | working (how : Overwrite)
  | stamp (how : Overwrite)

inductive Happening where
  /-- A start under a deployed template. -/
  | start (template : List Char) (ending : Ending)
  /-- The supplicant writes its configuration back. -/
  | saved (conf : List Char)

namespace Files

/-- What a start writes, unless the working configuration is left as it is. -/
def desired (files : Files) (template : List Char) : Option (List Char) :=
  if files.working = [] then some (fromTemplate template)
  else if files.stamp = template then none
  else some (reseed template files.working)

def workingConf (files : Files) (template : List Char) (ending : Ending) : Files :=
  match files.desired template with
  | none => files
  | some desired =>
      match ending with
      | .working how => ⟨overwrite files.working desired how, files.stamp⟩
      | .stamp how => ⟨desired, overwrite files.stamp template how⟩

def step (files : Files) : Happening → Files × Unit
  | .start template ending => (files.workingConf template ending, ())
  | .saved conf => (⟨conf, files.stamp⟩, ())

end Files

/-- A template without stored groups; a configuration of the supplicant's with those it had. -/
def Happening.Sound (files : Files) : Happening → Prop
  | .start template _ => '\r' ∉ template ∧ ∀ line ∈ lines template, opens line = false
  | .saved conf => '\r' ∉ conf ∧ networkBlocks files.working <+: networkBlocks conf

/-- The working configuration was not cut short. -/
def Happening.uncut : Happening → Bool
  | .start _ (.working (.cut _)) => false
  | _ => true

theorem fromTemplate_eq_reseed (template : List Char) :
    fromTemplate template = reseed template [] := rfl

theorem reseed_whole {template existing : List Char} (plain : '\r' ∉ template)
    (stored : '\r' ∉ existing) :
    ∀ line ∈ settings (lines template) ++ (blocksOf none (lines existing)).flatten, Whole line := by
  intro line member
  rcases List.mem_append.mp member with setting | block
  · exact settings_whole (lines_whole template plain) line setting
  · exact blocks_whole stored line block

theorem reseed_plain {template existing : List Char} (plain : '\r' ∉ template)
    (stored : '\r' ∉ existing) : '\r' ∉ reseed template existing := by
  rw [reseed_eq]
  exact unlines_plain _ (reseed_whole plain stored)

section Cutting

theorem blocksOf_begun {front text : List Line} (begun : front <+: text)
    (held : Option (List Line)) : blocksOf held front <+: blocksOf held text := by
  induction front generalizing text held with
  | nil =>
      rw [show blocksOf held [] = [] by cases held <;> rfl]
      exact List.nil_prefix
  | cons line front ih =>
      obtain ⟨rest, rfl⟩ := begun
      have later := fun held => ih (List.prefix_append front rest) held
      cases held with
      | none =>
          rw [List.cons_append, blocksOf, blocksOf]
          split <;> exact later _
      | some block =>
          rw [List.cons_append, blocksOf, blocksOf]
          split
          · exact List.cons_prefix_cons.mpr ⟨rfl, later _⟩
          · exact later _

theorem blocksOf_snoc (text : List Line) (last : Line) (held : Option (List Line)) :
    ∃ extra, blocksOf held (text ++ [last]) = blocksOf held text ++ extra ∧ extra.length ≤ 1 := by
  induction text generalizing held with
  | nil =>
      refine ⟨blocksOf held [last], by cases held <;> rfl, ?_⟩
      cases held with
      | none =>
          rw [blocksOf]
          split <;> simp [blocksOf]
      | some block =>
          rw [blocksOf]
          split <;> simp [blocksOf]
  | cons line text ih =>
      cases held with
      | none =>
          rw [List.cons_append, blocksOf, blocksOf]
          split <;> exact ih _
      | some block =>
          rw [List.cons_append, blocksOf, blocksOf]
          split
          · obtain ⟨extra, found, few⟩ := ih none
            exact ⟨extra, by rw [found]; rfl, few⟩
          · exact ih _

theorem reseed_cut {template existing : List Char} (plain : '\r' ∉ template)
    (stored : '\r' ∉ existing) (free : ∀ line ∈ lines template, opens line = false)
    {cut : List Char} (within : cut <+: reseed template existing) :
    ∃ kept extra, networkBlocks cut = kept ++ extra ∧ kept <+: networkBlocks existing ∧
      extra.length ≤ 1 := by
  have settled := reseed_blocks plain stored free
  rw [networkBlocks_eq, networkBlocks_eq, reseed_lines plain stored] at settled
  rw [reseed_eq] at within
  obtain ⟨front, begun, found⟩ := lines_cut _ (reseed_whole plain stored) within
  have kept : (blocksOf none front).map unlines <+: networkBlocks existing := by
    rw [networkBlocks_eq, ← settled]
    exact (blocksOf_begun begun none).map unlines
  rw [networkBlocks_eq]
  rcases found with all | ⟨_, piece, _, _, split⟩
  · exact ⟨_, [], by rw [all, List.append_nil], kept, by simp⟩
  · obtain ⟨extra, more, few⟩ := blocksOf_snoc front piece none
    exact ⟨_, extra.map unlines, by rw [split, more, List.map_append], kept, by simpa using few⟩

end Cutting

theorem desired_reseed {files : Files} {template text : List Char}
    (desired : files.desired template = some text) :
    text = reseed template files.working := by
  unfold Files.desired at desired
  split at desired
  · rename_i empty
    rw [fromTemplate_eq_reseed] at desired
    rw [empty]
    exact (Option.some.inj desired).symm
  · split at desired
    · cases desired
    · exact (Option.some.inj desired).symm

section Starting

variable {files : Files} {template : List Char} (stored : '\r' ∉ files.working)
  (plain : '\r' ∉ template) (free : ∀ line ∈ lines template, opens line = false)
include stored plain

theorem workingConf_plain (ending : Ending) :
    '\r' ∉ (files.workingConf template ending).working := by
  unfold Files.workingConf
  cases desired : files.desired template with
  | none => exact stored
  | some text =>
      have written : '\r' ∉ text := by
        rw [desired_reseed desired]
        exact reseed_plain plain stored
      cases ending with
      | stamp how => exact written
      | working how =>
          rcases overwrite_cases files.working text how with same | begun
          · dsimp only
            rw [same]
            exact stored
          · exact fun inside => written (begun.subset inside)

include free

theorem workingConf_blocks {ending : Ending}
    (uncut : (Happening.start template ending).uncut = true) :
    networkBlocks (files.workingConf template ending).working = networkBlocks files.working := by
  unfold Files.workingConf
  cases desired : files.desired template with
  | none => rfl
  | some text =>
      have same : networkBlocks text = networkBlocks files.working := by
        rw [desired_reseed desired]
        exact reseed_blocks plain stored free
      cases ending with
      | stamp how => exact same
      | working how =>
          cases how with
          | unopened => rfl
          | cut kept => cases uncut
          | done => exact same

theorem workingConf_cut (kept : Nat) :
    ∃ whole extra,
      networkBlocks (files.workingConf template (.working (.cut kept))).working = whole ++ extra ∧
      whole <+: networkBlocks files.working ∧ extra.length ≤ 1 := by
  unfold Files.workingConf
  cases desired : files.desired template with
  | none => exact ⟨_, [], (List.append_nil _).symm, List.prefix_rfl, by simp⟩
  | some text =>
      rw [desired_reseed desired]
      exact reseed_cut plain stored free (List.take_prefix kept _)

end Starting

theorem step_plain (files : Files) (happening : Happening) (plain : '\r' ∉ files.working)
    (sound : happening.Sound files) : '\r' ∉ (files.step happening).1.working := by
  cases happening with
  | start template ending => exact workingConf_plain plain sound.1 ending
  | saved conf => exact sound.1

theorem step_blocks (files : Files) (happening : Happening) (plain : '\r' ∉ files.working)
    (sound : happening.Sound files) (uncut : happening.uncut = true) :
    networkBlocks files.working <+: networkBlocks (files.step happening).1.working := by
  cases happening with
  | start template ending =>
      rw [Files.step, workingConf_blocks plain sound.1 sound.2 uncut]
  | saved conf => exact sound.2

/-- A group that is stored at some moment is stored, and in its place, for as long as no start is
cut short inside the working configuration; where one is, the first groups are kept, and behind them
at most a part of another is left. -/
theorem groups_kept (files : Files) (happenings : List Happening) (plain : '\r' ∉ files.working)
    (sound : ∀ front happening back, happenings = front ++ happening :: back →
      happening.Sound (final Files.step files front)) :
    (∀ front middle back, happenings = front ++ middle ++ back →
      middle.all Happening.uncut = true →
        networkBlocks (final Files.step files front).working <+:
          networkBlocks (final Files.step files (front ++ middle)).working) ∧
    ∀ front template kept back, happenings =
      front ++ .start template (.working (.cut kept)) :: back →
      ∃ whole extra,
        networkBlocks (final Files.step files
          (front ++ [.start template (.working (.cut kept))])).working = whole ++ extra ∧
        whole <+: networkBlocks (final Files.step files front).working ∧ extra.length ≤ 1 := by
  have still : ∀ front back, happenings = front ++ back →
      '\r' ∉ (final Files.step files front).working := by
    intro front back split
    apply prefix_induction Files.step files happenings (fun _ state => '\r' ∉ state.working) plain
      ?_ front back split
    intro earlier happening later inside now
    exact step_plain _ happening now (sound earlier happening later inside)
  refine ⟨?_, ?_⟩
  · intro front middle back split uncut
    induction middle using List.reverseRecOn generalizing back with
    | nil => rw [List.append_nil]
    | append_singleton middle happening ih =>
        rw [List.all_append, Bool.and_eq_true] at uncut
        have place : happenings = (front ++ middle) ++ happening :: back := by simp [split]
        have before := ih (happening :: back) (by simp [split]) uncut.1
        rw [← List.append_assoc, final_snoc]
        exact before.trans (step_blocks _ happening (still _ _ place) (sound _ _ _ place)
          (by simpa using uncut.2))
  · intro front template kept back split
    obtain ⟨clear, free⟩ := sound front _ back split
    rw [final_snoc]
    exact workingConf_cut (still front _ split) clear free kept

theorem sound_nil (files : Files) : ∀ front happening back,
    ([] : List Happening) = front ++ happening :: back →
      happening.Sound (final Files.step files front) := by
  intro front happening back split
  simp at split

theorem sound_cons {files : Files} {first : Happening} {others : List Happening}
    (here : first.Sound files)
    (later : ∀ front happening back, others = front ++ happening :: back →
      happening.Sound (final Files.step (files.step first).1 front)) :
    ∀ front happening back, first :: others = front ++ happening :: back →
      happening.Sound (final Files.step files front) := by
  intro front happening back split
  cases front with
  | nil =>
      obtain ⟨rfl, _⟩ := List.cons.inj split
      exact here
  | cons other front =>
      obtain ⟨rfl, rest⟩ := List.cons.inj split
      exact later front happening back rest

/-- A group that the supplicant stores outlives a deploy whose start is cut off before its stamp,
and the start after it. A start that is cut off inside the group loses that one alone. -/
theorem groups_kept_deployed :
    let one := "network=\x7b\n\tmode=3\n\x7d\n".toList
    let two := "network=\x7b\n\tmode=2\n\x7d\n".toList
    let deploy := "device_name=castr\n".toList
    networkBlocks (one ++ two) <+: networkBlocks (final Files.step ⟨one, []⟩
        [.saved (one ++ two), .start deploy (.working .done),
          .start deploy (.stamp .done)]).working ∧
      ∃ whole extra, networkBlocks (final Files.step ⟨one, []⟩
          [.saved (one ++ two), .start deploy (.working (.cut 60))]).working = whole ++ extra ∧
        whole <+: networkBlocks (one ++ two) ∧ extra.length ≤ 1 := by
  intro one two deploy
  refine ⟨?_, ?_⟩
  · exact (groups_kept ⟨one, []⟩ [.saved (one ++ two), .start deploy (.working .done),
      .start deploy (.stamp .done)] (by decide) (sound_cons ⟨by decide, by decide⟩
        (sound_cons ⟨by decide, by decide⟩ (sound_cons ⟨by decide, by decide⟩ (sound_nil _))))).1
      [.saved (one ++ two)] [.start deploy (.working .done),
        .start deploy (.stamp .done)] [] rfl rfl
  · exact (groups_kept ⟨one, []⟩ [.saved (one ++ two), .start deploy (.working (.cut 60))]
      (by decide)
      (sound_cons ⟨by decide, by decide⟩ (sound_cons ⟨by decide, by decide⟩ (sound_nil _)))).2
      [.saved (one ++ two)] deploy 60 [] rfl

end Castr.Miracast.SupplicantConf
