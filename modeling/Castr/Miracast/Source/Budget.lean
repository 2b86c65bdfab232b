import Castr.Miracast.Source.Choosing
import Castr.Miracast.Source.Progress

/-! What a source offers under the ceilings of the radio and of the display. -/

namespace Castr.Miracast.SourceSession

open Castr.Lib
open Source

/-- The modes that a source would use with a display. -/
def willing (cfg : SourceConfig) (sink : SinkCaps) : List VideoMode :=
  ourModes cfg.mode ((ceilingOf cfg sink).map (fun total => total - 3))

def ceiled (cfg : SourceConfig) (ceilingMbps : Option UInt16) : SourceConfig :=
  { cfg with ceilingMbps := ceilingMbps }

def budgeted (sink : SinkCaps) (kbps : UInt32) : SinkCaps :=
  { sink with maxBitrateKbps := some kbps }

def NoLower (low high : Option UInt16) : Prop := ∀ b, high = some b → ∃ a, low = some a ∧ a ≤ b

/-- A picture of that cost fits under the display's budget, as it is read, with the sound beside
it. -/
def Fits (kbps : UInt32) (cost : Nat) : Prop := cost + 3 ≤ kbps.toNat / 1000 % 2 ^ 16

instance (kbps : UInt32) (cost : Nat) : Decidable (Fits kbps cost) :=
  inferInstanceAs (Decidable (_ ≤ _))

def Clears (ceilingMbps : Option UInt16) (cost : Nat) : Prop :=
  ∀ own ∈ ceilingMbps, cost + 3 ≤ own.toNat

/-- Every mode that fits under the first ceiling and budget fits under the other budget too. -/
def Carried (ceilingMbps : Option UInt16) (few many : UInt32) : Prop :=
  ∀ m ∈ allModes, Clears ceilingMbps (needsMbps m) → Fits few (needsMbps m) →
    Fits many (needsMbps m)

variable {cfg : SourceConfig} {sink : SinkCaps} {low high : Option UInt16} {few many : UInt32}

theorem needsMbps_pos {m : VideoMode} (ours : m ∈ allModes) : 1 ≤ needsMbps m := by
  have all : ∀ m ∈ allModes, 1 ≤ needsMbps m := by decide
  exact all m ours

theorem mem_willing (m : VideoMode) :
    m ∈ willing (ceiled cfg low) (budgeted sink few) ↔
      m ∈ allModes ∧ Clears low (needsMbps m) ∧ Fits few (needsMbps m) := by
  rw [willing, ourModes, List.mem_filter, List.mem_insertionSort]
  refine and_congr_right (fun ours => ?_)
  have positive := needsMbps_pos ours
  cases low with
  | none =>
      simp only [ceilingOf, lowest, ceiled, budgeted, Clears, Fits, Option.map_none,
        Option.map_some, Option.all_some, decide_eq_true_eq, Option.not_mem_none, false_implies,
        implies_true, true_and]
      omega
  | some own =>
      simp only [ceilingOf, lowest, ceiled, budgeted, Clears, Fits, Option.map_some,
        Option.all_some, decide_eq_true_eq, Option.mem_some_iff, forall_eq']
      omega

theorem Clears.mono (noLower : NoLower low high) {cost : Nat} (clears : Clears low cost) :
    Clears high cost := by
  intro own is
  obtain ⟨a, under, le⟩ := noLower own is
  exact (clears a under).trans (UInt16.le_iff_toNat_le.mp le)

theorem carried_of_small (more : few ≤ many) (small : many.toNat / 1000 < 2 ^ 16) :
    Carried low few many := by
  intro m _ _ fits
  have order := UInt32.le_iff_toNat_le.mp more
  unfold Fits at fits ⊢
  omega

theorem chooseSelection_mono {other : SinkCaps} {few many : List VideoMode}
    (same : codecFormats sink = codecFormats other) (more : ∀ m ∈ few, m ∈ many)
    (found : ∃ choice, chooseSelection sink few = .ok choice) :
    ∃ choice, chooseSelection other many = .ok choice := by
  obtain ⟨m, inside, carried⟩ := (chooseSelection_correct sink few).1.mp found
  exact (chooseSelection_correct other many).1.mpr ⟨m, more m inside, same ▸ carried⟩

theorem choose_isOk_iff (cfg : SourceConfig) {body : String} (read : Source.parse body = .ok sink) :
    (choose cfg body).isOk = true ↔
      (∃ choice, chooseSelection sink (willing cfg sink) = .ok choice) ∧
        sink.lpcmModes.toNat.testBit 1 ∧ sink.contentProtection = none := by
  unfold choose willing
  rw [read]
  dsimp only
  cases chooseSelection sink _ with
  | error _ => simp [Except.isOk, Except.toBool]
  | ok choice =>
      cases sink.lpcmModes.toNat.testBit 1 <;> cases sink.contentProtection <;>
        simp [Except.isOk, Except.toBool]

/-- Under a higher ceiling and another budget a source offers all that it offered, and finds a mode
where it found one, exactly when every mode that fitted fits under the budget as it is read. -/
theorem willing_grows_iff (cfg : SourceConfig) (sink : SinkCaps) (low high : Option UInt16)
    (few many : UInt32) (noLower : NoLower low high) :
    ((∀ m ∈ willing (ceiled cfg low) (budgeted sink few),
        m ∈ willing (ceiled cfg high) (budgeted sink many)) ∧
      ∀ body other, Source.parse body = .ok (budgeted sink few) →
        Source.parse other = .ok (budgeted sink many) →
          (choose (ceiled cfg low) body).isOk = true →
            (choose (ceiled cfg high) other).isOk = true) ↔
    Carried low few many := by
  constructor
  · rintro ⟨grows, _⟩ m ours clears fits
    exact ((mem_willing m).mp (grows m ((mem_willing m).mpr ⟨ours, clears, fits⟩))).2.2
  · intro carried
    have grows : ∀ m ∈ willing (ceiled cfg low) (budgeted sink few),
        m ∈ willing (ceiled cfg high) (budgeted sink many) := by
      intro m inside
      obtain ⟨ours, clears, fits⟩ := (mem_willing m).mp inside
      exact (mem_willing m).mpr ⟨ours, clears.mono noLower, carried m ours clears fits⟩
    have same : codecFormats (budgeted sink few) = codecFormats (budgeted sink many) := rfl
    refine ⟨grows, ?_⟩
    intro body other read reread found
    rw [choose_isOk_iff _ read] at found
    rw [choose_isOk_iff _ reread]
    exact ⟨chooseSelection_mono same grows found.1, found.2⟩

/-- A display that offers 1920x1080 at 30 frames, and less. -/
def fullHd : SinkCaps where
  cea := 0xe1
  vesa := 0
  hh := 0
  profile := 0x01
  level := 0x10
  lpcmModes := 0x02
  rtpPort := 5000
  maxBitrateKbps := none
  contentProtection := none
  videoFormats := []

theorem willing_grows_iff_small :
    Carried none 5000 40000 ∧ ∀ m ∈ willing (ceiled .default none) (budgeted fullHd 5000),
      m ∈ willing (ceiled .default none) (budgeted fullHd 40000) := by
  have carried : Carried none 5000 40000 := carried_of_small (by decide) (by decide)
  exact ⟨carried, ((willing_grows_iff .default fullHd none none 5000 40000 nofun).mpr carried).1⟩

/-- A budget of 65536000 kbit/s is read as none at all: the source that agreed on a mode under
40000 kbit/s offers nothing then. -/
theorem willing_wrapped :
    ⟨1920, 1080, 30⟩ ∈ willing .default (budgeted fullHd 40000) ∧
    (chooseSelection (budgeted fullHd 40000) (willing .default (budgeted fullHd 40000))).isOk =
      true ∧
    willing .default (budgeted fullHd 65536000) = [] ∧
    (chooseSelection (budgeted fullHd 65536000)
      (willing .default (budgeted fullHd 65536000))).isOk = false := by
  decide +kernel

/-- `none` where the product of 32 bits overflows. -/
def thousandfold (value : Nat) : Option Nat :=
  if value * 1000 < 2 ^ 32 then some (value * 1000) else none

/-- The ceiling the display asked us to respect, if it named one. -/
def maxBitrateKbps (s : SourceSession) : Option UInt32 :=
  s.sink.bind (fun caps => caps.maxBitrateKbps)

def ChoseOurs (s : SourceSession) : Prop := ∀ choice ∈ s.chosen, choice.mode ∈ allModes

theorem choose_ours {cfg : SourceConfig} {body : String} {sink : SinkCaps}
    {choice : ModeSelection} (chosen : choose cfg body = .ok (sink, choice)) :
    choice.mode ∈ allModes := by
  unfold choose at chosen
  split at chosen
  · cases chosen
  · rename_i read _
    split at chosen
    · cases chosen
    · rename_i picked found
      split at chosen
      · cases chosen
      · split at chosen
        · cases chosen
        · cases chosen
          obtain ⟨⟨before, after, split, _⟩, _⟩ := (chooseSelection_correct _ _).2 _ found
          have inside : choice.mode ∈ ourModes cfg.mode
              ((ceilingOf cfg sink).map (fun total => total - 3)) := by simp [split]
          exact (List.mem_insertionSort _).mp (List.mem_of_mem_filter inside)

theorem chosen_notePort (s : SourceSession) (m : Message) :
    (s.notePort m).chosen = s.chosen := by
  unfold notePort
  split <;> rfl

theorem step_ours {s : SourceSession} (event : SourceEvent) (ours : s.ChoseOurs) :
    (s.step event).1.ChoseOurs := by
  cases event with
  | message m now =>
      change (s.onMessageAt m now).1.ChoseOurs
      unfold onMessageAt
      split
      · rename_i method _ _
        generalize (s.hear now).onRequest method m = result,
          asked (s.hear now) method m = branch
        cases branch with
        | setup =>
            intro choice chosen
            exact ours choice (chosen_notePort (s.hear now) m ▸ chosen)
        | _ => exact ours
      · rename_i status _ _
        generalize (s.hear now).onResponse status m now = result,
          answered (s.hear now) status m now = branch
        cases branch with
        | m3 cseq numbered awaited sink choice chosen =>
            intro picked same
            cases same
            exact choose_ours chosen
        | _ => exact ours
  | tick now =>
      change (s.tick now).1.ChoseOurs
      generalize s.tick now = result, ticked s now = branch
      cases branch <;> exact ours
  | teardown => exact ours

end Castr.Miracast.SourceSession
