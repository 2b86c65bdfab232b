import Castr.Miracast.Source.Caps

/-! The mode that a source picks is the first of its own that one tuple of the display carries. -/

namespace Castr.Miracast.Source

def VideoCodecCaps.mask (codec : VideoCodecCaps) : VideoTable → UInt32
  | .cea => codec.cea
  | .vesa => codec.vesa
  | .hh => codec.hh

def VideoCodecCaps.Lists (codec : VideoCodecCaps) (table : VideoTable) (bit : Nat)
    (mode : VideoMode) : Prop :=
  bit < 32 ∧ (codec.mask table).toNat.testBit bit ∧ tableMode table bit = some mode

/-- One tuple offers the mode with a profile that we encode, and a level that is enough for it. -/
def VideoCodecCaps.Carries (codec : VideoCodecCaps) (mode : VideoMode) : Prop :=
  (codec.profile.toNat.testBit 0 ∨ codec.profile.toNat.testBit 1) ∧
    (∃ required, requiredLevel mode = some required ∧
      levelRank required ≤ levelRank codec.level) ∧
    ∃ table bit, codec.Lists table bit mode

/-- All of a selection comes from this one tuple. -/
structure ModeSelection.From (selection : ModeSelection) (codec : VideoCodecCaps) : Prop where
  listed : ∃ bit, selection.bit = UInt32.ofNat (2 ^ bit) ∧
    codec.Lists selection.table bit selection.mode
  profile : selection.profile = 0x01 ∧ codec.profile.toNat.testBit 0 ∨
    selection.profile = 0x02 ∧ codec.profile.toNat.testBit 1
  level : requiredLevel selection.mode = some selection.level
  enough : levelRank selection.level ≤ levelRank codec.level

variable {codec : VideoCodecCaps} {mode wanted : VideoMode} {required : UInt8}

theorem mem_modesOf {table found : VideoTable} {mask value : UInt32} :
    (found, value, mode) ∈ modesOf table mask ↔ found = table ∧ ∃ bit,
      value = UInt32.ofNat (2 ^ bit) ∧ bit < 32 ∧ mask.toNat.testBit bit ∧
        tableMode table bit = some mode := by
  simp only [modesOf, List.mem_filterMap, List.mem_range]
  constructor
  · rintro ⟨bit, inside, hit⟩
    split at hit
    · obtain ⟨_, decoded, same⟩ := Option.map_eq_some_iff.mp hit
      cases same
      exact ⟨rfl, bit, rfl, inside, by assumption, decoded⟩
    · cases hit
  · rintro ⟨rfl, bit, rfl, inside, set, decoded⟩
    exact ⟨bit, inside, by rw [if_pos set, decoded, Option.map_some]⟩

theorem mem_tableModes {table : VideoTable} {value : UInt32} :
    (table, value, mode) ∈ tableModes codec ↔
      ∃ bit, value = UInt32.ofNat (2 ^ bit) ∧ codec.Lists table bit mode := by
  simp only [tableModes, List.mem_append, mem_modesOf, VideoCodecCaps.Lists]
  cases table <;> simp [VideoCodecCaps.mask]

theorem profileOf_cases (codec : VideoCodecCaps) :
    (profileOf codec = 0x01 ∧ codec.profile.toNat.testBit 0) ∨
      (profileOf codec = 0x02 ∧ codec.profile.toNat.testBit 1) ∨
      (profileOf codec = 0 ∧ ¬ (codec.profile.toNat.testBit 0 ∨
        codec.profile.toNat.testBit 1)) := by
  unfold profileOf
  split
  · exact .inl ⟨rfl, by assumption⟩
  · split
    · exact .inr (.inl ⟨rfl, by assumption⟩)
    · exact .inr (.inr ⟨rfl, by simp_all⟩)

theorem select_from {selection : ModeSelection} (level : requiredLevel wanted = some required)
    (picked : select wanted required codec = some selection) :
    selection.mode = wanted ∧ selection.From codec := by
  unfold select at picked
  split at picked
  · cases picked
  · rename_i usable
    obtain ⟨known, enough⟩ := not_or.mp usable
    obtain ⟨⟨table, value, mode⟩, found, rfl⟩ := Option.map_eq_some_iff.mp picked
    obtain rfl : mode = wanted := by simpa using List.find?_some found
    refine ⟨rfl, ?_, ?_, level, Nat.le_of_not_lt enough⟩
    · exact mem_tableModes.mp (List.mem_of_find?_eq_some found)
    · rcases profileOf_cases codec with base | high | ⟨none, _⟩
      · exact .inl base
      · exact .inr high
      · exact absurd none known

theorem select_isSome_iff (level : requiredLevel wanted = some required) :
    (select wanted required codec).isSome ↔ codec.Carries wanted := by
  constructor
  · intro some
    obtain ⟨selection, picked⟩ := Option.isSome_iff_exists.mp some
    obtain ⟨rfl, whole⟩ := select_from level picked
    obtain ⟨bit, _, listed⟩ := whole.listed
    exact ⟨whole.profile.imp And.right And.right, ⟨_, whole.level, whole.enough⟩, _, bit, listed⟩
  · rintro ⟨profile, ⟨other, same, enough⟩, table, bit, listed⟩
    obtain rfl : required = other := Option.some.inj (level.symm.trans same)
    have usable : ¬ (profileOf codec = 0 ∨ levelRank codec.level < levelRank required) := by
      rintro (none | low)
      · rcases profileOf_cases codec with ⟨base, _⟩ | ⟨high, _⟩ | ⟨_, neither⟩
        · rw [none] at base
          exact absurd base (by decide)
        · rw [none] at high
          exact absurd high (by decide)
        · exact neither profile
      · exact absurd enough (Nat.not_le_of_lt low)
    have inside : (table, UInt32.ofNat (2 ^ bit), wanted) ∈ tableModes codec :=
      mem_tableModes.mpr ⟨bit, rfl, listed⟩
    rw [select, if_neg usable, Option.isSome_map, List.find?_isSome]
    exact ⟨_, inside, decide_eq_true rfl⟩

def offered (sink : SinkCaps) (wanted : VideoMode) : Option ModeSelection :=
  (requiredLevel wanted).bind (fun required =>
    (codecFormats sink).findSome? (select wanted required))

variable {sink : SinkCaps} {ours : List VideoMode} {selection : ModeSelection}

theorem offered_from (found : offered sink wanted = some selection) :
    selection.mode = wanted ∧ ∃ codec ∈ codecFormats sink, selection.From codec := by
  obtain ⟨required, level, found⟩ := Option.bind_eq_some_iff.mp found
  obtain ⟨before, codec, after, split, picked, _⟩ := List.findSome?_eq_some_iff.mp found
  obtain ⟨same, whole⟩ := select_from level picked
  exact ⟨same, codec, by simp [split], whole⟩

theorem offered_isSome_iff :
    (offered sink wanted).isSome ↔ ∃ codec ∈ codecFormats sink, codec.Carries wanted := by
  unfold offered
  cases level : requiredLevel wanted with
  | none =>
      simp only [Option.bind_none, Option.isSome_none, Bool.false_eq_true, false_iff]
      rintro ⟨codec, _, _, ⟨required, some, _⟩, _⟩
      rw [level] at some
      cases some
  | some required =>
      rw [Option.bind_some, List.findSome?_isSome_iff]
      exact exists_congr (fun codec => and_congr_right (fun _ => select_isSome_iff level))

/-- The level as 32-bit arithmetic has it, where the rate of a picture too big for any table wraps
around. -/
def requiredLevel32 (mode : VideoMode) : Option UInt8 :=
  let mbPerFrame := (mode.width + 15) / 16 * ((mode.height + 15) / 16) % 2 ^ 32
  let rate := mbPerFrame * mode.fps % 2 ^ 32
  if rate ≤ 108000 then some 0x01
  else if rate ≤ 216000 then some 0x02
  else if rate ≤ 245760 then some 0x04
  else if rate ≤ 522240 then some 0x10
  else none

theorem pairedMode_small {sizes : List (Nat × Nat)} {bit : Nat}
    (small : ∀ size ∈ sizes, size.1 ≤ 1920 ∧ size.2 ≤ 1200)
    (decoded : pairedMode sizes bit = some mode) :
    mode.width ≤ 1920 ∧ mode.height ≤ 1200 ∧ mode.fps ≤ 60 := by
  obtain ⟨size, found, rfl⟩ := Option.map_eq_some_iff.mp decoded
  obtain ⟨width, height⟩ := small size (List.mem_of_getElem? found)
  refine ⟨width, height, ?_⟩
  dsimp only
  split <;> decide

theorem tableMode_small {table : VideoTable} {bit : Nat}
    (decoded : tableMode table bit = some mode) :
    mode.width ≤ 1920 ∧ mode.height ≤ 1200 ∧ mode.fps ≤ 60 := by
  cases table with
  | cea =>
      rw [tableMode, ceaMode.eq_def] at decoded
      split at decoded <;> cases decoded <;> decide
  | vesa => exact pairedMode_small (by decide) decoded
  | hh => exact pairedMode_small (by decide) decoded

theorem requiredLevel32_eq {table : VideoTable} {bit : Nat}
    (decoded : tableMode table bit = some mode) : requiredLevel32 mode = requiredLevel mode := by
  obtain ⟨width, height, fps⟩ := tableMode_small decoded
  have blocks : (mode.width + 15) / 16 * ((mode.height + 15) / 16) ≤ 120 * 75 :=
    Nat.mul_le_mul (by omega) (by omega)
  have rate : (mode.width + 15) / 16 * ((mode.height + 15) / 16) * mode.fps ≤ 120 * 75 * 60 :=
    Nat.mul_le_mul blocks fps
  unfold requiredLevel32 requiredLevel
  rw [Nat.mod_eq_of_lt (by omega : (mode.width + 15) / 16 * ((mode.height + 15) / 16) < 2 ^ 32)]
  dsimp only
  rw [Nat.mod_eq_of_lt (by omega)]

theorem offered_wrapped (sink : SinkCaps) (wanted : VideoMode) :
    (requiredLevel32 wanted).bind (fun required =>
      (codecFormats sink).findSome? (select wanted required)) = offered sink wanted := by
  by_cases listed : ∃ table bit, tableMode table bit = some wanted
  · obtain ⟨table, bit, decoded⟩ := listed
    rw [requiredLevel32_eq decoded, offered]
  · have nothing : ∀ required, (codecFormats sink).findSome? (select wanted required) = none := by
      intro required
      refine List.findSome?_eq_none_iff.mpr (fun codec _ => ?_)
      unfold select
      split
      · rfl
      · rw [Option.map_eq_none_iff, List.find?_eq_none]
        rintro ⟨table, value, mode⟩ inside same
        obtain ⟨bit, _, _, _, decoded⟩ := mem_tableModes.mp inside
        exact listed ⟨table, bit, of_decide_eq_true same ▸ decoded⟩
    unfold offered
    simp only [nothing]
    cases requiredLevel32 wanted <;> cases requiredLevel wanted <;> rfl

theorem chooseSelection_ok_iff :
    chooseSelection sink ours = .ok selection ↔ ours.findSome? (offered sink) = some selection := by
  have choice : chooseSelection sink ours =
      (ours.findSome? (offered sink)).elim (.error ⟨sinkModes sink, ours⟩) .ok := by
    unfold chooseSelection offered
    dsimp only
    split
    · next found => rw [found, Option.elim_some]
    · next found => rw [found, Option.elim_none]
  rw [choice]
  cases ours.findSome? (offered sink) <;> simp

/-- A mode is found exactly when one of ours is carried by one of the display's tuples. It is the
first such of ours, and the bit, the profile and the level go back to one tuple. -/
theorem chooseSelection_correct (sink : SinkCaps) (ours : List VideoMode) :
    ((∃ selection, chooseSelection sink ours = .ok selection) ↔
      ∃ wanted ∈ ours, ∃ codec ∈ codecFormats sink, codec.Carries wanted) ∧
    ∀ selection, chooseSelection sink ours = .ok selection →
      (∃ before after, ours = before ++ selection.mode :: after ∧
        ∀ earlier ∈ before, ∀ codec ∈ codecFormats sink, ¬ codec.Carries earlier) ∧
      ∃ codec ∈ codecFormats sink, selection.From codec := by
  constructor
  · simp only [chooseSelection_ok_iff, ← Option.isSome_iff_exists, List.findSome?_isSome_iff,
      offered_isSome_iff]
  · intro selection chosen
    rw [chooseSelection_ok_iff, List.findSome?_eq_some_iff] at chosen
    obtain ⟨before, wanted, after, split, found, none⟩ := chosen
    obtain ⟨rfl, whole⟩ := offered_from found
    refine ⟨⟨before, after, split, ?_⟩, whole⟩
    intro earlier inside codec listed carries
    have some := offered_isSome_iff.mpr ⟨codec, listed, carries⟩
    rw [none earlier inside] at some
    cases some

end Castr.Miracast.Source
