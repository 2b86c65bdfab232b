import Castr.Miracast.Parameters
import Castr.Miracast.Texts

/-! What a sink advertises, what a source reads of it, and what the sink accepts of the choice. -/

namespace Castr.Miracast

open Castr.Lib.Text
open Castr.Lib.Word (countOnes trailingZeros)
open Source (hex8 hex32 parseTuple parseTuples VideoCodecCaps SinkCaps ModeSelection VideoTable)

def trailer : List (List Char) :=
  ["00".toList, "0000".toList, "0000".toList, "00".toList, "none".toList, "none".toList]

theorem words_formatFields (profile level : UInt8) (cea vesa hh : UInt32) :
    words (formatFields profile level cea vesa hh).toList =
      hex 2 profile.toNat :: hex 2 level.toNat :: hex 8 cea.toNat :: hex 8 vesa.toNat ::
        hex 8 hh.toNat :: trailer := by
  have blank : " ".toList = [' '] := by decide
  have last : " 00 0000 0000 00 none none".toList = ' ' :: "00 0000 0000 00 none none".toList := by
    decide
  have rest : words "00 0000 0000 00 none none".toList = trailer := by decide
  have shape : (formatFields profile level cea vesa hh).toList =
      hex 2 profile.toNat ++ ' ' :: (hex 2 level.toNat ++ ' ' :: (hex 8 cea.toNat ++ ' ' ::
        (hex 8 vesa.toNat ++ ' ' :: (hex 8 hh.toNat ++ ' ' ::
          "00 0000 0000 00 none none".toList)))) := by
    simp only [formatFields, hexText, String.toList_append, String.toList_ofList, blank, last,
      List.append_assoc, List.cons_append, List.nil_append]
  have space : isSpace ' ' = true := by decide
  rw [shape, words_cons _ _ ' ' (hex_ne_nil _ _) (hex_solid _ _) space,
    words_cons _ _ ' ' (hex_ne_nil _ _) (hex_solid _ _) space,
    words_cons _ _ ' ' (hex_ne_nil _ _) (hex_solid _ _) space,
    words_cons _ _ ' ' (hex_ne_nil _ _) (hex_solid _ _) space,
    words_cons _ _ ' ' (hex_ne_nil _ _) (hex_solid _ _) space, rest]

theorem words_behind (front : String) (first second : List Char) (back : String)
    (shape : front.toList = first ++ ' ' :: (second ++ [' ']))
    (solid : first ≠ [] ∧ second ≠ [] ∧ (first ++ second).all (fun c => !isSpace c) = true) :
    words (front ++ back).toList = first :: second :: words back.toList := by
  obtain ⟨firstFilled, secondFilled, every⟩ := solid
  have plain : ∀ c ∈ first ++ second, isSpace c = false := by
    intro c member
    simpa using List.all_eq_true.mp every c member
  have space : isSpace ' ' = true := by decide
  have text : (front ++ back).toList = first ++ ' ' :: (second ++ ' ' :: back.toList) := by
    simp [shape]
  rw [text, words_cons first _ ' ' firstFilled (fun c member => plain c (by simp [member])) space,
    words_cons second _ ' ' secondFilled (fun c member => plain c (by simp [member])) space]

theorem words_videoValue (c : Capabilities) :
    words (videoValue c).toList = "40".toList :: "00".toList ::
      words (formatFields c.video.profile c.video.level c.video.cea c.video.vesa
        c.video.hh).toList :=
  words_behind "40 00 " _ _ _ (by decide) (by decide)

theorem hex8_hex (value : UInt8) : hex8 (hex 2 value.toNat) = some value := by
  rw [hex8, number_hex _ _ _ value.toNat_lt]
  simp

theorem hex32_hex (value : UInt32) : hex32 (hex 8 value.toNat) = some value := by
  rw [hex32, number_hex _ _ _ value.toNat_lt]
  simp

theorem single_tuple (c : Capabilities) :
    (videoValue c).toList.splitOn ',' = [(videoValue c).toList] := by
  have digits := hex_without (c := ',') (by decide)
  have front : ',' ∉ "40 00 ".toList := by decide
  have blank : ',' ∉ " ".toList := by decide
  have last : ',' ∉ " 00 0000 0000 00 none none".toList := by decide
  apply List.splitOn_eq_singleton
  simp only [videoValue, formatFields, hexText, String.toList_append, String.toList_ofList,
    List.mem_append, not_or, front, blank, last, digits, not_false_eq_true, and_self]

theorem tuples_videoValue (c : Capabilities) :
    parseTuples ((videoValue c).toList.splitOn ',') =
      some [⟨c.video.profile, c.video.level, c.video.cea, c.video.vesa, c.video.hh⟩] := by
  rw [single_tuple, parseTuples, parseTuple, words_videoValue, words_formatFields]
  simp [hex8_hex, hex32_hex]

def display (c : Capabilities) : SinkCaps where
  cea := c.video.cea
  vesa := c.video.vesa
  hh := c.video.hh
  profile := c.video.profile
  level := c.video.level
  lpcmModes := c.audio.lpcmModes
  rtpPort := c.ports.rtpPort
  maxBitrateKbps := some c.maxBitrateKbps
  contentProtection := none
  videoFormats := [⟨c.video.profile, c.video.level, c.video.cea, c.video.vesa, c.video.hh⟩]

/-- A source reads every field of a display's capabilities as the display meant it. -/
theorem parse_capabilitiesBody (c : Capabilities) :
    Source.parse (capabilitiesBody c) = .ok (display c) := by
  have modes : ((some (audioValue c)).bind Source.secondWord).bind hex32 =
      some c.audio.lpcmModes := by
    rw [Option.bind_some, secondWord_audio, Option.bind_some, hex32_hex]
  exact parse_read c (tuples_videoValue c) modes

theorem bit_low (mask : UInt32) (k : Nat) (bit : mask.toNat = 2 ^ k) : k < 32 := by
  have bound := mask.toNat_lt
  rw [bit] at bound
  exact (Nat.pow_lt_pow_iff_right (by decide)).mp bound

theorem bit_found (k : Nat) (low : k < 32) :
    countOnes 32 (2 ^ k) = 1 ∧ trailingZeros 32 (2 ^ k) = k := by
  have all : ∀ k < 32, countOnes 32 (2 ^ k) = 1 ∧ trailingZeros 32 (2 ^ k) = k := by
    decide +kernel
  exact all k low

theorem words_chosenValue (choice : ModeSelection) :
    words (chosenValue choice).toList = "00".toList :: "00".toList ::
      words (formatFields choice.profile choice.level (SourceSession.masks choice).1
        (SourceSession.masks choice).2.1 (SourceSession.masks choice).2.2).toList :=
  words_behind "00 00 " _ _ _ (by decide) (by decide)

theorem parseChosenVideo_eq (choice : ModeSelection) :
    Negotiation.parseChosenVideo (chosenValue choice) =
      if (SourceSession.masks choice).2.1.toNat ≠ 0 ∨ (SourceSession.masks choice).2.2.toNat ≠ 0 ∨
          countOnes 32 (SourceSession.masks choice).1.toNat ≠ 1 then none
      else ceaMode (trailingZeros 32 (SourceSession.masks choice).1.toNat) := by
  unfold Negotiation.parseChosenVideo
  rw [words_chosenValue, words_formatFields]
  dsimp only
  rw [number_hex _ _ _ (UInt32.toNat_lt _), number_hex _ _ _ (UInt32.toNat_lt _),
    number_hex _ _ _ (UInt32.toNat_lt _)]
  rfl

theorem parseChosenVideo_bit (choice : ModeSelection) (k : Nat) (bit : choice.bit.toNat = 2 ^ k) :
    Negotiation.parseChosenVideo (chosenValue choice) =
      if choice.table = .cea ∧ k = 5 then some ⟨1280, 720, 30⟩ else none := by
  have positive : 2 ^ k ≠ 0 := by positivity
  obtain ⟨one, place⟩ := bit_found k (bit_low choice.bit k bit)
  rw [parseChosenVideo_eq]
  cases table : choice.table with
  | cea =>
      simp only [SourceSession.masks, table, bit, one, place, UInt32.toNat_zero, ne_eq,
        not_true_eq_false, or_self, if_false, true_and]
      rfl
  | vesa => simp [SourceSession.masks, table, bit]
  | hh => simp [SourceSession.masks, table, bit]

def maskOf (c : Capabilities) : VideoTable → UInt32
  | .cea => c.video.cea
  | .vesa => c.video.vesa
  | .hh => c.video.hh

/-- The bit a source has picked is one the display advertised. -/
def advertises (c : Capabilities) (table : VideoTable) (k : Nat) : Bool :=
  (maskOf c table).toNat.testBit k

/-- The choice is answered with a 200, and is the mode of the negotiation from then on. -/
def Accepts (neg : Negotiation) (s : SourceSession) (choice : ModeSelection) (now : Nat)
    (mode : VideoMode) : Prop :=
  (neg.onMessageAt (s.m4 choice) now).2 = [.send (response 200 s.nextCseq "")] ∧
    (neg.onMessageAt (s.m4 choice) now).1.chosen = some mode

/-- The choice is answered with a 400, and nothing comes of it. -/
def Refuses (neg : Negotiation) (s : SourceSession) (choice : ModeSelection) (now : Nat) : Prop :=
  neg.onMessageAt (s.m4 choice) now = (neg.hear now, [.send (response 400 s.nextCseq "")])

theorem advertises_720p30 (c : Capabilities) (video : c.video = .only720p30) (table : VideoTable)
    (k : Nat) (low : k < 32) : advertises c table k = true ↔ table = .cea ∧ k = 5 := by
  have all : ∀ k < 32, VideoFormats.only720p30.cea.toNat.testBit k = true ↔ k = 5 := by
    decide +kernel
  unfold advertises maskOf
  rw [video]
  cases table with
  | cea => exact (all k low).trans (by simp)
  | vesa => simp [VideoFormats.only720p30]
  | hh => simp [VideoFormats.only720p30]

theorem onMessageAt_m4 (neg : Negotiation) (s : SourceSession) (choice : ModeSelection)
    (now : Nat) :
    neg.onMessageAt (s.m4 choice) now =
      (neg.hear now).onSetParameter s.nextCseq (s.m4 choice) := by
  have numbered : (s.m4 choice).cseq = some s.nextCseq := SourceSession.cseq_m4 s choice
  have asks : (neg.hear now).onRequest "SET_PARAMETER" (s.m4 choice) =
      (neg.hear now).onSetParameter s.nextCseq (s.m4 choice) := by
    simp [Negotiation.onRequest, numbered]
  exact asks

theorem parameters_m4 (cfg : SourceConfig) (choice : ModeSelection) :
    ∃ rest, parseParameterBody (SourceSession.m4Body cfg choice) =
      ("wfd_video_formats", chosenValue choice) :: rest := by
  have opens : Opens (chosenValue choice).toList := by
    rw [chosenValue, String.toList_append]
    exact opens_append _ _ (by decide) (formatFields_closes _ _ _ _ _).1
  have closes : Closes (chosenValue choice).toList := by
    rw [chosenValue, String.toList_append]
    exact closes_append _ _ (by decide) (formatFields_closes _ _ _ _ _)
  exact ⟨_, by rw [m4Body_lines, parameters_plain _ _ _ (by decide) opens closes]⟩

theorem m4_refused (neg : Negotiation) (s : SourceSession) (choice : ModeSelection) (now : Nat)
    (unknown : Negotiation.parseChosenVideo (chosenValue choice) = none) :
    Refuses neg s choice now := by
  obtain ⟨rest, lines⟩ := parameters_m4 s.cfg choice
  have bad : Negotiation.readable ("wfd_video_formats", chosenValue choice) = false := by
    simp [Negotiation.readable, unknown]
  have body : (s.m4 choice).body = SourceSession.m4Body s.cfg choice := rfl
  rw [Refuses, onMessageAt_m4, Negotiation.onSetParameter_eq, body, lines, List.all_cons, bad,
    Bool.false_and, if_neg (by decide), Negotiation.afterParameters_refused _ _ _ bad]

theorem m4_taken (neg : Negotiation) (s : SourceSession) (choice : ModeSelection) (now : Nat)
    (mode : VideoMode) (plain : '\n' ∉ s.cfg.presentationUrl.toList)
    (known : Negotiation.parseChosenVideo (chosenValue choice) = some mode) :
    Accepts neg s choice now mode := by
  have body : (s.m4 choice).body = SourceSession.m4Body s.cfg choice := rfl
  have lines := m4_parameters s.cfg choice plain
  have read : (parseParameterBody (s.m4 choice).body).all Negotiation.readable = true := by
    simp [body, lines, Negotiation.readable, known]
  have untriggered : Negotiation.triggerOf (parseParameterBody (s.m4 choice).body) = none := by
    simp [body, lines, Negotiation.triggerOf]
  have picked : Negotiation.lastMode (parseParameterBody (s.m4 choice).body) = some mode := by
    simp [body, lines, Negotiation.lastMode, Negotiation.applied, Negotiation.readable,
      Negotiation.modeOf, known]
  rw [Accepts, onMessageAt_m4, Negotiation.onSetParameter_eq, if_pos read, untriggered,
    if_neg (by decide)]
  exact ⟨rfl, by rw [Negotiation.afterParameters, picked, Option.some_or]⟩

/-- The sink accepts the one mode it is built to show, whatever it says it can take. With the
masks it is built with, that is what it advertises. -/
theorem m4_accepted (neg : Negotiation) (s : SourceSession) (choice : ModeSelection) (k now : Nat)
    (bit : choice.bit.toNat = 2 ^ k) (plain : '\n' ∉ s.cfg.presentationUrl.toList) :
    (if choice.table = .cea ∧ k = 5 then Accepts neg s choice now ⟨1280, 720, 30⟩
      else Refuses neg s choice now) ∧
    (neg.caps.video = .only720p30 →
      (advertises neg.caps choice.table k = true ↔ choice.table = .cea ∧ k = 5)) := by
  have read := parseChosenVideo_bit choice k bit
  refine ⟨?_, fun video =>
    advertises_720p30 neg.caps video choice.table k (bit_low choice.bit k bit)⟩
  split
  · next known =>
      rw [if_pos known] at read
      exact m4_taken neg s choice now _ plain read
  · next unknown =>
      rw [if_neg unknown] at read
      exact m4_refused neg s choice now read

/-- The choice of the one mode, by a source with the default configuration. -/
theorem m4_accepted_720p30 :
    Accepts (.new ⟨.only720p30, .lpcm48kStereo, ⟨5000⟩, 8000, true, true⟩ "01234567")
      (.new .default) choice720p30 0 ⟨1280, 720, 30⟩ :=
  (m4_accepted _ (.new .default) choice720p30 5 0 (by decide) (by decide)).1

/-- A display that advertises 1920x1080 at 30 frames, and is sent that choice. -/
theorem m4_advertised_refused :
    ¬ ∀ (c : Capabilities) (sessionId : String) (s : SourceSession) (choice : ModeSelection)
      (k now : Nat), choice.bit.toNat = 2 ^ k → '\n' ∉ s.cfg.presentationUrl.toList →
      (Accepts (.new c sessionId) s choice now choice.mode ↔
        advertises c choice.table k = true) := by
  intro agrees
  have accepts := (agrees ⟨⟨0x80, 0, 0, 2, 4⟩, .lpcm48kStereo, ⟨5000⟩, 8000, true, true⟩ "01234567"
    (.new .default) ⟨⟨1920, 1080, 30⟩, .cea, 0x80, 2, 4⟩ 7 0 (by decide) (by decide)).mpr
    (by decide)
  exact absurd accepts.2 (by decide +kernel)

end Castr.Miracast
