import Castr.Miracast.Source.Session

/-! The texts the two ends write, as the other end reads them. -/

namespace Castr.Miracast

open Castr.Lib.Text
open Source
open SourceSession (ceilingOf)

def line (name value : String) : String := name ++ ": " ++ value ++ "\r\n"

/-- A name as the parameters have them: no colon and no white space in it. -/
def Name (name : String) : Prop :=
  name.toList ≠ [] ∧ ∀ c ∈ name.toList, isSpace c = false ∧ c ≠ ':'

instance (name : String) : Decidable (Name name) :=
  @instDecidableAnd _ _ _ (List.decidableBAll _ _)

theorem parameter_line (name value : List Char) (some : name ≠ [])
    (solid : ∀ c ∈ name, isSpace c = false ∧ c ≠ ':') :
    parameter (trim (name ++ ':' :: value)) = (String.ofList name, String.ofList (trim value)) := by
  have colon : isSpace ':' = false := by decide
  have trimmed : trim (name ++ ':' :: value) = name ++ ':' :: trimEnd value := by
    cases name with
    | nil => exact absurd rfl some
    | cons c name =>
        rw [List.cons_append, trim, trimStart_solid c _ (solid c List.mem_cons_self).1,
          ← List.cons_append, trimEnd_append _ value ':' colon]
  have word : trim name = name := trim_word name (fun c member => (solid c member).1)
  have free : ':' ∉ name := fun member => (solid ':' member).2 rfl
  rw [trimmed, parameter, splitOnce_append ':' name _ free]
  simp only [word, trim_trimEnd]

theorem line_toList (name value : String) :
    (line name value).toList = name.toList ++ ':' :: ' ' :: value.toList ++ ['\r', '\n'] := by
  have colon : ": ".toList = [':', ' '] := by decide
  have ends : "\r\n".toList = ['\r', '\n'] := by decide
  simp [line, colon, ends]

theorem parameters_line (name value rest : String) (named : Name name)
    (whole : '\n' ∉ value.toList) :
    parseParameterBody (line name value ++ rest) =
      (name, String.ofList (trim value.toList)) :: parseParameterBody rest := by
  have single : '\n' ∉ name.toList ++ ':' :: ' ' :: value.toList := by
    simp only [List.mem_append, List.mem_cons, not_or]
    refine ⟨fun member => ?_, by decide, by decide, whole⟩
    exact absurd (named.2 '\n' member).1 (by decide)
  have shape : (line name value ++ rest).toList =
      (name.toList ++ ':' :: ' ' :: value.toList) ++ '\r' :: '\n' :: rest.toList := by
    simp [line_toList]
  have read := parameter_line name.toList (' ' :: value.toList) named.1 named.2
  have filled : trim (name.toList ++ ':' :: ' ' :: value.toList) ≠ [] := by
    intro none
    rw [none] at read
    have empty : name = "" := by
      have first := congrArg Prod.fst read
      simpa [parameter, splitOnce] using first.symm
    exact named.1 (by simp [empty])
  simp only [parseParameterBody, shape, lines_cons _ _ single, List.map_cons]
  rw [List.filter_cons_of_pos (by simpa using filled), List.map_cons, read, String.ofList_toList,
    trim_space ' ' _ (by decide)]

def Opens (text : List Char) : Prop :=
  '\n' ∉ text ∧ text ≠ [] ∧ ∀ c ∈ text.head?, isSpace c = false

def Closes (text : List Char) : Prop :=
  '\n' ∉ text ∧ text ≠ [] ∧ ∀ c ∈ text.getLast?, isSpace c = false

instance (text : List Char) : Decidable (Opens text) :=
  @instDecidableAnd _ _ _ (@instDecidableAnd _ _ _ (Option.decidableForallMem _))

instance (text : List Char) : Decidable (Closes text) :=
  @instDecidableAnd _ _ _ (@instDecidableAnd _ _ _ (Option.decidableForallMem _))

theorem opens_append (front back : List Char) (opens : Opens front) (whole : '\n' ∉ back) :
    Opens (front ++ back) := by
  obtain ⟨single, filled, solid⟩ := opens
  refine ⟨List.not_mem_append single whole, List.append_ne_nil_of_left_ne_nil filled back, ?_⟩
  rw [List.head?_append_of_ne_nil front filled]
  exact solid

theorem closes_append (front back : List Char) (whole : '\n' ∉ front) (closes : Closes back) :
    Closes (front ++ back) := by
  obtain ⟨single, filled, solid⟩ := closes
  refine ⟨List.not_mem_append whole single, List.append_ne_nil_of_right_ne_nil front filled, ?_⟩
  rw [List.getLast?_append_of_ne_nil front filled]
  exact solid

theorem parameters_plain (name value rest : String) (named : Name name)
    (opens : Opens value.toList) (closes : Closes value.toList) :
    parseParameterBody (line name value ++ rest) = (name, value) :: parseParameterBody rest := by
  rw [parameters_line name value rest named opens.1, trim_ends _ opens.2.2 closes.2.2,
    String.ofList_toList]

theorem parameters_nil : parseParameterBody "" = [] := by decide

theorem decimal_toString (value : Nat) : (toString value).toList = decimal value := by
  simp [decimal]

theorem ne_newline (c : Char) (solid : isSpace c = false) : c ≠ '\n' := by
  rintro rfl
  exact absurd solid (by decide)

theorem decimal_line (value : Nat) : '\n' ∉ decimal value :=
  fun member => ne_newline _ (decimal_solid value _ member) rfl

theorem hex_line (width value : Nat) : '\n' ∉ hex width value :=
  fun member => ne_newline _ (hex_solid width value _ member) rfl

theorem decimal_opens (value : Nat) : Opens (decimal value) :=
  ⟨decimal_line value, decimal_ne_nil value,
    fun c member => decimal_solid value c (List.mem_of_mem_head? member)⟩

theorem decimal_closes (value : Nat) : Closes (decimal value) :=
  ⟨decimal_line value, decimal_ne_nil value,
    fun c member => decimal_solid value c (List.mem_of_mem_getLast? member)⟩

theorem formatFields_closes (profile level : UInt8) (cea vesa hh : UInt32) :
    Closes (formatFields profile level cea vesa hh).toList := by
  have blank : '\n' ∉ " ".toList := by decide
  have trailer : Closes " 00 0000 0000 00 none none".toList := by decide
  have spaced (front : List Char) (width value : Nat) (whole : '\n' ∉ front) :
      '\n' ∉ front ++ " ".toList ++ hex width value :=
    List.not_mem_append (List.not_mem_append whole blank) (hex_line width value)
  simp only [formatFields, hexText, String.toList_append, String.toList_ofList]
  apply closes_append _ _ _ trailer
  exact spaced _ _ _ (spaced _ _ _ (spaced _ _ _ (spaced _ _ _ (hex_line _ _))))

def flagLines (c : Capabilities) : String :=
  (if c.latencyManagement then line "microsoft_latency_management_capability" "supported"
    else "") ++
  (if c.formatChange then line "microsoft_format_change_support" "supported" else "")

theorem closed_lines :
    "wfd_content_protection: none\r\n" = line "wfd_content_protection" "none" ∧
    "microsoft_latency_management_capability: supported\r\n" =
      line "microsoft_latency_management_capability" "supported" ∧
    "microsoft_format_change_support: supported\r\n" =
      line "microsoft_format_change_support" "supported" := by
  simp [line]

def videoValue (c : Capabilities) : String :=
  "40 00 " ++ formatFields c.video.profile c.video.level c.video.cea c.video.vesa c.video.hh

def audioValue (c : Capabilities) : String := "LPCM " ++ hexText 8 c.audio.lpcmModes.toNat ++ " 00"

def portsValue (port : UInt16) : String :=
  "RTP/AVP/UDP;unicast " ++ toString port.toNat ++ " 0 mode=play"

theorem capabilitiesBody_lines (c : Capabilities) : capabilitiesBody c =
    line "wfd_video_formats" (videoValue c) ++ (line "wfd_audio_codecs" (audioValue c) ++
    (line "wfd_content_protection" "none" ++
    (line "wfd_client_rtp_ports" (portsValue c.ports.rtpPort) ++
    (line "microsoft_max_bitrate" (toString c.maxBitrateKbps.toNat) ++ flagLines c)))) := by
  have video : "wfd_video_formats: 40 00 " = "wfd_video_formats" ++ ": " ++ "40 00 " := by simp
  have audio : "wfd_audio_codecs: LPCM " = "wfd_audio_codecs" ++ ": " ++ "LPCM " := by simp
  have audioEnd : " 00\r\n" = " 00" ++ "\r\n" := by simp
  have ports : "wfd_client_rtp_ports: RTP/AVP/UDP;unicast " =
      "wfd_client_rtp_ports" ++ ": " ++ "RTP/AVP/UDP;unicast " := by simp
  have portsEnd : " 0 mode=play\r\n" = " 0 mode=play" ++ "\r\n" := by simp
  have bitrate : "microsoft_max_bitrate: " = "microsoft_max_bitrate" ++ ": " := by simp
  unfold capabilitiesBody flagLines videoValue audioValue portsValue
  simp only [closed_lines, video, audio, audioEnd, ports, portsEnd, bitrate]
  -- `line` stays folded until here, or the literals are compared character by character
  unfold line
  simp only [String.append_assoc]

def flags (c : Capabilities) : List (String × String) :=
  (if c.latencyManagement then [("microsoft_latency_management_capability", "supported")]
    else []) ++
  (if c.formatChange then [("microsoft_format_change_support", "supported")] else [])

theorem parameters_flagLines (c : Capabilities) : parseParameterBody (flagLines c) = flags c := by
  unfold flagLines flags
  cases c.latencyManagement <;> cases c.formatChange <;> decide

theorem videoValue_opens (c : Capabilities) : Opens (videoValue c).toList := by
  rw [videoValue, String.toList_append]
  exact opens_append _ _ (by decide) (formatFields_closes _ _ _ _ _).1

theorem videoValue_closes (c : Capabilities) : Closes (videoValue c).toList := by
  rw [videoValue, String.toList_append]
  exact closes_append _ _ (by decide) (formatFields_closes _ _ _ _ _)

theorem around_opens (front back : String) (number : List Char) (opens : Opens front.toList)
    (inside : '\n' ∉ number) (whole : '\n' ∉ back.toList) :
    Opens (front ++ String.ofList number ++ back).toList := by
  simp only [String.toList_append, String.toList_ofList]
  exact opens_append _ _ (opens_append _ _ opens inside) whole

theorem around_closes (front back : String) (number : List Char) (whole : '\n' ∉ front.toList)
    (inside : '\n' ∉ number) (closes : Closes back.toList) :
    Closes (front ++ String.ofList number ++ back).toList := by
  simp only [String.toList_append, String.toList_ofList]
  exact closes_append _ _ (List.not_mem_append whole inside) closes

theorem portsValue_opens (port : UInt16) : Opens (portsValue port).toList :=
  around_opens "RTP/AVP/UDP;unicast " " 0 mode=play" _ (by decide) (decimal_line _) (by decide)

theorem portsValue_closes (port : UInt16) : Closes (portsValue port).toList :=
  around_closes "RTP/AVP/UDP;unicast " " 0 mode=play" _ (by decide) (decimal_line _) (by decide)

theorem capabilities_parameters (c : Capabilities) : parseParameterBody (capabilitiesBody c) =
    [("wfd_video_formats", videoValue c), ("wfd_audio_codecs", audioValue c),
      ("wfd_content_protection", "none"), ("wfd_client_rtp_ports", portsValue c.ports.rtpPort),
      ("microsoft_max_bitrate", toString c.maxBitrateKbps.toNat)] ++ flags c := by
  have audioOpens : Opens (audioValue c).toList :=
    around_opens "LPCM " " 00" _ (by decide) (hex_line _ _) (by decide)
  have audioCloses : Closes (audioValue c).toList :=
    around_closes "LPCM " " 00" _ (by decide) (hex_line _ _) (by decide)
  rw [capabilitiesBody_lines,
    parameters_plain _ _ _ (by decide) (videoValue_opens c) (videoValue_closes c),
    parameters_plain _ _ _ (by decide) audioOpens audioCloses,
    parameters_plain _ _ _ (by decide) (by decide) (by decide),
    parameters_plain _ _ _ (by decide) (portsValue_opens _) (portsValue_closes _),
    parameters_plain _ _ _ (by decide) (decimal_toString _ ▸ decimal_opens _)
      (decimal_toString _ ▸ decimal_closes _),
    parameters_flagLines]
  rfl

theorem get_first (name value : String) (rest : List (String × String)) :
    Source.get ((name, value) :: rest) name = some value := by
  simp [Source.get]

theorem get_other (name other value : String) (rest : List (String × String))
    (differs : other ≠ name) : Source.get ((other, value) :: rest) name = Source.get rest name := by
  simp [Source.get, differs]

theorem secondWord_around (front back : String) (word number rest : List Char)
    (first : front.toList = word ++ [' ']) (last : back.toList = ' ' :: rest)
    (some : word ≠ []) (solid : word.all (fun c => !isSpace c) = true)
    (filled : number ≠ []) (plain : ∀ c ∈ number, isSpace c = false) :
    secondWord (front ++ String.ofList number ++ back) = Option.some number := by
  have solid : ∀ c ∈ word, isSpace c = false := by simpa using solid
  have shape : (front ++ String.ofList number ++ back).toList =
      word ++ ' ' :: (number ++ ' ' :: rest) := by simp [first, last]
  rw [secondWord, shape, words_cons word _ ' ' some solid (by decide),
    words_cons number rest ' ' filled plain (by decide)]
  rfl

theorem secondWord_ports (port : UInt16) :
    secondWord (portsValue port) = some (decimal port.toNat) :=
  secondWord_around "RTP/AVP/UDP;unicast " " 0 mode=play" "RTP/AVP/UDP;unicast".toList _
    "0 mode=play".toList (by decide) (by decide) (by decide) (by decide) (decimal_ne_nil _)
    (decimal_solid _)

theorem secondWord_audio (c : Capabilities) :
    secondWord (audioValue c) = some (hex 8 c.audio.lpcmModes.toNat) :=
  secondWord_around "LPCM " " 00" "LPCM".toList _ "00".toList (by decide) (by decide) (by decide)
    (by decide) (hex_ne_nil _ _) (hex_solid _ _)

theorem capabilities_get (c : Capabilities) :
    Source.get (parseParameterBody (capabilitiesBody c)) "wfd_video_formats" =
      some (videoValue c) ∧
    Source.get (parseParameterBody (capabilitiesBody c)) "wfd_audio_codecs" =
      some (audioValue c) ∧
    Source.get (parseParameterBody (capabilitiesBody c)) "wfd_content_protection" = some "none" ∧
    Source.get (parseParameterBody (capabilitiesBody c)) "wfd_client_rtp_ports" =
      some (portsValue c.ports.rtpPort) ∧
    Source.get (parseParameterBody (capabilitiesBody c)) "microsoft_max_bitrate" =
      some (toString c.maxBitrateKbps.toNat) := by
  rw [capabilities_parameters]
  simp only [List.cons_append]
  refine ⟨get_first _ _ _, ?_, ?_, ?_, ?_⟩
  · rw [get_other _ _ _ _ (by decide), get_first]
  · rw [get_other _ _ _ _ (by decide), get_other _ _ _ _ (by decide), get_first]
  · rw [get_other _ _ _ _ (by decide), get_other _ _ _ _ (by decide),
      get_other _ _ _ _ (by decide), get_first]
  · rw [get_other _ _ _ _ (by decide), get_other _ _ _ _ (by decide),
      get_other _ _ _ _ (by decide), get_other _ _ _ _ (by decide), get_first]

def display720p30 (c : Capabilities) : SinkCaps where
  cea := 0x20
  vesa := 0
  hh := 0
  profile := 0x02
  level := 0x04
  lpcmModes := 0x02
  rtpPort := c.ports.rtpPort
  maxBitrateKbps := some c.maxBitrateKbps
  contentProtection := none
  videoFormats := [⟨0x02, 0x04, 0x20, 0, 0⟩]

theorem tuples_720p30 (c : Capabilities) (video : c.video = .only720p30) :
    parseTuples ((videoValue c).toList.splitOn ',') = some [⟨0x02, 0x04, 0x20, 0, 0⟩] := by
  rw [videoValue, video]
  decide

theorem parse_read (c : Capabilities) {tuple : VideoCodecCaps} {modes : UInt32}
    (tuples : parseTuples ((videoValue c).toList.splitOn ',') = some [tuple])
    (heard : ((some (audioValue c)).bind secondWord).bind hex32 = some modes) :
    Source.parse (capabilitiesBody c) = .ok {
      profile := tuple.profile
      level := tuple.level
      cea := tuple.cea
      vesa := tuple.vesa
      hh := tuple.hh
      lpcmModes := modes
      rtpPort := c.ports.rtpPort
      maxBitrateKbps := some c.maxBitrateKbps
      contentProtection := none
      videoFormats := [tuple] } := by
  obtain ⟨videoLine, audioLine, protectionLine, portsLine, bitrateLine⟩ := capabilities_get c
  have port : ((some (portsValue c.ports.rtpPort)).bind secondWord).bind (fun port =>
      (number 10 (2 ^ 16) port).map UInt16.ofNat) = some c.ports.rtpPort := by
    rw [Option.bind_some, secondWord_ports, Option.bind_some,
      number_decimal _ _ c.ports.rtpPort.toNat_lt]
    simp
  have bitrate : (number 10 (2 ^ 32) (trim (toString c.maxBitrateKbps.toNat).toList)).map
      UInt32.ofNat = some c.maxBitrateKbps := by
    rw [decimal_toString, trim_decimal,
      number_decimal _ _ c.maxBitrateKbps.toNat_lt]
    simp
  have unprotected : (some "none").filter (fun value => trim value.toList ≠ "none".toList) =
      none := by decide
  unfold Source.parse
  dsimp only
  rw [videoLine]
  dsimp only
  rw [tuples, audioLine, protectionLine, portsLine, bitrateLine]
  dsimp only
  rw [heard, port, unprotected, Option.bind_some, bitrate]
  rfl

theorem parse_capabilities (c : Capabilities) (video : c.video = .only720p30)
    (audio : c.audio = .lpcm48kStereo) :
    Source.parse (capabilitiesBody c) = .ok (display720p30 c) := by
  have modes : ((some (audioValue c)).bind secondWord).bind hex32 = some 0x02 := by
    rw [Option.bind_some, secondWord_audio, audio]
    decide
  exact parse_read c (tuples_720p30 c video) modes

/-- The one mode the sink here advertises, as a source takes it. -/
def choice720p30 : ModeSelection where
  mode := ⟨1280, 720, 30⟩
  table := .cea
  bit := 0x20
  profile := 0x02
  level := 0x01

theorem findSome?_only {α β : Type*} (f : α → Option β) (items : List α) (item : α) (found : β)
    (others : ∀ other ∈ items, other ≠ item → f other = none) (member : item ∈ items)
    (hit : f item = some found) : items.findSome? f = some found := by
  induction items with
  | nil => cases member
  | cons first items ih =>
      rw [List.findSome?_cons]
      by_cases same : first = item
      · rw [same, hit]
      · rw [others first List.mem_cons_self same]
        have later := (List.mem_cons.mp member).resolve_left (fun eq => same eq.symm)
        exact ih (fun other inside => others other (List.mem_cons_of_mem first inside)) later

theorem tableModes_720p30 : tableModes ⟨0x02, 0x04, 0x20, 0, 0⟩ =
    [(.cea, 0x20, ⟨1280, 720, 30⟩)] := by decide

theorem select_other (wanted : VideoMode) (required : UInt8) (other : wanted ≠ ⟨1280, 720, 30⟩) :
    select wanted required ⟨0x02, 0x04, 0x20, 0, 0⟩ = none := by
  unfold select
  split
  · rfl
  · rw [tableModes_720p30]
    simp [Ne.symm other]

theorem mem_ourModes (mode : Castr.Proto.Mode) (total : Nat) (room : 7 ≤ total) :
    ⟨1280, 720, 30⟩ ∈ ourModes mode (some (total - 3)) := by
  have cost : needsMbps ⟨1280, 720, 30⟩ = 4 := by decide
  have listed : (⟨1280, 720, 30⟩ : VideoMode) ∈ allModes := by decide
  rw [ourModes, List.mem_filter, List.mem_insertionSort]
  refine ⟨listed, ?_⟩
  simp only [Option.all_some, cost, decide_eq_true_eq]
  omega

theorem chooseSelection_720p30 (c : Capabilities) (mode : Castr.Proto.Mode) (total : Nat)
    (room : 7 ≤ total) :
    chooseSelection (display720p30 c) (ourModes mode (some (total - 3))) = .ok choice720p30 := by
  have formats : codecFormats (display720p30 c) = [⟨0x02, 0x04, 0x20, 0, 0⟩] := rfl
  have found := findSome?_only
    (fun wanted => (requiredLevel wanted).bind (fun required =>
      (codecFormats (display720p30 c)).findSome? (select wanted required)))
    (ourModes mode (some (total - 3))) ⟨1280, 720, 30⟩ choice720p30 (by
      intro other _ differs
      cases requiredLevel other with
      | none => rfl
      | some required => simp [formats, select_other other required differs])
    (mem_ourModes mode total room) (by
      rw [formats]
      decide)
  unfold chooseSelection
  rw [found]

/-- A source's own ceiling leaves room for 1280x720 at 30 frames. -/
def Allows (cfg : SourceConfig) : Prop :=
  ∀ ceiling ∈ cfg.ceilingMbps, needsMbps ⟨1280, 720, 30⟩ + 3 ≤ ceiling.toNat

theorem ceilingOf_room (cfg : SourceConfig) (c : Capabilities) (allows : Allows cfg)
    (low : 7000 ≤ c.maxBitrateKbps.toNat) (high : c.maxBitrateKbps.toNat ≤ 65000000) :
    ∃ total, ceilingOf cfg (display720p30 c) = some total ∧ 7 ≤ total := by
  have cost : needsMbps ⟨1280, 720, 30⟩ = 4 := by decide
  have whole : 7 ≤ c.maxBitrateKbps.toNat / 1000 % 2 ^ 16 := by omega
  unfold ceilingOf
  cases own : cfg.ceilingMbps with
  | none => exact ⟨_, rfl, whole⟩
  | some ceiling =>
      have room := allows ceiling own
      exact ⟨_, rfl, le_min (by omega) whole⟩

theorem choose_720p30 (cfg : SourceConfig) (c : Capabilities) (video : c.video = .only720p30)
    (audio : c.audio = .lpcm48kStereo) (allows : Allows cfg)
    (low : 7000 ≤ c.maxBitrateKbps.toNat) (high : c.maxBitrateKbps.toNat ≤ 65000000) :
    SourceSession.choose cfg (capabilitiesBody c) = .ok (display720p30 c, choice720p30) := by
  obtain ⟨total, ceiling, room⟩ := ceilingOf_room cfg c allows low high
  have stereo : (display720p30 c).lpcmModes.toNat.testBit 1 = true := by
    show (0x02 : UInt32).toNat.testBit 1 = true
    decide
  unfold SourceSession.choose
  rw [parse_capabilities c video audio]
  dsimp only
  rw [ceiling, Option.map_some, chooseSelection_720p30 c cfg.mode total room]
  dsimp only
  rw [stereo]
  rfl

def chosenValue (choice : ModeSelection) : String :=
  let (cea, vesa, hh) := SourceSession.masks choice
  "00 00 " ++ formatFields choice.profile choice.level cea vesa hh

theorem closed_m4_lines :
    "wfd_audio_codecs: LPCM 00000002 00\r\n" = line "wfd_audio_codecs" "LPCM 00000002 00" := by
  simp [line]

theorem m4Body_lines (cfg : SourceConfig) (choice : ModeSelection) :
    SourceSession.m4Body cfg choice =
      line "wfd_video_formats" (chosenValue choice) ++
      (line "wfd_audio_codecs" "LPCM 00000002 00" ++
      (line "wfd_presentation_URL" (cfg.presentationUrl ++ " none") ++
      (line "wfd_client_rtp_ports" (portsValue cfg.rtpPort) ++ ""))) := by
  have video : "wfd_video_formats: 00 00 " = "wfd_video_formats" ++ ": " ++ "00 00 " := by simp
  have url : "wfd_presentation_URL: " = "wfd_presentation_URL" ++ ": " := by simp
  have urlEnd : " none\r\n" = " none" ++ "\r\n" := by simp
  have ports : "wfd_client_rtp_ports: RTP/AVP/UDP;unicast " =
      "wfd_client_rtp_ports" ++ ": " ++ "RTP/AVP/UDP;unicast " := by simp
  have portsEnd : " 0 mode=play\r\n" = " 0 mode=play" ++ "\r\n" := by simp
  unfold SourceSession.m4Body chosenValue portsValue
  simp only [closed_m4_lines, video, url, urlEnd, ports, portsEnd]
  unfold line
  simp only [String.append_assoc, String.append_empty]

theorem m4_parameters (cfg : SourceConfig) (choice : ModeSelection)
    (plain : '\n' ∉ cfg.presentationUrl.toList) :
    parseParameterBody (SourceSession.m4Body cfg choice) =
      [("wfd_video_formats", chosenValue choice), ("wfd_audio_codecs", "LPCM 00000002 00"),
        ("wfd_presentation_URL",
          String.ofList (trim (cfg.presentationUrl ++ " none").toList)),
        ("wfd_client_rtp_ports", portsValue cfg.rtpPort)] := by
  have opens : Opens (chosenValue choice).toList := by
    rw [chosenValue, String.toList_append]
    exact opens_append _ _ (by decide) (formatFields_closes _ _ _ _ _).1
  have closes : Closes (chosenValue choice).toList := by
    rw [chosenValue, String.toList_append]
    exact closes_append _ _ (by decide) (formatFields_closes _ _ _ _ _)
  have single : '\n' ∉ (cfg.presentationUrl ++ " none").toList := by
    rw [String.toList_append]
    exact List.not_mem_append plain (by decide)
  rw [m4Body_lines, parameters_plain _ _ _ (by decide) opens closes,
    parameters_plain _ _ _ (by decide) (by decide) (by decide),
    parameters_line _ _ _ (by decide) single,
    parameters_plain _ _ _ (by decide) (portsValue_opens _) (portsValue_closes _),
    parameters_nil]

theorem parseChosenVideo_720p30 :
    Negotiation.parseChosenVideo (chosenValue choice720p30) = some ⟨1280, 720, 30⟩ := by decide

theorem readParameters_other (neg : Negotiation) (trigger : Option String) (name value : String)
    (rest : List (String × String))
    (other : name ∉ ["wfd_video_formats", "wfd_presentation_URL", "wfd_trigger_method"]) :
    neg.readParameters trigger ((name, value) :: rest) = neg.readParameters trigger rest := by
  simp only [List.mem_cons, List.not_mem_nil, or_false, not_or] at other
  simp only [Negotiation.readParameters, other, if_false]

theorem readParameters_m4 (neg : Negotiation) (cfg : SourceConfig)
    (plain : '\n' ∉ cfg.presentationUrl.toList) :
    ∃ url, neg.readParameters none
        (parseParameterBody (SourceSession.m4Body cfg choice720p30)) =
      .ok ({ neg with chosen := some ⟨1280, 720, 30⟩, presentationUrl := url }, none) := by
  rw [m4_parameters cfg choice720p30 plain, Negotiation.readParameters, if_pos rfl,
    parseChosenVideo_720p30]
  dsimp only
  rw [readParameters_other _ _ _ _ _ (by decide), Negotiation.readParameters,
    if_neg (by decide), if_pos rfl, readParameters_other _ _ _ _ _ (by decide)]
  exact ⟨_, rfl⟩

theorem readParameters_m5 (neg : Negotiation) :
    neg.readParameters none (parseParameterBody "wfd_trigger_method: SETUP\r\n") =
      .ok (neg, some "SETUP") := by
  have read : parseParameterBody "wfd_trigger_method: SETUP\r\n" =
      [("wfd_trigger_method", "SETUP")] := by decide
  have trimmed : String.ofList (trim "SETUP".toList) = "SETUP" := by decide
  rw [read, Negotiation.readParameters, if_neg (by decide), if_neg (by decide), if_pos rfl,
    trimmed, Negotiation.readParameters]

theorem stripPrefix_append (front back : List Char) :
    stripPrefix front (front ++ back) = some back := by
  rw [stripPrefix, if_pos (List.prefix_append front back), List.drop_left]

theorem transportClientPort_setup (port : UInt16) :
    transportClientPort ("RTP/AVP/UDP;unicast;client_port=" ++ toString port.toNat).toList =
      some port := by
  have front : "RTP/AVP/UDP;unicast;client_port=".toList =
      "RTP/AVP/UDP".toList ++ ';' :: ("unicast".toList ++ ';' :: "client_port=".toList) := by decide
  have shape : ("RTP/AVP/UDP;unicast;client_port=" ++ toString port.toNat).toList =
      "RTP/AVP/UDP".toList ++ ';' :: ("unicast".toList ++ ';' ::
        ("client_port=".toList ++ decimal port.toNat)) := by
    rw [String.toList_append, front, decimal_toString]
    simp only [List.append_assoc, List.cons_append]
  have last : ';' ∉ "client_port=".toList ++ decimal port.toNat :=
    List.not_mem_append (by decide) (decimal_without _ (by decide))
  have pieces : ("RTP/AVP/UDP;unicast;client_port=" ++ toString port.toNat).toList.splitOn ';' =
      ["RTP/AVP/UDP".toList, "unicast".toList, "client_port=".toList ++ decimal port.toNat] := by
    rw [shape, List.splitOn_append_cons_self, List.splitOn_append_cons_self,
      List.splitOn_eq_singleton last, List.splitOn_eq_singleton (by decide),
      List.splitOn_eq_singleton (by decide)]
    rfl
  have others : ["RTP/AVP/UDP".toList, "unicast".toList].all (fun part =>
      stripPrefix "client_port=".toList (trim part) = none) = true := by decide
  simp only [List.all_cons, List.all_nil, Bool.and_true, Bool.and_eq_true, decide_eq_true_eq]
    at others
  have named : "client_port=".toList.all (fun c => !isSpace c) = true := by decide
  have solid (c : Char) (member : c ∈ "client_port=".toList ++ decimal port.toNat) :
      isSpace c = false := by
    rcases List.mem_append.mp member with front | digit
    · simpa using List.all_eq_true.mp named c front
    · exact decimal_solid _ c digit
  have whole : (decimal port.toNat).splitOn '-' = [decimal port.toNat] :=
    List.splitOn_eq_singleton (decimal_without _ (by decide))
  rw [transportClientPort, pieces, List.findSome?_cons, others.1, Option.bind_none]
  dsimp only
  rw [List.findSome?_cons, others.2, Option.bind_none]
  dsimp only
  rw [List.findSome?_cons, trim_word _ solid, stripPrefix_append, Option.bind_some, whole,
    List.headD_cons, number_decimal _ _ port.toNat_lt]
  simp

end Castr.Miracast
