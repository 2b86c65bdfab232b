import Castr.Lib.Run
import Castr.Miracast.Handshake

/-! The source and the sink, joined by two channels: whatever the order of deliveries and ticks,
they agree on what is streamed and where to. -/

namespace Castr.Miracast.Agreement

open Castr.Lib.Run
open Castr.Lib.Duplex (Machine Move Carries carries_append carries_mono carries_next)
open Script

def sourceEnd : Machine SourceSession Message Action Nat :=
  ⟨SourceSession.onMessageAt, SourceSession.tick⟩

def sinkEnd : Machine Negotiation Message Action Nat := ⟨Negotiation.onMessageAt, Negotiation.tick⟩

abbrev Pair := Castr.Lib.Duplex.Link SourceSession Negotiation Message

def step (pair : Pair) (move : Move Nat) : Pair × (List Action × List Action) :=
  Castr.Lib.Duplex.step sourceEnd sinkEnd sent pair move

def begun (cfg : SourceConfig) (c : Capabilities) (sessionId : String) : Pair where
  left := (SourceSession.new cfg).start.1
  right := .new c sessionId
  toLeft := []
  toRight := sent (SourceSession.new cfg).start.2

/-- A tick does not find the other end silent for as long as the keep-alive allows. -/
def OnTime (pair : Pair) : Move Nat → Prop
  | .tickLeft now => pair.left.state = .playing → pair.left.silent now = false
  | .tickRight now =>
      (pair.right.sinceHeard now).any (fun since => keepaliveTimeout < since) = false
  | _ => True

def Timely (start : Pair) (moves : List (Move Nat)) : Prop :=
  ∀ front move back, moves = front ++ move :: back → OnTime (final step start front) move

def sourceDid (start : Pair) (moves : List (Move Nat)) : List Action :=
  (outputs step start moves).flatMap Prod.fst

/-- Neither end refuses the other, and once the source plays they mean the same stream. -/
structure Agrees (c : Capabilities) (start : Pair) (moves : List (Move Nat)) : Prop where
  polite : ∀ front move back, moves = front ++ move :: back →
    Polite (step (final step start front) move).2.1 ∧
      Polite (step (final step start front) move).2.2
  agreed : ∀ front back, moves = front ++ back → .play ∈ sourceDid start front →
    ∃ mode, (final step start front).left.chosenMode = some mode ∧
      (final step start front).right.chosen = some mode ∧
      (final step start front).left.portOfSink = some c.ports.rtpPort

/-- Both ends, and what is on its way between them, are where a stage of the script has them. -/
structure Follows (cfg : SourceConfig) (c : Capabilities) (stage : Stage) (pair : Pair) :
    Prop where
  known : stage ∈ stages
  source : SourceSession.At cfg c stage.source pair.left
  sink : Negotiation.At c stage.sink pair.right
  up : Carries (upAside (stage.source = .playing)) (upMeans c) pair.toLeft stage.up
  down : Carries (downAside (stage.source = .playing)) (downMeans cfg) pair.toRight stage.down

structure Moved (cfg : SourceConfig) (c : Capabilities) (stage : Stage)
    (result : Pair × (List Action × List Action)) (next : Stage) : Prop where
  follows : Follows cfg c next result.1
  polite : Polite result.2.1 ∧ Polite result.2.2
  lasts : stage.source = .playing → next.source = .playing
  plays : .play ∈ result.2.1 → next.source = .playing

theorem moved_still (cfg : SourceConfig) (c : Capabilities) (stage : Stage) (pair : Pair)
    (follows : Follows cfg c stage pair) : Moved cfg c stage (pair, ([], [])) stage :=
  ⟨follows, ⟨nofun, nofun⟩, fun late => late, nofun⟩

theorem carries_early (early late : Prop) (quiet : ¬ early) (c : Capabilities)
    (messages : List Message) (words : List Up)
    (carries : Carries (upAside early) (upMeans c) messages words) :
    Carries (upAside late) (upMeans c) messages words :=
  carries_mono _ (fun _ said => said.imp_right (fun heard => absurd heard.1 quiet)) _ _ carries

theorem carries_early_down (early late : Prop) (quiet : ¬ early) (cfg : SourceConfig)
    (messages : List Message) (words : List Down)
    (carries : Carries (downAside early) (downMeans cfg) messages words) :
    Carries (downAside late) (downMeans cfg) messages words :=
  carries_mono _ (fun _ said => said.imp_right (fun heard => absurd heard.1 quiet)) _ _ carries

theorem moved_source (cfg : SourceConfig) (c : Capabilities) (stage : Stage) (pair : Pair)
    (result : SourceSession × List Action) (follows : Follows cfg c stage pair)
    (does : SourceSession.Does cfg c stage.source [] result) :
    Moved cfg c stage (Castr.Lib.Duplex.leftActs sent pair result) stage := by
  refine ⟨⟨follows.known, does.stands, follows.sink, follows.up, ?_⟩, ⟨does.polite, nofun⟩,
    fun late => late, does.plays⟩
  have longer := carries_append _ _ _ _ follows.down does.speaks
  rwa [List.append_nil] at longer

theorem moved_source_on (cfg : SourceConfig) (c : Capabilities) (stage : Stage) (pair : Pair)
    (next : SourceStage) (words : List Up) (out : List Down)
    (result : SourceSession × List Action) (early : stage.source ≠ .playing)
    (known : ⟨next, stage.sink, words, stage.down ++ out⟩ ∈ stages)
    (sink : Negotiation.At c stage.sink pair.right)
    (up : Carries (upAside (stage.source = .playing)) (upMeans c) pair.toLeft words)
    (down : Carries (downAside (stage.source = .playing)) (downMeans cfg) pair.toRight stage.down)
    (does : SourceSession.Does cfg c next out result) :
    Moved cfg c stage (Castr.Lib.Duplex.leftActs sent pair result)
      ⟨next, stage.sink, words, stage.down ++ out⟩ :=
  ⟨⟨known, does.stands, sink, carries_early _ _ early c _ _ up,
      carries_append _ _ _ _ (carries_early_down _ _ early cfg _ _ down) does.speaks⟩,
    ⟨does.polite, nofun⟩, fun late => absurd late early, does.plays⟩

theorem moved_sink (cfg : SourceConfig) (c : Capabilities) (stage : Stage) (pair : Pair)
    (next : SinkStage) (words : List Down) (out : List Up) (result : Negotiation × List Action)
    (known : ⟨stage.source, next, stage.up ++ out, words⟩ ∈ stages)
    (source : SourceSession.At cfg c stage.source pair.left)
    (up : Carries (upAside (stage.source = .playing)) (upMeans c) pair.toLeft stage.up)
    (down : Carries (downAside (stage.source = .playing)) (downMeans cfg) pair.toRight words)
    (does : Negotiation.Does c (stage.source = .playing) next out result) :
    Moved cfg c stage (Castr.Lib.Duplex.rightActs sent pair result)
      ⟨stage.source, next, stage.up ++ out, words⟩ :=
  ⟨⟨known, source, does.stands, carries_append _ _ _ _ up does.speaks, down⟩,
    ⟨nofun, does.polite⟩, fun late => late, nofun⟩

theorem early_of_up (stage : Stage) (known : stage ∈ stages) (word : Up) (words : List Up)
    (some : stage.up = word :: words) : stage.source ≠ .playing := by
  intro plays
  rw [(playing_stage stage known plays).2.1] at some
  cases some

section Steps

variable (cfg : SourceConfig) (c : Capabilities) (stage : Stage) (pair : Pair) (now : Nat)

theorem deliverLeft_moved (follows : Follows cfg c stage pair)
    (fits : SourceSession.choose cfg (capabilitiesBody c) = .ok (display720p30 c, choice720p30)) :
    ∃ next, Moved cfg c stage (step pair (.deliverLeft now)) next := by
  obtain ⟨source, sink, toLeft, toRight⟩ := pair
  cases toLeft with
  | nil => exact ⟨stage, moved_still cfg c stage _ follows⟩
  | cons m rest =>
      rcases carries_next m rest _ follows.up with ⟨said, later⟩ | ⟨word, words, first,
        meant, later⟩
      · have does := SourceSession.hears_aside cfg c _ source m now follows.source said
        exact ⟨stage, moved_source cfg c stage ⟨source, sink, rest, toRight⟩ _
          ⟨follows.known, follows.source, follows.sink, later, follows.down⟩ does⟩
      · obtain ⟨next, out, expected, known⟩ := up_stage stage follows.known word words first
        have does := SourceSession.hears cfg c _ next word out source m now fits follows.source
          meant expected
        exact ⟨_, moved_source_on cfg c stage ⟨source, sink, rest, toRight⟩ next words out _
          (early_of_up stage follows.known word words first) known follows.sink later follows.down
          does⟩

theorem deliverRight_moved (follows : Follows cfg c stage pair)
    (plain : '\n' ∉ cfg.presentationUrl.toList) :
    ∃ next, Moved cfg c stage (step pair (.deliverRight now)) next := by
  obtain ⟨source, sink, toLeft, toRight⟩ := pair
  cases toRight with
  | nil => exact ⟨stage, moved_still cfg c stage _ follows⟩
  | cons m rest =>
      rcases carries_next m rest _ follows.down with
        ⟨said, later⟩ | ⟨word, words, first, meant, later⟩
      · rcases Negotiation.hears_aside c _ _ sink m now follows.sink said with does | does
        · have known : ⟨stage.source, stage.sink, stage.up ++ [], stage.down⟩ ∈ stages := by
            rw [List.append_nil]
            exact follows.known
          exact ⟨_, moved_sink cfg c stage ⟨source, sink, toLeft, rest⟩ stage.sink stage.down []
            _ known follows.source follows.up later does⟩
        · exact ⟨_, moved_sink cfg c stage ⟨source, sink, toLeft, rest⟩ _ stage.down _ _
            (sessionSeen_stage stage follows.known) follows.source follows.up later does⟩
      · obtain ⟨next, out, expected, known⟩ := down_stage stage follows.known word words first
        have does := Negotiation.hears cfg c (stage.source = .playing) _ next word out sink m now
          plain follows.sink meant expected
        exact ⟨_, moved_sink cfg c stage ⟨source, sink, toLeft, rest⟩ next words out _ known
          follows.source follows.up later does⟩

theorem tickLeft_moved (follows : Follows cfg c stage pair)
    (timely : pair.left.state = .playing → pair.left.silent now = false) :
    ∃ next, Moved cfg c stage (step pair (.tickLeft now)) next := by
  rcases SourceSession.does_tick cfg c _ pair.left now follows.source timely with
    does | ⟨waits, does⟩
  · exact ⟨stage, moved_source cfg c stage pair _ follows does⟩
  · have known : ⟨.asked, stage.sink, stage.up, stage.down ++ [.m3]⟩ ∈ stages := by
      have later := waited_stage stage follows.known
      rwa [waited, waits] at later
    exact ⟨_, moved_source_on cfg c stage pair .asked stage.up [.m3] _ (by simp [waits]) known
      follows.sink follows.up follows.down does⟩

theorem tickRight_moved (follows : Follows cfg c stage pair)
    (timely : (pair.right.sinceHeard now).any (fun since => keepaliveTimeout < since) = false) :
    ∃ next, Moved cfg c stage (step pair (.tickRight now)) next := by
  have does := Negotiation.does_tick c (stage.source = .playing) _ pair.right now
    follows.sink timely
  have known : ⟨stage.source, stage.sink, stage.up ++ [], stage.down⟩ ∈ stages := by
    rw [List.append_nil]
    exact follows.known
  exact ⟨_, moved_sink cfg c stage pair stage.sink stage.down [] _ known follows.source follows.up
    follows.down does⟩

theorem step_moved (move : Move Nat) (follows : Follows cfg c stage pair)
    (fits : SourceSession.choose cfg (capabilitiesBody c) = .ok (display720p30 c, choice720p30))
    (plain : '\n' ∉ cfg.presentationUrl.toList) (timely : OnTime pair move) :
    ∃ next, Moved cfg c stage (step pair move) next := by
  cases move with
  | deliverLeft now => exact deliverLeft_moved cfg c stage pair now follows fits
  | deliverRight now => exact deliverRight_moved cfg c stage pair now follows plain
  | tickLeft now => exact tickLeft_moved cfg c stage pair now follows timely
  | tickRight now => exact tickRight_moved cfg c stage pair now follows timely

end Steps

theorem follows_begun (cfg : SourceConfig) (c : Capabilities) (sessionId : String) :
    Follows cfg c Script.begun (begun cfg c sessionId) := by
  constructor
  · exact begun_stage
  · exact {
      cfg := rfl
      state := rfl
      unasked := iff_of_false nofun (fun later => later.1 rfl)
      answered := iff_of_false nofun (fun later => later rfl)
      numbered := fun _ => rfl
      awaited := fun _ => rfl
      keepalives := fun late => absurd late (by decide)
      chosen := fun later => absurd (by decide) later
      port := fun later => absurd later (by decide) }
  · exact ⟨rfl, rfl, fun _ => rfl, fun later => absurd (by decide) later⟩
  · exact .nil
  · refine Carries.word _ _ Down.m1 _ ⟨rfl, ?_⟩ .nil
    exact SourceSession.cseq_m1 _

theorem follows_run (cfg : SourceConfig) (c : Capabilities) (sessionId : String)
    (moves : List (Move Nat))
    (fits : SourceSession.choose cfg (capabilitiesBody c) = .ok (display720p30 c, choice720p30))
    (plain : '\n' ∉ cfg.presentationUrl.toList) (timely : Timely (begun cfg c sessionId) moves)
    (front back : List (Move Nat)) (split : moves = front ++ back) :
    ∃ stage, Follows cfg c stage (final step (begun cfg c sessionId) front) ∧
      (.play ∈ sourceDid (begun cfg c sessionId) front → stage.source = .playing) := by
  apply prefix_induction step (begun cfg c sessionId) moves (fun front pair =>
    ∃ stage, Follows cfg c stage pair ∧
      (.play ∈ sourceDid (begun cfg c sessionId) front → stage.source = .playing)) ?_ ?_
        front back split
  · exact ⟨_, follows_begun cfg c sessionId, nofun⟩
  · rintro front move back inside ⟨stage, follows, played⟩
    obtain ⟨next, moved⟩ :=
      step_moved cfg c stage _ move follows fits plain (timely front move back inside)
    refine ⟨next, moved.follows, ?_⟩
    intro member
    rw [sourceDid, outputs_snoc, List.flatMap_append, List.flatMap_singleton] at member
    rcases List.mem_append.mp member with before | now
    · exact moved.lasts (played before)
    · exact moved.plays now

/-- The two ends agree on the mode and on the port, however their messages and ticks fall. -/
theorem ends_agree (cfg : SourceConfig) (c : Capabilities) (sessionId : String)
    (moves : List (Move Nat)) (video : c.video = .only720p30) (audio : c.audio = .lpcm48kStereo)
    (low : 7000 ≤ c.maxBitrateKbps.toNat) (high : c.maxBitrateKbps.toNat ≤ 65000000)
    (allows : Allows cfg) (plain : '\n' ∉ cfg.presentationUrl.toList)
    (timely : Timely (begun cfg c sessionId) moves) :
    Agrees c (begun cfg c sessionId) moves := by
  have fits := choose_720p30 cfg c video audio allows low high
  constructor
  · intro front move back split
    obtain ⟨stage, follows, _⟩ :=
      follows_run cfg c sessionId moves fits plain timely front (move :: back) split
    obtain ⟨next, moved⟩ :=
      step_moved cfg c stage _ move follows fits plain (timely front move back split)
    exact moved.polite
  · intro front back split played
    obtain ⟨stage, follows, plays⟩ :=
      follows_run cfg c sessionId moves fits plain timely front back split
    have late := plays played
    have source := follows.source
    have sink := follows.sink
    rw [late] at source
    rw [(playing_stage stage follows.known late).1] at sink
    refine ⟨⟨1280, 720, 30⟩, ?_, sink.chosen (by decide), ?_⟩
    · rw [SourceSession.chosenMode, source.chosen (by decide)]
      rfl
    · rw [SourceSession.portOfSink, source.port (by decide)]
      rfl

/-- Deliveries alone, from M1 to the source's playing. -/
def toPlay : List (Move Nat) :=
  [.deliverRight 0, .deliverLeft 0, .deliverLeft 0, .deliverRight 0, .deliverRight 0,
    .deliverLeft 0, .deliverRight 0, .deliverLeft 0, .deliverRight 0, .deliverLeft 0,
    .deliverLeft 0, .deliverRight 0, .deliverLeft 0]

theorem ends_agree_to_play :
    Agrees ⟨.only720p30, .lpcm48kStereo, ⟨5000⟩, 8000, true, true⟩
      (begun .default ⟨.only720p30, .lpcm48kStereo, ⟨5000⟩, 8000, true, true⟩ "01234567")
      toPlay := by
  have deliveries : ∀ move ∈ toPlay, move = .deliverRight 0 ∨ move = .deliverLeft 0 := by decide
  refine ends_agree .default _ "01234567" toPlay rfl rfl (by decide) (by decide)
    nofun (by decide) ?_
  intro front move back split
  rcases deliveries move (by simp [split]) with rfl | rfl
  · trivial
  · trivial

end Castr.Miracast.Agreement
