import Castr.Lib.Run
import Castr.Miracast.Source.Session

/-! How far a source's session has come, what can take it back, and when silence ends it. -/

namespace Castr.Miracast.SourceSession

open Castr.Lib.Run

def rank : SourceState → Nat
  | .init => 0
  | .awaitingCaps => 1
  | .configuring => 2
  | .awaitingSetup => 3
  | .playing => 4
  | .done => 5

theorem rank_le_done (state : SourceState) : rank state ≤ rank .done := by
  cases state <;> decide

theorem rank_done (state : SourceState) : rank .done ≤ rank state ↔ state = .done := by
  cases state <;> decide

theorem rank_playing (state : SourceState) :
    rank .playing ≤ rank state ↔ state = .playing ∨ state = .done := by
  cases state <;> decide

theorem rank_le_playing (state : SourceState) : rank state ≤ rank .playing ↔ state ≠ .done := by
  cases state <;> decide

def started (cfg : SourceConfig) : SourceSession := (new cfg).start.1

/-- A step that does not go back, and plays only what was chosen and set up. -/
structure Forward (s : SourceSession) (setUp : Prop) (result : SourceSession × List Action) :
    Prop where
  onward : rank s.state ≤ rank result.1.state
  played : .play ∈ result.2 → s.state ≠ .done ∧ result.1.chosen ≠ none ∧ setUp

theorem forward_iff_parts (s next : SourceSession) (setUp : Prop) (out : List Action) :
    Forward s setUp (next, out) ↔ rank s.state ≤ rank next.state ∧
      (.play ∈ out → s.state ≠ .done ∧ next.chosen ≠ none ∧ setUp) :=
  ⟨fun h => ⟨h.onward, h.played⟩, fun h => ⟨h.1, h.2⟩⟩

/-- What the display may send in a state: no `SETUP` once it plays, no `PLAY` before a mode is
chosen and a `SETUP` answered or after the end, and the answers to M3 and M4 not after what
they lead to. -/
def Allowed (s : SourceSession) (setUp : Prop) : SourceEvent → Prop
  | .message m _ =>
      (m.method = some "SETUP" → rank s.state ≤ rank .awaitingSetup) ∧
      (m.method = some "PLAY" → s.state ≠ .done ∧ s.chosen ≠ none ∧ setUp) ∧
      (∀ cseq, m.status = some 200 → m.cseq = some cseq → s.pending cseq = some .m3 →
        (choose s.cfg m.body).isOk = true → rank s.state ≤ rank .configuring) ∧
      (∀ cseq, m.status = some 200 → m.cseq = some cseq → s.pending cseq = some .m4 →
        rank s.state ≤ rank .awaitingSetup)
  | .tick _ => True
  | .teardown => True

theorem forward_asked (s : SourceSession) (setUp : Prop) (m : Message) (now : Nat)
    (method uri : String) (start : m.start = .request method uri)
    (result : SourceSession × List Action) (branch : Asked (s.hear now) m method result) :
    Forward s setUp result ↔ Allowed s setUp (.message m now) := by
  have named : m.method = some method := by simp [Message.method, start]
  have unanswered : m.status = none := by simp [Message.status, start]
  simp only [Allowed, named, unanswered]
  cases branch with
  | m2 unasked ready => simp [forward_iff_parts, askCapabilities, expect]
  | options settled => simp [forward_iff_parts]
  | setup => simp [forward_iff_parts]
  | play =>
      have live := rank_le_playing s.state
      simp only [forward_iff_parts, chosen_hear]
      simp [live]
  | teardown => simp [forward_iff_parts, rank_le_done]
  | told keyframes shape bitrates =>
      have quiet : Action.play ∉ keyframes := fun member => by cases shape _ member
      simp [forward_iff_parts, quiet]
  | polite _ named =>
      rcases named with rfl | rfl <;> simp [forward_iff_parts]
  | unknown _ other =>
      simp only [List.mem_cons, List.not_mem_nil, or_false, not_or] at other
      simp [forward_iff_parts, other]

theorem forward_answered (s : SourceSession) (setUp : Prop) (m : Message) (now status : Nat)
    (reason : String) (start : m.start = .response status reason)
    (result : SourceSession × List Action) (branch : Answered (s.hear now) m now status result) :
    Forward s setUp result ↔ Allowed s setUp (.message m now) := by
  have unasked : m.method = none := by simp [Message.method, start]
  have named : m.status = some status := by simp [Message.status, start]
  simp only [Allowed, unasked, named]
  cases branch with
  | foreign _ unawaited =>
      have nothing (cseq : UInt32) (kind : Pending) (numbered : m.cseq = some cseq) :
          s.pending cseq ≠ some kind := by
        intro awaited
        have missing := unawaited cseq numbered
        rw [pending_hear, awaited] at missing
        cases missing
      refine iff_of_true (by simp [forward_iff_parts]) ⟨nofun, nofun, ?_, ?_⟩
      · intro cseq _ numbered awaited
        exact absurd awaited (nothing cseq .m3 numbered)
      · intro cseq _ numbered awaited
        exact absurd awaited (nothing cseq .m4 numbered)
  | refused _ cseq kind numbered awaited bad => simp [forward_iff_parts, settle, bad]
  | m1 cseq numbered awaited =>
      rw [pending_hear] at awaited
      simp [forward_iff_parts, settle, numbered, awaited]
  | unfit cseq numbered awaited reason failed =>
      rw [pending_hear] at awaited
      rw [cfg_hear] at failed
      simp [forward_iff_parts, settle, numbered, awaited, failed, Except.isOk, Except.toBool]
  | m3 cseq numbered awaited sink choice chosen =>
      rw [pending_hear] at awaited
      rw [cfg_hear] at chosen
      simp [forward_iff_parts, expect, settle, numbered, awaited, chosen, Except.isOk,
        Except.toBool]
  | m4 cseq numbered awaited =>
      rw [pending_hear] at awaited
      simp [forward_iff_parts, expect, settle, numbered, awaited]
  | noted cseq kind numbered awaited rest =>
      rw [pending_hear] at awaited
      simp only [List.mem_cons, List.not_mem_nil, or_false, not_or] at rest
      simp [forward_iff_parts, settle, numbered, awaited, rest]

theorem forward_ticked (s : SourceSession) (setUp : Prop) (now : Nat)
    (result : SourceSession × List Action) (branch : Ticked s now result) :
    Forward s setUp result := by
  cases branch with
  | m3 finished => simp [forward_iff_parts, askCapabilities, expect]
  | idle waits other => simp [forward_iff_parts]
  | silent waits playing late => simp [forward_iff_parts, rank_le_done]
  | asks waits playing heard due => simp [forward_iff_parts, expect]
  | still waits playing heard early => simp [forward_iff_parts]

theorem forward_iff (s : SourceSession) (setUp : Prop) (event : SourceEvent) :
    Forward s setUp (s.step event) ↔ Allowed s setUp event := by
  cases event with
  | message m now =>
      simp only [step, onMessageAt]
      cases start : m.start with
      | request method uri =>
          exact forward_asked s setUp m now method uri start _ (asked _ method m)
      | response status reason =>
          exact forward_answered s setUp m now status reason start _ (answered _ status m now)
  | tick now => exact iff_of_true (forward_ticked s setUp now _ (ticked s now)) trivial
  | teardown =>
      exact iff_of_true (by simp [forward_iff_parts, step, teardown, rank_le_done]) trivial

/-- A `SETUP` of the display has come, and with it its answer has gone out. -/
def SetUp (events : List SourceEvent) : Prop :=
  ∃ m now, .message m now ∈ events ∧ m.method = some "SETUP"

/-- Over a run the state never goes back, its end is final, and the stream starts only when a mode
is chosen and set up; from then until the end the session is watched. -/
structure Progresses (start : SourceSession) (events : List SourceEvent) : Prop where
  onward : ∀ front middle back, events = front ++ middle ++ back →
    rank (final step start front).state ≤ rank (final step start (front ++ middle)).state
  absorbed : ∀ front event back, events = front ++ event :: back →
    (final step start front).state = .done →
      (final step start (front ++ [event])).state = .done ∧
        .play ∉ (step (final step start front) event).2
  played : ∀ front event back, events = front ++ event :: back →
    .play ∈ (step (final step start front) event).2 →
      (final step start (front ++ [event])).chosen ≠ none ∧ SetUp front
  watched : ∀ front event middle back, events = front ++ event :: middle ++ back →
    .play ∈ (step (final step start front) event).2 →
      (final step start (front ++ event :: middle)).state = .playing ∨
        (final step start (front ++ event :: middle)).state = .done

/-- Every message of the display is allowed in the state it finds. -/
def Orderly (start : SourceSession) (events : List SourceEvent) : Prop :=
  ∀ front event back, events = front ++ event :: back →
    Allowed (final step start front) (SetUp front) event

theorem play_asked (s : SourceSession) (m : Message) (method : String)
    (result : SourceSession × List Action) (branch : Asked s m method result)
    (plays : .play ∈ result.2) : result.1.state = .playing := by
  cases branch with
  | play => rfl
  | told keyframes shape bitrates =>
      have quiet : Action.play ∉ keyframes := fun member => by cases shape _ member
      simp [quiet] at plays
  | _ => simp at plays

theorem play_playing (s : SourceSession) (event : SourceEvent) (plays : .play ∈ (s.step event).2) :
    (s.step event).1.state = .playing := by
  cases event with
  | message m now =>
      simp only [step, onMessageAt] at plays ⊢
      cases start : m.start with
      | request method uri =>
          rw [start] at plays
          exact play_asked _ m method _ (asked _ method m) plays
      | response status reason =>
          rw [start] at plays
          have branch := answered (s.hear now) status m now
          dsimp only at plays
          generalize (s.hear now).onResponse status m now = result at branch plays
          cases branch <;> simp at plays
  | tick now =>
      have branch := ticked s now
      simp only [step] at plays
      generalize s.tick now = result at branch plays
      cases branch <;> simp at plays
  | teardown => simp [step] at plays

theorem source_progresses_iff_orderly (cfg : SourceConfig) (events : List SourceEvent) :
    Progresses (started cfg) events ↔ Orderly (started cfg) events := by
  constructor
  · intro progresses front event back split
    apply (forward_iff _ _ event).mp
    have onward := progresses.onward front [event] back (by simp [split])
    rw [final_snoc] at onward
    refine ⟨onward, ?_⟩
    intro plays
    have played := progresses.played front event back split plays
    rw [final_snoc] at played
    refine ⟨?_, played⟩
    intro finished
    exact (progresses.absorbed front event back split finished).2 plays
  · intro orderly
    have forward (front : List SourceEvent) (event : SourceEvent) (back : List SourceEvent)
        (split : events = front ++ event :: back) :=
      (forward_iff (final step (started cfg) front) (SetUp front) event).mpr
        (orderly front event back split)
    have onward := final_along step (started cfg) events
      (fun first second => rank first.state ≤ rank second.state)
      (fun _ => le_refl _) (fun _ _ _ => le_trans)
      (fun front event back split => (forward front event back split).onward)
    refine ⟨onward, ?_, ?_, ?_⟩
    · intro front event back split finished
      have kept := forward front event back split
      rw [final_snoc]
      refine ⟨(rank_done _).mp ?_, fun plays => (kept.played plays).1 finished⟩
      rw [← finished]
      exact kept.onward
    · intro front event back split plays
      rw [final_snoc]
      exact ((forward front event back split).played plays).2
    · intro front event middle back split plays
      have later := onward (front ++ [event]) middle back (by simp [split])
      rw [final_snoc, play_playing _ event plays] at later
      simpa using (rank_playing _).mp later

/-- The display sets up the stream anew while it plays. -/
def setUpAgain : List SourceEvent :=
  [.message (request "SETUP" "rtsp://localhost/wfd1.0/streamid=0" 1 "") 0,
    .message (request "PLAY" "rtsp://localhost/wfd1.0/streamid=0" 2 "") 1,
    .message (request "SETUP" "rtsp://localhost/wfd1.0/streamid=0" 3 "") 2]

theorem set_up_again_not_progressing : ¬ Progresses (started .default) setUpAgain := by
  intro progresses
  have onward := progresses.onward (setUpAgain.take 2) (setUpAgain.drop 2) [] rfl
  exact absurd onward (by decide)

def messageTime : SourceEvent → Option Nat
  | .message _ now => some now
  | _ => none

def lastMessage (events : List SourceEvent) : Option Nat := (events.filterMap messageTime).getLast?

theorem lastMessage_snoc (events : List SourceEvent) (event : SourceEvent) :
    lastMessage (events ++ [event]) = (messageTime event).or (lastMessage events) := by
  unfold lastMessage
  rw [List.filterMap_append]
  cases time : messageTime event with
  | none => simp [time]
  | some now => simp [time]

@[simp] theorem lastHeard_notePort (s : SourceSession) (m : Message) :
    (s.notePort m).lastHeard = s.lastHeard := by
  unfold notePort
  split <;> rfl

theorem lastHeard_asked (s : SourceSession) (m : Message) (method : String)
    (result : SourceSession × List Action) (branch : Asked s m method result) :
    result.1.lastHeard = s.lastHeard := by
  cases branch with
  | setup => exact lastHeard_notePort s m
  | _ => rfl

theorem lastHeard_answered (s : SourceSession) (m : Message) (now status : Nat)
    (result : SourceSession × List Action) (branch : Answered s m now status result) :
    result.1.lastHeard = s.lastHeard := by
  cases branch <;> rfl

theorem lastHeard_ticked (s : SourceSession) (now : Nat) (result : SourceSession × List Action)
    (branch : Ticked s now result) : result.1.lastHeard = s.lastHeard := by
  cases branch <;> rfl

theorem lastHeard_step (s : SourceSession) (event : SourceEvent) :
    (s.step event).1.lastHeard = (messageTime event).or s.lastHeard := by
  cases event with
  | message m now =>
      simp only [step, onMessageAt]
      cases m.start with
      | request method uri => exact lastHeard_asked _ m method _ (asked (s.hear now) method m)
      | response status reason =>
          exact lastHeard_answered _ m now status _ (answered (s.hear now) status m now)
  | tick now => exact lastHeard_ticked s now _ (ticked s now)
  | teardown => rfl

theorem lastHeard_run (cfg : SourceConfig) (events : List SourceEvent) :
    (final step (started cfg) events).lastHeard = lastMessage events := by
  apply final_induction step (started cfg) events
    (fun front state => state.lastHeard = lastMessage front) rfl
  intro front event back _ now
  rw [lastHeard_step, lastMessage_snoc, now]

/-- A session plays only after the display has spoken. -/
def Heard (s : SourceSession) : Prop := s.state = .playing → s.lastHeard ≠ none

theorem heard_step (s : SourceSession) (event : SourceEvent) (heard : Heard s) :
    Heard (s.step event).1 := by
  intro playing
  rw [lastHeard_step]
  cases event with
  | message m now => simp [messageTime]
  | tick now =>
      have branch := ticked s now
      simp only [step, messageTime, Option.none_or] at playing ⊢
      generalize s.tick now = result at branch playing
      cases branch with
      | silent => cases playing
      | m3 => exact heard playing
      | idle waits other => exact absurd playing other
      | asks waits before => exact heard before
      | still waits before => exact heard before
  | teardown => cases playing

theorem heard_run (cfg : SourceConfig) (events : List SourceEvent) :
    Heard (final step (started cfg) events) :=
  final_invariant step (started cfg) events Heard (fun playing => by cases playing)
    (fun state event _ heard => heard_step state event heard)

/-- The later of the start and the last message. -/
def lastWord (began : Nat) (events : List SourceEvent) : Nat :=
  (lastMessage events).elim began (max began)

theorem tick_ends_iff (s : SourceSession) (now : Nat) :
    ((∃ reason, .teardown reason ∈ (s.tick now).2) ∧ (s.tick now).1.state = .done) ↔
      s.state = .playing ∧ s.graceOver now = false ∧ s.silent now = true := by
  have branch := ticked s now
  generalize s.tick now = result at branch
  cases branch with
  | m3 finished => simp [finished]
  | idle waits other => simp [other]
  | silent waits playing late => simp [waits, playing, late]
  | asks waits playing heard due => simp [heard]
  | still waits playing heard early => simp [heard]

/-- A display that has been silent for more than ten seconds is given up on exactly when the
session plays, unless M3 is just due: in every other state the tick ends nothing. -/
theorem silent_ended_iff_playing (cfg : SourceConfig) (began now : Nat) (events : List SourceEvent)
    (late : lastWord began events + keepaliveTimeout < now) :
    ((∃ reason, .teardown reason ∈ (step (final step (started cfg) events) (.tick now)).2) ∧
        (step (final step (started cfg) events) (.tick now)).1.state = .done) ↔
      (final step (started cfg) events).state = .playing ∧
        (final step (started cfg) events).graceOver now = false := by
  simp only [step]
  rw [tick_ends_iff]
  constructor
  · rintro ⟨playing, waits, _⟩
    exact ⟨playing, waits⟩
  · rintro ⟨playing, waits⟩
    refine ⟨playing, waits, ?_⟩
    obtain ⟨heard, known⟩ := Option.ne_none_iff_exists'.mp (heard_run cfg events playing)
    have last := lastHeard_run cfg events
    rw [known] at last
    rw [lastWord, ← last, Option.elim_some] at late
    simp only [silent, known, Option.any_some, decide_eq_true_eq]
    omega

/-- The stream plays at once, and the display is heard no more. -/
def playsAndFallsSilent : List SourceEvent :=
  [.message (request "PLAY" "rtsp://localhost/wfd1.0/streamid=0" 1 "") 5]

theorem silent_ended_playing :
    ((∃ reason, .teardown reason ∈
        (step (final step (started .default) playsAndFallsSilent) (.tick 11000000000)).2) ∧
        (step (final step (started .default) playsAndFallsSilent) (.tick 11000000000)).1.state =
          .done) ↔
      (final step (started .default) playsAndFallsSilent).state = .playing ∧
        (final step (started .default) playsAndFallsSilent).graceOver 11000000000 = false :=
  silent_ended_iff_playing .default 0 11000000000 playsAndFallsSilent (by decide)

/-- The display takes the connection and never answers M1. -/
theorem silent_unanswered_waits :
    (final step (started .default) []).state ≠ .done ∧
      lastWord 0 [] + keepaliveTimeout < 11000000000 ∧
      (step (final step (started .default) []) (.tick 11000000000)).2 = [] ∧
      (step (final step (started .default) []) (.tick 11000000000)).1.state = .awaitingCaps := by
  decide

end Castr.Miracast.SourceSession
