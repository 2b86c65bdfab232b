import Castr.Miracast.Correlation

/-! How far a sink's negotiation has come, and what can take it back. -/

namespace Castr.Miracast.Negotiation

open Castr.Lib.Run
open Castr.Lib.Text (trim)

def rank : NegState → Nat
  | .init => 0
  | .capabilities => 1
  | .ready => 2
  | .playing => 3
  | .done => 4

theorem rank_done (state : NegState) : rank .done ≤ rank state ↔ state = .done := by
  cases state <;> decide

theorem rank_le_done (state : NegState) : rank state ≤ rank .done := by
  cases state <;> decide

/-- A step that does not go back, ends what it tears down, and says nothing new once over. -/
structure Forward (neg : Negotiation) (result : Negotiation × List Action) : Prop where
  onward : rank neg.state ≤ rank result.1.state
  ended : ∀ reason, .teardown reason ∈ result.2 → result.1.state = .done
  quiet : neg.state = .done → .play ∉ result.2 ∧ requests result.2 = []

theorem forward_iff_parts (neg next : Negotiation) (out : List Action) :
    Forward neg (next, out) ↔ rank neg.state ≤ rank next.state ∧
      (∀ reason, .teardown reason ∈ out → next.state = .done) ∧
      (neg.state = .done → .play ∉ out ∧ requests out = []) :=
  ⟨fun h => ⟨h.onward, h.ended, h.quiet⟩, fun h => ⟨h.1, h.2.1, h.2.2⟩⟩

/-- What the negotiation may be given in a state: no capabilities asked once ready, no trigger
once playing, no refusal and no answer without a session before it is over, and no question
after. -/
def Allowed (neg : Negotiation) : NegEvent → Prop
  | .message m _ =>
      (m.method = some "OPTIONS" → neg.state ≠ .done) ∧
      (m.method = some "GET_PARAMETER" → trim m.body.toList ≠ [] →
        rank neg.state ≤ rank .capabilities) ∧
      (m.method = some "SET_PARAMETER" → Known (parseParameterBody m.body) →
        triggerOf (parseParameterBody m.body) = some "SETUP" → rank neg.state ≤ rank .ready) ∧
      (∀ status, m.status = some status → status ≠ 200 → neg.state = .done) ∧
      (m.status = some 200 → Awaits neg → sessionOf m ≠ none)
  | .tick _ => True
  | .requestBitrate _ _ => True
  | .requestIdr now => neg.state = .done → neg.idrTooSoon now = true

theorem forward_asked (neg : Negotiation) (m : Message) (now : Nat) (method uri : String)
    (start : m.start = .request method uri) (result : Negotiation × List Action)
    (branch : Asked (neg.hear now) m method result) :
    Forward neg result ↔ Allowed neg (.message m now) := by
  have named : m.method = some method := by simp [Message.method, start]
  have unanswered : m.status = none := by simp [Message.status, start]
  simp only [Allowed, named, unanswered]
  cases branch with
  | options =>
      simp [forward_iff_parts, hear, bump, requests, sent, Action.message]
  | keepalive blank =>
      simp [forward_iff_parts, hear, requests, sent, Action.message, blank]
  | capabilities names =>
      simp [forward_iff_parts, hear, requests, sent, Action.message, names]
  | refused chosen url unknown =>
      simp [forward_iff_parts, hear, requests, sent, Action.message, unknown]
  | told chosen url known plain =>
      simp [forward_iff_parts, hear, requests, sent, Action.message, plain]
  | triggered chosen url known trigger =>
      have live (low : rank neg.state ≤ rank .ready) : neg.state ≠ .done := by
        intro finished
        rw [finished] at low
        exact absurd low (by decide)
      simpa [forward_iff_parts, hear, bump, requests, sent, Action.message, known, trigger]
        using live
  | teardown =>
      simp [forward_iff_parts, hear, requests, sent, Action.message, rank_le_done]
  | unknown _ other =>
      simp only [List.mem_cons, List.not_mem_nil, or_false, not_or] at other
      simp [forward_iff_parts, hear, requests, sent, Action.message, other]

theorem forward_answered (neg : Negotiation) (m : Message) (now status : Nat) (reason : String)
    (start : m.start = .response status reason) (result : Negotiation × List Action)
    (branch : Answered (neg.hear now) m status result) :
    Forward neg result ↔ Allowed neg (.message m now) := by
  have unasked : m.method = none := by simp [Message.method, start]
  have named : m.status = some status := by simp [Message.status, start]
  simp only [Allowed, unasked, named]
  cases branch with
  | refused _ bad =>
      simp [forward_iff_parts, hear, requests, sent, Action.message, bad]
  | lost ready fresh missing =>
      have waits : Awaits neg := ⟨ready, fresh⟩
      have live : neg.state ≠ .done := by simp [waits.1]
      simp [forward_iff_parts, hear, missing, waits, live]
  | plays session ready fresh found =>
      have waits : Awaits neg := ⟨ready, fresh⟩
      simp [forward_iff_parts, bump, found, waits.1, rank]
  | ignored settled =>
      have busy : ¬ Awaits neg := settled
      simp [forward_iff_parts, hear, requests, sent, busy]

theorem forward_ticked (neg : Negotiation) (now : Nat) (result : Negotiation × List Action)
    (branch : Ticked neg now result) : Forward neg result := by
  cases branch with
  | still quiet => simp [forward_iff_parts, requests, sent]
  | silent live late => simp [forward_iff_parts, rank_le_done, live]
  | asks live heard due => simp [forward_iff_parts, bump, live]

theorem forward_iff (neg : Negotiation) (event : NegEvent) :
    Forward neg (neg.step event) ↔ Allowed neg event := by
  cases event with
  | message m now =>
      simp only [step, onMessageAt]
      cases start : m.start with
      | request method uri => exact forward_asked neg m now method uri start _ (asked _ method m)
      | response status reason =>
          exact forward_answered neg m now status reason start _ (answered _ status m)
  | tick now => exact iff_of_true (forward_ticked neg now _ (ticked neg now)) trivial
  | requestBitrate kbps now =>
      refine iff_of_true ?_ trivial
      simp only [step, requestBitrate]
      split
      · rename_i playing
        simp [forward_iff_parts, bump, playing]
      · simp [forward_iff_parts, requests, sent]
  | requestIdr now =>
      simp only [step, requestIdr, Allowed]
      split
      · rename_i soon
        simp [forward_iff_parts, requests, sent, soon]
      · rename_i late
        simp [forward_iff_parts, bump, requests, sent, Action.message, late]

/-- Over a run the state never goes back, a teardown ends it, and its end is final. -/
structure Progresses (start : Negotiation) (events : List NegEvent) : Prop where
  onward : ∀ front middle back, events = front ++ middle ++ back →
    rank (final step start front).state ≤ rank (final step start (front ++ middle)).state
  ended : ∀ front event back, events = front ++ event :: back →
    ∀ reason, .teardown reason ∈ (step (final step start front) event).2 →
      (final step start (front ++ [event])).state = .done
  absorbed : ∀ front event back, events = front ++ event :: back →
    (final step start front).state = .done →
      (final step start (front ++ [event])).state = .done ∧
        .play ∉ (step (final step start front) event).2 ∧
        requests (step (final step start front) event).2 = []

/-- Every event of the run is allowed in the state it finds. -/
def Orderly (start : Negotiation) (events : List NegEvent) : Prop :=
  ∀ front event back, events = front ++ event :: back → Allowed (final step start front) event

theorem progresses_iff_orderly (caps : Capabilities) (sessionId : String) (events : List NegEvent) :
    Progresses (new caps sessionId) events ↔ Orderly (new caps sessionId) events := by
  constructor
  · intro progresses front event back split
    apply (forward_iff _ event).mp
    have onward := progresses.onward front [event] back (by simp [split])
    have ended := progresses.ended front event back split
    rw [final_snoc] at onward ended
    exact ⟨onward, ended, fun finished => (progresses.absorbed front event back split finished).2⟩
  · intro orderly
    have forward (front : List NegEvent) (event : NegEvent) (back : List NegEvent)
        (split : events = front ++ event :: back) :=
      (forward_iff (final step (new caps sessionId) front) event).mpr
        (orderly front event back split)
    refine ⟨?_, ?_, ?_⟩
    · exact final_along step _ events (fun first second => rank first.state ≤ rank second.state)
        (fun _ => le_refl _) (fun _ _ _ => le_trans)
        (fun front event back split => (forward front event back split).onward)
    · intro front event back split reason torn
      rw [final_snoc]
      exact (forward front event back split).ended reason torn
    · intro front event back split finished
      have kept := forward front event back split
      rw [final_snoc]
      refine ⟨(rank_done _).mp ?_, kept.quiet finished⟩
      rw [← finished]
      exact kept.onward

/-- A source that asks for the capabilities once more while it streams. -/
def askedAgain : List NegEvent :=
  [.message (request "SET_PARAMETER" "rtsp://localhost/wfd1.0" 2 "wfd_trigger_method: SETUP\r\n") 0,
    .message ((response 200 100 "").addHeader "Session" "1234") 1,
    .message (request "GET_PARAMETER" "rtsp://localhost/wfd1.0" 3 "wfd_video_formats\r\n") 2]

theorem asked_again_not_progressing :
    ¬ Progresses (new ⟨.only720p30, .lpcm48kStereo, ⟨5000⟩, 8000, true, true⟩ "01234567")
      askedAgain := by
  intro progresses
  have onward := progresses.onward (askedAgain.take 2) (askedAgain.drop 2) [] rfl
  exact absurd onward (by decide)

end Castr.Miracast.Negotiation
