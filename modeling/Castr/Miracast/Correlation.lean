import Castr.Lib.Numbered
import Castr.Miracast.Negotiation

/-! Which answer a sink takes for the answer to its `SETUP`. -/

namespace Castr.Miracast.Negotiation

open Castr.Lib.Run
open Castr.Lib.Numbered

/-- It plays, or gives up because the answer names no session. -/
def Concludes (out : List Action) : Prop :=
  .play ∈ out ∨ (∃ m ∈ sent out, m.method = some "PLAY") ∨ .teardown noSession ∈ out

instance (out : List Action) : Decidable (Concludes out) :=
  inferInstanceAs (Decidable (_ ∨ _ ∨ _))

def issued (start : Negotiation) (events : List NegEvent) : List Message :=
  requests (outputs step start events).flatten

/-- A 200 with the CSeq of a `SETUP` among some requests. -/
def AnswersSetup (asked : List Message) (event : NegEvent) : Prop :=
  ∃ m now, event = .message m now ∧ m.status = some 200 ∧
    ∃ setup ∈ asked, setup.method = some "SETUP" ∧ m.cseq = setup.cseq

/-- The sink concludes only on an answer to a `SETUP` it has sent. -/
def Correlated (start : Negotiation) (events : List NegEvent) : Prop :=
  ∀ front event back, events = front ++ event :: back →
    Concludes (step (final step start front) event).2 → AnswersSetup (issued start front) event

def Awaits (neg : Negotiation) : Prop := neg.state = .ready ∧ neg.peerSession = none

/-- While the sink awaits a session, only answers to its `SETUP` come. -/
def Prompt (start : Negotiation) (events : List NegEvent) : Prop :=
  ∀ front m now back, events = front ++ .message m now :: back → m.status = some 200 →
    Awaits (final step start front) → AnswersSetup (issued start front) (.message m now)

theorem concludes_iff (neg : Negotiation) (event : NegEvent) :
    Concludes (neg.step event).2 ↔
      Awaits neg ∧ ∃ m now, event = .message m now ∧ m.status = some 200 := by
  cases event with
  | message m now =>
      simp only [step, onMessageAt]
      cases start : m.start with
      | request method uri =>
          have branch := asked (neg.hear now) method m
          dsimp only
          generalize (neg.hear now).onRequest method m = result at branch
          cases branch <;> simp [Concludes, sent, Action.message, Message.status, start, noSession]
      | response status reason =>
          have branch := answered (neg.hear now) status m
          dsimp only
          generalize (neg.hear now).onResponse status m = result at branch
          cases branch with
          | refused _ bad =>
              simp [Concludes, sent, Action.message, Message.status, start, noSession, bad]
          | lost ready fresh missing =>
              have waits : Awaits neg := ⟨ready, fresh⟩
              simp [Concludes, Message.status, start, waits]
          | plays session ready fresh found =>
              have waits : Awaits neg := ⟨ready, fresh⟩
              simp [Concludes, Message.status, start, waits]
          | ignored settled =>
              have busy : ¬ Awaits neg := settled
              simp [Concludes, sent, busy]
  | tick now =>
      have branch := ticked neg now
      simp only [step]
      generalize neg.tick now = result at branch
      cases branch <;> simp [Concludes, sent, Action.message, noSession]
  | requestBitrate kbps now =>
      simp only [step, requestBitrate]
      split <;> simp [Concludes, sent, Action.message]
  | requestIdr now =>
      simp only [step, requestIdr]
      split <;> simp [Concludes, sent, Action.message]

theorem correlated_iff_prompt (start : Negotiation) (events : List NegEvent) :
    Correlated start events ↔ Prompt start events := by
  constructor
  · intro correlated front m now back split good waits
    exact correlated front _ back split ((concludes_iff _ _).mpr ⟨waits, m, now, rfl, good⟩)
  · intro prompt front event back split concludes
    obtain ⟨waits, m, now, rfl, good⟩ := (concludes_iff _ _).mp concludes
    exact prompt front m now back split good waits

def numbers (out : List Action) : List UInt32 := (requests out).filterMap Message.cseq

theorem numbering : Numbering step Negotiation.nextCseq numbers := by
  intro neg event
  rcases issues neg event with ⟨none, same⟩ | ⟨m, one, numbered, moved⟩
  · exact Or.inl ⟨by simp [numbers, none], same⟩
  · exact Or.inr ⟨by simp [numbers, one, numbered], moved⟩

theorem issued_cons (start : Negotiation) (event : NegEvent) (events : List NegEvent) :
    issued start (event :: events) =
      requests (step start event).2 ++ issued (step start event).1 events := by
  simp [issued, requests, sent]

theorem issued_append (start : Negotiation) (front back : List NegEvent) :
    issued start (front ++ back) =
      issued start front ++ issued (final step start front) back := by
  simp [issued, requests, sent, outputs_append]

theorem issued_cseq (start : Negotiation) (events : List NegEvent) :
    (issued start events).map Message.cseq =
      ((outputs step start events).flatMap numbers).map some := by
  induction events generalizing start with
  | nil => rfl
  | cons event events ih =>
      rw [issued_cons, outputs_cons, List.flatMap_cons, List.map_append, List.map_append, ih]
      rcases issues start event with ⟨none, same⟩ | ⟨m, one, numbered, moved⟩
      · simp [numbers, none]
      · simp [numbers, one, numbered]

theorem issued_unique (start : Negotiation) (events : List NegEvent)
    (few : (issued start events).length ≤ 2 ^ 32) (left right : Message)
    (mine : left ∈ issued start events) (other : right ∈ issued start events)
    (same : left.cseq = right.cseq) : left = right := by
  have lengths := congrArg List.length (issued_cseq start events)
  rw [List.length_map, List.length_map] at lengths
  have distinct := numbered_nodup step Negotiation.nextCseq numbers numbering start events
    (lengths ▸ few)
  have named : ((issued start events).map Message.cseq).Nodup := by
    rw [issued_cseq]
    exact distinct.map (fun _ _ => Option.some.inj)
  exact List.inj_on_of_nodup_map named mine other same

/-- The sink tells the answer to its `SETUP` from other answers exactly as long as no other 200
comes while it awaits a session; and then the answer to none of its other requests concludes. -/
theorem told_apart_iff_prompt (caps : Capabilities) (sessionId : String) (events : List NegEvent) :
    (Correlated (new caps sessionId) events ↔ Prompt (new caps sessionId) events) ∧
      ((issued (new caps sessionId) events).length ≤ 2 ^ 32 → Prompt (new caps sessionId) events →
        ∀ front m now back, events = front ++ .message m now :: back →
          ∀ other ∈ issued (new caps sessionId) front, other.method ≠ some "SETUP" →
            m.cseq = other.cseq →
            ¬ Concludes (step (final step (new caps sessionId) front) (.message m now)).2) := by
  refine ⟨correlated_iff_prompt _ _, ?_⟩
  intro few prompt front m now back split other mine apart same concludes
  have correlated := (correlated_iff_prompt _ _).mpr prompt
  obtain ⟨answer, time, event, good, setup, before, method, answers⟩ :=
    correlated front _ back split concludes
  cases event
  have short : (issued (new caps sessionId) front).length ≤ 2 ^ 32 := by
    rw [split, issued_append, List.length_append] at few
    omega
  have one := issued_unique _ front short setup other before mine (answers ▸ same)
  exact apart (one ▸ method)

/-- Its `OPTIONS` is answered only after the source has asked for the `SETUP`. -/
def lateOptions : List NegEvent :=
  [.message (request "OPTIONS" "*" 1 "") 0,
    .message (request "SET_PARAMETER" "rtsp://localhost/wfd1.0" 2
      "wfd_trigger_method: SETUP\r\n") 1,
    .message (response 200 100 "") 2]

theorem late_options_uncorrelated :
    ¬ Correlated (new ⟨.only720p30, .lpcm48kStereo, ⟨5000⟩, 8000, true, true⟩ "01234567")
      lateOptions := by
  intro correlated
  obtain ⟨m, now, event, good, setup, before, method, answers⟩ :=
    correlated (lateOptions.take 2) _ [] rfl (by decide)
  cases event
  have apart : ∀ setup ∈ issued
      (new ⟨.only720p30, .lpcm48kStereo, ⟨5000⟩, 8000, true, true⟩ "01234567")
      (lateOptions.take 2), setup.method = some "SETUP" → (response 200 100 "").cseq ≠
        setup.cseq := by
    decide
  exact apart setup before method answers

end Castr.Miracast.Negotiation
