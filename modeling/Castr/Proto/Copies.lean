import Castr.Proto.Resumption

/-! The stream's parameters are kept twice, in the session's state and beside it. -/

namespace Castr.Proto.ReceiverSession

open Castr.Lib.Run

/-- The parameters of the state, if it has them, are the ones beside it. -/
def Agrees (s : ReceiverSession) : Prop := ∀ params, s.state = .streaming params → s.params = params

/-- A session that has not been greeted has no parameters. -/
structure Sound (s : ReceiverSession) : Prop where
  agrees : s.Agrees
  unset : s.state = .awaitingHello → s.params = none

/-- A `SetMode` that is another mode than the stream's. -/
def ChangesMode (s : ReceiverSession) : SessionEvent → Prop
  | .message (.setMode mode) _ =>
      s.state.isStreaming = true ∧ ∃ params, s.params = some params ∧ params.mode ≠ mode
  | _ => False

theorem new_sound (name : String) (caps : Capabilities) (token : Token) :
    (new name caps token).Sound :=
  ⟨by simp [Agrees, new], fun _ => rfl⟩

theorem sound_of_state {s next : ReceiverSession} (sound : s.Sound)
    (params : next.params = s.params)
    (state : next.state = s.state ∨ next.state = .closed ∨
      (∃ since, next.state = .disconnected since) ∨ next.state = .streaming s.params) :
    next.Sound := by
  rcases state with same | closed | ⟨since, left⟩ | streams
  · refine ⟨fun other streaming => ?_, fun waits => ?_⟩
    · rw [params]
      exact sound.agrees other (same ▸ streaming)
    · rw [params]
      exact sound.unset (same ▸ waits)
  · exact ⟨by simp [Agrees, closed], by simp [closed]⟩
  · exact ⟨by simp [Agrees, left], by simp [left]⟩
  · refine ⟨fun other streaming => ?_, by simp [streams]⟩
    rw [params]
    exact ReceiverState.streaming.inj (streams.symm.trans streaming)

theorem setMode_sound {s : ReceiverSession} (sound : s.Sound) (mode : Mode) (nowUs : UInt64)
    (still : ¬ s.ChangesMode (.message (.setMode mode) nowUs)) :
    (s.onMessage (.setMode mode) nowUs).1.Sound := by
  simp only [onMessage]
  split
  · rename_i streaming
    refine sound_of_state sound ?_ (Or.inl rfl)
    cases set : s.params with
    | none => rfl
    | some params =>
        have same : params.mode = mode := by
          by_contra other
          exact still ⟨streaming, params, set, other⟩
        subst same
        rfl
  · exact sound

theorem step_sound {s : ReceiverSession} (sound : s.Sound) (event : SessionEvent)
    (still : ¬ s.ChangesMode event) : (s.step event).1.Sound := by
  cases event with
  | disconnect nowUs =>
      simp only [step, onDisconnect]
      split
      · exact sound
      · exact sound_of_state sound rfl (Or.inr (Or.inr (Or.inl ⟨nowUs, rfl⟩)))
  | message message nowUs =>
      cases message with
      | hello version name token =>
          have answer := greeted s version name token nowUs
          simp only [step]
          generalize s.onMessage (.hello version name token) nowUs = next at answer
          cases answer with
          | refused => exact sound_of_state sound rfl (Or.inr (Or.inl rfl))
          | fresh own waits =>
              exact sound_of_state sound rfl
                (Or.inr (Or.inr (Or.inr (by rw [sound.unset waits]))))
          | resumed => exact sound_of_state sound rfl (Or.inr (Or.inr (Or.inr rfl)))
          | rejected => exact sound_of_state sound rfl (Or.inr (Or.inl rfl))
          | ignored => exact sound
      | startStream params =>
          simp only [step, onMessage]
          split
          · exact ⟨fun other streaming => ReceiverState.streaming.inj streaming, by simp⟩
          · exact sound
      | setMode mode => exact setMode_sound sound mode nowUs still
      | goodbye reason => exact sound_of_state sound rfl (Or.inr (Or.inl rfl))
      | _ => exact sound

theorem changesMode_disagrees {s : ReceiverSession} (agrees : s.Agrees) (event : SessionEvent)
    (changes : s.ChangesMode event) : ¬ (s.step event).1.Agrees := by
  cases event with
  | disconnect nowUs => exact changes.elim
  | message message nowUs =>
      cases message with
      | setMode mode =>
          obtain ⟨streaming, params, set, other⟩ := changes
          intro still
          simp only [step, onMessage, streaming, if_true] at still
          cases state : s.state with
          | streaming copy =>
              have before := agrees copy state
              have after := still copy state
              rw [set] at before
              rw [set, ← before, Option.map_some] at after
              exact other (congrArg StreamParams.mode (Option.some.inj after)).symm
          | _ => simp [state, ReceiverState.isStreaming] at streaming
      | _ => exact changes.elim

/-- The copies agree in every state of a run exactly when no `SetMode` of the run changes the mode
of a stream. -/
theorem copies_agree_iff (name : String) (caps : Capabilities) (token : Token)
    (events : List SessionEvent) :
    (∀ front back, events = front ++ back → (final step (new name caps token) front).Agrees) ↔
      ∀ front event back, events = front ++ event :: back →
        ¬ (final step (new name caps token) front).ChangesMode event := by
  constructor
  · intro agrees front event back split changes
    have before := agrees front (event :: back) split
    have after := agrees (front ++ [event]) back (by simp [split])
    rw [final_snoc] at after
    exact changesMode_disagrees before event changes after
  · intro still front back split
    have sound : (final step (new name caps token) front).Sound := by
      apply final_induction step _ front (fun _ s => s.Sound) (new_sound name caps token)
      intro before event after inside now
      exact step_sound now event (still before event (after ++ back) (by simp [split, inside]))
    exact sound.agrees

def mirror : Capabilities := ⟨1920, 1080, 60, 10000000, [.h264], true⟩

def gameStream : StreamParams := ⟨.h264, 1920, 1080, 60, .game, 5000000⟩

/-- A stream in Game mode, and the switch to Quality. -/
def switching : List SessionEvent :=
  [.message (.hello protocolVersion "pc" none) 0, .message (.startStream gameStream) 1,
    .message (.setMode .quality) 2]

theorem copies_differ :
    (final step (new "tv" mirror (Vector.replicate 16 7)) switching).state =
      .streaming (some gameStream) ∧
    (final step (new "tv" mirror (Vector.replicate 16 7)) switching).params =
      some { gameStream with mode := .quality } := by
  decide

end Castr.Proto.ReceiverSession
