import Castr.Lib.Run
import Castr.Proto.Session

/-! When a `ReceiverSession` is resumed, over whole histories of messages and disconnects. -/

namespace Castr.Proto

open Castr.Lib.Run
open Castr.Lib.Word (saturatingSub saturatingSub_toNat)

inductive SessionEvent where
  | message (message : ControlMessage) (nowUs : UInt64)
  | disconnect (nowUs : UInt64)
  deriving DecidableEq, Repr

def SessionEvent.nowUs : SessionEvent → UInt64
  | .message _ nowUs => nowUs
  | .disconnect nowUs => nowUs

namespace ReceiverSession

def step (s : ReceiverSession) : SessionEvent → ReceiverSession × List Action
  | .message message nowUs => s.onMessage message nowUs
  | .disconnect nowUs => (s.onDisconnect nowUs, [])

/-- What a `Hello` can do to a session: nothing, or one of the four answers. -/
inductive Greeted (s : ReceiverSession) (version : UInt16) (token : Option Token)
    (nowUs : UInt64) : ReceiverSession × List Action → Prop where
  | refused (other : version ≠ protocolVersion) :
      Greeted s version token nowUs ({ s with state := .closed }, badVersion version)
  | fresh (own : version = protocolVersion) (waits : s.state = .awaitingHello) :
      Greeted s version token nowUs
        ({ s with state := .streaming none }, [.send s.ack, .send (.sessionToken s.token)])
  | resumed (own : version = protocolVersion) (since : UInt64)
      (waits : s.state = .disconnected since) (known : token = some s.token)
      (young : nowUs.toNat ≤ since.toNat + tokenTtlUs.toNat) :
      Greeted s version token nowUs
        ({ s with state := .streaming s.params }, [.send s.ack, .resumed])
  | rejected (own : version = protocolVersion) (since : UInt64)
      (waits : s.state = .disconnected since) :
      Greeted s version token nowUs ({ s with state := .closed }, badToken)
  | ignored (own : version = protocolVersion)
      (busy : s.state.isStreaming = true ∨ s.state = .closed) :
      Greeted s version token nowUs (s, [])

theorem greeted (s : ReceiverSession) (version : UInt16) (name : String) (token : Option Token)
    (nowUs : UInt64) :
    Greeted s version token nowUs (s.onMessage (.hello version name token) nowUs) := by
  simp only [onMessage]
  by_cases own : version = protocolVersion
  · rw [if_neg (not_not.mpr own)]
    unfold onHello
    cases state : s.state with
    | awaitingHello => exact .fresh own state
    | streaming params => exact .ignored own (Or.inl (by rw [state]; rfl))
    | closed => exact .ignored own (Or.inr state)
    | disconnected since =>
        dsimp only
        split
        · rename_i accepted
          refine .resumed own since state accepted.1 ?_
          have fresh := UInt64.le_iff_toNat_le.mp accepted.2
          rw [saturatingSub_toNat] at fresh
          omega
        · exact .rejected own since state
  · rw [if_pos own]
    exact .refused own

theorem step_token (s : ReceiverSession) (event : SessionEvent) :
    (s.step event).1.token = s.token := by
  cases event with
  | disconnect nowUs =>
      simp only [step, onDisconnect]
      split <;> rfl
  | message message nowUs =>
      cases message with
      | hello version name token =>
          have answer := greeted s version name token nowUs
          simp only [step]
          generalize s.onMessage (.hello version name token) nowUs = next at answer
          cases answer <;> rfl
      | startStream params =>
          simp only [step, onMessage]
          split <;> rfl
      | setMode mode =>
          simp only [step, onMessage]
          split <;> rfl
      | _ => rfl

theorem step_params (s : ReceiverSession) (event : SessionEvent) :
    (s.step event).1.params = s.params ∨
      (s.state.isStreaming = true ∧ ∃ nowUs,
        (∃ params, event = .message (.startStream params) nowUs) ∨
        ∃ mode, event = .message (.setMode mode) nowUs) := by
  cases event with
  | disconnect nowUs =>
      left
      simp only [step, onDisconnect]
      split <;> rfl
  | message message nowUs =>
      cases message with
      | hello version name token =>
          left
          have answer := greeted s version name token nowUs
          simp only [step]
          generalize s.onMessage (.hello version name token) nowUs = next at answer
          cases answer <;> rfl
      | startStream params =>
          by_cases streaming : s.state.isStreaming = true
          · exact Or.inr ⟨streaming, nowUs, Or.inl ⟨params, rfl⟩⟩
          · exact Or.inl (by simp [step, onMessage, streaming])
      | setMode mode =>
          by_cases streaming : s.state.isStreaming = true
          · exact Or.inr ⟨streaming, nowUs, Or.inr ⟨mode, rfl⟩⟩
          · exact Or.inl (by simp [step, onMessage, streaming])
      | _ => exact Or.inl rfl

theorem step_closed (s : ReceiverSession) (event : SessionEvent) (closed : s.state = .closed) :
    (s.step event).1.state = .closed ∧ .resumed ∉ (s.step event).2 ∧
      ∀ name caps, .send (.helloAck name caps) ∉ (s.step event).2 := by
  cases event with
  | disconnect nowUs => simp [step, onDisconnect, closed]
  | message message nowUs =>
      cases message with
      | hello version name token =>
          have answer := greeted s version name token nowUs
          simp only [step]
          generalize s.onMessage (.hello version name token) nowUs = next at answer
          cases answer with
          | refused other => simp [badVersion]
          | fresh own waits =>
              rw [closed] at waits
              cases waits
          | resumed own since waits known young =>
              rw [closed] at waits
              cases waits
          | rejected own since waits =>
              rw [closed] at waits
              cases waits
          | ignored own busy => simp [closed]
      | startStream params => simp [step, onMessage, closed, ReceiverState.isStreaming]
      | setMode mode => simp [step, onMessage, closed, ReceiverState.isStreaming]
      | _ => simp [step, onMessage, closed]

theorem step_disconnected (s : ReceiverSession) (event : SessionEvent) (since : UInt64)
    (waits : (s.step event).1.state = .disconnected since) :
    (event = .disconnect since ∧ (s.step event).1.params = s.params) ∨
      ((∀ nowUs, event ≠ .disconnect nowUs) ∧ s.state = .disconnected since ∧
        (s.step event).1.params = s.params) := by
  cases event with
  | disconnect nowUs =>
      simp only [step, onDisconnect] at waits ⊢
      split at waits
      · rename_i closed
        rw [closed] at waits
        cases waits
      · rename_i alive
        cases waits
        exact Or.inl ⟨rfl, by rw [if_neg alive]⟩
  | message message nowUs =>
      refine Or.inr ⟨by simp, ?_⟩
      cases message with
      | hello version name token =>
          have answer := greeted s version name token nowUs
          simp only [step] at waits ⊢
          generalize s.onMessage (.hello version name token) nowUs = next at answer waits
          cases answer with
          | ignored own busy => exact ⟨waits, rfl⟩
          | _ => cases waits
      | startStream params =>
          by_cases streaming : s.state.isStreaming = true
          · simp [step, onMessage, streaming] at waits
          · simpa [step, onMessage, streaming] using waits
      | setMode mode =>
          by_cases streaming : s.state.isStreaming = true
          · simp only [step, onMessage, streaming, if_true] at waits
            rw [waits] at streaming
            cases streaming
          · simpa [step, onMessage, streaming] using waits
      | goodbye reason => cases waits
      | _ => exact ⟨waits, rfl⟩

/-- While a session is disconnected, its last disconnect is known, and the parameters are
what they were then. -/
structure Remembers (start : ReceiverSession) (front : List SessionEvent) (s : ReceiverSession) :
    Prop where
  token : s.token = start.token
  since : ∀ sinceUs, s.state = .disconnected sinceUs → ∃ earlier between,
    front = earlier ++ .disconnect sinceUs :: between ∧
      (∀ nowUs, .disconnect nowUs ∉ between) ∧ s.params = (final step start earlier).params

theorem remembers_run (start : ReceiverSession) (events : List SessionEvent)
    (awake : start.state.isDisconnected = false) (front back : List SessionEvent)
    (split : events = front ++ back) : Remembers start front (final step start front) := by
  apply prefix_induction step start events (Remembers start) _ _ front back split
  · refine ⟨rfl, fun sinceUs waits => ?_⟩
    rw [waits] at awake
    cases awake
  · intro front event back split remembers
    refine ⟨(step_token _ event).trans remembers.token, fun sinceUs waits => ?_⟩
    rcases step_disconnected _ event sinceUs waits with ⟨rfl, same⟩ | ⟨other, before, same⟩
    · exact ⟨front, [], rfl, by simp, same⟩
    · obtain ⟨earlier, between, rfl, last, params⟩ := remembers.since sinceUs before
      refine ⟨earlier, between ++ [event], by simp, ?_, same.trans params⟩
      intro nowUs member
      rcases List.mem_append.mp member with inside | now
      · exact last nowUs inside
      · exact other nowUs (List.mem_singleton.mp now).symm

theorem closed_run (s : ReceiverSession) (events : List SessionEvent) (closed : s.state = .closed) :
    (final step s events).state = .closed ∧ ∀ actions ∈ outputs step s events,
      .resumed ∉ actions ∧ ∀ name caps, .send (.helloAck name caps) ∉ actions := by
  induction events generalizing s with
  | nil => exact ⟨closed, by simp⟩
  | cons event tail ih =>
      obtain ⟨still, unresumed, unwelcome⟩ := step_closed s event closed
      obtain ⟨later, quiet⟩ := ih _ still
      refine ⟨later, fun actions member => ?_⟩
      rcases List.mem_cons.mp member with rfl | inside
      · exact ⟨unresumed, unwelcome⟩
      · exact quiet actions inside

theorem resumed_by_hello (s : ReceiverSession) (event : SessionEvent)
    (resumed : .resumed ∈ (s.step event).2) :
    ∃ sinceUs name nowUs, s.state = .disconnected sinceUs ∧
      event = .message (.hello protocolVersion name (some s.token)) nowUs ∧
      nowUs.toNat ≤ sinceUs.toNat + tokenTtlUs.toNat ∧ (s.step event).1.params = s.params := by
  cases event with
  | disconnect nowUs => simp [step] at resumed
  | message message nowUs =>
      cases message with
      | hello version name token =>
          have answer := greeted s version name token nowUs
          simp only [step] at resumed ⊢
          generalize s.onMessage (.hello version name token) nowUs = next at answer resumed
          cases answer with
          | resumed own since waits known young =>
              subst own known
              exact ⟨since, name, nowUs, waits, rfl, young, rfl⟩
          | refused other => simp [badVersion] at resumed
          | fresh own waits => simp at resumed
          | rejected own since waits => simp [badToken] at resumed
          | ignored own busy => simp at resumed
      | startStream params =>
          simp only [step, onMessage] at resumed
          split at resumed <;> cases resumed
      | setMode mode =>
          simp only [step, onMessage] at resumed
          split at resumed <;> cases resumed
      | _ => simp [step, onMessage] at resumed

theorem other_version_unwelcome (s : ReceiverSession) (version : UInt16) (name : String)
    (token : Option Token) (nowUs : UInt64) (other : version ≠ protocolVersion) (peer : String)
    (caps : Capabilities) :
    .send (.helloAck peer caps) ∉ (s.step (.message (.hello version name token) nowUs)).2 := by
  simp [step, onMessage, other, badVersion]

structure Resumption (start : ReceiverSession) (events : List SessionEvent) : Prop where
  resumed : ∀ front event back, events = front ++ event :: back →
    .resumed ∈ ((final step start front).step event).2 →
      ∃ earlier sinceUs between name nowUs,
        front = earlier ++ .disconnect sinceUs :: between ∧
        (∀ laterUs, .disconnect laterUs ∉ between) ∧
        event = .message (.hello protocolVersion name (some start.token)) nowUs ∧
        sinceUs ≤ nowUs ∧ nowUs.toNat ≤ sinceUs.toNat + tokenTtlUs.toNat ∧
        (final step start (front ++ [event])).params = (final step start earlier).params
  closed : ∀ front middle back, events = front ++ middle ++ back →
    (final step start front).state = .closed →
      (final step start (front ++ middle)).state = .closed ∧
      ∀ actions ∈ outputs step (final step start front) middle,
        .resumed ∉ actions ∧ ∀ name caps, .send (.helloAck name caps) ∉ actions
  version : ∀ front version name token nowUs back,
    events = front ++ .message (.hello version name token) nowUs :: back →
    version ≠ protocolVersion → ∀ peer caps, .send (.helloAck peer caps) ∉
      ((final step start front).step (.message (.hello version name token) nowUs)).2
  params : ∀ front event back, events = front ++ event :: back →
    (final step start (front ++ [event])).params ≠ (final step start front).params →
      (final step start front).state.isStreaming = true ∧
      ∃ nowUs, (∃ params, event = .message (.startStream params) nowUs) ∨
        ∃ mode, event = .message (.setMode mode) nowUs

/-- Over every history of a session: it is resumed only by its own token, in time, with the
parameters it had; closed it stays closed; other versions are not welcomed; and only a
stream's own messages move its parameters. -/
theorem resumed_by_own_token (name : String) (caps : Capabilities) (token : Token)
    (events : List SessionEvent)
    (times : events.Pairwise (fun first second => first.nowUs ≤ second.nowUs)) :
    Resumption (new name caps token) events where
  resumed front event back split resumed := by
    obtain ⟨sinceUs, peer, nowUs, waits, hello, young, params⟩ := resumed_by_hello _ event resumed
    have remembers := remembers_run (new name caps token) events rfl front (event :: back) split
    obtain ⟨earlier, between, inside, last, same⟩ := remembers.since sinceUs waits
    rw [remembers.token] at hello
    refine ⟨earlier, sinceUs, between, peer, nowUs, inside, last, hello, ?_, young, ?_⟩
    · rw [split, inside, List.append_assoc, List.pairwise_append] at times
      have later := (List.pairwise_cons.mp times.2.1).1 event (by simp)
      simpa [hello, SessionEvent.nowUs] using later
    · rw [final_snoc]
      exact params.trans same
  closed front middle back split closed := by
    rw [final_append]
    exact closed_run _ middle closed
  version front version peer token nowUs back split other :=
    other_version_unwelcome _ version peer token nowUs other
  params front event back split moved := by
    rw [final_snoc] at moved
    exact (step_params _ event).resolve_left moved

def historyCaps : Capabilities := ⟨1920, 1080, 60, 40000000, [.h264], true⟩

/-- A stream is lost twice, and resumed after the second time. -/
def lostTwice : List SessionEvent :=
  [.message (.hello protocolVersion "pc" none) 10, .disconnect 20,
    .disconnect 70000000,
    .message (.hello protocolVersion "pc" (some (Vector.replicate 16 1))) 90000000]

theorem resumed_by_own_token_twice :
    Resumption (new "pi" historyCaps (Vector.replicate 16 1)) lostTwice :=
  resumed_by_own_token "pi" historyCaps (Vector.replicate 16 1) lostTwice (by decide)

end ReceiverSession

end Castr.Proto
