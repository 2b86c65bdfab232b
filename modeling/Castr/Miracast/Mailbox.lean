import Castr.Miracast.P2p

/-! Nothing on the control channel is lost: every line is an event or a reply, events are handed
out in the order they came in, and a reply answers the command its place in the run gives it. -/

namespace Castr.Miracast.P2p

open Castr.Lib.Run
open Castr.Lib.Sharing
open Castr.Lib.Text

def Answer.events : Answer → List Event
  | .reply _ => []
  | .event result => (result.toOption.join).toList

def Answer.replies : Answer → List (List Char)
  | .reply result => result.toOption.toList
  | .event _ => []

@[simp] theorem linesOf_nil : linesOf [] = [] := rfl

@[simp] theorem linesOf_datagram (text : List Char) (looks : List Look) :
    linesOf (.datagram text :: looks) = trimEnd text :: linesOf looks := rfl

@[simp] theorem linesOf_nothing (looks : List Look) :
    linesOf (.nothing :: looks) = linesOf looks := rfl

@[simp] theorem linesOf_broken (looks : List Look) :
    linesOf (.broken :: looks) = linesOf looks := rfl

@[simp] theorem linesOf_append (front back : List Look) :
    linesOf (front ++ back) = linesOf front ++ linesOf back := List.filterMap_append

/-- What the channel reads between two moments, and where each line of it goes: the events handed
out then, and the replies given then. -/
structure Delivers (start stop : Channel) (handed : List Event) (replies : List (List Char)) :
    Prop where
  shared : ∃ used events, start.looks = used ++ stop.looks ∧
    Shared (linesOf used) events replies ∧
    handed ++ stop.control.pending = start.control.pending ++ events.filterMap parseEvent
  unprefixed : ∀ line ∈ replies, isEvent line = false

namespace Delivers

variable {start middle stop : Channel} {handed later : List Event}
  {replies given : List (List Char)}

theorem refl (channel : Channel) : Delivers channel channel [] [] :=
  ⟨⟨[], [], rfl, .nil, by simp⟩, by simp⟩

theorem trans (first : Delivers start middle handed replies)
    (second : Delivers middle stop later given) :
    Delivers start stop (handed ++ later) (replies ++ given) := by
  obtain ⟨used, events, read, shared, queue⟩ := first.shared
  obtain ⟨used', events', read', shared', queue'⟩ := second.shared
  refine ⟨⟨used ++ used', events ++ events', ?_, ?_, ?_⟩, ?_⟩
  · rw [read, read', List.append_assoc]
  · rw [linesOf_append]
    exact shared.append shared'
  · rw [List.append_assoc, queue', ← List.append_assoc, queue, List.filterMap_append,
      List.append_assoc]
  · intro line member
    rcases List.mem_append.mp member with earlier | later
    · exact first.unprefixed line earlier
    · exact second.unprefixed line later

theorem idle (control : Control) (look : Look) (looks : List Look) (empty : linesOf [look] = []) :
    Delivers ⟨control, look :: looks⟩ ⟨control, looks⟩ [] [] :=
  ⟨⟨[look], [], rfl, empty ▸ .nil, by simp⟩, by simp⟩

theorem queues (control : Control) (text : List Char) (looks : List Look) :
    Delivers ⟨control, .datagram text :: looks⟩
      ⟨⟨control.pending ++ (parseEvent (trimEnd text)).toList⟩, looks⟩ [] [] := by
  refine ⟨⟨[.datagram text], [trimEnd text], rfl, .left _ .nil, ?_⟩, by simp⟩
  cases parsed : parseEvent (trimEnd text) <;> simp [parsed]

theorem replied (control : Control) (text : List Char) (looks : List Look)
    (plain : isEvent (trimEnd text) = false) :
    Delivers ⟨control, .datagram text :: looks⟩ ⟨control, looks⟩ [] [trimEnd text] :=
  ⟨⟨[.datagram text], [], rfl, .right _ .nil, by simp⟩, by simpa using plain⟩

end Delivers

theorem awaitReply_delivers (looks : List Look) (control : Control) :
    Delivers ⟨control, looks⟩
      ⟨(control.awaitReply looks).2.1, (control.awaitReply looks).2.2⟩ []
      (control.awaitReply looks).1.toOption.toList := by
  induction looks generalizing control with
  | nil => exact .refl _
  | cons look looks ih =>
      cases look with
      | nothing => exact .idle control .nothing looks rfl
      | broken => exact .idle control .broken looks rfl
      | datagram text =>
          rw [Control.awaitReply]
          cases prefixed : isEvent (trimEnd text) with
          | true => exact (Delivers.queues control text looks).trans (ih _)
          | false => exact .replied control text looks prefixed

theorem readEvent_delivers (looks : List Look) :
    Delivers ⟨⟨[]⟩, looks⟩ ⟨⟨[]⟩, (Control.readEvent looks).2⟩
      ((Control.readEvent looks).1.toOption.join).toList [] := by
  induction looks with
  | nil => exact .refl _
  | cons look looks ih =>
      cases look with
      | nothing => exact .idle ⟨[]⟩ .nothing looks rfl
      | broken => exact .idle ⟨[]⟩ .broken looks rfl
      | datagram text =>
          rw [Control.readEvent]
          cases parsed : parseEvent (trimEnd text) with
          | some event =>
              refine ⟨⟨[.datagram text], [trimEnd text], rfl, .left _ .nil, ?_⟩, by simp⟩
              simp [parsed, Except.toOption]
          | none =>
              have skipped := Delivers.queues ⟨[]⟩ text looks
              rw [parsed] at skipped
              exact skipped.trans ih

theorem step_delivers (channel : Channel) (call : Call) :
    Delivers channel (channel.step call).1 (channel.step call).2.events
      (channel.step call).2.replies := by
  obtain ⟨⟨pending⟩, looks⟩ := channel
  cases call with
  | request command sent =>
      cases sent with
      | true => exact awaitReply_delivers looks ⟨pending⟩
      | false => exact .refl _
  | pollEvent =>
      cases pending with
      | nil => exact readEvent_delivers looks
      | cons event pending =>
          exact ⟨⟨[], [], rfl, .nil, by simp [Channel.step, Channel.pollEvent,
            Control.pollEvent, Answer.events, Except.toOption]⟩,
              by simp [Channel.step, Answer.replies]⟩

theorem run_delivers (calls : List Call) (channel : Channel) :
    Delivers channel (final Channel.step channel calls)
      ((outputs Channel.step channel calls).flatMap Answer.events)
      ((outputs Channel.step channel calls).flatMap Answer.replies) := by
  induction calls generalizing channel with
  | nil => exact .refl _
  | cons call calls ih => exact (step_delivers channel call).trans (ih _)

def repliesGiven (channel : Channel) (calls : List Call) : List (List Char) :=
  (outputs Channel.step channel calls).flatMap Answer.replies

def eventsHanded (channel : Channel) (calls : List Call) : List Event :=
  (outputs Channel.step channel calls).flatMap Answer.events

/-- Over any calls, the lines read are shared out in order: some are the replies given, none of
them with a priority, and the rest, parsed, are the events handed out and those still queued. -/
theorem lines_accounted (looks : List Look) (calls : List Call) :
    ∃ used events,
      looks = used ++ (final Channel.step ⟨.opened, looks⟩ calls).looks ∧
      Shared (linesOf used) events (repliesGiven ⟨.opened, looks⟩ calls) ∧
      eventsHanded ⟨.opened, looks⟩ calls ++
          (final Channel.step ⟨.opened, looks⟩ calls).control.pending =
        events.filterMap parseEvent ∧
      ∀ line ∈ repliesGiven ⟨.opened, looks⟩ calls, isEvent line = false := by
  have delivers := run_delivers calls ⟨.opened, looks⟩
  obtain ⟨used, events, read, shared, queue⟩ := delivers.shared
  exact ⟨used, events, read, shared, queue, delivers.unprefixed⟩

section Correlation

/-- The lines that are no events: what the supplicant answers, in the order of its commands. -/
def answersIn (looks : List Look) : List (List Char) :=
  (linesOf looks).filter (fun line => !isEvent line)

def answersRead (channel : Channel) (call : Call) : Nat :=
  (answersIn channel.looks).length - (answersIn (channel.step call).1.looks).length

def Call.sends : Call → Bool
  | .request _ sent => sent
  | .pollEvent => false

def Call.polls : Call → Bool
  | .request _ _ => false
  | .pollEvent => true

def commandsSent (calls : List Call) : Nat := calls.countP Call.sends

/-- Commands that were sent and got no reply in time. -/
def unanswered (channel : Channel) : List Call → Nat
  | [] => 0
  | call :: calls =>
      (if call.sends && (channel.step call).2.replies.isEmpty then 1 else 0) +
        unanswered (channel.step call).1 calls

/-- Answers that were read by a poll, after their command had given up. -/
def readLate (channel : Channel) : List Call → Nat
  | [] => 0
  | call :: calls =>
      (if call.polls then answersRead channel call else 0) + readLate (channel.step call).1 calls

theorem answersIn_append (front back : List Look) :
    answersIn (front ++ back) = answersIn front ++ answersIn back := by
  rw [answersIn, linesOf_append, List.filter_append]
  rfl

theorem awaitReply_answers (looks : List Look) (control : Control) :
    answersIn looks = (control.awaitReply looks).1.toOption.toList ++
      answersIn (control.awaitReply looks).2.2 := by
  induction looks generalizing control with
  | nil => rfl
  | cons look looks ih =>
      cases look with
      | nothing => rfl
      | broken => rfl
      | datagram text =>
          rw [Control.awaitReply, answersIn, linesOf_datagram]
          cases prefixed : isEvent (trimEnd text) with
          | true =>
              rw [List.filter_cons_of_neg (by simp [prefixed])]
              exact ih _
          | false =>
              rw [List.filter_cons_of_pos (by simp [prefixed])]
              rfl

theorem step_answers (channel : Channel) (call : Call) (asks : call.polls = false) :
    answersIn channel.looks =
      (channel.step call).2.replies ++ answersIn (channel.step call).1.looks := by
  cases call with
  | request command sent =>
      cases sent with
      | true => exact awaitReply_answers channel.looks channel.control
      | false => rfl
  | pollEvent => cases asks

theorem step_shrinks (channel : Channel) (call : Call) :
    (answersIn (channel.step call).1.looks).length ≤ (answersIn channel.looks).length := by
  obtain ⟨used, _, read, _, _⟩ := (step_delivers channel call).shared
  rw [read, answersIn_append, List.length_append]
  exact Nat.le_add_left _ _

theorem step_replies_le (channel : Channel) (call : Call) :
    (channel.step call).2.replies.length ≤ 1 := by
  cases call with
  | request command sent =>
      cases reply : (channel.request sent).1 <;>
        simp [Channel.step, Answer.replies, reply, Except.toOption]
  | pollEvent => simp [Channel.step, Answer.replies]

theorem request_unsent (channel : Channel) (command : String) :
    (channel.step (.request command false)).2.replies = [] := rfl

theorem step_counts (channel : Channel) (call : Call) :
    (answersIn channel.looks).length + unanswered channel [call] =
      (answersIn (channel.step call).1.looks).length + commandsSent [call] +
        readLate channel [call] := by
  cases call with
  | request command sent =>
      have split := congrArg List.length (step_answers channel (.request command sent) rfl)
      rw [List.length_append] at split
      have few := step_replies_le channel (.request command sent)
      cases sent with
      | false => simp [split, request_unsent, unanswered, commandsSent, readLate, Call.sends,
          Call.polls]
      | true =>
          cases replies : (channel.step (.request command true)).2.replies with
          | nil => simp [split, replies, unanswered, commandsSent, readLate, Call.sends, Call.polls]
          | cons line others =>
              rw [replies, List.length_cons] at few
              have alone : others = [] := List.eq_nil_of_length_eq_zero (by omega)
              simp [split, replies, alone, unanswered, commandsSent, readLate, Call.sends,
                Call.polls, Nat.add_comm]
  | pollEvent =>
      have shrinks := step_shrinks channel .pollEvent
      simp [unanswered, commandsSent, readLate, answersRead, Call.sends, Call.polls]
      omega

theorem run_counts (calls : List Call) (channel : Channel) :
    (answersIn channel.looks).length + unanswered channel calls =
      (answersIn (final Channel.step channel calls).looks).length + commandsSent calls +
        readLate channel calls := by
  induction calls generalizing channel with
  | nil => rfl
  | cons call calls ih =>
      have first := step_counts channel call
      have later := ih (channel.step call).1
      simp only [unanswered, readLate, commandsSent, List.countP_cons, List.countP_nil,
        final_cons] at first later ⊢
      omega

theorem run_suffix (calls : List Call) (channel : Channel) :
    answersIn (final Channel.step channel calls).looks <:+ answersIn channel.looks := by
  obtain ⟨used, _, read, _, _⟩ := (run_delivers calls channel).shared
  rw [read, answersIn_append]
  exact List.suffix_append _ _

/-- The reply a request returns, by its number among the supplicant's answers: it is the answer to
the request itself just when as many answers were read late as commands were given up on. -/
theorem reply_numbered (channel : Channel) (calls : List Call) (command : String)
    (line : List Char)
    (replied : ((final Channel.step channel calls).step (.request command true)).2.replies =
      [line]) :
    ∃ number, (answersIn channel.looks)[number]? = some line ∧
      number + unanswered channel calls = commandsSent calls + readLate channel calls ∧
      (number = commandsSent calls ↔ unanswered channel calls = readLate channel calls) := by
  have counts := run_counts calls channel
  obtain ⟨earlier, split⟩ := run_suffix calls channel
  have lengths := congrArg List.length split
  rw [List.length_append] at lengths
  have next := step_answers (final Channel.step channel calls) (.request command true) rfl
  rw [replied] at next
  refine ⟨earlier.length, ?_, by omega, by omega⟩
  rw [← split, next, List.getElem?_append_right (Nat.le_refl _), Nat.sub_self]
  rfl

/-- A request that gave up leaves its answer to the next one. -/
theorem reply_numbered_late : ∃ number,
    (answersIn [.nothing, .datagram "OK".toList, .datagram "FAIL".toList])[number]? =
      some "OK".toList ∧ number + 1 = 1 ∧ (number = 1 ↔ 1 = 0) := by
  have numbered := reply_numbered
    ⟨.opened, [.nothing, .datagram "OK".toList, .datagram "FAIL".toList]⟩
    [.request "PING" true] "SCAN" "OK".toList (by decide)
  exact numbered

end Correlation

end Castr.Miracast.P2p
