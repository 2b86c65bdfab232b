import Mathlib.Data.List.Count
import Castr.Lib.Tickets
import Castr.Miracast.Source.Progress

/-! The order of a source's own requests, and the answers they wait for. -/

namespace Castr.Miracast.SourceSession

open Castr.Lib.Run
open Castr.Lib.Tickets

/-- What a request of the source is, by its method and body. -/
def kindOf (m : Message) : Option Pending :=
  if m.method = some "OPTIONS" then some .m1
  else if m.method = some "GET_PARAMETER" then
    if m.body = "" then some .keepalive else some .m3
  else if m.method = some "SET_PARAMETER" then
    if m.body = "wfd_trigger_method: SETUP\r\n" then some .m5 else some .m4
  else if m.method = some "TEARDOWN" then some .teardown
  else none

theorem kindOf_m1 (s : SourceSession) : kindOf s.m1 = some .m1 := by
  simp [kindOf]

theorem kindOf_m3 (s : SourceSession) : kindOf s.m3 = some .m3 := by
  simp [kindOf, m3]

theorem m4Body_ne_trigger (cfg : SourceConfig) (choice : Source.ModeSelection) :
    m4Body cfg choice ≠ "wfd_trigger_method: SETUP\r\n" := by
  intro same
  obtain ⟨rest, front⟩ : ∃ rest, (m4Body cfg choice).toList =
      "wfd_video_formats: 00 00 ".toList ++ rest := by
    unfold m4Body
    rcases masks choice with ⟨cea, vesa, hh⟩
    simp only [String.toList_append, List.append_assoc]
    exact ⟨_, rfl⟩
  rw [same] at front
  have fifth := congrArg (fun text => text[4]?) front
  simp at fifth

theorem kindOf_m4 (s : SourceSession) (choice : Source.ModeSelection) :
    kindOf (s.m4 choice) = some .m4 := by
  simp [kindOf, m4, m4Body_ne_trigger]

theorem kindOf_m5 (s : SourceSession) : kindOf s.m5 = some .m5 := by
  simp [kindOf, m5]

theorem kindOf_keepalive (s : SourceSession) : kindOf s.keepalive = some .keepalive := by
  simp [kindOf, keepalive]

theorem kindOf_teardownRequest (s : SourceSession) :
    kindOf s.teardownRequest = some .teardown := by
  simp [kindOf, teardownRequest]

def tickets (s : SourceSession) : Table Pending := ⟨s.nextCseq, s.pending⟩

@[simp] theorem next_tickets (s : SourceSession) : s.tickets.next = s.nextCseq := rfl

@[simp] theorem pending_tickets (s : SourceSession) : s.tickets.pending = s.pending := rfl

def settles (s : SourceSession) : SourceEvent → Option UInt32
  | .message m _ =>
      if m.status.isSome then m.cseq.filter (fun cseq => (s.pending cseq).isSome) else none
  | _ => none

/-- A 200 to a request of a kind that is still awaited. -/
def Matches (s : SourceSession) (event : SourceEvent) (kind : Pending) : Prop :=
  ∃ m now cseq, event = .message m now ∧ m.status = some 200 ∧ m.cseq = some cseq ∧
    s.pending cseq = some kind

inductive Exchanged (s : SourceSession) (event : SourceEvent) :
    SourceSession × List Action → Prop where
  | quiet (next : SourceSession) (out : List Action) (silent : requests out = [])
      (unsettled : settles s event = none) (table : next.tickets = s.tickets)
      (asked : next.askedCaps = s.askedCaps) (told : next.m1Answered = s.m1Answered) :
      Exchanged s event (next, out)
  | settled (next : SourceSession) (out : List Action) (silent : requests out = [])
      (cseq : UInt32) (found : settles s event = some cseq)
      (table : next.tickets = s.tickets.after (.settle cseq))
      (asked : next.askedCaps = s.askedCaps)
      (told : next.m1Answered = s.m1Answered ∨ Matches s event .m1) :
      Exchanged s event (next, out)
  | asks (next : SourceSession) (out : List Action) (one : requests out = [s.m3])
      (unsettled : settles s event = none)
      (table : next.tickets = s.tickets.after (.issue .m3))
      (first : s.askedCaps = false) (ready : s.m1Answered ≠ none)
      (asked : next.askedCaps = true) (told : next.m1Answered = s.m1Answered) :
      Exchanged s event (next, out)
  | follows (next : SourceSession) (out : List Action) (m : Message) (before kind : Pending)
      (pair : (before, kind) = (.m3, .m4) ∨ (before, kind) = (.m4, .m5))
      (one : requests out = [m]) (named : kindOf m = some kind)
      (numbered : m.cseq = some s.nextCseq) (cseq : UInt32) (found : settles s event = some cseq)
      (matched : Matches s event before) (awaited : s.pending cseq = some before)
      (table : next.tickets = (s.tickets.after (.settle cseq)).after (.issue kind))
      (asked : next.askedCaps = s.askedCaps) (told : next.m1Answered = s.m1Answered) :
      Exchanged s event (next, out)
  | aside (next : SourceSession) (out : List Action) (m : Message) (kind : Pending)
      (other : kind = .keepalive ∨ kind = .teardown) (one : requests out = [m])
      (named : kindOf m = some kind) (numbered : m.cseq = some s.nextCseq)
      (unsettled : settles s event = none) (table : next.tickets = s.tickets.after (.issue kind))
      (asked : next.askedCaps = s.askedCaps) (told : next.m1Answered = s.m1Answered) :
      Exchanged s event (next, out)

theorem requests_told (answer : Message) (keyframes : List Action) (bitrates : List UInt32)
    (reply : answer.method = none) (shape : ∀ action ∈ keyframes, action = .keyframe) :
    requests (.send answer :: (keyframes ++ bitrates.map Action.bitrate)) = [] := by
  have plain : ∀ action ∈ keyframes ++ bitrates.map Action.bitrate, action.message = none := by
    intro action member
    rcases List.mem_append.mp member with left | right
    · rw [shape action left]
      rfl
    · obtain ⟨kbps, _, rfl⟩ := List.mem_map.mp right
      rfl
  have nothing : sent (keyframes ++ bitrates.map Action.bitrate) = [] :=
    List.filterMap_eq_nil_iff.mpr plain
  rw [requests, sent, List.filterMap_cons]
  simp only [Action.message]
  rw [← sent, nothing]
  simp [reply]

theorem exchanged_asked (s : SourceSession) (m : Message) (now : Nat) (method uri : String)
    (start : m.start = .request method uri) (result : SourceSession × List Action)
    (branch : Asked (s.hear now) m method result) : Exchanged s (.message m now) result := by
  have unsettled : settles s (.message m now) = none := by simp [settles, Message.status, start]
  cases branch with
  | m2 unasked ready =>
      exact .asks _ _ rfl unsettled rfl unasked (Option.isSome_iff_ne_none.mp ready) rfl rfl
  | setup =>
      have kept : ((s.hear now).notePort m).tickets = s.tickets ∧
          ((s.hear now).notePort m).askedCaps = s.askedCaps ∧
          ((s.hear now).notePort m).m1Answered = s.m1Answered := by
        unfold notePort
        split <;> exact ⟨rfl, rfl, rfl⟩
      exact .quiet _ _ rfl unsettled kept.1 kept.2.1 kept.2.2
  | told keyframes shape bitrates =>
      exact .quiet _ _ (requests_told _ keyframes bitrates rfl shape) unsettled rfl rfl rfl
  | _ => exact .quiet _ _ rfl unsettled rfl rfl rfl

theorem exchanged_answered (s : SourceSession) (m : Message) (now status : Nat) (reason : String)
    (start : m.start = .response status reason) (result : SourceSession × List Action)
    (branch : Answered (s.hear now) m now status result) :
    Exchanged s (.message m now) result := by
  have good : m.status = some status := by simp [Message.status, start]
  have found (cseq : UInt32) (kind : Pending) (numbered : m.cseq = some cseq)
      (awaited : s.pending cseq = some kind) : settles s (.message m now) = some cseq := by
    simp [settles, good, numbered, awaited]
  cases branch with
  | foreign _ unawaited =>
      have unsettled : settles s (.message m now) = none := by
        simp only [settles, good, Option.isSome_some, if_true]
        cases numbered : m.cseq with
        | none => rfl
        | some cseq =>
            have missing : s.pending cseq = none := unawaited cseq numbered
            simp [missing]
      exact .quiet _ _ rfl unsettled rfl rfl rfl
  | refused _ cseq kind numbered awaited bad =>
      exact .settled _ _ rfl cseq (found cseq kind numbered awaited) rfl rfl (Or.inl rfl)
  | m1 cseq numbered awaited =>
      exact .settled _ _ rfl cseq (found cseq .m1 numbered awaited) rfl rfl
        (Or.inr ⟨m, now, cseq, rfl, good, numbered, awaited⟩)
  | unfit cseq numbered awaited reason failed =>
      exact .settled _ _ rfl cseq (found cseq .m3 numbered awaited) rfl rfl (Or.inl rfl)
  | m3 cseq numbered awaited sink choice chosen =>
      exact .follows _ _ _ .m3 .m4 (Or.inl rfl) rfl (kindOf_m4 _ choice) (cseq_m4 _ choice) cseq
        (found cseq .m3 numbered awaited) ⟨m, now, cseq, rfl, good, numbered, awaited⟩ awaited
        rfl rfl rfl
  | m4 cseq numbered awaited =>
      exact .follows _ _ _ .m4 .m5 (Or.inr rfl) rfl (kindOf_m5 _) (cseq_m5 _) cseq
        (found cseq .m4 numbered awaited) ⟨m, now, cseq, rfl, good, numbered, awaited⟩ awaited
        rfl rfl rfl
  | noted cseq kind numbered awaited rest =>
      exact .settled _ _ rfl cseq (found cseq kind numbered awaited) rfl rfl (Or.inl rfl)

theorem exchanged_ticked (s : SourceSession) (now : Nat) (result : SourceSession × List Action)
    (branch : Ticked s now result) : Exchanged s (.tick now) result := by
  cases branch with
  | m3 finished =>
      simp only [graceOver, Bool.and_eq_true, Bool.not_eq_true'] at finished
      have ready : s.m1Answered ≠ none := by
        intro missing
        simp [missing] at finished
      exact .asks _ _ rfl rfl rfl finished.1 ready rfl rfl
  | asks waits playing heard due =>
      exact .aside _ _ _ .keepalive (Or.inl rfl) rfl (kindOf_keepalive s) (cseq_keepalive s) rfl
        rfl rfl rfl
  | _ => exact .quiet _ _ rfl rfl rfl rfl rfl

theorem exchanged (s : SourceSession) (event : SourceEvent) : Exchanged s event (s.step event) := by
  cases event with
  | message m now =>
      simp only [step, onMessageAt]
      cases start : m.start with
      | request method uri => exact exchanged_asked s m now method uri start _ (asked _ method m)
      | response status reason =>
          exact exchanged_answered s m now status reason start _ (answered _ status m now)
  | tick now => exact exchanged_ticked s now _ (ticked s now)
  | teardown =>
      exact .aside _ _ _ .teardown (Or.inr rfl) rfl (kindOf_teardownRequest s)
        (cseq_teardownRequest s) rfl rfl rfl rfl

/-- Everything the source has asked by itself, M1 first. -/
def asks (cfg : SourceConfig) (events : List SourceEvent) : List Message :=
  requests (new cfg).start.2 ++ requests (outputs step (started cfg) events).flatten

def consumed (s : SourceSession) : List SourceEvent → List UInt32
  | [] => []
  | event :: events => (settles s event).toList ++ consumed (s.step event).1 events

/-- A 200 that carries the CSeq of a request of a kind sent before it, still unanswered. -/
def Answers (cfg : SourceConfig) (front : List SourceEvent) (event : SourceEvent)
    (kind : Pending) : Prop :=
  Matches (final step (started cfg) front) event kind ∧
    ∃ m now r, event = .message m now ∧ r ∈ asks cfg front ∧ kindOf r = some kind ∧
      m.cseq = r.cseq

def kinds (out : List Action) : List Pending := (requests out).filterMap kindOf

def isExchange (kind : Pending) : Bool := kind = .m3 || kind = .m4 || kind = .m5

/-- The order of the exchange, what each of its requests waits for, and the numbers of all. -/
structure InOrder (cfg : SourceConfig) (events : List SourceEvent) : Prop where
  order : ((asks cfg events).filterMap kindOf).filter isExchange <+: [.m3, .m4, .m5]
  afterM1 : ∀ front event back, events = front ++ event :: back →
    .m3 ∈ kinds (step (final step (started cfg) front) event).2 →
      ∃ before answer after, front = before ++ answer :: after ∧ Answers cfg before answer .m1
  onM3 : ∀ front event back, events = front ++ event :: back →
    .m4 ∈ kinds (step (final step (started cfg) front) event).2 → Answers cfg front event .m3
  onM4 : ∀ front event back, events = front ++ event :: back →
    .m5 ∈ kinds (step (final step (started cfg) front) event).2 → Answers cfg front event .m4
  once : ∀ cseq, (consumed (started cfg) events).count cseq ≤
    ((asks cfg events).map Message.cseq).count (some cseq)
  distinct : (asks cfg events).length ≤ 2 ^ 32 →
    ((asks cfg events).map Message.cseq).Nodup ∧ (consumed (started cfg) events).Nodup

section Tickets

def ops (s : SourceSession) (event : SourceEvent) : List (Op Pending) :=
  (settles s event).toList.map Op.settle ++ (kinds (s.step event).2).map Op.issue

def opsOf (s : SourceSession) : List SourceEvent → List (Op Pending)
  | [] => []
  | event :: events => ops s event ++ opsOf (s.step event).1 events

theorem settles_awaited (s : SourceSession) (event : SourceEvent) (cseq : UInt32)
    (found : settles s event = some cseq) : ∃ kind, s.tickets.pending cseq = some kind := by
  cases event with
  | message m now =>
      simp only [settles] at found
      split at found
      · exact Option.isSome_iff_exists.mp (Option.filter_eq_some_iff.mp found).2
      · cases found
  | tick now => cases found
  | teardown => cases found

theorem tickets_step (s : SourceSession) (event : SourceEvent) :
    (s.step event).1.tickets = s.tickets.afterAll (ops s event) ∧
      (requests (s.step event).2).map (fun m => (m.cseq, kindOf m)) =
        (s.tickets.issued (ops s event)).map (fun entry => (some entry.1, some entry.2)) ∧
      (settles s event).toList = (s.tickets.settled (ops s event)).map Prod.fst := by
  have branch := exchanged s event
  have known := settles_awaited s event
  unfold ops kinds
  generalize s.step event = result at branch
  cases branch with
  | quiet next out silent unsettled table =>
      simp [silent, unsettled, table, Table.afterAll, Table.issued, Table.settled]
  | settled next out silent cseq found table =>
      obtain ⟨kind, awaited⟩ := known cseq found
      simp [silent, found, table, Table.afterAll, Table.issued, Table.settled, Table.gives,
        Table.takes, awaited]
  | asks next out one unsettled table =>
      simp [one, unsettled, table, kindOf_m3, Table.afterAll, Table.issued, Table.settled,
        Table.gives, Table.takes]
  | follows next out m before kind pair one named numbered cseq found matched awaited table =>
      have pending : s.tickets.pending cseq = some before := awaited
      simp [one, found, table, named, numbered, Table.afterAll, Table.issued, Table.settled,
        Table.gives, Table.takes, pending]
  | aside next out m kind other one named numbered unsettled table =>
      simp [one, unsettled, table, named, numbered, Table.afterAll, Table.issued, Table.settled,
        Table.gives, Table.takes]

theorem tickets_run (s : SourceSession) (events : List SourceEvent) :
    (final step s events).tickets = s.tickets.afterAll (opsOf s events) ∧
      (requests (outputs step s events).flatten).map (fun m => (m.cseq, kindOf m)) =
        (s.tickets.issued (opsOf s events)).map (fun entry => (some entry.1, some entry.2)) ∧
      consumed s events = (s.tickets.settled (opsOf s events)).map Prod.fst := by
  induction events generalizing s with
  | nil => exact ⟨rfl, rfl, rfl⟩
  | cons event events ih =>
      obtain ⟨table, asked, answered⟩ := tickets_step s event
      obtain ⟨tables, askeds, answereds⟩ := ih (s.step event).1
      have split : requests (outputs step s (event :: events)).flatten =
          requests (s.step event).2 ++
            requests (outputs step (s.step event).1 events).flatten := by
        simp [requests, sent]
      simp only [final_cons, opsOf, consumed, Table.afterAll_append, Table.issued_append,
        Table.settled_append, List.map_append, split, ← table]
      exact ⟨tables, by rw [asked, askeds], by rw [answered, answereds]⟩

end Tickets

section Order

/-- How far the exchange has come: what has been sent of it, and what of it is still awaited. -/
inductive Phase (s : SourceSession) : List Pending → Prop where
  | before (unasked : s.askedCaps = false) (noM3 : s.tickets.Never .m3)
      (noM4 : s.tickets.Never .m4) : Phase s []
  | capabilities (asked : s.askedCaps = true) (oneM3 : s.tickets.AtMostOne .m3)
      (noM4 : s.tickets.Never .m4) : Phase s [.m3]
  | formats (asked : s.askedCaps = true) (noM3 : s.tickets.Never .m3)
      (oneM4 : s.tickets.AtMostOne .m4) : Phase s [.m3, .m4]
  | trigger (asked : s.askedCaps = true) (noM3 : s.tickets.Never .m3)
      (noM4 : s.tickets.Never .m4) : Phase s [.m3, .m4, .m5]

theorem phase_prefix (s : SourceSession) (sent : List Pending) (phase : Phase s sent) :
    sent <+: [.m3, .m4, .m5] := by
  cases phase <;> decide

theorem phase_settle (s next : SourceSession) (sent : List Pending) (cseq : UInt32)
    (table : next.tickets = s.tickets.after (.settle cseq))
    (asked : next.askedCaps = s.askedCaps) (phase : Phase s sent) : Phase next sent := by
  cases phase with
  | before unasked noM3 noM4 =>
      exact .before (asked ▸ unasked) (table ▸ Table.never_settle _ cseq _ noM3)
        (table ▸ Table.never_settle _ cseq _ noM4)
  | capabilities caps oneM3 noM4 =>
      exact .capabilities (asked ▸ caps) (table ▸ Table.atMostOne_settle _ cseq _ oneM3)
        (table ▸ Table.never_settle _ cseq _ noM4)
  | formats caps noM3 oneM4 =>
      exact .formats (asked ▸ caps) (table ▸ Table.never_settle _ cseq _ noM3)
        (table ▸ Table.atMostOne_settle _ cseq _ oneM4)
  | trigger caps noM3 noM4 =>
      exact .trigger (asked ▸ caps) (table ▸ Table.never_settle _ cseq _ noM3)
        (table ▸ Table.never_settle _ cseq _ noM4)

theorem phase_aside (s next : SourceSession) (sent : List Pending) (kind : Pending)
    (notM3 : kind ≠ .m3) (notM4 : kind ≠ .m4)
    (table : next.tickets = s.tickets.after (.issue kind))
    (asked : next.askedCaps = s.askedCaps) (phase : Phase s sent) : Phase next sent := by
  cases phase with
  | before unasked noM3 noM4 =>
      exact .before (asked ▸ unasked) (table ▸ Table.never_issue _ kind _ notM3 noM3)
        (table ▸ Table.never_issue _ kind _ notM4 noM4)
  | capabilities caps oneM3 noM4 =>
      exact .capabilities (asked ▸ caps) (table ▸ Table.atMostOne_issue_other _ kind _ notM3 oneM3)
        (table ▸ Table.never_issue _ kind _ notM4 noM4)
  | formats caps noM3 oneM4 =>
      exact .formats (asked ▸ caps) (table ▸ Table.never_issue _ kind _ notM3 noM3)
        (table ▸ Table.atMostOne_issue_other _ kind _ notM4 oneM4)
  | trigger caps noM3 noM4 =>
      exact .trigger (asked ▸ caps) (table ▸ Table.never_issue _ kind _ notM3 noM3)
        (table ▸ Table.never_issue _ kind _ notM4 noM4)

theorem phase_asks (s next : SourceSession) (sent : List Pending)
    (table : next.tickets = s.tickets.after (.issue .m3)) (first : s.askedCaps = false)
    (asked : next.askedCaps = true) (phase : Phase s sent) : Phase next (sent ++ [.m3]) := by
  cases phase with
  | before unasked noM3 noM4 =>
      exact .capabilities asked (table ▸ Table.atMostOne_issue _ _ noM3)
        (table ▸ Table.never_issue _ _ _ (by decide) noM4)
  | capabilities caps => exact absurd (first ▸ caps) (by decide)
  | formats caps => exact absurd (first ▸ caps) (by decide)
  | trigger caps => exact absurd (first ▸ caps) (by decide)

theorem phase_m4 (s next : SourceSession) (sent : List Pending) (cseq : UInt32)
    (awaited : s.tickets.pending cseq = some .m3)
    (table : next.tickets = (s.tickets.after (.settle cseq)).after (.issue .m4))
    (asked : next.askedCaps = s.askedCaps) (phase : Phase s sent) :
    Phase next (sent ++ [.m4]) := by
  cases phase with
  | before unasked noM3 => exact absurd awaited (noM3 cseq)
  | capabilities caps oneM3 noM4 =>
      have gone := Table.never_of_settle _ cseq _ oneM3 awaited
      exact .formats (asked ▸ caps) (table ▸ Table.never_issue _ _ _ (by decide) gone)
        (table ▸ Table.atMostOne_issue _ _ (Table.never_settle _ cseq _ noM4))
  | formats caps noM3 => exact absurd awaited (noM3 cseq)
  | trigger caps noM3 => exact absurd awaited (noM3 cseq)

theorem phase_m5 (s next : SourceSession) (sent : List Pending) (cseq : UInt32)
    (awaited : s.tickets.pending cseq = some .m4)
    (table : next.tickets = (s.tickets.after (.settle cseq)).after (.issue .m5))
    (asked : next.askedCaps = s.askedCaps) (phase : Phase s sent) :
    Phase next (sent ++ [.m5]) := by
  cases phase with
  | before unasked noM3 noM4 => exact absurd awaited (noM4 cseq)
  | capabilities caps oneM3 noM4 => exact absurd awaited (noM4 cseq)
  | formats caps noM3 oneM4 =>
      have gone := Table.never_of_settle _ cseq _ oneM4 awaited
      exact .trigger (asked ▸ caps)
        (table ▸ Table.never_issue _ _ _ (by decide) (Table.never_settle _ cseq _ noM3))
        (table ▸ Table.never_issue _ _ _ (by decide) gone)
  | trigger caps noM3 noM4 => exact absurd awaited (noM4 cseq)

theorem phase_step (s : SourceSession) (event : SourceEvent) (sent : List Pending)
    (phase : Phase s sent) :
    Phase (s.step event).1 (sent ++ (kinds (s.step event).2).filter isExchange) := by
  have branch := exchanged s event
  unfold kinds
  generalize s.step event = result at branch
  cases branch with
  | quiet next out silent unsettled table asked =>
      have same : Phase next sent := by
        cases phase with
        | before unasked noM3 noM4 => exact .before (asked ▸ unasked) (table ▸ noM3) (table ▸ noM4)
        | capabilities caps oneM3 noM4 =>
            exact .capabilities (asked ▸ caps) (table ▸ oneM3) (table ▸ noM4)
        | formats caps noM3 oneM4 => exact .formats (asked ▸ caps) (table ▸ noM3) (table ▸ oneM4)
        | trigger caps noM3 noM4 => exact .trigger (asked ▸ caps) (table ▸ noM3) (table ▸ noM4)
      simpa [silent] using same
  | settled next out silent cseq found table asked =>
      simpa [silent] using phase_settle s next sent cseq table asked phase
  | asks next out one unsettled table first ready asked =>
      simpa [one, kindOf_m3, isExchange] using phase_asks s next sent table first asked phase
  | follows next out m before kind pair one named numbered cseq found matched awaited table asked =>
      rcases pair with pair | pair
      · obtain ⟨rfl, rfl⟩ := Prod.mk.inj pair
        simpa [one, named, isExchange] using phase_m4 s next sent cseq awaited table asked phase
      · obtain ⟨rfl, rfl⟩ := Prod.mk.inj pair
        simpa [one, named, isExchange] using phase_m5 s next sent cseq awaited table asked phase
  | aside next out m kind other one named numbered unsettled table asked =>
      rcases other with rfl | rfl
      · simpa [one, named, isExchange] using
          phase_aside s next sent .keepalive (by decide) (by decide) table asked phase
      · simpa [one, named, isExchange] using
          phase_aside s next sent .teardown (by decide) (by decide) table asked phase

theorem asks_snoc (cfg : SourceConfig) (front : List SourceEvent) (event : SourceEvent) :
    asks cfg (front ++ [event]) =
      asks cfg front ++ requests (step (final step (started cfg) front) event).2 := by
  simp [asks, outputs_snoc, requests, sent]

theorem phase_run (cfg : SourceConfig) (events : List SourceEvent) :
    Phase (final step (started cfg) events)
      (((asks cfg events).filterMap kindOf).filter isExchange) := by
  apply final_induction step (started cfg) events
    (fun front state => Phase state (((asks cfg front).filterMap kindOf).filter isExchange))
  · have alone : asks cfg [] = [(new cfg).m1] := rfl
    have first : Phase (started cfg) [] :=
      .before rfl (Table.never_issue (new cfg).tickets .m1 .m3 (by decide) nofun)
        (Table.never_issue (new cfg).tickets .m1 .m4 (by decide) nofun)
    simpa [alone, kindOf_m1, isExchange] using first
  · intro front event back _ phase
    rw [asks_snoc, List.filterMap_append, List.filter_append]
    exact phase_step _ event _ phase

end Order

def allOps (cfg : SourceConfig) (events : List SourceEvent) : List (Op Pending) :=
  .issue .m1 :: opsOf (started cfg) events

theorem asks_issued (cfg : SourceConfig) (events : List SourceEvent) :
    (asks cfg events).map (fun m => (m.cseq, kindOf m)) =
      ((new cfg).tickets.issued (allOps cfg events)).map
        (fun entry => (some entry.1, some entry.2)) := by
  have alone : requests (new cfg).start.2 = [(new cfg).m1] := rfl
  have later := (tickets_run (started cfg) events).2.1
  simp only [asks, alone, List.map_append, later, allOps, Table.issued, Table.gives]
  simp only [List.map_cons, List.map_nil, cseq_m1, kindOf_m1, next_tickets]
  rfl

theorem asks_length (cfg : SourceConfig) (events : List SourceEvent) :
    ((new cfg).tickets.issued (allOps cfg events)).length = (asks cfg events).length := by
  have lengths := congrArg List.length (asks_issued cfg events)
  simpa using lengths.symm

theorem awaited_asked (cfg : SourceConfig) (events : List SourceEvent) (cseq : UInt32)
    (kind : Pending) (awaited : (final step (started cfg) events).pending cseq = some kind) :
    ∃ r ∈ asks cfg events, kindOf r = some kind ∧ r.cseq = some cseq := by
  have table := (tickets_run (started cfg) events).1
  have whole : (final step (started cfg) events).tickets =
      (new cfg).tickets.afterAll (allOps cfg events) := table
  rw [← pending_tickets, whole] at awaited
  have given := (Table.pending_origin _ _ cseq kind awaited).resolve_left nofun
  have member : (some cseq, some kind) ∈ (asks cfg events).map (fun m => (m.cseq, kindOf m)) := by
    rw [asks_issued]
    exact List.mem_map_of_mem (f := fun entry : UInt32 × Pending => (some entry.1, some entry.2))
      given
  obtain ⟨r, mine, same⟩ := List.mem_map.mp member
  obtain ⟨numbered, named⟩ := Prod.mk.inj same
  exact ⟨r, mine, named, numbered⟩

theorem answers_of_matches (cfg : SourceConfig) (front : List SourceEvent) (event : SourceEvent)
    (kind : Pending) (matched : Matches (final step (started cfg) front) event kind) :
    Answers cfg front event kind := by
  refine ⟨matched, ?_⟩
  obtain ⟨m, now, cseq, same, good, numbered, awaited⟩ := matched
  obtain ⟨r, mine, named, carried⟩ := awaited_asked cfg front cseq kind awaited
  exact ⟨m, now, r, same, mine, named, numbered.trans carried.symm⟩

theorem m1_answered (cfg : SourceConfig) (events : List SourceEvent)
    (noted : (final step (started cfg) events).m1Answered ≠ none) :
    ∃ before answer after, events = before ++ answer :: after ∧ Answers cfg before answer .m1 := by
  revert noted
  apply final_induction step (started cfg) events
    (fun front state => state.m1Answered ≠ none →
      ∃ before answer after, front = before ++ answer :: after ∧ Answers cfg before answer .m1)
  · intro noted
    exact absurd rfl noted
  · intro front event back _ known noted
    have earlier (told : (step (final step (started cfg) front) event).1.m1Answered =
        (final step (started cfg) front).m1Answered) :
        ∃ before answer after, front ++ [event] = before ++ answer :: after ∧
          Answers cfg before answer .m1 := by
      obtain ⟨before, answer, after, split, answers⟩ := known (told ▸ noted)
      exact ⟨before, answer, after ++ [event], by simp [split], answers⟩
    have branch := exchanged (final step (started cfg) front) event
    generalize step (final step (started cfg) front) event = result at branch earlier
    cases branch with
    | quiet next out silent unsettled table asked told => exact earlier told
    | settled next out silent cseq found table asked told =>
        rcases told with told | matched
        · exact earlier told
        · exact ⟨front, event, [], rfl, answers_of_matches cfg front event .m1 matched⟩
    | asks next out one unsettled table first ready asked told => exact earlier told
    | follows next out m before kind pair one named numbered cseq found matched awaited table asked
        told => exact earlier told
    | aside next out m kind other one named numbered unsettled table asked told =>
        exact earlier told

theorem sent_in_turn (s : SourceSession) (event : SourceEvent) :
    (.m3 ∈ kinds (s.step event).2 → s.m1Answered ≠ none) ∧
      (.m4 ∈ kinds (s.step event).2 → Matches s event .m3) ∧
      (.m5 ∈ kinds (s.step event).2 → Matches s event .m4) := by
  have branch := exchanged s event
  unfold kinds
  generalize s.step event = result at branch
  cases branch with
  | quiet next out silent => simp [silent]
  | settled next out silent => simp [silent]
  | asks next out one unsettled table first ready => simp [one, kindOf_m3, ready]
  | follows next out m before kind pair one named numbered cseq found matched =>
      rcases pair with pair | pair
      · obtain ⟨rfl, rfl⟩ := Prod.mk.inj pair
        simp [one, named, matched]
      · obtain ⟨rfl, rfl⟩ := Prod.mk.inj pair
        simp [one, named, matched]
  | aside next out m kind other one named =>
      rcases other with rfl | rfl <;> simp [one, named]

theorem asks_cseq (cfg : SourceConfig) (events : List SourceEvent) :
    (asks cfg events).map Message.cseq =
      (((new cfg).tickets.issued (allOps cfg events)).map Prod.fst).map some := by
  have named := congrArg (List.map Prod.fst) (asks_issued cfg events)
  rw [List.map_map, List.map_map] at named
  rw [List.map_map]
  exact named

theorem consumed_settled (cfg : SourceConfig) (events : List SourceEvent) :
    consumed (started cfg) events =
      ((new cfg).tickets.settled (allOps cfg events)).map Prod.fst :=
  (tickets_run (started cfg) events).2.2

/-- M3, M4 and M5 go out in their order, each at most once and each on the answer it waits for; no
request is answered more than once, and as long as the numbers have not come round no two
requests share one. -/
theorem requests_in_order (cfg : SourceConfig) (events : List SourceEvent) :
    InOrder cfg events where
  order := phase_prefix _ _ (phase_run cfg events)
  afterM1 := fun front event _ _ asked =>
    m1_answered cfg front ((sent_in_turn _ event).1 asked)
  onM3 := fun front event _ _ asked =>
    answers_of_matches cfg front event .m3 ((sent_in_turn _ event).2.1 asked)
  onM4 := fun front event _ _ asked =>
    answers_of_matches cfg front event .m4 ((sent_in_turn _ event).2.2 asked)
  once := by
    intro cseq
    have answered := Table.settled_count (new cfg).tickets (allOps cfg events) cseq
    have blank : (new cfg).tickets.pending cseq = none := rfl
    rw [← consumed_settled, blank, Option.toList_none, List.length_nil] at answered
    rw [asks_cseq, List.count_map_of_injective _ _ (fun _ _ => Option.some.inj)]
    omega
  distinct := by
    intro few
    rw [← asks_length] at few
    have blank : ∀ number, (new cfg).tickets.pending number = none := fun _ => rfl
    rw [asks_cseq, consumed_settled]
    exact ⟨(Table.issued_nodup _ _ few).map (fun _ _ => Option.some.inj),
      Table.settled_nodup _ _ blank few⟩

end Castr.Miracast.SourceSession
