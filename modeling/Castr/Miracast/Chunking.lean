import Castr.Lib.Run
import Castr.Miracast.Format
import Castr.Miracast.Progress
import Castr.Miracast.Session

/-! A control connection, read in chunks: what comes of it is what comes of the whole string at
once, except where a chunk ends inside the blank line behind a head of nearly the greatest size. -/

namespace Castr.Miracast

open Castr.Lib.Run

namespace Session

def hear (s : Session) (m : Message) (used now : Nat) : Session × List SinkEvent :=
  { s with rtspBuf := s.rtspBuf.drop used }.drive (s.negotiation.onMessageAt m now)

/-- The same session with more bytes behind those it holds. -/
def more (s : Session) (bytes : List UInt8) : Session := { s with rtspBuf := s.rtspBuf ++ bytes }

inductive Reads (now : Nat) : Session → List SinkEvent → Session → Prop where
  | still (s : Session) : Reads now s [] s
  | next (s : Session) (m : Message) (used : Nat) (events : List SinkEvent) (last : Session)
      (read : parse s.rtspBuf = .ok (some (m, used)))
      (later : Reads now (s.hear m used now).1 events last) :
      Reads now s ((s.hear m used now).2 ++ events) last

def malformed : SinkEvent := .ended "malformed RTSP"

/-- The events up to the first malformed message, and with it. -/
def throughMalformed : List SinkEvent → List SinkEvent
  | [] => []
  | event :: events =>
      if event = malformed then [event] else event :: throughMalformed events

/-- What comes of chunks that arrive one after another. -/
def onChunks (s : Session) (now : Nat) (chunks : List (List UInt8)) : List SinkEvent :=
  (outputs (fun session bytes => session.onRtspBytesAt bytes now) s chunks).flatten

/-- A chunk ends inside the blank line behind the head that `s` is about to read, and more of the
head has come by then than a head that has not ended may have; `missing` is still to come. -/
def Torn (s : Session) (missing : List UInt8) : Prop :=
  ∃ headEnd, findDoubleCrlf s.rtspBuf = some headEnd ∧ headEnd ≤ maxHeaderBytes ∧
    maxHeaderBytes + missing.length < s.rtspBuf.length ∧
    s.rtspBuf.length < headEnd + 4 + missing.length

def Mute (now : Nat) (s : Session) : Prop :=
  ∃ last, Reads now s [] last ∧ ∃ e, parse last.rtspBuf = .error e

/-- Wherever a chunk ends in such a place, it makes no difference. -/
def Smooth (s : Session) (now : Nat) (chunks : List (List UInt8)) : Prop :=
  ∀ front chunk back, chunks = front ++ chunk :: back →
    ∀ events t, Reads now (s.more chunks.flatten) events t → Torn t back.flatten → Mute now t

section Apply

theorem applyOne_more (s : Session) (bytes : List UInt8) (action : Action) :
    (s.more bytes).applyOne action =
    (((s.applyOne action).1).more bytes, (s.applyOne action).2) := by
  cases action <;> rfl

theorem apply_more (s : Session) (bytes : List UInt8) (actions : List Action) :
    (s.more bytes).apply actions = (((s.apply actions).1).more bytes, (s.apply actions).2) := by
  induction actions generalizing s with
  | nil => rfl
  | cons action actions ih =>
      simp only [apply, applyOne_more, ih]

theorem hear_more (s : Session) (bytes : List UInt8) (m : Message) (used now : Nat)
    (bound : used ≤ s.rtspBuf.length) :
    (s.more bytes).hear m used now = ((s.hear m used now).1.more bytes, (s.hear m used now).2) := by
  have dropped : (s.rtspBuf ++ bytes).drop used = s.rtspBuf.drop used ++ bytes :=
    List.drop_append_of_le_length bound
  unfold hear drive
  rw [← apply_more]
  simp only [more, dropped]

@[simp] theorem rtspBuf_hear (s : Session) (m : Message) (used now : Nat) :
    (s.hear m used now).1.rtspBuf = s.rtspBuf.drop used := rtspBuf_drive _ _

theorem reason_onMessageAt (neg : Negotiation) (m : Message) (now : Nat) (reason : String)
    (torn : .teardown reason ∈ (neg.onMessageAt m now).2) :
    reason ∈ ["source sent TEARDOWN", "source refused a request", Negotiation.noSession] := by
  have branch := Negotiation.messaged neg m now
  generalize neg.onMessageAt m now = result at branch torn
  rcases branch with ⟨method, asked⟩ | ⟨status, answered⟩
  · cases asked <;> simp_all
  · cases answered <;> simp_all

theorem malformed_not_mem_hear (s : Session) (m : Message) (used now : Nat) :
    malformed ∉ (s.hear m used now).2 := by
  intro member
  have torn := (ended_apply _ _ _).mp member
  exact absurd (reason_onMessageAt s.negotiation m now _ torn) (by decide)

end Apply

section Drain

variable (now : Nat)

theorem drain_waits (fuel : Nat) (s : Session) (waits : parse s.rtspBuf = .ok none) :
    drain now fuel s = (s, []) := by
  cases fuel with
  | zero => rfl
  | succ fuel => rw [drain, waits]

theorem drain_refuses (fuel : Nat) (s : Session) (e : ParseError)
    (refused : parse s.rtspBuf = .error e) :
    drain now (fuel + 1) s = ({ s with rtspBuf := [] }, [malformed]) := by
  rw [drain, refused]
  rfl

theorem drain_hears (fuel : Nat) (s : Session) (m : Message) (used : Nat)
    (read : parse s.rtspBuf = .ok (some (m, used))) :
    drain now (fuel + 1) s = ((drain now fuel (s.hear m used now).1).1,
      (s.hear m used now).2 ++ (drain now fuel (s.hear m used now).1).2) := by
  rw [drain, read]
  rfl

theorem drain_fuel (fuel : Nat) (s : Session) (enough : s.rtspBuf.length ≤ fuel) :
    drain now fuel s = drain now s.rtspBuf.length s := by
  induction fuel using Nat.strongRecOn generalizing s with
  | ind fuel ih =>
      cases found : parse s.rtspBuf with
      | error e =>
          cases size : s.rtspBuf with
          | nil =>
              rw [size] at found
              cases found
          | cons b rest =>
              rw [size] at enough
              cases fuel with
              | zero => simp at enough
              | succ fuel => rw [List.length_cons, drain_refuses now _ s e found,
                  drain_refuses now _ s e found]
      | ok result =>
          cases result with
          | none => rw [drain_waits now _ s found, drain_waits now _ s found]
          | some read =>
              obtain ⟨m, used⟩ := read
              have bound := parse_append s.rtspBuf [] m used found
              obtain ⟨few, shorter⟩ : ∃ few, s.rtspBuf.length = few + 1 :=
                Nat.exists_eq_succ_of_ne_zero (by omega)
              obtain ⟨more, larger⟩ : ∃ more, fuel = more + 1 :=
                Nat.exists_eq_succ_of_ne_zero (by omega)
              have left : (s.hear m used now).1.rtspBuf.length ≤ few := by
                rw [rtspBuf_hear, List.length_drop]
                omega
              rw [larger, shorter, drain_hears now _ s m used found,
                drain_hears now _ s m used found, ih more (by omega) _ (by omega),
                ih few (by omega) _ left]

def events (s : Session) : List SinkEvent := (drain now s.rtspBuf.length s).2

theorem events_more (s : Session) (bytes : List UInt8) :
    (s.onRtspBytesAt bytes now).2 = events now (s.more bytes) := rfl

theorem events_waits (s : Session) (waits : parse s.rtspBuf = .ok none) : events now s = [] := by
  rw [events, drain_waits now _ s waits]

theorem events_refuses (s : Session) (e : ParseError) (refused : parse s.rtspBuf = .error e) :
    events now s = [malformed] := by
  obtain ⟨few, shorter⟩ : ∃ few, s.rtspBuf.length = few + 1 := by
    cases size : s.rtspBuf with
    | nil =>
        rw [size] at refused
        cases refused
    | cons b rest => exact ⟨rest.length, rfl⟩
  rw [events, shorter, drain_refuses now _ s e refused]

theorem events_reads (s t : Session) (front : List SinkEvent) (reads : Reads now s front t) :
    events now s = front ++ events now t := by
  induction reads with
  | still s => rfl
  | next s m used front last read later ih =>
      have bound := parse_append s.rtspBuf [] m used read
      obtain ⟨few, shorter⟩ : ∃ few, s.rtspBuf.length = few + 1 :=
        Nat.exists_eq_succ_of_ne_zero (by omega)
      have left : (s.hear m used now).1.rtspBuf.length ≤ few := by
        rw [rtspBuf_hear, List.length_drop]
        omega
      rw [List.append_assoc, ← ih, events, shorter, drain_hears now _ s m used read,
        drain_fuel now _ _ left]
      rfl

theorem drain_ends (s : Session) : ∃ front t, Reads now s front t ∧
    ((parse t.rtspBuf = .ok none ∧ drain now s.rtspBuf.length s = (t, front)) ∨
      ((∃ e, parse t.rtspBuf = .error e) ∧ (drain now s.rtspBuf.length s).2 = front ++
        [malformed])) := by
  induction size : s.rtspBuf.length using Nat.strongRecOn generalizing s with
  | ind length ih =>
      cases found : parse s.rtspBuf with
      | error e =>
          have alone := events_refuses now s e found
          rw [events, size] at alone
          exact ⟨[], s, .still s, .inr ⟨⟨e, found⟩, alone⟩⟩
      | ok result =>
          cases result with
          | none => exact ⟨[], s, .still s, .inl ⟨found, drain_waits now _ s found⟩⟩
          | some read =>
              obtain ⟨m, used⟩ := read
              have bound := parse_append s.rtspBuf [] m used found
              obtain ⟨few, shorter⟩ : ∃ few, length = few + 1 :=
                Nat.exists_eq_succ_of_ne_zero (by omega)
              have left : (s.hear m used now).1.rtspBuf.length ≤ few := by
                rw [rtspBuf_hear, List.length_drop]
                omega
              obtain ⟨front, t, reads, ends⟩ := ih (s.hear m used now).1.rtspBuf.length
                (by omega) (s.hear m used now).1 rfl
              rw [shorter, drain_hears now _ s m used found, drain_fuel now _ _ left]
              refine ⟨_, t, .next s m used front t found reads, ?_⟩
              rcases ends with ⟨waits, same⟩ | ⟨refused, same⟩
              · exact .inl ⟨waits, by rw [same]⟩
              · exact .inr ⟨refused, by rw [same, List.append_assoc]⟩

theorem malformed_not_mem_reads (s t : Session) (front : List SinkEvent)
    (reads : Reads now s front t) : malformed ∉ front := by
  induction reads with
  | still s => nofun
  | next s m used front last read later ih =>
      rw [List.mem_append]
      exact fun member => member.elim (malformed_not_mem_hear s m used now) ih

theorem reads_trans (s t u : Session) (front back : List SinkEvent) (first : Reads now s front t)
    (second : Reads now t back u) : Reads now s (front ++ back) u := by
  induction first with
  | still s => exact second
  | next s m used front last read later ih =>
      rw [List.append_assoc]
      exact .next s m used _ u read (ih second)

theorem reads_stuck (s t : Session) (front : List SinkEvent) (reads : Reads now s front t)
    (stuck : ∀ m used, parse s.rtspBuf ≠ .ok (some (m, used))) : t = s ∧ front = [] := by
  cases reads with
  | still s => exact ⟨rfl, rfl⟩
  | next s m used front last read later => exact absurd read (stuck m used)

theorem reads_more (s t : Session) (front : List SinkEvent) (bytes : List UInt8)
    (reads : Reads now s front t) : Reads now (s.more bytes) front (t.more bytes) := by
  induction reads with
  | still s => exact .still _
  | next s m used front last read later ih =>
      have longer := parse_append s.rtspBuf bytes m used read
      have heard := hear_more s bytes m used now longer.2.2.1
      have step : (s.hear m used now).2 = ((s.more bytes).hear m used now).2 := by rw [heard]
      rw [step]
      apply Reads.next (s.more bytes) m used front _ longer.1
      rw [heard]
      exact ih

theorem reads_past (s t : Session) (front : List SinkEvent) (bytes : List UInt8)
    (reads : Reads now s front t) (other : List SinkEvent) (u : Session)
    (far : Reads now (s.more bytes) other u) :
    (∃ back, Reads now (t.more bytes) back u ∧ other = front ++ back) ∨
      ∃ (v : Session) (m : Message) (used : Nat),
        u = v.more bytes ∧ parse v.rtspBuf = .ok (some (m, used)) := by
  induction reads generalizing other with
  | still s => exact .inl ⟨other, far, rfl⟩
  | next s m used front last read later ih =>
      have longer := parse_append s.rtspBuf bytes m used read
      have heard := hear_more s bytes m used now longer.2.2.1
      cases far with
      | still => exact .inr ⟨s, m, used, rfl, read⟩
      | next _ m' used' other last' read' later' =>
          have same := longer.1.symm.trans read'
          simp only [Except.ok.injEq, Option.some.injEq, Prod.mk.injEq] at same
          obtain ⟨rfl, rfl⟩ := same
          rw [heard] at later' ⊢
          rcases ih other later' with ⟨back, past, rfl⟩ | within
          · exact .inl ⟨back, past, (List.append_assoc _ _ _).symm⟩
          · exact .inr within

theorem rtspBuf_reads (s t : Session) (front : List SinkEvent) (reads : Reads now s front t) :
    t.rtspBuf.length ≤ s.rtspBuf.length := by
  induction reads with
  | still s => exact le_rfl
  | next s m used front last read later ih =>
      rw [rtspBuf_hear, List.length_drop] at ih
      omega

end Drain

section Chunks

variable (now : Nat)

theorem throughMalformed_append (front back : List SinkEvent) (clean : malformed ∉ front) :
    throughMalformed (front ++ back) = front ++ throughMalformed back := by
  induction front with
  | nil => rfl
  | cons event front ih =>
      simp only [List.mem_cons, not_or] at clean
      rw [List.cons_append, throughMalformed, if_neg (Ne.symm clean.1), ih clean.2,
        List.cons_append]

theorem throughMalformed_ends (front back : List SinkEvent) (clean : malformed ∉ front) :
    throughMalformed (front ++ malformed :: back) = front ++ [malformed] := by
  rw [throughMalformed_append _ _ clean, throughMalformed, if_pos rfl]

theorem throughMalformed_clean (events : List SinkEvent) (clean : malformed ∉ events) :
    throughMalformed events = events := by
  have whole := throughMalformed_append events [] clean
  simpa [throughMalformed] using whole

@[simp] theorem more_nil (s : Session) : s.more [] = s := by
  simp [more]

theorem more_append (s : Session) (front back : List UInt8) :
    s.more (front ++ back) = (s.more front).more back := by
  simp [more, List.append_assoc]

theorem reads_linear (s t u : Session) (front other : List SinkEvent)
    (reads : Reads now s front t) (far : Reads now s other u)
    (ends : ∀ m used, parse u.rtspBuf ≠ .ok (some (m, used))) :
    ∃ back, Reads now t back u ∧ other = front ++ back := by
  have both := reads_past now s t front [] reads other u (by rwa [more_nil])
  rcases both with ⟨back, past, same⟩ | ⟨v, m, used, rfl, read⟩
  · exact ⟨back, by rwa [more_nil] at past, same⟩
  · exact absurd read (by simpa using ends m used)

theorem not_read (buf : List UInt8) (e : ParseError) (refused : parse buf = .error e) (m : Message)
    (used : Nat) : parse buf ≠ .ok (some (m, used)) := by
  rw [refused]
  nofun

theorem mute_iff (t : Session) :
    throughMalformed (events now t) = [malformed] ↔ Mute now t := by
  obtain ⟨front, u, reads, ends⟩ := drain_ends now t
  have clean := malformed_not_mem_reads now t u front reads
  rcases ends with ⟨waits, same⟩ | ⟨⟨e, refused⟩, same⟩
  · have all : events now t = front := by rw [events, same]
    rw [all, throughMalformed_clean front clean]
    constructor
    · rintro rfl
      exact absurd (List.mem_singleton_self _) clean
    · rintro ⟨last, silent, e, refused⟩
      obtain ⟨back, past, -⟩ :=
        reads_linear now t u last front [] reads silent (not_read _ e refused)
      have stuck := reads_stuck now u last back past (by rw [waits]; nofun)
      rw [stuck.1, waits] at refused
      cases refused
  · have all : events now t = front ++ malformed :: [] := same
    rw [all, throughMalformed_ends front [] clean]
    constructor
    · intro alone
      have empty : front = [] := by simpa using alone
      subst empty
      exact ⟨u, reads, e, refused⟩
    · rintro ⟨last, silent, e', refused'⟩
      obtain ⟨back, -, none⟩ :=
        reads_linear now t u last front [] reads silent (not_read _ e' refused')
      rw [(List.append_eq_nil_iff.mp none.symm).1, List.nil_append]

theorem mute_later (s t : Session) (front : List SinkEvent) (reads : Reads now s front t)
    (mute : Mute now s) : Mute now t := by
  obtain ⟨last, silent, e, refused⟩ := mute
  obtain ⟨back, past, none⟩ :=
    reads_linear now s t last front [] reads silent (not_read _ e refused)
  rw [(List.append_eq_nil_iff.mp none.symm).2] at past
  exact ⟨last, past, e, refused⟩

theorem not_torn_read (v : Session) (m : Message) (used : Nat) (bytes missing : List UInt8)
    (read : parse v.rtspBuf = .ok (some (m, used))) (fewer : missing.length ≤ bytes.length) :
    ¬ Torn (v.more bytes) missing := by
  rintro ⟨headEnd, found, -, -, short⟩
  obtain ⟨-, -, -, place, here⟩ := parse_append v.rtspBuf [] m used read
  have bound := findDoubleCrlf_bound v.rtspBuf place here
  have later := findDoubleCrlf_append v.rtspBuf bytes place here
  have same : some place = some headEnd := later.symm.trans found
  have size : (v.more bytes).rtspBuf.length = v.rtspBuf.length + bytes.length :=
    List.length_append
  simp only [Option.some.injEq] at same
  omega

theorem tornHead_of_torn (t : Session) (bytes : List UInt8) (torn : Torn (t.more bytes) bytes) :
    TornHead t.rtspBuf bytes := by
  obtain ⟨headEnd, found, fits, long, short⟩ := torn
  have size : (t.more bytes).rtspBuf.length = t.rtspBuf.length + bytes.length :=
    List.length_append
  exact ⟨headEnd, found, fits, by omega, by omega⟩

theorem torn_of_tornHead (t : Session) (bytes : List UInt8) (torn : TornHead t.rtspBuf bytes) :
    Torn (t.more bytes) bytes := by
  obtain ⟨headEnd, found, fits, long, short⟩ := torn
  have size : (t.more bytes).rtspBuf.length = t.rtspBuf.length + bytes.length :=
    List.length_append
  exact ⟨headEnd, found, fits, by omega, by omega⟩

theorem not_torn_waits (t u : Session) (bytes : List UInt8) (back : List SinkEvent)
    (waits : parse t.rtspBuf = .ok none) (reads : Reads now (t.more bytes) back u) :
    ¬ Torn u bytes := by
  intro torn
  cases reads with
  | still =>
      rw [parse_torn _ _ (tornHead_of_torn t bytes torn)] at waits
      cases waits
  | next _ m used events _ read later =>
      have past := parse_waited t.rtspBuf bytes m used waits read
      have left := rtspBuf_reads now _ _ _ later
      obtain ⟨headEnd, -, -, long, -⟩ := torn
      have size : (t.more bytes).rtspBuf.length = t.rtspBuf.length + bytes.length :=
        List.length_append
      rw [rtspBuf_hear, List.length_drop] at left
      omega

theorem onChunks_cons (s : Session) (chunk : List UInt8) (chunks : List (List UInt8)) :
    s.onChunks now (chunk :: chunks) =
      (s.onRtspBytesAt chunk now).2 ++ (s.onRtspBytesAt chunk now).1.onChunks now chunks := rfl

theorem smooth_cons (s t : Session) (front : List SinkEvent) (chunk : List UInt8)
    (chunks : List (List UInt8)) (reads : Reads now (s.more chunk) front t) :
    s.Smooth now (chunk :: chunks) ↔
      (∀ back u, Reads now (t.more chunks.flatten) back u → Torn u chunks.flatten → Mute now u) ∧
        t.Smooth now chunks := by
  have whole : s.more (chunk :: chunks).flatten = (s.more chunk).more chunks.flatten :=
    more_append s chunk chunks.flatten
  have far := reads_more now _ _ _ chunks.flatten reads
  constructor
  · intro smooth
    constructor
    · intro back u past torn
      apply smooth [] chunk chunks rfl (front ++ back) u _ torn
      rw [whole]
      exact reads_trans now _ _ _ _ _ far past
    · intro before cut after split back u past torn
      apply smooth (chunk :: before) cut after (by rw [split]; rfl) (front ++ back) u _ torn
      rw [whole]
      exact reads_trans now _ _ _ _ _ far past
  · rintro ⟨here, later⟩ before cut after split other u past torn
    rw [whole] at past
    rcases reads_past now _ _ _ _ reads _ _ past with ⟨back, behind, -⟩ | ⟨v, m, used, rfl, read⟩
    · cases before with
      | nil =>
          obtain ⟨rfl, rfl⟩ := List.cons.inj split
          exact here back u behind torn
      | cons first before =>
          obtain ⟨rfl, inside⟩ := List.cons.inj split
          exact later before cut after inside back u behind torn
    · have fewer : after.flatten.length ≤ chunks.flatten.length := by
        cases before with
        | nil => rw [(List.cons.inj split).2]
        | cons first before =>
            have inside : chunks = before ++ cut :: after := (List.cons.inj split).2
            rw [inside, List.flatten_append, List.flatten_cons,
              List.length_append, List.length_append]
            omega
      exact absurd torn (not_torn_read v m used _ _ read fewer)

/-- In chunks or at once, the events up to a malformed message are the same, if and only if no
chunk ends where it would make one message malformed that is not. -/
theorem chunks_agree_iff_smooth (s : Session) (chunks : List (List UInt8))
    (waits : parse s.rtspBuf = .ok none) :
    throughMalformed (s.onChunks now chunks) =
        throughMalformed (s.onRtspBytesAt chunks.flatten now).2 ↔ s.Smooth now chunks := by
  induction chunks generalizing s with
  | nil =>
      have still := events_waits now s waits
      rw [List.flatten_nil, events_more, more_nil, still]
      exact iff_of_true rfl (fun front chunk back split => by simp at split)
  | cons chunk chunks ih =>
      obtain ⟨front, t, reads, ends⟩ := drain_ends now (s.more chunk)
      have clean := malformed_not_mem_reads now _ _ _ reads
      have whole : (s.onRtspBytesAt (chunk :: chunks).flatten now).2 =
          front ++ events now (t.more chunks.flatten) := by
        rw [events_more, List.flatten_cons, more_append]
        exact events_reads now _ _ _ (reads_more now _ _ _ _ reads)
      rw [smooth_cons now s t front chunk chunks reads, onChunks_cons, whole,
        throughMalformed_append _ _ clean]
      rcases ends with ⟨still, same⟩ | ⟨⟨e, refused⟩, same⟩
      · have first : s.onRtspBytesAt chunk now = (t, front) := same
        rw [first]
        dsimp only
        rw [throughMalformed_append _ _ clean, List.append_cancel_left_eq]
        constructor
        · intro equal
          refine ⟨fun back u past torn =>
            absurd torn (not_torn_waits now t u _ back still past), ?_⟩
          exact (ih t still).mp equal
        · exact fun smooth => (ih t still).mpr smooth.2
      · have first : (s.onRtspBytesAt chunk now).2 = front ++ [malformed] := same
        rw [first, List.append_assoc, List.singleton_append, throughMalformed_ends _ _ clean,
          List.append_cancel_left_eq, eq_comm, mute_iff]
        constructor
        · intro mute
          refine ⟨fun back u past _ => mute_later now _ _ _ past mute, ?_⟩
          intro before cut after _ back u past _
          exact mute_later now _ _ _ past mute
        · rintro ⟨here, -⟩
          rcases parse_refused t.rtspBuf chunks.flatten e refused with ⟨e', still⟩ | torn
          · exact ⟨t.more chunks.flatten, .still _, e', still⟩
          · exact here [] _ (.still _) (torn_of_tornHead t _ torn)

end Chunks

def fresh : Session := .new ⟨.only720p30, .lpcm48kStereo, ⟨5000⟩, 8000, true, true⟩ "01234567"

section Torn

def padded (count : Nat) : Message where
  start := .request "OPTIONS" "*"
  headers := [("X", String.ofList (List.replicate count 'a'))]
  body := ""

/-- M1 in two chunks is answered, and followed by M2, as it is at once. -/
theorem chunks_agree_fresh :
    fresh.Smooth 0 [(padded 1).bytes.take 18, (padded 1).bytes.drop 18] ∧
      (fresh.onChunks 0 [(padded 1).bytes.take 18, (padded 1).bytes.drop 18]).length = 2 := by
  have same : throughMalformed (fresh.onChunks 0
      [(padded 1).bytes.take 18, (padded 1).bytes.drop 18]) =
      throughMalformed (fresh.onRtspBytesAt
        [(padded 1).bytes.take 18, (padded 1).bytes.drop 18].flatten 0).2 := by decide +kernel
  exact ⟨(chunks_agree_iff_smooth 0 fresh _ rfl).mp same, by decide +kernel⟩

variable (count : Nat)

theorem utf8_replicate : Lib.Utf8.utf8 (List.replicate count 'a') = List.replicate count 97 := by
  induction count with
  | zero => rfl
  | succ count ih =>
      have first : String.utf8EncodeChar 'a' = [97] := by decide
      rw [List.replicate_succ, List.replicate_succ, ← ih, Lib.Utf8.utf8, List.flatMap_cons, first]
      rfl

theorem plain_padded : (padded count).Plain := by
  have unspaced (c : Char) (member : c ∈ List.replicate count 'a') :
      Lib.Text.isSpace c = false := by
    rw [List.eq_of_mem_replicate member]
    decide
  refine ⟨⟨by decide, by decide, by decide, by decide, by decide, by decide⟩, ?_, ?_⟩
  · intro entry member
    have name : Message.Unbroken "X" ∧ Message.Trimmed "X" ∧ ':' ∉ "X".toList := by decide
    rw [List.mem_singleton.mp member]
    refine ⟨name, ⟨⟨fun inside => ?_, fun inside => ?_⟩, ?_⟩⟩
    · rw [String.toList_ofList] at inside
      exact absurd (unspaced _ inside) (by decide)
    · rw [String.toList_ofList] at inside
      exact absurd (unspaced _ inside) (by decide)
    · rw [Message.Trimmed, String.toList_ofList, Lib.Text.trim_word _ unspaced]
  · intro entry member
    have name : Lib.Text.sameIgnoringCase "X".toList "content-length".toList = false ∧
        Lib.Text.sameIgnoringCase "X".toList "content-type".toList = false := by decide
    rw [List.mem_singleton.mp member]
    exact name

theorem headLength_padded : (padded count).headLength = count + 23 := by
  have size : (String.ofList (List.replicate count 'a')).utf8ByteSize = count := by
    rw [← Lib.Utf8.utf8_length, utf8_replicate, List.length_replicate]
  have text : (padded count).headText = "OPTIONS * RTSP/1.0\r\n" ++
      ("" ++ ("X" ++ ": " ++ String.ofList (List.replicate count 'a') ++ "\r\n")) ++ "" := rfl
  have first : ("OPTIONS * RTSP/1.0\r\n").utf8ByteSize = 20 := by decide
  have name : ("X").utf8ByteSize = 1 := by decide
  have colon : (": ").utf8ByteSize = 2 := by decide
  have ends : ("\r\n").utf8ByteSize = 2 := by decide
  have none : ("").utf8ByteSize = 0 := by decide
  rw [Message.headLength, text, String.utf8ByteSize_append, String.utf8ByteSize_append,
    String.utf8ByteSize_append, String.utf8ByteSize_append, String.utf8ByteSize_append,
    String.utf8ByteSize_append, size, first, name, colon, ends, none]
  omega

theorem hear_options (s : Session) (m : Message) (used now : Nat) (uri : String)
    (asks : m.start = .request "OPTIONS" uri) :
    ∃ text events, (s.hear m used now).2 = .sendRtsp text :: events := by
  have answer : (s.negotiation.onMessageAt m now).2 =
      [.send ((response 200 (m.cseq.getD 0) "").addHeader "Public" Negotiation.supported),
        .send (s.negotiation.hear now).m2] := by
    rw [Negotiation.onMessageAt, asks]
    rfl
  rw [hear, drive, answer]
  exact ⟨_, _, rfl⟩

theorem torn_padded (most : count + 23 = maxHeaderBytes) :
    throughMalformed (fresh.onChunks 0
        [(padded count).bytes.take 65537, (padded count).bytes.drop 65537]) ≠
      throughMalformed (fresh.onRtspBytesAt
        [(padded count).bytes.take 65537, (padded count).bytes.drop 65537].flatten 0).2 := by
  have head := headLength_padded count
  have size := bytes_length (padded count)
  have found := findDoubleCrlf_bytes (padded count) (plain_padded count) []
  have empty : (padded count).body.utf8ByteSize = 0 := rfl
  have read := parse_bytes (padded count) (plain_padded count) (head.trans most).le
    (empty.trans_le (Nat.zero_le _)) []
  rw [head, most, List.append_nil] at found
  rw [head, most, empty] at size
  rw [List.append_nil] at read
  generalize (padded count).bytes = bytes at size found read ⊢
  have limit : maxHeaderBytes = 65536 := rfl
  have whole : [bytes.take 65537, bytes.drop 65537].flatten = bytes := by simp
  have torn : TornHead (bytes.take 65537) (bytes.drop 65537) := by
    have front : (bytes.take 65537).length = 65537 := by
      rw [List.length_take]
      omega
    refine ⟨maxHeaderBytes, ?_, le_rfl, by omega, by omega⟩
    rw [List.take_append_drop, found]
  have refused : (fresh.onRtspBytesAt (bytes.take 65537) 0).2 = [malformed] :=
    events_refuses 0 (fresh.more (bytes.take 65537)) _ (parse_torn _ _ torn)
  obtain ⟨text, events, answered⟩ := hear_options (fresh.more bytes) (padded count).announced
    bytes.length 0 "*" rfl
  have reads :=
    events_reads 0 (fresh.more bytes) _ _ (.next (fresh.more bytes) _ _ [] _ read (.still _))
  rw [onChunks_cons, refused, whole, events_more, reads, answered]
  simp [throughMalformed, malformed]

theorem torn_chunks_disagree :
    throughMalformed (fresh.onChunks 0
        [(padded 65513).bytes.take 65537, (padded 65513).bytes.drop 65537]) ≠
      throughMalformed (fresh.onRtspBytesAt
        [(padded 65513).bytes.take 65537, (padded 65513).bytes.drop 65537].flatten 0).2 :=
  torn_padded 65513 rfl

end Torn

end Session

end Castr.Miracast
