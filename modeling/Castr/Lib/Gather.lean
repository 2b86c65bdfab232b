import Castr.Lib.Run
import Mathlib.Data.Finset.Card
import Mathlib.Data.Finset.Range

/-! Gathering numbered messages from their pieces behind a watermark.

A collector keeps the pieces it holds of every unfinished message and, of all the
finished ones, only the newest number. A piece of a message it holds nothing of is
ignored when the message is not past that watermark. What this cannot tell apart,
a finished message and one never begun, is what the results below are about. -/

namespace Castr.Lib.Gather

open Castr.Lib.Run

structure State where
  held : Nat → Finset Nat
  newest : Option Nat

inductive Event where
  | piece (message index : Nat)
  | discard (dropped : Nat → Bool)

def init : State := ⟨fun _ => ∅, none⟩

def State.passed (state : State) (message : Nat) : Bool :=
  state.newest.any (fun newest => decide (message ≤ newest))

def State.finish (state : State) (message : Nat) : State :=
  ⟨Function.update state.held message ∅, some (state.newest.elim message (max message))⟩

def State.keep (state : State) (message : Nat) (pieces : Finset Nat) : State :=
  { state with held := Function.update state.held message pieces }

def State.discard (state : State) (dropped : Nat → Bool) : State :=
  { state with held := fun message => if dropped message then ∅ else state.held message }

/-- The answer is the message that this event finished, if any. -/
def step (size : Nat → Nat) (state : State) : Event → State × Option Nat
  | .piece message index =>
      if state.held message = ∅ ∧ state.passed message then (state, none)
      else if (insert index (state.held message)).card = size message then
        (state.finish message, some message)
      else (state.keep message (insert index (state.held message)), none)
  | .discard dropped => (state.discard dropped, none)

def finished (size : Nat → Nat) (events : List Event) (message : Nat) : Prop :=
  some message ∈ outputs (step size) init events

/-- The pieces of a message that a list of events brings. -/
def arrived : List Event → Nat → Finset Nat
  | [], _ => ∅
  | .piece message index :: events, wanted =>
      if message = wanted then insert index (arrived events wanted) else arrived events wanted
  | .discard _ :: events, wanted => arrived events wanted

theorem mem_arrived (events : List Event) (message index : Nat) :
    index ∈ arrived events message ↔ .piece message index ∈ events := by
  induction events with
  | nil => simp [arrived]
  | cons event tail ih =>
      cases event with
      | piece other piece =>
          by_cases same : other = message
          · subst same
            simp [arrived, ih]
          · simp [arrived, same, ih, Ne.symm same]
      | discard dropped => simp [arrived, ih]

theorem arrived_snoc_piece (events : List Event) (message index wanted : Nat) :
    arrived (events ++ [.piece message index]) wanted =
      if message = wanted then insert index (arrived events wanted) else arrived events wanted := by
  ext piece
  by_cases same : message = wanted
  · subst same
    simp [mem_arrived, or_comm]
  · simp [mem_arrived, same, Ne.symm same]

theorem arrived_snoc_discard (events : List Event) (dropped : Nat → Bool) (wanted : Nat) :
    arrived (events ++ [.discard dropped]) wanted = arrived events wanted := by
  ext piece
  simp [mem_arrived]

section Watermark

variable (state : State) (message wanted : Nat)

theorem passed_iff :
    state.passed wanted = true ↔ ∃ newest, state.newest = some newest ∧ wanted ≤ newest := by
  cases newest : state.newest <;> simp [State.passed, newest]

theorem finish_passed : (state.finish message).passed message = true := by
  cases newest : state.newest <;> simp [State.finish, State.passed, newest]

theorem finish_passed_mono (before : state.passed wanted = true) :
    (state.finish message).passed wanted = true := by
  cases newest : state.newest with
  | none => simp [State.passed, newest] at before
  | some value =>
      simp only [State.passed, newest, Option.any_some, decide_eq_true_eq] at before
      simp [State.finish, State.passed, newest, before]

theorem finish_newest (value : Nat) (after : (state.finish message).newest = some value) :
    value = message ∨ state.newest = some value := by
  cases newest : state.newest with
  | none =>
      simp only [State.finish, newest, Option.elim_none, Option.some.injEq] at after
      exact Or.inl after.symm
  | some old =>
      simp only [State.finish, newest, Option.elim_some, Option.some.injEq] at after
      rcases max_choice message old with left | right
      · exact Or.inl (by omega)
      · exact Or.inr (by rw [← after, right])

end Watermark

theorem piece_cases (size : Nat → Nat) (state : State) (message index : Nat) :
    (state.held message = ∅ ∧ state.passed message = true ∧
      step size state (.piece message index) = (state, none)) ∨
    (¬ (state.held message = ∅ ∧ state.passed message = true) ∧
      (insert index (state.held message)).card = size message ∧
      step size state (.piece message index) = (state.finish message, some message)) ∨
    (¬ (state.held message = ∅ ∧ state.passed message = true) ∧
      (insert index (state.held message)).card ≠ size message ∧
      step size state (.piece message index) =
        (state.keep message (insert index (state.held message)), none)) := by
  by_cases behind : state.held message = ∅ ∧ state.passed message = true
  · exact Or.inl ⟨behind.1, behind.2, by rw [step, if_pos behind]⟩
  · by_cases complete : (insert index (state.held message)).card = size message
    · exact Or.inr (Or.inl ⟨behind, complete, by rw [step, if_neg behind, if_pos complete]⟩)
    · exact Or.inr (Or.inr ⟨behind, complete, by rw [step, if_neg behind, if_neg complete]⟩)

theorem step_passed_mono (size : Nat → Nat) (state : State) (event : Event) (wanted : Nat)
    (before : state.passed wanted = true) : (step size state event).1.passed wanted = true := by
  cases event with
  | piece message index =>
      obtain ⟨_, _, same⟩ | ⟨_, _, same⟩ | ⟨_, _, same⟩ := piece_cases size state message index
      · rw [same]
        exact before
      · rw [same]
        exact finish_passed_mono state message wanted before
      · rw [same]
        exact before
  | discard dropped => exact before

theorem behind_step (size : Nat → Nat) (state : State) (event : Event) (wanted : Nat)
    (nothing : state.held wanted = ∅) (behind : state.passed wanted = true) :
    (step size state event).1.held wanted = ∅ ∧ (step size state event).2 ≠ some wanted := by
  cases event with
  | piece message index =>
      by_cases same : message = wanted
      · subst same
        simp [step, nothing, behind]
      · obtain ⟨_, _, next⟩ | ⟨_, _, next⟩ | ⟨_, _, next⟩ := piece_cases size state message index
        · rw [next]
          exact ⟨nothing, by simp⟩
        · rw [next]
          exact ⟨by simp [State.finish, Ne.symm same, nothing], by simpa using same⟩
        · rw [next]
          exact ⟨by simp [State.keep, Ne.symm same, nothing], by simp⟩
  | discard dropped => exact ⟨by simp [step, State.discard, nothing], by simp [step]⟩

theorem behind_forever (size : Nat → Nat) (state : State) (events : List Event) (wanted : Nat)
    (nothing : state.held wanted = ∅) (behind : state.passed wanted = true) :
    some wanted ∉ outputs (step size) state events := by
  induction events generalizing state with
  | nil => simp
  | cons event tail ih =>
      have here := behind_step size state event wanted nothing behind
      have later := ih (step size state event).1 here.1
        (step_passed_mono size state event wanted behind)
      simp only [outputs_cons, List.mem_cons, not_or]
      exact ⟨Ne.symm here.2, later⟩

private theorem step_finishes (size : Nat → Nat) (state : State) (event : Event) (message : Nat)
    (answer : (step size state event).2 = some message) :
    (step size state event).1.held message = ∅ ∧
      (step size state event).1.passed message = true := by
  cases event with
  | piece other index =>
      obtain ⟨_, _, next⟩ | ⟨_, _, next⟩ | ⟨_, _, next⟩ := piece_cases size state other index
      · rw [next] at answer
        cases answer
      · rw [next] at answer ⊢
        cases answer
        exact ⟨by simp [State.finish], finish_passed state message⟩
      · rw [next] at answer
        cases answer
  | discard dropped => cases answer

theorem finished_once (size : Nat → Nat) (events : List Event) :
    ((outputs (step size) init events).filterMap id).Nodup ∧
      ∀ message, finished size events message →
        (final (step size) init events).held message = ∅ ∧
          (final (step size) init events).passed message = true := by
  apply final_induction (step size) init events (fun front state =>
    ((outputs (step size) init front).filterMap id).Nodup ∧
      ∀ message, finished size front message →
        state.held message = ∅ ∧ state.passed message = true)
  · simp [finished]
  · intro front event back _ now
    obtain ⟨nodup, behind⟩ := now
    unfold finished at behind ⊢
    rw [outputs_snoc, List.filterMap_append]
    constructor
    · cases answer : (step size (final (step size) init front) event).2 with
      | none => simpa using nodup
      | some message =>
          have unseen : some message ∉ outputs (step size) init front := by
            intro before
            have old := behind message before
            exact (behind_step size _ event message old.1 old.2).2 answer
          have fresh : message ∉ (outputs (step size) init front).filterMap id := by
            simpa using unseen
          simpa [List.nodup_append] using
            ⟨nodup, fun other member same => fresh (same ▸ by simpa using member)⟩
    · intro message member
      rcases List.mem_append.mp member with before | now
      · have old := behind message before
        exact ⟨(behind_step size _ event message old.1 old.2).1,
          step_passed_mono size _ event message old.2⟩
      · exact step_finishes size _ event message (List.mem_singleton.mp now).symm

section NothingDropped

variable (size : Nat → Nat) (events : List Event)

theorem finished_snoc (front : List Event) (event : Event) (message : Nat) :
    finished size (front ++ [event]) message ↔
      finished size front message ∨ (step size (final (step size) init front) event).2 =
        some message := by
  unfold finished
  rw [outputs_snoc, List.mem_append, List.mem_singleton, eq_comm (a := some message)]

/-- Of every message a collector that drops nothing holds all that arrived, or it
holds nothing and the message is behind the watermark. -/
structure Keeps (front : List Event) (state : State) : Prop where
  each : ∀ message,
    (state.held message = arrived front message ∧
      (arrived front message).card < size message ∧ ¬ finished size front message) ∨
    (state.held message = ∅ ∧ state.passed message = true)
  newest : ∀ message, state.newest = some message → finished size front message
  whole : ∀ message, finished size front message →
    ∃ earlier, earlier <+: front ∧ (arrived earlier message).card = size message

theorem keeps_unanswered (front : List Event) (event : Event)
    (now : Keeps size front (final (step size) init front))
    (silent : (step size (final (step size) init front) event).2 = none)
    (newest : (step size (final (step size) init front) event).1.newest =
      (final (step size) init front).newest)
    (each : ∀ wanted,
      ((step size (final (step size) init front) event).1.held wanted =
          arrived (front ++ [event]) wanted ∧
        (arrived (front ++ [event]) wanted).card < size wanted ∧ ¬ finished size front wanted) ∨
      ((step size (final (step size) init front) event).1.held wanted = ∅ ∧
        (final (step size) init front).passed wanted = true)) :
    Keeps size (front ++ [event]) (step size (final (step size) init front) event).1 := by
  have same (wanted : Nat) :
      finished size (front ++ [event]) wanted ↔ finished size front wanted := by
    simp [finished_snoc, silent]
  refine ⟨fun wanted => ?_, fun wanted known => ?_, fun wanted done => ?_⟩
  · rcases each wanted with ⟨all, few, unfinished⟩ | ⟨nothing, behind⟩
    · exact Or.inl ⟨all, few, fun done => unfinished ((same wanted).mp done)⟩
    · refine Or.inr ⟨nothing, ?_⟩
      rwa [State.passed, newest]
  · rw [newest] at known
    exact (same wanted).mpr (now.newest wanted known)
  · obtain ⟨earlier, within, full⟩ := now.whole wanted ((same wanted).mp done)
    exact ⟨earlier, within.trans (List.prefix_append _ _), full⟩

theorem keeps_completed (front : List Event) (message index : Nat)
    (now : Keeps size front (final (step size) init front))
    (fresh : ¬((final (step size) init front).held message = ∅ ∧
      (final (step size) init front).passed message = true))
    (complete : (insert index ((final (step size) init front).held message)).card = size message)
    (next : step size (final (step size) init front) (.piece message index) =
      ((final (step size) init front).finish message, some message)) :
    Keeps size (front ++ [.piece message index])
      ((final (step size) init front).finish message) := by
  have done (wanted : Nat) : finished size (front ++ [.piece message index]) wanted ↔
      finished size front wanted ∨ message = wanted := by
    simp [finished_snoc, next]
  refine ⟨fun wanted => ?_, fun wanted new => ?_, fun wanted finish => ?_⟩
  · by_cases other : message = wanted
    · subst other
      exact Or.inr ⟨by simp [State.finish], finish_passed _ message⟩
    · rw [arrived_snoc_piece, if_neg other, done]
      rcases now.each wanted with ⟨all, few, unfinished⟩ | ⟨nothing, behind⟩
      · exact Or.inl ⟨by simp [State.finish, Ne.symm other, all], few,
          by simp [unfinished, other]⟩
      · exact Or.inr ⟨by simp [State.finish, Ne.symm other, nothing],
          finish_passed_mono _ message wanted behind⟩
  · rcases finish_newest _ message wanted new with same | old
    · exact (done wanted).mpr (Or.inr same.symm)
    · exact (done wanted).mpr (Or.inl (now.newest wanted old))
  · rcases (done wanted).mp finish with before | same
    · obtain ⟨earlier, within, full⟩ := now.whole wanted before
      exact ⟨earlier, within.trans (List.prefix_append _ _), full⟩
    · subst same
      rcases now.each message with ⟨all, _, _⟩ | behind
      · refine ⟨front ++ [.piece message index], List.prefix_rfl, ?_⟩
        rw [arrived_snoc_piece, if_pos rfl, ← all, complete]
      · exact absurd behind fresh

theorem keeps_piece (front : List Event) (message index : Nat)
    (now : Keeps size front (final (step size) init front)) :
    Keeps size (front ++ [.piece message index])
      (step size (final (step size) init front) (.piece message index)).1 := by
  have others (wanted : Nat) (other : message ≠ wanted) :
      arrived (front ++ [.piece message index]) wanted = arrived front wanted := by
    rw [arrived_snoc_piece, if_neg other]
  obtain ⟨nothing, behind, next⟩ | ⟨fresh, complete, next⟩ | ⟨fresh, partly, next⟩ :=
    piece_cases size (final (step size) init front) message index
  · apply keeps_unanswered size front _ now (by rw [next]) (by rw [next])
    intro wanted
    rw [next]
    by_cases other : message = wanted
    · subst other
      exact Or.inr ⟨nothing, behind⟩
    · rw [others wanted other]
      exact now.each wanted
  · rw [next]
    exact keeps_completed size front message index now fresh complete next
  · apply keeps_unanswered size front _ now (by rw [next]) (by rw [next]; rfl)
    intro wanted
    rw [next]
    by_cases other : message = wanted
    · subst other
      rcases now.each message with ⟨all, few, unfinished⟩ | behind
      · have more : arrived (front ++ [.piece message index]) message =
            insert index (arrived front message) := by
          rw [arrived_snoc_piece, if_pos rfl]
        have room := Finset.card_insert_le index (arrived front message)
        rw [all] at partly
        refine Or.inl ⟨by simp [State.keep, all, more], ?_, unfinished⟩
        rw [more]
        omega
      · exact absurd behind fresh
    · rw [others wanted other]
      rcases now.each wanted with ⟨all, few, unfinished⟩ | ⟨nothing, behind⟩
      · exact Or.inl ⟨by simp [State.keep, Ne.symm other, all], few, unfinished⟩
      · exact Or.inr ⟨by simp [State.keep, Ne.symm other, nothing], behind⟩

theorem keeps_idle (front : List Event) (dropped : Nat → Bool)
    (none : ∀ message, dropped message = false)
    (now : Keeps size front (final (step size) init front)) :
    Keeps size (front ++ [.discard dropped])
      (step size (final (step size) init front) (.discard dropped)).1 := by
  apply keeps_unanswered size front _ now rfl rfl
  intro wanted
  rw [arrived_snoc_discard]
  simpa [step, State.discard, none] using now.each wanted

variable (positive : ∀ message, 0 < size message)
  (idle : ∀ dropped, Event.discard dropped ∈ events → ∀ message, dropped message = false)
include positive idle

theorem keeps_prefix (front back : List Event) (split : events = front ++ back) :
    Keeps size front (final (step size) init front) := by
  apply prefix_induction (step size) init events (Keeps size) _ _ front back split
  · refine ⟨fun message => Or.inl ⟨rfl, ?_, ?_⟩, ?_, ?_⟩
    · simpa [arrived] using positive message
    · simp [finished]
    · simp [init]
    · simp [finished]
  · intro earlier event later inside now
    cases event with
    | piece message index => exact keeps_piece size earlier message index now
    | discard dropped =>
        exact keeps_idle size earlier dropped (idle dropped (by simp [inside])) now

/-- No message is complete before the first piece of an older one. -/
def Overlapping : Prop :=
  ∀ older newer, older < newer → ∀ front, front <+: events →
    (arrived front newer).card = size newer → (arrived front older).Nonempty

omit positive idle in
theorem arrived_mono (front back : List Event) (message : Nat) :
    arrived front message ⊆ arrived (front ++ back) message := by
  intro index member
  rw [mem_arrived] at member ⊢
  exact List.mem_append_left _ member

theorem begun_of_overlapping (overlapping : Overlapping size events) (message : Nat) :
    (arrived events message).Nonempty →
      (final (step size) init events).held message = arrived events message ∨
        finished size events message := by
  apply final_induction (step size) init events (fun front state =>
    (arrived front message).Nonempty →
      state.held message = arrived front message ∨ finished size front message)
  · intro begun
    simp [arrived] at begun
  · intro front event back split now begun
    have keeps := keeps_prefix size events positive idle front (event :: back) split
    rw [finished_snoc]
    cases event with
    | discard dropped =>
        have none := idle dropped (by simp [split]) message
        rw [arrived_snoc_discard] at begun ⊢
        rcases now begun with all | done
        · exact Or.inl (by simp [step, State.discard, none, all])
        · exact Or.inr (Or.inl done)
    | piece other index =>
        obtain ⟨nothing, behind, next⟩ | ⟨_, _, next⟩ | ⟨fresh, _, next⟩ :=
          piece_cases size (final (step size) init front) other index
        · rw [next]
          by_cases same : other = message
          · subst same
            obtain ⟨newest, known, reached⟩ := (passed_iff _ other).mp behind
            by_cases before : (arrived front other).Nonempty
            · rcases now before with all | done
              · rw [nothing] at all
                simp [← all] at before
              · exact Or.inr (Or.inl done)
            · obtain ⟨earlier, within, full⟩ := keeps.whole newest (keeps.newest newest known)
              have inside : earlier <+: events := by
                rw [split]
                exact within.trans (List.prefix_append _ _)
              obtain ⟨rest, rfl⟩ := within
              have older : other < newest := by
                rcases Nat.lt_or_eq_of_le reached with less | same
                · exact less
                · subst same
                  have some := (Finset.card_pos.mp (full ▸ positive other))
                  exact absurd (some.mono (arrived_mono earlier rest other)) before
              have piece := overlapping other newest older earlier inside full
              exact absurd (piece.mono (arrived_mono earlier rest other)) before
          · rw [arrived_snoc_piece, if_neg same] at begun ⊢
            exact (now begun).imp id Or.inl
        · rw [next]
          by_cases same : other = message
          · exact Or.inr (Or.inr (by rw [same]))
          · rw [arrived_snoc_piece, if_neg same] at begun ⊢
            exact (now begun).imp (by simp [State.finish, Ne.symm same]) Or.inl
        · rw [next]
          by_cases same : other = message
          · subst same
            rcases keeps.each other with ⟨all, _, _⟩ | old
            · left
              rw [arrived_snoc_piece, if_pos rfl]
              simp [State.keep, all]
            · exact absurd old fresh
          · rw [arrived_snoc_piece, if_neg same] at begun ⊢
            exact (now begun).imp (by simp [State.keep, Ne.symm same]) Or.inl

theorem finished_all_iff (count : Nat)
    (known : ∀ message index, Event.piece message index ∈ events → message < count)
    (all : ∀ message < count, (arrived events message).card = size message) :
    (∀ message < count, finished size events message) ↔ Overlapping size events := by
  constructor
  · intro done older newer less front within full
    obtain ⟨back, split⟩ := within
    have begun : (arrived front newer).Nonempty := Finset.card_pos.mp (full ▸ positive newer)
    have bound : newer < count := by
      obtain ⟨index, member⟩ := begun
      rw [mem_arrived] at member
      exact known newer index (by simp [← split, member])
    by_contra unseen
    have empty := Finset.not_nonempty_iff_eq_empty.mp unseen
    have keeps := keeps_prefix size events positive idle front back split.symm
    have passed : (final (step size) init front).passed newer = true := by
      rcases keeps.each newer with ⟨_, few, _⟩ | ⟨_, behind⟩
      · omega
      · exact behind
    have behind : (final (step size) init front).passed older = true := by
      obtain ⟨newest, known, reached⟩ := (passed_iff _ newer).mp passed
      exact (passed_iff _ older).mpr ⟨newest, known, by omega⟩
    have nothing : (final (step size) init front).held older = ∅ := by
      rcases keeps.each older with ⟨held, _, _⟩ | ⟨held, _⟩
      · rw [held, empty]
      · exact held
    have before : ¬ finished size front older := by
      intro old
      obtain ⟨earlier, within, whole⟩ := keeps.whole older old
      obtain ⟨rest, rfl⟩ := within
      have some := Finset.card_pos.mp (whole ▸ positive older)
      exact unseen (some.mono (arrived_mono earlier rest older))
    have finish := done older (by omega)
    unfold finished at finish before
    rw [← split, outputs_append, List.mem_append] at finish
    exact finish.elim before (behind_forever size _ back older nothing behind)
  · intro overlapping message bound
    have full := all message bound
    have begun : (arrived events message).Nonempty := Finset.card_pos.mp (full ▸ positive message)
    have keeps := keeps_prefix size events positive idle events [] (by simp)
    rcases begun_of_overlapping size events positive idle overlapping message begun with held | done
    · rcases keeps.each message with ⟨_, few, _⟩ | ⟨nothing, _⟩
      · omega
      · rw [held] at nothing
        simp [nothing] at begun
    · exact done

end NothingDropped

end Castr.Lib.Gather
