import Castr.Lib.Since
import Mathlib.Data.List.Induction

/-! Runs of a machine whose steps may fail. What is said of every run is said of the steps that did
not, and of the places they led to. -/

namespace Castr.Lib.Halting

variable {State Event Out : Type*}

def final (step : State → Event → Option (State × Out)) (state : State) :
    List Event → Option State
  | [] => some state
  | event :: events => (step state event).bind (fun next => final step next.1 events)

variable (step : State → Event → Option (State × Out)) {start : State}

@[simp] theorem final_nil : final step start [] = some start := rfl

@[simp] theorem final_cons (event : Event) (events : List Event) :
    final step start (event :: events) =
      (step start event).bind (fun next => final step next.1 events) := rfl

theorem final_append (front back : List Event) :
    final step start (front ++ back) =
      (final step start front).bind (fun middle => final step middle back) := by
  induction front generalizing start with
  | nil => rfl
  | cons event front ih =>
      rw [List.cons_append, final_cons, final_cons, Option.bind_assoc]
      exact Option.bind_congr (fun next _ => ih)

theorem final_snoc (front : List Event) (event : Event) :
    final step start (front ++ [event]) =
      (final step start front).bind (fun middle => (step middle event).map Prod.fst) := by
  rw [final_append]
  refine Option.bind_congr (fun middle _ => ?_)
  rw [final_cons, Option.map_eq_bind]
  rfl

theorem final_snoc_eq {front : List Event} {event : Event} {last : State}
    (ended : final step start (front ++ [event]) = some last) :
    ∃ middle out, final step start front = some middle ∧ step middle event = some (last, out) := by
  rw [final_snoc, Option.bind_eq_some_iff] at ended
  obtain ⟨middle, reached, ended⟩ := ended
  obtain ⟨⟨next, out⟩, taken, rfl⟩ := Option.map_eq_some_iff.mp ended
  exact ⟨middle, out, reached, taken⟩

theorem final_induction (Holds : List Event → State → Prop) (initial : Holds [] start)
    (preserved : ∀ front event middle next out, final step start front = some middle →
      step middle event = some (next, out) → Holds front middle → Holds (front ++ [event]) next)
    (events : List Event) {last : State} (ended : final step start events = some last) :
    Holds events last := by
  induction events using List.reverseRecOn generalizing last with
  | nil => exact Option.some.inj ended ▸ initial
  | append_singleton front event ih =>
      obtain ⟨middle, out, reached, taken⟩ := final_snoc_eq step ended
      exact preserved front event middle last out reached taken (ih reached)

theorem final_invariant (Inv : State → Prop) (initial : Inv start)
    (preserved : ∀ state event next out, step state event = some (next, out) → Inv state → Inv next)
    {events : List Event} {last : State} (ended : final step start events = some last) :
    Inv last :=
  final_induction step (fun _ => Inv) initial
    (fun _ event middle next out _ taken now => preserved middle event next out taken now)
    events ended

theorem final_isSome_iff (start : State) (events : List Event) :
    (final step start events).isSome ↔ ∀ front event back, events = front ++ event :: back →
      ∀ middle, final step start front = some middle → (step middle event).isSome := by
  induction events using List.reverseRecOn with
  | nil => simp
  | append_singleton front event ih =>
      constructor
      · intro ended before next back split middle reached
        rw [split, final_append, reached, Option.bind_some, final_cons] at ended
        cases taken : step middle next with
        | none => simp [taken] at ended
        | some _ => rfl
      · intro taken
        have earlier := ih.mpr (fun before next back split =>
          taken before next (back ++ [event]) (by simp [split]))
        obtain ⟨middle, reached⟩ := Option.isSome_iff_exists.mp earlier
        rw [final_snoc, reached, Option.bind_some, Option.isSome_map]
        exact taken front event [] rfl middle reached

/-- It holds at every event of `late`, each where it is taken after `early`. -/
def Through (Holds : State → Event → Prop) (start : State) (early late : List Event) : Prop :=
  ∀ before event after, late = before ++ event :: after →
    ∀ state, final step start (early ++ before) = some state → Holds state event

variable {step} {Holds Other : State → Event → Prop} {early late : List Event}

theorem through_nil : Through step Holds start early [] := by
  intro before event after split
  simp at split

theorem through_snoc (late : List Event) (event : Event) :
    Through step Holds start early (late ++ [event]) ↔ Through step Holds start early late ∧
      ∀ state, final step start (early ++ late) = some state → Holds state event := by
  constructor
  · intro through
    refine ⟨?_, through late event [] rfl⟩
    intro before next after split
    exact through before next (after ++ [event]) (by simp [split])
  · rintro ⟨through, last⟩ before next after split
    rcases Since.split_snoc split with ⟨rfl, rfl, rfl⟩ | ⟨rest, rfl, inside⟩
    · exact last
    · exact through before next rest inside

theorem Through.imp (through : Through step Holds start early late)
    (implies : ∀ state event, Holds state event → Other state event) :
    Through step Other start early late :=
  fun before event after split state reached =>
    implies state event (through before event after split state reached)

theorem Through.and (first : Through step Holds start early late)
    (second : Through step Other start early late) :
    Through step (fun state event => Holds state event ∧ Other state event) start early late :=
  fun before event after split state reached =>
    ⟨first before event after split state reached, second before event after split state reached⟩

end Castr.Lib.Halting
