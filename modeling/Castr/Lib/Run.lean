import Mathlib.Data.List.Basic

/-! Runs of a deterministic machine that answers every event it is given.

A run is the list of its events, so a property of every run is a property of
every list. The induction rules below hand the step both the events already
taken and those still to come, because hypotheses about a run usually speak of
its prefixes. -/

namespace Castr.Lib.Run

variable {State Event Out : Type*}

def final (step : State → Event → State × Out) (state : State) : List Event → State
  | [] => state
  | event :: events => final step (step state event).1 events

def outputs (step : State → Event → State × Out) (state : State) : List Event → List Out
  | [] => []
  | event :: events => (step state event).2 :: outputs step (step state event).1 events

variable (step : State → Event → State × Out) (start : State)

@[simp] theorem final_nil : final step start [] = start := rfl

@[simp] theorem final_cons (event : Event) (events : List Event) :
    final step start (event :: events) = final step (step start event).1 events := rfl

@[simp] theorem outputs_nil : outputs step start [] = [] := rfl

@[simp] theorem outputs_cons (event : Event) (events : List Event) :
    outputs step start (event :: events) =
      (step start event).2 :: outputs step (step start event).1 events := rfl

theorem final_append (front back : List Event) :
    final step start (front ++ back) = final step (final step start front) back := by
  induction front generalizing start with
  | nil => rfl
  | cons event tail ih => exact ih (step start event).1

theorem outputs_append (front back : List Event) :
    outputs step start (front ++ back) =
      outputs step start front ++ outputs step (final step start front) back := by
  induction front generalizing start with
  | nil => rfl
  | cons event tail ih =>
      simp only [List.cons_append, outputs_cons, final_cons, ih]

theorem final_snoc (front : List Event) (event : Event) :
    final step start (front ++ [event]) = (step (final step start front) event).1 := by
  rw [final_append]
  rfl

theorem outputs_snoc (front : List Event) (event : Event) :
    outputs step start (front ++ [event]) =
      outputs step start front ++ [(step (final step start front) event).2] := by
  rw [outputs_append]
  rfl

theorem outputs_split (events : List Event) (front back : List Out) (out : Out)
    (split : outputs step start events = front ++ out :: back) :
    ∃ before event after, events = before ++ event :: after ∧
      outputs step start before = front ∧ (step (final step start before) event).2 = out := by
  induction events generalizing start front with
  | nil => simp at split
  | cons event tail ih =>
      rw [outputs_cons] at split
      cases front with
      | nil =>
          obtain ⟨rfl, _⟩ := List.cons.inj split
          exact ⟨[], event, tail, rfl, rfl, rfl⟩
      | cons first rest =>
          obtain ⟨rfl, later⟩ := List.cons.inj split
          obtain ⟨before, next, after, rfl, same, answer⟩ := ih _ rest later
          exact ⟨event :: before, next, after, rfl, by rw [outputs_cons, same], answer⟩

private theorem final_induction_from (events : List Event)
    (Holds : List Event → State → Prop)
    (preserved : ∀ front event back, events = front ++ event :: back →
      Holds front (final step start front) →
      Holds (front ++ [event]) (step (final step start front) event).1)
    (back front : List Event) (split : events = front ++ back)
    (now : Holds front (final step start front)) : Holds events (final step start events) := by
  induction back generalizing front with
  | nil =>
      rw [split, List.append_nil]
      exact now
  | cons event tail ih =>
      have next := preserved front event tail split now
      rw [← final_snoc] at next
      exact ih (front ++ [event]) (by simpa using split) next

theorem final_induction (events : List Event) (Holds : List Event → State → Prop)
    (initial : Holds [] start)
    (preserved : ∀ front event back, events = front ++ event :: back →
      Holds front (final step start front) →
      Holds (front ++ [event]) (step (final step start front) event).1) :
    Holds events (final step start events) :=
  final_induction_from step start events Holds preserved events [] rfl initial

theorem prefix_induction (events : List Event) (Holds : List Event → State → Prop)
    (initial : Holds [] start)
    (preserved : ∀ front event back, events = front ++ event :: back →
      Holds front (final step start front) →
      Holds (front ++ [event]) (step (final step start front) event).1)
    (front back : List Event) (split : events = front ++ back) :
    Holds front (final step start front) := by
  apply final_induction step start front Holds initial
  intro earlier event later inside
  exact preserved earlier event (later ++ back) (by simp [split, inside])

theorem final_invariant (events : List Event) (Inv : State → Prop) (initial : Inv start)
    (preserved : ∀ state, ∀ event ∈ events, Inv state → Inv (step state event).1) :
    Inv (final step start events) := by
  apply final_induction step start events (fun _ state => Inv state) initial
  intro front event back split now
  exact preserved _ event (by simp [split]) now

theorem final_along (events : List Event) (Kept : State → State → Prop)
    (same : ∀ state, Kept state state)
    (chain : ∀ first second third, Kept first second → Kept second third → Kept first third)
    (each : ∀ front event back, events = front ++ event :: back →
      Kept (final step start front) (step (final step start front) event).1)
    (front middle back : List Event) (split : events = front ++ middle ++ back) :
    Kept (final step start front) (final step start (front ++ middle)) := by
  rw [final_append]
  apply final_induction step (final step start front) middle
    (fun _ state => Kept (final step start front) state) (same _)
  intro before event after inside now
  have next := each (front ++ before) event (after ++ back) (by simp [split, inside])
  rw [final_append] at next
  exact chain _ _ _ now next

/-- Some step of the run is taken where `happens` says so. -/
def ever (happens : State → Event → Bool) (state : State) : List Event → Bool
  | [] => false
  | event :: events => happens state event || ever happens (step state event).1 events

theorem ever_append (happens : State → Event → Bool) (front back : List Event) :
    ever step happens start (front ++ back) =
      (ever step happens start front || ever step happens (final step start front) back) := by
  induction front generalizing start with
  | nil => rfl
  | cons event tail ih => simp only [List.cons_append, ever, final_cons, ih, Bool.or_assoc]

theorem ever_snoc (happens : State → Event → Bool) (front : List Event) (event : Event) :
    ever step happens start (front ++ [event]) =
      (ever step happens start front || happens (final step start front) event) := by
  simp [ever_append, ever]

theorem never_at (happens : State → Event → Bool) (events front back : List Event) (event : Event)
    (split : events = front ++ event :: back) (never : ever step happens start events = false) :
    happens (final step start front) event = false := by
  rw [split, ever_append, Bool.or_eq_false_iff] at never
  exact (Bool.or_eq_false_iff.mp never.2).1

def tally (amount : State → Event → Nat) (state : State) : List Event → Nat
  | [] => 0
  | event :: events => amount state event + tally amount (step state event).1 events

theorem tally_append (amount : State → Event → Nat) (front back : List Event) :
    tally step amount start (front ++ back) =
      tally step amount start front + tally step amount (final step start front) back := by
  induction front generalizing start with
  | nil => simp [tally]
  | cons event tail ih => simp only [List.cons_append, tally, final_cons, ih, Nat.add_assoc]

theorem tally_snoc (amount : State → Event → Nat) (front : List Event) (event : Event) :
    tally step amount start (front ++ [event]) =
      tally step amount start front + amount (final step start front) event := by
  simp [tally_append, tally]

theorem tally_congr (amount other : State → Event → Nat) (events : List Event)
    (same : ∀ front event back, events = front ++ event :: back →
      amount (final step start front) event = other (final step start front) event) :
    tally step amount start events = tally step other start events := by
  induction events generalizing start with
  | nil => rfl
  | cons event tail ih =>
      have here := same [] event tail rfl
      have later := ih (step start event).1 (fun front next back split =>
        same (event :: front) next back (by rw [split, List.cons_append]))
      rw [tally, tally, later]
      exact congrArg (· + _) here

theorem final_filter (keep : Event → Bool) (Beside : State → State → Prop) (other : State)
    (events : List Event) (initial : Beside start other)
    (together : ∀ left right, ∀ event ∈ events, keep event = true → Beside left right →
      Beside (step left event).1 (step right event).1)
    (aside : ∀ left right, ∀ event ∈ events, keep event = false → Beside left right →
      Beside (step left event).1 right) :
    Beside (final step start events) (final step other (events.filter keep)) := by
  induction events generalizing start other with
  | nil => exact initial
  | cons event tail ih =>
      have later := fun left right next (inside : next ∈ tail) =>
        together left right next (List.mem_cons_of_mem event inside)
      have apart := fun left right next (inside : next ∈ tail) =>
        aside left right next (List.mem_cons_of_mem event inside)
      cases kept : keep event with
      | true =>
          rw [List.filter_cons_of_pos kept]
          exact ih _ _ (together _ _ event List.mem_cons_self kept initial) later apart
      | false =>
          rw [List.filter_cons_of_neg (by simp [kept])]
          exact ih _ _ (aside _ _ event List.mem_cons_self kept initial) later apart

end Castr.Lib.Run
