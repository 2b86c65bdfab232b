import Castr.Lib.Halting

/-! Timers that say since when something has shown without a break. A timer starts with an event
that shows it and is cleared by one that does not; but only while the machine is active, so that one
may be left running over a change that it does not see. -/

namespace Castr.Lib.Timer

open Castr.Lib.Halting

variable {State Event Out Time : Type*} (step : State → Event → Option (State × Out))
  (time : Event → Option Time) (timer : State → Option Time) (Active : State → Prop)
  (Changes Shows : State → Event → Prop)

def Since (Holds : State → Event → Prop) (Early : Time → Prop) (start : State)
    (run : List Event) : Prop :=
  ∃ early event late t, run = early ++ event :: late ∧ time event = some t ∧ Early t ∧
    Through step Holds start early (event :: late)

def Steady (state : State) (event : Event) : Prop := ¬ Changes state event ∧ Shows state event

/-- A timer that runs has started with an event from which on all show it, or all do that came after
the last change. -/
def Timed (start : State) (run : List Event) (state : State) : Prop :=
  Active state → ∀ t, timer state = some t →
    Since step time (Steady Changes Shows) (fun u => u = t) start run ∨
    ∀ early late, run = early ++ late →
      Through step (fun state event => ¬ Changes state event) start early late →
      Through step Shows start early late

def Timing : Prop :=
  ∀ state event next out, step state event = some (next, out) → Active next →
    timer next = none ∨ Changes state event ∨
    (Steady Changes Shows state event ∧
      ((Active state ∧ timer next = timer state) ∨ timer next = time event))

variable {step time timer Active Changes Shows} {start : State} {run : List Event} {event : Event}
  {Holds : State → Event → Prop} {Early : Time → Prop} {state : State}

theorem Since.snoc (since : Since step time Holds Early start run)
    (last : ∀ state, final step start run = some state → Holds state event) :
    Since step time Holds Early start (run ++ [event]) := by
  obtain ⟨early, first, late, t, rfl, read, before, through⟩ := since
  refine ⟨early, first, late ++ [event], t, by simp, read, before, ?_⟩
  rw [← List.cons_append, through_snoc]
  exact ⟨through, last⟩

theorem since_last {t : Time} (read : time event = some t) (before : Early t)
    (last : ∀ state, final step start run = some state → Holds state event) :
    Since step time Holds Early start (run ++ [event]) :=
  ⟨run, event, [], t, rfl, read, before, (through_snoc [] event).mpr
    ⟨through_nil, by simpa using last⟩⟩

theorem timed_step {next : State} {out : Out}
    (timing : Timing step time timer Active Changes Shows)
    (reached : final step start run = some state) (taken : step state event = some (next, out))
    (now : Timed step time timer Active Changes Shows start run state) :
    Timed step time timer Active Changes Shows start (run ++ [event]) next := by
  intro active t running
  have here : ∀ {Holds : State → Event → Prop}, Holds state event →
      ∀ other, final step start run = some other → Holds other event := by
    intro Holds holds other there
    exact Option.some.inj (reached.symm.trans there) ▸ holds
  rcases timing state event next out taken active with
    stopped | changed | ⟨steady, ⟨before, kept⟩ | started⟩
  · rw [stopped] at running
    cases running
  · -- nothing has come after a change that is the last event
    refine Or.inr (fun early late split calm => ?_)
    rcases List.eq_nil_or_concat late with rfl | ⟨earlier, last, rfl⟩
    · exact through_nil
    · rw [List.concat_eq_append] at split calm ⊢
      rw [← List.append_assoc] at split
      obtain ⟨rfl, same⟩ := List.append_inj' split rfl
      obtain ⟨rfl, _⟩ := List.cons.inj same
      exact absurd changed (((through_snoc _ event).mp calm).2 state reached)
  · rcases now before t (kept ▸ running) with fresh | stale
    · exact Or.inl (fresh.snoc (here steady))
    · refine Or.inr (fun early late split calm => ?_)
      rcases List.eq_nil_or_concat late with rfl | ⟨earlier, last, rfl⟩
      · exact through_nil
      · rw [List.concat_eq_append] at split calm ⊢
        rw [← List.append_assoc] at split
        obtain ⟨rfl, same⟩ := List.append_inj' split rfl
        obtain ⟨rfl, _⟩ := List.cons.inj same
        have shown := stale early earlier rfl ((through_snoc _ event).mp calm).1
        exact (through_snoc _ event).mpr ⟨shown, here steady.2⟩
  · exact Or.inl (since_last (started ▸ running) rfl (here steady))

theorem timed_run (timing : Timing step time timer Active Changes Shows)
    (unset : timer start = none)
    (ended : final step start run = some state) :
    Timed step time timer Active Changes Shows start run state := by
  refine final_induction step (Timed step time timer Active Changes Shows start) ?_ ?_ run ended
  · intro _ t running
    rw [unset] at running
    cases running
  · intro front event middle next out reached taken now
    exact timed_step timing reached taken now

theorem Timed.since {t : Time} (timed : Timed step time timer Active Changes Shows start run state)
    (active : Active state) (running : timer state = some t) (enough : Early t)
    (calm : Since step time (fun state event => ¬ Changes state event) Early start run) :
    Since step time (Steady Changes Shows) Early start run := by
  rcases timed active t running with ⟨early, event, late, _, split, read, rfl, through⟩ | stale
  · exact ⟨early, event, late, _, split, read, enough, through⟩
  · obtain ⟨early, event, late, u, split, read, before, through⟩ := calm
    exact ⟨early, event, late, u, split, read, before,
      through.and (stale early (event :: late) split through)⟩

end Castr.Lib.Timer
