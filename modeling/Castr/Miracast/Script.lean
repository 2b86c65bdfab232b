import Mathlib.Data.List.Basic

/-! The exchange of M1 to M7 as a script: how far each end has come, and the words still on
their way to it. Keep-alives and answers that change nothing are no words of the script. -/

namespace Castr.Miracast.Script

inductive Up where
  | okM1
  | m2
  | capabilities
  | okM4
  | okM5
  | setup
  | play
  deriving DecidableEq, Repr

inductive Down where
  | m1
  | okM2
  | m3
  | m4
  | m5
  deriving DecidableEq, Repr

inductive SourceStage where
  | waiting
  | answered
  | asked
  | configuring
  | triggering
  | settled
  | prepared
  | playing
  deriving DecidableEq, Repr

inductive SinkStage where
  | init
  | capabilities
  | chosen
  | ready
  | playing
  deriving DecidableEq, Repr

structure Stage where
  source : SourceStage
  sink : SinkStage
  up : List Up
  down : List Down
  deriving DecidableEq, Repr

def sourceHears : SourceStage → Up → Option (SourceStage × List Down)
  | .waiting, .okM1 => some (.answered, [])
  | .answered, .m2 => some (.asked, [.okM2, .m3])
  | .asked, .m2 => some (.asked, [.okM2])
  | .asked, .capabilities => some (.configuring, [.m4])
  | .configuring, .okM4 => some (.triggering, [.m5])
  | .triggering, .okM5 => some (.settled, [])
  | .settled, .setup => some (.prepared, [])
  | .prepared, .play => some (.playing, [])
  | _, _ => none

def sourceWaits : SourceStage → SourceStage × List Down
  | .answered => (.asked, [.m3])
  | stage => (stage, [])

def sinkHears : SinkStage → Down → Option (SinkStage × List Up)
  | .init, .m1 => some (.init, [.okM1, .m2])
  | .init, .m3 => some (.capabilities, [.capabilities])
  | .init, .okM2 => some (.init, [])
  | .capabilities, .okM2 => some (.capabilities, [])
  | .capabilities, .m4 => some (.chosen, [.okM4])
  | .chosen, .m5 => some (.ready, [.okM5, .setup])
  | _, _ => none

def sinkAnswered : SinkStage → SinkStage × List Up
  | .ready => (.playing, [.play])
  | stage => (stage, [])

def begun : Stage := ⟨.waiting, .init, [], [.m1]⟩

def upDelivered (stage : Stage) : Option Stage :=
  match stage.up with
  | [] => some stage
  | word :: rest => (sourceHears stage.source word).map (fun next =>
      ⟨next.1, stage.sink, rest, stage.down ++ next.2⟩)

def downDelivered (stage : Stage) : Option Stage :=
  match stage.down with
  | [] => some stage
  | word :: rest => (sinkHears stage.sink word).map (fun next =>
      ⟨stage.source, next.1, stage.up ++ next.2, rest⟩)

def waited (stage : Stage) : Stage :=
  { stage with
    source := (sourceWaits stage.source).1
    down := stage.down ++ (sourceWaits stage.source).2 }

def sessionSeen (stage : Stage) : Stage :=
  { stage with
    sink := (sinkAnswered stage.sink).1
    up := stage.up ++ (sinkAnswered stage.sink).2 }

/-- Every stage of the exchange, in any order of deliveries and however long M2 takes. -/
def stages : List Stage :=
  [⟨.waiting, .init, [], [.m1]⟩, ⟨.waiting, .init, [.okM1, .m2], []⟩,
    ⟨.answered, .init, [.m2], []⟩,
    -- M3 goes out before M2 has come
    ⟨.asked, .init, [.m2], [.m3]⟩, ⟨.asked, .capabilities, [.m2, .capabilities], []⟩,
    ⟨.asked, .init, [], [.m3, .okM2]⟩,
    -- or after it
    ⟨.asked, .init, [], [.okM2, .m3]⟩, ⟨.asked, .init, [], [.m3]⟩,
    ⟨.asked, .capabilities, [.capabilities], [.okM2]⟩, ⟨.asked, .capabilities, [.capabilities], []⟩,
    ⟨.configuring, .capabilities, [], [.okM2, .m4]⟩, ⟨.configuring, .capabilities, [], [.m4]⟩,
    ⟨.configuring, .chosen, [.okM4], []⟩, ⟨.triggering, .chosen, [], [.m5]⟩,
    ⟨.triggering, .ready, [.okM5, .setup], []⟩, ⟨.settled, .ready, [.setup], []⟩,
    ⟨.prepared, .ready, [], []⟩,
    -- the sink may play before its `SETUP` is answered
    ⟨.triggering, .playing, [.okM5, .setup, .play], []⟩, ⟨.settled, .playing, [.setup, .play], []⟩,
    ⟨.prepared, .playing, [.play], []⟩, ⟨.playing, .playing, [], []⟩]

theorem begun_stage : begun ∈ stages := by decide

theorem up_stage (stage : Stage) (known : stage ∈ stages) (word : Up) (rest : List Up)
    (first : stage.up = word :: rest) : ∃ next out,
      sourceHears stage.source word = some (next, out) ∧
      ⟨next, stage.sink, rest, stage.down ++ out⟩ ∈ stages := by
  have all : ∀ stage ∈ stages, (upDelivered stage).any (fun next => next ∈ stages) = true := by
    decide
  obtain ⟨next, same, inside⟩ := (Option.any_eq_true _ _).mp (all stage known)
  rw [upDelivered, first] at same
  obtain ⟨found, heard, rfl⟩ := Option.map_eq_some_iff.mp same
  exact ⟨found.1, found.2, heard, of_decide_eq_true inside⟩

theorem down_stage (stage : Stage) (known : stage ∈ stages) (word : Down) (rest : List Down)
    (first : stage.down = word :: rest) : ∃ next out,
      sinkHears stage.sink word = some (next, out) ∧
      ⟨stage.source, next, stage.up ++ out, rest⟩ ∈ stages := by
  have all : ∀ stage ∈ stages, (downDelivered stage).any (fun next => next ∈ stages) = true := by
    decide
  obtain ⟨next, same, inside⟩ := (Option.any_eq_true _ _).mp (all stage known)
  rw [downDelivered, first] at same
  obtain ⟨found, heard, rfl⟩ := Option.map_eq_some_iff.mp same
  exact ⟨found.1, found.2, heard, of_decide_eq_true inside⟩

theorem waited_stage (stage : Stage) (known : stage ∈ stages) : waited stage ∈ stages := by
  have all : ∀ stage ∈ stages, waited stage ∈ stages := by decide
  exact all stage known

theorem sessionSeen_stage (stage : Stage) (known : stage ∈ stages) :
    sessionSeen stage ∈ stages := by
  have all : ∀ stage ∈ stages, sessionSeen stage ∈ stages := by decide
  exact all stage known

theorem playing_stage (stage : Stage) (known : stage ∈ stages) (plays : stage.source = .playing) :
    stage.sink = .playing ∧ stage.up = [] ∧ stage.down = [] := by
  have all : ∀ stage ∈ stages, stage.source = .playing →
      stage.sink = .playing ∧ stage.up = [] ∧ stage.down = [] := by decide
  exact all stage known plays

end Castr.Miracast.Script
