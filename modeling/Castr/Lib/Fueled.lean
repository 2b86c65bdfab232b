import Mathlib.Order.Filter.AtTopBot.Basic
import Castr.Lib.Calls

/-! Calls that are given fuel. A call ends when every amount of fuel from some on leads to the same
end, and that is not the want of fuel. -/

namespace Castr.Lib.Calls

open Filter

variable {ε σ α β : Type}

/-- From these states the call ends, and with a value only like this. -/
def Ends (before : σ → Prop) (call : Nat → Call ε σ α) (done : α → σ → Prop) : Prop :=
  ∀ s, before s → ∃ result, (∀ᶠ fuel in atTop, call fuel s = result) ∧ match result with
    | .ok value next => done value next
    | .error halt _ => halt ≠ .unfinished

variable {before : σ → Prop} {call : Nat → Call ε σ α} {done : α → σ → Prop}

theorem ends_of_meets {call : Call ε σ α}
    (meets : Meets before call done (fun halt _ => halt ≠ .unfinished)) :
    Ends before (fun _ => call) done :=
  fun s holds => ⟨call s, .of_forall (fun _ => rfl), meets s holds⟩

theorem ends_pure (value : α) (holds : ∀ s, before s → done value s) :
    Ends before (fun _ => (pure value : Call ε σ α)) done :=
  ends_of_meets (meets_pure value holds)

theorem ends_fail (error : ε) : Ends before (fun _ => (fail error : Call ε σ α)) done :=
  ends_of_meets (meets_fail error (fun _ _ => nofun))

theorem ends_bind (between : β → σ → Prop) {first : Nat → Call ε σ β} {next : Nat → β → Call ε σ α}
    (start : Ends before first between)
    (rest : ∀ value, Ends (between value) (fun fuel => next fuel value) done) :
    Ends before (fun fuel => first fuel >>= next fuel) done := by
  intro s holds
  obtain ⟨result, early, how⟩ := start s holds
  cases result with
  | ok value middle =>
      obtain ⟨last, late, how⟩ := rest value middle how
      refine ⟨last, ?_, how⟩
      filter_upwards [early, late] with fuel ran went
      change EStateM.bind (first fuel) (next fuel) s = last
      rw [EStateM.bind, ran]
      exact went
  | error halt middle =>
      refine ⟨.error halt middle, ?_, how⟩
      filter_upwards [early] with fuel ran
      change EStateM.bind (first fuel) (next fuel) s = _
      rw [EStateM.bind, ran]

theorem ends_congr {other : Nat → Call ε σ α} (same : ∀ᶠ fuel in atTop, call fuel = other fuel)
    (ends : Ends before other done) : Ends before call done := by
  intro s holds
  obtain ⟨result, ran, how⟩ := ends s holds
  refine ⟨result, ?_, how⟩
  filter_upwards [same, ran] with fuel same ran
  rw [same, ran]

theorem ends_round (loop : Nat → Nat → Call ε σ α) {rounds : Nat → Nat}
    (grow : Tendsto rounds atTop atTop)
    (ends : Ends before (fun fuel => loop fuel (rounds fuel - 1 + 1)) done) :
    Ends before (fun fuel => loop fuel (rounds fuel)) done := by
  refine ends_congr ?_ ends
  filter_upwards [grow.eventually_ge_atTop 1] with fuel some
  rw [Nat.sub_add_cancel some]

theorem tendsto_pred {rounds : Nat → Nat} (grow : Tendsto rounds atTop atTop) :
    Tendsto (fun fuel => rounds fuel - 1) atTop atTop := by
  refine tendsto_atTop.mpr (fun bound => ?_)
  filter_upwards [grow.eventually_ge_atTop (bound + 1)] with fuel large
  omega

theorem ends_mono {before' : σ → Prop} {done' : α → σ → Prop} (ends : Ends before call done)
    (weaker : ∀ s, before' s → before s) (value : ∀ a s, done a s → done' a s) :
    Ends before' call done' := by
  intro s holds
  obtain ⟨result, ran, how⟩ := ends s (weaker s holds)
  refine ⟨result, ran, ?_⟩
  cases result with
  | ok a next => exact value a next how
  | error halt next => exact how

theorem ends_each (each : ∀ s, before s → Ends (fun t => t = s) call done) :
    Ends before call done :=
  fun s holds => each s holds s rfl

theorem ends_get_bind {next : Nat → σ → Call ε σ α}
    (rest : ∀ s, before s → Ends (fun t => t = s) (fun fuel => next fuel s) done) :
    Ends before (fun fuel => get >>= next fuel) done :=
  fun s holds => rest s holds s rfl

theorem ends_modify_bind (after : σ → Prop) {change : σ → σ} {next : Nat → Unit → Call ε σ α}
    (holds : ∀ s, before s → after (change s))
    (rest : Ends after (fun fuel => next fuel ()) done) :
    Ends before (fun fuel => modify change >>= next fuel) done :=
  fun s early => rest (change s) (holds s early)

theorem ends_ite {c : Prop} [Decidable c] {yes no : Nat → Call ε σ α}
    (holds : c → Ends before yes done) (fails : ¬ c → Ends before no done) :
    Ends before (fun fuel => if c then yes fuel else no fuel) done := by
  by_cases chosen : c
  · simpa only [if_pos chosen] using holds chosen
  · simpa only [if_neg chosen] using fails chosen

theorem Ends.enough (ends : Ends before call done) {s : σ} (holds : before s) :
    ∃ enough, ∀ fuel, enough ≤ fuel → ∀ next, call fuel s ≠ .error .unfinished next := by
  obtain ⟨result, ran, how⟩ := ends s holds
  obtain ⟨enough, ran⟩ := eventually_atTop.mp ran
  refine ⟨enough, fun fuel large next short => ?_⟩
  rw [ran fuel large] at short
  subst short
  exact how rfl

end Castr.Lib.Calls
