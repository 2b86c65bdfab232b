import Mathlib.Logic.Basic

/-! Calls over a state, which they leave changed when they fail.

A call is `EStateM` over the ways it can end early. `Meets` is its rule of pre- and
postconditions, with one postcondition for a value and one for an early end. -/

namespace Castr.Lib.Calls

/-- How a call ends without a value: an error it returns, or none of its own. -/
inductive Halt (ε : Type) where
  | fault (error : ε)
  | panic
  | unfinished
  deriving DecidableEq, Repr

def Halt.returned {ε : Type} : Halt ε → Bool
  | .fault _ => true
  | _ => false

abbrev Call (ε σ α : Type) := EStateM (Halt ε) σ α

variable {ε ε' σ τ α β : Type}

def fail (error : ε) : Call ε σ α := throw (.fault error)

def lift : Except ε α → Call ε σ α
  | .ok value => pure value
  | .error error => fail error

/-- The errors of a call, as its caller passes them on. -/
def mapError (change : ε → ε') (call : Call ε σ α) : Call ε' σ α := fun s =>
  match call s with
  | .ok value next => .ok value next
  | .error (.fault error) next => .error (.fault (change error)) next
  | .error .panic next => .error .panic next
  | .error .unfinished next => .error .unfinished next

def attempt (call : Call ε σ α) : Call ε' σ (Except ε α) := fun s =>
  match call s with
  | .ok value next => .ok (.ok value) next
  | .error (.fault error) next => .ok (.error error) next
  | .error .panic next => .error .panic next
  | .error .unfinished next => .error .unfinished next

def on (get : σ → τ) (set : σ → τ → σ) (call : Call ε τ α) : Call ε σ α := fun s =>
  match call (get s) with
  | .ok value next => .ok value (set s next)
  | .error halt next => .error halt (set s next)

/-- What holds of a result that is a value: one thing of a value, another of an error. -/
def Handed (done : α → σ → Prop) (refused : ε → σ → Prop) : Except ε α → σ → Prop
  | .ok value => done value
  | .error error => refused error

/-- What holds of an early end: one thing with an error, another without. -/
def Ended (refused : ε → σ → Prop) (own : σ → Prop) : Halt ε → σ → Prop
  | .fault error => refused error
  | _ => own

/-- What holds before the call, after it with a value, and after it without one. -/
def Meets (before : σ → Prop) (call : Call ε σ α) (done : α → σ → Prop)
    (failed : Halt ε → σ → Prop) : Prop :=
  ∀ s, before s → match call s with
    | .ok value next => done value next
    | .error halt next => failed halt next

section Rules

variable {before : σ → Prop} {done : α → σ → Prop} {failed : Halt ε → σ → Prop}

theorem meets_pure (value : α) (holds : ∀ s, before s → done value s) :
    Meets before (pure value : Call ε σ α) done failed := holds

theorem meets_throw (halt : Halt ε) (holds : ∀ s, before s → failed halt s) :
    Meets before (throw halt : Call ε σ α) done failed := holds

theorem meets_fail (error : ε) (holds : ∀ s, before s → failed (.fault error) s) :
    Meets before (fail error : Call ε σ α) done failed := holds

theorem meets_get {got : σ → σ → Prop} (holds : ∀ s, before s → got s s) :
    Meets before (get : Call ε σ σ) got failed := holds

theorem meets_modify {after : Unit → σ → Prop} (change : σ → σ)
    (holds : ∀ s, before s → after () (change s)) :
    Meets before (modify change : Call ε σ Unit) after failed := holds

theorem meets_true (call : Call ε σ α) : Meets before call (fun _ _ => True) (fun _ _ => True) := by
  intro s _
  cases call s <;> trivial

theorem meets_bind (between : β → σ → Prop) {first : Call ε σ β} {next : β → Call ε σ α}
    (start : Meets before first between failed)
    (rest : ∀ value, Meets (between value) (next value) done failed) :
    Meets before (first >>= next) done failed := by
  intro s holds
  have early := start s holds
  show match EStateM.bind first next s with
    | .ok value next => done value next
    | .error halt next => failed halt next
  unfold EStateM.bind
  cases ran : first s with
  | ok value middle =>
      rw [ran] at early
      exact rest value middle early
  | error halt middle =>
      rw [ran] at early
      exact early

theorem meets_get_bind {next : σ → Call ε σ α}
    (rest : ∀ s, before s → Meets (fun t => t = s) (next s) done failed) :
    Meets before (get >>= next) done failed :=
  fun s holds => rest s holds s rfl

theorem meets_get_at {next : σ → Call ε σ α} {s : σ}
    (rest : Meets (fun t => t = s) (next s) done failed) :
    Meets (fun t => t = s) (get >>= next) done failed := by
  rintro _ rfl
  exact rest _ rfl

theorem meets_modify_bind (after : σ → Prop) {change : σ → σ} {next : Unit → Call ε σ α}
    (holds : ∀ s, before s → after (change s)) (rest : Meets after (next ()) done failed) :
    Meets before (modify change >>= next) done failed :=
  fun s early => rest (change s) (holds s early)

theorem meets_ite {c : Prop} [Decidable c] {yes no : Call ε σ α}
    (holds : c → Meets before yes done failed) (fails : ¬ c → Meets before no done failed) :
    Meets before (if c then yes else no) done failed := by
  split
  · exact holds (by assumption)
  · exact fails (by assumption)

theorem meets_mono {before' : σ → Prop} {done' : α → σ → Prop} {failed' : Halt ε → σ → Prop}
    {call : Call ε σ α} (meets : Meets before call done failed) (weaker : ∀ s, before' s → before s)
    (value : ∀ a s, done a s → done' a s) (halt : ∀ e s, failed e s → failed' e s) :
    Meets before' call done' failed' := by
  intro s holds
  have early := meets s (weaker s holds)
  cases ran : call s with
  | ok a next =>
      rw [ran] at early
      exact value a next early
  | error e next =>
      rw [ran] at early
      exact halt e next early

theorem meets_and {before' : σ → Prop} {done' : α → σ → Prop} {failed' : Halt ε → σ → Prop}
    {call : Call ε σ α} (meets : Meets before call done failed)
    (also : Meets before' call done' failed') :
    Meets (fun s => before s ∧ before' s) call (fun a s => done a s ∧ done' a s)
      (fun e s => failed e s ∧ failed' e s) := by
  rintro s ⟨holds, holds'⟩
  have first := meets s holds
  have second := also s holds'
  cases ran : call s with
  | ok a next =>
      rw [ran] at first second
      exact ⟨first, second⟩
  | error e next =>
      rw [ran] at first second
      exact ⟨first, second⟩

theorem meets_each {call : Call ε σ α}
    (each : ∀ s, before s → Meets (fun t => t = s) call done failed) :
    Meets before call done failed :=
  fun s holds => each s holds s rfl

theorem meets_mapError {change : ε → ε'} {call : Call ε σ α} {failed' : Halt ε' → σ → Prop}
    (meets : Meets before call done failed)
    (error : ∀ e s, failed (.fault e) s → failed' (.fault (change e)) s)
    (panic : ∀ s, failed .panic s → failed' .panic s)
    (unfinished : ∀ s, failed .unfinished s → failed' .unfinished s) :
    Meets before (mapError change call) done failed' := by
  intro s holds
  have early := meets s holds
  unfold mapError
  cases ran : call s with
  | ok a next =>
      rw [ran] at early
      exact early
  | error halt next =>
      rw [ran] at early
      cases halt with
      | fault e => exact error e next early
      | panic => exact panic next early
      | unfinished => exact unfinished next early

theorem meets_attempt (done : α → σ → Prop) (failed : Halt ε → σ → Prop) {call : Call ε σ α}
    {done' : Except ε α → σ → Prop} {failed' : Halt ε' → σ → Prop}
    (meets : Meets before call done failed)
    (value : ∀ a s, done a s → done' (.ok a) s)
    (error : ∀ e s, failed (.fault e) s → done' (.error e) s)
    (panic : ∀ s, failed .panic s → failed' .panic s)
    (unfinished : ∀ s, failed .unfinished s → failed' .unfinished s) :
    Meets before (attempt call) done' failed' := by
  intro s holds
  have early := meets s holds
  unfold attempt
  cases ran : call s with
  | ok a next =>
      rw [ran] at early
      exact value a next early
  | error halt next =>
      rw [ran] at early
      cases halt with
      | fault e => exact error e next early
      | panic => exact panic next early
      | unfinished => exact unfinished next early

theorem meets_on {get : σ → τ} {set : σ → τ → σ} {call : Call ε τ α}
    (each : ∀ s, before s → Meets (fun t => t = get s) call (fun a t => done a (set s t))
      (fun e t => failed e (set s t))) : Meets before (on get set call) done failed := by
  intro s holds
  have early := each s holds (get s) rfl
  unfold on
  cases ran : call (get s) with
  | ok a next =>
      rw [ran] at early
      exact early
  | error halt next =>
      rw [ran] at early
      exact early

theorem meets_on_at {get : σ → τ} {set : σ → τ → σ} {call : Call ε τ α} {s : σ}
    (there : Meets (fun t => t = get s) call (fun a t => done a (set s t))
      (fun e t => failed e (set s t))) : Meets (fun t => t = s) (on get set call) done failed :=
  meets_on (by rintro _ rfl; exact there)

theorem meets_lift (result : Except ε α) (value : ∀ a s, result = .ok a → before s → done a s)
    (error : ∀ e s, result = .error e → before s → failed (.fault e) s) :
    Meets before (lift result : Call ε σ α) done failed := by
  intro s holds
  cases result with
  | ok a => exact value a s rfl holds
  | error e => exact error e s rfl holds

end Rules

/-- A property of the state that a call never loses, however it ends. -/
def Keeps (kept : σ → Prop) (call : Call ε σ α) : Prop :=
  Meets kept call (fun _ => kept) (fun _ => kept)

end Castr.Lib.Calls
