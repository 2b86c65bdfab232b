import Castr.Lib.Window
import Castr.Receiver.Greeting

/-! How often a PIN can be guessed.

The list of the guard is pruned and, when the lock is set, emptied. What it has dropped is
either too old to count or covered by the lock, and an attempt only starts unlocked. -/

namespace Castr.Receiver

open Castr.Lib.Window
open Castr.Proto

namespace PairingGuard

/-- The failures so far are those the guard has dropped and those it still lists. -/
structure Covers (guard : PairingGuard) (now : Nat) (failed : List Nat) : Prop where
  listed : ∃ dropped, failed = dropped ++ guard.failures ∧ ∀ time ∈ dropped,
    time + pairingWindowUs ≤ now ∨ guard.lockedUntil.any (time + pairingWindowUs ≤ ·)
  few : guard.failures.length < pairingMaxFailures
  past : ∀ time ∈ failed, time ≤ now

theorem covers_new (now : Nat) : Covers new now [] where
  listed := ⟨[], rfl, by simp⟩
  few := by decide
  past := by simp

theorem Covers.later {guard : PairingGuard} {now later : Nat} {failed : List Nat}
    (covers : Covers guard now failed) (onward : now ≤ later) : Covers guard later failed := by
  obtain ⟨dropped, parts, old⟩ := covers.listed
  refine ⟨⟨dropped, parts, ?_⟩, covers.few, ?_⟩
  · intro time member
    exact (old time member).imp_left (fun before => before.trans onward)
  · intro time member
    exact (covers.past time member).trans onward

theorem lock_past (guard : PairingGuard) (now bound : Nat) (unlocked : guard.isLocked now = false)
    (locks : guard.lockedUntil.any (bound ≤ ·) = true) : bound ≤ now := by
  unfold isLocked at unlocked
  cases lock : guard.lockedUntil with
  | none => simp [lock] at locks
  | some until_ =>
      simp only [lock, Option.any_some, decide_eq_true_eq] at locks
      simp only [lock, Option.any_some, decide_eq_false_iff_not] at unlocked
      omega

theorem isLocked_later (guard : PairingGuard) (now later : Nat) (onward : now ≤ later)
    (unlocked : guard.isLocked now = false) : guard.isLocked later = false := by
  unfold isLocked at unlocked ⊢
  cases lock : guard.lockedUntil with
  | none => rfl
  | some until_ =>
      simp only [lock, Option.any_some, decide_eq_false_iff_not] at unlocked ⊢
      omega

theorem Covers.room {guard : PairingGuard} {now : Nat} {failed : List Nat}
    (covers : Covers guard now failed) (unlocked : guard.isLocked now = false) :
    (recent pairingWindowUs now failed).length < pairingMaxFailures := by
  obtain ⟨dropped, parts, old⟩ := covers.listed
  have gone : recent pairingWindowUs now dropped = [] := by
    apply recent_eq_nil
    intro time member
    rcases old time member with before | locks
    · exact before
    · exact lock_past guard now _ unlocked locks
  rw [parts, recent_append, gone, List.nil_append]
  exact (List.length_filter_le _ _).trans_lt covers.few

theorem Covers.failure {guard : PairingGuard} {now : Nat} {failed : List Nat}
    (covers : Covers guard now failed) :
    Covers (guard.recordFailure now) now (failed ++ [now]) := by
  obtain ⟨dropped, parts, old⟩ := covers.listed
  have past : ∀ time ∈ failed ++ [now], time ≤ now := by
    intro time member
    rcases List.mem_append.mp member with before | last
    · exact covers.past time before
    · exact (List.mem_singleton.mp last).le
  unfold recordFailure
  dsimp only
  split
  · -- the lock is set: it outlasts the window of every failure there has been
    refine ⟨⟨failed ++ [now], by simp, ?_⟩, by simp [pairingMaxFailures], past⟩
    intro time member
    have before := past time member
    right
    rw [Option.any_some, decide_eq_true_iff, pairingLockoutUs, pairingWindowUs]
    exact Nat.add_le_add_right before _
  · next room =>
      let tooOld := fun oldest => decide (now - oldest > pairingWindowUs)
      refine ⟨⟨dropped ++ guard.failures.takeWhile tooOld, ?_, ?_⟩, by simpa using room, past⟩
      · calc failed ++ [now]
            = dropped ++ (guard.failures.takeWhile tooOld ++ guard.failures.dropWhile tooOld) ++
                [now] := by rw [List.takeWhile_append_dropWhile, parts]
          _ = dropped ++ guard.failures.takeWhile tooOld ++
                (guard.failures.dropWhile tooOld ++ [now]) := by simp only [List.append_assoc]
      · intro time member
        rcases List.mem_append.mp member with before | pruned
        · exact old time before
        · have age := List.mem_takeWhile_imp pruned
          simp only [tooOld, decide_eq_true_eq] at age
          left
          omega

end PairingGuard

def Phase.isPairing : Phase → Bool
  | .pairing _ => true
  | _ => false

namespace Network

/-- The monotonic clock, where an event reads it for the guard. -/
def instant : Event → Option Nat
  | .message _ nowUs _ _ => some nowUs.toNat
  | .pairingDone _ _ nowUs => some nowUs.toNat
  | _ => none

def failedAt (r : Network) : Event → Option Nat
  | .pairingDone false _ nowUs =>
      match r.phase with
      | .pairing _ => some nowUs.toNat
      | _ => none
  | _ => none

/-- The moments of the failed attempts of a run. -/
def failed (r : Network) : List Event → List Nat
  | [] => []
  | event :: events => (failedAt r event).toList ++ failed (r.step event).1 events

@[simp] theorem control_guard (r : Network) (message : ControlMessage) (nowUs : UInt64)
    (failAt : Option Nat) : (r.control message nowUs failAt).1.guard = r.guard := by
  unfold control
  cases message <;> dsimp only <;> split <;> rfl

theorem control_phase (r : Network) (message : ControlMessage) (nowUs : UInt64)
    (failAt : Option Nat) :
    (r.control message nowUs failAt).1.phase = .ending ∨
      (r.control message nowUs failAt).1.phase = r.phase := by
  unfold control
  cases message <;> dsimp only <;> split <;> first | exact Or.inl rfl | exact Or.inr rfl

@[simp] theorem startStreaming_guard (r : Network) (peer : Fingerprint) :
    (r.startStreaming peer).guard = r.guard := by
  unfold startStreaming
  dsimp only
  split <;> rfl

@[simp] theorem greet_guard (r : Network) (peer : Fingerprint) (message : ControlMessage)
    (nowUs : UInt64) (failAt : Option Nat) :
    (r.greet peer message nowUs failAt).1.guard = r.guard := by
  unfold greet
  dsimp only
  split
  · rfl
  · split
    · split
      · split
        · rfl
        · simp
      · rfl
    · rfl

theorem handle_guard (r : Network) (message : ControlMessage) (nowUs : UInt64) (pin : String)
    (failAt : Option Nat) : (r.handle message nowUs pin failAt).1.guard = r.guard := by
  unfold handle
  split
  · split
    · split
      · exact greet_guard r _ _ nowUs failAt
      · unfold refuseUnpaired
        split
        · rfl
        · split <;> rfl
    · rfl
  · exact control_guard r message nowUs failAt
  · rfl

theorem step_guard (r : Network) (event : Event) :
    (r.step event).1.guard =
      match r.failedAt event with
      | some now => r.guard.recordFailure now
      | none => r.guard := by
  cases event with
  | message message nowUs pin failAt => exact handle_guard r message nowUs pin failAt
  | pairingDone ok saved nowUs =>
      cases ok <;> cases phase : r.phase <;> simp [step, failedAt, phase]
  | connect peer token =>
      simp only [step, failedAt]
      split <;> rfl
  | video frame nowUs =>
      simp only [step, failedAt]
      split <;> rfl
  | lost =>
      simp only [step, failedAt]
      split <;> rfl
  | cleanUp nowUs =>
      simp only [step, failedAt]
      split <;> rfl
  | miracast out nowUs => cases out <;> rfl
  | miracastAcquires => rfl
  | miracastReleases => rfl
  | pop nowUs => rfl
  | decodeError => rfl

theorem control_pairing (r : Network) (message : ControlMessage) (nowUs : UInt64)
    (failAt : Option Nat)
    (pairing : (r.control message nowUs failAt).1.phase.isPairing = true) :
    r.phase.isPairing = true := by
  rcases control_phase r message nowUs failAt with ends | same
  · simp [ends, Phase.isPairing] at pairing
  · rwa [same] at pairing

theorem greet_pairing (r : Network) (peer : Fingerprint) (message : ControlMessage)
    (nowUs : UInt64) (failAt : Option Nat)
    (pairing : (r.greet peer message nowUs failAt).1.phase.isPairing = true) :
    r.phase.isPairing = true := by
  rcases greet_phase r peer message nowUs failAt with streams | ends | same
  · simp [streams, Phase.isPairing] at pairing
  · simp [ends, Phase.isPairing] at pairing
  · rwa [same.1] at pairing

theorem handle_pairing (r : Network) (message : ControlMessage) (nowUs : UInt64) (pin : String)
    (failAt : Option Nat) (pairing : (r.handle message nowUs pin failAt).1.phase.isPairing = true) :
    r.phase.isPairing = true ∨ r.guard.isLocked nowUs.toNat = false := by
  unfold handle at pairing
  split at pairing
  · next peer _ =>
      split at pairing
      · split at pairing
        · exact Or.inl (greet_pairing r peer _ nowUs failAt pairing)
        · unfold refuseUnpaired at pairing
          split at pairing
          · simp [Phase.isPairing] at pairing
          · next unlocked => exact Or.inr (by simpa using unlocked)
      · exact Or.inl pairing
  · exact Or.inl (control_pairing r message nowUs failAt pairing)
  · exact Or.inl pairing

theorem step_pairing (r : Network) (event : Event)
    (pairing : (r.step event).1.phase.isPairing = true) :
    (r.phase.isPairing = true ∧ r.failedAt event = none) ∨
      ∃ now, instant event = some now ∧ r.guard.isLocked now = false := by
  cases event with
  | message message nowUs pin failAt =>
      rcases handle_pairing r message nowUs pin failAt pairing with already | unlocked
      · exact Or.inl ⟨already, rfl⟩
      · exact Or.inr ⟨nowUs.toNat, rfl, unlocked⟩
  | pairingDone ok saved nowUs =>
      simp only [step] at pairing
      cases phase : r.phase <;> cases ok <;> cases saved <;> simp [phase,
        Phase.isPairing] at pairing
  | connect peer token =>
      simp only [step] at pairing
      split at pairing
      · simp [Phase.isPairing] at pairing
      · exact Or.inl ⟨pairing, rfl⟩
  | video frame nowUs =>
      simp only [step] at pairing
      split at pairing <;> exact Or.inl ⟨pairing, rfl⟩
  | lost =>
      simp only [step] at pairing
      split at pairing
      · simp [Phase.isPairing] at pairing
      · simp [Phase.isPairing] at pairing
      · exact Or.inl ⟨pairing, rfl⟩
  | cleanUp nowUs =>
      simp only [step] at pairing
      split at pairing
      · simp [cleanUp, Phase.isPairing] at pairing
      · exact Or.inl ⟨pairing, rfl⟩
  | miracast out nowUs => cases out <;> exact Or.inl ⟨pairing, rfl⟩
  | miracastAcquires => exact Or.inl ⟨pairing, rfl⟩
  | miracastReleases => exact Or.inl ⟨pairing, rfl⟩
  | pop nowUs => exact Or.inl ⟨pairing, rfl⟩
  | decodeError => exact Or.inl ⟨pairing, rfl⟩

theorem failedAt_eq (r : Network) (event : Event) (now : Nat)
    (fails : r.failedAt event = some now) :
    instant event = some now ∧ r.phase.isPairing = true ∧
      (r.step event).1.phase.isPairing = false := by
  cases event with
  | pairingDone ok saved nowUs =>
      cases ok <;> cases phase : r.phase <;>
        simp_all [failedAt, instant, step, Phase.isPairing]
  | _ => simp [failedAt] at fails

/-- What the guard keeps true of the run, with the last moment the clock was read. -/
structure Limited (r : Network) (now : Nat) (times : List Nat) : Prop where
  covers : r.guard.Covers now times
  unlocked : r.phase.isPairing = true → r.guard.isLocked now = false
  atMost : AtMost pairingMaxFailures pairingWindowUs times

theorem limited_step (r : Network) (event : Event) (now : Nat) (times : List Nat)
    (limited : Limited r now times) (onward : now ≤ (instant event).getD now) :
    Limited (r.step event).1 ((instant event).getD now) (times ++ (r.failedAt event).toList) := by
  have covers := limited.covers.later onward
  have guard := step_guard r event
  cases fails : r.failedAt event with
  | some later =>
      obtain ⟨read, pairing, ended⟩ := failedAt_eq r event later fails
      rw [read, Option.getD_some] at onward covers ⊢
      have unlocked := r.guard.isLocked_later now later onward (limited.unlocked pairing)
      rw [fails] at guard
      refine ⟨?_, fun again => absurd again (by simp [ended]), ?_⟩
      · rw [guard]
        exact covers.failure
      · exact at_most_snoc _ _ later times limited.atMost (covers.room unlocked)
  | none =>
      rw [fails] at guard
      rw [Option.toList_none, List.append_nil]
      refine ⟨guard ▸ covers, ?_, limited.atMost⟩
      intro pairing
      rw [guard]
      rcases step_pairing r event pairing with ⟨already, _⟩ | ⟨later, read, unlocked⟩
      · exact r.guard.isLocked_later now _ onward (limited.unlocked already)
      · rw [read]
        exact unlocked

theorem limited_run (events : List Event) (r : Network) (now : Nat) (times : List Nat)
    (limited : Limited r now times)
    (monotone : (now :: events.filterMap instant).Pairwise (· ≤ ·)) :
    AtMost pairingMaxFailures pairingWindowUs (times ++ failed r events) := by
  induction events generalizing r now times with
  | nil =>
      rw [failed, List.append_nil]
      exact limited.atMost
  | cons event tail ih =>
      have onward : now ≤ (instant event).getD now := by
        cases read : instant event with
        | none => exact Nat.le_refl now
        | some later =>
            rw [List.filterMap_cons_some read] at monotone
            exact List.rel_of_pairwise_cons monotone List.mem_cons_self
      have rest : ((instant event).getD now :: tail.filterMap instant).Pairwise (· ≤ ·) := by
        cases read : instant event with
        | none => rwa [List.filterMap_cons_none read] at monotone
        | some later =>
            rw [List.filterMap_cons_some read] at monotone
            exact monotone.of_cons
      rw [failed, ← List.append_assoc]
      exact ih _ _ _ (limited_step r event now times limited onward) rest

/-- Whoever tries, and however long an attempt takes, at most three fail in any minute. -/
theorem guesses_limited (name : String) (miracastName : Option String) (caps : Capabilities)
    (token : Token) (jitter : Media.JitterBuffer) (paired : List Fingerprint)
    (events : List Event) (monotone : (events.filterMap instant).Pairwise (· ≤ ·)) (start : Nat) :
    (within 60000000 start
      (failed (Network.new name miracastName caps token jitter paired) events)).length ≤ 3 := by
  have limited : Limited (Network.new name miracastName caps token jitter paired) 0 [] :=
    ⟨PairingGuard.covers_new 0, fun _ => rfl, at_most_nil _ _⟩
  have ordered : (0 :: events.filterMap instant).Pairwise (· ≤ ·) :=
    List.pairwise_cons.mpr ⟨fun time _ => Nat.zero_le time, monotone⟩
  exact limited_run events _ 0 [] limited ordered start

/-- A stranger connects, sees a PIN asked for and gets it wrong. -/
def wrongGuess (asksUs failsUs : UInt64) : List Event :=
  [.connect (Vector.replicate 32 8) tokenTwo,
    .message (.hello protocolVersion "phone" none) asksUs "1234" none,
    .pairingDone false false failsUs, .cleanUp failsUs]

/-- The fourth guess of a minute is refused before it is made. -/
theorem guesses_limited_fourth :
    failed livingRoom (wrongGuess 10 20 ++ wrongGuess 30 40 ++ wrongGuess 50 60 ++
        wrongGuess 70 80) = [20, 40, 60] ∧
      (within 60000000 20 (failed livingRoom (wrongGuess 10 20 ++ wrongGuess 30 40 ++
        wrongGuess 50 60 ++ wrongGuess 70 80))).length ≤ 3 :=
  ⟨by decide +kernel, guesses_limited _ _ _ _ _ _ _ (by decide +kernel) 20⟩

end Network

end Castr.Receiver
