import Mathlib.Data.List.Basic

/-! Frames one after another in a stream of bytes, and a reader that takes one at a time from
whatever has arrived. -/

namespace Castr.Lib.Framing

variable {Byte Item Err : Type*}

abbrev Reader (Byte Item Err : Type*) := List Byte → Except Err (Option (Item × Nat))

/-- A frame is read as its item whatever follows it, and no part of it is read at all. -/
structure Framed (read : Reader Byte Item Err) (frame : List Byte) (item : Item) : Prop where
  whole : ∀ rest, read (frame ++ rest) = .ok (some (item, frame.length))
  cut : ∀ front back, frame = front ++ back → back ≠ [] → read front = .ok none

/-- A frame that is an error once it is there, whatever follows it. -/
def Refused (read : Reader Byte Item Err) (frame : List Byte) : Prop :=
  ∀ rest, ∃ err, read (frame ++ rest) = .error err

section Receiving

variable (read : Reader Byte Item Err)

/-- One call of a receive loop: chunks are taken in until an item is whole, and what is left is
kept. Without an item the loop waits for more. -/
def receive (buf : List Byte) :
    List (List Byte) → Except Err (Option (Item × List Byte × List (List Byte)))
  | [] =>
      match read buf with
      | .error err => .error err
      | .ok none => .ok none
      | .ok (some (item, used)) => .ok (some (item, buf.drop used, []))
  | chunk :: chunks =>
      match read buf with
      | .error err => .error err
      | .ok none => receive (buf ++ chunk) chunks
      | .ok (some (item, used)) => .ok (some (item, buf.drop used, chunk :: chunks))

def collect : Nat → List Byte → List (List Byte) → List Item × Option Err
  | 0, _, _ => ([], none)
  | calls + 1, buf, chunks =>
      match receive read buf chunks with
      | .error err => ([], some err)
      | .ok none => ([], none)
      | .ok (some (item, left, later)) =>
          let rest := collect calls left later
          (item :: rest.1, rest.2)

theorem receive_framed (frame rest : List Byte) (item : Item) (framed : Framed read frame item)
    (buf : List Byte) (chunks : List (List Byte)) (stream : buf ++ chunks.flatten = frame ++ rest) :
    ∃ left later, receive read buf chunks = .ok (some (item, left, later)) ∧
      left ++ later.flatten = rest := by
  induction chunks generalizing buf with
  | nil =>
      have whole : buf = frame ++ rest := by simpa using stream
      refine ⟨rest, [], ?_, by simp⟩
      rw [receive, whole, framed.whole]
      simp
  | cons chunk chunks ih =>
      rw [List.flatten_cons] at stream
      rcases List.append_eq_append_iff.mp stream with ⟨wanted, whole, -⟩ | ⟨more, here, tail⟩
      · by_cases done : wanted = []
        · have here : buf = frame := by simpa [done] using whole.symm
          refine ⟨[], chunk :: chunks, ?_, ?_⟩
          · have read := framed.whole []
            rw [List.append_nil] at read
            rw [receive, here, read]
            simp
          · rw [here] at stream
            simpa using stream
        · obtain ⟨left, later, got, same⟩ := ih (buf ++ chunk) (by simpa using stream)
          refine ⟨left, later, ?_, same⟩
          rw [receive, framed.cut buf wanted whole done]
          exact got
      · refine ⟨more, chunk :: chunks, ?_, by simpa using tail.symm⟩
        rw [receive, here, framed.whole]
        simp

theorem receive_idle (empty : read [] = .ok none) (buf : List Byte) (chunks : List (List Byte))
    (stream : buf ++ chunks.flatten = []) : receive read buf chunks = .ok none := by
  induction chunks generalizing buf with
  | nil =>
      have none : buf = [] := by simpa using stream
      rw [receive, none, empty]
  | cons chunk chunks ih =>
      have none : buf = [] := (List.append_eq_nil_iff.mp stream).1
      rw [receive, none, empty]
      exact ih ([] ++ chunk) (by simpa [none] using stream)

section Frames

variable (frames : List (List Byte × Item)) (empty : read [] = .ok none)

include empty

theorem collect_framed (framed : ∀ sent ∈ frames, Framed read sent.1 sent.2) (calls : Nat)
    (enough : frames.length < calls) (buf : List Byte) (chunks : List (List Byte))
    (stream : buf ++ chunks.flatten = (frames.map Prod.fst).flatten) :
    collect read calls buf chunks = (frames.map Prod.snd, none) := by
  induction frames generalizing calls buf chunks with
  | nil =>
      cases calls with
      | zero => rfl
      | succ calls =>
          rw [collect, receive_idle read empty buf chunks stream]
          rfl
  | cons sent frames ih =>
      cases calls with
      | zero => exact absurd enough (Nat.not_lt_zero _)
      | succ calls =>
          obtain ⟨left, later, got, same⟩ := receive_framed read sent.1 _ sent.2
            (framed sent List.mem_cons_self) buf chunks stream
          have rest :=
            ih (fun other member => framed other (List.mem_cons_of_mem sent member)) calls
            (Nat.lt_of_succ_lt_succ enough) left later same
          rw [collect, got]
          dsimp only
          rw [rest]
          rfl

omit empty in
theorem collect_refused (fits : List Byte × Item → Prop)
    (framed : ∀ sent ∈ frames, fits sent → Framed read sent.1 sent.2)
    (refused : ∀ sent ∈ frames, ¬ fits sent → Refused read sent.1) (calls : Nat)
    (enough : frames.length < calls)
    (came : collect read calls ((frames.map Prod.fst).flatten) [] = (frames.map Prod.snd, none)) :
    ∀ sent ∈ frames, fits sent := by
  induction frames generalizing calls with
  | nil => simp
  | cons sent frames ih =>
      cases calls with
      | zero => exact absurd enough (Nat.not_lt_zero _)
      | succ calls =>
          have good : fits sent := by
            by_contra bad
            obtain ⟨err, fails⟩ := refused sent List.mem_cons_self bad (frames.map Prod.fst).flatten
            rw [List.map_cons, List.flatten_cons, collect, receive, fails] at came
            simp at came
          have whole := (framed sent List.mem_cons_self good).whole (frames.map Prod.fst).flatten
          rw [List.map_cons, List.flatten_cons, collect, receive, whole, List.map_cons] at came
          dsimp only at came
          rw [List.drop_left, Prod.mk.injEq, List.cons_inj_right] at came
          have rest := ih (fun other member => framed other (List.mem_cons_of_mem sent member))
            (fun other member => refused other (List.mem_cons_of_mem sent member)) calls
            (Nat.lt_of_succ_lt_succ enough) (Prod.ext came.1 came.2)
          exact List.forall_mem_cons.mpr ⟨good, rest⟩

theorem collect_iff (fits : List Byte × Item → Prop)
    (framed : ∀ sent ∈ frames, fits sent → Framed read sent.1 sent.2)
    (refused : ∀ sent ∈ frames, ¬ fits sent → Refused read sent.1) (calls : Nat)
    (enough : frames.length < calls) :
    (∀ chunks : List (List Byte), chunks.flatten = (frames.map Prod.fst).flatten →
        collect read calls [] chunks = (frames.map Prod.snd, none)) ↔
      ∀ sent ∈ frames, fits sent := by
  constructor
  · intro came
    apply collect_refused read frames fits framed refused calls enough
    have once := came [(frames.map Prod.fst).flatten] (by simp)
    cases calls with
    | zero => exact absurd enough (Nat.not_lt_zero _)
    | succ calls =>
        rw [collect, receive, empty, List.nil_append] at once
        rw [collect]
        exact once
  · intro fit chunks stream
    exact collect_framed read frames empty (fun sent member => framed sent member (fit sent member))
      calls enough [] chunks stream

end Frames

end Receiving

end Castr.Lib.Framing
