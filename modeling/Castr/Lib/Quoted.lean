import Mathlib.Data.List.Basic
import Mathlib.Data.List.Count

/-! Text cut into bare words and quoted literals. A literal is opened and closed by any quote, and
two quotes in a row inside it stand for one; every other character in it is itself. -/

namespace Castr.Lib.Quoted

variable {α : Type*}

/-- The characters of a language that matter here, and which of two quotes in a row is kept. -/
structure Shell (α : Type*) where
  quote : α → Bool
  space : α → Bool
  keep : α → α → α

def Shell.Keeps (shell : Shell α) : Prop :=
  ∀ first second, shell.keep first second = first ∨ shell.keep first second = second

inductive Token (α : Type*) where
  | word (text : List α)
  | literal (value : List α)
  deriving DecidableEq, Repr

/-- Where the reader stands: between two tokens, in a word, in a literal, or at a quote in a
literal, which closes it unless another follows. -/
inductive Place (α : Type*) where
  | blank
  | word (text : List α)
  | literal (value : List α)
  | closing (value : List α) (mark : α)

/-- The tokens of a text; a literal that is never closed has none. -/
def lex (shell : Shell α) : Place α → List α → Option (List (Token α))
  | .blank, [] => some []
  | .blank, c :: rest =>
      if shell.quote c then lex shell (.literal []) rest
      else if shell.space c then lex shell .blank rest
      else lex shell (.word [c]) rest
  | .word text, [] => some [.word text]
  | .word text, c :: rest =>
      if shell.quote c then (lex shell (.literal []) rest).map (.word text :: ·)
      else if shell.space c then (lex shell .blank rest).map (.word text :: ·)
      else lex shell (.word (text ++ [c])) rest
  | .literal _, [] => none
  | .literal value, c :: rest =>
      if shell.quote c then lex shell (.closing value c) rest
      else lex shell (.literal (value ++ [c])) rest
  | .closing value _, [] => some [.literal value]
  | .closing value mark, c :: rest =>
      if shell.quote c then lex shell (.literal (value ++ [shell.keep mark c])) rest
      else if shell.space c then (lex shell .blank rest).map (.literal value :: ·)
      else (lex shell (.word [c]) rest).map (.literal value :: ·)

def double (twice : α → Bool) (text : List α) : List α :=
  text.flatMap (fun c => if twice c then [c, c] else [c])

theorem double_length (twice : α → Bool) (text : List α) :
    (double twice text).length = text.length + text.countP twice := by
  induction text with
  | nil => rfl
  | cons c text ih =>
      rw [double, List.flatMap_cons, List.length_append, ← double, ih, List.length_cons,
        List.countP_cons]
      by_cases more : twice c = true
      · rw [if_pos more, if_pos more]
        simp only [List.length_cons, List.length_nil]
        omega
      · rw [if_neg more, if_neg more]
        simp only [List.length_cons, List.length_nil]
        omega

variable {shell : Shell α}

theorem lex_double (keeps : shell.Keeps) {twice : α → Bool} (text value tail : List α) (mark : α)
    (marks : shell.quote mark = true) (marked : ∀ c ∈ text, twice c = shell.quote c) :
    lex shell (.literal value) (double twice text ++ mark :: tail) =
      lex shell (.closing (value ++ text) mark) tail := by
  induction text generalizing value with
  | nil =>
      rw [double, List.flatMap_nil, List.nil_append, List.append_nil, lex, if_pos marks]
  | cons c text ih =>
      have rest := ih (value ++ [c]) (fun d inside => marked d (List.mem_cons_of_mem c inside))
      rw [List.append_assoc, List.singleton_append] at rest
      rw [double, List.flatMap_cons, ← double, marked c List.mem_cons_self]
      by_cases quoted : shell.quote c = true
      · have same : shell.keep c c = c := or_self_iff.mp (keeps c c)
        rw [if_pos quoted, List.append_assoc, List.cons_append, lex, if_pos quoted,
          List.cons_append, lex, if_pos quoted, same, List.nil_append]
        exact rest
      · rw [if_neg quoted, List.append_assoc, List.cons_append, lex, if_neg quoted]
        exact rest

/-- How much of a text a literal takes: its value once more for each quote, and a quote to close
it. -/
structure Taken (shell : Shell α) (value : List α) (text : List α) (used : Nat) : Prop where
  short : used < text.length
  quote : ∀ c, text[used]? = some c → shell.quote c = true
  count : used = value.length + value.countP shell.quote

section Taken

variable {c mark : α} {more text : List α} {used : Nat}

theorem taken_quote (marks : shell.quote mark = true) (text : List α) :
    Taken shell [] (mark :: text) 0 := by
  refine ⟨Nat.succ_pos _, ?_, rfl⟩
  intro d found
  exact Option.some.inj found ▸ marks

theorem Taken.plain (taken : Taken shell more text used) (plain : ¬shell.quote c = true) :
    Taken shell (c :: more) (c :: text) (used + 1) := by
  refine ⟨Nat.succ_lt_succ taken.short, taken.quote, ?_⟩
  rw [List.length_cons, List.countP_cons, if_neg plain, taken.count]
  omega

theorem Taken.pair (taken : Taken shell more text used) (keeps : shell.Keeps)
    (marks : shell.quote mark = true) (quoted : shell.quote c = true) :
    Taken shell (shell.keep mark c :: more) (mark :: c :: text) (used + 2) := by
  have kept : shell.quote (shell.keep mark c) = true := by
    rcases keeps mark c with first | second
    · rw [first, marks]
    · rw [second, quoted]
  refine ⟨Nat.succ_lt_succ (Nat.succ_lt_succ taken.short), taken.quote, ?_⟩
  rw [List.length_cons, List.countP_cons, if_pos kept, taken.count]
  omega

end Taken

theorem lex_taken (keeps : shell.Keeps) (text : List α) :
    (∀ value tokens, lex shell (.literal value) text = some tokens →
      ∃ more used rest, tokens = .literal (value ++ more) :: rest ∧ Taken shell more text used) ∧
    ∀ value mark tokens, shell.quote mark = true →
      lex shell (.closing value mark) text = some tokens →
      ∃ more used rest, tokens = .literal (value ++ more) :: rest ∧
        Taken shell more (mark :: text) used := by
  induction text with
  | nil =>
      refine ⟨?_, ?_⟩
      · intro value tokens read
        rw [lex] at read
        cases read
      · intro value mark tokens marks read
        rw [lex] at read
        cases read
        exact ⟨[], 0, [], by rw [List.append_nil], taken_quote marks []⟩
  | cons c text ih =>
      obtain ⟨inside, closing⟩ := ih
      refine ⟨?_, ?_⟩
      · intro value tokens read
        rw [lex] at read
        by_cases quoted : shell.quote c = true
        · rw [if_pos quoted] at read
          exact closing value c tokens quoted read
        · rw [if_neg quoted] at read
          obtain ⟨more, used, rest, same, taken⟩ := inside _ tokens read
          refine ⟨c :: more, used + 1, rest, ?_, taken.plain quoted⟩
          rw [same, List.append_assoc, List.singleton_append]
      · intro value mark tokens marks read
        have ends (rest : List (Token α)) : ∃ more used rest',
            Token.literal value :: rest = .literal (value ++ more) :: rest' ∧
              Taken shell more (mark :: c :: text) used :=
          ⟨[], 0, rest, by rw [List.append_nil], taken_quote marks _⟩
        rw [lex] at read
        by_cases quoted : shell.quote c = true
        · rw [if_pos quoted] at read
          obtain ⟨more, used, rest, same, taken⟩ := inside _ tokens read
          refine ⟨shell.keep mark c :: more, used + 2, rest, ?_, taken.pair keeps marks quoted⟩
          rw [same, List.append_assoc, List.singleton_append]
        · rw [if_neg quoted] at read
          by_cases spaced : shell.space c = true
          · rw [if_pos spaced] at read
            obtain ⟨rest, _, rfl⟩ := Option.map_eq_some_iff.mp read
            exact ends rest
          · rw [if_neg spaced] at read
            obtain ⟨rest, _, rfl⟩ := Option.map_eq_some_iff.mp read
            exact ends rest

theorem countP_same {strong weak : α → Bool} (weaker : ∀ c, strong c = true → weak c = true)
    (text : List α) (often : text.countP weak ≤ text.countP strong) :
    ∀ c ∈ text, strong c = weak c := by
  induction text with
  | nil => exact fun c member => absurd member List.not_mem_nil
  | cons first text ih =>
      have least := List.countP_mono_left (l := text) (fun c _ holds => weaker c holds)
      rw [List.countP_cons, List.countP_cons] at often
      have agree : strong first = weak first := by
        cases holds : strong first with
        | true => exact (weaker first holds).symm
        | false =>
            cases also : weak first with
            | false => rfl
            | true =>
                rw [holds, also] at often
                simp only [if_true, Bool.false_eq_true, if_false] at often
                omega
      rw [agree] at often
      intro c member
      rcases List.mem_cons.mp member with rfl | later
      · exact agree
      · exact ih (by omega) c later

theorem double_whole (keeps : shell.Keeps) {twice : α → Bool}
    (quotes : ∀ c, twice c = true → shell.quote c = true) {text tail : List α} {mark : α}
    (plain : ∀ c ∈ tail, shell.quote c = false) {rest : List (Token α)}
    (read : lex shell (.literal []) (double twice text ++ mark :: tail) =
      some (.literal text :: rest)) : ∀ c ∈ text, twice c = shell.quote c := by
  obtain ⟨more, used, _, same, taken⟩ := (lex_taken keeps _).1 [] _ read
  obtain ⟨value, _⟩ := List.cons.inj same
  obtain rfl : text = more := Token.literal.inj value
  have early : used ≤ (double twice text).length := by
    by_contra late
    have behind : (double twice text ++ mark :: tail)[used]? =
        tail[used - (double twice text).length - 1]? := by
      rw [List.getElem?_append_right (by omega), List.getElem?_cons, if_neg (by omega)]
    rw [List.getElem?_eq_getElem taken.short] at behind
    have member := List.mem_of_getElem? behind.symm
    have marked := taken.quote _ (List.getElem?_eq_getElem taken.short)
    rw [plain _ member] at marked
    cases marked
  rw [double_length, taken.count] at early
  exact countP_same quotes text (by omega)

end Castr.Lib.Quoted
