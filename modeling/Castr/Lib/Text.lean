import Mathlib.Algebra.Group.Nat.Defs
import Mathlib.Data.List.Basic
import Mathlib.Data.List.DropRight

/-! Text as lists of characters: splitting, trimming, and numbers in a base.

White space is Unicode's `White_Space`; a line ends at `\n`, with a `\r` before it or without. -/

namespace Castr.Lib.Text

def isSpace (c : Char) : Bool :=
  (9 ≤ c.toNat && c.toNat ≤ 13) || c.toNat == 0x20 || c.toNat == 0x85 || c.toNat == 0xa0 ||
    c.toNat == 0x1680 || (0x2000 ≤ c.toNat && c.toNat ≤ 0x200a) || c.toNat == 0x2028 ||
    c.toNat == 0x2029 || c.toNat == 0x202f || c.toNat == 0x205f || c.toNat == 0x3000

def trimStart (text : List Char) : List Char := text.dropWhile isSpace

def trimEnd (text : List Char) : List Char := (text.reverse.dropWhile isSpace).reverse

def trim (text : List Char) : List Char := trimEnd (trimStart text)

def words (text : List Char) : List (List Char) :=
  (text.splitOnP isSpace).filter (fun piece => !piece.isEmpty)

/-- Puts a character at the front of the first of some pieces. -/
def extend (c : Char) : List (List Char) → List (List Char)
  | [] => [[c]]
  | piece :: pieces => (c :: piece) :: pieces

def lines : List Char → List (List Char)
  | [] => []
  | '\r' :: '\n' :: rest => [] :: lines rest
  | '\n' :: rest => [] :: lines rest
  | c :: rest => extend c (lines rest)

def splitCrlf : List Char → List (List Char)
  | [] => [[]]
  | '\r' :: '\n' :: rest => [] :: splitCrlf rest
  | c :: rest => extend c (splitCrlf rest)

def splitOnce (separator : Char) : List Char → Option (List Char × List Char)
  | [] => none
  | c :: rest =>
      if c = separator then some ([], rest)
      else (splitOnce separator rest).map (fun parts => (c :: parts.1, parts.2))

def stripPrefix (front text : List Char) : Option (List Char) :=
  if front <+: text then some (text.drop front.length) else none

def digit (c : Char) : Option Nat :=
  if '0' ≤ c ∧ c ≤ '9' then some (c.toNat - 48)
  else if 'a' ≤ c ∧ c ≤ 'f' then some (c.toNat - 87)
  else if 'A' ≤ c ∧ c ≤ 'F' then some (c.toNat - 55)
  else none

/-- The number that digits stand for, after a number already read. -/
def digits (base : Nat) : Nat → List Char → Option Nat
  | value, [] => some value
  | value, c :: rest =>
      match digit c with
      | some d => if d < base then digits base (value * base + d) rest else none
      | none => none

/-- A number below `limit`: digits, perhaps after a plus sign. -/
def number (base limit : Nat) (text : List Char) : Option Nat :=
  let body := match text with
    | '+' :: rest => rest
    | _ => text
  if body = [] then none else (digits base 0 body).filter (fun value => value < limit)

/-- Upper-case hexadecimal digits, filled with zeros to a width. -/
def hex (width value : Nat) : List Char :=
  let shown := (Nat.toDigits 16 value).map Char.toUpper
  List.replicate (width - shown.length) '0' ++ shown

def decimal (value : Nat) : List Char := Nat.toDigits 10 value

def sameIgnoringCase (left right : List Char) : Bool :=
  left.map Char.toLower == right.map Char.toLower

section Words

theorem words_append (front back : List Char) (c : Char) (space : isSpace c = true) :
    words (front ++ c :: back) = words front ++ words back := by
  simp [words, List.splitOnP_append_cons front back space]

theorem words_word (word : List Char) (some : word ≠ []) (solid : ∀ c ∈ word, isSpace c = false) :
    words word = [word] := by
  simp [words, List.splitOnP_eq_singleton solid, some]

theorem words_cons (word back : List Char) (c : Char) (some : word ≠ [])
    (solid : ∀ c ∈ word, isSpace c = false) (space : isSpace c = true) :
    words (word ++ c :: back) = word :: words back := by
  rw [words_append word back c space, words_word word some solid]
  rfl

end Words

section Trim

theorem trimStart_solid (c : Char) (text : List Char) (solid : isSpace c = false) :
    trimStart (c :: text) = c :: text := by
  simp [trimStart, solid]

theorem trimEnd_solid (text : List Char) (c : Char) (solid : isSpace c = false) :
    trimEnd (text ++ [c]) = text ++ [c] := by
  simp [trimEnd, solid]

theorem trim_space (c : Char) (text : List Char) (space : isSpace c = true) :
    trim (c :: text) = trim text := by
  simp [trim, trimStart, space]

theorem trim_solid (first : Char) (text : List Char) (last : Char)
    (front : isSpace first = false) (back : isSpace last = false) :
    trim (first :: (text ++ [last])) = first :: (text ++ [last]) := by
  rw [trim, trimStart_solid first _ front]
  exact trimEnd_solid (first :: text) last back

theorem trim_word (word : List Char) (solid : ∀ c ∈ word, isSpace c = false) :
    trim word = word := by
  cases word with
  | nil => rfl
  | cons first rest =>
      have front := solid first List.mem_cons_self
      rw [trim, trimStart_solid first rest front]
      obtain ⟨text, last, same⟩ : ∃ text last, first :: rest = text ++ [last] :=
        ⟨_, _, (List.dropLast_append_getLast (List.cons_ne_nil first rest)).symm⟩
      rw [same] at solid ⊢
      exact trimEnd_solid text last (solid last (by simp))

theorem dropWhile_stops (text back : List Char) (c : Char) (solid : isSpace c = false) :
    (text ++ c :: back).dropWhile isSpace = text.dropWhile isSpace ++ c :: back := by
  induction text with
  | nil => simp [solid]
  | cons first text ih =>
      cases space : isSpace first with
      | true => simp [space, ih]
      | false => simp [space]

theorem trimEnd_append (front back : List Char) (c : Char) (solid : isSpace c = false) :
    trimEnd (front ++ c :: back) = front ++ c :: trimEnd back := by
  have turned : (front ++ c :: back).reverse = back.reverse ++ c :: front.reverse := by simp
  rw [trimEnd, turned, dropWhile_stops _ _ c solid]
  simp [trimEnd]

theorem trimEnd_blank (text : List Char) (blank : ∀ c ∈ text, isSpace c = true) :
    trimEnd text = [] := by
  exact List.rdropWhile_eq_nil_iff.mpr blank

theorem trim_trimEnd (text : List Char) : trim (trimEnd text) = trim text := by
  induction text with
  | nil => rfl
  | cons first text ih =>
      cases space : isSpace first with
      | true =>
          by_cases blank : ∀ c ∈ text, isSpace c = true
          · have whole : ∀ c ∈ first :: text, isSpace c = true := by simpa [space] using blank
            rw [trim_space first text space, ← ih, trimEnd_blank text blank,
              trimEnd_blank _ whole]
          · simp only [not_forall, Bool.not_eq_true] at blank
            obtain ⟨c, member, solid⟩ := blank
            obtain ⟨front, back, rfl⟩ := List.append_of_mem member
            rw [trim_space first _ space, ← ih, ← List.cons_append, trimEnd_append _ _ c solid,
              trimEnd_append _ _ c solid, List.cons_append, trim_space first _ space]
      | false =>
          have once : trimEnd (first :: text) = first :: trimEnd text :=
            trimEnd_append [] text first space
          have twice : trimEnd (trimEnd (first :: text)) = trimEnd (first :: text) :=
            List.rdropWhile_idempotent isSpace (first :: text)
          rw [trim, trim, trimStart_solid first text space, once, trimStart_solid first _ space,
            ← once, twice]

theorem trim_ends (text : List Char) (front : ∀ c ∈ text.head?, isSpace c = false)
    (back : ∀ c ∈ text.getLast?, isSpace c = false) : trim text = text := by
  cases text with
  | nil => rfl
  | cons first rest =>
      rw [trim, trimStart_solid first rest (front first rfl)]
      obtain ⟨body, last, same⟩ : ∃ body last, first :: rest = body ++ [last] :=
        ⟨_, _, (List.dropLast_append_getLast (List.cons_ne_nil first rest)).symm⟩
      rw [same] at back ⊢
      exact trimEnd_solid body last (back last (by simp))

end Trim

section Lines

theorem lines_cons (line rest : List Char) (whole : '\n' ∉ line) :
    lines (line ++ '\r' :: '\n' :: rest) = line :: lines rest := by
  induction line with
  | nil => rfl
  | cons c line ih =>
      simp only [List.mem_cons, not_or] at whole
      have later := ih whole.2
      rw [List.cons_append, lines, later]
      · rfl
      · intro back first next
        cases line with
        | nil => simp at next
        | cons d line =>
            simp only [List.cons_append, List.cons.injEq] at next
            exact whole.2 (by simp [next.1])
      · exact fun same => whole.1 same.symm

theorem splitOnce_append (separator : Char) (front back : List Char) (free : separator ∉ front) :
    splitOnce separator (front ++ separator :: back) = some (front, back) := by
  induction front with
  | nil => simp [splitOnce]
  | cons c front ih =>
      simp only [List.mem_cons, not_or] at free
      simp [splitOnce, Ne.symm free.1, ih free.2]

end Lines

section Numbers

theorem digits_append (base value : Nat) (front back : List Char) :
    digits base value (front ++ back) =
      (digits base value front).bind (fun read => digits base read back) := by
  induction front generalizing value with
  | nil => rfl
  | cons c front ih =>
      simp only [List.cons_append, digits]
      cases digit c with
      | none => rfl
      | some d =>
          dsimp only
          split
          · exact ih _
          · rfl

theorem digit_digitChar (value : Nat) (small : value < 16) :
    digit (Nat.digitChar value) = some value := by
  have all : ∀ d : Fin 16, digit (Nat.digitChar d) = some d.val := by decide
  exact all ⟨value, small⟩

theorem digit_toUpper (value : Nat) (small : value < 16) :
    digit (Nat.digitChar value).toUpper = some value := by
  have all : ∀ d : Fin 16, digit (Nat.digitChar d).toUpper = some d.val := by decide
  exact all ⟨value, small⟩

theorem digits_toDigits (base : Nat) (low : 1 < base) (high : base ≤ 16) (shape : Char → Char)
    (reads : ∀ value < base, digit (shape (Nat.digitChar value)) = some value) (value : Nat) :
    digits base 0 ((Nat.toDigits base value).map shape) = some value := by
  induction value using Nat.strongRecOn with
  | ind value ih =>
      rw [Nat.toDigits_eq_if low]
      split
      · rename_i small
        simp [digits, reads value small, small]
      · rename_i large
        have smaller : value / base < value := Nat.div_lt_self (by omega) low
        have rest := Nat.mod_lt value (by omega : 0 < base)
        rw [List.map_append, digits_append, ih _ smaller]
        simp [digits, reads _ rest, rest, Nat.div_add_mod']

theorem digits_zeros (base count : Nat) (low : 0 < base) (text : List Char) :
    digits base 0 (List.replicate count '0' ++ text) = digits base 0 text := by
  induction count with
  | zero => rfl
  | succ count ih =>
      have zero : digit '0' = some 0 := rfl
      simp [List.replicate_succ, digits, zero, low, ih]

theorem digits_decimal (value : Nat) : digits 10 0 (decimal value) = some value := by
  have read := digits_toDigits 10 (by decide) (by decide) id
    (fun d small => digit_digitChar d (by omega)) value
  simpa [decimal] using read

theorem digits_hex (width value : Nat) : digits 16 0 (hex width value) = some value := by
  rw [hex, digits_zeros 16 _ (by decide)]
  exact digits_toDigits 16 (by decide) (by decide) Char.toUpper digit_toUpper value

theorem number_of_digits (base limit value : Nat) (text : List Char)
    (read : digits base 0 text = some value) (nonempty : text ≠ []) (small : value < limit) :
    number base limit text = some value := by
  cases text with
  | nil => exact absurd rfl nonempty
  | cons c rest =>
      have unsigned : c ≠ '+' := by
        rintro rfl
        have sign : digit '+' = none := rfl
        simp [digits, sign] at read
      have body : (match c :: rest with
          | '+' :: rest => rest
          | _ => c :: rest) = c :: rest := by
        split
        · rename_i same
          exact absurd (List.cons.inj same).1 unsigned
        · rfl
      unfold number
      rw [body]
      simp [read, small]

theorem decimal_ne_nil (value : Nat) : decimal value ≠ [] := Nat.toDigits_ne_nil

theorem hex_ne_nil (width value : Nat) : hex width value ≠ [] := by
  simp [hex]

theorem number_decimal (limit value : Nat) (small : value < limit) :
    number 10 limit (decimal value) = some value :=
  number_of_digits 10 limit value _ (digits_decimal value) (decimal_ne_nil value) small

theorem number_hex (width limit value : Nat) (small : value < limit) :
    number 16 limit (hex width value) = some value :=
  number_of_digits 16 limit value _ (digits_hex width value) (hex_ne_nil width value) small

theorem digit_of_mem (base value read : Nat) (text : List Char)
    (done : digits base value text = some read) (c : Char) (member : c ∈ text) :
    ∃ d, digit c = some d := by
  induction text generalizing value with
  | nil => cases member
  | cons first rest ih =>
      simp only [digits] at done
      cases found : digit first with
      | none => simp [found] at done
      | some d =>
          rw [found] at done
          dsimp only at done
          split at done
          · rcases List.mem_cons.mp member with rfl | later
            · exact ⟨d, found⟩
            · exact ih _ done later
          · cases done

theorem isSpace_visible (c : Char) (low : 0x21 ≤ c.toNat) (high : c.toNat < 0x80) :
    isSpace c = false := by
  simp only [isSpace, Bool.or_eq_false_iff, Bool.and_eq_false_iff, decide_eq_false_iff_not,
    beq_eq_false_iff_ne]
  omega

theorem digit_not_space (c : Char) (d : Nat) (found : digit c = some d) : isSpace c = false := by
  have bound (a b : Char) : a ≤ b ↔ a.toNat ≤ b.toNat := Iff.rfl
  have visible : 0x21 ≤ c.toNat ∧ c.toNat < 0x80 := by
    simp only [digit, bound] at found
    have codes : '0'.toNat = 48 ∧ '9'.toNat = 57 ∧ 'a'.toNat = 97 ∧ 'f'.toNat = 102 ∧
        'A'.toNat = 65 ∧ 'F'.toNat = 70 := by decide
    split at found
    · omega
    · split at found
      · omega
      · split at found
        · omega
        · cases found
  exact isSpace_visible c visible.1 visible.2

theorem digits_without {base value : Nat} {text : List Char}
    (done : digits base 0 text = some value) {c : Char} (none : digit c = none) : c ∉ text := by
  intro member
  obtain ⟨d, found⟩ := digit_of_mem base 0 value text done c member
  rw [none] at found
  cases found

theorem digits_solid {base value : Nat} {text : List Char}
    (done : digits base 0 text = some value) : ∀ c ∈ text, isSpace c = false := by
  intro c member
  obtain ⟨d, found⟩ := digit_of_mem base 0 value text done c member
  exact digit_not_space c d found

theorem decimal_without (value : Nat) {c : Char} (none : digit c = none) : c ∉ decimal value :=
  digits_without (digits_decimal value) none

theorem hex_without {c : Char} (none : digit c = none) (width value : Nat) :
    c ∉ hex width value := digits_without (digits_hex width value) none

theorem decimal_solid (value : Nat) : ∀ c ∈ decimal value, isSpace c = false :=
  digits_solid (digits_decimal value)

theorem hex_solid (width value : Nat) : ∀ c ∈ hex width value, isSpace c = false :=
  digits_solid (digits_hex width value)

theorem trim_decimal (value : Nat) : trim (decimal value) = decimal value :=
  trim_word _ (decimal_solid value)

end Numbers

example : words " a  bc ".toList = ["a".toList, "bc".toList] := by decide

example : lines "a\r\nb\n\nc".toList = ["a".toList, "b".toList, [], "c".toList] := by decide

end Castr.Lib.Text
