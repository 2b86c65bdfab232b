import Castr.Miracast.Rtsp

/-! What the reading of a message makes of a buffer, and of the same buffer with more behind it. -/

namespace Castr.Miracast

open Castr.Lib.Text

theorem findDoubleCrlf_bound (buf : List UInt8) (place : Nat)
    (found : findDoubleCrlf buf = some place) : place + 4 ≤ buf.length := by
  induction buf generalizing place with
  | nil => cases found
  | cons b rest ih =>
      rw [findDoubleCrlf] at found
      split at found
      · rename_i here
        cases found
        simpa using here.length_le
      · obtain ⟨later, next, rfl⟩ := Option.map_eq_some_iff.mp found
        have bound := ih later next
        simp only [List.length_cons]
        omega

theorem findDoubleCrlf_append (buf more : List UInt8) (place : Nat)
    (found : findDoubleCrlf buf = some place) : findDoubleCrlf (buf ++ more) = some place := by
  induction buf generalizing place with
  | nil => cases found
  | cons b rest ih =>
      rw [findDoubleCrlf] at found
      rw [List.cons_append, findDoubleCrlf]
      split at found
      · rename_i here
        have longer : [13, 10, 13, 10] <+: b :: (rest ++ more) :=
          here.trans (List.prefix_append (b :: rest) more)
        rw [if_pos longer, found]
      · rename_i elsewhere
        obtain ⟨later, next, rfl⟩ := Option.map_eq_some_iff.mp found
        have bound := findDoubleCrlf_bound rest later next
        have away : ¬ [13, 10, 13, 10] <+: b :: (rest ++ more) := by
          intro here
          apply elsewhere
          exact List.prefix_of_prefix_length_le here (List.prefix_append (b :: rest) more)
            (by simp only [List.length_cons, List.length_nil]; omega)
        rw [if_neg away, ih later next]
        rfl

theorem findDoubleCrlf_front (buf more : List UInt8) (place : Nat)
    (found : findDoubleCrlf (buf ++ more) = some place) (whole : place + 4 ≤ buf.length) :
    findDoubleCrlf buf = some place := by
  induction buf generalizing place with
  | nil => simp at whole
  | cons b rest ih =>
      rw [List.cons_append, findDoubleCrlf] at found
      rw [findDoubleCrlf]
      split at found
      · rename_i here
        cases found
        have front : [13, 10, 13, 10] <+: b :: rest :=
          List.prefix_of_prefix_length_le here (List.prefix_append (b :: rest) more)
            (by simpa using whole)
        rw [if_pos front]
      · rename_i elsewhere
        obtain ⟨later, next, rfl⟩ := Option.map_eq_some_iff.mp found
        have away : ¬ [13, 10, 13, 10] <+: b :: rest :=
          fun here => elsewhere (here.trans (List.prefix_append (b :: rest) more))
        rw [if_neg away, ih later next (by simp only [List.length_cons] at whole; omega)]
        rfl

theorem findDoubleCrlf_none (buf more : List UInt8) (place : Nat)
    (found : findDoubleCrlf (buf ++ more) = some place) (short : buf.length < place + 4) :
    findDoubleCrlf buf = none := by
  cases front : findDoubleCrlf buf with
  | none => rfl
  | some earlier =>
      have same := findDoubleCrlf_append buf more earlier front
      have bound := findDoubleCrlf_bound buf earlier front
      rw [found, Option.some.injEq] at same
      omega

def readHead (head : List UInt8) :
    Except ParseError (StartLine × List (String × String) × Nat) := do
  let head ← (String.fromUTF8? head.toByteArray).elim (.error .notUtf8) .ok
  let start ← parseStartLine ((splitCrlf head.toList).headD [])
  let headers ← parseHeaders ((splitCrlf head.toList).drop 1)
  let bodyLen ← bodyLength headers
  .ok (start, headers, bodyLen)

def readBody (headEnd : Nat) (buf : List UInt8)
    (head : StartLine × List (String × String) × Nat) :
    Except ParseError (Option (Message × Nat)) :=
  if maxBodyBytes < head.2.2 then .error (.messageTooLarge "body")
  else if buf.length < headEnd + 4 + head.2.2 then .ok none
  else
    match String.fromUTF8? ((buf.drop (headEnd + 4)).take head.2.2).toByteArray with
    | none => .error .notUtf8
    | some body => .ok (some (⟨head.1, head.2.1, body⟩, headEnd + 4 + head.2.2))

theorem parse_headless (buf : List UInt8) (none : findDoubleCrlf buf = none) :
    parse buf = if maxHeaderBytes < buf.length then .error (.messageTooLarge "header")
      else .ok Option.none := by
  rw [parse, none]

theorem parse_long (buf : List UInt8) (headEnd : Nat) (found : findDoubleCrlf buf = some headEnd)
    (long : maxHeaderBytes < headEnd) : parse buf = .error (.messageTooLarge "header") := by
  rw [parse, found]
  exact if_pos long

theorem parse_found (buf : List UInt8) (headEnd : Nat) (found : findDoubleCrlf buf = some headEnd)
    (fits : headEnd ≤ maxHeaderBytes) :
    parse buf = (readHead (buf.take headEnd)).bind (readBody headEnd buf) := by
  rw [parse, found]
  dsimp only
  rw [if_neg (by omega), readHead]
  cases String.fromUTF8? (buf.take headEnd).toByteArray with
  | none => rfl
  | some head =>
      simp only [Option.elim_some, bind, Except.bind]
      cases parseStartLine ((splitCrlf head.toList).headD []) with
      | error e => rfl
      | ok start =>
          dsimp only
          cases parseHeaders ((splitCrlf head.toList).drop 1) with
          | error e => rfl
          | ok headers =>
              dsimp only
              cases bodyLength headers with
              | error e => rfl
              | ok bodyLen =>
                  simp only [readBody]
                  split
                  · rfl
                  · split
                    · rfl
                    · cases String.fromUTF8? ((buf.drop (headEnd + 4)).take
                        bodyLen).toByteArray with
                      | none => rfl
                      | some body => rfl

theorem readBody_some (headEnd : Nat) (buf : List UInt8)
    (head : StartLine × List (String × String) × Nat) (m : Message) (used : Nat)
    (read : readBody headEnd buf head = .ok (some (m, used))) :
    used = headEnd + 4 + head.2.2 ∧ used ≤ buf.length := by
  unfold readBody at read
  split at read
  · cases read
  · split at read
    · cases read
    · split at read
      · cases read
      · cases read
        exact ⟨rfl, by omega⟩

theorem readBody_append (headEnd : Nat) (buf more : List UInt8)
    (head : StartLine × List (String × String) × Nat)
    (settled : readBody headEnd buf head ≠ .ok none) :
    readBody headEnd (buf ++ more) head = readBody headEnd buf head := by
  unfold readBody at settled ⊢
  split
  · rfl
  · split at settled
    · omega
    · split at settled
      · exact absurd rfl settled
      · rename_i enough
        have body : ((buf ++ more).drop (headEnd + 4)).take head.2.2 =
            (buf.drop (headEnd + 4)).take head.2.2 := by
          rw [List.drop_append_of_le_length (by omega),
            List.take_append_of_le_length (by rw [List.length_drop]; omega)]
        rw [if_neg (by rw [List.length_append]; omega), if_neg enough, body]

theorem parse_append (buf more : List UInt8) (m : Message) (used : Nat)
    (read : parse buf = .ok (some (m, used))) :
    parse (buf ++ more) = .ok (some (m, used)) ∧ 4 ≤ used ∧ used ≤ buf.length ∧
      ∃ headEnd, findDoubleCrlf buf = some headEnd := by
  cases found : findDoubleCrlf buf with
  | none =>
      rw [parse_headless buf found] at read
      split at read <;> cases read
  | some headEnd =>
      have bound := findDoubleCrlf_bound buf headEnd found
      have later := findDoubleCrlf_append buf more headEnd found
      by_cases fits : headEnd ≤ maxHeaderBytes
      · rw [parse_found buf headEnd found fits] at read
        rw [parse_found _ headEnd later fits, List.take_append_of_le_length (by omega)]
        cases head : readHead (buf.take headEnd) with
        | error e =>
            rw [head] at read
            cases read
        | ok head' =>
            rw [head] at read
            have body : readBody headEnd buf head' = .ok (some (m, used)) := read
            have taken := readBody_some headEnd buf head' m used body
            have same := readBody_append headEnd buf more head' (by rw [body]; nofun)
            exact ⟨same.trans body, by omega, taken.2, headEnd, rfl⟩
      · rw [parse_long buf headEnd found (by omega)] at read
        cases read

theorem parse_waited (buf more : List UInt8) (m : Message) (used : Nat)
    (waits : parse buf = .ok none) (read : parse (buf ++ more) = .ok (some (m, used))) :
    buf.length < used := by
  obtain ⟨-, -, -, headEnd, later⟩ := parse_append (buf ++ more) [] m used read
  have fits : headEnd ≤ maxHeaderBytes := by
    by_contra long
    rw [parse_long _ headEnd later (by omega)] at read
    cases read
  rw [parse_found _ headEnd later fits] at read
  cases head : readHead ((buf ++ more).take headEnd) with
  | error e =>
      rw [head] at read
      cases read
  | ok head' =>
      rw [head] at read
      have taken := (readBody_some headEnd (buf ++ more) head' m used read).1
      by_contra enough
      have here := findDoubleCrlf_front buf more headEnd later (by omega)
      rw [List.take_append_of_le_length (by omega)] at head
      rw [parse_found buf headEnd here fits, head] at waits
      have body : readBody headEnd buf head' = .ok none := waits
      unfold readBody at body
      split at body
      · cases body
      · rw [if_neg (by omega)] at body
        split at body <;> cases body

/-- The one way in which more bytes mend a message: too much of a head had come for a head that
has not ended, and its end is still within the limit. -/
def TornHead (buf more : List UInt8) : Prop :=
  ∃ headEnd, findDoubleCrlf (buf ++ more) = some headEnd ∧ headEnd ≤ maxHeaderBytes ∧
    maxHeaderBytes < buf.length ∧ buf.length < headEnd + 4

theorem parse_torn (buf more : List UInt8) (torn : TornHead buf more) :
    parse buf = .error (.messageTooLarge "header") := by
  obtain ⟨headEnd, found, fits, long, short⟩ := torn
  rw [parse_headless buf (findDoubleCrlf_none buf more headEnd found short), if_pos long]

theorem parse_refused (buf more : List UInt8) (e : ParseError) (refused : parse buf = .error e) :
    (∃ e', parse (buf ++ more) = .error e') ∨ TornHead buf more := by
  cases found : findDoubleCrlf buf with
  | none =>
      rw [parse_headless buf found] at refused
      split at refused
      · rename_i long
        cases later : findDoubleCrlf (buf ++ more) with
        | none =>
            left
            rw [parse_headless _ later, if_pos (by rw [List.length_append]; omega)]
            exact ⟨_, rfl⟩
        | some headEnd =>
            by_cases fits : headEnd ≤ maxHeaderBytes
            · right
              refine ⟨headEnd, later, fits, long, ?_⟩
              by_contra whole
              have front := findDoubleCrlf_front buf more headEnd later (by omega)
              rw [found] at front
              cases front
            · left
              exact ⟨_, parse_long _ headEnd later (by omega)⟩
      · cases refused
  | some headEnd =>
      left
      have bound := findDoubleCrlf_bound buf headEnd found
      have later := findDoubleCrlf_append buf more headEnd found
      by_cases fits : headEnd ≤ maxHeaderBytes
      · rw [parse_found buf headEnd found fits] at refused
        rw [parse_found _ headEnd later fits, List.take_append_of_le_length (by omega)]
        cases head : readHead (buf.take headEnd) with
        | error e' => exact ⟨e', rfl⟩
        | ok head' =>
            rw [head] at refused
            have body : readBody headEnd buf head' = .error e := refused
            have same := readBody_append headEnd buf more head' (by rw [body]; nofun)
            exact ⟨e, same.trans body⟩
      · exact ⟨_, parse_long _ headEnd later (by omega)⟩

end Castr.Miracast
