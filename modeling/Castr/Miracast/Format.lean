import Castr.Lib.Utf8
import Castr.Lib.Framing
import Castr.Miracast.Reading

/-! A formatted message reads back as it was, whatever follows it, and no part of it reads as
a message. -/

namespace Castr.Miracast

open Castr.Lib.Text
open Castr.Lib.Utf8
open Castr.Lib.Framing (Framed)

def joined : List Char → List (List Char) → List Char
  | line, [] => line
  | line, next :: lines => line ++ '\r' :: '\n' :: joined next lines

theorem joined_crlf (line : List Char) (lines : List (List Char)) :
    joined line lines ++ ['\r', '\n'] =
      line ++ ['\r', '\n'] ++ lines.flatMap (fun next => next ++ ['\r', '\n']) := by
  induction lines generalizing line with
  | nil => simp [joined]
  | cons next lines ih =>
      have later := ih next
      simp only [joined, List.append_assoc, List.cons_append, List.flatMap_cons] at later ⊢
      rw [later]
      simp

section Lines

theorem findDoubleCrlf_line (line rest : List UInt8) (whole : 13 ∉ line) :
    findDoubleCrlf (line ++ 13 :: 10 :: rest) =
      if [13, 10] <+: rest then some line.length
      else (findDoubleCrlf rest).map (fun place => place + (line.length + 2)) := by
  induction line with
  | nil =>
      have feed : ¬ [13, 10, 13, 10] <+: 10 :: rest := by simp [List.cons_prefix_cons]
      rw [List.nil_append, findDoubleCrlf, findDoubleCrlf, if_neg feed]
      simp only [List.cons_prefix_cons, true_and]
      split
      · rfl
      · rw [Option.map_map]
        rfl
  | cons b line ih =>
      simp only [List.mem_cons, not_or] at whole
      have away : ¬ [13, 10, 13, 10] <+: b :: (line ++ 13 :: 10 :: rest) := by
        rw [List.cons_prefix_cons]
        exact fun here => whole.1 here.1
      rw [List.cons_append, findDoubleCrlf, if_neg away, ih whole.2]
      split
      · rfl
      · rw [Option.map_map]
        congr 1

theorem crlf_not_prefix (line rest : List Char) (some : line ≠ []) (whole : '\r' ∉ line) :
    ¬ [13, 10] <+: utf8 (line ++ rest) := by
  cases line with
  | nil => exact absurd rfl some
  | cons c line =>
      rintro ⟨back, same⟩
      have first : 13 ∈ String.utf8EncodeChar c := by
        have bytes : String.utf8EncodeChar c ≠ [] := String.utf8EncodeChar_ne_nil
        rw [utf8, show c :: line ++ rest = c :: (line ++ rest) from rfl, List.flatMap_cons] at same
        cases shape : String.utf8EncodeChar c with
        | nil => exact absurd shape bytes
        | cons b more =>
            rw [shape] at same
            have start : 13 = b := (List.cons.inj same).1
            exact start ▸ List.mem_cons_self
      have carriage := return_of_mem [c] (by simpa [utf8] using first)
      exact whole (List.mem_cons.mpr (.inl (List.mem_singleton.mp carriage)))

theorem findDoubleCrlf_joined (line : List Char) (lines : List (List Char)) (rest : List UInt8)
    (whole : ∀ text ∈ line :: lines, '\r' ∉ text) (filled : ∀ text ∈ lines, text ≠ []) :
    findDoubleCrlf (utf8 (joined line lines) ++ 13 :: 10 :: 13 :: 10 :: rest) =
      some (utf8 (joined line lines)).length := by
  induction lines generalizing line with
  | nil =>
      have unbroken : 13 ∉ utf8 line :=
        fun member => whole line (by simp) (return_of_mem line member)
      rw [joined, findDoubleCrlf_line _ _ unbroken, if_pos (by simp [List.cons_prefix_cons])]
  | cons next lines ih =>
      have unbroken : 13 ∉ utf8 line :=
        fun member => whole line (by simp) (return_of_mem line member)
      have later := ih next (fun text member => whole text (List.mem_cons_of_mem line member))
        (fun text member => filled text (List.mem_cons_of_mem next member))
      have away : ¬ [13, 10] <+: utf8 (joined next lines) ++ 13 :: 10 :: 13 :: 10 :: rest := by
        have named := filled next (by simp)
        have clean := whole next (by simp)
        intro here
        have short : [13, 10] <+: utf8 (joined next lines ++ ['\r', '\n', '\r', '\n']) ++ rest := by
          simpa [utf8_crlf] using here
        have bound : 2 ≤ (utf8 (joined next lines ++ ['\r', '\n', '\r', '\n'])).length := by
          simp [utf8_crlf]
        have front := List.prefix_of_prefix_length_le short
          (List.prefix_append (utf8 (joined next lines ++ ['\r', '\n', '\r', '\n'])) rest) bound
        cases lines with
        | nil => exact crlf_not_prefix next ['\r', '\n', '\r', '\n'] named clean front
        | cons more lines =>
            rw [joined, List.append_assoc] at front
            exact crlf_not_prefix next _ named clean front
      have shape : utf8 (joined line (next :: lines)) ++ 13 :: 10 :: 13 :: 10 :: rest =
          utf8 line ++ 13 :: 10 :: (utf8 (joined next lines) ++ 13 :: 10 :: 13 :: 10 :: rest) := by
        simp [joined, utf8_crlf]
      rw [shape, findDoubleCrlf_line _ _ unbroken, if_neg away, later]
      simp only [Option.map_some, joined, utf8_append, utf8_crlf, List.length_append,
        List.length_cons, Option.some.injEq]
      omega

theorem splitCrlf_line (line : List Char) (whole : '\r' ∉ line) : splitCrlf line = [line] := by
  induction line with
  | nil => rfl
  | cons c line ih =>
      simp only [List.mem_cons, not_or] at whole
      rw [splitCrlf, ih whole.2]
      · rfl
      · intro rest same
        exact absurd same.symm whole.1

theorem splitCrlf_append (line rest : List Char) (whole : '\r' ∉ line) :
    splitCrlf (line ++ '\r' :: '\n' :: rest) = line :: splitCrlf rest := by
  induction line with
  | nil => rfl
  | cons c line ih =>
      simp only [List.mem_cons, not_or] at whole
      rw [List.cons_append, splitCrlf, ih whole.2]
      · rfl
      · intro back same
        exact absurd same.symm whole.1

theorem splitCrlf_joined (line : List Char) (lines : List (List Char))
    (whole : ∀ text ∈ line :: lines, '\r' ∉ text) :
      splitCrlf (joined line lines) = line :: lines := by
  induction lines generalizing line with
  | nil => exact splitCrlf_line line (whole line (by simp))
  | cons next lines ih =>
      rw [joined, splitCrlf_append _ _ (whole line (by simp)),
        ih next (fun text member => whole text (List.mem_cons_of_mem line member))]

end Lines

def contentHeaders (body : String) : List (String × String) :=
  if body = "" then []
  else [("Content-Type", "text/parameters"), ("Content-Length", toString body.utf8ByteSize)]

namespace Message

def announced (m : Message) : Message := { m with headers := m.headers ++ contentHeaders m.body }

def bytes (m : Message) : List UInt8 := utf8 m.format.toList

def headText (m : Message) : String :=
  startText m.start ++ String.join (m.headers.map headerText) ++ contentText m.body

def headLength (m : Message) : Nat := m.headText.utf8ByteSize - 2

def Unbroken (text : String) : Prop := '\r' ∉ text.toList ∧ '\n' ∉ text.toList

def Trimmed (text : String) : Prop := trim text.toList = text.toList

instance (text : String) : Decidable (Unbroken text) := inferInstanceAs (Decidable (_ ∧ _))

instance (text : String) : Decidable (Trimmed text) := inferInstanceAs (Decidable (_ = _))

def PlainStart : StartLine → Prop
  | .request method uri =>
      method ≠ "" ∧ ' ' ∉ method.toList ∧ ' ' ∉ uri.toList ∧ Unbroken method ∧ Unbroken uri ∧
        ¬ "RTSP/1.0 ".toList <+: (startText (.request method uri)).toList
  | .response status reason => status < 2 ^ 16 ∧ Unbroken reason

structure PlainHeader (entry : String × String) : Prop where
  name : Unbroken entry.1 ∧ Trimmed entry.1 ∧ ':' ∉ entry.1.toList
  value : Unbroken entry.2 ∧ Trimmed entry.2

structure Plain (m : Message) : Prop where
  start : PlainStart m.start
  headers : ∀ entry ∈ m.headers, PlainHeader entry
  unannounced : ∀ entry ∈ m.headers,
    sameIgnoringCase entry.1.toList "content-length".toList = false ∧
      sameIgnoringCase entry.1.toList "content-type".toList = false

end Message

section Parts

open Message

def startLine : StartLine → List Char
  | .request method uri => method.toList ++ ' ' :: uri.toList ++ " RTSP/1.0".toList
  | .response status reason => "RTSP/1.0 ".toList ++ decimal status ++ ' ' :: reason.toList

def headerLine (entry : String × String) : List Char :=
  entry.1.toList ++ ':' :: ' ' :: entry.2.toList

theorem startText_toList (start : StartLine) :
    (startText start).toList = startLine start ++ ['\r', '\n'] := by
  have space : " ".toList = [' '] := by decide
  have ends : "\r\n".toList = ['\r', '\n'] := by decide
  have version : " RTSP/1.0\r\n".toList = " RTSP/1.0".toList ++ ['\r', '\n'] := by decide
  cases start with
  | request method uri =>
      show (method ++ " " ++ uri ++ " RTSP/1.0\r\n").toList =
        method.toList ++ ' ' :: uri.toList ++ " RTSP/1.0".toList ++ ['\r', '\n']
      rw [String.toList_append, String.toList_append, String.toList_append, space, version]
      simp only [List.append_assoc, List.cons_append, List.nil_append]
  | response status reason =>
      have number : (toString status).toList = decimal status := by simp [decimal]
      show ("RTSP/1.0 " ++ toString status ++ " " ++ reason ++ "\r\n").toList =
        "RTSP/1.0 ".toList ++ decimal status ++ ' ' :: reason.toList ++ ['\r', '\n']
      rw [String.toList_append, String.toList_append, String.toList_append,
        String.toList_append, space, ends, number]
      simp only [List.append_assoc, List.cons_append, List.nil_append]

theorem headerText_toList (entry : String × String) :
    (headerText entry).toList = headerLine entry ++ ['\r', '\n'] := by
  have colon : ": ".toList = [':', ' '] := by decide
  have ends : "\r\n".toList = ['\r', '\n'] := by decide
  simp [headerText, headerLine, colon, ends]

theorem join_toList (texts : List String) :
    (String.join texts).toList = texts.flatMap String.toList := by
  induction texts with
  | nil => rfl
  | cons text texts ih => simp [ih]

theorem headers_toList (headers : List (String × String)) :
    (String.join (headers.map headerText)).toList =
      (headers.map headerLine).flatMap (fun line => line ++ ['\r', '\n']) := by
  rw [join_toList, List.flatMap_map, List.flatMap_map]
  congr 1
  funext entry
  exact headerText_toList entry

theorem two_headers (front kind colon parameters length value ends : String)
    (same : front = kind ++ colon ++ parameters ++ ends ++ (length ++ colon)) :
    front ++ value ++ ends =
      "" ++ (kind ++ colon ++ parameters ++ ends) ++ (length ++ colon ++ value ++ ends) := by
  rw [same]
  simp only [String.empty_append, String.append_assoc]

theorem contentText_headers (body : String) :
    contentText body = String.join ((contentHeaders body).map headerText) := by
  unfold contentText contentHeaders
  split
  · rfl
  · exact two_headers "Content-Type: text/parameters\r\nContent-Length: " "Content-Type" ": "
      "text/parameters" "Content-Length" (toString body.utf8ByteSize) "\r\n" (by decide)

theorem contentText_toList (body : String) : (contentText body).toList =
    ((contentHeaders body).map headerLine).flatMap (fun line => line ++ ['\r', '\n']) := by
  rw [contentText_headers, headers_toList]

theorem headText_toList (m : Message) : m.headText.toList =
    joined (startLine m.start) (m.announced.headers.map headerLine) ++ ['\r', '\n'] := by
  rw [joined_crlf, headText, String.toList_append, String.toList_append, startText_toList,
    headers_toList, contentText_toList, announced, List.map_append, List.flatMap_append]
  simp only [List.append_assoc]

theorem format_toList (m : Message) : m.format.toList =
    joined (startLine m.start) (m.announced.headers.map headerLine) ++
      '\r' :: '\n' :: '\r' :: '\n' :: m.body.toList := by
  have ends : "\r\n".toList = ['\r', '\n'] := by decide
  have head := headText_toList m
  rw [headText] at head
  rw [format, String.toList_append, String.toList_append, head, ends]
  simp

theorem trim_blank (text : List Char) : trim (' ' :: text) = trim text :=
  trim_space ' ' text (by decide)

theorem parseStartLine_request (method uri : String) (plain : PlainStart (.request method uri)) :
    parseStartLine (startLine (.request method uri)) = .ok (.request method uri) := by
  obtain ⟨some, single, unspaced, -, -, apart⟩ := plain
  have shape : startLine (.request method uri) =
      method.toList ++ ' ' :: (uri.toList ++ ' ' :: "RTSP/1.0".toList) := by
    have version : " RTSP/1.0".toList = ' ' :: "RTSP/1.0".toList := by decide
    show method.toList ++ ' ' :: uri.toList ++ " RTSP/1.0".toList = _
    rw [version]
    simp only [List.append_assoc, List.cons_append]
  have other : stripPrefix "RTSP/1.0 ".toList (startLine (.request method uri)) = none := by
    apply if_neg
    intro front
    apply apart
    rw [startText_toList]
    exact front.trans (List.prefix_append _ _)
  have pieces : (startLine (.request method uri)).splitOn ' ' =
      [method.toList, uri.toList, "RTSP/1.0".toList] := by
    rw [shape, List.splitOn_append_cons_self, List.splitOn_append_cons_self,
      List.splitOn_eq_singleton single, List.splitOn_eq_singleton unspaced,
      List.splitOn_eq_singleton (by decide)]
    rfl
  have named : method.toList ≠ [] := by simpa using some
  have version : "RTSP/".toList <+: "RTSP/1.0".toList := by decide
  unfold parseStartLine
  rw [other, pieces]
  dsimp only
  rw [if_pos ⟨named, version⟩, String.ofList_toList, String.ofList_toList]

theorem parseStartLine_response (status : Nat) (reason : String) (small : status < 2 ^ 16) :
    parseStartLine (startLine (.response status reason)) = .ok (.response status reason) := by
  have front : stripPrefix "RTSP/1.0 ".toList (startLine (.response status reason)) =
      some (decimal status ++ ' ' :: reason.toList) := by
    show stripPrefix "RTSP/1.0 ".toList
      ("RTSP/1.0 ".toList ++ decimal status ++ ' ' :: reason.toList) = _
    rw [List.append_assoc]
    generalize "RTSP/1.0 ".toList = version
    simp [stripPrefix]
  have solid : ' ' ∉ decimal status := decimal_without status (by decide)
  unfold parseStartLine
  rw [front]
  dsimp only
  rw [splitOnce_append ' ' _ _ solid, Option.getD_some, number_decimal _ _ small,
    String.ofList_toList]

theorem parseStartLine_startLine (start : StartLine) (plain : PlainStart start) :
    parseStartLine (startLine start) = .ok start := by
  cases start with
  | request method uri => exact parseStartLine_request method uri plain
  | response status reason => exact parseStartLine_response status reason plain.1

theorem parseHeaders_lines (headers : List (String × String))
    (plain : ∀ entry ∈ headers, PlainHeader entry) :
    parseHeaders (headers.map headerLine) = .ok headers := by
  induction headers with
  | nil => rfl
  | cons entry headers ih =>
      have first := plain entry List.mem_cons_self
      have later := ih (fun other member => plain other (List.mem_cons_of_mem entry member))
      have filled : headerLine entry ≠ [] := by simp [headerLine]
      have parts : splitOnce ':' (headerLine entry) =
        some (entry.1.toList, ' ' :: entry.2.toList) :=
        splitOnce_append ':' _ _ first.name.2.2
      have name : trim entry.1.toList = entry.1.toList := first.name.2.1
      have value : trim entry.2.toList = entry.2.toList := first.value.2
      rw [List.map_cons, parseHeaders, if_neg filled, parts]
      dsimp only
      rw [later, trim_blank, name, value, String.ofList_toList, String.ofList_toList]
      rfl

end Parts

section Announced

open Message

variable (m : Message) (plain : m.Plain)

include plain

theorem plain_announced : ∀ entry ∈ m.announced.headers, PlainHeader entry := by
  intro entry member
  rcases List.mem_append.mp member with own | content
  · exact plain.headers entry own
  · unfold contentHeaders at content
    split at content
    · cases content
    · have solid (value : Nat) : Unbroken (toString value) ∧ Trimmed (toString value) := by
        have shown : (toString value).toList = decimal value := by simp [decimal]
        refine ⟨⟨fun inside => ?_, fun inside => ?_⟩, ?_⟩
        · exact decimal_without value (by decide) (shown ▸ inside)
        · exact decimal_without value (by decide) (shown ▸ inside)
        · rw [Trimmed, shown, trim_decimal]
      have kind : Unbroken "Content-Type" ∧ Trimmed "Content-Type" ∧
          ':' ∉ "Content-Type".toList := by
        decide
      have parameters : Unbroken "text/parameters" ∧ Trimmed "text/parameters" := by decide
      have length : Unbroken "Content-Length" ∧ Trimmed "Content-Length" ∧
          ':' ∉ "Content-Length".toList := by decide
      rcases List.mem_cons.mp content with rfl | last
      · exact ⟨kind, parameters⟩
      · rw [List.mem_singleton.mp last]
        exact ⟨length, solid _⟩

theorem bodyLength_announced (fits : m.body.utf8ByteSize < 2 ^ 64) :
    bodyLength m.announced.headers = .ok m.body.utf8ByteSize := by
  have own : m.headers.find? (fun entry =>
      sameIgnoringCase entry.1.toList "content-length".toList) = none := by
    rw [List.find?_eq_none]
    intro entry member
    rw [(plain.unannounced entry member).1]
    decide
  have shown : (toString m.body.utf8ByteSize).toList = decimal m.body.utf8ByteSize := by
    simp [decimal]
  have clean := trim_decimal m.body.utf8ByteSize
  rw [bodyLength, announced, List.find?_append, own, Option.none_or]
  by_cases empty : m.body = ""
  · rw [contentHeaders, if_pos empty, empty]
    rfl
  · have kind : sameIgnoringCase "Content-Type".toList "content-length".toList = false := by decide
    have length : sameIgnoringCase "Content-Length".toList "content-length".toList = true := by
      decide
    rw [contentHeaders, if_neg empty, List.find?_cons, kind, List.find?_cons, length]
    dsimp only
    rw [shown, clean, number_decimal _ _ fits]

theorem startLine_whole : '\r' ∉ startLine m.start := by
  have start := plain.start
  cases shape : m.start with
  | request method uri =>
      rw [shape] at start
      obtain ⟨-, -, -, first, second, -⟩ := start
      have version : '\r' ∉ " RTSP/1.0".toList := by decide
      show '\r' ∉ method.toList ++ ' ' :: uri.toList ++ " RTSP/1.0".toList
      rw [List.mem_append, List.mem_append, List.mem_cons]
      rintro ((inside | inside | inside) | inside)
      · exact first.1 inside
      · exact absurd inside (by decide)
      · exact second.1 inside
      · exact version inside
  | response status reason =>
      rw [shape] at start
      have version : '\r' ∉ "RTSP/1.0 ".toList := by decide
      show '\r' ∉ "RTSP/1.0 ".toList ++ decimal status ++ ' ' :: reason.toList
      rw [List.mem_append, List.mem_append, List.mem_cons]
      rintro ((inside | inside) | inside | inside)
      · exact version inside
      · exact decimal_without status (by decide) inside
      · exact absurd inside (by decide)
      · exact start.2.1 inside

theorem headerLine_whole (line : List Char) (member : line ∈ m.announced.headers.map headerLine) :
    '\r' ∉ line ∧ line ≠ [] := by
  obtain ⟨entry, inside, rfl⟩ := List.mem_map.mp member
  have clean := plain_announced m plain entry inside
  refine ⟨?_, by simp [headerLine]⟩
  rw [headerLine, List.mem_append, List.mem_cons, List.mem_cons]
  rintro (there | there | there | there)
  · exact clean.name.1.1 there
  · exact absurd there (by decide)
  · exact absurd there (by decide)
  · exact clean.value.1.1 there

end Announced

section Bytes

open Message

variable (m : Message)

def headBytes : List UInt8 :=
  utf8 (joined (startLine m.start) (m.announced.headers.map headerLine))

theorem bytes_shape : m.bytes = headBytes m ++ 13 :: 10 :: 13 :: 10 :: utf8 m.body.toList := by
  rw [Message.bytes, format_toList, utf8_append, utf8_crlf, utf8_crlf]
  rfl

theorem utf8_toList_length (text : String) : (utf8 text.toList).length = text.utf8ByteSize := by
  rw [utf8_length, String.ofList_toList]

theorem headLength_eq : m.headLength = (headBytes m).length := by
  have head := utf8_toList_length m.headText
  rw [headText_toList, utf8_append, List.length_append] at head
  have ends : (utf8 ['\r', '\n']).length = 2 := by decide
  rw [headLength, ← head, ends]
  exact Nat.add_sub_cancel _ _

theorem bytes_length : m.bytes.length = m.headLength + 4 + m.body.utf8ByteSize := by
  rw [bytes_shape, headLength_eq, List.length_append, List.length_cons, List.length_cons,
    List.length_cons, List.length_cons, utf8_toList_length]
  omega

theorem take_bytes (rest : List UInt8) : (m.bytes ++ rest).take m.headLength = headBytes m := by
  rw [bytes_shape, headLength_eq, List.append_assoc, List.take_left]

theorem readBody_bytes (fits : m.body.utf8ByteSize ≤ maxBodyBytes) (rest : List UInt8) :
    readBody m.headLength (m.bytes ++ rest) (m.start, m.announced.headers, m.body.utf8ByteSize) =
      .ok (some (m.announced, m.bytes.length)) := by
  have enough := bytes_length m
  have body : ((m.bytes ++ rest).drop (m.headLength + 4)).take m.body.utf8ByteSize =
      utf8 m.body.toList := by
    have shape : m.bytes ++ rest =
        (headBytes m ++ [13, 10, 13, 10]) ++ (utf8 m.body.toList ++ rest) := by
      rw [bytes_shape]
      simp
    have place : m.headLength + 4 = (headBytes m ++ [13, 10, 13, 10]).length := by
      rw [headLength_eq, List.length_append]
      rfl
    rw [shape, place, List.drop_left, ← utf8_toList_length, List.take_left]
  unfold readBody
  rw [if_neg (by dsimp only; omega), if_neg (by dsimp only; rw [List.length_append]; omega), body,
    fromUTF8_utf8, String.ofList_toList, enough]
  rfl

variable (plain : m.Plain)

include plain

theorem findDoubleCrlf_bytes (rest : List UInt8) :
    findDoubleCrlf (m.bytes ++ rest) = some m.headLength := by
  have whole : ∀ text ∈ startLine m.start :: m.announced.headers.map headerLine, '\r' ∉ text := by
    intro text member
    rcases List.mem_cons.mp member with rfl | later
    · exact startLine_whole m plain
    · exact (headerLine_whole m plain text later).1
  have filled : ∀ text ∈ m.announced.headers.map headerLine, text ≠ [] :=
    fun text member => (headerLine_whole m plain text member).2
  rw [bytes_shape, headLength_eq, List.append_assoc]
  exact findDoubleCrlf_joined _ _ (utf8 m.body.toList ++ rest) whole filled

theorem readHead_bytes (fits : m.body.utf8ByteSize < 2 ^ 64) :
    readHead (headBytes m) = .ok (m.start, m.announced.headers, m.body.utf8ByteSize) := by
  have whole : ∀ text ∈ startLine m.start :: m.announced.headers.map headerLine, '\r' ∉ text := by
    intro text member
    rcases List.mem_cons.mp member with rfl | later
    · exact startLine_whole m plain
    · exact (headerLine_whole m plain text later).1
  have lines : splitCrlf (String.ofList (joined (startLine m.start)
      (m.announced.headers.map headerLine))).toList =
        startLine m.start :: m.announced.headers.map headerLine := by
    rw [String.toList_ofList, splitCrlf_joined _ _ whole]
  have headers := parseHeaders_lines m.announced.headers (plain_announced m plain)
  rw [readHead, headBytes, fromUTF8_utf8]
  simp only [Option.elim_some, bind, Except.bind]
  rw [lines, List.headD_cons, List.drop_one, List.tail_cons,
    parseStartLine_startLine m.start plain.start]
  dsimp only
  rw [headers]
  dsimp only
  rw [bodyLength_announced m plain fits]

theorem parse_bytes (head : m.headLength ≤ maxHeaderBytes)
    (body : m.body.utf8ByteSize ≤ maxBodyBytes) (rest : List UInt8) :
    parse (m.bytes ++ rest) = .ok (some (m.announced, m.bytes.length)) := by
  have small : m.body.utf8ByteSize < 2 ^ 64 := by
    have limit : maxBodyBytes < 2 ^ 64 := by decide
    omega
  rw [parse_found _ m.headLength (findDoubleCrlf_bytes m plain rest) head, take_bytes m,
    readHead_bytes m plain small]
  exact readBody_bytes m body rest

theorem framed_bytes (head : m.headLength + 3 ≤ maxHeaderBytes)
    (body : m.body.utf8ByteSize ≤ maxBodyBytes) : Framed parse m.bytes m.announced := by
  have small : m.body.utf8ByteSize < 2 ^ 64 := by
    have limit : maxBodyBytes < 2 ^ 64 := by decide
    omega
  refine ⟨parse_bytes m plain (by omega) body, ?_⟩
  intro front back split rest
  have unfinished : front.length < m.bytes.length := by
    rw [split, List.length_append]
    have positive := List.length_pos_of_ne_nil rest
    omega
  have found : findDoubleCrlf (front ++ back) = some m.headLength := by
    rw [← split]
    simpa using findDoubleCrlf_bytes m plain []
  by_cases ended : m.headLength + 4 ≤ front.length
  · have here := findDoubleCrlf_front front back m.headLength found ended
    have same : front.take m.headLength = headBytes m := by
      have all := take_bytes m []
      rw [List.append_nil, split, List.take_append_of_le_length (by omega)] at all
      exact all
    have size := bytes_length m
    rw [parse_found front m.headLength here (by omega), same, readHead_bytes m plain small]
    show readBody m.headLength front (m.start, m.announced.headers, m.body.utf8ByteSize) = .ok none
    rw [readBody, if_neg (by dsimp only; omega), if_pos (by dsimp only; omega)]
  · rw [parse_headless front (findDoubleCrlf_none front back m.headLength found (by omega)),
      if_neg (by omega)]

/-- The round trip of a message, and what its proper prefixes read as. -/
theorem parse_format (head : m.headLength ≤ maxHeaderBytes - 3)
    (body : m.body.utf8ByteSize ≤ maxBodyBytes) :
    (∀ rest, parse (m.bytes ++ rest) = .ok (some (m.announced, m.bytes.length))) ∧
      ∀ front back, m.bytes = front ++ back → back ≠ [] → parse front = .ok none := by
  have room : m.headLength + 3 ≤ maxHeaderBytes := by
    have limit : maxHeaderBytes = 65536 := rfl
    omega
  have framed := framed_bytes m plain room body
  exact ⟨framed.whole, framed.cut⟩

end Bytes

/-- An answer with a body that holds a blank line and text outside of ASCII. -/
theorem parse_format_answer :
    (∀ rest, parse ((response 200 7 "a: \u00fc\r\n\r\nb").bytes ++ rest) =
        .ok (some ((response 200 7 "a: \u00fc\r\n\r\nb").announced,
          (response 200 7 "a: \u00fc\r\n\r\nb").bytes.length))) ∧
      ∀ front back, (response 200 7 "a: \u00fc\r\n\r\nb").bytes = front ++ back → back ≠ [] →
        parse front = .ok none := by
  apply parse_format
  · refine ⟨⟨by decide, by decide⟩, ?_, ?_⟩
    · intro entry member
      rw [List.mem_singleton.mp member]
      exact ⟨by decide, by decide⟩
    · intro entry member
      rw [List.mem_singleton.mp member]
      decide
  · decide
  · decide

end Castr.Miracast
