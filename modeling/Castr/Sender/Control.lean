import Castr.Lib.Text

/-! The control protocol: one line each way, and the line that says how a cast is going. -/

namespace Castr.Sender.Control

open Castr.Lib.Text

inductive Request where
  | stop
  | status
  deriving DecidableEq, Repr

def Request.verb : Request → List Char
  | .stop => "STOP".toList
  | .status => "STATUS".toList

inductive Denial where
  | unauthorised
  | badRequest
  deriving DecidableEq, Repr

def Denial.reason : Denial → List Char
  | .unauthorised => "unauthorised".toList
  | .badRequest => "bad request".toList

def Denial.line (denial : Denial) : List Char := "ERR ".toList ++ denial.reason ++ ['\n']

def formatRequest (req : Request) (token : List Char) : List Char :=
  req.verb ++ ' ' :: (token ++ ['\n'])

def parseRequest (line token : List Char) : Except Denial Request :=
  let parts := words line
  let req :=
    if parts.head? = some Request.stop.verb then some Request.stop
    else if parts.head? = some Request.status.verb then some Request.status
    else none
  match req with
  | some req => if parts[1]? = some token then .ok req else .error .unauthorised
  | none => .error .badRequest

inductive Response where
  | ok (body : List Char)
  | err (reason : List Char)
  deriving DecidableEq, Repr

structure Unreadable where
  line : List Char
  deriving DecidableEq, Repr

def formatOk (body : List Char) : List Char := "OK ".toList ++ body ++ ['\n']

def isLineEnd (c : Char) : Bool := c == '\r' || c == '\n'

def trimLineEnds (line : List Char) : List Char := line.rdropWhile isLineEnd

def parseResponse (line : List Char) : Except Unreadable Response :=
  let line := trimLineEnds line
  let bare := if line = "OK".toList then .ok (.ok []) else .error ⟨line⟩
  match splitOnce ' ' line with
  | some (verb, rest) =>
      if verb = "OK".toList then .ok (.ok rest)
      else if verb = "ERR".toList then .ok (.err rest)
      else bare
  | none => bare

structure Snapshot (Rate : Type) where
  display : List Char
  address : List Char
  mode : Option (List Char)
  ceilingMbps : Option UInt16
  mbps : Rate
  videoUnits : UInt64
  audioUnits : UInt64
  datagrams : UInt64
  bytes : UInt64
  repeatedFrames : UInt64
  elapsedS : UInt64
  keepaliveAgeS : Option UInt64

def unknown : List Char := "-".toList

/-- A field value can never contain the separator or end the line. -/
def sanitise (v : List Char) : List Char :=
  v.map (fun c => if c = '\t' ∨ c = '\r' ∨ c = '\n' then ' ' else c)

section Fields

variable {Rate : Type} (oneDecimal : Rate → List Char)

/-- Each key with its value, as they are put; `oneDecimal` writes a rate with `{:.1}`. -/
def Snapshot.puts (s : Snapshot Rate) : List (List Char × List Char) :=
  [("display".toList, s.display),
    ("address".toList, s.address),
    ("mode".toList, s.mode.getD unknown),
    ("ceiling_mbps".toList, s.ceilingMbps.elim unknown (fun c => decimal c.toNat)),
    ("mbps".toList, oneDecimal s.mbps),
    ("video_units".toList, decimal s.videoUnits.toNat),
    ("audio_units".toList, decimal s.audioUnits.toNat),
    ("datagrams".toList, decimal s.datagrams.toNat),
    ("bytes".toList, decimal s.bytes.toNat),
    ("repeated_frames".toList, decimal s.repeatedFrames.toNat),
    ("elapsed_s".toList, decimal s.elapsedS.toNat),
    ("keepalive_age_s".toList, s.keepaliveAgeS.elim unknown (fun s => decimal s.toNat))]

def field (put : List Char × List Char) : List Char := put.1 ++ '=' :: sanitise put.2

def Snapshot.toFields (s : Snapshot Rate) : List Char :=
  ['\t'].intercalate ((s.puts oneDecimal).map field)

/-- Splits a status body back into pairs, for printing. -/
def fields (body : List Char) : List (List Char × List Char) :=
  (body.splitOn '\t').filterMap (splitOnce '=')

end Fields

section Lines

theorem trimLineEnds_newline (line : List Char) (clean : ∀ c ∈ line, isLineEnd c = false) :
    trimLineEnds (line ++ ['\n']) = line := by
  rw [trimLineEnds, List.rdropWhile_concat_pos _ _ _ rfl, List.rdropWhile_eq_self_iff]
  intro some
  rw [clean _ (List.getLast_mem some)]
  exact Bool.false_ne_true

theorem parseResponse_formatOk (body : List Char) (clean : ∀ c ∈ body, isLineEnd c = false) :
    parseResponse (formatOk body) = .ok (.ok body) := by
  have prompt : "OK ".toList.any isLineEnd = false := by decide
  have whole : ∀ c ∈ "OK ".toList ++ body, isLineEnd c = false := by
    intro c member
    rcases List.mem_append.mp member with front | back
    · exact Bool.eq_false_iff.mpr (List.any_eq_false.mp prompt c front)
    · exact clean c back
  have parts : splitOnce ' ' ("OK ".toList ++ body) = some ("OK".toList, body) :=
    splitOnce_append ' ' "OK".toList body (by decide)
  unfold parseResponse formatOk
  dsimp only
  rw [trimLineEnds_newline _ whole, parts]
  rfl

theorem parseResponse_denial (denial : Denial) :
    parseResponse denial.line = .ok (.err denial.reason) := by
  cases denial with
  | unauthorised => decide
  | badRequest => decide

theorem parseRequest_formatRequest (req : Request) (token : List Char) (some : token ≠ [])
    (solid : ∀ c ∈ token, isSpace c = false) :
    parseRequest (formatRequest req token) token = .ok req := by
  have some' : req.verb ≠ [] := by
    cases req with
    | stop => decide
    | status => decide
  have plain : req.verb.any isSpace = false := by
    cases req with
    | stop => decide
    | status => decide
  have solid' : ∀ c ∈ req.verb, isSpace c = false := by
    intro c member
    exact Bool.eq_false_iff.mpr (List.any_eq_false.mp plain c member)
  have line : words (formatRequest req token) = [req.verb, token] := by
    rw [formatRequest, words_cons req.verb _ ' ' some' solid' rfl, words_append token [] '\n' rfl,
      words_word token some solid]
    rfl
  unfold parseRequest
  rw [line]
  cases req with
  | stop => simp
  | status => simp [Request.verb]

end Lines

section Status

theorem mem_intercalate {α : Type} {separator c : α} {parts : List (List α)}
    (member : c ∈ [separator].intercalate parts) :
    c = separator ∨ ∃ part ∈ parts, c ∈ part := by
  induction parts with
  | nil => exact absurd member List.not_mem_nil
  | cons part parts ih =>
      by_cases last : parts = []
      · subst last
        rw [List.intercalate_singleton] at member
        exact .inr ⟨part, List.mem_cons_self, member⟩
      · rw [List.intercalate_cons_of_ne_nil last, List.append_assoc] at member
        rcases List.mem_append.mp member with here | rest
        · exact .inr ⟨part, List.mem_cons_self, here⟩
        · rcases List.mem_cons.mp rest with same | later
          · exact .inl same
          · obtain mark | ⟨other, inside, found⟩ := ih later
            · exact .inl mark
            · exact .inr ⟨other, List.mem_cons_of_mem part inside, found⟩

theorem sanitise_clean {v : List Char} {c : Char} (member : c ∈ sanitise v) :
    c ≠ '\t' ∧ isLineEnd c = false := by
  obtain ⟨d, _, rfl⟩ := List.mem_map.mp member
  by_cases bad : d = '\t' ∨ d = '\r' ∨ d = '\n'
  · rw [if_pos bad]
    decide
  · rw [if_neg bad]
    simp only [not_or] at bad
    simp [isLineEnd, bad]

variable {Rate : Type} (oneDecimal : Rate → List Char) (s : Snapshot Rate)

def keys : List (List Char) :=
  ["display".toList, "address".toList, "mode".toList, "ceiling_mbps".toList, "mbps".toList,
    "video_units".toList, "audio_units".toList, "datagrams".toList, "bytes".toList,
    "repeated_frames".toList, "elapsed_s".toList, "keepalive_age_s".toList]

theorem puts_keys : (s.puts oneDecimal).map Prod.fst = keys := rfl

theorem keys_clean : ∀ key ∈ keys, ∀ c ∈ key, c ≠ '\t' ∧ c ≠ '=' ∧ isLineEnd c = false := by
  have every : keys.all (fun key => key.all
      (fun c => decide (c ≠ '\t' ∧ c ≠ '=' ∧ isLineEnd c = false))) = true := by decide
  intro key listed c member
  exact of_decide_eq_true (List.all_eq_true.mp (List.all_eq_true.mp every key listed) c member)

theorem field_clean {put : List Char × List Char} (member : put ∈ s.puts oneDecimal) :
    '=' ∉ put.1 ∧ ∀ c ∈ field put, c ≠ '\t' ∧ isLineEnd c = false := by
  have key := keys_clean put.1 (puts_keys oneDecimal s ▸ List.mem_map_of_mem member)
  refine ⟨fun inside => (key _ inside).2.1 rfl, ?_⟩
  intro c inside
  rcases List.mem_append.mp inside with front | back
  · exact ⟨(key c front).1, (key c front).2.2⟩
  · rcases List.mem_cons.mp back with rfl | value
    · decide
    · exact sanitise_clean value

theorem toFields_clean : ∀ c ∈ s.toFields oneDecimal, isLineEnd c = false := by
  intro c member
  obtain rfl | ⟨part, inside, member⟩ := mem_intercalate member
  · rfl
  · obtain ⟨put, among, rfl⟩ := List.mem_map.mp inside
    exact ((field_clean oneDecimal s among).2 c member).2

theorem fields_toFields : fields (s.toFields oneDecimal) =
    (s.puts oneDecimal).map (fun put => (put.1, sanitise put.2)) := by
  have parts : (s.toFields oneDecimal).splitOn '\t' = (s.puts oneDecimal).map field := by
    refine List.splitOn_intercalate '\t' ?_ (List.cons_ne_nil _ _)
    intro part inside tab
    obtain ⟨put, among, rfl⟩ := List.mem_map.mp inside
    exact ((field_clean oneDecimal s among).2 _ tab).1 rfl
  rw [fields, parts, List.filterMap_map, ← List.filterMap_eq_map]
  refine List.filterMap_congr (fun put among => ?_)
  exact splitOnce_append '=' put.1 (sanitise put.2) (field_clean oneDecimal s among).1

/-- Whatever the texts of a snapshot, its reply is one line, and its body gives back the twelve
keys with their sanitised values. -/
theorem status_intact :
    parseResponse (formatOk (s.toFields oneDecimal)) = .ok (.ok (s.toFields oneDecimal)) ∧
      fields (s.toFields oneDecimal) =
        (s.puts oneDecimal).map (fun put => (put.1, sanitise put.2)) ∧
      (fields (s.toFields oneDecimal)).map Prod.fst = keys ∧
      (formatOk (s.toFields oneDecimal)).count '\n' = 1 ∧
      (formatOk (s.toFields oneDecimal)).getLast? = some '\n' := by
  have clean := toFields_clean oneDecimal s
  have body : (s.toFields oneDecimal).count '\n' = 0 :=
    List.count_eq_zero.mpr (fun inside => Bool.noConfusion (clean _ inside))
  have prompt : "OK ".toList.count '\n' = 0 := by decide
  refine ⟨parseResponse_formatOk _ clean, fields_toFields oneDecimal s, ?_, ?_, ?_⟩
  · rw [fields_toFields, List.map_map]
    exact puts_keys oneDecimal s
  · rw [formatOk, List.count_append, List.count_append, body, prompt]
    rfl
  · rw [formatOk, List.getLast?_concat]

end Status

end Castr.Sender.Control
