import Castr.Lib.Text

/-! RTSP/1.0 messages, and their reading from a buffer. -/

namespace Castr.Miracast

open Castr.Lib.Text

def maxHeaderBytes : Nat := 64 * 1024
def maxBodyBytes : Nat := 1024 * 1024

inductive StartLine where
  | request (method uri : String)
  | response (status : Nat) (reason : String)
  deriving DecidableEq, Repr

structure Message where
  start : StartLine
  headers : List (String × String)
  body : String
  deriving DecidableEq, Repr

inductive ParseError where
  | malformedStartLine (line : String)
  | malformedHeader (line : String)
  | badContentLength (value : String)
  | messageTooLarge (part : String)
  | notUtf8
  deriving DecidableEq, Repr

namespace Message

def header (m : Message) (name : String) : Option String :=
  (m.headers.find? (fun entry => sameIgnoringCase entry.1.toList name.toList)).map
    (fun entry => entry.2)

def cseq (m : Message) : Option UInt32 :=
  (m.header "cseq").bind (fun value =>
    (number 10 (2 ^ 32) (trim value.toList)).map UInt32.ofNat)

def method (m : Message) : Option String :=
  match m.start with
  | .request method _ => some method
  | .response _ _ => none

def status (m : Message) : Option Nat :=
  match m.start with
  | .request _ _ => none
  | .response status _ => some status

def addHeader (m : Message) (name value : String) : Message :=
  { m with headers := m.headers ++ [(name, value)] }

def startText : StartLine → String
  | .request method uri => method ++ " " ++ uri ++ " RTSP/1.0\r\n"
  | .response status reason => "RTSP/1.0 " ++ toString status ++ " " ++ reason ++ "\r\n"

def headerText (entry : String × String) : String := entry.1 ++ ": " ++ entry.2 ++ "\r\n"

def contentText (body : String) : String :=
  if body = "" then ""
  else "Content-Type: text/parameters\r\nContent-Length: " ++ toString body.utf8ByteSize ++ "\r\n"

def format (m : Message) : String :=
  startText m.start ++ String.join (m.headers.map headerText) ++ contentText m.body ++
    "\r\n" ++ m.body

end Message

def reasonFor (status : Nat) : String :=
  if status = 200 then "OK"
  else if status = 400 then "Bad Request"
  else if status = 404 then "Not Found"
  else if status = 454 then "Session Not Found"
  else if status = 503 then "Service Unavailable"
  else "Error"

def response (status : Nat) (cseq : UInt32) (body : String) : Message where
  start := .response status (reasonFor status)
  headers := [("CSeq", toString cseq.toNat)]
  body := body

def request (method uri : String) (cseq : UInt32) (body : String) : Message where
  start := .request method uri
  headers := [("CSeq", toString cseq.toNat)]
  body := body

@[simp] theorem method_request (method uri : String) (cseq : UInt32) (body : String) :
    (request method uri cseq body).method = some method := rfl

@[simp] theorem method_response (status : Nat) (cseq : UInt32) (body : String) :
    (response status cseq body).method = none := rfl

@[simp] theorem method_addHeader (m : Message) (name value : String) :
    (m.addHeader name value).method = m.method := rfl

@[simp] theorem status_request (method uri : String) (cseq : UInt32) (body : String) :
    (request method uri cseq body).status = none := rfl

@[simp] theorem status_response (status : Nat) (cseq : UInt32) (body : String) :
    (response status cseq body).status = some status := rfl

@[simp] theorem status_addHeader (m : Message) (name value : String) :
    (m.addHeader name value).status = m.status := rfl

@[simp] theorem body_addHeader (m : Message) (name value : String) :
    (m.addHeader name value).body = m.body := rfl

@[simp] theorem body_request (method uri : String) (cseq : UInt32) (body : String) :
    (request method uri cseq body).body = body := rfl

@[simp] theorem body_response (status : Nat) (cseq : UInt32) (body : String) :
    (response status cseq body).body = body := rfl

theorem header_first (m : Message) (key name value : String) (rest : List (String × String))
    (first : m.headers = (name, value) :: rest)
    (same : sameIgnoringCase name.toList key.toList = true) : m.header key = some value := by
  simp only [Message.header, first, List.find?_cons, same, Option.map_some]

theorem header_rest (m : Message) (key name value : String) (rest : List (String × String))
    (first : m.headers = (name, value) :: rest)
    (other : sameIgnoringCase name.toList key.toList = false) :
    m.header key = { m with headers := rest }.header key := by
  simp only [Message.header, first, List.find?_cons, other]

theorem cseq_first (m : Message) (cseq : UInt32) (rest : List (String × String))
    (first : m.headers = ("CSeq", toString cseq.toNat) :: rest) : m.cseq = some cseq := by
  have found := header_first m "cseq" "CSeq" (toString cseq.toNat) rest first (by decide)
  have plain : (toString cseq.toNat).toList = decimal cseq.toNat := by simp [decimal]
  rw [Message.cseq, found, Option.bind_some, plain, trim_decimal,
    number_decimal (2 ^ 32) _ cseq.toNat_lt]
  simp

@[simp] theorem cseq_request (method uri : String) (cseq : UInt32) (body : String) :
    (request method uri cseq body).cseq = some cseq := cseq_first _ cseq [] rfl

@[simp] theorem cseq_response (status : Nat) (cseq : UInt32) (body : String) :
    (response status cseq body).cseq = some cseq := cseq_first _ cseq [] rfl

theorem cseq_addHeader (m : Message) (name value : String) (cseq : UInt32)
    (rest : List (String × String)) (first : m.headers = ("CSeq", toString cseq.toNat) :: rest) :
    (m.addHeader name value).cseq = some cseq :=
  cseq_first _ cseq (rest ++ [(name, value)]) (by simp [Message.addHeader, first])

@[simp] theorem cseq_request_addHeader (method uri : String) (cseq : UInt32)
    (body name value : String) :
    ((request method uri cseq body).addHeader name value).cseq = some cseq :=
  cseq_addHeader _ name value cseq [] rfl

@[simp] theorem cseq_response_addHeader (status : Nat) (cseq : UInt32)
    (body name value : String) :
    ((response status cseq body).addHeader name value).cseq = some cseq :=
  cseq_addHeader _ name value cseq [] rfl

def findDoubleCrlf : List UInt8 → Option Nat
  | [] => none
  | b :: rest =>
      if [13, 10, 13, 10] <+: b :: rest then some 0
      else (findDoubleCrlf rest).map (fun place => place + 1)

def parseStartLine (line : List Char) : Except ParseError StartLine :=
  match stripPrefix "RTSP/1.0 ".toList line with
  | some rest =>
      let parts := (splitOnce ' ' rest).getD (rest, [])
      match number 10 (2 ^ 16) parts.1 with
      | some status => .ok (.response status (String.ofList parts.2))
      | none => .error (.malformedStartLine (String.ofList line))
  | none =>
      match line.splitOn ' ' with
      | method :: uri :: version :: _ =>
          if method ≠ [] ∧ "RTSP/".toList <+: version then
            .ok (.request (String.ofList method) (String.ofList uri))
          else .error (.malformedStartLine (String.ofList line))
      | _ => .error (.malformedStartLine (String.ofList line))

def parseHeaders : List (List Char) → Except ParseError (List (String × String))
  | [] => .ok []
  | line :: lines =>
      if line = [] then parseHeaders lines
      else
        match splitOnce ':' line with
        | none => .error (.malformedHeader (String.ofList line))
        | some parts =>
            (parseHeaders lines).map (fun headers =>
              (String.ofList (trim parts.1), String.ofList (trim parts.2)) :: headers)

def bodyLength (headers : List (String × String)) : Except ParseError Nat :=
  match headers.find? (fun entry => sameIgnoringCase entry.1.toList "content-length".toList) with
  | none => .ok 0
  | some entry =>
      match number 10 (2 ^ 64) (trim entry.2.toList) with
      | some length => .ok length
      | none => .error (.badContentLength entry.2)

/-- One message from the front of a buffer, with the bytes it takes; `none` asks for more. -/
def parse (buf : List UInt8) : Except ParseError (Option (Message × Nat)) :=
  match findDoubleCrlf buf with
  | none => if maxHeaderBytes < buf.length then .error (.messageTooLarge "header") else .ok none
  | some headEnd =>
      if maxHeaderBytes < headEnd then .error (.messageTooLarge "header")
      else do
        let head ← (String.fromUTF8? (buf.take headEnd).toByteArray).elim (.error .notUtf8) .ok
        let start ← parseStartLine ((splitCrlf head.toList).headD [])
        let headers ← parseHeaders ((splitCrlf head.toList).drop 1)
        let bodyLen ← bodyLength headers
        if maxBodyBytes < bodyLen then .error (.messageTooLarge "body")
        else if buf.length < headEnd + 4 + bodyLen then .ok none
        else do
          let body ← (String.fromUTF8? ((buf.drop (headEnd + 4)).take bodyLen).toByteArray).elim
            (.error .notUtf8) .ok
          .ok (some ({ start, headers, body }, headEnd + 4 + bodyLen))

end Castr.Miracast
