import Castr.Miracast.Negotiation

/-! What a SET_PARAMETER leaves behind. The lines are applied one at a time, so those before a
format that is refused stay applied. -/

namespace Castr.Miracast

open Castr.Lib.Text

namespace Negotiation

def readable (param : String × String) : Bool :=
  decide (param.1 ≠ "wfd_video_formats") || (parseChosenVideo param.2).isSome

/-- The lines that are applied: all up to the first format that is refused. -/
def applied (params : List (String × String)) : List (String × String) :=
  params.takeWhile readable

def modeOf (param : String × String) : Option VideoMode :=
  if param.1 = "wfd_video_formats" then parseChosenVideo param.2 else none

def urlOf (param : String × String) : Option String :=
  if param.1 = "wfd_presentation_URL" then some (String.ofList ((words param.2.toList).headD []))
  else none

/-- The last of the modes, and the last of the URLs, among the lines that are applied. -/
def lastMode (params : List (String × String)) : Option VideoMode :=
  ((applied params).filterMap modeOf).getLast?

def lastUrl (params : List (String × String)) : Option String :=
  ((applied params).filterMap urlOf).getLast?

def afterParameters (neg : Negotiation) (params : List (String × String)) : Negotiation :=
  { neg with
    chosen := (lastMode params).or neg.chosen
    presentationUrl := (lastUrl params).getD neg.presentationUrl }

theorem getLast?_cons_or {α : Type*} (first : α) (rest : List α) (before : Option α) :
    (first :: rest).getLast?.or before = rest.getLast?.or (some first) := by
  rw [List.getLast?_cons, Option.some_or]
  cases rest.getLast? <;> rfl

theorem afterParameters_refused (neg : Negotiation) (param : String × String)
    (params : List (String × String)) (bad : readable param = false) :
    neg.afterParameters (param :: params) = neg := by
  simp [afterParameters, lastMode, lastUrl, applied, bad]

theorem afterParameters_cons (neg : Negotiation) (param : String × String)
    (params : List (String × String)) (good : readable param = true) :
    neg.afterParameters (param :: params) =
      afterParameters { neg with
        chosen := (modeOf param).or neg.chosen
        presentationUrl := (urlOf param).getD neg.presentationUrl } params := by
  have front : applied (param :: params) = param :: applied params := by
    simp [applied, good]
  have chosen : (lastMode (param :: params)).or neg.chosen =
      (lastMode params).or ((modeOf param).or neg.chosen) := by
    rw [lastMode, front, List.filterMap_cons]
    cases modeOf param with
    | none => rfl
    | some mode => exact getLast?_cons_or mode _ neg.chosen
  have url : (lastUrl (param :: params)).getD neg.presentationUrl =
      (lastUrl params).getD ((urlOf param).getD neg.presentationUrl) := by
    rw [lastUrl, front, List.filterMap_cons]
    cases urlOf param with
    | none => rfl
    | some url => simp only [List.getLast?_cons, Option.getD_some, lastUrl]
  simp only [afterParameters, chosen, url]

theorem readParameters_eq (neg : Negotiation) (trigger : Option String)
    (params : List (String × String)) :
    neg.readParameters trigger params =
      if params.all readable then
        .ok (neg.afterParameters params, (triggerOf params).or trigger)
      else .error (neg.afterParameters params) := by
  induction params generalizing neg trigger with
  | nil => rfl
  | cons param params ih =>
      obtain ⟨name, value⟩ := param
      rw [readParameters, triggerOf_cons, List.all_cons]
      by_cases format : name = "wfd_video_formats"
      · subst format
        cases picked : parseChosenVideo value with
        | none =>
            have bad : readable ("wfd_video_formats", value) = false := by simp [readable, picked]
            simp [bad, afterParameters_refused]
        | some mode =>
            have good : readable ("wfd_video_formats", value) = true := by simp [readable, picked]
            rw [afterParameters_cons _ _ _ good, good, Bool.true_and]
            simp [ih, modeOf, urlOf, picked]
      · have good : readable (name, value) = true := by simp [readable, format]
        rw [afterParameters_cons _ _ _ good, good, Bool.true_and, if_neg format]
        by_cases address : name = "wfd_presentation_URL"
        · subst address
          simp [ih, modeOf, urlOf]
        · rw [if_neg address]
          by_cases method : name = "wfd_trigger_method"
          · subst method
            simp [ih, modeOf, urlOf]
          · simp [ih, modeOf, urlOf, format, address, method]

theorem onSetParameter_eq (neg : Negotiation) (cseq : UInt32) (m : Message) :
    neg.onSetParameter cseq m =
      if (parseParameterBody m.body).all readable then
        if triggerOf (parseParameterBody m.body) = some "SETUP" then
          ({ (neg.afterParameters (parseParameterBody m.body)).bump with state := .ready },
            [.send (response 200 cseq ""),
              .send (neg.afterParameters (parseParameterBody m.body)).setup])
        else (neg.afterParameters (parseParameterBody m.body), [.send (response 200 cseq "")])
      else (neg.afterParameters (parseParameterBody m.body), [.send (response 400 cseq "")]) := by
  unfold onSetParameter
  rw [readParameters_eq]
  cases (parseParameterBody m.body).all readable <;> simp

def Refused (out : List Action) : Prop := ∃ m ∈ sent out, m.status = some 400

/-- A message that is refused changes nothing of the session that is being agreed on. -/
def Atomic (neg : Negotiation) (cseq : UInt32) (m : Message) : Prop :=
  Refused (neg.onSetParameter cseq m).2 →
    (neg.onSetParameter cseq m).1.chosen = neg.chosen ∧
      (neg.onSetParameter cseq m).1.presentationUrl = neg.presentationUrl ∧
      (neg.onSetParameter cseq m).1.state = neg.state ∧
      (neg.onSetParameter cseq m).1.nextCseq = neg.nextCseq ∧
      (neg.onSetParameter cseq m).1.peerSession = neg.peerSession

theorem refused_iff (neg : Negotiation) (cseq : UInt32) (m : Message) :
    Refused (neg.onSetParameter cseq m).2 ↔ (parseParameterBody m.body).all readable = false := by
  rw [onSetParameter_eq]
  cases (parseParameterBody m.body).all readable with
  | false => simp [Refused, sent, Action.message, response, Message.status]
  | true =>
      simp only [if_true]
      split <;> simp [Refused, sent, Action.message, response, Message.status, setup, request,
        Message.addHeader]

/-- A refused message is atomic exactly if the lines before the refused format say nothing new. -/
theorem atomic_iff (neg : Negotiation) (cseq : UInt32) (m : Message) :
    Atomic neg cseq m ↔
      ((parseParameterBody m.body).all readable = true ∨
        (∀ mode, lastMode (parseParameterBody m.body) = some mode → neg.chosen = some mode) ∧
          ∀ url, lastUrl (parseParameterBody m.body) = some url → neg.presentationUrl = url) := by
  unfold Atomic
  rw [refused_iff, onSetParameter_eq]
  generalize parseParameterBody m.body = params
  cases params.all readable with
  | true => simp
  | false =>
      simp only [Bool.false_eq_true, if_false, false_or, forall_const, afterParameters,
        and_true]
      cases lastMode params <;> cases lastUrl params <;> simp [eq_comm]

def addressThenFormat : Message :=
  ⟨.request "SET_PARAMETER" "rtsp://localhost/wfd1.0", [("CSeq", "3")],
    "wfd_presentation_URL: rtsp://192.168.1.2/wfd1.0/streamid=0 none\r\n" ++
      "wfd_video_formats: 00 00 02 04 00010000 00000000 00000000 00 0000 0000 00 none none\r\n"⟩

def oneSink : Negotiation :=
  new ⟨.only720p30, .lpcm48kStereo, ⟨5000⟩, 8000, true, true⟩ "01234567"

/-- The message is refused, and the URL of it is kept. -/
theorem atomic_address_kept : ¬ ∀ neg cseq m, Atomic neg cseq m := by
  intro atomic
  have refused := (refused_iff oneSink 3 addressThenFormat).mpr (by decide +kernel)
  exact absurd (atomic oneSink 3 addressThenFormat refused).2.1 (by decide +kernel)

end Negotiation

end Castr.Miracast
