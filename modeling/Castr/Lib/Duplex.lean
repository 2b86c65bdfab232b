import Mathlib.Data.List.Basic

/-! Two machines joined by two channels that lose nothing and keep the order.

What a channel holds is described by the part of a script it carries: some messages stand for
the next word of the script, the others stand for nothing. -/

namespace Castr.Lib.Duplex

structure Machine (State Message Action Time : Type*) where
  receive : State → Message → Time → State × List Action
  tick : State → Time → State × List Action

/-- The two ends, and the messages on their way to each. -/
structure Link (Left Right Message : Type*) where
  left : Left
  right : Right
  toLeft : List Message
  toRight : List Message

inductive Move (Time : Type*) where
  | deliverLeft (now : Time)
  | deliverRight (now : Time)
  | tickLeft (now : Time)
  | tickRight (now : Time)
  deriving DecidableEq, Repr

section Composition

variable {Left Right Message Action Time : Type*}
variable (left : Machine Left Message Action Time) (right : Machine Right Message Action Time)
variable (sends : List Action → List Message)

def leftActs (link : Link Left Right Message) (result : Left × List Action) :
    Link Left Right Message × (List Action × List Action) :=
  ({ link with left := result.1, toRight := link.toRight ++ sends result.2 }, (result.2, []))

def rightActs (link : Link Left Right Message) (result : Right × List Action) :
    Link Left Right Message × (List Action × List Action) :=
  ({ link with right := result.1, toLeft := link.toLeft ++ sends result.2 }, ([], result.2))

/-- One end acts, and what it sends joins the other's channel. -/
def step (link : Link Left Right Message) :
    Move Time → Link Left Right Message × (List Action × List Action)
  | .deliverLeft now =>
      match link.toLeft with
      | [] => (link, ([], []))
      | m :: rest =>
          leftActs sends { link with toLeft := rest } (left.receive link.left m now)
  | .deliverRight now =>
      match link.toRight with
      | [] => (link, ([], []))
      | m :: rest =>
          rightActs sends { link with toRight := rest } (right.receive link.right m now)
  | .tickLeft now => leftActs sends link (left.tick link.left now)
  | .tickRight now => rightActs sends link (right.tick link.right now)

end Composition

section Channels

variable {Message Word : Type*} {Aside : Message → Prop} {Means : Word → Message → Prop}

/-- The messages of a channel carry the words of a script, among others said aside. -/
inductive Carries (Aside : Message → Prop) (Means : Word → Message → Prop) :
    List Message → List Word → Prop where
  | nil : Carries Aside Means [] []
  | aside (m : Message) (messages : List Message) (words : List Word) (said : Aside m)
      (rest : Carries Aside Means messages words) : Carries Aside Means (m :: messages) words
  | word (m : Message) (messages : List Message) (word : Word) (words : List Word)
      (meant : Means word m) (rest : Carries Aside Means messages words) :
      Carries Aside Means (m :: messages) (word :: words)

theorem carries_append (front back : List Message) (first second : List Word)
    (before : Carries Aside Means front first) (after : Carries Aside Means back second) :
    Carries Aside Means (front ++ back) (first ++ second) := by
  induction before with
  | nil => exact after
  | aside m messages words said rest ih => exact .aside m _ _ said ih
  | word m messages word words meant rest ih => exact .word m _ word _ meant ih

theorem carries_next (m : Message) (rest : List Message) (script : List Word)
    (carries : Carries Aside Means (m :: rest) script) :
    (Aside m ∧ Carries Aside Means rest script) ∨
      ∃ word words, script = word :: words ∧ Means word m ∧ Carries Aside Means rest words := by
  cases carries with
  | aside m messages words said rest => exact Or.inl ⟨said, rest⟩
  | word m messages word words meant rest => exact Or.inr ⟨word, words, rfl, meant, rest⟩

theorem carries_mono (Wider : Message → Prop) (wider : ∀ m, Aside m → Wider m)
    (messages : List Message) (words : List Word) (carries : Carries Aside Means messages words) :
    Carries Wider Means messages words := by
  induction carries with
  | nil => exact .nil
  | aside m messages words said rest ih => exact .aside m _ _ (wider m said) ih
  | word m messages word words meant rest ih => exact .word m _ word _ meant ih

end Channels

end Castr.Lib.Duplex
