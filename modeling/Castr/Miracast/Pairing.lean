import Mathlib.Algebra.Group.Nat.Defs
import Castr.Lib.Text

/-! The WPS PIN on the screen, and the registrar's window. -/

namespace Castr.Miracast

open Castr.Lib.Text (decimal)

def wpsRearm : Nat := 45 * 10 ^ 9

structure WpsWindow where
  last : Option Nat
  deriving DecidableEq, Repr

namespace WpsWindow

def new : WpsWindow := ⟨none⟩

def due (window : WpsWindow) (now : Nat) :
    Bool := window.last.all (fun last => wpsRearm ≤ now - last)

def armed (now : Nat) : WpsWindow := ⟨some now⟩

end WpsWindow

def weightedDigits (accum pin : Nat) : Nat :=
  if pin = 0 then accum
  else weightedDigits (accum + 3 * (pin % 10) + pin / 10 % 10) (pin / 100)
termination_by pin

def checksum (pin : Nat) : Nat := (10 - weightedDigits 0 pin % 10) % 10

def pinFrom (entropy : UInt32) : String :=
  let value := entropy.toNat % 10000000
  let shown := decimal value
  String.ofList (List.replicate (7 - shown.length) '0' ++ shown ++ decimal (checksum value))

inductive Show where
  | pin (pin : String)
  | clear
  | nothing
  deriving DecidableEq, Repr

structure Pairing where
  pin : Option String
  deriving DecidableEq, Repr

namespace Pairing

def new : Pairing := ⟨none⟩

def groupUp (pairing : Pairing) (entropy : UInt32) : Pairing × Show :=
  match pairing.pin with
  | some _ => (pairing, .nothing)
  | none => (⟨some (pinFrom entropy)⟩, .pin (pinFrom entropy))

def provisioning (pairing : Pairing) (entropy : UInt32) : Pairing × Show :=
  pairing.groupUp entropy

def failed (entropy : UInt32) : Pairing × Show := groupUp ⟨none⟩ entropy

def joined (pairing : Pairing) : Pairing × Show :=
  match pairing.pin with
  | some _ => (⟨none⟩, .clear)
  | none => (pairing, .nothing)

end Pairing

end Castr.Miracast
