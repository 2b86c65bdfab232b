import Mathlib.Data.List.Infix
import Mathlib.Logic.Function.Basic

/-! Files that are replaced as a whole: the new content goes to a temporary file, which then takes
the place of the old one. A replacement may be cut short anywhere, and so may a file that is
overwritten in its place. -/

namespace Castr.Lib.Replacing

variable {Path Byte : Type*} [DecidableEq Path]

abbrev Disk (Path Byte : Type*) := Path → Option (List Byte)

inductive Cut (Byte : Type*) where
  | unopened
  /-- The temporary file holds something, but not yet for certain the content. -/
  | writing (content : List Byte)
  | synced
  /-- The old file has been taken away, to make room. -/
  | removed
  | done
  deriving DecidableEq

def replace (disk : Disk Path Byte) (path tmp : Path) (data : List Byte) :
    Cut Byte → Disk Path Byte
  | .unopened => disk
  | .writing content => Function.update disk tmp (some content)
  | .synced => Function.update disk tmp (some data)
  | .removed => Function.update (Function.update disk tmp (some data)) path none
  | .done => Function.update (Function.update disk tmp none) path (some data)

variable (disk : Disk Path Byte) {path tmp : Path} (data : List Byte)

theorem replace_other (cut : Cut Byte) {other : Path} (apart : other ≠ path)
    (beside : other ≠ tmp) : replace disk path tmp data cut other = disk other := by
  cases cut <;> simp [replace, apart, beside]

theorem replace_cases (cut : Cut Byte) (apart : path ≠ tmp) :
    (cut = .done ∧ replace disk path tmp data cut path = some data) ∨
      (cut = .removed ∧ replace disk path tmp data cut path = none) ∨
      (cut ≠ .done ∧ replace disk path tmp data cut path = disk path) := by
  cases cut <;> simp [replace, apart]

theorem replace_done :
    replace disk path tmp data .done path = some data := by
  simp [replace]

/-- Where an overwriting ends: the file is emptied first. -/
inductive Overwrite where
  | unopened
  | cut (kept : Nat)
  | done
  deriving DecidableEq

def overwrite {Byte : Type*} (old new : List Byte) : Overwrite → List Byte
  | .unopened => old
  | .cut kept => new.take kept
  | .done => new

theorem overwrite_cases {Byte : Type*} (old new : List Byte) (how : Overwrite) :
    overwrite old new how = old ∨ overwrite old new how <+: new := by
  cases how with
  | unopened => exact .inl rfl
  | cut kept => exact .inr (List.take_prefix kept new)
  | done => exact .inr List.prefix_rfl

end Castr.Lib.Replacing
