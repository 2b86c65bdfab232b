import Mathlib.Data.List.Basic

/-! A list shared out between two takers, each keeping its order. -/

namespace Castr.Lib.Sharing

variable {α : Type*}

inductive Shared : List α → List α → List α → Prop where
  | nil : Shared [] [] []
  | left (a : α) {all one other : List α} (rest : Shared all one other) :
      Shared (a :: all) (a :: one) other
  | right (a : α) {all one other : List α} (rest : Shared all one other) :
      Shared (a :: all) one (a :: other)

namespace Shared

theorem append {all one other all' one' other' : List α} (first : Shared all one other)
    (second : Shared all' one' other') :
    Shared (all ++ all') (one ++ one') (other ++ other') := by
  induction first with
  | nil => exact second
  | left a _ ih => exact ih.left a
  | right a _ ih => exact ih.right a

end Shared

end Castr.Lib.Sharing
