import Mathlib.Algebra.Group.Basic

/-! # Predictive coding

A sequence is stored as the differences between its elements and what is predicted for them from
the elements in front. -/

namespace PngDecode.Lib

variable {α : Type*} [AddGroup α]

/-- The elements behind `seen` as they are stored. -/
def residualsFrom (predict : List α → α) (seen : List α) : List α → List α
  | [] => []
  | x :: xs => (x - predict seen) :: residualsFrom predict (seen ++ [x]) xs

def restoredFrom (predict : List α → α) (seen : List α) : List α → List α
  | [] => []
  | d :: ds => (d + predict seen) :: restoredFrom predict (seen ++ [d + predict seen]) ds

theorem restoredFrom_residuals (predict : List α → α) (seen xs : List α) :
    restoredFrom predict seen (residualsFrom predict seen xs) = xs := by
  induction xs generalizing seen with
  | nil => rfl
  | cons x xs ih => rw [residualsFrom, restoredFrom, sub_add_cancel, ih]

end PngDecode.Lib
