import TensorCalculus.Proofs.Layout.Limits
import TensorCalculus.Tensor.Axis

/-!
# Axes by number

An axis that is given as a whole number is compared with the rank, and a negative one is counted
from the last axis where that is admitted. What an operation along an axis gives is laid out in the
tensor's shape, if it can be. -/

namespace TensorCalculus

open TensorCalculus.Layout TensorCalculus.Outcome

/-- What a relation says of two whole numbers. -/
def Relation.holds (m n : Int) : Relation → Bool
  | less => m < n
  | atMost => m ≤ n
  | more => n < m
  | atLeast => n ≤ m

theorem Literal.stands_int_eq (r : Relation) (m n : Int) :
    stands r (.int m) (.int n) = .ok (r.holds m n) := by
  rw [stands_int]
  apply congrArg Except.ok
  rcases lt_trichotomy m n with less | rfl | more
  · rw [compareOfLessAndEq, if_pos less]
    cases r <;> simp [Relation.admits, Relation.holds, less, less.le, less.not_gt, less.not_ge]
  · rw [compareOfLessAndEq, if_neg (lt_irrefl _), if_pos rfl]
    cases r <;> simp [Relation.admits, Relation.holds]
  · rw [compareOfLessAndEq, if_neg more.not_gt, if_neg more.ne']
    cases r <;> simp [Relation.admits, Relation.holds, more, more.le, more.not_gt, more.not_ge]

namespace Tensor

/-- The axis that a whole number names, which may still be out of range. -/
def wrapped (axis : Int) (rank : Nat) : Int :=
  if 0 ≤ axis then axis else rank + axis

theorem wrappedAxis_int (axis : Int) (rank : Nat) :
    wrappedAxis (.int axis) rank = .ok (.int (wrapped axis rank)) := by
  rw [wrappedAxis, Literal.stands_int_eq, ok_bind, Relation.holds, wrapped]
  by_cases counted : 0 ≤ axis
  · rw [if_pos (decide_eq_true counted), if_pos counted]
    rfl
  · rw [if_neg (by simpa using counted), if_neg counted, Literal.add_int]

theorem isWithin_int (limit value : Int) :
    isWithin limit (.int value) = .ok (decide (0 ≤ value ∧ value < limit)) := by
  rw [isWithin, Literal.stands_int_eq, ok_bind, Relation.holds]
  by_cases counted : 0 ≤ value
  · rw [if_pos (decide_eq_true counted), Literal.stands_int_eq, Relation.holds]
    simp only [counted, true_and]
  · rw [if_neg (by simpa using counted), pure_eq_ok, decide_eq_false fun within => counted within.1]

theorem axisWithin_int (axis : Int) (rank : Nat) :
    axisWithin (.int axis) rank =
      if 0 ≤ axis ∧ axis < rank then .ok axis.toNat
      else .error (.value (.axis (Literal.int axis).shown rank)) := by
  rw [axisWithin, isWithin_int, ok_bind]
  simp only [decide_eq_true_eq]
  rfl

theorem checkLayout_eq_ok_iff {α : Type} {t : Tensor α} : t.checkLayout = .ok () ↔
    Addressable t.shape := by
  rw [checkLayout, t.size_data]
  exact checkRegrouping_volume_iff

end Tensor

end TensorCalculus
