import Mathlib.Tactic.Common
import TensorCalculus.Usage

/-!
# What disciplines allow

A use is allowed exactly where the guard says so beforehand, and every use is counted. Guards of
tensors that may be used once come to their limit in different ways: a linear or affine one is
consumed by its use, one branch of a choice is exhausted by it, and a bang guard never ends. -/

namespace TensorCalculus.Guard

variable {g : Guard} {name : String}

theorem use_of_canUse (usable : g.canUse = true) (name : String) : g.use name = .ok g.counted := by
  unfold use
  by_cases bang : g.discipline = .bang
  · rw [if_pos bang]
  · have fresh : g.consumed = false ∧ g.exhausted = false := by simpa [canUse, bang] using usable
    obtain ⟨unconsumed, unexhausted⟩ := fresh
    rw [if_neg bang, unconsumed, if_neg Bool.false_ne_true]
    unfold exhausted at unexhausted
    cases limited : g.limit with
    | none => rfl
    | some limit =>
      rw [limited] at unexhausted
      exact if_neg (of_decide_eq_false unexhausted)

/-- A use that is not allowed is refused for what makes it so. -/
theorem use_of_not_canUse (unusable : g.canUse = false) (name : String) :
    ∃ cause, g.use name = .error (.usage cause) := by
  obtain ⟨proper, spent⟩ : g.discipline ≠ .bang ∧ (g.consumed = false → g.exhausted = true) := by
    simpa [canUse] using unusable
  unfold use
  rw [if_neg proper]
  cases consumed : g.consumed with
  | true => exact ⟨_, if_pos rfl⟩
  | false =>
    have exhausted := spent consumed
    unfold Guard.exhausted at exhausted
    rw [if_neg Bool.false_ne_true]
    cases limited : g.limit with
    | none =>
      rw [limited] at exhausted
      cases exhausted
    | some limit =>
      rw [limited] at exhausted
      exact ⟨_, if_pos (of_decide_eq_true exhausted)⟩

theorem discard_of_keeps (keeps : g.discipline = .linear ∧ g.consumed = false) (name : String) :
    g.discard name = .error (.usage (.kept g.discipline.name name)) := by
  rw [discard, if_pos]
  simpa using keeps

theorem discard_of_gives (gives : g.discipline = .linear → g.consumed = true) (name : String) :
    g.discard name = .ok { g with consumed := true } := by
  rw [discard, if_neg]
  simpa using gives

end TensorCalculus.Guard

namespace TensorCalculus.Discipline

/-- Whether a use gives away the tensor itself, after which the guard has nothing left to guard. -/
def consumes : Discipline → Bool
  | linear | affine => true
  | bang | choice => false

end TensorCalculus.Discipline

namespace TensorCalculus.Guard

variable {g : Guard}

/-- A use is counted, and changes nothing else but that the guard may be consumed by it. -/
theorem counted_eq (g : Guard) :
    g.counted = (if g.discipline.consumes then .itself else .copy,
      { g with uses := g.uses + 1, consumed := g.consumed || g.discipline.consumes }) := by
  obtain ⟨discipline, uses, limit, consumed⟩ := g
  cases discipline <;> simp [counted, Discipline.consumes]

end TensorCalculus.Guard
