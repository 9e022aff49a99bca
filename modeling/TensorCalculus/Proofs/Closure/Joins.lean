import TensorCalculus.Closure
import TensorCalculus.Proofs.Contraction.Requests

/-!
# Joins of matrices

The join of two square matrices over their middle value is their product, whatever the sum and the
product are. It takes no more room than its operands, so only a limit on the assignments can keep it
from being carried out. -/

namespace TensorCalculus.Closure

open TensorCalculus.Layout TensorCalculus.Outcome
open Factor

variable {ε K τ : Type}

/-- What the join multiplies. -/
def joinFactors (current relation : Tensor ε) : List (Factor ε) :=
  [(['x', 'y'], current), (['y', 'z'], relation)]

/-- Whether the settings admit the assignments that the join of two matrices with `n` values goes
through. -/
def admitsJoin (settings : Settings τ) (n : Nat) : Except Fault Unit := do
  let p ← Plan.resolve joining [[n, n], [n, n]] settings.repetition
  p.checkLimit settings.sizeLimit

theorem exists_joinPlan (settings : Settings τ) (n : Nat) :
    ∃ p, Plan.resolve joining [[n, n], [n, n]] settings.repetition = .ok p := by
  have fits : joining.Fits settings.repetition [[n, n], [n, n]] fun _ => n := by
    constructor
    · rfl
    · simp [joining]
    · simp [joining]
  obtain ⟨p, accepted, -⟩ := Plan.resolve_of_fits fits
  exact ⟨p, accepted⟩

theorem admitsJoin_of_unlimited {settings : Settings τ} (unlimited : settings.sizeLimit = none)
    (n : Nat) : admitsJoin settings n = .ok () := by
  obtain ⟨p, accepted⟩ := exists_joinPlan settings n
  rw [admitsJoin, accepted, ok_bind, unlimited]
  rfl

/-- A join is carried out by every runner that evaluates sums of products, unless the settings do
not admit it. -/
theorem exists_product [Zero ε] [CommSemiring K] {run : Runner ε} {lift : ε → K} {encode : K → ε}
    (evaluates : run.Evaluates lift encode) (settings : Settings τ) {relation current : Tensor ε}
    {n : Nat}
    (square : relation.shape = [n, n]) (same : current.shape = [n, n]) :
    ∃ t, contractWith run settings (.understood joining) [.real current, .real relation] none =
        (admitsJoin settings n >>= fun _ => .ok t) ∧
      t.shape = [n, n] ∧ ∀ x z, x < n → z < n →
        t.entry [x, z] = encode (∑ y ∈ Finset.range n,
          lift (current.entry [x, y]) * lift (relation.entry [y, z])) := by
  obtain ⟨p, planned⟩ := exists_joinPlan settings n
  have dims : (joinFactors current relation).map (·.2.dims) = [[(n : Int), n], [(n : Int), n]] := by
    simp [joinFactors, Tensor.dims, same, square]
  have segments : joining.inputs = (joinFactors current relation).map (·.1) := rfl
  have accepted :
      Plan.resolve joining ((joinFactors current relation).map (·.2.dims)) settings.repetition =
        .ok p := by
    rw [dims, planned]
  have sized : Sized (joinFactors current relation) fun _ => n := by
    simp [Sized, joinFactors, same, square]
  -- The output takes no more room than one operand, so the limit on assignments is all that can
  -- stand in the way.
  have affordable :
      Affordable { settings with sizeLimit := none } (joinFactors current relation) joining.output
      fun _ => n := by
    apply affordable_of_volume_le rfl List.mem_cons_self
    simp [joining, same]
  obtain ⟨-, checked⟩ := (affordable_iff segments accepted sized).1 affordable
  obtain ⟨t, ran, shape, entries⟩ :=
    evaluates.entries segments accepted (by decide) sized checked none
  refine ⟨t, ?_, shape, fun x z hx hz => ?_⟩
  · have asked : contractWith run settings (.understood joining)
        (operands (joinFactors current relation)) none = _ := contractWith_eq rfl none
    refine asked.trans ?_
    rw [Settings.plan, accepted, admitsJoin, planned, ok_bind, ok_bind]
    cases p.checkLimit settings.sizeLimit with
    | error fault => rfl
    | ok => exact ran
  · have contracted : joining.contracted = ['y'] := rfl
    rw [entries [x, z] ⟨hx, hz, trivial⟩, contracted, sumOver]
    congr 1
    apply Finset.sum_congr rfl
    intro y _
    simp [sumOver, product, joinFactors, joining, Assignment.value]

theorem expectSquare_of_shape {relation : Tensor ε} {n : Nat} (operation : String)
    (square : relation.shape = [n, n]) :
    expectSquare operation (.real relation) = .ok relation := by
  unfold expectSquare
  rw [Operand.expectReal, ok_bind, square]
  simp

theorem exists_pair_of_inRange {n : Nat} {c : List Nat} (inside : InRange [n, n] c) :
    ∃ x z, c = [x, z] ∧ x < n ∧ z < n := by
  cases c with
  | nil => exact inside.elim
  | cons x c =>
    cases c with
    | nil => exact inside.2.elim
    | cons z c =>
      cases c with
      | nil => exact ⟨x, z, rfl, inside.1, inside.2.1⟩
      | cons => exact inside.2.2.elim

end TensorCalculus.Closure
