import TensorCalculus.Bulk.Run
import TensorCalculus.Einsum
import TensorCalculus.Proofs.Contraction.Simulation

/-!
# Counting is the real contraction

The contraction under the usual sum and product lifts and lowers every cell, and the real one does
neither. Still both do the same operations in the same order, so that they agree whatever sum and
product may be: nothing is said here about associativity, about neutral elements, or about what
numbers there are. -/

namespace TensorCalculus

open TensorCalculus.Outcome

variable {α τ : Type} [Zero α] [One α] [Add α] [Mul α]

namespace SumProduct

/-- Each step does to stored cells what the real step does to plain ones. -/
theorem counting_followsAt (values : List α) :
    (counting : SumProduct α).backend.FollowsAt .real id .ok values := by
  intro cell
  rw [List.map_id]
  rfl

/-- The loop stores what the real loop holds, and fails where that one fails. -/
theorem run_counting (p : Plan) (buffers : List (Array α)) :
    Contraction.run (counting : SumProduct α).backend p buffers =
      Array.map .ok <$> Contraction.run .real p buffers := by
  have run : Contraction.run (counting : SumProduct α).backend p (buffers.map (·.map id)) =
      Array.map .ok <$> Contraction.run .real p buffers :=
    Contraction.run_map_of_followsAt rfl fun _ _ values _ => counting_followsAt values
  simpa using run

end SumProduct

/-- A plan runs under the usual sum and product as it runs over the numbers. -/
theorem Plan.runSumProduct_counting [BulkRoutine α] (p : Plan) (tensors : List (Tensor α))
    (name : Option String) :
    p.runSumProduct .counting tensors name = p.runReal tensors .loop name := by
  rw [runSumProduct, runReal, SumProduct.run_counting]
  cases p.checkOutput with
  | error fault => rfl
  | ok =>
    cases Contraction.run .real p (tensors.map (·.data)) with
    | error fault => rfl
    | ok data => simp only [ok_bind, Except.map_ok, array_mapM_id_ok]

/-- With the loop as strategy, counting and the real contraction give the same tensor or the same
fault, under every sum and product that elements may have. -/
theorem counting_eq_einsum [BulkRoutine α] {settings : Pending (Settings τ)}
    (loop : ∀ valid, settings = .ok valid → valid.strategy = .loop) (wording : Wording)
    (operands : List (Operand α))
    (name : Option String) :
    (do semiringEinsum (← settings) .counting wording operands name) =
      (do einsum (← settings) wording operands name) := by
  cases settings with
  | error fault => rfl
  | ok valid =>
    simp only [ok_bind, semiringEinsum, einsum, Plan.runSumProduct_counting, loop valid rfl]

/-- A double whose double is too large, and a tenth. -/
def largeAndTenth : Tensor Float :=
  ⟨"scales", ["scale", "term"], [1, 2], #[.ofBits 0x7fe0000000000000, .ofBits 0x3fb999999999999a],
    rfl, rfl⟩

def unboundedColumns : Tensor Float :=
  ⟨"columns", ["term", "total"], [2, 2], #[2, 0, .ofBits 0xfff0000000000000, 3], rfl, rfl⟩

attribute [local instance] Bulk.routine

/-- Infinite products of both signs, whose sum is no number, and a product that is rounded. -/
theorem counting_eq_einsum_unbounded :
    ∃ t, semiringEinsum ({ tolerance := 0 } : Settings ℚ) .counting (.written (.text "ij,jk->ik"))
          [.real largeAndTenth, .real unboundedColumns] none = .ok t ∧
      einsum ({ tolerance := 0 } : Settings ℚ) (.written (.text "ij,jk->ik"))
          [.real largeAndTenth, .real unboundedColumns] none = .ok t ∧
      t.data.map Float.isNaN = #[true, false] ∧
      t.data[1]?.map Float.toBits = some 0x3fd3333333333334 := by
  let settings : Settings ℚ := { tolerance := 0 }
  have loop : ∀ valid, Except.ok (ε := Fault) settings = .ok valid → valid.strategy = .loop := by
    rintro _ ⟨⟩
    rfl
  have same :=
    counting_eq_einsum loop (.written (.text "ij,jk->ik"))
      [.real largeAndTenth, .real unboundedColumns] none
  have computed :
      (einsum settings (.written (.text "ij,jk->ik"))
          [.real largeAndTenth, .real unboundedColumns] none).toOption.map
        (fun t => (t.data.map Float.isNaN, t.data[1]?.map Float.toBits)) =
      some (#[true, false], some 0x3fd3333333333334) := by decide +kernel
  cases found : einsum settings (.written (.text "ij,jk->ik"))
      [.real largeAndTenth, .real unboundedColumns] none with
  | error fault =>
    rw [found] at computed
    cases computed
  | ok t =>
    rw [found] at computed
    obtain ⟨invalid, rounded⟩ := Prod.ext_iff.1 (Option.some.inj computed)
    exact ⟨t, same.trans found, rfl, invalid, rounded⟩

end TensorCalculus
