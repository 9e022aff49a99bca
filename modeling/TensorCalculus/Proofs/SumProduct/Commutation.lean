import TensorCalculus.Bulk.Run
import TensorCalculus.Proofs.Contraction.OperandOrder
import TensorCalculus.Proofs.SumProduct.Storage

/-!
# Arithmetic in any order

In exact arithmetic sums and products may be taken in any order: those of a commutative semiring,
and those of every member of the catalogue. No law connects the two here, so clamped sums and
products are no exception. The operands of a contraction may therefore be named in any order. -/

namespace TensorCalculus

open TensorCalculus.Outcome

variable {σ τ : Type}

/-- A fold may be taken in any order where its operation is associative and commutative. This may be
a part of the carrier only, as long as the fold does not leave it. -/
theorem foldl_perm {α : Type} {op : α → α → α} {within : α → Prop}
    (assoc : ∀ a b c, within a → within b → within c → op (op a b) c = op a (op b c))
    (comm : ∀ a b, within a → within b → op a b = op b a)
    (closed : ∀ a b, within a → within b → within (op a b))
    {xs ys : List α} (rearranged : xs.Perm ys) (inside : ∀ x ∈ xs, within x) {start : α}
    (hstart : within start) :
    xs.foldl op start = ys.foldl op start := by
  induction rearranged generalizing start with
  | nil => rfl
  | cons x _ ih =>
    obtain ⟨hx, inside⟩ := List.forall_mem_cons.1 inside
    exact ih inside (closed start x hstart hx)
  | swap x y xs =>
    obtain ⟨hy, inside⟩ := List.forall_mem_cons.1 inside
    obtain ⟨hx, -⟩ := List.forall_mem_cons.1 inside
    have swapped : op (op start y) x = op (op start x) y := by
      rw [assoc start y x hstart hy hx, comm y x hy hx, assoc start x y hstart hx hy]
    rw [List.foldl_cons, List.foldl_cons, swapped, List.foldl_cons, List.foldl_cons]
  | trans first _ ih ih' =>
    rw [ih inside hstart, ih' (fun x hx => inside x (first.mem_iff.2 hx)) hstart]

theorem real_orderless {K : Type} [CommSemiring K] : (Backend.real : Backend K K K).Orderless where
  combine_perm {xs ys} rearranged := by
    change xs.foldl (· * ·) 1 = ys.foldl (· * ·) 1
    rw [← List.prod_eq_foldl, ← List.prod_eq_foldl, rearranged.prod_eq]
  collect_perm rearranged :=
    rearranged.foldl_eq' (fun xs _ ys _ (cell : K) =>
      add_right_comm cell (xs.foldl (· * ·) 1) (ys.foldl (· * ·) 1)) _

namespace SumProduct

variable {s : SumProduct σ}

theorem reachable_combine (s : SumProduct σ) (values : List σ) :
    s.Reachable (s.backend.combine values) := by
  suffices from_ :
      ∀ a, s.Reachable a →
        s.Reachable (values.foldl (fun product x => s.mul product (s.lift x)) a) from
    from_ s.one .one
  induction values with
  | nil => exact fun _ ha => ha
  | cons x values ih => exact fun a ha => ih _ (.mul ha (.lift x))

namespace Monoids

variable (monoids : s.Monoids s.Reachable) {xs ys : List s.Carrier} (rearranged : xs.Perm ys)
  (reachable : ∀ x ∈ xs, s.Reachable x)
include monoids rearranged reachable

theorem sum_perm : s.sum xs = s.sum ys :=
  foldl_perm monoids.add_assoc monoids.add_comm (fun _ _ => .add) rearranged reachable .zero

theorem product_perm : s.product xs = s.product ys :=
  foldl_perm monoids.mul_assoc monoids.mul_comm (fun _ _ => .mul) rearranged reachable .one

end Monoids

/-- What is kept in cells may be collected in any order when storing it loses nothing. -/
theorem Stores.orderless {encode : s.Carrier → σ} {storable : s.Carrier → Prop}
    (stores : s.Stores encode storable) (monoids : s.Monoids s.Reachable) :
    s.backend.Orderless where
  combine_perm rearranged := by
    rw [backend_combine, backend_combine]
    refine monoids.product_perm (rearranged.map s.lift) fun x hx => ?_
    obtain ⟨value, -, rfl⟩ := List.mem_map.1 hx
    exact .lift value
  collect_perm {xss yss} rearranged := by
    have collected (zss : List (List σ)) :
        zss.foldl (fun cell xs => s.backend.accumulate cell (s.backend.combine xs))
          s.backend.blank = s.lower (s.sum (zss.map s.backend.combine)) := by
      rw [← stores.foldl_accumulate, List.foldl_map]
    rw [collected, collected, monoids.sum_perm (rearranged.map s.backend.combine)]
    intro x hx
    obtain ⟨xs, -, rfl⟩ := List.mem_map.1 hx
    exact s.reachable_combine xs

theorem Exact.orderless {encode : s.Carrier → σ} (exact : s.Exact encode) : s.backend.Orderless :=
  exact.stores.orderless (exact.monoids _)

theorem probabilistic_orderless : (probabilistic : SumProduct ℝ).backend.Orderless :=
  probabilistic_stores.orderless (probabilistic_monoids.mono fun _ => mem_unit_of_reachable)

end SumProduct

open SumProduct

/-- In exact arithmetic the operands of a contraction may be named in any order together with their
segments: by the loop in every commutative semiring, and under every sum and product of the
catalogue. -/
theorem operands_commute (settings : Settings τ) :
    (settings.strategy = .loop →
      ∀ (K : Type) [CommSemiring K] [BulkRoutine K], OperandsCommute (einsum (α := K) settings)) ∧
      ∀ c : Catalogue, OperandsCommute (semiringEinsum settings c.onReals) := by
  have underSums {β : Type} [Zero β] {s : SumProduct β} (orderless : s.backend.Orderless) :
      OperandsCommute (semiringEinsum settings s) :=
    (runSumProduct_orderless orderless).operandsCommute settings
  constructor
  · intro loop K _ _
    rw [einsum_eq_contractWith loop]
    exact (runReal_orderless real_orderless).operandsCommute settings
  · intro c
    cases c with
    | boolean => exact underSums (β := ℝ) Catalogue.boolean_real_exact.orderless
    | counting => exact underSums (β := ℝ) counting_exact.orderless
    | viterbi => exact underSums (β := ℝ) viterbi_exact.orderless
    | probabilistic => exact underSums (β := ℝ) probabilistic_orderless
    | minPlus => exact underSums (β := WithTop ℝ) minPlus_exact.orderless

def rowOfWeights : Tensor ℚ := ⟨"row", ["source"], [2], #[1, -1 / 2], rfl, rfl⟩

def squareOfWeights : Tensor ℚ := ⟨"square", ["source", "target"], [2, 2], #[0, 3, 4, 5], rfl, rfl⟩

noncomputable def rowOfChances : Tensor ℝ := ⟨"row", ["cause"], [2], #[1, 1], rfl, rfl⟩

noncomputable def squareOfChances : Tensor ℝ :=
  ⟨"square", ["cause", "effect"], [2, 2], #[1, 0, 1, 1], rfl, rfl⟩

/-- A row times a square, and the square before the row: the symbols appear in another order. -/
def rowFirst : Subscripts := { inputs := [['i'], ['i', 'j']], output := ['j'] }

def squareFirst : Subscripts := { inputs := [['i', 'j'], ['i']], output := ['j'] }

def plainSettings : Settings ℚ := { tolerance := 0 }

attribute [local instance] Bulk.routine

theorem operands_commute_rows :
    (∃ t,
        einsum plainSettings (.understood rowFirst) [.real rowOfWeights, .real squareOfWeights]
          none = .ok t ∧
        einsum plainSettings (.understood squareFirst) [.real squareOfWeights, .real rowOfWeights]
          none = .ok t) ∧
      ∃ t, semiringEinsum plainSettings (.probabilistic : SumProduct ℝ) (.understood rowFirst)
          [.real rowOfChances, .real squareOfChances] none = .ok t ∧
        semiringEinsum plainSettings (.probabilistic : SumProduct ℝ) (.understood squareFirst)
          [.real squareOfChances, .real rowOfChances] none = .ok t := by
  obtain ⟨loop, catalogue⟩ := operands_commute plainSettings
  have distinct : ['j'].Nodup := by decide
  constructor
  · have granted : (einsum plainSettings (.understood rowFirst)
        [.real rowOfWeights, .real squareOfWeights] none).toOption.isSome := by decide +kernel
    cases contracted : einsum plainSettings (.understood rowFirst)
        [.real rowOfWeights, .real squareOfWeights] none with
    | error => rw [contracted] at granted; cases granted
    | ok t =>
      exact ⟨t, rfl, loop rfl ℚ [(['i'], rowOfWeights), (['i', 'j'], squareOfWeights)] _ ['j'] _
        (.understood squareFirst) none t (.swap _ _ _) distinct ⟨_, rfl, rfl, rfl⟩
        ⟨_, rfl, rfl, rfl⟩ contracted⟩
  · have planned : plainSettings.planWording (.understood rowFirst)
        ([rowOfChances, squareOfChances].map Tensor.dims) =
          .ok ⟨rowFirst, [[2], [2, 2]], [('i', 2), ('j', 2)]⟩ := rfl
    obtain ⟨t, contracted, -⟩ :=
      probabilistic_stores.cellsAre plainSettings _ [rowOfChances, squareOfChances] _ none planned
        distinct
    exact ⟨t, contracted,
      catalogue .probabilistic [(['i'], rowOfChances), (['i', 'j'], squareOfChances)] _ ['j'] _
        (.understood squareFirst) none t (.swap _ _ _) distinct ⟨_, rfl, rfl, rfl⟩
        ⟨_, rfl, rfl, rfl⟩ contracted⟩

end TensorCalculus
