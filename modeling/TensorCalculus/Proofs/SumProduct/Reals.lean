import TensorCalculus.Catalogue
import TensorCalculus.Proofs.SumProduct.Semirings

/-!
# The catalogue over the real numbers

In exact arithmetic every member of the catalogue adds and multiplies in commutative monoids, and
zero annihilates. Four of the members are semirings. The fifth, whose sums are cut off at one, is
not: a product distributes over a sum that is not cut off, and otherwise only when its first factor
is zero or one. -/

namespace TensorCalculus

namespace Catalogue

/-- What tensors hold in exact arithmetic: real numbers, and where they are lengths, infinity as
well. -/
def Stored : Catalogue → Type
  | boolean => ℝ
  | counting => ℝ
  | viterbi => ℝ
  | probabilistic => ℝ
  | minPlus => WithTop ℝ

/-- The number that has a given logarithm; bottom is the logarithm of zero. -/
noncomputable def antilog : WithBot ℝ → ℝ
  | ⊥ => 0
  | (x : ℝ) => Real.exp x

noncomputable def realScale : SumProduct.LogScale ℝ (WithBot ℝ) where
  log x := (Real.log x : ℝ)
  exp x := .ok (antilog x)
  bottom := ⊥

/-- The members of the catalogue in exact arithmetic. -/
noncomputable def onReals : (c : Catalogue) → SumProduct c.Stored
  | boolean => (.boolean : SumProduct ℝ)
  | counting => (.counting : SumProduct ℝ)
  | viterbi => (.viterbi realScale : SumProduct ℝ)
  | probabilistic => (.probabilistic : SumProduct ℝ)
  | minPlus => (.minPlus ⊤ : SumProduct (WithTop ℝ))

theorem antilog_coe (x : ℝ) : antilog x = Real.exp x := rfl

theorem antilog_strictMono : StrictMono antilog := by
  intro a b less
  cases b with
  | bot => exact absurd less not_lt_bot
  | coe y =>
    cases a with
    | bot => exact Real.exp_pos y
    | coe x => exact Real.exp_lt_exp.2 (WithBot.coe_lt_coe.1 less)

theorem antilog_add (a b : WithBot ℝ) : antilog (a + b) = antilog a * antilog b := by
  cases a with
  | bot => exact (zero_mul _).symm
  | coe x =>
    cases b with
    | bot => exact (mul_zero _).symm
    | coe y => exact Real.exp_add x y

end Catalogue

open Catalogue

section Comparisons

variable {α : Type} [LinearOrder α]

theorem greater_eq_max (a b : α) : greater a b = max a b := by
  rw [greater, max_def]
  by_cases less : a < b
  · rw [if_pos less, if_pos less.le]
  · by_cases same : a ≤ b
    · rw [if_neg less, if_pos same, le_antisymm same (not_lt.1 less)]
    · rw [if_neg less, if_neg same]

end Comparisons

namespace SumProduct

variable {σ : Type}

/-- Best probabilities are those of the greatest sums of logarithms. -/
theorem viterbi_exact : (viterbi realScale).Exact antilog where
  add_assoc (a b c : WithBot ℝ) := by
    change greater (greater a b) c = greater a (greater b c)
    simp only [greater_eq_max, max_assoc]
  add_comm (a b : WithBot ℝ) := by
    change greater a b = greater b a
    simp only [greater_eq_max, max_comm]
  zero_add (a : WithBot ℝ) := by
    change greater ⊥ a = a
    rw [greater_eq_max, max_eq_right bot_le]
  mul_assoc (a b c : WithBot ℝ) := add_assoc a b c
  mul_comm (a b : WithBot ℝ) := add_comm a b
  one_mul (a : WithBot ℝ) := zero_add a
  zero_mul (a : WithBot ℝ) := WithBot.bot_add a
  mul_add (a b c : WithBot ℝ) := by
    change a + greater b c = greater (a + b) (a + c)
    simp only [greater_eq_max, max_add_add_left]
  lower_eq (a : WithBot ℝ) := by
    change (if a == ⊥ then Except.ok 0 else .ok (antilog a)) = .ok (antilog a)
    split
    case isTrue bottom => rw [eq_of_beq bottom]; rfl
    case isFalse => rfl
  lift_encode (a : WithBot ℝ) := by
    change (if 0 < antilog a then (Real.log (antilog a) : WithBot ℝ) else ⊥) = a
    cases a with
    | bot => exact if_neg (lt_irrefl 0)
    | coe x => rw [antilog_coe, if_pos (Real.exp_pos x), Real.log_exp]

/-- What can be reached from stored numbers, zero and one by sums and products. -/
inductive Reachable (s : SumProduct σ) : s.Carrier → Prop
  | lift (x : σ) : Reachable s (s.lift x)
  | zero : Reachable s s.zero
  | one : Reachable s s.one
  | add {a b : s.Carrier} : Reachable s a → Reachable s b → Reachable s (s.add a b)
  | mul {a b : s.Carrier} : Reachable s a → Reachable s b → Reachable s (s.mul a b)

/-- Whether sum and product are commutative monoids on a part of the carrier, where zero
annihilates. -/
structure Monoids (s : SumProduct σ) (within : s.Carrier → Prop) : Prop where
  add_assoc : ∀ a b c, within a → within b → within c → s.add (s.add a b) c = s.add a (s.add b c)
  add_comm : ∀ a b, within a → within b → s.add a b = s.add b a
  zero_add : ∀ a, within a → s.add s.zero a = a
  mul_assoc : ∀ a b c, within a → within b → within c → s.mul (s.mul a b) c = s.mul a (s.mul b c)
  mul_comm : ∀ a b, within a → within b → s.mul a b = s.mul b a
  one_mul : ∀ a, within a → s.mul s.one a = a
  zero_mul : ∀ a, within a → s.mul s.zero a = s.zero

theorem Monoids.mono {s : SumProduct σ} {within among : s.Carrier → Prop}
    (monoids : s.Monoids among) (subset : ∀ a, within a → among a) : s.Monoids within where
  add_assoc a b c ha hb hc := monoids.add_assoc a b c (subset a ha) (subset b hb) (subset c hc)
  add_comm a b ha hb := monoids.add_comm a b (subset a ha) (subset b hb)
  zero_add a ha := monoids.zero_add a (subset a ha)
  mul_assoc a b c ha hb hc := monoids.mul_assoc a b c (subset a ha) (subset b hb) (subset c hc)
  mul_comm a b ha hb := monoids.mul_comm a b (subset a ha) (subset b hb)
  one_mul a ha := monoids.one_mul a (subset a ha)
  zero_mul a ha := monoids.zero_mul a (subset a ha)

/-- Whether a product distributes over a sum. -/
def Distributes (s : SumProduct σ) (a b c : s.Carrier) : Prop :=
  s.mul a (s.add b c) = s.add (s.mul a b) (s.mul a c)

theorem Exact.monoids {s : SumProduct σ} {encode : s.Carrier → σ} (exact : s.Exact encode)
    (within : s.Carrier → Prop) : s.Monoids within where
  add_assoc a b c _ _ _ := exact.add_assoc a b c
  add_comm a b _ _ := exact.add_comm a b
  zero_add a _ := exact.zero_add a
  mul_assoc a b c _ _ _ := exact.mul_assoc a b c
  mul_comm a b _ _ := exact.mul_comm a b
  one_mul a _ := exact.one_mul a
  zero_mul a _ := exact.zero_mul a

section Probabilistic

theorem clampUnit_eq (x : ℝ) : clampUnit x = min 1 (max 0 x) := by
  rw [clampUnit, lesser_eq_min, greater_eq_max]

theorem clampUnit_mem (x : ℝ) : clampUnit x ∈ Set.Icc (0 : ℝ) 1 := by
  rw [clampUnit_eq]
  exact ⟨le_min zero_le_one (le_max_left 0 x), min_le_left _ _⟩

theorem clampUnit_of_nonneg {x : ℝ} (nonneg : 0 ≤ x) : clampUnit x = min 1 x := by
  rw [clampUnit_eq, max_eq_right nonneg]

theorem clampUnit_of_mem {x : ℝ} (inside : x ∈ Set.Icc (0 : ℝ) 1) : clampUnit x = x := by
  rw [clampUnit_of_nonneg inside.1, min_eq_right inside.2]

theorem mul_mem_unit {a b : ℝ} (ha : a ∈ Set.Icc (0 : ℝ) 1) (hb : b ∈ Set.Icc (0 : ℝ) 1) :
    a * b ∈ Set.Icc (0 : ℝ) 1 :=
  ⟨mul_nonneg ha.1 hb.1, mul_le_one₀ ha.2 hb.1 hb.2⟩

theorem mem_unit_of_reachable {a : (probabilistic : SumProduct ℝ).Carrier}
    (reachable : Reachable _ a) : a ∈ Set.Icc (0 : ℝ) 1 := by
  cases reachable with
  | lift x => exact clampUnit_mem x
  | zero => exact ⟨le_rfl, zero_le_one⟩
  | one => exact ⟨zero_le_one, le_rfl⟩
  | add => exact clampUnit_mem _
  | mul => exact clampUnit_mem _

/-- Clamped sums and products are commutative monoids on the unit interval. -/
theorem probabilistic_monoids : (probabilistic : SumProduct ℝ).Monoids fun a =>
    a ∈ Set.Icc (0 : ℝ) 1 where
  add_assoc (a b c : ℝ) ha hb hc := by
    change clampUnit (clampUnit (a + b) + c) = clampUnit (a + clampUnit (b + c))
    have hab := add_nonneg ha.1 hb.1
    have hbc := add_nonneg hb.1 hc.1
    rw [clampUnit_of_nonneg hab, clampUnit_of_nonneg hbc,
      clampUnit_of_nonneg (add_nonneg (le_min zero_le_one hab) hc.1),
      clampUnit_of_nonneg (add_nonneg ha.1 (le_min zero_le_one hbc)), min_add,
      add_min, ← min_assoc, ← min_assoc,
      min_eq_left (le_add_of_nonneg_right hc.1), min_eq_left (le_add_of_nonneg_left ha.1),
      add_assoc]
  add_comm (a b : ℝ) _ _ := by
    change clampUnit (a + b) = clampUnit (b + a)
    rw [add_comm]
  zero_add (a : ℝ) ha := by
    change clampUnit (0 + a) = a
    rw [zero_add, clampUnit_of_mem ha]
  mul_assoc (a b c : ℝ) ha hb hc := by
    change clampUnit (clampUnit (a * b) * c) = clampUnit (a * clampUnit (b * c))
    rw [clampUnit_of_mem (mul_mem_unit ha hb), clampUnit_of_mem (mul_mem_unit hb hc), mul_assoc]
  mul_comm (a b : ℝ) _ _ := by
    change clampUnit (a * b) = clampUnit (b * a)
    rw [mul_comm]
  one_mul (a : ℝ) ha := by
    change clampUnit (1 * a) = a
    rw [one_mul, clampUnit_of_mem ha]
  zero_mul (a : ℝ) ha := by
    change clampUnit (0 * a) = 0
    rw [zero_mul, clampUnit_of_mem ⟨le_rfl, zero_le_one⟩]

theorem clampUnit_mul_clampUnit_add {a b c : ℝ} (ha : a ∈ Set.Icc (0 : ℝ) 1)
    (hb : b ∈ Set.Icc (0 : ℝ) 1) (hc : c ∈ Set.Icc (0 : ℝ) 1) :
    clampUnit (a * clampUnit (b + c)) = a * min 1 (b + c) := by
  rw [clampUnit_of_mem (mul_mem_unit ha (clampUnit_mem _)),
    clampUnit_of_nonneg (add_nonneg hb.1 hc.1)]

theorem clampUnit_add_clampUnit_mul {a b c : ℝ} (ha : a ∈ Set.Icc (0 : ℝ) 1)
    (hb : b ∈ Set.Icc (0 : ℝ) 1) (hc : c ∈ Set.Icc (0 : ℝ) 1) :
    clampUnit (clampUnit (a * b) + clampUnit (a * c)) = min 1 (a * (b + c)) := by
  have hab := mul_mem_unit ha hb
  have hac := mul_mem_unit ha hc
  rw [clampUnit_of_mem hab, clampUnit_of_mem hac, clampUnit_of_nonneg (add_nonneg hab.1 hac.1),
    mul_add]

/-- A product distributes over a clamped sum when nothing is cut off, and otherwise only if its
first factor is zero or one: everything else makes the two sides differ by what the clamp takes away
before or after it. -/
theorem probabilistic_distributes_iff {a b c : ℝ} (ha : a ∈ Set.Icc (0 : ℝ) 1)
    (hb : b ∈ Set.Icc (0 : ℝ) 1) (hc : c ∈ Set.Icc (0 : ℝ) 1) :
    (probabilistic : SumProduct ℝ).Distributes a b c ↔ b + c ≤ 1 ∨ a = 0 ∨ a = 1 := by
  change clampUnit (a * clampUnit (b + c)) = clampUnit (clampUnit (a * b) + clampUnit (a * c)) ↔ _
  rw [clampUnit_mul_clampUnit_add ha hb hc, clampUnit_add_clampUnit_mul ha hb hc]
  rcases le_or_gt (b + c) 1 with within | beyond
  · have product : a * (b + c) ≤ 1 := mul_le_one₀ ha.2 (add_nonneg hb.1 hc.1) within
    rw [min_eq_right within, min_eq_right product]
    simp [within]
  · rw [min_eq_left beyond.le, mul_one]
    constructor
    · intro same
      by_contra! neither
      obtain ⟨-, positive, proper⟩ := neither
      have less : a < min 1 (a * (b + c)) :=
        lt_min (lt_of_le_of_ne ha.2 proper)
          (lt_mul_of_one_lt_right (lt_of_le_of_ne ha.1 positive.symm) beyond)
      exact less.ne same
    · rintro (within | rfl | rfl)
      · exact absurd within (not_le.2 beyond)
      · simp
      · rw [one_mul, min_eq_left beyond.le]

end Probabilistic

end SumProduct

namespace Catalogue

open SumProduct

theorem boolean_real_exact : (SumProduct.boolean : SumProduct ℝ).Exact ofTruth :=
  boolean_exact zero_lt_one (lt_irrefl 0)

/-- Which laws hold among the values that stored numbers lead to. Sums and products are commutative
monoids throughout, and products distribute over sums, except that clamped ones do so only where
nothing is cut off or the first factor is zero or one. -/
theorem onReals_laws :
    (∀ c : Catalogue, c.onReals.Monoids c.onReals.Reachable) ∧
      (∀ c : Catalogue, c ≠ probabilistic → ∀ x y z, c.onReals.Reachable x → c.onReals.Reachable y →
        c.onReals.Reachable z → c.onReals.Distributes x y z) ∧
      ∀ x y z : ℝ, probabilistic.onReals.Reachable x → probabilistic.onReals.Reachable y →
        probabilistic.onReals.Reachable z →
        (probabilistic.onReals.Distributes x y z ↔ y + z ≤ 1 ∨ x = 0 ∨ x = 1) := by
  refine ⟨fun c => ?_, fun c proper x y z _ _ _ => ?_, fun x y z hx hy hz => ?_⟩
  · cases c with
    | boolean => exact boolean_real_exact.monoids _
    | counting => exact (counting_exact (σ := ℝ)).monoids _
    | viterbi => exact viterbi_exact.monoids _
    | probabilistic => exact probabilistic_monoids.mono fun _ => mem_unit_of_reachable
    | minPlus => exact (minPlus_exact (K := ℝ)).monoids _
  · cases c with
    | boolean => exact boolean_real_exact.mul_add x y z
    | counting => exact (counting_exact (σ := ℝ)).mul_add x y z
    | viterbi => exact viterbi_exact.mul_add x y z
    | probabilistic => exact absurd rfl proper
    | minPlus => exact (minPlus_exact (K := ℝ)).mul_add x y z
  · exact probabilistic_distributes_iff (mem_unit_of_reachable hx) (mem_unit_of_reachable hy)
      (mem_unit_of_reachable hz)

theorem reachable_of_mem_unit {x : ℝ} (inside : x ∈ Set.Icc (0 : ℝ) 1) :
    probabilistic.onReals.Reachable x := by
  have lifted : probabilistic.onReals.Reachable (clampUnit x : ℝ) := .lift x
  rwa [clampUnit_of_mem inside] at lifted

/-- Lengths of which one is infinite, and probabilities whose sum is just not cut off. -/
theorem onReals_laws_quarters :
    minPlus ≠ probabilistic ∧
      minPlus.onReals.Distributes (⊤ : WithTop ℝ) (⊤ : WithTop ℝ) (0 : WithTop ℝ) ∧
      probabilistic.onReals.Reachable (1 / 2 : ℝ) ∧ probabilistic.onReals.Reachable (1 / 4 : ℝ) ∧
      probabilistic.onReals.Reachable (3 / 4 : ℝ) ∧
      probabilistic.onReals.Distributes (1 / 2 : ℝ) (1 / 4 : ℝ) (3 / 4 : ℝ) := by
  obtain ⟨-, distribute, clamped⟩ := onReals_laws
  have proper : minPlus ≠ probabilistic := by decide
  have half : probabilistic.onReals.Reachable (1 / 2 : ℝ) := reachable_of_mem_unit (by norm_num)
  have quarter : probabilistic.onReals.Reachable (1 / 4 : ℝ) := reachable_of_mem_unit (by norm_num)
  have rest : probabilistic.onReals.Reachable (3 / 4 : ℝ) := reachable_of_mem_unit (by norm_num)
  refine ⟨proper, distribute minPlus proper _ _ _ .zero .zero .one, half, quarter, rest, ?_⟩
  exact (clamped _ _ _ half quarter rest).2 (.inl (by norm_num))

/-- Half of a sum that is cut off at one is less than the sum of the halves. -/
theorem probabilistic_not_distributive :
    probabilistic.onReals.Reachable (1 / 2 : ℝ) ∧ probabilistic.onReals.Reachable (1 : ℝ) ∧
      probabilistic.onReals.mul (1 / 2 : ℝ) (probabilistic.onReals.add (1 : ℝ) (1 : ℝ)) =
        (1 / 2 : ℝ) ∧
      probabilistic.onReals.add (probabilistic.onReals.mul (1 / 2 : ℝ) (1 : ℝ))
        (probabilistic.onReals.mul (1 / 2 : ℝ) (1 : ℝ)) = (1 : ℝ) ∧
      ¬ probabilistic.onReals.Distributes (1 / 2 : ℝ) (1 : ℝ) (1 : ℝ) := by
  have half : (1 / 2 : ℝ) ∈ Set.Icc (0 : ℝ) 1 := by norm_num
  have one : (1 : ℝ) ∈ Set.Icc (0 : ℝ) 1 := by norm_num
  refine ⟨reachable_of_mem_unit half, .one, ?_, ?_, ?_⟩
  · refine (clampUnit_mul_clampUnit_add half one one).trans ?_
    norm_num
  · refine (clampUnit_add_clampUnit_mul half one one).trans ?_
    norm_num
  · intro same
    have cases := (probabilistic_distributes_iff half one one).1 same
    norm_num at cases

end Catalogue

end TensorCalculus
