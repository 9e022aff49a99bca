import TensorCalculus.Proofs.SumProduct.Reals
import TensorCalculus.TruthValue

/-!
# Truth values as an algebra

In exact arithmetic, truth values whose parts lie in the unit interval are closed under the
connectives, so that drawing a result into the interval changes nothing. Conjunction and disjunction
are commutative monoids, negation undoes itself, and strengths follow De Morgan's laws. Confidences
do not, since they multiply in a conjunction only. -/

namespace TensorCalculus.TruthValue

open SumProduct

attribute [ext] TruthValue

/-- A truth value as it is given back: both parts drawn into the unit interval. -/
def drawn {α : Type} [Zero α] [One α] [LT α] [DecidableLT α] (v : TruthValue α) : TruthValue α :=
  clamped v.strength v.confidence

/-- What has been calculated in doubles is drawn into the unit interval. -/
theorem settle_doubles (v : TruthValue Float) :
    settle (v.map fun x => .ok (.real x)) = .ok v.drawn := rfl

/-- Whether both parts lie in the unit interval. -/
structure InUnit (v : TruthValue ℝ) : Prop where
  strength_mem : v.strength ∈ Set.Icc (0 : ℝ) 1
  confidence_mem : v.confidence ∈ Set.Icc (0 : ℝ) 1

variable {a b : TruthValue ℝ}

theorem InUnit.drawn_eq (inside : a.InUnit) : a.drawn = a := by
  rw [drawn, clamped, clampUnit_of_mem inside.strength_mem, clampUnit_of_mem inside.confidence_mem]

section Parts

theorem confidence_disjunction (a b : TruthValue ℝ) :
    (a.disjunction b).confidence = min a.confidence b.confidence :=
  lesser_eq_min _ _

/-- A disjunction fails when both statements do. -/
theorem strength_disjunction (a b : TruthValue ℝ) :
    (a.disjunction b).strength = 1 - (1 - a.strength) * (1 - b.strength) := by
  change a.strength + b.strength - a.strength * b.strength = _
  ring

theorem strength_negation_conjunction (a b : TruthValue ℝ) :
    (a.conjunction b).negation.strength = (a.negation.disjunction b.negation).strength := by
  rw [strength_disjunction]
  change 1 - a.strength * b.strength = 1 - (1 - (1 - a.strength)) * (1 - (1 - b.strength))
  ring

theorem strength_negation_disjunction (a b : TruthValue ℝ) :
    (a.disjunction b).negation.strength = (a.negation.conjunction b.negation).strength := by
  change 1 - (a.disjunction b).strength = (1 - a.strength) * (1 - b.strength)
  rw [strength_disjunction, sub_sub_cancel]

theorem negation_negation (a : TruthValue ℝ) : a.negation.negation = a :=
  TruthValue.ext (sub_sub_cancel 1 a.strength) rfl

end Parts

namespace InUnit

theorem conjunction (ha : a.InUnit) (hb : b.InUnit) : (a.conjunction b).InUnit :=
  ⟨mul_mem_unit ha.strength_mem hb.strength_mem, mul_mem_unit ha.confidence_mem hb.confidence_mem⟩

theorem negation (ha : a.InUnit) : a.negation.InUnit :=
  ⟨Set.Icc.one_sub_mem ha.strength_mem, ha.confidence_mem⟩

theorem disjunction (ha : a.InUnit) (hb : b.InUnit) : (a.disjunction b).InUnit where
  strength_mem := by
    rw [strength_disjunction]
    exact Set.Icc.one_sub_mem
      (mul_mem_unit (Set.Icc.one_sub_mem ha.strength_mem) (Set.Icc.one_sub_mem hb.strength_mem))
  confidence_mem := by
    rw [confidence_disjunction]
    exact ⟨le_min ha.confidence_mem.1 hb.confidence_mem.1,
      (min_le_left _ _).trans ha.confidence_mem.2⟩

end InUnit

/-- Whether an operation makes a part of a type a commutative monoid. -/
structure CommMonoidOn {τ : Type} (within : τ → Prop) (op : τ → τ → τ) (unit : τ) : Prop where
  mem_unit : within unit
  mem_op : ∀ a b, within a → within b → within (op a b)
  op_comm : ∀ a b, within a → within b → op a b = op b a
  op_assoc : ∀ a b c, within a → within b → within c → op (op a b) c = op a (op b c)
  unit_op : ∀ a, within a → op unit a = a

theorem CommMonoidOn.congr {τ : Type} {within : τ → Prop} {op op' : τ → τ → τ} {unit : τ}
    (monoid : CommMonoidOn within op unit) (same : ∀ a b, within a → within b → op' a b = op a b) :
    CommMonoidOn within op' unit where
  mem_unit := monoid.mem_unit
  mem_op a b ha hb := by
    rw [same a b ha hb]
    exact monoid.mem_op a b ha hb
  op_comm a b ha hb := by rw [same a b ha hb, same b a hb ha, monoid.op_comm a b ha hb]
  op_assoc a b c ha hb hc := by
    rw [same a b ha hb, same b c hb hc, same _ c (monoid.mem_op a b ha hb) hc,
      same a _ ha (monoid.mem_op b c hb hc), monoid.op_assoc a b c ha hb hc]
  unit_op a ha := by rw [same unit a monoid.mem_unit ha, monoid.unit_op a ha]

/-- Drawing results into the unit interval does not disturb an operation that stays there. -/
theorem CommMonoidOn.drawn {op : TruthValue ℝ → TruthValue ℝ → TruthValue ℝ} {unit : TruthValue ℝ}
    (monoid : CommMonoidOn InUnit op unit) : CommMonoidOn InUnit (fun a b => (op a b).drawn) unit :=
  monoid.congr fun a b ha hb => (monoid.mem_op a b ha hb).drawn_eq

theorem conjunction_commMonoidOn : CommMonoidOn InUnit (conjunction (α := ℝ)) ⟨1, 1⟩ where
  mem_unit := ⟨⟨zero_le_one, le_rfl⟩, ⟨zero_le_one, le_rfl⟩⟩
  mem_op _ _ ha hb := ha.conjunction hb
  op_comm _ _ _ _ := TruthValue.ext (mul_comm _ _) (mul_comm _ _)
  op_assoc _ _ _ _ _ _ := TruthValue.ext (mul_assoc _ _ _) (mul_assoc _ _ _)
  unit_op _ _ := TruthValue.ext (one_mul _) (one_mul _)

theorem disjunction_commMonoidOn : CommMonoidOn InUnit (disjunction (α := ℝ)) ⟨0, 1⟩ where
  mem_unit := ⟨⟨le_rfl, zero_le_one⟩, ⟨zero_le_one, le_rfl⟩⟩
  mem_op _ _ ha hb := ha.disjunction hb
  op_comm a b _ _ := by
    ext
    · rw [strength_disjunction, strength_disjunction, mul_comm]
    · rw [confidence_disjunction, confidence_disjunction, min_comm]
  op_assoc a b c _ _ _ := by
    ext
    · simp only [strength_disjunction, sub_sub_cancel, mul_assoc]
    · simp only [confidence_disjunction, min_assoc]
  unit_op a ha := by
    ext
    · rw [strength_disjunction, sub_zero, one_mul, sub_sub_cancel]
    · rw [confidence_disjunction, min_eq_right ha.confidence_mem.2]

/-- The connectives never leave the unit interval, so that nothing is cut off. Each of the two that
join statements is a commutative monoid, the certain truth being neutral for one and the certain
falsehood for the other. A statement that is negated twice is the statement again, and negation
turns either connective into the other as far as strengths go. -/
theorem connectives_form_algebra :
    (∀ a b : TruthValue ℝ, a.InUnit → b.InUnit → (a.conjunction b).drawn = a.conjunction b ∧
      (a.disjunction b).drawn = a.disjunction b ∧ a.negation.drawn = a.negation) ∧
    CommMonoidOn InUnit (fun a b => (a.conjunction b).drawn) ⟨1, 1⟩ ∧
    CommMonoidOn InUnit (fun a b => (a.disjunction b).drawn) ⟨0, 1⟩ ∧
    (∀ a : TruthValue ℝ, a.InUnit → a.negation.drawn.negation.drawn = a) ∧
    ∀ a b : TruthValue ℝ, a.InUnit → b.InUnit →
      (a.conjunction b).drawn.negation.drawn.strength =
        (a.negation.drawn.disjunction b.negation.drawn).drawn.strength ∧
      (a.disjunction b).drawn.negation.drawn.strength =
        (a.negation.drawn.conjunction b.negation.drawn).drawn.strength := by
  refine ⟨fun a b ha hb => ?_, conjunction_commMonoidOn.drawn,
    disjunction_commMonoidOn.drawn, fun a ha => ?_, fun a b ha hb => ⟨?_, ?_⟩⟩
  · exact ⟨(ha.conjunction hb).drawn_eq, (ha.disjunction hb).drawn_eq, ha.negation.drawn_eq⟩
  · rw [ha.negation.drawn_eq, negation_negation, ha.drawn_eq]
  · rw [(ha.conjunction hb).drawn_eq, (ha.conjunction hb).negation.drawn_eq, ha.negation.drawn_eq,
      hb.negation.drawn_eq, (ha.negation.disjunction hb.negation).drawn_eq,
      strength_negation_conjunction]
  · rw [(ha.disjunction hb).drawn_eq, (ha.disjunction hb).negation.drawn_eq, ha.negation.drawn_eq,
      hb.negation.drawn_eq, (ha.negation.conjunction hb.negation).drawn_eq,
      strength_negation_disjunction]

noncomputable def forecast : TruthValue ℝ := ⟨0.8, 0.9⟩

noncomputable def rumour : TruthValue ℝ := ⟨0.5, 0.5⟩

/-- What is certain to be false. -/
def falsehood : TruthValue ℝ := ⟨0, 1⟩

theorem inUnit_forecast : forecast.InUnit := by
  constructor <;> norm_num [forecast]

theorem inUnit_rumour : rumour.InUnit := by
  constructor <;> norm_num [rumour]

theorem inUnit_falsehood : falsehood.InUnit := by
  constructor <;> norm_num [falsehood]

/-- A forecast and a rumour, one of which holds, and a falsehood that adds nothing to them. -/
theorem connectives_form_algebra_forecast :
    forecast.InUnit ∧ rumour.InUnit ∧ falsehood.InUnit ∧
      (forecast.disjunction rumour).drawn = ⟨0.9, 0.5⟩ ∧
      ((falsehood.disjunction rumour).drawn.disjunction forecast).drawn =
        (falsehood.disjunction (rumour.disjunction forecast).drawn).drawn ∧
      forecast.negation.drawn.negation.drawn = ⟨0.8, 0.9⟩ ∧
      (forecast.disjunction rumour).drawn.negation.drawn.strength =
        (forecast.negation.drawn.conjunction rumour.negation.drawn).drawn.strength := by
  obtain ⟨kept, -, either, twice, opposed⟩ := connectives_form_algebra
  have first := inUnit_forecast
  have second := inUnit_rumour
  have third := inUnit_falsehood
  refine ⟨first, second, third, ?_, either.op_assoc _ _ _ third second first, twice forecast first,
    (opposed forecast rumour first second).2⟩
  rw [(kept forecast rumour first second).2.1]
  ext
  · norm_num [strength_disjunction, forecast, rumour]
  · norm_num [confidence_disjunction, forecast, rumour]

end TensorCalculus.TruthValue
