import TensorCalculus.Proofs.TruthValue.Connectives

/-!
# Deduction and total probability

What B tells of C, weighed by what A tells of B, is what A tells of C, as long as A tells of C by
way of B alone. This is the law of total probability, and in exact arithmetic the strength of a
deduction is that law, the chance of C without B being expressed by the chances of B and C. Nothing
has to be kept away from zero unless B is all but certain. -/

namespace TensorCalculus.TruthValue

open MeasureTheory ProbabilityTheory SumProduct

/-- Two implications chained in exact arithmetic, not yet drawn into the unit interval. -/
noncomputable def chained (ab bc a b c : TruthValue ℝ) : TruthValue ℝ :=
  deduction (fun evidence => evidence ^ (0.2 : ℝ)) ab bc a b c

section Probability

variable {Ω : Type*} [MeasurableSpace Ω] {P : Measure Ω} {A B C : Set Ω}

/-- Events of which the first tells of the third by way of the second alone: they are independent
given that it happens, and given that it does not. -/
structure Mediated (P : Measure Ω) (A B C : Set Ω) : Prop where
  measurableSet_first : MeasurableSet A
  measurableSet_second : MeasurableSet B
  measurableSet_third : MeasurableSet C
  indep_given : IndepSet A C P[|B]
  indep_without : IndepSet A C P[|Bᶜ]

variable [IsProbabilityMeasure P]

theorem real_cond_mul (measurable : MeasurableSet B) (C : Set Ω) :
    P[|B].real C * P.real B = P.real (B ∩ C) := by
  rw [measureReal_def, measureReal_def, measureReal_def, ← ENNReal.toReal_mul,
    cond_mul_eq_inter measurable]

theorem real_inter_add_compl (measurable : MeasurableSet B) (C : Set Ω) :
    P.real (B ∩ C) + P.real (Bᶜ ∩ C) = P.real C := by
  rw [Set.inter_comm B, Set.inter_comm Bᶜ, ← Set.sdiff_eq, measureReal_inter_add_sdiff measurable]

/-- Given B, the chances of independent events multiply. -/
theorem real_inter_of_indep (measurable : MeasurableSet B) (indep : IndepSet A C P[|B]) :
    P.real (B ∩ (A ∩ C)) = P.real (B ∩ A) * P[|B].real C := by
  have product : P[|B].real (A ∩ C) = P[|B].real A * P[|B].real C := by
    rw [measureReal_def, indep.measure_inter_eq_mul, ENNReal.toReal_mul]
    rfl
  rw [← real_cond_mul measurable, ← real_cond_mul measurable, product]
  ring

/-- The chance that C happens without B. -/
theorem real_cond_compl (measurable : MeasurableSet B) (possible : P.real B < 1) (C : Set Ω) :
    P[|Bᶜ].real C = (P.real C - P.real B * P[|B].real C) / (1 - P.real B) := by
  rw [eq_div_iff (sub_pos.2 possible).ne', ← probReal_compl_eq_one_sub measurable,
    real_cond_mul measurable.compl, mul_comm,
    real_cond_mul measurable, ← real_inter_add_compl measurable C, add_sub_cancel_left]

namespace Mediated

variable (mediated : Mediated P A B C)
include mediated

/-- The law of total probability, where A tells of C by way of B alone. -/
theorem real_cond_eq (possible : 0 < P.real A) :
    P[|A].real C = P[|A].real B * P[|B].real C + (1 - P[|A].real B) * P[|Bᶜ].real C := by
  have measurable := mediated.measurableSet_second
  have without : P.real (Bᶜ ∩ A) = (1 - P[|A].real B) * P.real A := by
    rw [sub_mul, one_mul,
      real_cond_mul mediated.measurableSet_first, ← real_inter_add_compl measurable A,
      Set.inter_comm A B, add_sub_cancel_left]
  apply mul_right_cancel₀ possible.ne'
  calc P[|A].real C * P.real A
      = P.real (B ∩ (A ∩ C)) + P.real (Bᶜ ∩ (A ∩ C)) := by
        rw [real_cond_mul mediated.measurableSet_first, real_inter_add_compl measurable]
    _ = P.real (B ∩ A) * P[|B].real C + P.real (Bᶜ ∩ A) * P[|Bᶜ].real C := by
        rw [real_inter_of_indep measurable mediated.indep_given,
          real_inter_of_indep measurable.compl mediated.indep_without]
    _ = (P[|A].real B * P[|B].real C + (1 - P[|A].real B) * P[|Bᶜ].real C) * P.real A := by
        rw [without, Set.inter_comm B A, ← real_cond_mul mediated.measurableSet_first]
        ring

end Mediated

/-- Truth values whose strengths are the chances that B happens given A, C given B, B at all, and C
at all. -/
structure Tells (P : Measure Ω) (A B C : Set Ω) (ab bc b c : TruthValue ℝ) : Prop where
  strength_ab : ab.strength = P[|A].real B
  strength_bc : bc.strength = P[|B].real C
  strength_b : b.strength = P.real B
  strength_c : c.strength = P.real C

end Probability

section Chained

variable {ab bc a b c : TruthValue ℝ}

/-- What may be uncertain by a thousandth is not kept away from zero. -/
theorem greater_leastDoubt (doubtful : b.strength ≤ 0.999) :
    Extremes.greater leastDoubt (1 - b.strength) = 1 - b.strength := by
  refine (greater_eq_max _ _).trans (max_eq_right ?_)
  unfold leastDoubt
  linarith

theorem strength_chained (doubtful : b.strength ≤ 0.999) :
    (chained ab bc a b c).strength = ab.strength * bc.strength +
      (1 - ab.strength) * ((c.strength - b.strength * bc.strength) / (1 - b.strength)) := by
  rw [chained, deduction, deducedStrength, greater_leastDoubt doubtful, mul_div_assoc]

/-- The fifth root of confidences is a confidence. -/
theorem confidence_chained_mem
    (confident : ∀ v ∈ [ab, bc, a, b, c], v.confidence ∈ Set.Icc (0 : ℝ) 1) :
    (chained ab bc a b c).confidence ∈ Set.Icc (0 : ℝ) 1 := by
  simp only [List.forall_mem_cons] at confident
  obtain ⟨hab, hbc, ha, hb, hc, -⟩ := confident
  obtain ⟨nonneg, le_one⟩ : jointEvidence ab bc a b c ∈ Set.Icc (0 : ℝ) 1 :=
    mul_mem_unit (mul_mem_unit (mul_mem_unit (mul_mem_unit hab hbc) ha) hb) hc
  exact ⟨Real.rpow_nonneg nonneg _, Real.rpow_le_one nonneg le_one (by norm_num)⟩

end Chained

/-- A deduction is exact where A tells of C by way of B alone. From the chances of B given A, of C
given B, and of B and C at all, it finds the chance of C given A, whatever is said of A itself.
Neither is the chance that B fails kept away from zero, nor is anything drawn into the unit
interval. -/
theorem deduction_eq_conditional {Ω : Type*} [MeasurableSpace Ω] (P : Measure Ω)
    [IsProbabilityMeasure P] {A B C : Set Ω} (mediated : Mediated P A B C) (possible : 0 < P.real A)
    (doubtful : P.real B ≤ 0.999)
    {ab bc a b c : TruthValue ℝ} (told : Tells P A B C ab bc b c)
    (confident : ∀ v ∈ [ab, bc, a, b, c], v.confidence ∈ Set.Icc (0 : ℝ) 1) :
    (chained ab bc a b c).drawn.strength = P[|A].real C ∧
      Extremes.greater leastDoubt (1 - b.strength) = 1 - b.strength ∧
      (chained ab bc a b c).drawn = chained ab bc a b c := by
  have uncertain : b.strength ≤ 0.999 := told.strength_b.trans_le doubtful
  have exact : (chained ab bc a b c).strength = P[|A].real C := by
    have below : P.real B < 1 := doubtful.trans_lt (by norm_num)
    rw [strength_chained uncertain, told.strength_ab, told.strength_bc, told.strength_b,
      told.strength_c, ← real_cond_compl mediated.measurableSet_second
        below, ← mediated.real_cond_eq possible]
  have inside : (chained ab bc a b c).InUnit := by
    refine ⟨?_, confidence_chained_mem confident⟩
    rw [exact]
    exact ⟨measureReal_nonneg, measureReal_le_one⟩
  rw [inside.drawn_eq]
  exact ⟨exact, greater_leastDoubt uncertain, rfl⟩

section Die

/-- A fair die with eight faces. -/
noncomputable def die : Measure (Fin 8) :=
  (PMF.uniformOfFintype (Fin 8)).toMeasure

noncomputable instance : IsProbabilityMeasure die :=
  inferInstanceAs (IsProbabilityMeasure (PMF.uniformOfFintype (Fin 8)).toMeasure)

theorem real_die (faces : Finset (Fin 8)) : die.real faces = faces.card / 8 := by
  rw [measureReal_def, die, PMF.toMeasure_uniformOfFintype_apply _ (Finset.measurableSet faces)]
  simp

theorem real_cond_die {given : Finset (Fin 8)} (possible : given.Nonempty)
    (faces : Finset (Fin 8)) : die[|given].real faces = (given ∩ faces).card / given.card := by
  have product := real_cond_mul (P := die) (Finset.measurableSet given) (faces : Set (Fin 8))
  have positive : (0 : ℝ) < given.card := Nat.cast_pos.2 possible.card_pos
  rw [← Finset.coe_inter, real_die, real_die] at product
  rw [eq_div_iff positive.ne']
  linarith

theorem indepSet_die {given s t : Finset (Fin 8)} (possible : given.Nonempty)
    (product : (given ∩ (s ∩ t)).card * given.card = (given ∩ s).card * (given ∩ t).card) :
    IndepSet (s : Set (Fin 8)) t die[|given] := by
  rw [indepSet_iff_measure_inter_eq_mul s.measurableSet t.measurableSet die[|given],
    ← ENNReal.toReal_eq_toReal_iff' (measure_ne_top _ _)
      (ENNReal.mul_ne_top (measure_ne_top _ _) (measure_ne_top _ _)),
    ENNReal.toReal_mul, ← measureReal_def, ← measureReal_def, ← measureReal_def, ← Finset.coe_inter,
    real_cond_die possible,
    real_cond_die possible, real_cond_die possible]
  have positive : (given.card : ℝ) ≠ 0 := Nat.cast_ne_zero.2 possible.card_ne_zero
  field_simp
  exact_mod_cast product

/-- The lower half of the faces. -/
def low : Finset (Fin 8) := {face | face.val < 4}

/-- Two of the lower faces and all others, so that this is likely to happen when the die shows a
high face. -/
def wide : Finset (Fin 8) := {face | face.val < 2 ∨ 4 ≤ face.val}

/-- The even faces but the highest, which are less likely among the higher faces. -/
def even : Finset (Fin 8) := {face | face.val % 2 = 0 ∧ face.val < 6}

theorem mediated_die : Mediated die wide low even where
  measurableSet_first := wide.measurableSet
  measurableSet_second := low.measurableSet
  measurableSet_third := even.measurableSet
  indep_given := indepSet_die (by decide) (by decide)
  indep_without := by
    rw [← Finset.coe_compl]
    exact indepSet_die (by decide) (by decide)

theorem tells_die (confidence : ℝ) :
    Tells die wide low even ⟨1 / 3, confidence⟩ ⟨1 / 2, confidence⟩ ⟨1 / 2, confidence⟩
      ⟨3 / 8, confidence⟩ where
  strength_ab := by
    rw [real_cond_die (by decide), show (wide ∩ low).card = 2 from rfl, show wide.card = 6 from rfl]
    norm_num
  strength_bc := by
    rw [real_cond_die (by decide), show (low ∩ even).card = 2 from rfl, show low.card = 4 from rfl]
    norm_num
  strength_b := by
    rw [real_die, show low.card = 4 from rfl]
    norm_num
  strength_c := by
    rw [real_die, show even.card = 3 from rfl]
    norm_num

/-- Wide and even faces are not independent: a third of the wide ones are even, and three eighths of
all. -/
theorem deduction_eq_conditional_die :
    Mediated die wide low even ∧ 0 < die.real wide ∧ die.real low ≤ 0.999 ∧
      die[|wide].real even = 1 / 3 ∧
      (chained ⟨1 / 3, 1 / 2⟩ ⟨1 / 2, 1 / 2⟩ ⟨0, 1⟩ ⟨1 / 2, 1 / 2⟩ ⟨3 / 8, 1 / 2⟩).drawn.strength =
        1 / 3 := by
  have possible : 0 < die.real wide := by
    rw [real_die, show wide.card = 6 from rfl]
    norm_num
  have doubtful : die.real low ≤ 0.999 := by
    rw [real_die, show low.card = 4 from rfl]
    norm_num
  have chance : die[|wide].real even = 1 / 3 := by
    rw [real_cond_die (by decide), show (wide ∩ even).card = 2 from rfl,
      show wide.card = 6 from rfl]
    norm_num
  refine ⟨mediated_die, possible, doubtful, chance, ?_⟩
  refine (deduction_eq_conditional die mediated_die possible doubtful (tells_die (1 / 2))
    ?_).1.trans chance
  norm_num

end Die

end TensorCalculus.TruthValue
