import TensorCalculus.Proofs.TruthValue.Connectives

/-!
# Merging estimates

In exact arithmetic, two estimates of one statement merge into the mean of their strengths, weighted
by their confidences, so the result lies between them. Its confidence depends on the sum of the
confidences alone. It grows with each of them, and as neither is more than one it stays below the
greatest confidence that a merger may have. -/

namespace TensorCalculus.TruthValue

/-- Two estimates merged in exact arithmetic, not yet drawn into the unit interval. -/
noncomputable def merged (a b : TruthValue ℝ) : TruthValue ℝ :=
  revision (fun total => decide (total = 0)) a b

section Weights

variable {x y p q : ℝ}

/-- A mean with weights that are not negative lies between the numbers it is taken of. -/
theorem weightedMean_mem (hp : 0 ≤ p) (hq : 0 ≤ q) (weighed : 0 < p + q) :
    (x * p + y * q) / (p + q) ∈ Set.Icc (min x y) (max x y) := by
  constructor
  · rw [le_div_iff₀ weighed, mul_add]
    exact add_le_add (mul_le_mul_of_nonneg_right (min_le_left x y) hp)
      (mul_le_mul_of_nonneg_right (min_le_right x y) hq)
  · rw [div_le_iff₀ weighed, mul_add]
    exact add_le_add (mul_le_mul_of_nonneg_right (le_max_left x y) hp)
      (mul_le_mul_of_nonneg_right (le_max_right x y) hq)

/-- More evidence gives more confidence. -/
theorem strictMonoOn_div_add_one : StrictMonoOn (fun w : ℝ => w / (w + 1)) (Set.Ici 0) := by
  intro v hv w hw less
  have below : 0 < v + 1 := add_pos_of_nonneg_of_pos hv one_pos
  have above : 0 < w + 1 := add_pos_of_nonneg_of_pos hw one_pos
  rw [div_lt_div_iff₀ below above, mul_add, mul_add, mul_comm v w]
  linarith

/-- The evidence of two estimates is at most two, and never enough for the greatest confidence. -/
theorem div_add_one_lt_of_le_two {w : ℝ} (hw : 0 ≤ w) (few : w ≤ 2) : w / (w + 1) < 0.99 := by
  rw [div_lt_iff₀ (add_pos_of_nonneg_of_pos hw one_pos)]
  linarith

end Weights

section Merged

variable {a b : TruthValue ℝ}

theorem InUnit.evidence_nonneg (ha : a.InUnit) (hb : b.InUnit) : 0 ≤ a.confidence + b.confidence :=
  add_nonneg ha.confidence_mem.1 hb.confidence_mem.1

theorem InUnit.evidence_le_two (ha : a.InUnit) (hb : b.InUnit) : a.confidence + b.confidence ≤ 2 :=
  (add_le_add ha.confidence_mem.2 hb.confidence_mem.2).trans_eq one_add_one_eq_two

theorem InUnit.evidence_eq_zero_iff (ha : a.InUnit) (hb : b.InUnit) :
    a.confidence + b.confidence = 0 ↔ a.confidence = 0 ∧ b.confidence = 0 :=
  add_eq_zero_iff_of_nonneg ha.confidence_mem.1 hb.confidence_mem.1

theorem merged_comm (a b : TruthValue ℝ) : a.merged b = b.merged a := by
  rw [merged, merged, revision, revision, revisedStrength, revisedStrength, add_comm b.confidence,
    add_comm (b.strength * b.confidence)]

theorem strength_merged (evident : a.confidence + b.confidence ≠ 0) :
    (a.merged b).strength = revisedStrength (a.confidence + b.confidence) a b := by
  rw [merged, revision, if_neg (by simpa using evident)]

/-- Without evidence there is no confidence, as if the evidence were divided by one more. -/
theorem InUnit.confidence_merged (ha : a.InUnit) (hb : b.InUnit) :
    (a.merged b).confidence = (a.confidence + b.confidence) /
      (a.confidence + b.confidence + 1) := by
  rw [merged, revision]
  split
  case isTrue unknown =>
    rw [of_decide_eq_true unknown, zero_div]
  case isFalse =>
    have below := div_add_one_lt_of_le_two (ha.evidence_nonneg hb) (ha.evidence_le_two hb)
    exact (SumProduct.lesser_eq_min _ _).trans (min_eq_right below.le)

theorem InUnit.strength_merged_mem (ha : a.InUnit) (hb : b.InUnit)
    (evident : a.confidence + b.confidence ≠ 0) :
    (a.merged b).strength ∈ Set.Icc (min a.strength b.strength) (max a.strength b.strength) := by
  rw [strength_merged evident]
  exact weightedMean_mem ha.confidence_mem.1 hb.confidence_mem.1
    (lt_of_le_of_ne (ha.evidence_nonneg hb) evident.symm)

theorem InUnit.merged (ha : a.InUnit) (hb : b.InUnit) : (a.merged b).InUnit where
  strength_mem := by
    by_cases unknown : a.confidence + b.confidence = 0
    · rw [TruthValue.merged, revision, if_pos (by simpa using unknown), unknownStrength]
      norm_num
    · obtain ⟨low, high⟩ := ha.strength_merged_mem hb unknown
      exact ⟨(le_min ha.strength_mem.1 hb.strength_mem.1).trans low,
        high.trans (max_le ha.strength_mem.2 hb.strength_mem.2)⟩
  confidence_mem := by
    rw [ha.confidence_merged hb]
    have evidence := ha.evidence_nonneg hb
    have more := add_nonneg evidence zero_le_one
    exact ⟨div_nonneg evidence more, div_le_one_of_le₀ (le_add_of_nonneg_right zero_le_one) more⟩

theorem InUnit.confidence_merged_lt {c : TruthValue ℝ} (ha : a.InUnit) (hb : b.InUnit)
    (hc : c.InUnit) (more : a.confidence < c.confidence) :
    (a.merged b).confidence < (c.merged b).confidence := by
  rw [ha.confidence_merged hb, hc.confidence_merged hb]
  exact strictMonoOn_div_add_one (ha.evidence_nonneg hb) (hc.evidence_nonneg hb)
    (add_lt_add_left more b.confidence)

theorem InUnit.confidence_merged_eq_zero_iff (ha : a.InUnit) (hb : b.InUnit) :
    (a.merged b).confidence = 0 ↔ a.confidence = 0 ∧ b.confidence = 0 := by
  have evidence := ha.evidence_nonneg hb
  rw [ha.confidence_merged hb, div_eq_zero_iff, or_iff_left (by linarith),
    ha.evidence_eq_zero_iff hb]

end Merged

/-- Whether two estimates are merged by the weight of their evidence. -/
structure MergesByEvidence (merge : TruthValue ℝ → TruthValue ℝ → TruthValue ℝ)
    (a b : TruthValue ℝ) : Prop where
  comm : merge a b = merge b a
  strength_eq : ¬ (a.confidence = 0 ∧ b.confidence = 0) →
    (merge a b).strength =
      (a.strength * a.confidence + b.strength * b.confidence) / (a.confidence + b.confidence)
  strength_mem : ¬ (a.confidence = 0 ∧ b.confidence = 0) →
    (merge a b).strength ∈ Set.Icc (min a.strength b.strength) (max a.strength b.strength)
  confidence_eq :
    (merge a b).confidence = (a.confidence + b.confidence) / (a.confidence + b.confidence + 1)
  confidence_lt_most : (merge a b).confidence < 0.99
  confidence_lt_left : ∀ c : TruthValue ℝ, c.InUnit → a.confidence < c.confidence →
    (merge a b).confidence < (merge c b).confidence
  confidence_lt_right : ∀ c : TruthValue ℝ, c.InUnit → b.confidence < c.confidence →
    (merge a b).confidence < (merge a c).confidence
  confidence_eq_zero_iff : (merge a b).confidence = 0 ↔ a.confidence = 0 ∧ b.confidence = 0

/-- Estimates are merged by the weight of their evidence, and nothing is cut off on the way: what is
calculated lies in the unit interval already. -/
theorem revision_weighs_evidence {a b : TruthValue ℝ} (ha : a.InUnit) (hb : b.InUnit) :
    (a.merged b).drawn = a.merged b ∧ MergesByEvidence (fun a b => (a.merged b).drawn) a b := by
  have kept := (ha.merged hb).drawn_eq
  refine ⟨kept, ?_, fun evident => ?_, fun evident => ?_, ?_,
    ?_, fun c hc more => ?_, fun c hc more => ?_, ?_⟩
  · rw [merged_comm]
  · rw [← ha.evidence_eq_zero_iff hb] at evident
    rw [kept, strength_merged evident, revisedStrength]
  · rw [← ha.evidence_eq_zero_iff hb] at evident
    rw [kept]
    exact ha.strength_merged_mem hb evident
  · rw [kept, ha.confidence_merged hb]
  · rw [kept, ha.confidence_merged hb]
    exact div_add_one_lt_of_le_two (ha.evidence_nonneg hb) (ha.evidence_le_two hb)
  · rw [kept, (hc.merged hb).drawn_eq]
    exact ha.confidence_merged_lt hb hc more
  · rw [kept, (ha.merged hc).drawn_eq, merged_comm a b, merged_comm a c]
    exact hb.confidence_merged_lt ha hc more
  · rw [kept, ha.confidence_merged_eq_zero_iff hb]

/-- A forecast outweighs a rumour, and something certain would leave more confidence. -/
theorem revision_weighs_evidence_forecast :
    forecast.InUnit ∧ rumour.InUnit ∧ (forecast.merged rumour).drawn = ⟨97 / 140, 7 / 12⟩ ∧
      (97 / 140 : ℝ) ∈ Set.Icc (min forecast.strength rumour.strength)
      (max forecast.strength rumour.strength) ∧
      forecast.confidence < falsehood.confidence ∧
      (forecast.merged rumour).drawn.confidence < (falsehood.merged rumour).drawn.confidence := by
  have first := inUnit_forecast
  have second := inUnit_rumour
  obtain ⟨-, weighed⟩ := revision_weighs_evidence first second
  have evident : ¬ (forecast.confidence = 0 ∧ rumour.confidence = 0) := by
    norm_num [forecast, rumour]
  have strength : (forecast.merged rumour).drawn.strength = 97 / 140 := by
    rw [weighed.strength_eq evident]
    norm_num [forecast, rumour]
  have confidence : (forecast.merged rumour).drawn.confidence = 7 / 12 := by
    rw [weighed.confidence_eq]
    norm_num [forecast, rumour]
  have more : forecast.confidence < falsehood.confidence := by norm_num [forecast, falsehood]
  exact ⟨first, second, TruthValue.ext strength confidence, strength ▸ weighed.strength_mem evident,
    more, weighed.confidence_lt_left falsehood inUnit_falsehood more⟩

end TensorCalculus.TruthValue
