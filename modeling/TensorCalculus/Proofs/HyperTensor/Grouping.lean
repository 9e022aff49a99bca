import TensorCalculus.Proofs.Contraction.Staging
import TensorCalculus.Proofs.HyperTensor.Evaluation

/-!
# Grouping hypercomplex contractions from the left

Hypercomplex products can neither be reordered nor regrouped, but a product that is grouped from the
left begins with the product of its first factors, and what follows multiplies this from the right,
which is additive. So the operands that come first may be contracted first, in every algebra of the
tower, as far as stages of a contraction are carried out at all. -/

namespace TensorCalculus

-- Powers of natural numbers are those of `Nat.pow`, as in the definitions.
attribute [local instance (2000)] instPowNat

open TensorCalculus.Layout TensorCalculus.Outcome
open Factor HyperFactor

variable {R τ : Type} [CommRing R] {k : Nat} {tag : AlgebraTag}

namespace Tower

/-- Multiplication from the right by one value after the other. -/
def multiplyBy : List (Tower R k) → Tower R k →+ Tower R k
  | [] => .id _
  | a :: as => (multiplyBy as).comp (.mulRight a)

theorem multiplyBy_apply (as : List (Tower R k)) (a : Tower R k) :
    multiplyBy as a = as.foldl (· * ·) a := by
  induction as generalizing a with
  | nil => rfl
  | cons b as ih => exact ih (a * b)

theorem leftProduct_append {as : List (Tower R k)} (nonempty : as ≠ []) (bs : List (Tower R k)) :
    leftProduct (as ++ bs) = multiplyBy bs (leftProduct as) := by
  obtain ⟨a, as, rfl⟩ := List.exists_cons_of_ne_nil nonempty
  rw [multiplyBy_apply, List.cons_append, leftProduct, leftProduct, List.foldl_append]

end Tower

section Stages

variable {first rest : List (HyperFactor R)} {kept : List Char} {u : HyperTensor R}

theorem HyperFactor.leftProduct_append (nonempty : first ≠ []) (rest : List (HyperFactor R))
    (σ : Char → Nat) :
    leftProduct k (first ++ rest) σ =
      Tower.multiplyBy (values k rest σ) (leftProduct k first σ) := by
  rw [leftProduct, values, List.map_append]
  exact Tower.leftProduct_append (mt List.map_eq_nil_iff.1 nonempty) (values k rest σ)

/-- The factors that come later act by multiplication from the right, which depends on none of the
symbols that the first stage sums over. -/
theorem sumOver_grouped {s s₁ s₂ : Subscripts} {extent : Char → Nat} (nonempty : first ≠ [])
    (keeps : Keeps kept (first.map plain) (rest.map plain) s.output)
    (segments : s.inputs = ((first ++ rest).map plain).map (·.1))
      (segments₁ : s₁.inputs = (first.map plain).map (·.1))
    (output₁ : s₁.output = kept) (segments₂ : s₂.inputs = (((kept, u) :: rest).map plain).map (·.1))
    (output₂ : s₂.output = s.output)
    (stores : ∀ a, InRange (kept.map extent) a → (u.toTensor.map (Number.value k)).entry a =
      sumOver extent s₁.contracted (leftProduct k first) (Assignment.value kept a))
    {o : List Nat} (ho : InRange (s.output.map extent) o) :
    sumOver extent s₂.contracted (leftProduct k ((kept, u) :: rest)) (Assignment.value s.output o) =
      sumOver extent s.contracted (leftProduct k (first ++ rest))
        (Assignment.value s.output o) := by
  have outer :
      DependsOn (fun ρ => Tower.multiplyBy (values k rest ρ)) {c | Occurs (rest.map plain) c} := by
    intro σ τ agree
    exact congrArg Tower.multiplyBy (dependsOn_values rest agree)
  have late (ρ : Char → Nat) : leftProduct k ((kept, u) :: rest) ρ =
      Tower.multiplyBy (values k rest ρ) ((u.toTensor.map (Number.value k)).entry (kept.map ρ)) :=
    leftProduct_append (List.cons_ne_nil (kept, u) []) rest ρ
  rw [funext late, funext (leftProduct_append nonempty rest)]
  exact sumOver_stages (parts_append first rest) keeps (.refl _) segments segments₁ output₁
    segments₂ output₂
    (dependsOn_leftProduct first) outer (u.toTensor.map (Number.value k)).entry stores ho

end Stages

/-- In exact arithmetic the operands of a hypercomplex contraction that come first may be contracted
first, whatever the dimension of the algebra. The intermediate tensor lists once each of their
symbols that a later operand or the output has; contracted, as the first operand, with the others in
their order, it gives the elements of the whole. A list must be able to hold it, and where an
operand is empty, the limit on assignments must admit the stages. -/
theorem hyperEinsum_grouped_from_left (settings : Settings τ)
    (dimension : tag.dimension = (2 ^ k : Nat)) {first rest : List (HyperFactor R)}
    (nonempty : first ≠ [])
    (tagged : ∀ factor ∈ first ++ rest, factor.2.algebra = tag) {output kept : List Char}
    (distinct : output.Nodup)
    (keptDistinct : kept.Nodup) (keeps : Keeps kept (first.map plain) (rest.map plain) output)
    {whole : Wording} {name : Option String} {t : HyperTensor R}
    (asked : Asked ((first ++ rest).map plain) output whole)
    (contracted : hyperEinsum (.ok settings) whole (operands (first ++ rest)) name = .ok t)
    (stored : Stored ((first ++ rest).map plain)) {extent : Char → Nat}
    (sized : Sized ((first ++ rest).map plain) extent)
      (listed : volume (kept.map extent) ≤ listLimit)
    (early : Wording) (earlyName : Option String) (earlyAsked : Asked (first.map plain) kept early)
    (earlyAdmits : AdmitsStage settings ((first ++ rest).map plain) (first.map plain) extent) :
    ∃ u, hyperEinsum (.ok settings) early (operands first) earlyName = .ok u ∧
      ∀ (late : Wording) (lateName : Option String),
        Asked (((kept, u) :: rest).map plain) output late →
        AdmitsStage settings ((first ++ rest).map plain) (((kept, u) :: rest).map plain) extent →
        ∃ v, hyperEinsum (.ok settings) late (operands ((kept, u) :: rest)) lateName = .ok v ∧
          v.algebra = t.algebra ∧ v.shape = t.shape ∧ v.data = t.data := by
  obtain ⟨s, resolved, segments, rfl⟩ := asked
  have all : OfAlgebra tag (first ++ rest) :=
    ⟨List.append_ne_nil_of_left_ne_nil nonempty rest, tagged⟩
  have front : OfAlgebra tag first :=
    ⟨nonempty, fun factor here => tagged factor (List.mem_append_left rest here)⟩
  rw [hyperEinsum_eq resolved all] at contracted
  obtain ⟨p, planned, ran⟩ := bind_eq_ok_iff.1 contracted
  obtain ⟨accepted, limit⟩ := plan_eq_ok_iff.1 planned
  obtain ⟨bytes, checked⟩ := Plan.checks_of_runHyper dimension ran
  have affordable := (affordable_iff segments accepted sized).2 ⟨limit, checked⟩
  have matched := { matched_of_resolve segments accepted with sized }
  have parts := parts_append first rest
  obtain ⟨t', ran', holds⟩ :=
    runHyper_of_resolve segments accepted distinct sized dimension bytes all checked name
  obtain rfl : t' = t := Except.ok.inj (ran'.symm.trans ran)
  -- The first stage.
  have earlyAffordable := affordable_inside affordable parts sized earlyAdmits listed
  obtain ⟨s₁, u, segments₁, output₁, staged, holds₁⟩ := exists_hyper_answer earlyAsked keptDistinct
    (matched_inside parts keeps matched) earlyAffordable dimension bytes front earlyName
  refine ⟨u, staged, fun late lateName lateAsked lateAdmits => ?_⟩
  -- The last stage.
  have next : OfAlgebra tag ((kept, u) :: rest) := by
    refine ⟨List.cons_ne_nil _ _, ?_⟩
    intro factor here
    rcases List.mem_cons.1 here with rfl | there
    · exact holds₁.algebra_eq
    · exact tagged factor (List.mem_append_right first there)
  have lateAffordable :=
    affordable_next affordable parts keeps sized stored (.refl _) lateAdmits
  obtain ⟨s₂, v, segments₂, output₂, finished, holds₂⟩ := exists_hyper_answer lateAsked distinct
    (matched_next parts keeps matched keptDistinct holds₁.shape_eq (.refl _)) lateAffordable
      dimension bytes next lateName
  refine ⟨v, finished, holds₂.algebra_eq.trans holds.algebra_eq.symm,
    holds₂.shape_eq.trans holds.shape_eq.symm, ?_⟩
  apply holds₂.data_eq holds
  intro o ho
  exact sumOver_grouped nonempty keeps segments segments₁ output₁ segments₂ output₂
    (fun a ha => holds₁.entry_value ha) ho

/-- A contraction of hypercomplex tensors with the settings as they come, but for the limit on
assignments. -/
def limitedHyperContraction (limit : Option Int) (factors : List (HyperFactor ℚ))
    (output : List Char) : Except Fault (HyperTensor ℚ) :=
  hyperEinsum (.ok { tolerance := 0, sizeLimit := limit : Settings ℚ })
    (.understood { inputs := factors.map (·.1), output }) (operands factors) none

/-- Rows of complex numbers that are all empty. -/
def emptyComplexRows (segment : List Char) (rows : Nat) : HyperFactor ℚ :=
  (segment, ⟨⟨"empty", ["level", "slot"], [rows, 0], #[], rfl, by simp⟩, .complex, by simp⟩)

def wideComplexRows : HyperFactor ℚ :=
  (['i', 'k'],
    ⟨⟨"wide", ["level", "place"], [3, 2], .replicate 6 ⟨.complex, .complex, [1, 1], rfl⟩, rfl, rfl⟩,
      .complex, by simp⟩)

/-- The first operands may be refused although the contraction in one go is carried out: what they
give is too long for a list, or they have more assignments than the limit admits. So may the last
stage, when the empty axis is gone. -/
theorem hyperEinsum_refused_in_stages :
    (∃ t, limitedHyperContraction none [emptyComplexRows ['i', 'j'] (2 ^ 64),
        emptyComplexRows ['i', 'k'] (2 ^ 64)] [] = .ok t) ∧
      limitedHyperContraction none [emptyComplexRows ['i', 'j'] (2 ^ 64)] ['i'] =
        .error (.range .listSize) ∧
      (∃ t, limitedHyperContraction (some 1) [wideComplexRows, emptyComplexRows ['i', 'j'] 3] [] =
        .ok t) ∧
      limitedHyperContraction (some 1) [wideComplexRows] ['i'] = .error (.jointSize "ik->i" 6 1) ∧
      (∃ t, limitedHyperContraction (some 1) [emptyComplexRows ['i', 'j'] 3, wideComplexRows] [] =
        .ok t) ∧
      ∃ u, limitedHyperContraction (some 1) [emptyComplexRows ['i', 'j'] 3] ['i'] = .ok u ∧
        limitedHyperContraction (some 1) [(['i'], u), wideComplexRows] [] =
          .error (.jointSize "i,ik->" 6 1) := by
  refine ⟨⟨_, rfl⟩, rfl, ⟨_, rfl⟩, rfl, ⟨_, rfl⟩, ⟨_, rfl, rfl⟩⟩

def octonionUnit (place : Fin 8) : Number ℚ :=
  ⟨.octonion, .octonion, (List.finRange 8).map fun i => if i = place then 1 else 0, rfl⟩

/-- A vector of two units, with the segment that names its axis. -/
def octonionUnits (first second : Fin 8) : HyperFactor ℚ :=
  (['n'], ⟨⟨"", ["n"], [2], #[octonionUnit first, octonionUnit second], rfl, rfl⟩, .octonion,
    by simp [octonionUnit]⟩)

def earlyVectors : List (HyperFactor ℚ) :=
  [octonionUnits 1 2, octonionUnits 2 4]

def lateVectors : List (HyperFactor ℚ) :=
  [octonionUnits 4 1]

/-- Three vectors of octonions, whose products depend on how they are grouped. -/
theorem hyperEinsum_grouped_from_left_octonions :
    ∃ t u v, limitedHyperContraction (some 2) (earlyVectors ++ lateVectors) [] = .ok t ∧
      limitedHyperContraction (some 2) earlyVectors ['n'] = .ok u ∧
      limitedHyperContraction (some 2) ((['n'], u) :: lateVectors) [] = .ok v ∧
      v.data = t.data := by
  have keeps : Keeps ['n'] (earlyVectors.map plain) (lateVectors.map plain) [] := by
    intro c
    simp [Occurs, plain, earlyVectors, lateVectors, octonionUnits]
  have tagged : ∀ factor ∈ earlyVectors ++ lateVectors, factor.2.algebra = .octonion := by
    simp [earlyVectors, lateVectors, octonionUnits]
  have stored : Stored ((earlyVectors ++ lateVectors).map plain) := by
    simp [Stored, plain, earlyVectors, lateVectors, octonionUnits, elementBytes, wordLimit]
  have sized : Sized ((earlyVectors ++ lateVectors).map plain) fun _ => 2 := by
    simp [Sized, plain, earlyVectors, lateVectors, octonionUnits]
  have inhabited : ¬ ∃ factor ∈ (earlyVectors ++ lateVectors).map plain, 0 ∈ factor.2.shape := by
    simp [plain, earlyVectors, lateVectors, octonionUnits]
  have accepted :
      (limitedHyperContraction (some 2) (earlyVectors ++ lateVectors) []).toOption.isSome := by
    decide +kernel
  cases contracted : limitedHyperContraction (some 2) (earlyVectors ++ lateVectors) [] with
  | error => rw [contracted] at accepted; cases accepted
  | ok t =>
    obtain ⟨u, staged, finish⟩ := hyperEinsum_grouped_from_left (k := 3)
      { tolerance := 0, sizeLimit := some 2 : Settings ℚ } rfl
        (List.cons_ne_nil _ _) tagged List.nodup_nil
      (List.nodup_singleton 'n') keeps ⟨_, rfl, rfl, rfl⟩ contracted stored sized (by decide)
      (.understood { inputs := [['n'], ['n']], output := ['n'] }) none ⟨_, rfl, rfl, rfl⟩
      fun empty => absurd empty inhabited
    obtain ⟨v, finished, -, -, same⟩ :=
      finish (.understood { inputs := [['n'], ['n']], output := [] }) none
        ⟨_, rfl, rfl, rfl⟩ fun empty => absurd empty inhabited
    exact ⟨t, u, v, rfl, staged, finished, same⟩

end TensorCalculus
