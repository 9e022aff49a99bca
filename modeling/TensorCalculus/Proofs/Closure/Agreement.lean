import TensorCalculus.Proofs.Closure.Reachability
import TensorCalculus.Proofs.Closure.Rounds

/-!
# Two ways to reachability

Reachability can be computed over the numbers, with a threshold behind each sum, or directly under
or and and. As long as no entry is negative, a sum of products is above zero exactly where one of
its products has two factors above zero, so both ways come to the same matrix in every round, from
the first one on. Then they also stop in the same round. -/

namespace TensorCalculus.Closure

open TensorCalculus.Layout TensorCalculus.Outcome
open SumProduct

/-- A square matrix without negative entries. -/
structure Nonnegative (n : Nat) (t : Tensor ℚ) : Prop where
  shape_eq : t.shape = [n, n]
  entry_nonneg : ∀ x z, x < n → z < n → 0 ≤ t.entry [x, z]

theorem digit_eq_ofTruth (x : ℚ) : digit x = ofTruth (decide (0 < x)) := by
  unfold digit ofTruth
  simp only [decide_eq_true_iff]

theorem foldl_or_eq_true_iff {bs : List Bool} : bs.foldl or false = true ↔ true ∈ bs := by
  suffices from_ : ∀ b, bs.foldl or b = true ↔ b = true ∨ true ∈ bs by
    simp [from_]
  induction bs with
  | nil => simp
  | cons c bs ih =>
    intro b
    rw [List.foldl_cons, ih, Bool.or_eq_true, List.mem_cons, or_assoc, eq_comm (a := c)]

/-- Where numbers are not negative, a sum of products is above zero when both factors of one product
are. -/
theorem decide_sum_pos {n : Nat} {f g : Nat → ℚ} (hf : ∀ y < n, 0 ≤ f y) (hg : ∀ y < n, 0 ≤ g y) :
    decide (0 < ∑ y ∈ Finset.range n, f y * g y) =
      ((List.range n).map fun y => decide (0 < f y) && decide (0 < g y)).foldl or false := by
  rw [Bool.eq_iff_iff, decide_eq_true_iff, sum_mul_pos_iff_of_nonneg hf hg, foldl_or_eq_true_iff,
    List.mem_map]
  simp

theorem decide_add_digit_pos {a : ℚ} (ha : 0 ≤ a) (b : ℚ) :
    decide (0 < a + digit b) = (decide (0 < a) || decide (0 < b)) := by
  rw [Bool.eq_iff_iff, decide_eq_true_iff, add_digit_pos_iff ha, Bool.or_eq_true,
    decide_eq_true_iff, decide_eq_true_iff]

section Round

variable {settings : Settings ℚ} {relation current : Tensor ℚ} {n : Nat}

/-- One round, either way: it comes to the same matrix without negative entries, or is refused for
the same reason. -/
theorem exists_round [BulkRoutine ℚ] (loop : settings.strategy = .loop)
    (related : Nonnegative n relation) (reached : Nonnegative n current) :
    ∃ next, reach settings relation current = (admitsJoin settings n >>= fun _ => .ok next) ∧
      extend settings boolean relation current = (admitsJoin settings n >>= fun _ => .ok next) ∧
      Nonnegative n next := by
  have exact : (boolean : SumProduct ℚ).Exact ofTruth := boolean_exact zero_lt_one (lt_irrefl 0)
  obtain ⟨next, real, alike, sums⟩ := exists_reach loop related.shape_eq reached.shape_eq
  obtain ⟨next', logical, alike', truths⟩ :=
    exists_extend exact settings related.shape_eq reached.shape_eq
  have shape : next.shape = [n, n] := alike.shape_eq.trans reached.shape_eq
  have both : next.Alike next' :=
    ⟨alike.name_eq.trans alike'.name_eq.symm, alike.indices_eq.trans alike'.indices_eq.symm,
      alike.shape_eq.trans alike'.shape_eq.symm⟩
  obtain rfl : next = next' := by
    refine both.eq_of_entries fun c inside => ?_
    obtain ⟨x, z, rfl, hx, hz⟩ := exists_pair_of_inRange (shape ▸ inside)
    rw [sums x z hx hz, truths x z hx hz, digit_eq_ofTruth,
      decide_add_digit_pos (reached.entry_nonneg x z hx hz),
      decide_sum_pos (fun y hy => reached.entry_nonneg x y hx hy) fun y hy =>
        related.entry_nonneg y z hy hz]
    rfl
  refine ⟨next, real, logical, shape, fun x z hx hz => ?_⟩
  rw [sums x z hx hz]
  exact digit_nonneg _

end Round

/-- The two ways agree: from a matrix without negative entries they come to the same tensor after
the same number of rounds, converged or not, or to the same fault. This takes the loop, but no other
condition on the settings. -/
theorem transitive_eq_boolean [BulkRoutine ℚ] {settings : Pending (Settings ℚ)}
    (loop : ∀ valid, settings = .ok valid → valid.strategy = .loop) {relation : Tensor ℚ} {n : Nat}
    (related : Nonnegative n relation) :
    transitive settings (.real relation) = semiring settings (.ok .boolean) (.real relation) none
      none := by
  rw [transitive, semiring, expectSquare_of_shape _ related.shape_eq,
    expectSquare_of_shape _ related.shape_eq, ok_bind, ok_bind]
  cases settings with
  | error fault => rfl
  | ok settings =>
    refine Fixpoint.searchFrom_congr (fun current reached => ?_)
      (fun current next reached updated => ?_)
      settings.iterationLimit settings.iterationLimit.toNat 0 related
    · obtain ⟨next, real, logical, -⟩ := exists_round (loop settings rfl) related reached
      exact real.trans logical.symm
    · obtain ⟨next', real, -, kept⟩ := exists_round (loop settings rfl) related reached
      rw [real, bind_eq_ok_iff] at updated
      obtain ⟨-, -, same⟩ := updated
      cases same
      exact kept

attribute [local instance] Bulk.routine

/-- Two steps whose entries are not yet ones, with settings that just admit the join and a limit on
the rounds that is reached before anything is settled. -/
theorem transitive_eq_boolean_twoSteps :
    Nonnegative 3 twoSteps ∧ ∃ outcome,
      transitive
        (.ok { sizeLimit := some 27, iterationLimit := 1, tolerance := 1 / 2 : Settings ℚ })
        (.real twoSteps) =
        .ok outcome ∧
      semiring (.ok { sizeLimit := some 27, iterationLimit := 1, tolerance := 1 / 2 : Settings ℚ })
        (.ok .boolean) (.real twoSteps) none none = .ok outcome ∧
      outcome.value.data = #[0, 1, 1, 0, 0, 1, 0, 0, 0] ∧ ¬ outcome.converged := by
  let settings : Settings ℚ := { sizeLimit := some 27, iterationLimit := 1, tolerance := 1 / 2 }
  have entries : ∀ x < 3, ∀ z < 3, 0 ≤ twoSteps.entry [x, z] := by decide +kernel
  have related : Nonnegative 3 twoSteps := ⟨rfl, fun x z hx hz => entries x hx z hz⟩
  have loop : ∀ valid, Except.ok (ε := Fault) settings = .ok valid → valid.strategy = .loop := by
    rintro _ ⟨⟩
    rfl
  have same := transitive_eq_boolean loop related
  have computed :
      (transitive (.ok settings) (.real twoSteps)).toOption.map
        (fun o => (o.value.data, o.converged)) =
      some (#[0, 1, 1, 0, 0, 1, 0, 0, 0], false) := by decide +kernel
  cases found : transitive (.ok settings) (.real twoSteps) with
  | error fault =>
    rw [found] at computed
    cases computed
  | ok outcome =>
    rw [found] at computed
    obtain ⟨data, converged⟩ := Prod.ext_iff.1 (Option.some.inj computed)
    exact ⟨related, outcome, rfl, same.symm.trans found, data, by simpa using converged⟩

end TensorCalculus.Closure
