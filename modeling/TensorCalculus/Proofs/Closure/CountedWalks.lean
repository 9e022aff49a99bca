import TensorCalculus.Proofs.Closure.Rounds
import TensorCalculus.Proofs.Closure.Weights

/-!
# Counted walks

Under the usual sum and product a round adds to what has been counted the same walks over again,
each continued by one step. A walk is counted once for every choice of the rounds that continued it,
so the counts of all walks with more than one step go on growing from round to round. The search
does not come to an end as long as there are such walks. -/

namespace TensorCalculus.Closure

open TensorCalculus.Layout TensorCalculus.Outcome TensorCalculus.SumProduct

theorem entry_nonneg {relation : Tensor ℚ} {n : Nat} (square : relation.shape = [n, n])
    (nonnegative : ∀ x z, x < n → z < n → 0 ≤ relation.entry [x, z]) (x z : Nat) :
    0 ≤ relation.entry [x, z] := by
  by_contra negative
  have inside := Tensor.inRange_of_entry_ne_zero (ne_of_lt (not_le.1 negative))
  rw [square] at inside
  exact negative (nonnegative x z inside.1 inside.2.1)

/-- The product of the entries along a walk. -/
def weight (relation : Tensor ℚ) : Nat → List Nat → Nat → ℚ :=
  along (· * ·) fun x z => relation.entry [x, z]

/-- The sum of the weights of all walks with a given number of values between their ends, each of
them below a bound. -/
def walkSum (relation : Tensor ℚ) (n l x z : Nat) : ℚ :=
  ((coordinatesFrom (List.replicate l n)).map fun between => weight relation x between z).sum

section Sums

variable {relation : Tensor ℚ} {n : Nat}

theorem walkSum_zero (x z : Nat) : walkSum relation n 0 x z = relation.entry [x, z] := by
  simp [walkSum, coordinatesFrom, weight, along]

/-- The walks are divided by their first step. -/
theorem walkSum_succ (l x z : Nat) :
    walkSum relation n (l + 1) x z = ∑ y ∈ Finset.range n,
      relation.entry [x, y] * walkSum relation n l y z := by
  have first (y : Nat) : ((coordinatesFrom (List.replicate l n)).map fun between =>
      weight relation x (y :: between) z).sum = relation.entry [x, y] * walkSum relation n l y z :=
    List.sum_map_mul_left _ _ _
  rw [walkSum, List.replicate_succ, coordinatesFrom, List.map_flatMap, List.flatMap,
    List.sum_flatten, List.map_map]
  simp only [Function.comp_def, List.map_map, first]
  rfl

/-- They may as well be divided by their last step. -/
theorem walkSum_succ_last (l x z : Nat) :
    walkSum relation n (l + 1) x z = ∑ y ∈ Finset.range n,
      walkSum relation n l x y * relation.entry [y, z] := by
  induction l generalizing x with
  | zero => simp only [walkSum_succ, walkSum_zero]
  | succ l ih =>
    calc walkSum relation n (l + 1 + 1) x z
        = ∑ v ∈ Finset.range n, relation.entry [x, v] * walkSum relation n (l + 1) v z :=
          walkSum_succ (l + 1) x z
      _ = ∑ v ∈ Finset.range n, ∑ y ∈ Finset.range n,
            relation.entry [x, v] * (walkSum relation n l v y * relation.entry [y, z]) := by
          simp only [ih, Finset.mul_sum]
      _ = ∑ y ∈ Finset.range n, ∑ v ∈ Finset.range n,
            relation.entry [x, v] * (walkSum relation n l v y * relation.entry [y, z]) :=
              Finset.sum_comm
      _ = ∑ y ∈ Finset.range n, walkSum relation n (l + 1) x y * relation.entry [y, z] := by
          simp only [walkSum_succ, Finset.sum_mul, mul_assoc]

/-- Where no walk of one length weighs anything, no longer walk does. -/
theorem walkSum_eq_zero_of_le {k l : Nat} (ended : ∀ x z, walkSum relation n k x z = 0)
    (more : k ≤ l) (x z : Nat) : walkSum relation n l x z = 0 := by
  induction l, more using Nat.le_induction generalizing x with
  | base => exact ended x z
  | succ l more ih => rw [walkSum_succ, Finset.sum_eq_zero fun y _ => by rw [ih y, mul_zero]]

theorem walkSum_nonneg (nonnegative : ∀ x z, 0 ≤ relation.entry [x, z]) (l x z : Nat) :
    0 ≤ walkSum relation n l x z := by
  induction l generalizing x with
  | zero => exact (nonnegative x z).trans_eq (walkSum_zero x z).symm
  | succ l ih =>
    rw [walkSum_succ]
    exact Finset.sum_nonneg fun y _ => mul_nonneg (nonnegative x y) (ih y)

/-- Where all steps lead upwards, a walk leads up by as much as it has steps. -/
theorem lt_of_walkSum_ne_zero (upwards : ∀ x z, relation.entry [x, z] ≠ 0 → x < z) {l x z : Nat}
    (joined : walkSum relation n l x z ≠ 0) : x + l < z := by
  induction l generalizing x with
  | zero =>
    rw [walkSum_zero] at joined
    exact upwards x z joined
  | succ l ih =>
    rw [walkSum_succ] at joined
    obtain ⟨y, -, walk⟩ := Finset.exists_ne_zero_of_sum_ne_zero joined
    have first := upwards x y (left_ne_zero_of_mul walk)
    have rest := ih (right_ne_zero_of_mul walk)
    omega

/-- Pascal's rule under a sum. -/
theorem sum_choose_succ (f : Nat → ℚ) (k : Nat) :
    ∑ l ∈ Finset.range (k + 1 + 1), ((k + 1).choose l : ℚ) * f l =
      ∑ l ∈ Finset.range (k + 1), (k.choose l : ℚ) * f l + ∑ l ∈ Finset.range (k + 1),
        (k.choose l : ℚ) * f (l + 1) := by
  have last : ∑ l ∈ Finset.range (k + 1 + 1), (k.choose l : ℚ) * f l =
      ∑ l ∈ Finset.range (k + 1), (k.choose l : ℚ) * f l := by
    rw [Finset.sum_range_succ, Nat.choose_succ_self, Nat.cast_zero, zero_mul, add_zero]
  calc ∑ l ∈ Finset.range (k + 1 + 1), ((k + 1).choose l : ℚ) * f l
      = ∑ l ∈ Finset.range (k + 1), ((k + 1).choose (l + 1) : ℚ) * f (l + 1) + f 0 := by
        rw [Finset.sum_range_succ', Nat.choose_zero_right, Nat.cast_one, one_mul]
    _ = ∑ l ∈ Finset.range (k + 1), (k.choose l : ℚ) * f (l + 1) +
          (∑ l ∈ Finset.range (k + 1), (k.choose (l + 1) : ℚ) * f (l + 1) + f 0) := by
        simp only [Nat.choose_succ_succ', Nat.cast_add, add_mul, Finset.sum_add_distrib, add_assoc]
    _ = ∑ l ∈ Finset.range (k + 1), (k.choose l : ℚ) * f (l + 1) +
          ∑ l ∈ Finset.range (k + 1 + 1), (k.choose l : ℚ) * f l := by
        rw [Finset.sum_range_succ' _ (k + 1), Nat.choose_zero_right, Nat.cast_one, one_mul]
    _ = ∑ l ∈ Finset.range (k + 1), (k.choose l : ℚ) * f l +
          ∑ l ∈ Finset.range (k + 1), (k.choose l : ℚ) * f (l + 1) := by rw [last, add_comm]

end Sums

section Rounds

variable {settings : Settings ℚ} {relation current : Tensor ℚ} {n k : Nat}

/-- One round adds the product with the relation. -/
theorem exists_extend_counting (unlimited : settings.sizeLimit = none)
    (square : relation.shape = [n, n]) (same : current.shape = [n, n]) :
    ∃ t, extend settings .counting relation current = .ok t ∧ t.shape = [n, n] ∧
      ∀ x z, x < n → z < n → t.entry [x, z] =
        current.entry [x, z] + ∑ y ∈ Finset.range n,
          current.entry [x, y] * relation.entry [y, z] := by
  obtain ⟨t, extended, alike, entries⟩ := exists_extend counting_exact settings square same
  rw [admitsJoin_of_unlimited unlimited, ok_bind] at extended
  refine ⟨t, extended, alike.shape_eq.trans same, fun x z hx hz => ?_⟩
  let products := (List.range n).map fun y => current.entry [x, y] * relation.entry [y, z]
  calc t.entry [x, z] = current.entry [x, z] + products.foldl (· + ·) 0 := entries x z hx hz
    _ = current.entry [x, z] + products.sum := by rw [List.sum_eq_foldl]
    _ = current.entry [x, z] + ∑ y ∈ Finset.range n, current.entry [x, y] * relation.entry [y, z] :=
      rfl

/-- After a number of rounds a walk has been counted once for every choice of the rounds that
continued it. -/
def CountsAgain (relation : Tensor ℚ) (n k : Nat) (t : Tensor ℚ) : Prop :=
  t.shape = [n, n] ∧ ∀ x z, x < n → z < n →
    t.entry [x, z] = ∑ l ∈ Finset.range (k + 1), (k.choose l : ℚ) * walkSum relation n l x z

theorem countsAgain_start (square : relation.shape = [n, n]) :
    CountsAgain relation n 0 relation := by
  refine ⟨square, fun x z _ _ => ?_⟩
  rw [Finset.sum_range_one, walkSum_zero, Nat.choose_self, Nat.cast_one, one_mul]

/-- When every walk is continued by one step, each count becomes that of the next round. -/
theorem CountsAgain.add_sum_mul (counts : CountsAgain relation n k current) {x z : Nat} (hx : x < n)
    (hz : z < n) :
    current.entry [x, z] + ∑ y ∈ Finset.range n, current.entry [x, y] * relation.entry [y, z] =
      ∑ l ∈ Finset.range (k + 1 + 1), ((k + 1).choose l : ℚ) * walkSum relation n l x z := by
  have continued : ∑ y ∈ Finset.range n, current.entry [x, y] * relation.entry [y, z] =
      ∑ l ∈ Finset.range (k + 1), (k.choose l : ℚ) * walkSum relation n (l + 1) x z := by
    calc ∑ y ∈ Finset.range n, current.entry [x, y] * relation.entry [y, z]
        = ∑ y ∈ Finset.range n, ∑ l ∈ Finset.range (k + 1),
            (k.choose l : ℚ) * (walkSum relation n l x y * relation.entry [y, z]) := by
          apply Finset.sum_congr rfl
          intro y hy
          rw [counts.2 x y hx (Finset.mem_range.1 hy), Finset.sum_mul]
          simp only [mul_assoc]
      _ = ∑ l ∈ Finset.range (k + 1), ∑ y ∈ Finset.range n,
            (k.choose l : ℚ) * (walkSum relation n l x y * relation.entry [y, z]) := Finset.sum_comm
      _ = ∑ l ∈ Finset.range (k + 1), (k.choose l : ℚ) * walkSum relation n (l + 1) x z := by
          simp only [walkSum_succ_last, Finset.mul_sum]
  rw [counts.2 x z hx hz, continued, sum_choose_succ]

theorem exists_extend_counts (unlimited : settings.sizeLimit = none)
    (square : relation.shape = [n, n]) (counts : CountsAgain relation n k current) :
    ∃ t, extend settings .counting relation current = .ok t ∧ CountsAgain relation n (k + 1) t := by
  obtain ⟨t, extended, shape, entries⟩ := exists_extend_counting unlimited square counts.1
  refine ⟨t, extended, shape, fun x z hx hz => ?_⟩
  rw [entries x z hx hz, counts.add_sum_mul hx hz]

/-- Whether some step can be followed by another one. -/
def Chained (relation : Tensor ℚ) : Prop :=
  ∃ x y z, relation.entry [x, y] * relation.entry [y, z] ≠ 0

/-- Without walks of two steps there is nothing to count but the steps themselves. -/
theorem CountsAgain.entry_eq (counts : CountsAgain relation n k current)
    (single : ¬ Chained relation) {x z : Nat} (hx : x < n) (hz : z < n) :
    current.entry [x, z] = relation.entry [x, z] := by
  have two (x z : Nat) : walkSum relation n 1 x z = 0 := by
    rw [walkSum_succ]
    apply Finset.sum_eq_zero
    intro y _
    by_contra walks
    exact single ⟨x, y, z, by rwa [walkSum_zero] at walks⟩
  rw [counts.2 x z hx hz, Finset.sum_range_succ']
  simp [walkSum_eq_zero_of_le two, walkSum_zero]

theorem CountsAgain.le_entry (counts : CountsAgain relation n k current)
    (nonnegative : ∀ x z, 0 ≤ relation.entry [x, z]) {x z : Nat} (hx : x < n) (hz : z < n) :
    relation.entry [x, z] ≤ current.entry [x, z] := by
  have terms (l : Nat) (_ : l ∈ Finset.range (k + 1)) :
      0 ≤ (k.choose l : ℚ) * walkSum relation n l x z :=
    mul_nonneg (Nat.cast_nonneg _) (walkSum_nonneg nonnegative l x z)
  have first := Finset.single_le_sum terms (Finset.mem_range.2 (Nat.succ_pos k))
  rwa [← counts.2 x z hx hz, walkSum_zero, Nat.choose_zero_right, Nat.cast_one, one_mul] at first

/-- A round changes something as long as one step can be followed by another. -/
theorem agree_iff_not_chained {s t : Tensor ℚ} (square : relation.shape = [n, n])
    (nonnegative : ∀ x z, 0 ≤ relation.entry [x, z]) (before : CountsAgain relation n k s)
    (after : CountsAgain relation n (k + 1) t) : Agree n t s ↔ ¬ Chained relation := by
  constructor
  · rintro agree ⟨x, y, z, chained⟩
    obtain ⟨hx, hy, -⟩ := square ▸ Tensor.inRange_of_entry_ne_zero (left_ne_zero_of_mul chained)
    obtain ⟨-, hz, -⟩ := square ▸ Tensor.inRange_of_entry_ne_zero (right_ne_zero_of_mul chained)
    have more (y : Nat) (hy : y < n) : relation.entry [x, y] * relation.entry [y, z] ≤
        s.entry [x, y] * relation.entry [y, z] :=
      mul_le_mul_of_nonneg_right (before.le_entry nonnegative hx hy) (nonnegative y z)
    have step (y : Nat) : 0 ≤ relation.entry [x, y] * relation.entry [y, z] :=
      mul_nonneg (nonnegative x y) (nonnegative y z)
    have added : ∑ y ∈ Finset.range n, s.entry [x, y] * relation.entry [y, z] = 0 := by
      have grown := before.add_sum_mul hx hz
      rw [← after.2 x z hx hz, agree x z hx hz] at grown
      exact add_eq_left.1 grown
    have terms : ∀ y ∈ Finset.range n, 0 ≤ s.entry [x, y] * relation.entry [y, z] := fun y hy =>
      (step y).trans (more y (Finset.mem_range.1 hy))
    have vanishes := (Finset.sum_eq_zero_iff_of_nonneg terms).1 added y (Finset.mem_range.2 hy)
    exact chained (le_antisymm ((more y hy).trans_eq vanishes) (step y))
  · intro single x z hx hz
    rw [after.entry_eq single hx hz, before.entry_eq single hx hz]

end Rounds

/-- What the closure under the usual sum and product computes. After every number of rounds a walk
has been counted once for every choice of the rounds that continued it, and not just once. The
search converges only when no step can be followed by another, and it then gives back the
relation. -/
theorem counting_counts_again {settings : Settings ℚ} {relation : Tensor ℚ} {n : Nat}
    (unlimited : settings.sizeLimit = none) (square : relation.shape = [n, n])
    (nonnegative : ∀ x z, x < n → z < n → 0 ≤ relation.entry [x, z])
    {limit : Option (Pending Int)} {m : Int}
    (limited : limit.getD (.ok settings.iterationLimit) = .ok m)
    {settled : Option (ℚ → Except Fault Bool)}
    (exactly : settled.getD (Fixpoint.within settings.tolerance) = Fixpoint.within 0) :
    (∀ k, ∃ t, extensions settings .counting relation k = .ok t ∧ CountsAgain relation n k t) ∧
      ∃ outcome, semiring (.ok settings) (.ok .counting) (.real relation) limit settled =
        .ok outcome ∧
        extensions settings .counting relation outcome.iterations.toNat = .ok outcome.value ∧
        (outcome.converged ↔ 1 ≤ m ∧ ¬ Chained relation) ∧
        (outcome.converged → Agree n outcome.value relation) := by
  have rounds := exists_extensions (countsAgain_start square) fun _ _ =>
    exists_extend_counts unlimited square
  refine ⟨rounds, ?_⟩
  obtain ⟨states, reached, counts, ended⟩ :=
    semiring_cases square rounds (fun _ _ again => again.1) limited exactly
  have still (k : Nat) : Agree n (states (k + 1)) (states k) ↔ ¬ Chained relation :=
    agree_iff_not_chained square (entry_nonneg square nonnegative) (counts k) (counts (k + 1))
  rcases ended with ⟨j, low, agree, found⟩ | ⟨never, found⟩
  · have single := (still j).1 agree
    refine ⟨_, found, reached (j + 1), ⟨fun _ => ⟨by omega, single⟩, fun _ => rfl⟩,
      fun _ x z hx hz => ?_⟩
    exact (counts (j + 1)).entry_eq single hx hz
  · refine ⟨_, found, reached m.toNat, ⟨nofun, ?_⟩, nofun⟩
    rintro ⟨several, single⟩
    exact absurd ((still 0).2 single) (never 0 (by omega))

/-- Three values in a row. -/
def chain : Tensor ℚ := ⟨"steps", ["from", "to"], [3, 3], #[0, 1, 0, 0, 0, 1, 0, 0, 0], rfl, rfl⟩

theorem counting_counts_again_chain :
    (∀ x z, x < 3 → z < 3 → 0 ≤ chain.entry [x, z]) ∧
      ∃ outcome, semiring (.ok { tolerance := 0 : Settings ℚ }) (.ok .counting) (.real chain)
        (some (.ok 4)) none = .ok outcome ∧ ¬ outcome.converged := by
  have entries : ∀ x < 3, ∀ z < 3, 0 ≤ chain.entry [x, z] := by decide +kernel
  have nonnegative (x z : Nat) (hx : x < 3) (hz : z < 3) : 0 ≤ chain.entry [x, z] :=
    entries x hx z hz
  have chained : Chained chain := ⟨0, 1, 2, by decide +kernel⟩
  obtain ⟨-, outcome, found, -, converges, -⟩ :=
    @counting_counts_again { tolerance := 0 } chain 3 rfl rfl nonnegative (some (.ok 4)) 4 rfl none
      rfl
  exact ⟨nonnegative, outcome, found, fun converged => (converges.1 converged).2 chained⟩

/-- The steps lead upwards only, and just one walk leads from the first value to the last one. After
four rounds it has been counted four times. -/
theorem counting_differs_from_walkSum_chain :
    (∀ x z, chain.entry [x, z] ≠ 0 → x < z) ∧
      (∀ k, 3 ≤ k → ∑ l ∈ Finset.range k, walkSum chain 3 l 0 2 = 1) ∧
      ∃ outcome, semiring (.ok { tolerance := 0 : Settings ℚ }) (.ok .counting) (.real chain)
        (some (.ok 4)) none =
        .ok outcome ∧ outcome.converged = false ∧ outcome.value.entry [0, 2] = 4 := by
  have upwards (x z : Nat) (step : chain.entry [x, z] ≠ 0) : x < z := by
    have below : ∀ x < 3, ∀ z < 3, chain.entry [x, z] ≠ 0 → x < z := by decide +kernel
    obtain ⟨hx, hz, -⟩ := Tensor.inRange_of_entry_ne_zero step
    exact below x hx z hz step
  refine ⟨upwards, fun k many => ?_, ?_⟩
  · induction k, many using Nat.le_induction with
    | base => decide +kernel
    | succ k many ih =>
      have longer : walkSum chain 3 k 0 2 = 0 := by
        by_contra joined
        have := lt_of_walkSum_ne_zero upwards joined
        omega
      rw [Finset.sum_range_succ, ih, longer, add_zero]
  · have run :
        (semiring (.ok { tolerance := 0 : Settings ℚ }) (.ok .counting) (.real chain)
            (some (.ok 4)) none).toOption.map
          (fun outcome => (outcome.converged, outcome.value.entry [0, 2])) =
        some (false, 4) := by
      decide +kernel
    cases found : semiring (.ok { tolerance := 0 : Settings ℚ }) (.ok .counting) (.real chain)
        (some (.ok 4)) none with
    | error fault => simp [found, Except.toOption] at run
    | ok outcome =>
      simp only [found, Except.toOption, Option.map_some, Option.some.injEq, Prod.mk.injEq] at run
      exact ⟨outcome, rfl, run⟩

end TensorCalculus.Closure
