import TensorCalculus.Proofs.Closure.Rounds
import TensorCalculus.Proofs.Closure.Weights

/-!
# Shortest walks

Under the lesser and the sum every round of the closure allows for one more step. When a round
changes nothing, further steps lead to no shorter walk either. Unless a walk back to its start has a
negative length, this is so after as many rounds as there are values. -/

namespace TensorCalculus.Closure

open TensorCalculus.Layout TensorCalculus.Outcome TensorCalculus.SumProduct

theorem isLeast_foldl_min {α : Type} [LinearOrder α] (x : α) (xs : List α) :
    IsLeast {y | y ∈ x :: xs} (xs.foldl min x) :=
  List.min?_eq_some_iff.1 List.min?_cons'

/-- How long a walk is. A step that the relation lacks is infinitely long, and so is every walk that
takes it. -/
def length (relation : Tensor (WithTop ℚ)) : Nat → List Nat → Nat → WithTop ℚ :=
  along (· + ·) fun x z => relation.entry [x, z]

/-- The lengths of the walks from one value to another with a limited number of values between these
two. -/
def lengths (relation : Tensor (WithTop ℚ)) (n : Nat) (k : ℕ∞) (x z : Nat) : Set (WithTop ℚ) :=
  {d | ∃ between : List Nat, between.length ≤ k ∧ (∀ y ∈ between, y < n) ∧
    length relation x between z = d}

/-- Whether a square matrix holds the lengths of the shortest walks with a limited number of values
between their ends, hence with one step more than that. -/
def Shortest (relation : Tensor (WithTop ℚ)) (n : Nat) (k : ℕ∞) (t : Tensor (WithTop ℚ)) : Prop :=
  t.shape = [n, n] ∧ ∀ x z, x < n → z < n → IsLeast (lengths relation n k x z) (t.entry [x, z])

section Rounds

variable {settings : Settings (WithTop ℚ)} {relation current t : Tensor (WithTop ℚ)} {n k : Nat}

theorem mem_lengths {x z : Nat} {d : WithTop ℚ} : d ∈ lengths relation n k x z ↔
    ∃ between : List Nat, between.length ≤ k ∧ (∀ y ∈ between, y < n) ∧
      length relation x between z = d := by
  simp [lengths]

theorem length_append_singleton (relation : Tensor (WithTop ℚ)) (x : Nat) (between : List Nat)
    (y z : Nat) :
    length relation x (between ++ [y]) z = length relation x between y + relation.entry [y, z] :=
  along_append _ x between y [] z

theorem mem_lengths_top {x z : Nat} {d : WithTop ℚ} : d ∈ lengths relation n ⊤ x z ↔
    ∃ between : List Nat, (∀ y ∈ between, y < n) ∧ length relation x between z = d := by
  simp [lengths]

theorem step_mem_lengths (x z : Nat) : relation.entry [x, z] ∈ lengths relation n k x z :=
  mem_lengths.2 ⟨[], Nat.zero_le k, nofun, rfl⟩

theorem mem_lengths_succ {x z : Nat} {d : WithTop ℚ} (member : d ∈ lengths relation n k x z) :
    d ∈ lengths relation n (k + 1 : Nat) x z := by
  obtain ⟨between, few, inside, long⟩ := mem_lengths.1 member
  exact mem_lengths.2 ⟨between, few.trans (Nat.le_succ k), inside, long⟩

/-- A walk goes on over a value below the bound. -/
theorem add_mem_lengths {x y z : Nat} {d : WithTop ℚ} (member : d ∈ lengths relation n k x y)
    (hy : y < n) : d + relation.entry [y, z] ∈ lengths relation n (k + 1 : Nat) x z := by
  obtain ⟨between, few, inside, rfl⟩ := mem_lengths.1 member
  refine mem_lengths.2 ⟨between ++ [y], ?_, ?_, length_append_singleton relation x between y z⟩
  · rw [List.length_append, List.length_singleton]
    exact Nat.succ_le_succ few
  · rw [List.forall_mem_append, List.forall_mem_singleton]
    exact ⟨inside, hy⟩

theorem shortest_start (square : relation.shape = [n, n]) : Shortest relation n 0 relation := by
  refine ⟨square, fun x z _ _ => ?_⟩
  have only : lengths relation n 0 x z = {relation.entry [x, z]} := by
    ext d
    simp [lengths, length, along, eq_comm]
  rw [only]
  exact isLeast_singleton

/-- One round takes the least of an entry and of the sums over one further step. -/
theorem exists_extend_minPlus (unlimited : settings.sizeLimit = none)
    (square : relation.shape = [n, n]) (same : current.shape = [n, n]) :
    ∃ t, extend settings (.minPlus ⊤) relation current = .ok t ∧ t.shape = [n, n] ∧
      ∀ x z, x < n → z < n →
      IsLeast {d | d = current.entry [x, z] ∨
        ∃ y < n, current.entry [x, y] + relation.entry [y, z] = d} (t.entry [x, z]) := by
  obtain ⟨t, extended, alike, entries⟩ := exists_extend minPlus_exact settings square same
  rw [admitsJoin_of_unlimited unlimited, ok_bind] at extended
  refine ⟨t, extended, alike.shape_eq.trans same, fun x z hx hz => ?_⟩
  let sums := (List.range n).map fun y => current.entry [x, y] + relation.entry [y, z]
  have lesser_min : (lesser : WithTop ℚ → WithTop ℚ → WithTop ℚ) = min := by
    funext a b
    exact lesser_eq_min a b
  have entry : t.entry [x, z] = sums.foldl min (current.entry [x, z]) := by
    calc t.entry [x, z] = lesser (current.entry [x, z]) (sums.foldl lesser ⊤) := entries x z hx hz
      _ = min (current.entry [x, z]) (sums.foldl min ⊤) := by rw [lesser_min]
      _ = sums.foldl min (min (current.entry [x, z]) ⊤) := List.foldl_assoc.symm
      _ = sums.foldl min (current.entry [x, z]) := by rw [min_top_right]
  have least := isLeast_foldl_min (current.entry [x, z]) sums
  rw [← entry] at least
  simpa [sums] using least

/-- A round allows for one more step. -/
theorem exists_extend_shortest (unlimited : settings.sizeLimit = none)
    (square : relation.shape = [n, n]) (shortest : Shortest relation n k current) :
    ∃ t, extend settings (.minPlus ⊤) relation current = .ok t ∧
      Shortest relation n (k + 1 : Nat) t := by
  obtain ⟨same, least⟩ := shortest
  obtain ⟨t, extended, shape, round⟩ := exists_extend_minPlus unlimited square same
  refine ⟨t, extended, shape, fun x z hx hz => ⟨?_, ?_⟩⟩
  · rcases (round x z hx hz).1 with kept | ⟨y, hy, shorter⟩
    · rw [kept]
      exact mem_lengths_succ (least x z hx hz).1
    · rw [← shorter]
      exact add_mem_lengths (least x y hx hy).1 hy
  · intro d member
    obtain ⟨between, few, inside, rfl⟩ := mem_lengths.1 member
    rcases List.eq_nil_or_concat' between with rfl | ⟨front, y, rfl⟩
    · exact ((round x z hx hz).2 (.inl rfl)).trans ((least x z hx hz).2 (step_mem_lengths x z))
    · rw [List.forall_mem_append, List.forall_mem_singleton] at inside
      rw [List.length_append, List.length_singleton] at few
      have start : length relation x front y ∈ lengths relation n k x y :=
        mem_lengths.2 ⟨front, Nat.le_of_succ_le_succ few, inside.1, rfl⟩
      calc t.entry [x, z] ≤ current.entry [x, y] + relation.entry [y, z] :=
            (round x z hx hz).2 (.inr ⟨y, inside.2, rfl⟩)
        _ ≤ length relation x front y + relation.entry [y, z] :=
            add_le_add_left ((least x y hx inside.2).2 start) _
        _ = length relation x (front ++ [y]) z :=
          (length_append_singleton relation x front y z).symm

theorem exists_extensions_shortest (unlimited : settings.sizeLimit = none)
    (square : relation.shape = [n, n]) (k : Nat) :
    ∃ t, extensions settings (.minPlus ⊤) relation k = .ok t ∧ Shortest relation n k t := by
  apply exists_extensions
  case start => exact shortest_start square
  case round => exact fun _ _ => exists_extend_shortest unlimited square

/-- When a round changes nothing, no number of further steps leads to a shorter walk. -/
theorem shortest_of_agree {s t : Tensor (WithTop ℚ)} (before : Shortest relation n k s)
    (after : Shortest relation n (k + 1 : Nat) t) (agree : Agree n t s) :
    Shortest relation n ⊤ t := by
  refine ⟨after.1, fun x z hx hz => ⟨?_, ?_⟩⟩
  · obtain ⟨between, -, inside, long⟩ := mem_lengths.1 (after.2 x z hx hz).1
    exact mem_lengths_top.2 ⟨between, inside, long⟩
  · intro d member
    obtain ⟨between, inside, rfl⟩ := mem_lengths_top.1 member
    clear member
    induction between using List.reverseRecOn generalizing z with
    | nil => exact (after.2 x z hx hz).2 (step_mem_lengths x z)
    | append_singleton front y ih =>
      rw [List.forall_mem_append, List.forall_mem_singleton] at inside
      -- The best way to `y` takes few enough steps for one more to be allowed.
      have further :
          s.entry [x, y] + relation.entry [y, z] ∈ lengths relation n (k + 1 : Nat) x z :=
        add_mem_lengths (before.2 x y hx inside.2).1 inside.2
      calc t.entry [x, z] ≤ s.entry [x, y] + relation.entry [y, z] := (after.2 x z hx hz).2 further
        _ = t.entry [x, y] + relation.entry [y, z] := by rw [agree x y hx inside.2]
        _ ≤ length relation x front y + relation.entry [y, z] :=
          add_le_add_left (ih y inside.2 inside.1) _
        _ = length relation x (front ++ [y]) z :=
          (length_append_singleton relation x front y z).symm

/-- Without negative walks back to their start, as many rounds as there are values are enough. -/
theorem agree_of_noGain {s t : Tensor (WithTop ℚ)}
    (free : NoGain (fun x z => relation.entry [x, z]) n) (many : n ≤ k + 1)
    (before : Shortest relation n k s) (after : Shortest relation n (k + 1 : Nat) t) :
    Agree n t s := by
  intro x z hx hz
  apply le_antisymm
  · exact (after.2 x z hx hz).2 (mem_lengths_succ (before.2 x z hx hz).1)
  · obtain ⟨between, -, inside, long⟩ := mem_lengths.1 (after.2 x z hx hz).1
    obtain ⟨direct, distinct, below, less⟩ := exists_direct free hz inside x
    have few := length_lt_of_nodup distinct hz below
    calc s.entry [x, z] ≤ length relation x direct z :=
          (before.2 x z hx hz).2 (mem_lengths.2 ⟨direct, by omega, below, rfl⟩)
      _ ≤ length relation x between z := less
      _ = t.entry [x, z] := long

/-- Heights that no step falls short of bound the length of every walk. -/
theorem le_height_add_length {height : Nat → ℚ}
    (steady : ∀ x < n, ∀ z < n, (height z : WithTop ℚ) ≤ height x + relation.entry [x, z])
    {x z : Nat} (hx : x < n)
    (hz : z < n) {between : List Nat} (inside : ∀ y ∈ between, y < n) :
    (height z : WithTop ℚ) ≤ height x + length relation x between z := by
  induction between generalizing x with
  | nil => exact steady x hx z hz
  | cons y between ih =>
    rw [List.forall_mem_cons] at inside
    calc (height z : WithTop ℚ) ≤ height y + length relation y between z := ih inside.1 inside.2
      _ ≤ height x + relation.entry [x, y] + length relation y between z :=
          add_le_add_left (steady x hx y inside.1) _
      _ = height x + length relation x (y :: between) z := add_assoc _ _ _

theorem noGain_of_heights (height : Nat → ℚ)
    (steady : ∀ x < n, ∀ z < n, (height z : WithTop ℚ) ≤ height x + relation.entry [x, z]) :
    NoGain (fun x z => relation.entry [x, z]) n := by
  intro x hx between inside
  have bound := le_height_add_length steady hx hx inside
  change 0 ≤ length relation x between x
  cases long : length relation x between x with
  | top => exact le_top
  | coe d =>
    rw [long] at bound
    norm_cast at bound ⊢
    linarith

end Rounds

/-- What the closure under the lesser and the sum computes. After every number of rounds the entries
are the lengths of the shortest walks that take at most one step more than that. A search that
converges has found the shortest of all walks, and unless a walk back to its start has a negative
length it converges within as many rounds as there are values. -/
theorem minPlus_finds_shortest {settings : Settings (WithTop ℚ)} {relation : Tensor (WithTop ℚ)}
    {n : Nat} (unlimited : settings.sizeLimit = none) (square : relation.shape = [n, n])
    {limit : Option (Pending Int)} {m : Int}
    (limited : limit.getD (.ok settings.iterationLimit) = .ok m)
    {settled : Option (WithTop ℚ → Except Fault Bool)}
    (exactly : settled.getD (Fixpoint.within settings.tolerance) = Fixpoint.within 0) :
    (∀ k : Nat,
      ∃ t, extensions settings (.minPlus ⊤) relation k = .ok t ∧ Shortest relation n k t) ∧
      ∃ outcome, semiring (.ok settings) (.ok (.minPlus ⊤)) (.real relation) limit settled =
        .ok outcome ∧
        extensions settings (.minPlus ⊤) relation outcome.iterations.toNat = .ok outcome.value ∧
        (outcome.converged → Shortest relation n ⊤ outcome.value) ∧
        (NoGain (fun x z => relation.entry [x, z]) n → max 1 (n : Int) ≤ m →
          outcome.converged) := by
  have rounds (k : Nat) : ∃ t, extensions settings (.minPlus ⊤) relation k = .ok t ∧
      Shortest relation n k t :=
    exists_extensions_shortest unlimited square k
  refine ⟨rounds, ?_⟩
  obtain ⟨states, reached, shortest, ended⟩ :=
    semiring_cases square rounds (fun _ _ least => least.1) limited exactly
  rcases ended with ⟨j, -, agree, found⟩ | ⟨never, found⟩
  · exact ⟨_, found,
      reached (j + 1), fun _ => shortest_of_agree (shortest j) (shortest (j + 1)) agree, fun _ _ =>
        rfl⟩
  · refine ⟨_, found, reached m.toNat, nofun, fun free enough => ?_⟩
    obtain ⟨j, last⟩ : ∃ j : Nat, m.toNat = j + 1 := Nat.exists_eq_add_one.2 (by omega)
    exact absurd (agree_of_noGain free (by omega) (shortest j) (shortest (j + 1)))
      (never j (by omega))

/-- Three values with a detour that is shorter than the step it replaces, and a step back to the
start. -/
def detour : Tensor (WithTop ℚ) :=
  ⟨"lengths", ["start", "end"], [3, 3],
    #[⊤, (4 : ℚ), (1 : ℚ), (3 : ℚ), ⊤, ⊤, ⊤, ((-2 : ℚ) : WithTop ℚ), ⊤], rfl, rfl⟩

theorem minPlus_finds_shortest_detour :
    ∃ outcome,
        semiring (.ok { tolerance := 0 : Settings (WithTop ℚ) }) (.ok (.minPlus ⊤)) (.real detour)
        (some (.ok 3)) none = .ok outcome ∧
      outcome.converged ∧ Shortest detour 3 ⊤ outcome.value := by
  have free : NoGain (fun x z => detour.entry [x, z]) 3 :=
    noGain_of_heights (fun x => if x = 0 then 0 else if x = 1 then -1 else 1) (by decide +kernel)
  obtain ⟨-, outcome, found, -, least, converges⟩ :=
    @minPlus_finds_shortest { tolerance := 0 } detour 3 rfl rfl (some (.ok 3)) 3 rfl none rfl
  have converged := converges free (by decide)
  exact ⟨outcome, found, converged, least converged⟩

end TensorCalculus.Closure
