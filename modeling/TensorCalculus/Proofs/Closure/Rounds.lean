import TensorCalculus.Proofs.Closure.Joins
import TensorCalculus.Proofs.Fixpoint.Search

/-!
# Rounds of a closure

Under a sum and a product that form a semiring every round of the closure is carried out. It adds to
each entry of the matrix the entry of its product with the relation. A search that tolerates no
change ends behind the first round that leaves every entry as it is, or at the limit. -/

namespace TensorCalculus

open TensorCalculus.Layout TensorCalculus.Outcome

variable {α : Type}

namespace SumProduct.Exact

variable {s : SumProduct α} {encode : s.Carrier → α}

theorem sum_range (exact : s.Exact encode) (f : Nat → s.Carrier) (n : Nat) :
    letI := exact.semiring
    ∑ y ∈ Finset.range n, f y = s.sum ((List.range n).map f) := by
  let := exact.semiring
  induction n with
  | zero => rfl
  | succ n ih =>
    rw [Finset.sum_range_succ, ih, SumProduct.sum, SumProduct.sum, List.range_succ, List.map_append,
      List.foldl_append]
    rfl

end SumProduct.Exact

namespace Closure

/-- Where storing values loses nothing, sums are taken place by place. -/
theorem sumOf_eq {s : SumProduct α} {encode : s.Carrier → α} (exact : s.Exact encode)
    {left right : Tensor α} (shapes : left.shape = right.shape) :
    sumOf s left right =
      .ok (left.zipWith (fun a b => encode (s.add (s.lift a) (s.lift b))) right shapes) := by
  let combine (a b : α) : α := encode (s.add (s.lift a) (s.lift b))
  have combined :
      List.Forall₂ (fun pair x => s.lower (s.add (s.lift pair.1) (s.lift pair.2)) = .ok x)
      (left.data.toList.zip right.data.toList)
      (Array.zipWith combine left.data right.data).toList := by
    rw [Array.toList_zipWith, ← List.map_uncurry_zip_eq_zipWith, List.forall₂_map_right_iff]
    exact List.forall₂_same.2 fun pair _ => exact.lower_eq _
  have made :=
    Tensor.make_eq left.name left.length_indices (left.zipWith combine right shapes).size_data
  exact bind_eq_ok_iff.2 ⟨_, mapM_eq_ok_iff.2 combined, made⟩

section Round

variable {s : SumProduct α} {encode : s.Carrier → α} {settings : Settings α}
  {relation current : Tensor α} {n : Nat}

/-- One round of the closure in terms of entries. -/
theorem exists_extend [Zero α] (exact : s.Exact encode) (settings : Settings α)
    (square : relation.shape = [n, n]) (same : current.shape = [n, n]) :
    ∃ t, extend settings s relation current = (admitsJoin settings n >>= fun _ => .ok t) ∧
      t.Alike current ∧
      ∀ x z, x < n → z < n → t.entry [x, z] = encode (s.add (s.lift (current.entry [x, z]))
        (s.sum ((List.range n).map fun y =>
          s.mul (s.lift (current.entry [x, y])) (s.lift (relation.entry [y, z]))))) := by
  let := exact.semiring
  obtain ⟨joined, ran, shape, products⟩ :=
    exists_product (runSumProduct_evaluates exact) settings square same
  have shapes : current.shape = joined.shape := same.trans shape.symm
  refine ⟨current.zipWith (fun a b => encode (s.add (s.lift a) (s.lift b))) joined shapes, ?_,
    ⟨rfl, rfl, rfl⟩, fun x z hx hz => ?_⟩
  · have product :
      semiringEinsum settings s (.understood joining) [.real current, .real relation] none = _ :=
        ran
    rw [extend, product]
    cases admitsJoin settings n with
    | error fault => rfl
    | ok => exact sumOf_eq exact shapes
  · have inside : InRange current.shape [x, z] := same ▸ ⟨hx, hz, trivial⟩
    rw [Tensor.entry_zipWith _ shapes inside, products x z hx hz, exact.lift_encode,
      exact.sum_range]
    rfl

/-- The tensor after a number of rounds. -/
def extensions (settings : Settings α) (s : SumProduct α) (relation : Tensor α) :
    Nat → Except Fault (Tensor α)
  | 0 => .ok relation
  | k + 1 => do extend settings s relation (← extensions settings s relation k)

/-- What holds of the relation and is kept up by every round holds after every number of rounds. -/
theorem exists_extensions {kept : Nat → Tensor α → Prop} (start : kept 0 relation)
    (round : ∀ k current, kept k current →
      ∃ t, extend settings s relation current = .ok t ∧ kept (k + 1) t) (k : Nat) :
    ∃ t, extensions settings s relation k = .ok t ∧ kept k t := by
  induction k with
  | zero => exact ⟨relation, rfl, start⟩
  | succ k ih =>
    obtain ⟨current, before, holds⟩ := ih
    obtain ⟨t, extended, after⟩ := round k current holds
    refine ⟨t, ?_, after⟩
    rw [extensions, before, ok_bind, extended]

/-- Whether two matrices agree in every entry. -/
def Agree [Zero α] (n : Nat) (left right : Tensor α) : Prop :=
  ∀ x z, x < n → z < n → left.entry [x, z] = right.entry [x, z]

variable [Zero α] [Sub α] [Neg α] [LinearOrder α] [BEq α] [ReflBEq α] [Fixpoint.Discerning α]

/-- Where a search ends that tolerates no change. -/
theorem semiring_cases (square : relation.shape = [n, n]) {kept : Nat → Tensor α → Prop}
    (rounds : ∀ k, ∃ t, extensions settings s relation k = .ok t ∧ kept k t)
    (shape : ∀ k t, kept k t → t.shape = [n, n])
    {limit : Option (Pending Int)} {m : Int}
    (limited : limit.getD (.ok settings.iterationLimit) = .ok m)
    {settled : Option (α → Except Fault Bool)}
    (exactly : settled.getD (Fixpoint.within settings.tolerance) = Fixpoint.within 0) :
    ∃ states : Nat → Tensor α, (∀ k, extensions settings s relation k = .ok (states k)) ∧
      (∀ k, kept k (states k)) ∧ ((∃ j : Nat, j < m.toNat ∧ Agree n (states (j + 1)) (states j) ∧
        semiring (.ok settings) (.ok s) (.real relation) limit settled =
          .ok { value := states (j + 1), iterations := (j + 1 : Nat), converged := true }) ∨
      ((∀ j : Nat, j < m.toNat → ¬ Agree n (states (j + 1)) (states j)) ∧
        semiring (.ok settings) (.ok s) (.real relation) limit settled =
          .ok { value := states m.toNat, iterations := m, converged := false })) := by
  choose states reached holds using rounds
  refine ⟨states, reached, holds, ?_⟩
  have shapes (k : Nat) : (states k).shape = [n, n] := shape k (states k) (holds k)
  choose moves measured still using fun k =>
    Fixpoint.exists_still_iff ((shapes k).trans (shapes (k + 1)).symm)
  have agree (k : Nat) : moves k ≤ 0 ↔ Agree n (states (k + 1)) (states k) := by
    rw [still k, shapes k]
    constructor
    · intro same x z hx hz
      exact same [x, z] ⟨hx, hz, trivial⟩
    · intro same c inside
      obtain ⟨x, z, rfl, hx, hz⟩ := exists_pair_of_inRange inside
      exact same x z hx hz
  have updates (k : Nat) : extend settings s relation (states k) = .ok (states (k + 1)) := by
    have next := reached (k + 1)
    rwa [extensions, reached k, ok_bind] at next
  have decides (k : Nat) : (Fixpoint.maxChange (states k) (states (k + 1)) >>= Fixpoint.within 0) =
      .ok (decide (moves k ≤ 0)) := by
    rw [measured k, ok_bind]
    rfl
  have start : states 0 = relation := Except.ok.inj (reached 0).symm
  have search : semiring (.ok settings) (.ok s) (.real relation) limit settled = Fixpoint.searchFrom
      (extend settings s relation) Fixpoint.maxChange (Fixpoint.within 0) m m.toNat 0
        (states 0) := by
    rw [semiring, expectSquare_of_shape _ square, ok_bind, ok_bind, limited, ok_bind, exactly,
      start]
    rfl
  rw [search]
  rcases Fixpoint.searchFrom_cases updates decides m m.toNat 0 with ⟨j, -, before, -, calm, ended⟩ |
    ⟨never, ended⟩
  · exact .inl ⟨j, by omega, (agree j).1 (of_decide_eq_true calm), ended⟩
  · simp only [Nat.zero_le, Nat.zero_add, decide_eq_true_iff, agree,
      forall_true_left] at never ended
    exact .inr ⟨never, ended⟩

end Round

end Closure

end TensorCalculus
