import TensorCalculus.Proofs.Decimal.Doubles
import TensorCalculus.Proofs.Fixpoint.Search

/-!
# The first settled iterate

Over doubles the change between two tensors is the greatest move of an entry, or not a number if
some move is not. An iteration ends at the first iterate whose change is at most the tolerance, and
else at the limit. -/

namespace TensorCalculus.Fixpoint

open TensorCalculus.Layout TensorCalculus.Outcome TensorCalculus.Decimal

section Greatest

variable {a b : Float}

theorem isNaN_prevailing (nan : a.isNaN = true ∨ b.isNaN = true) :
    (prevailing a b).isNaN = true := by
  rw [prevailing, if_neg (not_le_of_isNaN nan.symm)]
  split
  case isTrue self =>
    exact nan.resolve_left (by rw [double_le_self_iff.1 self]; exact Bool.false_ne_true)
  case isFalse other =>
    rw [double_le_self_iff, Bool.not_eq_false] at other
    exact other

theorem prevailing_bounds (number : a.isNaN = false) (number' : b.isNaN = false) :
    (prevailing a b = a ∨ prevailing a b = b) ∧ a ≤ prevailing a b ∧ b ≤ prevailing a b := by
  have self := double_le_self_iff.2 number
  have self' := double_le_self_iff.2 number'
  rw [prevailing, if_pos self]
  split
  case isTrue below => exact ⟨.inl rfl, self, below⟩
  case isFalse above =>
    exact ⟨.inr rfl, (double_le_total number number').resolve_right above, self'⟩

/-- A double that is the greatest of some doubles, or not a number as one of them is not. -/
structure Greatest (xs : List Float) (d : Float) : Prop where
  unknown : (∃ x ∈ xs, x.isNaN = true) → d.isNaN = true
  greatest : (∀ x ∈ xs, x.isNaN = false) → d ∈ xs ∧ ∀ x ∈ xs, x ≤ d

/-- The first two of some doubles may be replaced by the one that prevails. -/
theorem Greatest.of_prevailing {xs : List Float} {d : Float}
    (greatest : Greatest (prevailing a b :: xs) d) : Greatest (a :: b :: xs) d := by
  obtain ⟨unknown, greatest⟩ := greatest
  constructor
  · rintro ⟨x, mem, nan⟩
    simp only [List.mem_cons] at mem
    rcases mem with rfl | rfl | later
    · exact unknown ⟨_, List.mem_cons_self, isNaN_prevailing (.inl nan)⟩
    · exact unknown ⟨_, List.mem_cons_self, isNaN_prevailing (.inr nan)⟩
    · exact unknown ⟨x, List.mem_cons_of_mem _ later, nan⟩
  · intro numbers
    simp only [List.forall_mem_cons] at numbers greatest
    obtain ⟨number, number', later⟩ := numbers
    obtain ⟨either, below, below'⟩ := prevailing_bounds number number'
    have first : (prevailing a b).isNaN = false := by rcases either with same | same <;> rwa [same]
    obtain ⟨mem, bound, bounds⟩ := greatest ⟨first, later⟩
    constructor
    · simp only [List.mem_cons] at mem ⊢
      rcases mem with rfl | mem
      · exact either.imp id .inl
      · exact .inr (.inr mem)
    · simp only [List.forall_mem_cons]
      exact ⟨double_le_trans below bound, double_le_trans below' bound, bounds⟩

theorem greatest_foldl (d : Float) (ds : List Float) :
    Greatest (d :: ds) (ds.foldl prevailing d) := by
  induction ds generalizing d with
  | nil =>
    constructor
    · rintro ⟨x, mem, nan⟩
      rw [List.mem_singleton] at mem
      rwa [mem] at nan
    · intro numbers
      simpa using double_le_self_iff.2 (numbers d List.mem_cons_self)
  | cons e ds ih => exact (ih (prevailing d e)).of_prevailing

end Greatest

section Change

variable {s t : Tensor Float}

theorem isNaN_moved_iff (previous current : Float) :
    (moved previous current).isNaN = true ↔ (current == previous) = false ∧
      (current - previous).isNaN = true := by
  unfold moved
  split
  case isTrue same =>
    have zero : (0 : Float).isNaN = false := by decide +kernel
    simp only [same, zero, Bool.false_eq_true, Bool.true_eq_false, false_and]
  case isFalse differ =>
    rw [Bool.not_eq_true] at differ
    simp only [differ, isNaN_magnitude, true_and]

/-- The greatest move of an entry between two tensors of one shape. Without entries it is zero, and
it is not a number if the difference of two unequal entries is not. -/
structure GreatestMove (s t : Tensor Float) (d : Float) : Prop where
  empty : volume s.shape = 0 → d = 0
  unknown :
    (∃ c, InRange s.shape c ∧ (t.entry c == s.entry c) = false ∧
      (t.entry c - s.entry c).isNaN = true) →
    d.isNaN = true
  greatest : 0 < volume s.shape →
    (∀ c, InRange s.shape c → (t.entry c == s.entry c) = false →
      (t.entry c - s.entry c).isNaN = false) →
    (∃ c, InRange s.shape c ∧ moved (s.entry c) (t.entry c) = d) ∧
      ∀ c, InRange s.shape c → moved (s.entry c) (t.entry c) ≤ d

theorem exists_greatestMove (shapes : s.shape = t.shape) :
    ∃ d, maxChange s t = .ok d ∧ GreatestMove s t d := by
  have size : (List.zipWith moved s.data.toList t.data.toList).length = volume s.shape := by
    simp [s.size_data, t.size_data, shapes]
  have members (e : Float) := mem_moves_iff shapes (e := e)
  rw [maxChange, if_pos shapes]
  cases moves : List.zipWith moved s.data.toList t.data.toList with
  | nil =>
    rw [moves] at size members
    refine ⟨0, rfl, fun _ => rfl, ?_, ?_⟩
    · rintro ⟨c, inside, -⟩
      exact absurd ((members _).2 ⟨c, inside, rfl⟩) List.not_mem_nil
    · intro positive
      exact absurd size positive.ne
  | cons d ds =>
    rw [moves] at size members
    obtain ⟨unknown, greatest⟩ := greatest_foldl d ds
    refine ⟨_, rfl, ?_, ?_, ?_⟩
    · intro empty
      rw [empty] at size
      cases size
    · rintro ⟨c, inside, differ, nan⟩
      exact unknown ⟨_, (members _).2 ⟨c, inside, rfl⟩, (isNaN_moved_iff _ _).2 ⟨differ, nan⟩⟩
    · intro _ numbers
      have all : ∀ x ∈ d :: ds, x.isNaN = false := by
        intro x mem
        obtain ⟨c, inside, rfl⟩ := (members x).1 mem
        rw [← Bool.not_eq_true, isNaN_moved_iff, not_and, Bool.not_eq_true]
        exact numbers c inside
      obtain ⟨mem, bounds⟩ := greatest all
      exact ⟨(members _).1 mem, fun c inside => bounds _ ((members _).2 ⟨c, inside, rfl⟩)⟩

end Change

section Iterates

/-- Whether a change is at most a tolerance, which may be any number. -/
def Settles (tolerance : Amount) (change : Float) : Prop :=
  Relation.atMost.admitsAny ((Amount.real change).compare tolerance) = true

instance (tolerance : Amount) (change : Float) : Decidable (Settles tolerance change) :=
  inferInstanceAs (Decidable (_ = true))

theorem withinLiteral_toLiteral (tolerance : Amount) (change : Float) :
    withinLiteral tolerance.toLiteral change = .ok (decide (Settles tolerance change)) := by
  have same :
      decide (Settles tolerance change) =
        Relation.atMost.admitsAny ((Amount.real change).compare tolerance) :=
    Bool.decide_eq_true
  rw [same]
  cases tolerance <;> rfl

variable {update : Tensor Float → Except Fault (Tensor Float)} {initial : Tensor Float}

/-- An update that keeps the shape of a tensor can be repeated without end. -/
theorem exists_iterates
    (returns : ∀ t, t.shape = initial.shape → ∃ next, update t = .ok next ∧ next.shape = t.shape) :
    ∃ iterates : Nat → Tensor Float, iterates 0 = initial ∧
      ∀ k, update (iterates k) = .ok (iterates (k + 1)) ∧
        (iterates k).shape = (iterates (k + 1)).shape := by
  let Fitting := { t : Tensor Float // t.shape = initial.shape }
  have steps (t : Fitting) : ∃ next : Fitting, update t.1 = .ok next.1 := by
    obtain ⟨next, updated, same⟩ := returns t.1 t.2
    exact ⟨⟨next, same.trans t.2⟩, updated⟩
  choose next updates using steps
  refine ⟨fun k => (next^[k] ⟨initial, rfl⟩).1, rfl, fun k => ⟨?_, ?_⟩⟩
  · simp only [Function.iterate_succ_apply']
    exact updates _
  · rw [(next^[k] ⟨initial, rfl⟩).2, (next^[k + 1] ⟨initial, rfl⟩).2]

/-- A search ends at the first settled iterate. Where an update gives a tensor of the shape of its
argument, the search returns what the update gives when it is applied, one time after another, as
often as the search says. If a change up to the limit is at most the tolerance, that is the number
of the first such change, and the search has converged; otherwise it is the limit, and the search
has not. -/
theorem search_ends_first_settled {limit : Int} (natural : 0 ≤ limit)
    (returns : ∀ t, t.shape = initial.shape → ∃ next, update t = .ok next ∧ next.shape = t.shape)
    (tolerance : Amount) :
    ∃ (iterates : Nat → Tensor Float) (change : Nat → Float) (o : Outcome (Tensor Float)),
      iterates 0 = initial ∧ (∀ k, update (iterates k) = .ok (iterates (k + 1))) ∧
      (∀ k, maxChange (iterates k) (iterates (k + 1)) = .ok (change (k + 1)) ∧
        GreatestMove (iterates k) (iterates (k + 1)) (change (k + 1))) ∧
      search update maxChange (withinLiteral tolerance.toLiteral) limit initial = .ok o ∧
      (∃ n : Nat, o.iterations = n ∧ o.value = iterates n) ∧
      ((∃ k : Nat, 1 ≤ k ∧ k ≤ limit ∧ Settles tolerance (change k)) → o.converged = true ∧
        ∃ n : Nat, o.iterations = n ∧ IsLeast { k : Nat | 1 ≤ k ∧ k ≤ limit ∧
          Settles tolerance (change k) } n) ∧
      ((¬ ∃ k : Nat, 1 ≤ k ∧ k ≤ limit ∧ Settles tolerance (change k)) → o.converged = false ∧
        o.iterations = limit) := by
  obtain ⟨rounds, rfl⟩ := Int.eq_ofNat_of_zero_le natural
  obtain ⟨iterates, start, steps⟩ := exists_iterates returns
  have measures (k : Nat) := exists_greatestMove (steps k).2
  choose change measured greatest using measures
  let calm (k : Nat) : Bool := decide (Settles tolerance (change k))
  have decides (k : Nat) :
      (maxChange (iterates k) (iterates (k + 1)) >>= withinLiteral tolerance.toLiteral) =
      .ok (calm k) := by
    rw [measured, ok_bind, withinLiteral_toLiteral]
  have search : search update maxChange (withinLiteral tolerance.toLiteral) (rounds : Int) initial =
      searchFrom update maxChange (withinLiteral tolerance.toLiteral) rounds rounds 0
        (iterates 0) := by
    rw [start, Fixpoint.search, Int.toNat_natCast]
  refine ⟨iterates, fun k => change (k - 1), ?_⟩
  simp only [search, Nat.add_sub_cancel, Nat.cast_le]
  rcases searchFrom_cases (fun k => (steps k).1) decides rounds rounds 0 with
    ⟨j, -, within, before, calm, ended⟩ | ⟨never, ended⟩
  · rw [Nat.zero_add] at within
    have found : 1 ≤ j + 1 ∧ j + 1 ≤ rounds ∧ Settles tolerance (change (j + 1 - 1)) :=
      ⟨Nat.le_add_left 1 j, within, of_decide_eq_true calm⟩
    refine ⟨_, start, fun k => (steps k).1, fun k => ⟨measured k, greatest k⟩, ended,
      ⟨j + 1, rfl, rfl⟩, ?_, ?_⟩
    · refine fun _ => ⟨rfl, j + 1, rfl, found, ?_⟩
      rintro k ⟨positive, -, settles⟩
      by_contra earlier
      exact before (k - 1) (Nat.zero_le _) (by omega) (decide_eq_true settles)
    · exact fun unfound => absurd ⟨j + 1, found⟩ unfound
  · rw [Nat.zero_add] at ended
    refine ⟨_, start, fun k => (steps k).1, fun k => ⟨measured k, greatest k⟩, ended,
      ⟨rounds, rfl, rfl⟩, ?_, ?_⟩
    · rintro ⟨k, positive, inLimit, settles⟩
      exact absurd (decide_eq_true settles) (never (k - 1) (Nat.zero_le _) (by omega))
    · exact fun _ => ⟨rfl, rfl⟩

/-- An entry below a half and one above. -/
def uneven : Tensor Float := ⟨"uneven", ["entry"], [2], #[0.2, 0.7], rfl, rfl⟩

theorem search_ends_first_settled_threshold :
    (∀ t : Tensor Float, t.shape = uneven.shape → (t.threshold 0.5).shape = t.shape) ∧
      ∃ (change : Nat → Float) (o : Outcome (Tensor Float)),
        search (fun t => .ok (t.threshold 0.5)) maxChange (withinLiteral (Amount.whole 0).toLiteral)
          5 uneven = .ok o ∧
        o.converged = true ∧ o.iterations = 2 ∧
        IsLeast { k : Nat | 1 ≤ k ∧ k ≤ (5 : Int) ∧ Settles (.whole 0) (change k) } 2 := by
  have returns (t : Tensor Float) (_ : t.shape = uneven.shape) :
      ∃ next, (.ok (t.threshold 0.5) : Except Fault (Tensor Float)) = .ok next ∧
        next.shape = t.shape := ⟨_, rfl, rfl⟩
  obtain ⟨iterates, change, o, -, -, -, ended, -, settled, unsettled⟩ :=
    search_ends_first_settled (by decide : (0 : Int) ≤ 5) returns (.whole 0)
  have evaluated :
      (search (fun t => .ok (t.threshold 0.5)) maxChange (withinLiteral (Amount.whole 0).toLiteral)
        5
      uneven).toOption.map (fun o => (o.converged, o.iterations)) = some (true,
      2) := by decide +kernel
  rw [ended] at evaluated
  obtain ⟨converged, iterations⟩ := Prod.mk.inj (Option.some.inj evaluated)
  refine ⟨fun _ _ => rfl, change, o, ended, converged, iterations, ?_⟩
  by_cases settling : ∃ k : Nat, 1 ≤ k ∧ k ≤ (5 : Int) ∧ Settles (.whole 0) (change k)
  · obtain ⟨-, n, same, least⟩ := settled settling
    obtain rfl : n = 2 := Int.ofNat.inj (same.symm.trans iterations)
    exact least
  · obtain ⟨stuck, -⟩ := unsettled settling
    rw [converged] at stuck
    cases stuck

end Iterates

end TensorCalculus.Fixpoint
