import Mathlib.Analysis.Complex.Exponential
import TensorCalculus.Proofs.Tensor.Transposition
import TensorCalculus.Tensor.Softmax

/-!
# Shares of the exponentials

An exponential is positive and turns sums into products, so the greatest element that is taken off
cancels: every element becomes its share of the exponentials along one axis. The shares along the
axis are positive and add up to one, a constant that is added along the axis is taken off again, and
columns are shared as the rows of the transposed matrix. -/

namespace TensorCalculus

open TensorCalculus.Layout TensorCalculus.Outcome

variable {α K : Type}

namespace Tensor

/-- The coordinates that differ from the given ones on one axis at most. -/
def along (t : Tensor α) (a : Nat) (coords : List Nat) : List (List Nat) :=
  (List.range (t.shape.getD a 0)).map (coords.set a)

/-- Which axis the shares are taken along when an axis is named by a whole number. A vector has only
one. -/
inductive RunsAlong (t : Tensor α) : Int → Nat → Prop
  | vector (axis : Int) : t.rank = 1 → RunsAlong t axis 0
  | columns : t.rank = 2 → RunsAlong t 0 0
  | rows : t.rank = 2 → RunsAlong t 1 1
  | lastAxis : t.rank = 2 → RunsAlong t (-1) 1

section Along

variable {t u : Tensor α} {a : Nat} {c o p coords : List Nat}

theorem along_eq_of_mem (among : p ∈ t.along a c) : t.along a p = t.along a c := by
  obtain ⟨k, -, rfl⟩ := List.mem_map.1 among
  apply List.map_congr_left
  intro k _
  exact List.set_set ..

theorem mem_along (inside : InRange t.shape coords) (axis : a < t.rank) :
    coords ∈ t.along a coords := by
  have count : a < coords.length := inside.length_eq ▸ axis
  have below : coords[a] < t.shape.getD a 0 := by
    rw [List.getD_eq_getElem _ _ axis]
    exact getElem_lt_of_inRange inside axis count
  exact List.mem_map.2 ⟨coords[a], List.mem_range.2 below, List.set_getElem_self count⟩

theorem along_ne_nil (inside : InRange t.shape coords) (axis : a < t.rank) :
    t.along a coords ≠ [] :=
  List.ne_nil_of_mem (mem_along inside axis)

/-- Coordinates lie along the same line as others or not, wherever on their own line they are
taken. -/
theorem mem_along_iff (inside : InRange t.shape c) (axis : a < t.rank) (among : p ∈ t.along a c) :
    p ∈ t.along a o ↔ c ∈ t.along a o := by
  have same := along_eq_of_mem among
  constructor
  · intro other
    rw [← along_eq_of_mem other, same]
    exact mem_along inside axis
  · intro other
    rwa [← along_eq_of_mem other]

theorem inRange_set {shape coords : List Nat} {axis k : Nat} (inside : InRange shape coords)
    (below : k < shape.getD axis 0) : InRange shape (coords.set axis k) := by
  induction axis generalizing shape coords with
  | zero =>
    cases shape with
    | nil => cases below
    | cons d ds =>
      cases coords with
      | nil => exact inside.elim
      | cons e es => exact ⟨below, inside.2⟩
  | succ axis ih =>
    cases shape with
    | nil => cases below
    | cons d ds =>
      cases coords with
      | nil => exact inside.elim
      | cons e es => exact ⟨inside.1, ih inside.2 below⟩

theorem inRange_of_mem_along (inside : InRange t.shape c) (among : p ∈ t.along a c) :
    InRange t.shape p := by
  obtain ⟨k, below, rfl⟩ := List.mem_map.1 among
  exact inRange_set inside (List.mem_range.1 below)

theorem along_congr (shapes : u.shape = t.shape) (a : Nat) (c : List Nat) :
    u.along a c = t.along a c := by
  rw [along, along, shapes]

theorem RunsAlong.lt_rank {axis : Int} (runs : t.RunsAlong axis a) : a < t.rank := by
  cases runs with
  | vector _ rank => omega
  | columns rank => omega
  | rows rank => omega
  | lastAxis rank => omega

theorem RunsAlong.congr {axis : Int} (runs : t.RunsAlong axis a) (shapes : u.shape = t.shape) :
    u.RunsAlong axis a := by
  have ranks : u.rank = t.rank := congrArg List.length shapes
  cases runs with
  | vector _ rank => exact .vector _ (ranks.trans rank)
  | columns rank => exact .columns (ranks.trans rank)
  | rows rank => exact .rows (ranks.trans rank)
  | lastAxis rank => exact .lastAxis (ranks.trans rank)

end Along

section Lanes

variable [Zero α] {t : Tensor α}

theorem FlipOf.entry_eq {u : Tensor α} (flip : t.FlipOf u) {i j : Nat}
    (inside : InRange t.shape [i, j]) : u.entry [j, i] = t.entry [i, j] := by
  obtain ⟨x, here, moved⟩ := flip.elem?_eq i j inside
  rw [entry, entry, here, moved]

theorem toList_data_of_vector {n : Nat} (shape : t.shape = [n]) :
    t.data.toList = (List.range n).map fun k => t.entry [k] := by
  have size : t.data.size = n := by rw [t.size_data, shape, volume_cons, volume_nil, Nat.mul_one]
  apply List.ext_getElem (by simp [size])
  intro k hk _
  rw [Array.length_toList, size] at hk
  have found := getElem?_data_eq_entry (shape ▸ ⟨hk, trivial⟩ : InRange t.shape [k])
  have place : offset t.shape [k] = k := by
    rw [shape]
    exact Nat.mul_one k
  rw [place, Array.getElem?_eq_getElem (size ▸ hk)] at found
  simpa using found

theorem filterMap_elem?_eq {places : Nat → List Nat} {n : Nat}
    (inside : ∀ k < n, InRange t.shape (places k)) :
    (List.range n).filterMap (fun k => t.elem? (places k)) = (List.range n).map fun k => t.entry
      (places k) := by
  rw [List.filterMap_eq_map_iff_forall_eq_some]
  intro k hk
  have here := inside k (List.mem_range.1 hk)
  rw [entry, elem?_eq_some here, Option.getD_some]

/-- The lane of a place holds the elements along its axis. -/
theorem lane_eq {rows columns a i j : Nat} (shape : t.shape = [rows, columns]) (axis : a < 2)
    (inside : InRange [rows, columns] [i, j]) :
    t.lane a rows columns i j = (t.along a [i, j]).map t.entry := by
  obtain ⟨hi, hj, -⟩ := inside
  obtain rfl | rfl : a = 0 ∨ a = 1 := by omega
  · rw [lane, if_pos rfl, filterMap_elem?_eq fun k hk => shape ▸ ⟨hk, hj, trivial⟩, along, shape,
      List.map_map]
    rfl
  · rw [lane, if_neg Nat.one_ne_zero, filterMap_elem?_eq fun k hk => shape ▸ ⟨hi, hk, trivial⟩,
      along, shape, List.map_map]
    rfl

variable [Add α] [Sub α] [Div α] [LT α] [DecidableLT α]

theorem softmax_of_laneAxis {rows columns a : Nat} {axis : Int} (shape : t.shape = [rows, columns])
    (bound : a < 2) (known : axis ∈ [-1, 0, 1]) (chosen : laneAxis (.int axis) = .ok a)
    (e : α → α) :
    ∃ s, t.softmax e (.int axis) = .ok s ∧ s.Alike t ∧
      ∀ c, InRange t.shape c → s.entry c = share e ((t.along a c).map t.entry) (t.entry c) := by
  have named : ([-1, 0, 1].any fun n => (Literal.int axis).same (.int n)) = true := by
    simp only [List.mem_cons, List.not_mem_nil, or_false] at known
    rcases known with rfl | rfl | rfl <;> rfl
  unfold softmax
  split
  case h_1 single =>
    rw [shape] at single
    cases single
  case h_2 rows' columns' pair =>
    rw [shape] at pair
    cases pair
    rw [if_pos named]
    split
    case isTrue empty =>
      refine ⟨t, rfl, ⟨rfl, rfl, rfl⟩, fun c inside => ?_⟩
      have below := offset_lt_volume inside
      rw [← t.size_data, Array.isEmpty_iff_size_eq_zero.1 empty] at below
      cases below
    case isFalse =>
      rw [chosen, ok_bind]
      refine ⟨_, rfl, ⟨rfl, rfl, rfl⟩, fun c inside => ?_⟩
      have pair := inside.length_eq
      rw [shape] at pair
      obtain ⟨i, j, rfl⟩ := List.length_eq_two.1 pair
      rw [entry, elem?_tabulate inside, Option.getD_some, ← lane_eq shape bound (shape ▸ inside),
        entry, elem?_eq_some inside]
      rfl
  case h_3 _ others => exact absurd shape (others rows columns)

/-- Every element is replaced by its share in the elements along the axis. -/
theorem RunsAlong.exists_softmax {axis : Int} {a : Nat} (runs : t.RunsAlong axis a) (e : α → α) :
    ∃ s, t.softmax e (.int axis) = .ok s ∧ s.Alike t ∧
      ∀ c, InRange t.shape c → s.entry c = share e ((t.along a c).map t.entry) (t.entry c) := by
  cases runs with
  | vector _ rank =>
    obtain ⟨n, shape⟩ := List.length_eq_one_iff.1 rank
    refine ⟨t.map (share e t.data.toList), ?_, ⟨rfl, rfl, rfl⟩, fun c inside => ?_⟩
    · unfold softmax
      split
      case h_1 => rfl
      case h_2 pair =>
        rw [shape] at pair
        cases pair
      case h_3 others _ => exact absurd shape (others n)
    · have single := inside.length_eq
      rw [shape] at single
      obtain ⟨i, rfl⟩ := List.length_eq_one_iff.1 single
      rw [entry_map _ inside, toList_data_of_vector shape, along, shape, List.map_map]
      rfl
  | columns rank =>
    obtain ⟨rows, columns, shape⟩ := List.length_eq_two.1 rank
    exact softmax_of_laneAxis shape (by decide) (by decide) rfl e
  | rows rank =>
    obtain ⟨rows, columns, shape⟩ := List.length_eq_two.1 rank
    exact softmax_of_laneAxis shape (by decide) (by decide) rfl e
  | lastAxis rank =>
    obtain ⟨rows, columns, shape⟩ := List.length_eq_two.1 rank
    exact softmax_of_laneAxis shape (by decide) (by decide) rfl e

end Lanes

section Shares

/-- What is asked of an exponential. -/
structure Exponential [Field K] [LinearOrder K] (e : K → K) : Prop where
  pos : ∀ x, 0 < e x
  map_add : ∀ x y, e (x + y) = e x * e y

variable [Field K] [LinearOrder K] {e : K → K} {t u s v : Tensor K} {axis : Int} {a : Nat}

/-- A tensor like another one, whose elements are shares of the exponentials along an axis. -/
structure SharesAlong (e : K → K) (t : Tensor K) (a : Nat) (result : Tensor K) : Prop where
  alike : result.Alike t
  entry_eq : ∀ c, InRange t.shape c →
    result.entry c = e (t.entry c) / ((t.along a c).map fun p => e (t.entry p)).sum
  entry_pos : ∀ c, InRange t.shape c → 0 < result.entry c
  sum_eq_one : ∀ c, InRange t.shape c → ((t.along a c).map result.entry).sum = 1

/-- Whatever is taken off all elements first cancels. -/
theorem Exponential.share_eq (exponential : Exponential e) {lane : List K} (nonempty : lane ≠ [])
    (x : K) : share e lane x = e x / (lane.map e).sum := by
  cases lane with
  | nil => exact absurd rfl nonempty
  | cons y ys =>
    simp only [share]
    generalize peak y ys = top
    have off (z : K) : e (z - top) = e z * e (-top) := by rw [sub_eq_add_neg, exponential.map_add]
    simp only [off]
    rw [← List.sum_eq_foldl, List.sum_map_mul_right, mul_div_mul_right _ _ (exponential.pos _).ne']

theorem sharesAlong_of_share [IsStrictOrderedRing K] (exponential : Exponential e)
    (bound : a < t.rank) (alike : s.Alike t)
    (shared : ∀ c, InRange t.shape c → s.entry c = share e ((t.along a c).map t.entry)
      (t.entry c)) :
    t.SharesAlong e a s := by
  have total_pos (c : List Nat) (inside : InRange t.shape c) :
      0 < ((t.along a c).map fun p => e (t.entry p)).sum := by
    apply List.sum_pos
    · intro y hy
      obtain ⟨p, -, rfl⟩ := List.mem_map.1 hy
      exact exponential.pos _
    · exact mt List.map_eq_nil_iff.1 (along_ne_nil inside bound)
  have entry_eq (c : List Nat) (inside : InRange t.shape c) :
      s.entry c = e (t.entry c) / ((t.along a c).map fun p => e (t.entry p)).sum := by
    rw [shared c inside,
      exponential.share_eq (mt List.map_eq_nil_iff.1 (along_ne_nil inside bound)), List.map_map]
    rfl
  refine ⟨alike, entry_eq, fun c inside => ?_, fun c inside => ?_⟩
  · rw [entry_eq c inside]
    exact div_pos (exponential.pos _) (total_pos c inside)
  · have line : (t.along a c).map s.entry =
        (t.along a c).map fun p => e
          (t.entry p) * ((t.along a c).map fun p => e (t.entry p)).sum⁻¹ := by
      apply List.map_congr_left
      intro p among
      rw [entry_eq p (inRange_of_mem_along inside among), along_eq_of_mem among, div_eq_mul_inv]
    rw [line, List.sum_map_mul_right, mul_inv_cancel₀ (total_pos c inside).ne']

theorem RunsAlong.exists_shares [IsStrictOrderedRing K] (runs : t.RunsAlong axis a)
    (exponential : Exponential e) : ∃ s, t.softmax e (.int axis) = .ok s ∧ t.SharesAlong e a s := by
  obtain ⟨s, shared, alike, entries⟩ := runs.exists_softmax e
  exact ⟨s, shared, sharesAlong_of_share exponential runs.lt_rank alike entries⟩

/-- A constant along one line of the axis makes no difference to the shares. -/
theorem SharesAlong.eq_of_raised (exponential : Exponential e) (bound : a < t.rank)
    (shares : t.SharesAlong e a s) (shares' : u.SharesAlong e a v) (alike : u.Alike t)
    {o : List Nat} {k : K}
    (raised : ∀ c, InRange t.shape c → u.entry c = t.entry c + if c ∈ t.along a o then k else 0) :
    v = s := by
  have same : v.Alike s :=
    { name_eq := shares'.alike.name_eq.trans (alike.name_eq.trans shares.alike.name_eq.symm)
      indices_eq :=
        shares'.alike.indices_eq.trans (alike.indices_eq.trans shares.alike.indices_eq.symm)
      shape_eq := shares'.alike.shape_eq.trans (alike.shape_eq.trans shares.alike.shape_eq.symm) }
  apply same.eq_of_entries
  intro c inside
  rw [same.shape_eq, shares.alike.shape_eq] at inside
  let rise : K := e (if c ∈ t.along a o then k else 0)
  have line : ((u.along a c).map fun p => e (u.entry p)) = (t.along a c).map fun p =>
      e (t.entry p) * rise := by
    rw [along_congr alike.shape_eq]
    apply List.map_congr_left
    intro p among
    rw [raised p (inRange_of_mem_along inside among), exponential.map_add]
    simp only [mem_along_iff inside bound among, rise]
  rw [shares'.entry_eq c (alike.shape_eq ▸ inside), shares.entry_eq c inside, line, raised c inside,
    exponential.map_add, List.sum_map_mul_right]
  exact mul_div_mul_right _ _ (exponential.pos _).ne'

/-- The shares along the columns of a matrix are those along the rows of the transposed one. -/
theorem SharesAlong.eq_of_flipOf {rows columns : Nat} (shape : t.shape = [rows, columns])
    (flip : t.FlipOf u) (shares : u.SharesAlong e 1 v) (back : v.FlipOf s) {r : Tensor K}
    (shares' : t.SharesAlong e 0 r) : s = r := by
  have turned : u.shape = [columns, rows] := by
    rw [flip.shape_eq, shape]
    rfl
  have same : s.Alike r :=
    { name_eq := back.name_eq.trans
        (shares.alike.name_eq.trans (flip.name_eq.trans shares'.alike.name_eq.symm))
      indices_eq := by
        rw [back.indices_eq, shares.alike.indices_eq, flip.indices_eq, List.reverse_reverse,
          shares'.alike.indices_eq]
      shape_eq := by
        rw [back.shape_eq, shares.alike.shape_eq, flip.shape_eq, List.reverse_reverse,
          shares'.alike.shape_eq] }
  apply same.eq_of_entries
  intro c inside
  rw [same.shape_eq, shares'.alike.shape_eq] at inside
  have pair := inside.length_eq
  rw [shape] at pair
  obtain ⟨i, j, rfl⟩ := List.length_eq_two.1 pair
  have inside' : InRange [columns, rows] [j, i] := inRange_pair (shape ▸ inside)
  have line : ((u.along 1 [j, i]).map fun p => e (u.entry p)) = (t.along 0 [i, j]).map fun p =>
      e (t.entry p) := by
    rw [along, along, turned, shape, List.map_map, List.map_map]
    apply List.map_congr_left
    intro k hk
    exact congrArg e (flip.entry_eq (shape ▸ ⟨List.mem_range.1 hk, inside'.1, trivial⟩))
  rw [back.entry_eq (shares.alike.shape_eq ▸ turned ▸ inside'),
    shares.entry_eq _ (turned ▸ inside'), shares'.entry_eq _ inside, line, flip.entry_eq inside]

/-- The shares along the columns can be taken along the rows of the transposed matrix, which is
transposed back. -/
theorem exists_softmax_transposed [IsStrictOrderedRing K] (exponential : Exponential e)
    (matrix : t.rank = 2) (addressable : Addressable t.shape) :
    ∃ u v s, t.transpose = .ok u ∧ u.softmax e (.int 1) = .ok v ∧ v.transpose = .ok s ∧
      t.softmax e (.int 0) = .ok s := by
  obtain ⟨rows, columns, shape⟩ := List.length_eq_two.1 matrix
  obtain ⟨u, transposed, flip, -⟩ := exists_transpose_transpose matrix addressable
  have matrix' : u.rank = 2 := by rw [rank, flip.shape_eq, List.length_reverse, ← rank, matrix]
  obtain ⟨v, shared, shares⟩ := (RunsAlong.rows matrix').exists_shares exponential
  have shape' : v.shape = t.shape.reverse := shares.alike.shape_eq.trans flip.shape_eq
  have matrix'' : v.rank = 2 := by rw [rank, shape', List.length_reverse, ← rank, matrix]
  obtain ⟨s, back⟩ :=
    exists_transpose matrix'' (shape' ▸ addressable.perm (List.reverse_perm _).symm)
  obtain ⟨r, shared', shares'⟩ := (RunsAlong.columns matrix).exists_shares exponential
  obtain rfl := shares.eq_of_flipOf shape flip (flipOf_of_transpose back) shares'
  exact ⟨u, v, s, transposed, shared, back, shared'⟩

end Shares

end Tensor

/-- The shares along the axis that was asked for. All of them are positive and those along one line
add up to one, and a constant that is added along one line makes no difference. The shares along
columns are those along the rows of the transposed matrix. That the elements can be addressed byte
by byte is so of every block of elements in memory. -/
theorem softmax_shares_along {K : Type} [Field K] [LinearOrder K] [IsStrictOrderedRing K]
    {e : K → K} (exponential : Tensor.Exponential e) (t : Tensor K) :
    (∀ axis a, t.RunsAlong axis a → ∃ s, t.softmax e (.int axis) = .ok s ∧ t.SharesAlong e a s ∧
      ∀ (u : Tensor K) (o : List Nat) (k : K), u.Alike t →
        (∀ c, InRange t.shape c → u.entry c = t.entry c + if c ∈ t.along a o then k else 0) →
        u.softmax e (.int axis) = .ok s) ∧
    (t.rank = 2 → (∀ d ∈ t.shape, d ≠ 0) → elementBytes * t.data.size ≤ wordLimit →
      ∃ u v s, t.transpose = .ok u ∧ u.softmax e (.int 1) = .ok v ∧ v.transpose = .ok s ∧
        t.softmax e (.int 0) = .ok s) := by
  refine ⟨fun axis a runs => ?_, fun matrix nonempty bytes => ?_⟩
  · obtain ⟨s, shared, shares⟩ := runs.exists_shares exponential
    refine ⟨s, shared, shares, fun u o k alike raised => ?_⟩
    obtain ⟨v, shared', shares'⟩ := (runs.congr alike.shape_eq).exists_shares exponential
    obtain rfl := shares.eq_of_raised exponential runs.lt_rank shares' alike raised
    exact shared'
  · have axes : t.shape.length ≤ axisLimit := matrix.trans_le (by decide)
    rw [t.size_data] at bytes
    exact Tensor.exists_softmax_transposed exponential matrix
      (addressable_of_bytes_le nonempty axes bytes)

def scores (k : ℝ) : Tensor ℝ :=
  ⟨"scores", ["case", "choice"], [2, 3], #[k, k, k, 0, 1, 0], rfl, rfl⟩

/-- The row of equal scores is shared equally, however high it is, and the columns can be shared by
transposing. -/
theorem softmax_shares_along_scores :
    Tensor.Exponential Real.exp ∧ (scores 0).RunsAlong (-1) 1 ∧
      (∃ s, (scores 0).softmax Real.exp (.int (-1)) = .ok s ∧ s.entry [0, 2] = 1 / 3 ∧
        (scores 4).softmax Real.exp (.int (-1)) = .ok s) ∧
      (scores 0).rank = 2 ∧ (∀ d ∈ (scores 0).shape, d ≠ 0) ∧
        elementBytes * (scores 0).data.size ≤ wordLimit ∧
      ∃ u v s, (scores 0).transpose = .ok u ∧ u.softmax Real.exp (.int 1) = .ok v ∧
        v.transpose = .ok s ∧ (scores 0).softmax Real.exp (.int 0) = .ok s := by
  have exponential : Tensor.Exponential Real.exp := ⟨Real.exp_pos, Real.exp_add⟩
  obtain ⟨lines, transposed⟩ := softmax_shares_along exponential (scores 0)
  have runs : (scores 0).RunsAlong (-1) 1 := .lastAxis rfl
  have nonempty : ∀ d ∈ (scores 0).shape, d ≠ 0 := by decide
  have bytes : elementBytes * (scores 0).data.size ≤ wordLimit := by decide
  refine ⟨exponential, runs, ?_, rfl, nonempty, bytes, transposed rfl nonempty bytes⟩
  obtain ⟨s, shared, shares, same⟩ := lines (-1) 1 runs
  refine ⟨s, shared, ?_, same (scores 4) [0, 0] 4 ⟨rfl, rfl, rfl⟩ fun c inside => ?_⟩
  · have row : (scores 0).along 1 [0, 2] = [[0, 0], [0, 1], [0, 2]] := rfl
    have equal : ∀ j < 3, (scores 0).entry [0, j] = 0 := by
      intro j hj
      interval_cases j <;> rfl
    rw [shares.entry_eq [0, 2] (by decide), row]
    simp only [List.map_cons, List.map_nil, equal, Nat.one_lt_ofNat, Nat.ofNat_pos, Nat.lt_add_one,
      Real.exp_zero]
    norm_num
  · obtain ⟨i, j, rfl⟩ := List.length_eq_two.1 inside.length_eq
    obtain ⟨hi, hj, -⟩ := inside
    have entry (k : ℝ) : (scores k).entry [i, j] = if i = 0 then k else if j = 1 then 1 else 0 := by
      interval_cases i <;> interval_cases j <;> rfl
    have among : [i, j] ∈ (scores 0).along 1 [0, 0] ↔ i = 0 := by
      interval_cases i <;> interval_cases j <;> decide
    rw [entry, entry]
    simp only [among]
    by_cases first : i = 0
    · simp only [if_pos first, zero_add]
    · simp only [if_neg first, add_zero]

end TensorCalculus
