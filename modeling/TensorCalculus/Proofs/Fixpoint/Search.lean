import Mathlib.Algebra.Order.Group.Unbundled.Abs
import Mathlib.Algebra.Order.Ring.Rat
import TensorCalculus.Fixpoint
import TensorCalculus.Proofs.Tensor.Entries

/-!
# Where a search ends

A search goes through the states that the update leads to. It ends behind the first change that
counts as settled, or at the limit. The change that is measured is the greatest distance between
entries at one place. -/

namespace TensorCalculus.Fixpoint

open TensorCalculus.Layout TensorCalculus.Outcome

section Search

variable {τ α : Type} {update : τ → Except Fault τ} {change : τ → τ → Except Fault α}
  {settled : α → Except Fault Bool} {states : Nat → τ} {calm : Nat → Bool}

theorem searchFrom_succ (updates : ∀ k, update (states k) = .ok (states (k + 1)))
    (decides : ∀ k, (change (states k) (states (k + 1)) >>= settled) = .ok (calm k)) (limit : Int)
      (left done : Nat) :
    searchFrom update change settled limit (left + 1) done (states done) =
      if calm done then
        .ok { value := states (done + 1), iterations := (done + 1 : Nat), converged := true }
      else searchFrom update change settled limit left (done + 1) (states (done + 1)) := by
  obtain ⟨moved, measured, decided⟩ := bind_eq_ok_iff.1 (decides done)
  rw [searchFrom, updates done, ok_bind, measured, ok_bind, decided, ok_bind]
  rfl

/-- The search stops behind the first calm state, if there is one before the limit. -/
theorem searchFrom_cases (updates : ∀ k, update (states k) = .ok (states (k + 1)))
    (decides : ∀ k, (change (states k) (states (k + 1)) >>= settled) = .ok (calm k)) (limit : Int)
      (left done : Nat) :
    (∃ j, done ≤ j ∧ j < done + left ∧ (∀ i, done ≤ i → i < j → ¬ calm i) ∧ calm j ∧
      searchFrom update change settled limit left done (states done) =
        .ok { value := states (j + 1), iterations := (j + 1 : Nat), converged := true }) ∨
    ((∀ j, done ≤ j → j < done + left → ¬ calm j) ∧
      searchFrom update change settled limit left done (states done) =
        .ok { value := states (done + left), iterations := limit, converged := false }) := by
  induction left generalizing done with
  | zero =>
    refine .inr ⟨fun j low high => ?_, rfl⟩
    omega
  | succ left ih =>
    rw [searchFrom_succ updates decides]
    by_cases here : calm done
    · refine .inl ⟨done, le_rfl, by omega, fun i low high => ?_, here, if_pos here⟩
      omega
    · rw [if_neg here]
      have still {last : Nat} (never : ∀ i, done + 1 ≤ i → i < last → ¬ calm i) (i : Nat)
          (low : done ≤ i) (high : i < last) : ¬ calm i := by
        rcases Nat.eq_or_lt_of_le low with rfl | later
        · exact here
        · exact never i later high
      rcases ih (done + 1) with ⟨j, low, high, before, there, ended⟩ | ⟨never, ended⟩
      · exact .inl ⟨j, by omega, by omega, still before, there, ended⟩
      · rw [Nat.add_right_comm, Nat.add_assoc] at never ended
        exact .inr ⟨still never, ended⟩

/-- Updates that agree on all states which they lead to make no difference to a search. -/
theorem searchFrom_congr {update' : τ → Except Fault τ} {kept : τ → Prop}
    (agrees : ∀ current, kept current → update current = update' current)
    (keeps : ∀ current next, kept current → update current = .ok next → kept next) (limit : Int)
    (left done : Nat)
    {current : τ} (start : kept current) :
    searchFrom update change settled limit left done current =
      searchFrom update' change settled limit left done current := by
  induction left generalizing done current with
  | zero => rfl
  | succ left ih =>
    rw [searchFrom, searchFrom, ← agrees current start]
    cases updated : update current with
    | error fault => rfl
    | ok next =>
      simp only [ok_bind, ih (done + 1) (keeps current next start updated)]

end Search

section Change

variable {α : Type}

theorem prevailing_eq_max [LinearOrder α] (a b : α) : prevailing a b = max a b := by
  unfold prevailing
  split
  case isTrue less => exact (max_eq_left less).symm
  case isFalse more => rw [if_pos le_rfl, max_eq_right (not_le.1 more).le]

theorem foldl_prevailing_le_iff [LinearOrder α] (d b : α) (ds : List α) :
    ds.foldl prevailing d ≤ b ↔ ∀ e ∈ d :: ds, e ≤ b := by
  induction ds generalizing d with
  | nil => simp
  | cons e ds ih =>
    rw [List.foldl_cons, ih, prevailing_eq_max]
    simp [and_assoc]

/-- The moves that are compared are those of the entries at one place. -/
theorem mem_moves_iff [Zero α] [Sub α] [Neg α] [LT α] [DecidableLT α] [BEq α] {s t : Tensor α}
    (shapes : s.shape = t.shape) {e : α} : e ∈ List.zipWith moved s.data.toList t.data.toList ↔
      ∃ c, InRange s.shape c ∧ moved (s.entry c) (t.entry c) = e := by
  constructor
  · intro mem
    obtain ⟨i, found⟩ := List.mem_iff_getElem?.1 mem
    obtain ⟨x, y, left, right, rfl⟩ := List.getElem?_zipWith_eq_some.1 found
    rw [Array.getElem?_toList] at left right
    have bound : i < volume s.shape := by
      rw [← s.size_data]
      exact (Array.getElem?_eq_some_iff.1 left).1
    obtain ⟨c, inside, rfl⟩ := exists_offset_eq bound
    have here := Tensor.entry_of_getElem?_data inside left
    have there := Tensor.entry_of_getElem?_data (shapes ▸ inside) (shapes ▸ right)
    exact ⟨c, inside, by rw [here, there]⟩
  · rintro ⟨c, inside, rfl⟩
    refine List.mem_iff_getElem?.2 ⟨offset s.shape c, ?_⟩
    rw [List.getElem?_zipWith_eq_some]
    refine ⟨s.entry c, t.entry c, ?_, ?_, rfl⟩
    · rw [Array.getElem?_toList, Tensor.getElem?_data_eq_entry inside]
    · rw [Array.getElem?_toList, shapes, Tensor.getElem?_data_eq_entry (shapes ▸ inside)]

section Moves

variable [Zero α] [Sub α] [Neg α] [LinearOrder α] [BEq α] {s t : Tensor α}

theorem forall_mem_zipWith_moved (shapes : s.shape = t.shape) (b : α) :
    (∀ e ∈ List.zipWith moved s.data.toList t.data.toList, e ≤ b) ↔
      ∀ c, InRange s.shape c → moved (s.entry c) (t.entry c) ≤ b := by
  simp only [mem_moves_iff shapes]
  constructor
  · exact fun bounded c inside => bounded _ ⟨c, inside, rfl⟩
  · rintro bounded _ ⟨c, inside, rfl⟩
    exact bounded c inside

/-- Between tensors of one shape the greatest move is the least bound on all moves. -/
theorem exists_greatest_move (shapes : s.shape = t.shape) : ∃ d, maxChange s t = .ok d ∧
    ∀ b, 0 ≤ b → (d ≤ b ↔ ∀ c, InRange s.shape c → moved (s.entry c) (t.entry c) ≤ b) := by
  rw [maxChange, if_pos shapes]
  have bounds := forall_mem_zipWith_moved shapes
  cases moves : List.zipWith moved s.data.toList t.data.toList with
  | nil =>
    refine ⟨0, rfl, fun b nonnegative => ?_⟩
    rw [← bounds, moves]
    simpa using nonnegative
  | cons d ds =>
    refine ⟨_, rfl, fun b _ => ?_⟩
    rw [← bounds, moves, foldl_prevailing_le_iff]

end Moves

theorem moved_eq_abs (previous current : ℚ) : moved previous current = |current - previous| := by
  unfold moved magnitude
  split
  case isTrue same => rw [eq_of_beq same, sub_self, abs_zero]
  case isFalse =>
    split
    case isTrue negative => exact (abs_of_neg negative).symm
    case isFalse positive => exact (abs_of_nonneg (not_lt.1 positive)).symm

theorem exists_maxChange {s t : Tensor ℚ} (shapes : s.shape = t.shape) :
    ∃ d, maxChange s t = .ok d ∧
    ∀ b, 0 ≤ b → (d ≤ b ↔ ∀ c, InRange s.shape c → |t.entry c - s.entry c| ≤ b) := by
  simp only [← moved_eq_abs]
  exact exists_greatest_move shapes

/-- Numbers among which only a move to another one is above zero. -/
class Discerning (α : Type) [Zero α] [Sub α] [Neg α] [LinearOrder α] [BEq α] : Prop where
  eq_of_moved_le_zero : ∀ {previous current : α}, moved previous current ≤ 0 → current = previous

instance : Discerning ℚ where
  eq_of_moved_le_zero still := by
    rw [moved_eq_abs, abs_nonpos_iff] at still
    exact sub_eq_zero.1 still

theorem moved_coe (a b : ℚ) : moved (a : WithTop ℚ) b = (moved a b : ℚ) := by
  unfold moved
  by_cases same : b = a
  · simp [same]
  · have apart : (b : WithTop ℚ) ≠ a := fun h => same (WithTop.coe_injective h)
    rw [if_neg (by simpa using apart), if_neg (by simpa using same)]
    change magnitude ((b - a : ℚ) : WithTop ℚ) = _
    unfold magnitude
    simp only [← WithTop.coe_zero, WithTop.coe_lt_coe]
    split
    · rfl
    · rfl

theorem moved_top_coe (b : ℚ) : moved (⊤ : WithTop ℚ) b = ⊤ := rfl

theorem moved_coe_top (a : ℚ) : moved (a : WithTop ℚ) ⊤ = ⊤ := rfl

/-- Infinite lengths are far from all finite ones, but not from each other. -/
instance : Discerning (WithTop ℚ) where
  eq_of_moved_le_zero {previous current} still := by
    cases previous with
    | top =>
      cases current with
      | top => rfl
      | coe b => simp [moved_top_coe] at still
    | coe a =>
      cases current with
      | top => simp [moved_coe_top] at still
      | coe b =>
        rw [moved_coe, ← WithTop.coe_zero, WithTop.coe_le_coe] at still
        rw [Discerning.eq_of_moved_le_zero still]

theorem moved_self [Zero α] [Sub α] [Neg α] [LT α] [DecidableLT α] [BEq α] [ReflBEq α] (a : α) :
    moved a a = 0 :=
  if_pos BEq.rfl

/-- Nothing has moved exactly when no entry has changed. -/
theorem exists_still_iff [Zero α] [Sub α] [Neg α] [LinearOrder α] [BEq α] [ReflBEq α] [Discerning α]
    {s t : Tensor α} (shapes : s.shape = t.shape) : ∃ d, maxChange s t = .ok d ∧
    (d ≤ 0 ↔ ∀ c, InRange s.shape c → t.entry c = s.entry c) := by
  obtain ⟨d, measured, bounds⟩ := exists_greatest_move shapes
  refine ⟨d, measured, (bounds 0 le_rfl).trans ?_⟩
  constructor
  · intro still c inside
    exact Discerning.eq_of_moved_le_zero (still c inside)
  · intro same c inside
    rw [same c inside, moved_self]

end Change

end TensorCalculus.Fixpoint
