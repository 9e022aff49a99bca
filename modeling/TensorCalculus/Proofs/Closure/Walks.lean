import Mathlib.Data.Finset.Card
import Mathlib.Logic.Relation
import Mathlib.Order.Monotone.Basic

/-!
# Walks

A walk takes at least one step. Among finitely many vertices the number of steps can be kept down to
the number of vertices: the vertices that are reached by short walks become more with every further
step, until they stay the same for good. -/

namespace TensorCalculus.Closure

/-- A walk with a given number of steps from one vertex to another. -/
inductive Walk (edge : Nat → Nat → Prop) : Nat → Nat → Nat → Prop
  | step {x z} : edge x z → Walk edge 1 x z
  | extend {k x y z} : Walk edge k x y → edge y z → Walk edge (k + 1) x z

/-- Whether a walk with a limited number of steps leads from one vertex to another. -/
def Joined (edge : Nat → Nat → Prop) (k x z : Nat) : Prop :=
  ∃ l, 1 ≤ l ∧ l ≤ k ∧ Walk edge l x z

variable {edge : Nat → Nat → Prop} {k l n x y z : Nat}

theorem Walk.one_le (walk : Walk edge k x z) : 1 ≤ k := by
  cases walk with
  | step => exact le_rfl
  | extend walk here => exact Nat.le_add_left 1 _

theorem Walk.exists_first (walk : Walk edge k x z) : ∃ y, edge x y := by
  induction walk with
  | step here => exact ⟨_, here⟩
  | extend _ _ ih => exact ih

theorem Walk.exists_last (walk : Walk edge k x z) : ∃ y, edge y z := by
  cases walk with
  | step here => exact ⟨_, here⟩
  | extend _ here => exact ⟨_, here⟩

theorem Joined.mono (joined : Joined edge k x z) (more : k ≤ l) : Joined edge l x z := by
  obtain ⟨steps, positive, few, walk⟩ := joined
  exact ⟨steps, positive, few.trans more, walk⟩

theorem not_joined_zero : ¬ Joined edge 0 x z := by
  rintro ⟨l, positive, few, -⟩
  omega

/-- One more step may be taken at the end. -/
theorem joined_succ_iff : Joined edge (k + 1) x z ↔
    edge x z ∨ Joined edge k x z ∨ ∃ y, Joined edge k x y ∧ edge y z := by
  constructor
  · rintro ⟨l, positive, few, walk⟩
    cases walk with
    | step here => exact .inl here
    | @extend l _ y _ walk here =>
      exact .inr (.inr ⟨y, ⟨l, walk.one_le, Nat.le_of_succ_le_succ few, walk⟩, here⟩)
  · rintro (here | joined | ⟨y, ⟨l, positive, few, walk⟩, here⟩)
    · exact ⟨1, le_rfl, Nat.le_add_left 1 k, .step here⟩
    · exact joined.mono (Nat.le_succ k)
    · exact ⟨l + 1, Nat.le_add_left 1 l, Nat.succ_le_succ few, .extend walk here⟩

theorem transGen_iff_exists_joined : Relation.TransGen edge x z ↔ ∃ k, Joined edge k x z := by
  constructor
  · intro related
    induction related with
    | single here => exact ⟨1, 1, le_rfl, le_rfl, .step here⟩
    | tail _ here ih =>
      obtain ⟨k, joined⟩ := ih
      exact ⟨k + 1, joined_succ_iff.2 (.inr (.inr ⟨_, joined, here⟩))⟩
  · rintro ⟨-, l, -, -, walk⟩
    induction walk with
    | step here => exact .single here
    | extend walk here ih => exact .tail ih here

/-- Where one more step leads nowhere else, no number of further steps does. -/
theorem joined_of_closed (closed : ∀ z, Joined edge (k + 1) x z → Joined edge k x z) (more : k ≤ l)
    (joined : Joined edge l x z) : Joined edge k x z := by
  induction l, more using Nat.le_induction generalizing z with
  | base => exact joined
  | succ l more ih =>
    refine closed z ?_
    rcases joined_succ_iff.1 joined with here | before | ⟨y, before, here⟩
    · exact joined_succ_iff.2 (.inl here)
    · exact (ih before).mono (Nat.le_succ k)
    · exact joined_succ_iff.2 (.inr (.inr ⟨y, ih before, here⟩))

theorem transGen_iff_joined (closed : ∀ x z, Joined edge (k + 1) x z → Joined edge k x z) :
    Relation.TransGen edge x z ↔ Joined edge k x z := by
  rw [transGen_iff_exists_joined]
  constructor
  · rintro ⟨l, joined⟩
    rcases Nat.le_total k l with more | less
    · exact joined_of_closed (closed x) more joined
    · exact joined.mono less
  · exact fun joined => ⟨k, joined⟩

open Classical in
/-- The vertices below a bound that are reached by walks with a limited number of steps. -/
noncomputable def reached (edge : Nat → Nat → Prop) (n x k : Nat) : Finset Nat :=
  (Finset.range n).filter (Joined edge k x)

open Classical in
theorem card_reached_le : (reached edge n x k).card ≤ n := by
  have few := Finset.card_filter_le (Finset.range n) (Joined edge k x)
  rwa [Finset.card_range] at few

section Finite

variable (within : ∀ y z, edge y z → z < n)
include within

theorem mem_reached : z ∈ reached edge n x k ↔ Joined edge k x z := by
  simp only [reached, Finset.mem_filter, Finset.mem_range, and_iff_right_iff_imp]
  rintro ⟨l, -, -, walk⟩
  obtain ⟨y, last⟩ := walk.exists_last
  exact within y z last

theorem reached_subset_succ : reached edge n x k ⊆ reached edge n x (k + 1) := by
  intro z hz
  rw [mem_reached within] at hz ⊢
  exact hz.mono (Nat.le_succ k)

/-- As long as the vertices become no more, one more step leads nowhere else. -/
theorem closed_of_card_eq (same : (reached edge n x k).card = (reached edge n x (k + 1)).card)
    (z : Nat) (joined : Joined edge (k + 1) x z) : Joined edge k x z := by
  have equal := Finset.eq_of_subset_of_card_le (reached_subset_succ within) same.ge
  rwa [← mem_reached within, equal, mem_reached within]

theorem card_reached_stable (same : (reached edge n x k).card = (reached edge n x (k + 1)).card) :
    (reached edge n x (k + 1)).card = (reached edge n x (k + 1 + 1)).card := by
  congr 1
  apply Finset.Subset.antisymm (reached_subset_succ within)
  intro z hz
  rw [mem_reached within] at hz ⊢
  have more : k ≤ k + 1 + 1 := Nat.le_add_right k 2
  exact (joined_of_closed (closed_of_card_eq within same) more hz).mono (Nat.le_succ k)

/-- As many steps as there are vertices are enough. -/
theorem joined_of_joined (joined : Joined edge l x z) : Joined edge n x z := by
  have grows : Monotone fun k => (reached edge n x k).card :=
    monotone_nat_of_le_succ fun k => Finset.card_le_card (reached_subset_succ within)
  have stable : (reached edge n x (n + 1)).card = (reached edge n x n).card :=
    Nat.stabilises_of_monotone grows (fun _ => card_reached_le)
      (fun k => card_reached_stable within) (Nat.le_succ n)
  rcases Nat.le_total n l with more | less
  · exact joined_of_closed (closed_of_card_eq within stable.symm) more joined
  · exact joined.mono less

end Finite

end TensorCalculus.Closure
