import Mathlib.Algebra.Order.Monoid.Unbundled.Basic
import Mathlib.Data.List.Nodup
import Mathlib.Data.List.Perm.Subperm

/-!
# Weights of walks

A walk is given by its ends and the vertices between them. It gathers the weights of its steps.
Where no walk back to its start gains anything, every walk can be replaced by a direct one that
comes to no vertex twice, and among finitely many vertices the direct walks are short. -/

namespace TensorCalculus.Closure

variable {α : Type}

/-- What is gathered on the way from one vertex over a list of others to a last one. -/
def along (combine : α → α → α) (weight : Nat → Nat → α) : Nat → List Nat → Nat → α
  | x, [], z => weight x z
  | x, y :: between, z => combine (weight x y) (along combine weight y between z)

theorem along_append {combine : α → α → α} [associative : Std.Associative combine]
    (weight : Nat → Nat → α) (x : Nat) (between : List Nat) (y : Nat) (beyond : List Nat)
    (z : Nat) :
    along combine weight x (between ++ y :: beyond) z =
      combine (along combine weight x between y) (along combine weight y beyond z) := by
  induction between generalizing x with
  | nil => rfl
  | cons v between ih => rw [List.cons_append, along, ih, along, associative.assoc]

section Detours

variable [AddMonoid α] [Preorder α] [AddLeftMono α] [AddRightMono α] {weight : Nat → Nat → α}
  {n z : Nat}

/-- Whether no walk among the vertices below a bound gains anything by coming back to its start. -/
def NoGain (weight : Nat → Nat → α) (n : Nat) : Prop :=
  ∀ x, x < n → ∀ between : List Nat, (∀ y ∈ between, y < n) → 0 ≤ along (· + ·) weight x between x

/-- A walk is no better than a direct one, which leaves out every part that comes back to where it
began. -/
theorem exists_direct (free : NoGain weight n) (hz : z < n) {between : List Nat}
    (inside : ∀ y ∈ between, y < n) (x : Nat) :
    ∃ direct : List Nat, (z :: direct).Nodup ∧ (∀ y ∈ direct, y < n) ∧
      along (· + ·) weight x direct z ≤ along (· + ·) weight x between z := by
  induction between generalizing x with
  | nil => exact ⟨[], List.nodup_singleton z, nofun, le_rfl⟩
  | cons y between ih =>
    rw [List.forall_mem_cons] at inside
    obtain ⟨direct, distinct, below, less⟩ := ih inside.2 y
    have onward :
        weight x y + along (· + ·) weight y direct z ≤ along (· + ·) weight x (y :: between) z :=
      add_le_add_right less _
    by_cases back : y = z
    · subst back
      exact ⟨[], List.nodup_singleton y, nofun, le_add_of_nonneg_right (free y hz between inside.2)⟩
    by_cases again : y ∈ direct
    · obtain ⟨loop, rest, rfl⟩ := List.append_of_mem again
      rw [List.forall_mem_append] at below
      refine ⟨y :: rest, distinct.sublist ?_, below.2, ?_⟩
      · exact (List.sublist_append_right loop _).cons_cons z
      · calc along (· + ·) weight x (y :: rest) z
            ≤ weight x y + (along (· + ·) weight y loop y + along (· + ·) weight y rest z) :=
              add_le_add_right (le_add_of_nonneg_left (free y inside.1 loop below.1)) _
          _ = weight x y + along (· + ·) weight y (loop ++ y :: rest) z := by rw [along_append]
          _ ≤ along (· + ·) weight x (y :: between) z := onward
    · refine ⟨y :: direct, ?_, List.forall_mem_cons.2 ⟨inside.1, below⟩, onward⟩
      rw [List.nodup_cons] at distinct ⊢
      refine ⟨?_, List.nodup_cons.2 ⟨again, distinct.2⟩⟩
      rw [List.mem_cons, not_or]
      exact ⟨Ne.symm back, distinct.1⟩

end Detours

theorem length_lt_of_nodup {n z : Nat} {direct : List Nat} (distinct : (z :: direct).Nodup)
    (hz : z < n) (below : ∀ y ∈ direct, y < n) : direct.length < n := by
  have among : z :: direct ⊆ List.range n := by
    intro y hy
    rw [List.mem_range]
    rcases List.mem_cons.1 hy with rfl | hy
    · exact hz
    · exact below y hy
  have few := (distinct.subperm among).length_le
  rwa [List.length_cons, List.length_range] at few

end TensorCalculus.Closure
