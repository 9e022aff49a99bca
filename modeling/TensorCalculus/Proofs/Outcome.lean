import Mathlib

/-!
# Outcomes

A computation that may fail is opened step by step: a sequence succeeds exactly when each of its
steps does. -/

namespace TensorCalculus.Outcome

variable {ε α β : Type}

@[simp]
theorem ok_bind (a : α) (f : α → Except ε β) : (Except.ok a >>= f) = f a := rfl

@[simp]
theorem error_bind (e : ε) (f : α → Except ε β) : (Except.error e >>= f) = .error e := rfl

@[simp]
theorem pure_eq_ok (a : α) : (pure a : Except ε α) = .ok a := rfl

theorem bind_eq_ok_iff {x : Except ε α} {f : α → Except ε β} {b : β} :
    x >>= f = .ok b ↔ ∃ a, x = .ok a ∧ f a = .ok b := by
  cases x <;> simp

theorem toOption_eq_some_iff {x : Except ε α} {a : α} : x.toOption = some a ↔ x = .ok a := by
  cases x <;> simp [Except.toOption]

theorem isOk_eq_true_iff {x : Except ε α} : x.isOk = true ↔ ∃ a, x = .ok a := by
  cases x <;> simp [Except.isOk, Except.toBool]

@[simp]
theorem isOk_map (f : α → β) (x : Except ε α) : (x.map f).isOk = x.isOk := by
  cases x <;> rfl

/-- Whether all faults of a computation are of a given sort. -/
def FailsWith (sort : ε → Prop) (x : Except ε α) : Prop :=
  ∀ fault, x = .error fault → sort fault

section FailsWith

variable {sort : ε → Prop}

theorem failsWith_ok {a : α} : FailsWith sort (.ok a) := by
  intro fault failed
  cases failed

theorem failsWith_error {fault : ε} (here : sort fault) :
    FailsWith sort (.error fault : Except ε α) := by
  intro _ failed
  cases failed
  exact here

theorem FailsWith.bind {x : Except ε α} {f : α → Except ε β} (first : FailsWith sort x)
    (rest : ∀ a, FailsWith sort (f a)) : FailsWith sort (x >>= f) := by
  cases x with
  | ok a => exact rest a
  | error fault => exact failsWith_error (first fault rfl)

theorem FailsWith.imp {other : ε → Prop} {x : Except ε α} (fails : FailsWith sort x)
    (weaker : ∀ fault, sort fault → other fault) : FailsWith other x :=
  fun fault failed => weaker fault (fails fault failed)

end FailsWith

/-- Faults of a sequence can be changed step by step. -/
theorem mapError_bind {ε' : Type} (g : ε → ε') (x : Except ε α) (f : α → Except ε β) :
    (x >>= f).mapError g = x.mapError g >>= fun a => (f a).mapError g := by
  cases x <;> rfl

theorem mapError_eq_ok_iff {ε' : Type} (g : ε → ε') {x : Except ε α} {a : α} :
    x.mapError g = .ok a ↔ x = .ok a := by
  cases x <;> simp [Except.mapError]

theorem mapM_eq_ok_iff {f : α → Except ε β} {as : List α} {bs : List β} :
    as.mapM f = .ok bs ↔ List.Forall₂ (fun a b => f a = .ok b) as bs := by
  induction as generalizing bs with
  | nil => simp [eq_comm]
  | cons a as ih =>
    simp only [List.mapM_cons, bind_eq_ok_iff, pure_eq_ok, Except.ok.injEq, ih]
    constructor
    · rintro ⟨b, head, bs, tail, rfl⟩
      exact .cons head tail
    · rintro (_ | ⟨head, tail⟩)
      exact ⟨_, head, _, tail, rfl⟩

/-- A list of computations that all succeed. -/
theorem mapM_eq_ok_filterMap {f : α → Except ε β} {as : List α}
    (successful : ∀ a ∈ as, ∃ b, f a = .ok b) :
    as.mapM f = .ok (as.filterMap fun a => (f a).toOption) := by
  induction as with
  | nil => rfl
  | cons a as ih =>
    obtain ⟨⟨b, here⟩, later⟩ := List.forall_mem_cons.1 successful
    rw [List.mapM_cons, ih later, List.filterMap_cons, here]
    rfl

/-- A list of computations succeeds exactly when each of them does. -/
theorem exists_mapM_eq_ok_iff {f : α → Except ε β} {as : List α} :
    (∃ bs, as.mapM f = .ok bs) ↔ ∀ a ∈ as, ∃ b, f a = .ok b := by
  constructor
  · rintro ⟨bs, collected⟩ a here
    rw [mapM_eq_ok_iff] at collected
    obtain ⟨i, inside, rfl⟩ := List.getElem_of_mem here
    exact ⟨_, collected.get inside (collected.length_eq ▸ inside)⟩
  · exact fun successful => ⟨_, mapM_eq_ok_filterMap successful⟩

theorem mapM_id_ok (xs : List α) :
    (xs.map Except.ok).mapM (id : Except ε α → Except ε α) = .ok xs := by
  rw [mapM_eq_ok_iff, List.forall₂_map_left_iff]
  exact List.forall₂_same.2 fun _ _ => rfl

theorem array_mapM_id_ok (data : Array α) :
    (data.map Except.ok).mapM (id : Except ε α → Except ε α) = .ok data := by
  rw [Array.mapM_eq_mapM_toList, Array.toList_map, mapM_id_ok]
  rfl

theorem eq_map_ok_of_mapM_id {cells : Array (Except ε α)} {data : Array α}
    (collected : cells.mapM id = .ok data) : cells = data.map .ok := by
  rw [Array.mapM_eq_mapM_toList] at collected
  cases found : cells.toList.mapM id with
  | error e =>
    rw [found] at collected
    cases collected
  | ok values =>
    rw [found] at collected
    cases collected
    have each := mapM_eq_ok_iff.1 found
    have same : cells.toList = values.map .ok := by
      rw [← List.forall₂_eq_eq_eq, List.forall₂_map_right_iff]
      exact each
    rw [← Array.toList_inj, same, Array.toList_map]

theorem exists_eq_map_ok {cells : Array (Except ε α)}
    (successful : ∀ i (_ : i < cells.size), ∃ x, cells[i] = .ok x) :
    ∃ data : Array α, cells = data.map .ok := by
  choose value value_eq using successful
  refine ⟨Array.ofFn fun i : Fin cells.size => value i i.isLt,
    Array.ext (by simp) fun i below _ => ?_⟩
  rw [value_eq i below, Array.getElem_map, Array.getElem_ofFn]

end TensorCalculus.Outcome
