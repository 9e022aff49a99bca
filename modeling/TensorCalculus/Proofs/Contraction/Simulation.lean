import TensorCalculus.Contraction
import TensorCalculus.Proofs.Plan.Places

/-!
# Contractions that follow one another

One backend follows another when its elements and its cells are images of those of the other and it
combines them alike. Then its whole loop follows: it reads and collects the images of what the other
loop reads and collects, and it fails where the other one fails. This needs no condition on the
output, which may repeat symbols, and no law of arithmetic. -/

namespace TensorCalculus

open TensorCalculus.Outcome

variable {ε ε' γ γ' π π' : Type}

/-- Whether a backend does to the images of given elements, and of any cell, what another one does
to these themselves. -/
def Backend.FollowsAt (right : Backend ε' γ' π') (left : Backend ε γ π) (element : ε → ε')
    (cell : γ → γ') (values : List ε) : Prop :=
  ∀ c, right.accumulate (cell c) (right.combine (values.map element)) =
    cell (left.accumulate c (left.combine values))

/-- A backend that does to the images of elements and cells what another one does to these
themselves. -/
structure Backend.Follows (right : Backend ε' γ' π') (left : Backend ε γ π) (element : ε → ε')
    (cell : γ → γ') : Prop where
  blank_eq : right.blank = cell left.blank
  accumulate_eq : ∀ c values, values ≠ [] →
    right.accumulate (cell c) (right.combine (values.map element)) =
      cell (left.accumulate c (left.combine values))

namespace Contraction

variable {element : ε → ε'} {cell : γ → γ'}

theorem readAt_map (buffer : Array ε) (place : Int) :
    readAt (buffer.map element) place = element <$> readAt buffer place := by
  cases place with
  | ofNat i =>
    simp only [readAt, Array.getElem?_map, Array.size_map]
    cases buffer[i]? <;> rfl
  | negSucc i =>
    simp only [readAt, Array.size_map]
    rfl

/-- The images of buffers are read where the buffers are read. -/
theorem gather_map (buffers : List (Array ε)) (places : List Int) :
    gather (buffers.map (·.map element)) places = List.map element <$> gather buffers places := by
  induction buffers generalizing places with
  | nil => rfl
  | cons buffer buffers ih =>
    cases places with
    | nil => rfl
    | cons place places =>
      rw [List.map_cons, gather, gather, readAt_map, ih]
      cases readAt buffer place with
      | error fault => rfl
      | ok x => cases gather buffers places <;> rfl

theorem ne_nil_of_gather {buffers : List (Array ε)} {places : List Int} {values : List ε}
    (buffered : buffers ≠ []) (placed : places ≠ []) (read : gather buffers places = .ok values) :
    values ≠ [] := by
  obtain ⟨buffer, buffers, rfl⟩ := List.exists_cons_of_ne_nil buffered
  obtain ⟨place, places, rfl⟩ := List.exists_cons_of_ne_nil placed
  obtain ⟨x, -, read⟩ := bind_eq_ok_iff.1 read
  obtain ⟨xs, -, read⟩ := bind_eq_ok_iff.1 read
  cases read
  exact List.cons_ne_nil x xs

theorem map_modify (out : Array γ) (place : Nat) {update : γ → γ} {update' : γ' → γ'}
    (same : ∀ c, update' (cell c) = cell (update c)) :
    (out.map cell).modify place update' = (out.modify place update).map cell := by
  apply Array.ext_getElem?
  intro i
  rw [Array.getElem?_modify, Array.getElem?_map, Array.getElem?_map, Array.getElem?_modify]
  by_cases here : place = i
  · rw [if_pos here, if_pos here, Option.map_map, Option.map_map]
    exact congrFun (congrArg Option.map (funext same)) _
  · rw [if_neg here, if_neg here]

variable {right : Backend ε' γ' π'} {left : Backend ε γ π} {buffers : List (Array ε)}

/-- One step of the loop follows. -/
theorem visit_map {o : Offsets}
    (follows : ∀ values, gather buffers o.operands = .ok values →
      right.FollowsAt left element cell values)
    (out : Array γ) :
    visit right (buffers.map (·.map element)) (out.map cell) o =
      Array.map cell <$> visit left buffers out o := by
  rw [visit, visit, gather_map]
  cases read : gather buffers o.operands with
  | error fault => rfl
  | ok values =>
    have step (c : γ) := follows values read c
    simp only [Except.map_ok, Array.size_map]
    split
    case isTrue => rw [Except.map_ok, map_modify out o.output.toNat step]
    case isFalse => rfl

/-- Many steps follow. -/
theorem foldlM_visit_map {visits : List Offsets}
    (follows : ∀ o ∈ visits, ∀ values, gather buffers o.operands = .ok values →
      right.FollowsAt left element cell values) (out : Array γ) :
    visits.foldlM (visit right (buffers.map (·.map element))) (out.map cell) =
      Array.map cell <$> visits.foldlM (visit left buffers) out := by
  induction visits generalizing out with
  | nil => rfl
  | cons o visits ih =>
    rw [List.foldlM_cons, List.foldlM_cons, visit_map (follows o List.mem_cons_self)]
    cases visit left buffers out o with
    | error fault => rfl
    | ok next => exact ih (fun o ho => follows o (List.mem_cons_of_mem _ ho)) next

/-- The whole loop follows when it does so at all that is read. -/
theorem run_map_of_followsAt {p : Plan} (blank : right.blank = cell left.blank)
    (follows : ∀ o ∈ p.visits, ∀ values, gather buffers o.operands = .ok values →
      right.FollowsAt left element cell values) :
    run right p (buffers.map (·.map element)) = Array.map cell <$> run left p buffers := by
  rw [run_eq, run_eq, blank, ← Array.map_replicate]
  exact foldlM_visit_map follows _

/-- The whole loop follows. -/
theorem run_map (follows : right.Follows left element cell) (buffered : buffers ≠ []) {p : Plan}
    (sound : p.Sound) (operands : p.subscripts.inputs ≠ []) :
    run right p (buffers.map (·.map element)) = Array.map cell <$> run left p buffers := by
  have placed : ∀ o ∈ p.visits, o.operands ≠ [] := by
    intro o ho
    rw [sound.visits_eq_travel] at ho
    obtain ⟨a, -, rfl⟩ := List.mem_map.1 ho
    exact mt List.map_eq_nil_iff.1 operands
  apply run_map_of_followsAt follows.blank_eq
  intro o ho values read c
  exact follows.accumulate_eq c values (ne_nil_of_gather buffered (placed o ho) read)

end Contraction

end TensorCalculus
