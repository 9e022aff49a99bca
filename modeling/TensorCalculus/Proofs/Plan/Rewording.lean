import TensorCalculus.Proofs.Outcome
import TensorCalculus.Proofs.Subscripts.Printing
import TensorCalculus.Plan

/-!
# Matching and the wording

How subscripts were written has no part in how they are matched with shapes: it is kept with the
plan and named in faults, and nothing is decided by it. So subscripts that are printed with their
output and read again are matched as before. -/

namespace TensorCalculus

open TensorCalculus.Outcome

/-- A fault of shapes without the subscripts it names. -/
def Fault.unlabelled : Fault → Fault
  | .shape cause operand _ => .shape cause operand none
  | fault => fault

theorem Fault.kind_unlabelled (fault : Fault) : fault.unlabelled.kind = fault.kind := by
  rw [kind_eq, kind_eq]
  cases fault <;> rfl

namespace SymbolSizes

/-- The name of the subscripts is used in faults only. -/
theorem mapError_extend (operand : Nat) (label label' : String) (known : SymbolSizes)
    (pairs : List (Char × Int)) : (extend operand label' known pairs).mapError Fault.unlabelled =
      (extend operand label known pairs).mapError Fault.unlabelled := by
  induction pairs generalizing known with
  | nil => rfl
  | cons pair pairs ih =>
    obtain ⟨c, size⟩ := pair
    rw [extend, extend]
    cases known.lookup c with
    | none => exact ih _
    | some first =>
      by_cases same : first = size
      · simpa only [if_pos same] using ih known
      · simp only [if_neg same]
        rfl

theorem mapError_extendAll (policy : RepetitionPolicy) (label label' : String) (operand : Nat)
    (known : SymbolSizes) (pairs : List (List Char × List Int)) :
    (extendAll policy label' operand known pairs).mapError Fault.unlabelled =
      (extendAll policy label operand known pairs).mapError Fault.unlabelled := by
  induction pairs generalizing operand known with
  | nil => rfl
  | cons pair pairs ih =>
    obtain ⟨segment, shape⟩ := pair
    rw [extendAll, extendAll]
    by_cases refused : policy = .reject ∧ ¬ segment.Nodup
    · rw [if_pos refused, if_pos refused]
    · rw [if_neg refused, if_neg refused, mapError_bind, mapError_bind,
        mapError_extend operand label label']
      exact bind_congr fun known => ih (operand + 1) known

end SymbolSizes

namespace Subscripts

theorem mapError_checkSegments (label label' : String) (operand : Nat) (segments : List (List Char))
    (ranks : List Int) :
    (checkSegments label' operand segments ranks).mapError Fault.unlabelled =
      (checkSegments label operand segments ranks).mapError Fault.unlabelled := by
  induction segments generalizing operand ranks with
  | nil => rfl
  | cons segment segments ih =>
    cases ranks with
    | nil => rfl
    | cons rank ranks =>
      rw [checkSegments, checkSegments]
      by_cases fits : (segment.length : Int) = rank
      · rw [if_pos fits, if_pos fits, ih]
      · rw [if_neg fits, if_neg fits]
        rfl

/-- The same subscripts, written differently. -/
def reworded (explicit : Bool) (text : String) (s : Subscripts) : Subscripts :=
  { s with explicit, text }

variable (explicit : Bool) (text : String) (s : Subscripts)

theorem mapError_checkRanks (ranks : List Int) :
    ((s.reworded explicit text).checkRanks ranks).mapError Fault.unlabelled =
      (s.checkRanks ranks).mapError Fault.unlabelled := by
  rw [checkRanks, checkRanks, reworded]
  by_cases count : s.inputs.length = ranks.length
  · rw [if_pos count, if_pos count, mapError_checkSegments s.label]
  · rw [if_neg count, if_neg count]
    rfl

end Subscripts

namespace Plan

/-- The same plan for subscripts that are written differently. -/
def reworded (explicit : Bool) (text : String) (p : Plan) : Plan :=
  { p with subscripts := p.subscripts.reworded explicit text }

/-- Two outcomes that differ in the wording only: plans for the same subscripts, or faults of one
class that agree in all but the name of the subscripts. -/
def SameButWording (explicit : Bool) (text : String) (x y : Except Fault Plan) : Prop :=
  (∃ p, x = .ok p ∧ y = .ok (p.reworded explicit text)) ∨
    ∃ fault fault', x = .error fault ∧ y = .error fault' ∧ fault'.kind = fault.kind ∧
      fault'.unlabelled = fault.unlabelled

section Wording

variable {explicit : Bool} {text : String}

theorem sameButWording_of_mapError {x y : Except Fault Plan}
    (same : y.mapError Fault.unlabelled = (reworded explicit text <$> x).mapError
      Fault.unlabelled) :
    SameButWording explicit text x y := by
  cases x with
  | ok p =>
    cases y with
    | ok q => exact .inl ⟨p, rfl, congrArg _ (Except.ok.inj same)⟩
    | error fault => cases same
  | error fault =>
    cases y with
    | ok q => cases same
    | error fault' =>
      have alike : fault'.unlabelled = fault.unlabelled := Except.error.inj same
      have kinds := congrArg Fault.kind alike
      rw [Fault.kind_unlabelled, Fault.kind_unlabelled] at kinds
      exact .inr ⟨fault, fault', rfl, rfl, kinds, alike⟩

variable (explicit text) (s : Subscripts) (policy : RepetitionPolicy)

/-- Matching differs in what is written and in the name that faults give it. -/
theorem mapError_resolve (shapes : List (List Int)) :
    (resolve (s.reworded explicit text) shapes policy).mapError Fault.unlabelled =
      (reworded explicit text <$> resolve s shapes policy).mapError Fault.unlabelled := by
  simp only [resolve, map_bind, mapError_bind, Subscripts.mapError_checkRanks]
  refine bind_congr fun _ => ?_
  rw [SymbolSizes.mapError_extendAll policy s.label]
  refine bind_congr fun sizes => ?_
  rw [Subscripts.reworded]
  cases s.output.filter fun c => (sizes.lookup c).isNone <;> rfl

/-- The wording does not matter for sizes that are still to be understood either. -/
theorem mapError_resolveLiterals (shapes : List (List Literal)) :
    (resolveLiterals (s.reworded explicit text) shapes policy).mapError Fault.unlabelled =
      (reworded explicit text <$> resolveLiterals s shapes policy).mapError Fault.unlabelled := by
  simp only [resolveLiterals, map_bind, mapError_bind, Subscripts.mapError_checkRanks,
    mapError_resolve]

end Wording

end Plan

namespace Subscripts

/-- Printing and reading are inverse to each other. Segments of letters with an output that repeats
none are read back as they were written, with the output written out, whatever blanks stand between
the tokens; without blanks it is the printed form. All that was ever read is of this kind. When it
is printed and read again, segments and output are those of before, and every list of shapes is
matched as before, whether repetitions are rejected or not. -/
theorem reading_inverts_printing :
    (∀ s : Subscripts, s.Writable → ∀ gaps : Nat → List Char, (∀ i, ∀ c ∈ gaps i, IsBlank c) →
        read (String.ofList (spaced gaps s.tokens)) =
          .ok (s.reworded true (String.ofList (spaced gaps s.tokens)))) ∧
      (∀ s : Subscripts, spaced (fun _ => []) s.tokens = s.toList) ∧
      ∀ text s, read text = .ok s → s.Writable ∧ read s.toText = .ok (s.reworded true s.toText) ∧
        ∀ policy,
          (∀ shapes, Plan.SameButWording true s.toText (Plan.resolve s shapes policy)
            (Plan.resolve (s.reworded true s.toText) shapes policy)) ∧
          ∀ shapes, Plan.SameButWording true s.toText (Plan.resolveLiterals s shapes policy)
            (Plan.resolveLiterals (s.reworded true s.toText) shapes policy) := by
  refine ⟨fun s writable => writable.read_spaced, spaced_nil_tokens, fun text s accepted => ?_⟩
  have writable := writable_of_read accepted
  refine ⟨writable, writable.read_toText, fun policy => ⟨fun shapes => ?_, fun shapes => ?_⟩⟩
  · exact Plan.sameButWording_of_mapError (Plan.mapError_resolve true s.toText s policy shapes)
  · exact Plan.sameButWording_of_mapError
      (Plan.mapError_resolveLiterals true s.toText s policy shapes)

/-- A product of matrices, to be written with a blank around every token. -/
def matrixProduct : Subscripts where
  inputs := [['i', 'j'], ['j', 'k']]
  output := ['i', 'k']

theorem reading_inverts_printing_matrixProduct :
    read " i j , j k -> i k " = .ok (matrixProduct.reworded true " i j , j k -> i k ") ∧
      ∃ s, read "ij,jk" = .ok s ∧ s.explicit = false ∧
        read "ij,jk->ik" = .ok (s.reworded true "ij,jk->ik") ∧
        Plan.SameButWording true "ij,jk->ik" (Plan.resolve s [[2, 3], [4, 5]] .reject)
          (Plan.resolve (s.reworded true "ij,jk->ik") [[2, 3], [4, 5]] .reject) := by
  obtain ⟨written, -, printed⟩ := reading_inverts_printing
  have writable : matrixProduct.Writable := by
    refine ⟨List.cons_ne_nil _ _, ?_, ?_, by decide⟩ <;> simp [matrixProduct, IsLetter]
  have spread := written matrixProduct writable (fun _ => [' ']) fun _ c inside =>
    .inl (List.mem_singleton.1 inside)
  rw [show String.ofList (spaced (fun _ => [' ']) matrixProduct.tokens) =
    " i j , j k -> i k " by decide +kernel]
    at spread
  obtain ⟨s, implied, inferred, shown⟩ :
      ∃ s, read "ij,jk" = .ok s ∧ s.explicit = false ∧ s.toText = "ij,jk->ik" :=
    ⟨_, rfl, by decide +kernel, by decide +kernel⟩
  obtain ⟨-, again, matched⟩ := printed _ s implied
  rw [shown] at again matched
  exact ⟨spread, s, implied, inferred, again, (matched .reject).1 _⟩

end Subscripts

end TensorCalculus
