import TensorCalculus.Bulk.Run
import TensorCalculus.Proofs.Decimal.Whole
import TensorCalculus.Proofs.Outcome
import TensorCalculus.Trace.Basic

/-!
# Traces and plain calls

A traced call checks its operands, plans and runs as the plain call does, in the same order, so both
come to the same result or to the same fault, whatever has been logged before. What a trace adds is
the heading, before anything is done, and the time and the cost of a plan that has been carried out.
The latter can be told as long as the clock shows doubles and the number of operations is in their
range. The heading can be told for tensors; but where something else is handed over, which has no
sizes to list, the call is over with a fault of its own. -/

namespace TensorCalculus

open TensorCalculus.Outcome

namespace Plan

/-- The cost of a plan can be told as long as the number of its operations is in the range of
doubles. -/
theorem exists_cost {p : Plan} (small : p.operations.natAbs < Decimal.wholeLimit) :
    ∃ c, p.cost = .ok c := by
  obtain ⟨operations, known⟩ := Decimal.exists_ofInt? small
  rw [cost, Literal.doubleOfInt, known]
  exact ⟨_, rfl⟩

end Plan

/-- Whether a clock shows doubles, as the clock of a machine does. -/
def Clock.Steady (clock : Clock) : Prop :=
  ∀ reading ∈ clock.readings, ∃ x, reading = .real x

theorem Clock.Steady.read {clock : Clock} (steady : clock.Steady) :
    (∃ x, clock.read.1 = .real x) ∧ clock.read.2.Steady := by
  obtain ⟨readings⟩ := clock
  cases readings with
  | nil => exact ⟨⟨0, rfl⟩, nofun⟩
  | cons first rest =>
    obtain ⟨here, later⟩ := List.forall_mem_cons.1 steady
    cases rest with
    | nil => exact ⟨here, steady⟩
    | cons => exact ⟨here, later⟩

namespace Trace

section Call

variable {ρ θ : Type} {t : Trace} {heading : Heading} {backend : Pending String} {wording : Wording}
  {operands : List (Operand Float)} {name : Option String} {check : Except Fault θ}
  {shapes : θ → List (List Int)}
  {execute : θ → Plan → Except Fault ρ}

/-- What the beginning of a call leaves: the settings, a clock that shows doubles, and a double as
the time. -/
theorem start_spec (steady : t.clock.Steady) :
    t.start.2.settings = t.settings ∧ t.start.2.clock.Steady ∧
      ∀ time, t.start.1 = some time → ∃ x, time = .real x := by
  unfold start
  split
  case isTrue =>
    obtain ⟨⟨x, shown⟩, later⟩ := steady.read
    refine ⟨rfl, later, fun time read => ⟨x, ?_⟩⟩
    rw [← Option.some.inj read, shown]
  case isFalse => exact ⟨rfl, steady, nofun⟩

/-- Between doubles the time can be told, and it is a double. -/
theorem elapsed_spec (steady : t.clock.Steady) {started : Option Literal}
    (doubles : ∀ time, started = some time → ∃ x, time = .real x) :
    (∃ duration, (t.elapsed started).1 = .ok duration ∧
      ∀ time, duration = some time → ∃ x, time = .real x) ∧
      (t.elapsed started).2.settings = t.settings ∧ (t.elapsed started).2.clock.Steady := by
  cases started with
  | none => exact ⟨⟨none, rfl, nofun⟩, rfl, steady⟩
  | some time =>
    obtain ⟨x, rfl⟩ := doubles time rfl
    obtain ⟨⟨y, shown⟩, later⟩ := steady.read
    refine ⟨⟨some (.real ((y - x) * 1000)),
      ?_, fun _ measured => ⟨_, (Option.some.inj measured).symm⟩⟩, rfl, later⟩
    change (millisecondsBetween (.real x) t.clock.read.1).map some = _
    rw [shown]
    rfl

@[simp]
theorem start_entries : t.start.2.entries = t.entries := by
  unfold start
  split
  case isTrue => rfl
  case isFalse => rfl

@[simp]
theorem elapsed_entries (started : Option Literal) : (t.elapsed started).2.entries = t.entries := by
  cases started with
  | none => rfl
  | some => rfl

/-- The plan of a call, made for the shapes of what its operands have been found to be. -/
def planFor (settings : Settings Float) (wording : Wording) (check : Except Fault θ)
    (shapes : θ → List (List Int)) : Except Fault Plan := do
  let checked ← check
  settings.planWording wording (shapes checked)

/-- What a call comes to when nothing is logged. -/
def untraced (settings : Settings Float) (wording : Wording) (check : Except Fault θ)
    (shapes : θ → List (List Int)) (execute : θ → Plan → Except Fault ρ) : Except Fault ρ := do
  let checked ← check
  let plan ← settings.planWording wording (shapes checked)
  execute checked plan

/-- Under its heading a call comes to what its plan comes to, once the cost of the plan is known. -/
theorem carryOut_fst (steady : t.clock.Steady) :
    (t.carryOut heading wording check shapes execute).1 = do
    let checked ← check
    let plan ← t.settings.planWording wording (shapes checked)
    let result ← execute checked plan
    let _ ← plan.cost
    return result := by
  obtain ⟨kept, later, doubles⟩ := start_spec steady
  obtain ⟨⟨duration, measured, -⟩, -⟩ := elapsed_spec later doubles
  simp only [carryOut, kept]
  cases check with
  | error fault => rfl
  | ok checked =>
    simp only [ok_bind]
    cases t.settings.planWording wording (shapes checked) with
    | error fault => rfl
    | ok plan =>
      simp only [ok_bind]
      cases execute checked plan with
      | error fault => rfl
      | ok result =>
        simp only [ok_bind, pure_eq_ok, measured]
        cases plan.cost with
        | error fault => rfl
        | ok cost => rfl

/-- What every operation on a trace keeps up: the settings, and a clock that shows doubles. -/
structure Kept (settings : Settings Float) (t : Trace) : Prop where
  settings_eq : t.settings = settings
  steady : t.clock.Steady

theorem Kept.carryOut {settings : Settings Float} (kept : Kept settings t) :
    Kept settings (t.carryOut heading wording check shapes execute).2 := by
  obtain ⟨rfl, steady⟩ := kept
  obtain ⟨same, later, doubles⟩ := start_spec steady
  obtain ⟨-, same', later'⟩ := elapsed_spec later doubles
  simp only [Trace.carryOut]
  split
  case h_1 => exact ⟨same, later⟩
  case h_2 =>
    split
    case h_1 => exact ⟨same'.trans same, later'⟩
    case h_2 => exact ⟨same'.trans same, later'⟩

/-- Whether a call has a heading: its backend has a label, every entry says whether it stands for a
contraction, and the operands list their sizes. -/
structure Headed (t : Trace) (backend : Pending String) (operands : List (Operand Float)) :
    Prop where
  labelled : ∃ label, backend = .ok label
  counted : ∀ e ∈ t.entries, ∃ b, isContraction e = .ok b
  listed : ∀ operand ∈ operands, ∃ sizes, operand.sizes = .ok sizes

theorem exists_iterations_iff : (∃ n, t.iterations = .ok n) ↔
    ∀ e ∈ t.entries, ∃ b, isContraction e = .ok b := by
  simp only [← exists_mapM_eq_ok_iff, iterations, bind_eq_ok_iff, pure_eq_ok]
  constructor
  · rintro ⟨_, bs, asked, -⟩
    exact ⟨bs, asked⟩
  · rintro ⟨bs, asked⟩
    exact ⟨_, bs, asked, rfl⟩

theorem exists_heading_iff : (∃ told, t.heading backend wording operands name = .ok told) ↔
    t.Headed backend operands := by
  simp only [heading, bind_eq_ok_iff]
  constructor
  · rintro ⟨_, label, labelled, iteration, counted, sizes, listed, -⟩
    exact ⟨⟨label, labelled⟩, exists_iterations_iff.1 ⟨iteration, counted⟩,
      exists_mapM_eq_ok_iff.1 ⟨sizes, listed⟩⟩
  · rintro ⟨⟨label, labelled⟩, counted, listed⟩
    obtain ⟨iteration, counted⟩ := exists_iterations_iff.2 counted
    obtain ⟨sizes, listed⟩ := exists_mapM_eq_ok_iff.2 listed
    exact ⟨_, label, labelled, iteration, counted, sizes, listed, rfl⟩

theorem call_of_heading (told : t.heading backend wording operands name = .ok heading) :
    t.call backend wording operands name check shapes execute =
      t.carryOut heading wording check shapes execute := by
  simp only [call, told]

/-- Without a heading a call is over, and nothing is logged. -/
theorem exists_call_of_unheaded (unheaded : ¬ t.Headed backend operands) :
    ∃ fault, t.call backend wording operands name check shapes execute = (.error fault, t) := by
  simp only [call]
  split
  case h_1 fault _ => exact ⟨fault, rfl⟩
  case h_2 told found => exact absurd (exists_heading_iff.1 ⟨told, found⟩) unheaded

theorem Kept.call {settings : Settings Float} (kept : Kept settings t) :
    Kept settings (t.call backend wording operands name check shapes execute).2 := by
  simp only [Trace.call]
  split
  case h_1 => exact kept
  case h_2 => exact kept.carryOut

/-- Whether a traced call comes to the same as a plain one: to the same fault in any case, and to
the same result as long as the number of operations that goes into the record is in the range of
doubles. No call with more operations than that comes to an end. -/
def Transparent (planned : Except Fault Plan) (traced plain : Except Fault ρ) : Prop :=
  (∀ fault, plain = .error fault → traced = .error fault) ∧
    ((∀ plan, planned = .ok plan → plan.operations.natAbs < Decimal.wholeLimit) → traced = plain)

theorem carryOut_transparent (steady : t.clock.Steady) :
    Transparent (planFor t.settings wording check shapes)
      (t.carryOut heading wording check shapes execute).1
      (untraced t.settings wording check shapes execute) := by
  rw [carryOut_fst steady, planFor, untraced]
  cases check with
  | error fault => exact ⟨fun _ same => same, fun _ => rfl⟩
  | ok checked =>
    simp only [ok_bind]
    cases t.settings.planWording wording (shapes checked) with
    | error fault => exact ⟨fun _ same => same, fun _ => rfl⟩
    | ok plan =>
      simp only [ok_bind]
      cases execute checked plan with
      | error fault => exact ⟨fun _ same => same, fun _ => rfl⟩
      | ok result =>
        refine ⟨fun _ same => (nomatch same), fun small => ?_⟩
        obtain ⟨cost, known⟩ := Plan.exists_cost (small plan rfl)
        rw [ok_bind, known]
        rfl

/-- Whether a traced call comes to what the plain one comes to where it has a heading, and otherwise
ends with a fault and changes nothing. -/
structure Faithful (t : Trace) (backend : Pending String) (operands : List (Operand Float))
    (planned : Except Fault Plan) (traced : Except Fault ρ × Trace) (plain : Except Fault ρ) :
    Prop where
  transparent : t.Headed backend operands → Transparent planned traced.1 plain
  unheaded : ¬ t.Headed backend operands → ∃ fault, traced = (.error fault, t)

theorem call_faithful (steady : t.clock.Steady) :
    t.Faithful backend operands (planFor t.settings wording check shapes)
      (t.call backend wording operands name check shapes execute)
      (untraced t.settings wording check shapes execute) where
  transparent headed := by
    obtain ⟨told, found⟩ := exists_heading_iff.2 headed
    rw [call_of_heading found]
    exact carryOut_transparent steady
  unheaded := exists_call_of_unheaded

end Call

/-- The plan of a contraction of real tensors. -/
def planReals (settings : Settings Float) (wording : Wording) (operands : List (Operand Float)) :
    Except Fault Plan :=
  planFor settings wording (Operand.expectReals operands) (·.map Tensor.dims)

/-- The plan of a contraction of hypercomplex tensors. -/
def planHypers (settings : Settings Float) (wording : Wording) (operands : List (Operand Float)) :
    Except Fault Plan :=
  planFor settings wording (Operand.expectHypers operands) (·.2.map fun t => t.toTensor.dims)

section Contractions

variable {t : Trace} (wording : Wording) (operands : List (Operand Float)) (name : Option String)

theorem einsum_faithful [BulkRoutine Float] (steady : t.clock.Steady) :
    t.Faithful (.ok (if t.settings.strategy = .bulk then "numpy" else "real")) operands
      (planReals t.settings wording operands) (t.einsum wording operands name)
      (TensorCalculus.einsum t.settings wording operands name) :=
  call_faithful steady

theorem sumProductEinsum_faithful (steady : t.clock.Steady) (label : Pending String)
    (s : Pending (SumProduct Float)) :
    t.Faithful (label.map ("semiring:" ++ ·)) operands (planReals t.settings wording operands)
      (t.sumProductEinsum label s wording operands name)
      (match s with
        | .ok s => TensorCalculus.semiringEinsum t.settings s wording operands name
        | .error fault => .error fault) := by
  cases s with
  | error fault =>
    let refusal : Except Fault (List (Tensor Float)) := .error fault
    have faithful : t.Faithful (label.map ("semiring:" ++ ·)) operands
        (planFor t.settings wording refusal (·.map Tensor.dims))
        (t.sumProductEinsum label (.error fault) wording operands name) (.error fault) :=
      call_faithful steady
    refine ⟨fun headed => ?_, faithful.unheaded⟩
    obtain ⟨refused, -⟩ := faithful.transparent headed
    exact ⟨refused, fun _ => refused fault rfl⟩
  | ok s => exact call_faithful steady

theorem hyperEinsum_faithful (steady : t.clock.Steady) :
    t.Faithful (hyperLabel operands) operands (planHypers t.settings wording operands)
      (t.hyperEinsum wording operands name)
      (TensorCalculus.hyperEinsum (.ok t.settings) wording operands name) :=
  call_faithful steady

end Contractions

section Reached

variable [BulkRoutine Float]

/-- The traces that calls, notes and resets lead to from an empty one. -/
inductive Reached (settings : Settings Float) (clock : Clock) : Trace → Prop
  | fresh : Reached settings clock { settings, clock }
  | einsum {t : Trace} (wording : Wording) (operands : List (Operand Float))
      (name : Option String) :
      Reached settings clock t → Reached settings clock (t.einsum wording operands name).2
  | sumProductEinsum {t : Trace} (label : Pending String) (s : Pending (SumProduct Float))
      (wording : Wording) (operands : List (Operand Float)) (name : Option String) :
      Reached settings clock t →
        Reached settings clock (t.sumProductEinsum label s wording operands name).2
  | hyperEinsum {t : Trace} (wording : Wording) (operands : List (Operand Float))
      (name : Option String) :
      Reached settings clock t → Reached settings clock (t.hyperEinsum wording operands name).2
  | note {t : Trace} (memo : Memo) : Reached settings clock t → Reached settings clock (t.note memo)
  | reset {t : Trace} : Reached settings clock t → Reached settings clock t.reset

theorem Reached.kept {settings : Settings Float} {clock : Clock} {t : Trace}
    (reached : Reached settings clock t) (steady : clock.Steady) : Kept settings t := by
  induction reached with
  | fresh => exact ⟨rfl, steady⟩
  | einsum _ _ _ _ ih => exact ih.call
  | sumProductEinsum _ _ _ _ _ _ ih => exact ih.call
  | hyperEinsum _ _ _ _ ih => exact ih.call
  | note _ _ ih => exact ⟨ih.settings_eq, ih.steady⟩
  | reset _ ih => exact ⟨ih.settings_eq, ih.steady⟩

/-- Tracing changes nothing where a call has a heading. With settings that are in order, every trace
that can be reached then answers each of the three contractions as the contraction itself does under
the same settings. A call without a heading ends with a fault of its own, and leaves the trace as it
is. -/
theorem calls_transparent {draft : SettingsDraft} {settings : Settings Float}
    (valid : draft.normalize = .ok settings) {clock : Clock} (steady : clock.Steady) {t : Trace}
    (reached : Reached settings clock t) (wording : Wording)
    (operands : List (Operand Float)) (name : Option String) (label : Pending String)
    (s : Pending (SumProduct Float)) :
    t.Faithful (.ok (if settings.strategy = .bulk then "numpy" else "real")) operands
        (planReals settings wording operands) (t.einsum wording operands name)
        (do TensorCalculus.einsum (← draft.normalize) wording operands name) ∧
      t.Faithful (label.map ("semiring:" ++ ·)) operands (planReals settings wording operands)
        (t.sumProductEinsum label s wording operands name)
        (match s with
          | .ok s => do TensorCalculus.semiringEinsum (← draft.normalize) s wording operands name
          | .error fault => .error fault) ∧
      t.Faithful (hyperLabel operands) operands (planHypers settings wording operands)
        (t.hyperEinsum wording operands name)
        (TensorCalculus.hyperEinsum draft.normalize wording operands name) := by
  obtain ⟨rfl, still⟩ := reached.kept steady
  rw [valid]
  exact ⟨einsum_faithful wording operands name still,
    sumProductEinsum_faithful wording operands name still label s,
    hyperEinsum_faithful wording operands name still⟩

end Reached

attribute [local instance] Bulk.routine

/-- What is no tensor, but has a whole number in the place of its sizes. -/
def unlisted : Operand Float :=
  .foreign "SimpleNamespace" (.ok none) (.error (.type (.notIterable "int")))

def fresh : Trace :=
  { settings := { tolerance := 1e-6 }, clock := { readings := [.real 1, .real 2.5] } }

/-- The contraction refuses what is no tensor, but a trace has no heading for it. -/
theorem unlisted_refused_differently :
    TensorCalculus.einsum fresh.settings (.written (.text "i->i")) [unlisted] none =
        .error (.type (.notTensor "operand" "SimpleNamespace")) ∧
      fresh.einsum (.written (.text "i->i")) [unlisted] none =
        (.error (.type (.notIterable "int")), fresh) :=
  ⟨rfl, rfl⟩

def matrix : Tensor Float := ⟨"M", ["line", "stand"], [2, 2], #[1, 2, 3, 4], rfl, rfl⟩

/-- The product of two matrices, still to be read. -/
def matrixProduct : Wording := .written (.text "ij,jk->ik")

/-- A trace whose only call was refused, as one operand was a list. -/
def refusedOnce : Trace :=
  (fresh.einsum matrixProduct [.real matrix, .foreign "list" (.ok none) (.ok [])] none).2

theorem calls_transparent_refusedOnce :
    refusedOnce.entries.length = 1 ∧
      (refusedOnce.einsum matrixProduct [.real matrix, .real matrix] none).1 =
        (do
          let settings ← SettingsDraft.normalize {}
          TensorCalculus.einsum settings matrixProduct [.real matrix, .real matrix] none) ∧
      (refusedOnce.einsum matrixProduct [.real matrix, .real matrix] none).1.toOption.map
        (fun t => t.data) = some #[7, 10, 15, 22] := by
  have valid : SettingsDraft.normalize {} = .ok { tolerance := 1e-6 } := rfl
  have steady : Clock.Steady { readings := [.real 1, .real 2.5] } := by simp [Clock.Steady]
  have small :
      ∀ plan, planReals { tolerance := 1e-6 } matrixProduct [.real matrix, .real matrix] =
        .ok plan →
      plan.operations.natAbs < Decimal.wholeLimit := by
    intro plan planned
    have counted :
        (planReals { tolerance := 1e-6 } matrixProduct [.real matrix, .real matrix]).toOption.map
        Plan.operations = some 16 := by decide +kernel
    rw [planned] at counted
    rw [Option.some.inj counted]
    decide +kernel
  have headed : refusedOnce.Headed (.ok "real") [.real matrix, .real matrix] := by
    refine ⟨⟨_, rfl⟩, ?_, ?_⟩
    · intro e logged
      rw [List.mem_singleton.1 logged]
      exact ⟨_, rfl⟩
    · simp [Operand.sizes]
  obtain ⟨⟨transparent, -⟩, -⟩ := calls_transparent valid steady
    (.einsum matrixProduct [.real matrix, .foreign "list" (.ok none) (.ok [])] none .fresh)
    matrixProduct [.real matrix, .real matrix] none (.ok "counting") (.ok .counting)
  exact ⟨by decide +kernel, (transparent headed).2 small, by decide +kernel⟩

end Trace

end TensorCalculus
