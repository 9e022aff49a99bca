import TensorCalculus.Proofs.Trace.Transparency
import TensorCalculus.Trace.Report

/-!
# Records of calls

Every call that has a heading adds one record at the end of the log, whatever it comes to: a call
that fails leaves its fault, and one that succeeds leaves its cost, as long as that can be told in
doubles. -/

namespace TensorCalculus

open TensorCalculus.Outcome

/-- The bytes of all buffers, as a double. -/
def Cost.bytes (c : Cost) : Except Fault Float :=
  Literal.doubleOfInt c.bytesTotal

/-- Whether doubles can hold the number of operations of a plan and the bytes of its buffers. No
memory holds more bytes than that, and no loop with more operations comes to an end. -/
structure Plan.Countable (p : Plan) : Prop where
  operations : p.operations.natAbs < Decimal.wholeLimit
  bytes : (p.inputSize * 8 + p.outputSize * 8).natAbs < Decimal.wholeLimit

theorem Plan.Countable.exists_cost {p : Plan} (countable : p.Countable) :
    ∃ c, p.cost = .ok c ∧ ∃ x, c.bytes = .ok x := by
  obtain ⟨operations, known⟩ := Decimal.exists_ofInt? countable.operations
  obtain ⟨bytes, known'⟩ := Decimal.exists_ofInt? countable.bytes
  simp only [cost, Cost.bytes, Cost.bytesTotal, Literal.doubleOfInt, known]
  refine ⟨_, rfl, bytes, ?_⟩
  simp only [known']

namespace Record

variable {r : Record}

/-- The cost of what was carried out; a call that failed has none. -/
def cost? (r : Record) : Option Cost :=
  r.outcome.toOption.map Prod.snd

/-- Whether the time of a record is a double and its bytes are in the range of doubles. -/
structure Reportable (r : Record) : Prop where
  timed : ∀ time, r.duration = some time → ∃ x, time = .real x
  counted : ∀ cost, r.cost? = some cost → ∃ x, cost.bytes = .ok x

/-- The fields in front of the outcome. -/
def heading : List String :=
  ["name", "iteration", "notation", "backend", "shapes", "duration_ms"]

/-- What is not in front of the outcome is part of it. -/
theorem field?_toLiteral {key : String} (later : key ∉ heading) :
    r.toLiteral.field? key = (Literal.record r.outcomeFields).field? key := by
  simp only [heading, List.mem_cons, List.not_mem_nil, or_false, not_or, ← ne_eq] at later
  obtain ⟨name, iteration, asked, backend, shapes, duration⟩ := later
  unfold toLiteral
  cases r.duration with
  | none => simp [Literal.field?, name.symm, iteration.symm, asked.symm, backend.symm, shapes.symm]
  | some =>
    simp [Literal.field?, name.symm, iteration.symm, asked.symm, backend.symm, shapes.symm,
      duration.symm]

/-- How a record says what came of the call. -/
def status (r : Record) : String :=
  match r.outcome with
  | .ok _ => "ok"
  | .error _ => "failed"

theorem field?_status : r.toLiteral.field? "status" = some (.text r.status) := by
  rw [field?_toLiteral (by decide), outcomeFields, status]
  cases r.outcome with
  | error => rfl
  | ok => rfl

theorem field?_error {fault : Fault} (failed : r.outcome = .error fault) :
    r.toLiteral.field? "error" = some (.text (fault.kind ++ ": " ++ fault.message)) := by
  rw [field?_toLiteral (by decide), outcomeFields, failed]
  rfl

end Record

/-- Whether a record tells of a contraction, planned in some way, that has come to a given
result. -/
structure Record.Tells {ρ : Type} (r : Record) (planned : Except Fault Plan) (wording : Wording)
    (operands : List (Operand Float)) (name : Option String) (result : Except Fault ρ) : Prop where
  name_eq : r.name = resultName name
  asked_eq : r.asked = wording.shown
  shapes_eq : operands.mapM Operand.sizes = .ok r.shapes
  failed : ∀ fault, result = .error fault → r.outcome = .error fault
  succeeded : ∀ x, result = .ok x → ∃ plan cost, planned = .ok plan ∧ plan.cost = .ok cost ∧
    r.outcome = .ok (plan.subscripts.toText, cost)

/-- How a record shows what a contraction has come to. -/
structure Record.Shows {ρ : Type} (r : Record) (result : Except Fault ρ) : Prop where
  ok_iff : r.toLiteral.field? "status" = some (.text "ok") ↔ ∃ x, result = .ok x
  failed : ∀ fault, result = .error fault → r.toLiteral.field? "status" = some (.text "failed") ∧
    r.toLiteral.field? "error" = some (.text (fault.kind ++ ": " ++ fault.message))

namespace Record.Tells

variable {ρ ρ' : Type} {r : Record} {planned : Except Fault Plan} {wording : Wording}
  {operands : List (Operand Float)} {name : Option String} {result : Except Fault ρ}

theorem map (tells : r.Tells planned wording operands name result) (f : ρ → ρ') :
    r.Tells planned wording operands name (result.map f) where
  name_eq := tells.name_eq
  asked_eq := tells.asked_eq
  shapes_eq := tells.shapes_eq
  failed fault same := by
    cases result with
    | error =>
      cases same
      exact tells.failed fault rfl
    | ok => cases same
  succeeded _ same := by
    cases result with
    | error => cases same
    | ok x => exact tells.succeeded x rfl

theorem shown (tells : r.Tells planned wording operands name result) : r.Shows result := by
  cases result with
  | error fault =>
    have outcome := tells.failed fault rfl
    have status : r.toLiteral.field? "status" = some (.text "failed") := by
      rw [field?_status, Record.status, outcome]
    refine ⟨⟨fun ok => ?_, fun ⟨_, same⟩ => nomatch same⟩, fun _ same => ?_⟩
    · rw [status] at ok
      simp at ok
    · cases same
      exact ⟨status, field?_error outcome⟩
  | ok x =>
    obtain ⟨plan, cost, -, -, outcome⟩ := tells.succeeded x rfl
    refine ⟨⟨fun _ => ⟨x, rfl⟩, fun _ => ?_⟩, fun _ same => nomatch same⟩
    rw [field?_status, Record.status, outcome]

end Record.Tells

namespace Trace

section Call

variable {ρ θ : Type} {t : Trace} {told : Heading} {backend : Pending String} {wording : Wording}
  {operands : List (Operand Float)} {name : Option String} {check : Except Fault θ}
  {shapes : θ → List (List Int)}
  {execute : θ → Plan → Except Fault ρ}

/-- What a heading takes over from the call. -/
theorem heading_eq (found : t.heading backend wording operands name = .ok told) :
    told.name = resultName name ∧ told.asked = wording.shown ∧ t.iterations = .ok told.iteration ∧
      operands.mapM Operand.sizes = .ok told.shapes := by
  obtain ⟨label, -, found⟩ := bind_eq_ok_iff.1 found
  obtain ⟨iteration, counted, found⟩ := bind_eq_ok_iff.1 found
  obtain ⟨sizes, listed, found⟩ := bind_eq_ok_iff.1 found
  cases found
  exact ⟨rfl, rfl, counted, listed⟩

/-- What a call comes to, together with the plan it is carried out by. -/
def carried (settings : Settings Float) (wording : Wording) (check : Except Fault θ)
    (shapes : θ → List (List Int)) (execute : θ → Plan → Except Fault ρ) :
    Except Fault (Plan × ρ) := do
  let checked ← check
  let plan ← settings.planWording wording (shapes checked)
  return (plan, ← execute checked plan)

theorem untraced_of_carried {settings : Settings Float} {plan : Plan} {result : ρ}
    (ran : carried settings wording check shapes execute = .ok (plan, result)) :
    untraced settings wording check shapes execute = .ok result ∧
      planFor settings wording check shapes = .ok plan := by
  obtain ⟨checked, accepted, rest⟩ := bind_eq_ok_iff.1 ran
  obtain ⟨plan, planned, rest⟩ := bind_eq_ok_iff.1 rest
  obtain ⟨result, executed, same⟩ := bind_eq_ok_iff.1 rest
  cases same
  constructor
  · rw [untraced, accepted, ok_bind, planned, ok_bind, executed]
  · rw [planFor, accepted, ok_bind, planned]

theorem carryOut_of_error (kept : t.start.2.settings = t.settings) {fault : Fault}
    (ran : carried t.settings wording check shapes execute = .error fault) :
    t.carryOut told wording check shapes execute =
      (.error fault,
        t.start.2.append
          (.contraction { told with duration := none, outcome := .error fault })) := by
  rw [carried] at ran
  simp only [carryOut, kept, ran]

theorem carryOut_of_ok (kept : t.start.2.settings = t.settings) {plan : Plan} {result : ρ}
    {duration : Option Literal} {cost : Cost}
    (ran : carried t.settings wording check shapes execute = .ok (plan, result))
    (measured : (t.start.2.elapsed t.start.1).1 = .ok duration) (known : plan.cost = .ok cost) :
    t.carryOut told wording check shapes execute =
      (.ok result, (t.start.2.elapsed t.start.1).2.append (.contraction
        { told with duration, outcome := .ok (plan.subscripts.toText, cost) })) := by
  rw [carried] at ran
  simp only [carryOut, kept, ran, measured, known]
  rfl

/-- Whether a call has added one record at the end of the log that tells what has come of it. -/
def Recorded {ρ : Type} (t : Trace) (planned : Except Fault Plan) (wording : Wording)
    (operands : List (Operand Float)) (name : Option String) (called : Except Fault ρ × Trace) :
    Prop :=
  ∃ r, called.2.entries = t.entries ++ [.contraction r] ∧ t.iterations = .ok r.iteration ∧
    r.Reportable ∧ r.Tells planned wording operands name called.1

theorem Recorded.map {ρ' : Type} {planned : Except Fault Plan} {called : Except Fault ρ × Trace}
    (recorded : t.Recorded planned wording operands name called) (f : ρ → ρ') :
    t.Recorded planned wording operands name (called.map (Except.map f) id) := by
  obtain ⟨r, entries, iteration, reportable, tells⟩ := recorded
  exact ⟨r, entries, iteration, reportable, tells.map f⟩

/-- Every call that has a heading is recorded, as long as the cost of what succeeds can be told. -/
theorem recorded_call (steady : t.clock.Steady) (headed : t.Headed backend operands)
    (countable : ∀ result plan,
      untraced t.settings wording check shapes execute = .ok result →
      planFor t.settings wording check shapes = .ok plan → plan.Countable) :
    t.Recorded (planFor t.settings wording check shapes) wording operands name
      (t.call backend wording operands name check shapes execute) := by
  obtain ⟨told, found⟩ := exists_heading_iff.2 headed
  obtain ⟨named, asked, counted, listed⟩ := heading_eq found
  obtain ⟨kept, later, doubles⟩ := start_spec steady
  obtain ⟨⟨duration, measured, timed⟩, -⟩ := elapsed_spec later doubles
  rw [call_of_heading found]
  cases ran : carried t.settings wording check shapes execute with
  | error fault =>
    rw [Recorded, carryOut_of_error kept ran]
    refine ⟨{ told with duration := none, outcome := .error fault }, ?_, counted, ⟨?_, ?_⟩, named,
      asked, listed, ?_, ?_⟩
    · rw [append, start_entries]
    · intro _ measured
      cases measured
    · intro _ told
      cases told
    · intro _ same
      exact congrArg Except.error (Except.error.inj same)
    · intro _ same
      cases same
  | ok both =>
    obtain ⟨plan, result⟩ := both
    obtain ⟨plain, made⟩ := untraced_of_carried ran
    obtain ⟨cost, known, bytes⟩ := (countable result plan plain made).exists_cost
    rw [Recorded, carryOut_of_ok kept ran measured known]
    refine ⟨{ told with duration, outcome := .ok (plan.subscripts.toText, cost) }, ?_, counted,
      ⟨timed, ?_⟩, named, asked, listed, ?_, ?_⟩
    · rw [append, elapsed_entries, start_entries]
    · intro _ told
      cases told
      exact bytes
    · intro _ same
      cases same
    · intro _ _
      exact ⟨plan, cost, made, known, rfl⟩

end Call

end Trace

end TensorCalculus
