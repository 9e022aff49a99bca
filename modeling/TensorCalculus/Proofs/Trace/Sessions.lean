import Mathlib.Data.List.DropRight
import TensorCalculus.Proofs.Trace.Reports

/-!
# Sessions

A session is a sequence of requests to one trace: contractions, resets and reports, in any order,
whether they succeed or not. Its log holds one record for each contraction that has been asked for
since the last reset, those left aside that could not even be put under a heading. -/

namespace TensorCalculus

open TensorCalculus.Outcome

/-- Which of the three contractions is meant. -/
inductive Call.Kind where
  | real
  | sumProduct (label : Pending String) (s : Pending (SumProduct Float))
  | hyper

structure Call where
  kind : Call.Kind
  wording : Wording
  operands : List (Operand Float)
  name : Option String

/-- What a contraction comes to. -/
inductive Result where
  | real (t : Tensor Float)
  | hyper (t : HyperTensor Float)

namespace Call

section Plain

variable [BulkRoutine Float]

/-- The contraction itself. -/
def plain (c : Call) (settings : Settings Float) : Except Fault Result :=
  match c.kind with
  | .real => (einsum settings c.wording c.operands c.name).map .real
  | .sumProduct _ (.ok s) => (semiringEinsum settings s c.wording c.operands c.name).map .real
  | .sumProduct _ (.error fault) => .error fault
  | .hyper => (hyperEinsum (.ok settings) c.wording c.operands c.name).map .hyper

/-- The contraction on a trace. -/
def traced (c : Call) (t : Trace) : Except Fault Result × Trace :=
  match c.kind with
  | .real => (t.einsum c.wording c.operands c.name).map (Except.map .real) id
  | .sumProduct label s =>
    (t.sumProductEinsum label s c.wording c.operands c.name).map (Except.map .real) id
  | .hyper => (t.hyperEinsum c.wording c.operands c.name).map (Except.map .hyper) id

end Plain

/-- The plan of the contraction. -/
def planned (c : Call) (settings : Settings Float) : Except Fault Plan :=
  match c.kind with
  | .real | .sumProduct _ (.ok _) => Trace.planReals settings c.wording c.operands
  | .sumProduct _ (.error fault) => .error fault
  | .hyper => Trace.planHypers settings c.wording c.operands

/-- The label of the backend. -/
def backend (c : Call) (settings : Settings Float) : Pending String :=
  match c.kind with
  | .real => .ok (if settings.strategy = .bulk then "numpy" else "real")
  | .sumProduct label _ => label.map ("semiring:" ++ ·)
  | .hyper => Trace.hyperLabel c.operands

/-- Whether the backend has a label. -/
def labelled (c : Call) : Bool :=
  match c.kind with
  | .real => true
  | .sumProduct label _ => label.isOk
  | .hyper => (Trace.hyperLabel c.operands).isOk

/-- Whether a call can be put under a heading: its backend has a label and its operands list their
sizes. -/
def introduced (c : Call) : Bool :=
  c.labelled && c.operands.all (·.sizes.isOk)

theorem isOk_backend (c : Call) (settings : Settings Float) :
    (c.backend settings).isOk = c.labelled := by
  obtain ⟨kind, wording, operands, name⟩ := c
  cases kind with
  | real => rfl
  | sumProduct label s => exact isOk_map _ label
  | hyper => rfl

variable {c : Call} {t : Trace}

/-- In a log of records nothing else is asked of a call for a heading. -/
theorem headed_iff_introduced (counted : ∀ e ∈ t.entries, ∃ b, Trace.isContraction e = .ok b) :
    t.Headed (c.backend t.settings) c.operands ↔ c.introduced := by
  simp only [introduced, ← isOk_backend c t.settings, Bool.and_eq_true, List.all_eq_true,
    isOk_eq_true_iff]
  constructor
  · rintro ⟨labelled, -, listed⟩
    exact ⟨labelled, listed⟩
  · rintro ⟨labelled, listed⟩
    exact ⟨labelled, counted, listed⟩

variable [BulkRoutine Float]

/-- Whether the cost of a contraction that succeeds can be told. -/
def Countable (c : Call) (settings : Settings Float) : Prop :=
  ∀ result plan, c.plain settings = .ok result → c.planned settings = .ok plan → plan.Countable

theorem kept_traced {settings : Settings Float} (kept : t.Kept settings) :
    (c.traced t).2.Kept settings := by
  unfold traced
  split
  case h_1 => exact (Trace.Kept.call kept : (t.einsum c.wording c.operands c.name).2.Kept settings)
  case h_2 _ label s _ =>
    exact (Trace.Kept.call kept :
      (t.sumProductEinsum label s c.wording c.operands c.name).2.Kept settings)
  case h_3 =>
    exact (Trace.Kept.call kept : (t.hyperEinsum c.wording c.operands c.name).2.Kept settings)

/-- A call without a heading fails, and leaves the trace as it is. -/
theorem traced_of_unheaded (steady : t.clock.Steady)
    (unheaded : ¬ t.Headed (c.backend t.settings) c.operands) :
    ∃ fault, c.traced t = (.error fault, t) := by
  obtain ⟨kind, wording, operands, name⟩ := c
  cases kind with
  | real =>
    obtain ⟨fault, failed⟩ := (Trace.einsum_faithful wording operands name steady).unheaded unheaded
    exact ⟨fault, congrArg (Prod.map (Except.map Result.real) id) failed⟩
  | sumProduct label s =>
    obtain ⟨fault, failed⟩ :=
      (Trace.sumProductEinsum_faithful wording operands name steady label s).unheaded unheaded
    exact ⟨fault, congrArg (Prod.map (Except.map Result.real) id) failed⟩
  | hyper =>
    obtain ⟨fault, failed⟩ :=
      (Trace.hyperEinsum_faithful wording operands name steady).unheaded unheaded
    exact ⟨fault, congrArg (Prod.map (Except.map Result.hyper) id) failed⟩

theorem recorded_traced (steady : t.clock.Steady)
    (headed : t.Headed (c.backend t.settings) c.operands) (countable : c.Countable t.settings) :
    t.Recorded (c.planned t.settings) c.wording c.operands c.name (c.traced t) := by
  obtain ⟨kind, wording, operands, name⟩ := c
  cases kind with
  | real =>
    refine (Trace.recorded_call steady headed fun result plan ran made =>
      countable (.real result) plan ?_ made).map Result.real
    exact congrArg (Except.map Result.real) ran
  | sumProduct label s =>
    cases s with
    | error fault =>
      refine (Trace.recorded_call steady headed fun result plan ran made => ?_).map Result.real
      cases ran
    | ok s =>
      refine (Trace.recorded_call steady headed fun result plan ran made =>
        countable (.real result) plan ?_ made).map Result.real
      exact congrArg (Except.map Result.real) ran
  | hyper =>
    refine (Trace.recorded_call steady headed fun result plan ran made =>
      countable (.hyper result) plan ?_ made).map Result.hyper
    exact congrArg (Except.map Result.hyper) ran

end Call

/-- What can be asked of a trace. -/
inductive Request where
  | call (c : Call)
  | reset
  /-- A report, as text or as a literal. -/
  | explain (asLiteral : Bool)

inductive Answer where
  | result (r : Result)
  | done
  | text (s : String)
  | literal (value : Literal)

def Trace.answer [BulkRoutine Float] (t : Trace) : Request → Except Fault Answer × Trace
  | .call c => (c.traced t).map (Except.map .result) id
  | .reset => (.ok .done, t.reset)
  | .explain asLiteral =>
    (if asLiteral then t.explainLiteral.map .literal else t.explain.map .text, t)

/-- A trace and what has been asked of it, with the answers. -/
structure Session where
  trace : Trace
  transcript : List (Request × Except Fault Answer) := []

namespace Session

def isReset : Request × Except Fault Answer → Bool
  | (.reset, _) => true
  | _ => false

/-- The contraction that was asked for, if it could be put under a heading. -/
def call? : Request × Except Fault Answer → Option (Call × Except Fault Answer)
  | (.call c, answer) => if c.introduced then some (c, answer) else none
  | _ => none

/-- The contractions that have been asked for since the last reset and could be put under a heading,
with the answers. -/
def calls (s : Session) : List (Call × Except Fault Answer) :=
  (s.transcript.rtakeWhile fun exchange => !isReset exchange).filterMap call?

variable {s : Session} {settings : Settings Float} {records : List Record} {c : Call}

/-- What the log of a session holds: a record for each contraction since the last reset, in their
order. -/
structure Logged (settings : Settings Float) (s : Session) (records : List Record) : Prop where
  kept : s.trace.Kept settings
  entries_eq : s.trace.entries = records.map .contraction
  iterations : records.map (·.iteration) = List.range records.length
  reportable : ∀ r ∈ records, r.Reportable
  told : List.Forall₂
    (fun r call => r.Tells (call.1.planned settings) call.1.wording call.1.operands call.1.name
      call.2) records s.calls

theorem logged_fresh {clock : Clock} (steady : clock.Steady) :
    Logged settings { trace := { settings, clock } } [] where
  kept := ⟨rfl, steady⟩
  entries_eq := rfl
  iterations := rfl
  reportable := List.forall_mem_nil _
  told := .nil

theorem Logged.counted (logged : s.Logged settings records) :
    ∀ e ∈ s.trace.entries, ∃ b, Trace.isContraction e = .ok b := by
  rw [logged.entries_eq]
  intro e here
  obtain ⟨r, -, rfl⟩ := List.mem_map.1 here
  exact ⟨true, rfl⟩

theorem Logged.iterations_eq (logged : s.Logged settings records) :
    s.trace.iterations = .ok records.length := by
  have asked :
      s.trace.entries.mapM Trace.isContraction = .ok (List.replicate records.length true) := by
    rw [logged.entries_eq, mapM_eq_ok_iff, List.forall₂_map_left_iff, List.forall₂_iff_get]
    exact ⟨(List.length_replicate ..).symm, fun i _ _ => by simp [Trace.isContraction]⟩
  rw [Trace.iterations, asked, ok_bind, List.count_replicate_self]
  rfl

section Steps

variable [BulkRoutine Float]

def next (s : Session) (request : Request) : Session :=
  let (answer, trace) := s.trace.answer request
  { trace, transcript := s.transcript ++ [(request, answer)] }

/-- The session of a sequence of requests to a fresh trace. -/
def of (settings : Settings Float) (clock : Clock) (requests : List Request) : Session :=
  requests.foldl next { trace := { settings, clock } }

theorem calls_next_call (headed : c.introduced) :
    (s.next (.call c)).calls = s.calls ++ [(c, (s.trace.answer (.call c)).1)] := by
  unfold calls next
  rw [List.rtakeWhile_concat_pos _ _ _ rfl, List.filterMap_append]
  simp only [List.filterMap_cons, call?, if_pos headed, List.filterMap_nil]

theorem calls_next_unheaded (unheaded : ¬ c.introduced) : (s.next (.call c)).calls = s.calls := by
  unfold calls next
  rw [List.rtakeWhile_concat_pos _ _ _ rfl, List.filterMap_append]
  simp only [List.filterMap_cons, call?, if_neg unheaded, List.filterMap_nil, List.append_nil]

theorem calls_next_reset : (s.next .reset).calls = [] := by
  unfold calls next
  rw [List.rtakeWhile_concat_neg _ _ _ Bool.false_ne_true]
  rfl

theorem calls_next_explain (asLiteral : Bool) : (s.next (.explain asLiteral)).calls = s.calls := by
  unfold calls next
  rw [List.rtakeWhile_concat_pos _ _ _ rfl, List.filterMap_append]
  exact List.append_nil _

theorem Logged.call (logged : s.Logged settings records) (headed : c.introduced)
    (countable : c.Countable settings) :
    ∃ r, (s.next (.call c)).Logged settings (records ++ [r]) ∧ r.Shows (c.traced s.trace).1 := by
  obtain ⟨rfl, steady⟩ := logged.kept
  obtain ⟨r, entries, iteration, reportable, tells⟩ :=
    Call.recorded_traced steady ((Call.headed_iff_introduced logged.counted).2 headed) countable
  have last : r.iteration = records.length :=
    Except.ok.inj (iteration.symm.trans logged.iterations_eq)
  refine ⟨r, ⟨Call.kept_traced logged.kept, ?_, ?_, ?_, ?_⟩, tells.shown⟩
  · rw [List.map_append, ← logged.entries_eq]
    exact entries
  · rw [List.map_append, logged.iterations, List.length_append, List.length_singleton,
      List.range_succ, List.map_singleton, last]
  · intro r' mem
    rcases List.mem_append.1 mem with earlier | new
    · exact logged.reportable r' earlier
    · rw [List.mem_singleton.1 new]
      exact reportable
  · rw [calls_next_call headed]
    exact List.rel_append logged.told (.cons (tells.map _) .nil)

theorem Logged.unheaded (logged : s.Logged settings records) (unheaded : ¬ c.introduced) :
    (s.next (.call c)).Logged settings records ∧
      ∃ fault, c.traced s.trace = (.error fault, s.trace) := by
  obtain ⟨rfl, steady⟩ := logged.kept
  obtain ⟨fault, failed⟩ :=
    Call.traced_of_unheaded steady (mt (Call.headed_iff_introduced logged.counted).1 unheaded)
  have same : (s.next (.call c)).trace = s.trace := congrArg Prod.snd failed
  refine ⟨⟨?_, ?_, logged.iterations, logged.reportable, ?_⟩, fault, failed⟩
  · rw [same]
    exact logged.kept
  · rw [same, logged.entries_eq]
  · rw [calls_next_unheaded unheaded]
    exact logged.told

theorem Logged.next (logged : s.Logged settings records) {request : Request}
    (countable : ∀ c, request = .call c → c.Countable settings) :
    ∃ records', (s.next request).Logged settings records' := by
  cases request with
  | call c =>
    by_cases headed : c.introduced
    · obtain ⟨r, logged', -⟩ := logged.call headed (countable c rfl)
      exact ⟨_, logged'⟩
    · exact ⟨records, (logged.unheaded headed).1⟩
  | reset =>
    refine ⟨[], ⟨logged.kept.settings_eq, logged.kept.steady⟩, rfl, rfl, List.forall_mem_nil _, ?_⟩
    rw [calls_next_reset]
    exact .nil
  | explain asLiteral =>
    refine ⟨records, logged.kept, logged.entries_eq, logged.iterations, logged.reportable, ?_⟩
    rw [calls_next_explain]
    exact logged.told

theorem Logged.foldl {requests : List Request}
    (countable : ∀ c, .call c ∈ requests → c.Countable settings)
    (logged : s.Logged settings records) :
    ∃ records', (requests.foldl Session.next s).Logged settings records' := by
  induction requests generalizing s records with
  | nil => exact ⟨records, logged⟩
  | cons request requests ih =>
    obtain ⟨records', logged'⟩ := logged.next fun c same => countable c (same ▸ List.mem_cons_self)
    exact ih (fun c later => countable c (List.mem_cons_of_mem _ later)) logged'

/-- The log of a trace tells of its calls. Whatever has been asked for, contractions that succeeded
or failed, resets and reports, the log holds exactly one record for each contraction since the last
reset that could be put under a heading, in their order and counted from zero, which shows whether
it succeeded, and how it failed otherwise. One more such contraction adds one more record and
changes nothing else; one without a heading fails and changes nothing at all. Reports succeed and
change nothing, and they sum up the records of the contractions that succeeded. -/
theorem log_tells_calls {clock : Clock} (steady : clock.Steady) {requests : List Request}
    (countable : ∀ c, .call c ∈ requests → c.Countable settings)
    (asked : of settings clock requests = s) :
    ∃ records, s.Logged settings records ∧
      List.Forall₂ (fun r call => r.Shows call.2) records s.calls ∧
      (∀ c : Call, c.introduced → c.Countable settings →
        ∃ r, (s.next (.call c)).Logged settings (records ++ [r]) ∧ r.Shows (c.traced s.trace).1) ∧
      (∀ c : Call, ¬ c.introduced → ∃ fault, c.traced s.trace = (.error fault, s.trace)) ∧
      (∀ asLiteral, (s.next (.explain asLiteral)).trace = s.trace) ∧
        (∃ text, s.trace.explain = .ok text) ∧
      ∃ report, s.trace.explainLiteral = .ok report ∧ s.trace.Reports records report := by
  obtain rfl := asked
  obtain ⟨records, logged⟩ := (logged_fresh steady).foldl countable
  obtain ⟨explained, reported⟩ := Trace.exists_report logged.entries_eq logged.reportable
  exact ⟨records, logged, logged.told.imp fun _ _ tells => tells.shown, fun c => logged.call,
    fun c unheaded => (logged.unheaded unheaded).2, fun _ => rfl, explained, reported⟩

end Steps

attribute [local instance] Bulk.routine

/-- The product of two matrices. -/
def productCall : Call :=
  ⟨.real, Trace.matrixProduct, [.real Trace.matrix, .real Trace.matrix], none⟩

/-- A call that is refused, as the tensors are not hypercomplex. -/
def refusedCall : Call :=
  { productCall with kind := .hyper }

/-- A call that cannot even be put under a heading, as an operand has no sizes to list. -/
def unlistedCall : Call :=
  { productCall with operands := [.real Trace.matrix, Trace.unlisted] }

/-- Such a call fails and leaves no record. -/
theorem unlistedCall_leaves_no_record :
    (unlistedCall.traced (of { tolerance := 1e-6 } { readings := [] } []).trace).1.isOk = false ∧
      (of { tolerance := 1e-6 } { readings := [] } [.call unlistedCall]).trace.entries.length = 0 :=
  ⟨rfl, rfl⟩

theorem productCall_countable : productCall.Countable { tolerance := 1e-6 } := by
  intro _ plan _ planned
  have counted : (productCall.planned { tolerance := 1e-6 }).toOption.map
      (fun p => (p.operations, p.inputSize * 8 + p.outputSize * 8)) = some (16, 96) := by
        decide +kernel
  rw [planned] at counted
  obtain ⟨operations, bytes⟩ := Prod.mk.inj (Option.some.inj counted)
  constructor
  · rw [operations]
    decide +kernel
  · rw [bytes]
    decide +kernel

theorem refusedCall_countable (settings : Settings Float) : refusedCall.Countable settings := by
  intro result _ succeeded
  have refused : refusedCall.plain settings = .error (.type (.notHyperTensor "Tensor")) := rfl
  rw [refused] at succeeded
  cases succeeded

theorem unlistedCall_countable (settings : Settings Float) : unlistedCall.Countable settings := by
  intro result _ succeeded
  have refused :
    unlistedCall.plain settings = .error (.type (.notTensor "operand" "SimpleNamespace")) := rfl
  rw [refused] at succeeded
  cases succeeded

/-- A product, a report and a reset, then two calls that are refused, the first of them without a
heading, and one more product. -/
def twoRounds : List Request :=
  [.call productCall, .explain true, .reset, .call unlistedCall, .call refusedCall,
    .call productCall]

def afterTwoRounds : Session :=
  of { tolerance := 1e-6 } { readings := [.real 1, .real 2.5] } twoRounds

theorem log_tells_calls_twoRounds :
    afterTwoRounds.calls.map (fun call => call.2.isOk) = [false, true] ∧
      ∃ (records : List Record) (report summary : Literal),
        afterTwoRounds.trace.entries = records.map .contraction ∧
        records.map (·.iteration) = [0, 1] ∧ afterTwoRounds.trace.explainLiteral = .ok report ∧
        report.field? "summary" = some summary ∧ summary.field? "contractions" = some (.int 2) := by
  have steady : Clock.Steady { readings := [.real 1, .real 2.5] } := by simp [Clock.Steady]
  have countable : ∀ c, Request.call c ∈ twoRounds → c.Countable { tolerance := 1e-6 } := by
    intro c asked
    simp only [twoRounds, List.mem_cons, Request.call.injEq, reduceCtorEq, List.not_mem_nil,
      or_false, false_or] at asked
    rcases asked with rfl | rfl | rfl | rfl
    · exact productCall_countable
    · exact unlistedCall_countable _
    · exact refusedCall_countable _
    · exact productCall_countable
  obtain ⟨records, logged, -, -, -, -, -, report, made, reports⟩ :=
    log_tells_calls steady countable (rfl : _ = afterTwoRounds)
  have two : records.length = 2 := logged.told.length_eq.trans (by decide +kernel)
  have summed : report.field? "summary" ≠ none := by
    intro absent
    have empty := reports.summary_eq_none_iff.1 absent
    rw [logged.entries_eq, List.map_eq_nil_iff] at empty
    rw [empty] at two
    cases two
  obtain ⟨summary, present⟩ := Option.ne_none_iff_exists'.1 summed
  have contractions := (reports.summarizes summary present).contractions
  have iterations := logged.iterations
  rw [two] at contractions iterations
  exact ⟨by decide +kernel, records, report, summary, logged.entries_eq, iterations, made,
    present, contractions⟩

end Session

end TensorCalculus
