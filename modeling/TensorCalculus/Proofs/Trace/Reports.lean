import TensorCalculus.Proofs.Trace.Records

/-!
# Reports of contractions

Whatever a contraction came to, its record can be reported, as long as the time is a double and the
bytes are in the range of doubles. The totals of such records are the sums over those that
succeeded, in the order of the log. -/

namespace TensorCalculus

open TensorCalculus.Outcome

namespace Record

variable {r : Record}

abbrev account (r : Record) : Account :=
  ⟨r.toLiteral⟩

theorem amount?_flops : r.account.amount? "flops" = .ok (r.cost?.map Cost.operations) := by
  unfold Account.amount? Account.get cost?
  rw [field?_toLiteral (by decide), outcomeFields]
  cases r.outcome with
  | error => rfl
  | ok => rfl

theorem amount?_bytes (reportable : r.Reportable) :
    r.account.amount? "bytes_total" = .ok (r.cost?.bind fun c => c.bytes.toOption) := by
  have counted := reportable.counted
  unfold cost? at *
  unfold Account.amount? Account.get
  rw [field?_toLiteral (by decide), outcomeFields]
  cases outcome : r.outcome with
  | error => rfl
  | ok carried =>
    rw [outcome] at counted
    obtain ⟨x, known⟩ := counted carried.2 rfl
    change (do return some (← carried.2.bytes)) = Except.ok carried.2.bytes.toOption
    rw [known]
    rfl

/-- The time that a record tells is a double or unknown. -/
theorem get_duration (reportable : r.Reportable) :
    r.account.get "duration_ms" = .null ∨ ∃ x, r.account.get "duration_ms" = .real x := by
  obtain ⟨heading, duration, outcome⟩ := r
  cases duration with
  | none =>
    cases outcome with
    | error => exact .inl rfl
    | ok => exact .inl rfl
  | some time =>
    obtain ⟨x, rfl⟩ := reportable.timed time rfl
    exact .inr ⟨x, rfl⟩

theorem get_contracted :
    r.account.get "contracted" = .null ∨ ∃ cs, r.account.get "contracted" = charLiterals cs := by
  unfold Account.get
  rw [field?_toLiteral (by decide), outcomeFields]
  cases r.outcome with
  | error => exact .inl rfl
  | ok carried => exact .inr ⟨carried.2.contracted, rfl⟩

end Record

namespace Account

variable {a : Account}

theorem joinedFrom_texts (position : Nat) (cs : List Char) :
    joinedFrom position (cs.map fun c => .text (String.singleton c)) =
      .ok (cs.map String.singleton) := by
  induction cs generalizing position with
  | nil => rfl
  | cons c cs ih =>
    rw [List.map_cons, joinedFrom, ih]
    rfl

theorem joined_charLiterals (cs : List Char) :
    joined (Record.charLiterals cs) = .ok (",".intercalate (cs.map String.singleton)) := by
  simp only [joined, Record.charLiterals, Literal.elements, joinedFrom_texts]
  rfl

theorem exists_subscriptsText {asked : Literal} (known : a.need "notation" = .ok asked) :
    ∃ text, a.subscriptsText = .ok text := by
  simp only [subscriptsText, known]
  split
  case isTrue => exact ⟨_, rfl⟩
  case isFalse => exact ⟨_, rfl⟩

theorem exists_summedText
    (listed : a.get "contracted" = .null ∨ ∃ cs, a.get "contracted" = Record.charLiterals cs) :
    ∃ words, a.summedText = .ok words := by
  obtain unlisted | ⟨cs, listed⟩ := listed
  · simp only [summedText, unlisted]
    exact ⟨[], rfl⟩
  · simp only [summedText, listed, joined_charLiterals]
    split
    case isTrue => exact ⟨_, rfl⟩
    case isFalse => exact ⟨_, rfl⟩

/-- What can be told as a number can be told with its unit. -/
theorem metricOf_get {key : String} {amount : Option Float} (unit : String)
    (known : a.amount? key = .ok amount) :
    metricOf unit (a.get key) = .ok (amount.map (metricText unit)) := by
  unfold amount? at known
  unfold metricOf
  generalize a.get key = value at known
  cases value with
  | null =>
    cases known
    rfl
  | _ =>
    obtain ⟨x, double, same⟩ := bind_eq_ok_iff.1 known
    cases same
    simp only [double]
    rfl

end Account

namespace Record

variable {r : Record}

theorem exists_details (reportable : r.Reportable) : ∃ words, r.account.details = .ok words := by
  have asked : r.account.need "notation" = .ok (.text r.asked) := rfl
  have backend : r.account.need "backend" = .ok (.text r.backend) := rfl
  obtain ⟨text, told⟩ := Account.exists_subscriptsText asked
  obtain ⟨summed, listed⟩ := Account.exists_summedText r.get_contracted
  have operations := Account.metricOf_get "flops" r.amount?_flops
  have bytes := Account.metricOf_get "bytes" (amount?_bytes reportable)
  simp only [Account.details, told, backend, listed, operations, bytes]
  exact ⟨_, rfl⟩

end Record

namespace Part

/-- What a part takes over from the record it is made from. -/
structure Of (r : Record) (p : Part) : Prop where
  operations : p.operations = r.cost?.map Cost.operations
  bytes : p.bytes = r.cost?.bind fun c => c.bytes.toOption
  durationKey : ∃ x, p.durationKey = .real x

theorem exists_of {r : Record} (reportable : r.Reportable) :
    ∃ p, ofAccount r.account = .ok p ∧ Of r p := by
  obtain ⟨words, told⟩ := r.exists_details reportable
  have bytes := Record.amount?_bytes reportable
  have iteration : r.account.need "iteration" = .ok (.int r.iteration) := rfl
  have name : r.account.need "name" = .ok (.text r.name) := rfl
  have status : r.account.need "status" = .ok (.text r.status) := by
    rw [Account.need, Record.field?_status]
  simp only [ofAccount, told, r.amount?_flops, bytes, iteration, name, status,
    Literal.paddedLiteral]
  obtain unknown | ⟨x, known⟩ := Record.get_duration reportable
  · simp only [Account.amount?, unknown]
    exact ⟨_, rfl, rfl, rfl, -1, rfl⟩
  · simp only [Account.amount?, known]
    exact ⟨_, rfl, rfl, rfl, x, rfl⟩

/-- Among doubles there is a longest part. -/
theorem exists_longest {p : Part} {ps : List Part} (here : ∃ x, p.durationKey = .real x)
    (later : ∀ q ∈ ps, ∃ x, q.durationKey = .real x) : ∃ best, longest p ps = .ok best := by
  induction ps generalizing p with
  | nil => exact ⟨p, rfl⟩
  | cons q ps ih =>
    obtain ⟨next, rest⟩ := List.forall_mem_cons.1 later
    obtain ⟨x, known⟩ := here
    obtain ⟨y, known'⟩ := next
    have compared : Literal.stands .more q.durationKey p.durationKey =
        .ok (Relation.more.admitsAny (Amount.compareDoubles y x)) := by
      rw [known, known']
      rfl
    unfold longest at ih ⊢
    simp only [List.foldlM_cons, compared, ok_bind]
    split
    case isTrue => exact ih ⟨y, known'⟩ rest
    case isFalse => exact ih ⟨x, known⟩ rest

end Part

namespace Trace

variable {t : Trace} {rs : List Record}

/-- The sum of doubles from the first to the last; a sum of zero is not told. -/
def totalLiteral (xs : List Float) : Literal :=
  let sum := xs.foldl (· + ·) 0
  if sum == 0 then .null else .real sum

/-- What the summary of a log says of its records: how many they are, and what those that succeeded
took. -/
structure Summarizes (summary : Literal) (rs : List Record) : Prop where
  contractions : summary.field? "contractions" = some (.int rs.length)
  operations :
    summary.field? "total_flops" =
      some (totalLiteral ((rs.filterMap Record.cost?).map Cost.operations))
  bytes : ∃ bytes, (rs.filterMap Record.cost?).mapM Cost.bytes = .ok bytes ∧
    summary.field? "total_bytes" = some (totalLiteral bytes)

/-- What the report of a trace holds: its log, and a summary as soon as there is something to sum
up. -/
structure Reports (t : Trace) (rs : List Record) (report : Literal) : Prop where
  logs : report.field? "logs" = some (.list (t.entries.map Entry.toLiteral))
  summary_eq_none_iff : report.field? "summary" = none ↔ t.entries = []
  summarizes : ∀ summary, report.field? "summary" = some summary → Summarizes summary rs

/-- The parts of a report, one for each record. -/
theorem exists_parts (logged : t.entries = rs.map .contraction)
    (reportable : ∀ r ∈ rs, r.Reportable) :
    ∃ ps, t.parts = .ok ps ∧ List.Forall₂ Part.Of rs ps := by
  suffices made : ∃ ps, (rs.map Entry.contraction).mapM part? = .ok (ps.map some) ∧
      List.Forall₂ Part.Of rs ps by
    obtain ⟨ps, made, taken⟩ := made
    refine ⟨ps, ?_, taken⟩
    rw [parts, logged, made, ok_bind, List.filterMap_map]
    simp
  clear logged
  induction rs with
  | nil => exact ⟨[], rfl, .nil⟩
  | cons r rs ih =>
    obtain ⟨here, later⟩ := List.forall_mem_cons.1 reportable
    obtain ⟨p, made, taken⟩ := Part.exists_of here
    obtain ⟨ps, made', taken'⟩ := ih later
    have part : part? (.contraction r) = .ok (some p) := by
      rw [part?, made]
      rfl
    refine ⟨p :: ps, ?_, .cons taken taken'⟩
    rw [List.map_cons, List.mapM_cons, part, made']
    rfl

theorem durationKeys {ps : List Part} (parts : List.Forall₂ Part.Of rs ps) :
    ∀ p ∈ ps, ∃ x, p.durationKey = .real x := by
  induction parts with
  | nil => exact List.forall_mem_nil _
  | cons here _ ih => exact List.forall_mem_cons.2 ⟨here.durationKey, ih⟩

theorem filterMap_of_forall₂ {α β γ : Type} {f : α → Option γ} {g : β → Option γ} {as : List α}
    {bs : List β} (same : List.Forall₂ (fun a b => g b = f a) as bs) :
    bs.filterMap g = as.filterMap f := by
  induction same with
  | nil => rfl
  | cons here _ ih => rw [List.filterMap_cons, List.filterMap_cons, here, ih]

theorem totalOf_operations {ps : List Part} (parts : List.Forall₂ Part.Of rs ps) :
    totalOf Part.operations ps =
      ((rs.filterMap Record.cost?).map Cost.operations).foldl (· + ·) 0 := by
  rw [totalOf, filterMap_of_forall₂ (parts.imp fun _ _ taken => taken.operations),
    List.map_filterMap]

theorem totalOf_bytes {ps : List Part} (parts : List.Forall₂ Part.Of rs ps) :
    totalOf Part.bytes ps =
      ((rs.filterMap Record.cost?).filterMap fun c => c.bytes.toOption).foldl (· + ·) 0 := by
  rw [totalOf, filterMap_of_forall₂ (parts.imp fun _ _ taken => taken.bytes),
    List.filterMap_filterMap]

theorem optional_amount (xs : List Float) :
    optional .real (amount? (xs.foldl (· + ·) 0)) = totalLiteral xs := by
  unfold amount? totalLiteral
  dsimp only
  split
  case isTrue => rfl
  case isFalse => rfl

/-- The totals of records that can be reported. -/
theorem exists_totals {ps : List Part} (reportable : ∀ r ∈ rs, r.Reportable)
    (parts : List.Forall₂ Part.Of rs ps) :
    ∃ totals, totals? ps = .ok totals ∧ (totals = none ↔ rs = []) ∧
      ∀ s, totals = some s → Summarizes (totalsLiteral s) rs := by
  have operations := totalOf_operations parts
  have bytes := totalOf_bytes parts
  cases parts with
  | nil => exact ⟨none, rfl, by simp, nofun⟩
  | cons here later =>
    obtain ⟨best, longest⟩ := Part.exists_longest here.durationKey (durationKeys later)
    simp only [totals?, longest, ok_bind, operations, bytes]
    refine ⟨_, rfl, by simp, fun s same => ?_⟩
    obtain rfl := Option.some.inj same
    have known : ∀ c ∈ List.filterMap Record.cost? (_ :: _), ∃ x, c.bytes = .ok x := fun c mem => by
      obtain ⟨r, logged, told⟩ := List.mem_filterMap.1 mem
      exact (reportable r logged).counted c told
    refine ⟨?_, ?_, _, mapM_eq_ok_filterMap known, ?_⟩
    · rw [List.length_cons, later.length_eq]
      rfl
    · rw [← optional_amount]
      rfl
    · rw [← optional_amount]
      rfl

theorem exists_report (logged : t.entries = rs.map .contraction)
    (reportable : ∀ r ∈ rs, r.Reportable) : (∃ text, t.explain = .ok text) ∧
      ∃ report, t.explainLiteral = .ok report ∧ Reports t rs report := by
  obtain ⟨ps, made, parts⟩ := exists_parts logged reportable
  obtain ⟨totals, summed, none_iff, summarizes⟩ := exists_totals reportable parts
  simp only [explain, explainLiteral, made, summed, ok_bind]
  refine ⟨⟨_, rfl⟩, _, rfl, ?_, ?_, ?_⟩
  · rfl
  · rw [logged, List.map_eq_nil_iff, ← none_iff]
    cases totals with
    | none => simp [Literal.field?]
    | some => simp [Literal.field?]
  · cases totals with
    | none => simp [Literal.field?]
    | some s => simpa [Literal.field?] using summarizes s rfl

end Trace

end TensorCalculus
