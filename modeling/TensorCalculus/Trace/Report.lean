import TensorCalculus.Literal.Layout
import TensorCalculus.Trace.Basic

/-!
# Reports of traces

A trace is explained in lines of text, one for each contraction and one for all of them, or as a
literal that holds the log and the totals. A memo may stand for a contraction, with whatever it
holds as the account of it, so that reports are made from accounts in literals and can be at
fault. -/

namespace TensorCalculus

open TensorCalculus.Text

/-- An amount with its unit, scaled down to thousands, millions, and so on. -/
def metricText (unit : String) (amount : Float) : String :=
  if amount == 0 then unit ++ "=0"
  else
    match [(1e12, "T"), (1e9, "G"), (1e6, "M"), (1e3, "K")].find? fun scale => scale.1 ≤ amount with
    | some (least, letter) => unit ++ "=" ++ Decimal.fixed 2 (amount / least) ++ letter
    | none => unit ++ "=" ++ Decimal.fixed 2 amount

/-- The same for an amount that is given as a literal, or not at all. -/
def metricOf (unit : String) (amount : Literal) : Except Fault (Option String) := do
  match amount with
  | .null => return none
  | amount => return some (metricText unit (← amount.toDouble))

def milliseconds (time : Float) : String :=
  Decimal.fixed 3 time ++ "ms"

namespace Record

def charLiterals (cs : List Char) : Literal :=
  .list (cs.map fun c => .text (String.singleton c))

def outcomeFields (r : Record) : List (String × Literal) :=
  match r.outcome with
  | .ok (subscripts, cost) =>
    [("status", .text "ok"), ("einsum", .text subscripts), ("flops", .real cost.operations),
     ("bytes_total", .int cost.bytesTotal), ("joint_size", .int cost.jointSize),
     ("contracted", charLiterals cost.contracted)]
  | .error fault =>
    [("status", .text "failed"), ("error", .text (fault.kind ++ ": " ++ fault.message))]

def toLiteral (r : Record) : Literal :=
  let timing := match r.duration with
    | none => []
    | some time => [("duration_ms", time)]
  .record ([("name", .text r.name), ("iteration", .int r.iteration), ("notation", .text r.asked),
    ("backend", .text r.backend),
    ("shapes", .list (r.shapes.map .list))] ++ timing ++ r.outcomeFields)

end Record

def Entry.toLiteral : Entry → Literal
  | .contraction r => .record [("kind", .text "contraction"), ("contraction", r.toLiteral)]
  | .note memo => memo.ready

/-- What is known of one contraction, by name. -/
structure Account where
  content : Literal

namespace Account

/-- What must be known. -/
def need (a : Account) (key : String) : Except Fault Literal :=
  match a.content.field? key with
  | some value => .ok value
  | none => .error (.unbound key)

/-- What may be unknown. -/
def get (a : Account) (key : String) : Literal :=
  (a.content.field? key).getD .null

/-- Texts joined by commas; everything that is listed must be a text. -/
def joinedFrom : Nat → List Literal → Except Fault (List String)
  | _, [] => .ok []
  | position, .text s :: items => do
    let rest ← joinedFrom (position + 1) items
    return s :: rest
  | position, item :: _ => .error (.type (.joinedItem position item.kind))

def joined (value : Literal) : Except Fault String := do
  match value.elements with
  | .ok items => return ",".intercalate (← joinedFrom 0 items)
  | .error _ => .error (.type .notJoinable)

/-- The subscripts that were carried out, or else what was asked for. -/
def subscriptsText (a : Account) : Except Fault String := do
  let carriedOut := a.get "einsum"
  if carriedOut.isTrue then return carriedOut.shown else return (← a.need "notation").shown

/-- What was summed over; nothing when nothing was. -/
def summedText (a : Account) : Except Fault (List String) := do
  let contracted := a.get "contracted"
  if contracted.isTrue then return ["sum=" ++ (← joined contracted)] else return []

def errorText (a : Account) : List String :=
  let error := a.get "error"
  if error.isTrue then ["error=" ++ error.shown] else []

def details (a : Account) : Except Fault (List String) := do
  let subscripts ← a.subscriptsText
  let backend ← a.need "backend"
  let summed ← a.summedText
  let operations ← metricOf "flops" (a.get "flops")
  let bytes ← metricOf "bytes" (a.get "bytes_total")
  return ["einsum=" ++ subscripts, "backend=" ++ backend.shown] ++ summed ++ operations.toList ++
    bytes.toList ++ a.errorText

/-- A number that may be unknown. -/
def amount? (a : Account) (key : String) : Except Fault (Option Float) := do
  match a.get key with
  | .null => return none
  | value => return some (← value.toDouble)

end Account

/-- What one contraction contributes to a report. -/
structure Part where
  line : String
  name : Literal
  iteration : Literal
  duration : Literal
  milliseconds : Option Float
  operations : Option Float
  bytes : Option Float

namespace Part

def ofAccount (a : Account) : Except Fault Part := do
  let details ← a.details
  let milliseconds ← a.amount? "duration_ms"
  let operations ← a.amount? "flops"
  let bytes ← a.amount? "bytes_total"
  let iteration ← a.need "iteration"
  let status ← a.need "status"
  let duration := a.get "duration_ms"
  let timing ← match duration with
    | .null => pure ""
    | time => do pure (" " ++ (← time.fixedLiteral 3) ++ "ms")
  let number ← iteration.paddedLiteral 2
  let name ← a.need "name"
  let line := s!"[iter {number}] {name.shown} {status.shown}{timing} " ++ " ".intercalate details
  return { line, name, iteration, duration, milliseconds, operations, bytes }

/-- The key by which the longest contraction is found; one that was not timed comes before all
others. -/
def durationKey (p : Part) : Literal :=
  match p.duration with
  | .null => .real (-1)
  | time => time

/-- The part of the longest duration, the first of equals. -/
def longest (p : Part) (ps : List Part) : Except Fault Part :=
  ps.foldlM (fun best q => do
    if ← Literal.stands .more q.durationKey best.durationKey then return q else return best) p

end Part

/-- What the contractions of a trace amount to. -/
structure Totals where
  contractions : Nat
  milliseconds : Float
  operations : Float
  bytes : Float
  longest : Part

namespace Trace

/-- The account that a memo gives of the contraction it stands for. -/
def accountOf (memo : Memo) : Except Fault Account := do
  match ← memo.get? "contraction" with
  | none => .error (.unbound "contraction")
  | some given =>
    match given.ready with
    | .record fields => return ⟨.record fields⟩
    | _ => .error (.attribute given.kind "get")

/-- What an entry contributes, if it stands for a contraction. -/
def part? : Entry → Except Fault (Option Part)
  | .contraction r => do return some (← Part.ofAccount ⟨r.toLiteral⟩)
  | .note memo => do
    if ← memo.isContraction then return some (← Part.ofAccount (← accountOf memo)) else return none

def parts (t : Trace) : Except Fault (List Part) := do
  return (← t.entries.mapM part?).filterMap id

def totalOf (f : Part → Option Float) (ps : List Part) : Float :=
  (ps.filterMap f).foldl (· + ·) 0

/-- The totals, unless nothing has been contracted. -/
def totals? : List Part → Except Fault (Option Totals)
  | [] => .ok none
  | p :: ps => do
    return some
      { contractions := ps.length + 1
        milliseconds := totalOf Part.milliseconds (p :: ps)
        operations := totalOf Part.operations (p :: ps)
        bytes := totalOf Part.bytes (p :: ps)
        longest := ← Part.longest p ps }

/-- An amount that is worth a word. -/
def amount? (x : Float) : Option Float :=
  if x == 0 then none else some x

def totalsLine (s : Totals) : String :=
  let part (unit : String) (x : Float) : List String := ((amount? x).map (metricText unit)).toList
  let longest := match s.longest.milliseconds with
    | none => []
    | some time => [s!"max={s.longest.name.shown}(" ++ milliseconds time ++ ")"]
  let opening := ["total=" ++ milliseconds s.milliseconds, s!"contractions={s.contractions}"]
  let amounts := part "flops" s.operations ++ part "bytes" s.bytes
  "[perf] " ++ " ".intercalate (opening ++ amounts ++ longest)

/-- The lines of a trace. -/
def explain (t : Trace) : Except Fault String := do
  let parts ← t.parts
  let totals ← totals? parts
  return "\n".intercalate (parts.map Part.line ++ (totals.map totalsLine).toList)

def optional {α : Type} (f : α → Literal) : Option α → Literal
  | none => .null
  | some x => f x

def totalsLiteral (s : Totals) : Literal :=
  .record [("contractions", .int s.contractions), ("total_ms", .real s.milliseconds),
    ("total_flops", optional .real (amount? s.operations)),
    ("total_bytes", optional .real (amount? s.bytes)),
    ("max_contraction", .record [("name", s.longest.name), ("duration_ms", s.longest.duration),
      ("iteration", s.longest.iteration)])]

/-- The log and the totals. -/
def explainLiteral (t : Trace) : Except Fault Literal := do
  let totals ← totals? (← t.parts)
  let summary := (totals.map fun s => ("summary", totalsLiteral s)).toList
  return .record (("logs", .list (t.entries.map Entry.toLiteral)) :: summary)

end Trace

end TensorCalculus
