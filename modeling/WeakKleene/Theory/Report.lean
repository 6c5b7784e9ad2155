import WeakKleene.Json.Print
import WeakKleene.Theory.Check

namespace WeakKleene
namespace Theory

/-!
The report on a theory: how large it is, whether it is satisfiable, where its
evidence conflicts or is missing, and all its statements.
-/

variable [Memory]

/-- A line of seventy equal characters. -/
def ruler (c : Char) : String := String.ofList (List.replicate 70 c)

/-- A time in seconds, with three places. -/
def seconds (thousandths : Nat) : String :=
  let places := Nat.toDigits 10 (thousandths % 1000)
  toString (thousandths / 1000) ++ "." ++
    String.ofList (List.replicate (3 - places.length) '0' ++ places) ++ "s"

/-- The states of one kind. -/
def statesOf (knowledge : Knowledge) (states : List InformationState) : List InformationState :=
  states.filter fun state => state.knowledge == knowledge

/-- The formula in a piece of evidence, which is what follows the sign. -/
def evidenceFormula? (evidence : String) : Option String :=
  match evidence.toList.dropWhile (· != ':') with
  | _ :: formula => some (String.ofList formula)
  | [] => none

/-- The statement behind a piece of evidence. -/
def evidenceSource? (theory : Theory) (evidence : String) : Option Statement := do
  theory.withFormula? (<- evidenceFormula? evidence)

def timingLines (timings : Timings) : List String :=
  let inference := timings.inference.toList.flatMap fun time =>
    ("  - Inference: " ++ seconds time) ::
      (timings.advice.map fun time => "    (LLM verification: " ++ seconds time ++ ")").toList
  let check := timings.check.toList.map fun time => "  - Satisfiability check: " ++ seconds time
  if timings.inference.isSome || timings.check.isSome then
    ["Execution Time:"] ++ inference ++ check ++ [""]
  else []

/-- A glut and its first two pieces of evidence, with the statements behind them. -/
def glutLines (theory : Theory) (state : InformationState) : List String :=
  ("  - " ++ state.predicate) :: (state.evidence.take 2).map fun evidence =>
    match theory.evidenceSource? evidence with
    | some statement =>
      if statement.id.isTrue then "    • " ++ evidence ++ " [" ++ statement.id.shown ++ "]"
      else "    • " ++ evidence
    | none => "    • " ++ evidence

/-- A gap and its first piece of evidence. -/
def gapLines (state : InformationState) : List String :=
  ("  - " ++ state.predicate) :: (state.evidence.take 1).map ("    • " ++ ·)

/-- States of one kind under a title, if there are any. -/
def stateLines (title : String) (lines : InformationState -> List String)
    (states : List InformationState) : List String :=
  if states.isEmpty then []
  else (title ++ toString states.length) :: states.flatMap lines ++ [""]

/-- The two sides of the evidence that a statement of evidence carries. -/
def bilateralLines (metadata : Json) : Except Fault (List String) :=
  match metadata with
  | .object fields =>
    match (Json.entry? "bilateral" fields).filter Json.isTrue with
    | none => .ok []
    | some (.object sides) =>
      let side := fun name => ((Json.entry? name sides).map Json.shown).getD "?"
      .ok ["        <" ++ side "positive" ++ "," ++ side "negative" ++ ">"]
    | some _ => .error .noFields
  | _ => .error .noFields

def statementLines (statement : Statement) : Except Fault (List String) := do
  let origin <- statement.origin?
  let formula <- statement.formulaText?
  let sides <- if origin == some .evidence then bilateralLines statement.metadata else .ok []
  return ["  " ++ statement.id.shown ++ " " ++ Statement.mark origin ++ ": " ++
      statement.sentence.shown] ++
    (formula.map fun text => "        → " ++ statement.sign.shown ++ ":" ++ text).toList ++ sides

def reportLines (theory : Theory) (result : CheckResult) : Except Fault (List String) := do
  let inferred := (theory.statements.filter fun statement => statement.inferred.isTrue).length
  let total := theory.statements.length
  let statements <- (<- theory.list false).mapM statementLines
  return [ruler '=', "THEORY ANALYSIS REPORT", ruler '=', ""] ++
    ["Total statements: " ++ toString total, "  - Asserted: " ++ toString (total - inferred),
      "  - Inferred: " ++ toString inferred,
      ""] ++
    timingLines theory.timings ++
    ["Satisfiability: " ++ (if result.satisfiable then "✓ SATISFIABLE" else "✗ UNSATISFIABLE"),
      ""] ++
    stateLines "GLUTS (Conflicting Evidence): " (glutLines theory) (statesOf .glut result.states) ++
    stateLines "GAPS (Lack of Knowledge): " gapLines (statesOf .gap result.states) ++
    ["CURRENT THEORY:"] ++ statements.flatten

/-- Check the theory and report on it.  What the check stored stays stored when the report
fails. -/
def report (theory : Theory) (now : String) (adviser : Option Adviser) :
    Theory × Except Fault String :=
  match theory.check now adviser with
  | (checked, .error fault) => (checked, .error fault)
  | (checked, .ok result) => (checked, (checked.reportLines result).map (String.intercalate "\n"))

end Theory
end WeakKleene
