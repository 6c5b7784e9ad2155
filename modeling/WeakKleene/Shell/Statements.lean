import WeakKleene.Shell.Session

namespace WeakKleene
namespace Shell

/-!
The commands on statements: assert, retract, list, check, infer, report and
clear.
-/

open Dialogue

variable [Memory]

/-- A sentence with the sign in front of it, where one of the first three characters is a colon
and a sign stands before the first one; t otherwise. -/
def signAndSentence (text : String) : String × String :=
  let chars := text.toList
  let sign := trimmed (String.ofList (chars.takeWhile (· != ':')))
  if (chars.take 3).contains ':' && Statement.signs.contains sign then
    (sign, trimmed (String.ofList ((chars.dropWhile (· != ':')).drop 1)))
  else ("t", text)

/-- Tell why nothing was asserted, where a value was refused and not its kind. -/
def assertionFailed (session : Session) (fault : Fault) : Action :=
  match fault with
  | .unknownStatementSign _ | .notWhole _ => do
      tell ("Error: " ++ fault.message)
      session.goOn
  | _ => session.fail fault

def assertCommand (session : Session) (text : String) : Action := do
  if text.isEmpty then
    tell "Error: Please provide a statement to assert"
    session.goOn
  else
    let (sign, sentence) := signAndSentence text
    match session.theory.assert session.now (.string sentence) .null (.string sign) with
    | (theory, .error fault) => assertionFailed (session.withTheory theory) fault
    | (theory, .ok statement) =>
      tell ("✓ Asserted: " ++ statement.id.shown)
      tell ("  NL: " ++ statement.sentence.shown)
      tell ("  Sign: " ++ sign)
      match statement.formulaText? with
      | .ok (some formula) => tell ("  Formula: " ++ sign ++ ":" ++ formula)
      | _ => tell "  Formula: [Could not translate]"
      (session.withTheory theory).goOn

/-- Whether a statement counts as inferred: it is marked so, or its id tells. -/
def countsAsInferred (statement : Statement) : Except Fault Bool := do
  if statement.inferred.isTrue then return true
  return (<- statement.origin?) matches some .inferred | some .evidence

/-- The ids of the statements that count as inferred. -/
def inferredIds (theory : Theory) : Except Fault (List Json) := do
  return (<- theory.statements.filterM countsAsInferred).map Statement.id

/-- Retract statements one by one.  The flags tell which ids were found. -/
def retractAll {α : Type} (idOf : α -> Json) (theory : Theory) : List α -> Theory × List (α × Bool)
  | [] => (theory, [])
  | item :: rest =>
    let (retracted, found) := theory.retract (idOf item)
    let (remaining, results) := retractAll idOf retracted rest
    (remaining, (item, found) :: results)

/-- Texts with commas between them, unless one is no text. -/
def joinedTexts (items : List Json) : Except Fault String := do
  let texts <- items.mapM fun item =>
    match item.text? with
    | some text => .ok text
    | none => .error Fault.wrongKind
  return String.intercalate ", " texts

def retractInferred (session : Session) : Action := do
  match inferredIds session.theory with
  | .error fault => session.fail fault
  | .ok [] =>
    tell "No inferred statements to retract"
    session.goOn
  | .ok ids =>
    let (theory, results) := retractAll id session.theory ids
    let count := (results.filter fun result => result.2).length
    match joinedTexts ids with
    | .error fault => (session.withTheory theory).fail fault
    | .ok listed =>
      tell ("✓ Retracted " ++ toString count ++ " inferred statement(s): " ++ listed)
      (session.withTheory theory).goOn

/-- Retract the statements of the given ids, or all inferred ones. -/
def retractCommand (session : Session) (text : String) : Action := do
  if text.isEmpty then
    tell "Error: Please provide statement ID(s) or --inferred"
    session.goOn
  else if trimmed text == "--inferred" then retractInferred session
  else
    let ids := (Text.words text.toList).map String.ofList
    let (theory, results) := retractAll Json.string session.theory ids
    let found := (results.filter fun result => result.2).map Prod.fst
    let missing := (results.filter fun result => !result.2).map Prod.fst
    if !found.isEmpty then tell ("✓ Retracted: " ++ String.intercalate ", " found)
    if !missing.isEmpty then tell ("Error: Not found: " ++ String.intercalate ", " missing)
    (session.withTheory theory).goOn

/-- A statement in the list: its sentence, and its formula if it has one. -/
def listedLines (statement : Statement) : List (Except Fault (List String)) := [
  statement.origin?.map fun origin =>
    [statement.id.shown ++ " " ++ Statement.mark origin ++ ": " ++ statement.sentence.shown],
  statement.formulaText?.map fun formula =>
    (formula.map fun text => "       → " ++ statement.sign.shown ++ ":" ++ text).toList]

/-- The end of the list, with a legend if the statements are of different origins. -/
def listEnd (statements : List Statement) : List String :=
  let origins := statements.filterMap fun statement => statement.origin?.toOption.join
  [Theory.ruler '-', "Total: " ++ toString statements.length ++ " statements"] ++
    if origins.eraseDups.length > 1 then ["Legend: [A]=Asserted, [I]=Inferred, [E]=LLM Evidence"]
    else []

def listCommand (session : Session) (text : String) : Action := do
  match session.theory.list (lowered text == "asserted") with
  | .error fault => session.fail fault
  | .ok [] =>
    tell "No statements in theory"
    session.goOn
  | .ok statements =>
    tellAll ["\nCurrent Theory:", Theory.ruler '-']
    match <- tellEach (statements.flatMap listedLines) with
    | some fault => session.fail fault
    | none =>
      tellAll (listEnd statements)
      session.goOn

/-- A piece of evidence, if there is a statement of known origin behind it. -/
def evidenceLine? (theory : Theory) (evidence : String) : Except Fault (Option String) :=
  match theory.evidenceSource? evidence with
  | none => .ok none
  | some statement => statement.origin?.map fun origin =>
    origin.map fun origin =>
      "  " ++ statement.id.shown ++ " " ++ origin.mark ++ ": " ++ evidence

def glutEvidence (theory : Theory) (state : InformationState) : List (Except Fault (List String)) :=
  [do return ((<- state.evidence.mapM (evidenceLine? theory)).filterMap id).eraseDups]

def gapEvidence (theory : Theory) (state : InformationState) : List (Except Fault (List String)) :=
  state.evidence.map fun evidence => (evidenceLine? theory evidence).map Option.toList

def foundLines (noun description : String)
    (lines : InformationState -> List (Except Fault (List String)))
    (states : List InformationState) : List (Except Fault (List String)) :=
  if states.isEmpty then []
  else
    let nouns := if states.length == 1 then noun else noun ++ "s"
    .ok ["⚠ Found " ++ toString states.length ++ " " ++ nouns ++ " (" ++ description ++ "):"] ::
      states.flatMap lines

/-- Check whether the theory is satisfiable, and tell its gluts and gaps. -/
def checkCommand (session : Session) (_ : String) : Action := do
  tell "Checking satisfiability..."
  match session.theory.check session.now session.adviser with
  | (theory, .error fault) => (session.withTheory theory).fail fault
  | (theory, .ok result) =>
    let session := session.withTheory theory
    let verdict := if result.satisfiable then "✓ Satisfiable" else "✗ Unsatisfiable"
    let time := (theory.timings.check.map fun time => " (" ++ Theory.seconds time ++ ")").getD ""
    tell (verdict ++ time)
    let gluts := Theory.statesOf .glut result.states
    let gaps := Theory.statesOf .gap result.states
    let found :=
      foundLines "glut" "conflicting evidence" (glutEvidence theory) gluts ++
        foundLines "gap" "lack of knowledge" (gapEvidence theory) gaps
    match <- tellEach found with
    | some fault => session.fail fault
    | none =>
      if gluts.isEmpty && gaps.isEmpty && result.satisfiable then
        tell "✓ No gluts or gaps detected"
      session.goOn

def inferredLine (statement : Statement) : String :=
  let origin := match statement.origin? with
    | .ok (some .evidence) => Origin.evidence
    | _ => .inferred
  let content :=
    if statement.formula.isTrue then statement.sign.shown ++ ":" ++ statement.formula.shown
    else "[no formula]"
  "  " ++ statement.id.shown ++ " " ++ origin.mark ++ ": " ++ content

def inferCommand (session : Session) (_ : String) : Action := do
  tell "Inferring consequences..."
  match session.theory.infer session.now session.adviser with
  | .error fault => session.fail fault
  | .ok (theory, statements) =>
    let advice := (theory.timings.advice.map fun time => ", LLM: " ++ Theory.seconds time).getD ""
    let time := (theory.timings.inference.map fun time =>
      " (" ++ Theory.seconds time ++ advice ++ ")").getD ""
    if statements.isEmpty then
      tell ("No new consequences could be inferred" ++ time)
    else
      tell ("✓ Inferred " ++ toString statements.length ++ " new statement(s):" ++ time)
      tellAll (statements.map inferredLine)
    (session.withTheory theory).goOn

def reportCommand (session : Session) (_ : String) : Action := do
  match session.theory.report session.now session.adviser with
  | (theory, .ok report) =>
    tell ("\n" ++ report)
    (session.withTheory theory).goOn
  | (theory, .error fault) => (session.withTheory theory).fail fault

def agrees (answer : String) : Bool := lowered answer == "y"

def clearCommand (session : Session) (_ : String) : Action := do
  if agrees (<- question "Are you sure you want to clear all statements? (y/n): ") then
    tell "✓ Theory cleared"
    (session.withTheory session.theory.clear).goOn
  else
    tell "Cancelled"
    session.goOn

end Shell
end WeakKleene
