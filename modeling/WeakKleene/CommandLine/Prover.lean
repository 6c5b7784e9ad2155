import WeakKleene.CommandLine.Arguments
import WeakKleene.Drawing.Format
import WeakKleene.Report
import WeakKleene.Text.Replace

namespace WeakKleene
namespace CommandLine

/-!
The prover's command line: one formula or inference, and what to show about it.
-/

variable [Memory]

/-- What the command line asks for.  The sign, the mode and the format may have been left empty. -/
structure Request where
  input : String
  sign : Option String
  bilateral : Bool
  mode : Option Grammar.Mode
  models : Bool
  stats : Bool
  debug : Bool
  inference : Bool
  explain : Bool
  tree : Bool
  format : Option Drawing.Format
  showRules : Bool
  trace : Bool
  json : Bool

namespace Request

def options : List OptionSpec := [
  ⟨["-h", "--help"], .exit⟩,
  ⟨["--version"], .exit⟩,
  ⟨["--sign"], .value ["t", "f", "e", "m", "n"]⟩,
  ⟨["--mode"], .value ["wkrq", "acrq"]⟩,
  ⟨["--syntax"], .value ["transparent", "bilateral", "mixed"]⟩,
  ⟨["--models"], .nothing⟩,
  ⟨["--stats"], .nothing⟩,
  ⟨["--debug"], .nothing⟩,
  ⟨["--inference"], .nothing⟩,
  ⟨["--consequence"], .value ["strong", "weak"]⟩,
  ⟨["--explain"], .nothing⟩,
  ⟨["--countermodel"], .nothing⟩,
  ⟨["--tree"], .nothing⟩,
  ⟨["--format"], .value ["ascii", "unicode", "latex", "json"]⟩,
  ⟨["--show-rules"], .nothing⟩,
  ⟨["--show-steps"], .nothing⟩,
  ⟨["--highlight-closures"], .nothing⟩,
  ⟨["--compact"], .nothing⟩,
  ⟨["--interactive"], .nothing⟩,
  ⟨["--trace"], .nothing⟩,
  ⟨["--trace-verbose"], .nothing⟩,
  ⟨["--json"], .nothing⟩]

/-- The request of a command line with an input. -/
def ofGiven (given : Given) (input : String) : Request where
  input := input
  sign := given.value? "--sign" "t"
  bilateral := given.value? "--mode" "wkrq" == some "acrq"
  mode := (given.value? "--syntax" "transparent").bind Grammar.Mode.ofName?
  models := given.has "--models"
  stats := given.has "--stats"
  debug := given.has "--debug"
  inference := given.has "--inference"
  explain := given.has "--explain"
  tree := given.has "--tree"
  format := (given.value? "--format" "ascii").bind Drawing.Format.ofName?
  showRules := given.has "--show-rules"
  trace := given.has "--trace" || given.has "--trace-verbose"
  json := given.has "--json"

end Request

/-! ## Inferences without a turnstile -/

/-- The position of the last comma outside all brackets, given the position and the depth of
brackets reached. -/
def lastTopLevelComma? (position : Nat) (depth : Int) : List Char -> Option Nat
  | [] => none
  | c :: rest =>
    (lastTopLevelComma? (position + 1) (Grammar.depthAfter depth c) rest).or
      (if c == ',' && depth == 0 then some position else none)

/-- An inference with its turnstile.  Where an inference is asked for and there is no turnstile,
the last comma outside all brackets takes its place. -/
def withTurnstile (text : String) (inference : Bool) : Except Fault String :=
  let chars := text.toList
  if inference && !Grammar.hasTurnstile chars then
    match lastTopLevelComma? 0 0 chars with
    | some (position + 1) =>
      let premises := String.ofList (Text.trim (chars.take (position + 1)))
      let conclusion := String.ofList (Text.trim (chars.drop (position + 2)))
      .ok (premises ++ " |- " ++ conclusion)
    | _ => .error (.parse .missingConclusion)
  else .ok text

/-- The piece read so far, unless it is blank, in front of the pieces after it. -/
def keepPiece (piece : List Char) (pieces : List (List Char)) : List (List Char) :=
  let trimmed := Text.trim piece.reverse
  if trimmed.isEmpty then pieces else trimmed :: pieces

/-- The premises between the commas outside all brackets, given the depth of brackets and,
backwards, the current piece.  Blank pieces are left out. -/
def splitPremisesFrom (depth : Int) (piece : List Char) : List Char -> List (List Char)
  | [] => keepPiece piece []
  | c :: rest =>
    if c == ',' && depth == 0 then keepPiece piece (splitPremisesFrom depth [] rest)
    else splitPremisesFrom (Grammar.depthAfter depth c) (c :: piece) rest

/-- The premises between the commas outside all brackets. -/
def splitPremises (text : List Char) : List (List Char) := splitPremisesFrom 0 [] text

/-! ## Answers as data -/

def truthData (value : Truth) : Json :=
  .record [("symbol", .string value.letter), ("name", .string value.name)]

def modelData (model : Model) : Json :=
  .record [
    ("valuations", .record (model.valuations.map fun (atom, value) => (atom, truthData value))),
    ("constants", .record [])]

def modelTexts (models : List Model) : Json := .texts (models.map Model.text)

/-! ## Answers -/

/-- What is said in answer, up to a fault if there is one. -/
structure Response where
  lines : List String
  fault : Option Fault

namespace Response

def ofLines (lines : List String) : Response := ⟨lines, none⟩

/-- Lines up to a fault that there may be before the first. -/
def ofOutcome : Except Fault Response -> Response
  | .ok response => response
  | .error fault => ⟨[], some fault⟩

def append (first second : Response) : Response :=
  match first.fault with
  | some _ => first
  | none => ⟨first.lines ++ second.lines, second.fault⟩

instance : Append Response := ⟨append⟩

end Response

def requestedSign (request : Request) : Except Fault (String × Sign) :=
  match request.sign with
  | some text => do return (text, <- Sign.parse text)
  | none => .error (.notText "list" "lower")

def requestedMode (request : Request) : Except Fault Grammar.Mode :=
  match request.mode with
  | some mode => .ok mode
  | none => .error (.notName "list")

/-- The drawing of a tableau under a title.  With bilateral predicates the data is written on a
single line. -/
def treeResponse (request : Request) (tableau : Tableau) : Response :=
  if request.tree then
    let title := "\nTableau tree:"
    match request.format, request.bilateral with
    | some .json, true => .ofLines [title, (Drawing.data tableau).oneLine]
    | some format, _ => .ofLines [title, Drawing.draw tableau request.showRules format]
    | none, true => ⟨[title], some .noFormat⟩
    | none, false => ⟨[title], some (.unknownFormat "[]")⟩
  else .ofLines []

def traceLines (trace : Option Trace) : List String :=
  match trace with
  | none => []
  | some trace =>
    let ruler := String.ofList (List.replicate 70 '=')
    ["\n" ++ ruler, "CONSTRUCTION TRACE", ruler] ++ trace.report

def answerFormula (request : Request) : Except Fault Response := do
  let formula <- Formula.parse request.input
  let (_, sign) <- requestedSign request
  let tableau <- solve formula sign request.trace
  if request.json then
    return .ofLines [(Json.record [
      ("type", .string "formula"),
      ("formula", .string formula.text),
      ("sign", .string sign.letter),
      ("satisfiable", .bool tableau.satisfiable),
      ("models", .list (tableau.models.map modelData)),
      ("stats", .record [
        ("open_branches", .nat tableau.opened.length),
        ("closed_branches", .nat tableau.closed.length),
        ("total_nodes", .nat tableau.nodes.size)])]).document]
  else
    return .ofLines (Report.outcome tableau request.models request.stats request.debug) ++
      treeResponse request tableau ++ .ofLines (traceLines tableau.trace)

def answerInference (request : Request) : Except Fault Response := do
  let inference <- Inference.parse (<- withTurnstile request.input request.inference)
  let verdict <- inference.check request.trace
  if request.json then
    return .ofLines [(Json.record [
      ("type", .string "inference"),
      ("inference", .string inference.text),
      ("valid", .bool verdict.valid),
      ("countermodels", .list (verdict.countermodels.map modelData))]).document]
  else
    return .ofLines (Report.verdict verdict (request.explain || request.debug)) ++
      treeResponse request verdict.tableau

def answerSidedFormula (request : Request) : Except Fault Response := do
  let mode <- requestedMode request
  let formula <- Formula.parseSided mode request.input
  let (signText, sign) <- requestedSign request
  let tableau <- Tableau.ofFormulas (.bilateral none) [⟨sign, formula⟩] false
  if request.json then
    return .ofLines [(Json.record ([
      ("type", .string "acrq_formula"),
      ("formula", .string formula.text),
      ("sign", .string signText),
      ("satisfiable", .bool tableau.satisfiable),
      ("syntax_mode", .string mode.name)] ++
      (if request.models && tableau.satisfiable then [("models", modelTexts tableau.models)]
      else []))).document]
  else
    return .ofLines (["ACrQ Formula (" ++ mode.name ++ " mode): " ++ formula.text,
        "Sign: " ++ signText,
        "Satisfiable: " ++ Report.flag tableau.satisfiable] ++
      (if request.models && tableau.satisfiable then
        ("\nModels (" ++ toString tableau.models.length ++ "):") ::
          Report.numbered "  " tableau.models
      else []) ++
      (if request.stats then
        ["\nStatistics:", "  Total nodes: " ++ toString tableau.nodes.size,
          "  Open branches: " ++ toString tableau.opened.length,
          "  Closed branches: " ++ toString tableau.closed.length]
      else [])) ++
      treeResponse request tableau

/-- The premises and the conclusion of an inference over bilateral predicates, each read on its
own. -/
def readSidedInference (mode : Grammar.Mode) (text : String) :
    Except Fault (List Formula × Formula) :=
  match Grammar.turnstilePieces text.toList with
  | [front, back] => do
      let premises <- (splitPremises (Text.trim front)).mapM fun piece =>
        Formula.parseSided mode (String.ofList piece)
      return (premises, <- Formula.parseSided mode (String.ofList (Text.trim back)))
  | _ => .error (.parse (.invalidInference text))

/-- The answer to an inference over bilateral predicates, which is tested with a false
conclusion. -/
def answerSidedInference (request : Request) : Except Fault Response := do
  let mode <- requestedMode request
  let text <- withTurnstile request.input request.inference
  let (premises, conclusion) <- readSidedInference mode text
  let formulas := premises.map (Signed.mk .t) ++ [⟨.f, conclusion⟩]
  let tableau <- Tableau.ofFormulas (.bilateral none) formulas false
  let premiseTexts := premises.map Formula.text
  if request.json then
    return .ofLines [(Json.record ([
      ("type", .string "acrq_inference"),
      ("premises", .texts premiseTexts),
      ("conclusion", .string conclusion.text),
      ("valid", .bool !tableau.satisfiable),
      ("syntax_mode", .string mode.name)] ++
      (if tableau.satisfiable then [("countermodels", modelTexts tableau.models)]
      else []))).document]
  else
    return .ofLines (["ACrQ Inference (" ++ mode.name ++ " mode):",
        "  Premises: " ++ String.intercalate ", " premiseTexts,
        "  Conclusion: " ++ conclusion.text] ++
      (if tableau.satisfiable then
        ["  ✗ Invalid inference", "  Countermodels:"] ++ Report.numbered "    " tableau.models
      else ["  ✓ Valid inference"])) ++
      treeResponse request tableau

def answer (request : Request) : Response :=
  let inference := request.inference || Grammar.hasTurnstile request.input.toList
  .ofOutcome <| match request.bilateral, inference with
  | true, true => answerSidedInference request
  | true, false => answerSidedFormula request
  | false, true => answerInference request
  | false, false => answerFormula request

def faultLine : Fault -> String
  | .parse error => "Parse error: " ++ error.message
  | fault => "Error: " ++ fault.message

end CommandLine
end WeakKleene
