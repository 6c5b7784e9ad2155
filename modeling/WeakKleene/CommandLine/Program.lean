import WeakKleene.CommandLine.Prover
import WeakKleene.Shell.Command

namespace WeakKleene
namespace CommandLine

/-!
The two programs, on prepared input: the prover with its interactive mode, and
the theory shell.
-/

open Shell

variable [Memory]

/-- How a program ends: with an exit code, or by a fault that it does not handle. -/
inductive Exit where
  | code (number : Nat)
  | fault (fault : Fault)
  | noInput

structure Run where
  exit : Exit
  output : String
  errors : String

def unlines (lines : List String) : String := String.join (lines.map (· ++ "\n"))

namespace Run

def success (output : String) : Run := ⟨.code 0, output, ""⟩

def refused (program : String) (error : UsageError) : Run :=
  ⟨.code 2, "", program ++ ": error: " ++ error.message⟩

end Run

/-! ## The prover -/

def version : String := "wKrQ 3.3.2"

def usage : String :=
  "usage: wkrq [options] [input]\n\nOptions: " ++
    String.intercalate ", " ((allNames Request.options).map Prod.fst)

def interactiveGreeting : List String :=
  ["wKrQ Interactive Mode", "Commands: formula, inference (P |- Q), help, quit", ""]

def interactivePrompt : String := "wkrq> "

def interactiveHelp : List String := [
  "Commands:",
  "  formula           - Enter a formula to test",
  "  P, Q |- R         - Test inference",
  "  help              - Show this help",
  "  quit              - Exit"]

def evaluateLine (line : String) : Except Fault (List String) := do
  if Grammar.hasTurnstile line.toList then
    return Report.verdict (<- (<- Inference.parse line).check false) false
  else
    return Report.outcome (<- solve (<- Formula.parse line) .t false) true false false

/-- The reply to a line in interactive mode, and whether it ends the mode. -/
def interactiveReply (line : String) : List String × Bool :=
  let line := trimmed line
  let word := lowered line
  if line.isEmpty then ([], false)
  else if ["quit", "exit", "q"].contains word then (["Goodbye!"], true)
  else if ["help", "h"].contains word then (interactiveHelp, false)
  else
    match evaluateLine line with
    | .ok lines => (lines, false)
    | .error fault => ([faultLine fault], false)

/-- The interactive mode on prepared input.  It ends when asked to, when broken off, or with the
input. -/
def interact : List Input -> String
  | .line line :: rest =>
    match interactiveReply line with
    | (lines, true) => interactivePrompt ++ unlines lines
    | (lines, false) => interactivePrompt ++ unlines lines ++ interact rest
  | _ => interactivePrompt ++ "\nGoodbye!\n"

/-- What a command line of the prover leads to: an answer, or the interactive mode. -/
inductive Plan where
  | answered (run : Run)
  | interactive

/-- The answer to a request.  Texts that cannot be read are always told to the user, other faults
only if they are not to be looked into. -/
def answered (request : Request) : Run :=
  let response := answer request
  let output := unlines response.lines
  match response.fault with
  | none => Run.success output
  | some (.parse error) => ⟨.code 1, output, unlines [faultLine (.parse error)]⟩
  | some fault =>
    if request.debug then ⟨.fault fault, output, ""⟩
    else ⟨.code 1, output, unlines [faultLine fault]⟩

/-- What a command line of the prover leads to.  Without an input it is the interactive mode. -/
def planProver (arguments : List String) : Plan :=
  match readArguments Request.options true arguments with
  | .error error => .answered (Run.refused "wkrq" error)
  | .ok given =>
    match given.exit, given.argument.filter fun input => !input.isEmpty with
    | some "--version", _ => .answered (Run.success (unlines [version]))
    | some _, _ => .answered (Run.success (unlines [usage]))
    | none, none => .interactive
    | none, some input => .answered (answered (Request.ofGiven given input))

def runProver (arguments : List String) (inputs : List Input) : Run :=
  match planProver arguments with
  | .answered run => run
  | .interactive => Run.success (unlines interactiveGreeting ++ interact inputs)

/-! ## The theory shell -/

def shellOptions : List OptionSpec := [
  ⟨["-h", "--help"], .exit⟩,
  ⟨["--file", "-f"], .value []⟩,
  ⟨["--llm"], .value ["openai", "anthropic", "mock"]⟩]

def shellUsage : String :=
  "usage: acrq-llm [--file FILE] [--llm PROVIDER]"

def shellPrompt : String := "theory> "

/-- Take lines until a command ends the session, at most as many as the bound says. -/
def runShellLines : Nat -> Session -> Folder -> List Input -> Run
  | 0, _, _, _ | _, _, _, [] => Run.success shellPrompt
  | _, _, _, .interrupt :: _ => Run.success (shellPrompt ++ "\n")
  | bound + 1, session, folder, .line line :: inputs =>
    let performance := (execute session (preparedLine line)).perform folder inputs
    let output := shellPrompt ++ performance.output
    match performance.ending with
    | .interrupted => Run.success (output ++ "\n")
    | .noInput => ⟨.noInput, output, ""⟩
    | .result (_, .stop) => Run.success output
    | .result (_, .failed fault) => ⟨.fault fault, output, ""⟩
    | .result (session, .goOn) =>
      let rest := runShellLines bound session performance.folder performance.inputs
      { rest with output := output ++ rest.output }

/-- The session that a command line of the theory shell opens, and what is said before the first
prompt. -/
def openShell (arguments : List String) (start : Option String -> Session) :
    Except Run (Session × String) :=
  match readArguments shellOptions false arguments with
  | .error error => .error (Run.refused "acrq-llm" error)
  | .ok given =>
    if given.exit.isSome then .error (Run.success (unlines [shellUsage]))
    else
      let session := start (given.value? "--file" "theory.json")
      let greeting := session.greeting ++ "\n"
      match (given.value? "--llm" "").filter fun provider => !provider.isEmpty with
      | none => .ok (session, greeting)
      | some provider =>
        let choice := (llmCommand session provider).perform Folder.empty []
        match choice.ending with
        | .result (chosen, _) => .ok (chosen, choice.output ++ greeting)
        | _ => .ok (session, choice.output ++ greeting)

/-- Run the theory shell.  Every command takes at least one line, so that there are at most as
many commands as lines. -/
def runShell (arguments : List String) (inputs : List Input)
    (start : Option String -> Session) : Run :=
  match openShell arguments start with
  | .error run => run
  | .ok (session, opening) =>
    let rest := runShellLines inputs.length session Folder.empty inputs
    { rest with output := opening ++ rest.output }

end CommandLine
end WeakKleene
