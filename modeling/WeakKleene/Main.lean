import Std.Time.Zoned
import WeakKleene.CommandLine.Program

namespace WeakKleene
namespace Console

/-!
The two programs at a terminal: the prover, and the theory shell if the program
is called by the shell's name.

All that is decided is decided elsewhere.  Here lines are read, texts are shown,
and dialogues are carried out on real files.
-/

open CommandLine
open Shell
open scoped Memory

def emit (text : String) : IO Unit := do
  let output <- IO.getStdout
  output.putStr text
  output.flush

/-- The next line of input without its line break, unless there is none. -/
def nextLine? : IO (Option String) := do
  let line <- (<- IO.getStdin).getLine
  if line.isEmpty then return none
  return some (String.ofList (line.toList.filter (· != '\n')))

/-- The number of an error, which may be given with a minus. -/
def errorNumber (code : UInt32) : UInt32 := if code < 0x80000000 then code else 0 - code

/-- The fault that an error on disk amounts to, if it is a known one. -/
def diskFault? : IO.Error -> Option Fault
  | .noFileOrDirectory .. => some .fileNotFound
  | .inappropriateType _ code _ =>
    some (if errorNumber code == 21 then .folderGiven else .fileInPath)
  | .invalidArgument _ code _ => if errorNumber code == 36 then some .nameTooLong else none
  | _ => none

/-- What is found under a path on disk. -/
def lookOnDisk (path : String) : IO Found := do
  if path.toList.contains '\x00' then return .missing .nullInText
  try return .file (<- IO.FS.readFile path)
  catch error =>
    match diskFault? error with
    | some .folderGiven => return .folder
    | some fault => return .missing fault
    | none => throw error

def writeOnDisk (path text : String) : IO (Option Fault) := do
  if path.toList.contains '\x00' then return some .nullInText
  try IO.FS.writeFile path text return none
  catch error =>
    match diskFault? error with
    | some fault => return some fault
    | none => throw error

/-- Carry out a dialogue.  There is no result if the input ends at a question. -/
def carryOut {α : Type} : Dialogue α -> IO (Option α)
  | .done value => return some value
  | .say text next => do
      emit text
      carryOut next
  | .ask prompt next => do
      emit prompt
      match <- nextLine? with
      | some answer => carryOut (next answer)
      | none => return none
  | .look path next => do carryOut (next (<- lookOnDisk path))
  | .write path text next => do carryOut (next (<- writeOnDisk path text))

def finish (run : Run) : IO UInt32 := do
  emit run.output
  let errors <- IO.getStderr
  match run.exit with
  | .code number =>
    if run.errors.isEmpty || run.errors.endsWith "\n" then errors.putStr run.errors
    else errors.putStrLn run.errors
    return number.toUInt32
  | .fault fault =>
    errors.putStrLn fault.message
    return 1
  | .noInput => return 1

partial def interactAtTerminal : IO Unit := do
  emit interactivePrompt
  match <- nextLine? with
  | none => emit "\nGoodbye!\n"
  | some line =>
    let (lines, stop) := interactiveReply line
    emit (unlines lines)
    if !stop then interactAtTerminal

def prove (arguments : List String) : IO UInt32 := do
  match planProver arguments with
  | .answered run => finish run
  | .interactive =>
    emit (unlines interactiveGreeting)
    interactAtTerminal
    return 0

def padded (width : Nat) (number : Int) : String :=
  let digits := Nat.toDigits 10 number.toNat
  String.ofList (List.replicate (width - digits.length) '0' ++ digits)

def presentTime : IO String := do
  let now <- Std.Time.PlainDateTime.now
  let date := [padded 4 now.year.toInt, padded 2 now.month.val, padded 2 now.day.val]
  let time := [padded 2 now.hour.val, padded 2 now.minute.val, padded 2 now.second.val]
  return String.intercalate "-" date ++ "T" ++ String.intercalate ":" time

/-- The theory shell's commands, until one ends the session or the input ends. -/
partial def converse (session : Session) : IO UInt32 := do
  emit shellPrompt
  match <- nextLine? with
  | none =>
    emit "\n"
    return 0
  | some line =>
    let present := { session with now := <- presentTime }
    match <- carryOut (execute present (preparedLine line)) with
    | none => finish ⟨.noInput, "\n", ""⟩
    | some (_, .failed fault) => finish ⟨.fault fault, "", ""⟩
    | some (_, .stop) => return 0
    | some (next, .goOn) => converse next

/-- The variables of the surroundings that hold a key to a provider. -/
def presentKeys : IO (List String) := do
  let names := ["openai", "anthropic", "openrouter"].filterMap Session.keyName?
  names.filterM fun name => return (<- IO.getEnv name).any fun key => !key.isEmpty

/-- The theory shell.  No language model can be reached from here. -/
def manageTheory (arguments : List String) : IO UInt32 := do
  let now <- presentTime
  let keys <- presentKeys
  match openShell arguments fun file => Session.start file now keys none with
  | .error run => finish run
  | .ok (session, opening) =>
    emit opening
    converse session

end Console
end WeakKleene

def main (arguments : List String) : IO UInt32 := do
  if (<- IO.appPath).fileName == some "acrq-llm" then
    WeakKleene.Console.manageTheory arguments
  else WeakKleene.Console.prove arguments
