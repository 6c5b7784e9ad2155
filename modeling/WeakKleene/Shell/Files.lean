import WeakKleene.Shell.Statements

namespace WeakKleene
namespace Shell

/-!
The commands on files: save and load.
-/

open Dialogue

/-- How a file to work on is called.  Without one it shows as an empty list. -/
def fileName (file : Option String) : String := file.getD "[]"

def saveNow (session : Session) : Action := do
  match session.file with
  | none => session.fail .noFile
  | some file =>
    match <- store file (session.theory.document session.now) with
    | some fault => session.fail fault
    | none =>
      tell ("✓ Theory saved to " ++ file)
      session.goOn

/-- Save the theory, to a new working file if one is given.  A file that the theory was loaded
from is overwritten only after a question. -/
def saveCommand (session : Session) (text : String) : Action := do
  if !text.isEmpty then
    saveNow { session with file := some (plainPath text), loadedFrom := none }
  else if session.loadedFrom.isSome && session.loadedFrom == session.file then
    let answer <- question
      ("This will overwrite the loaded file " ++ fileName session.file ++ ". Continue? (y/n): ")
    if agrees answer then saveNow session
    else
      tell "Save cancelled"
      session.goOn
  else saveNow session

/-- The last word of a command that is no option, and whether merging was asked for. -/
def loadArguments (text : String) : Option String × Bool :=
  let words := (Text.words text.toList).map String.ofList
  ((words.filter (· != "--merge")).getLast?, words.contains "--merge")

def mergeFile (session : Session) (file text : String) : Action := do
  match Theory.empty.loadDocument text with
  | (_, some fault) => session.fail fault
  | (other, none) =>
    match session.theory.merge 0 other.statements with
    | (theory, _, some fault) => (session.withTheory theory).fail fault
    | (theory, renamed, none) =>
      tell ("✓ Merged theory from " ++ file)
      tell ("  Added " ++ toString other.statements.length ++ " statements")
      if renamed > 0 then
        tell ("  Renamed " ++ toString renamed ++ " statements to avoid conflicts")
      tell ("  Working file remains: " ++ fileName session.file)
      (session.withTheory theory).goOn

def replaceByFile (session : Session) (file text : String) : Action := do
  match session.theory.loadDocument text with
  | (theory, some fault) => Session.fail { session with theory := theory, file := some file } fault
  | (theory, none) =>
    tell ("✓ Theory loaded from " ++ file)
    tell ("  Loaded " ++ toString theory.statements.length ++ " statements")
    { session with theory := theory, file := some file, loadedFrom := some file }.goOn

/-- Whether the theory may be replaced: it is empty, or the answer to a question agrees. -/
def mayReplace (session : Session) : Dialogue Bool := do
  if session.theory.statements.isEmpty then return true
  return agrees (<- question "This will replace the current theory. Continue? (y/n): ")

/-- Load what was found under a path into the theory, by merging or by replacing it. -/
def loadFound (session : Session) (file : String) (merge : Bool) (found : Found) : Action := do
  if merge then
    match found.text with
    | .ok content => mergeFile session file content
    | .error fault => session.fail fault
  else if <- mayReplace session then
    match found.text with
    | .ok content => replaceByFile session file content
    | .error fault => Session.fail { session with file := some file } fault
  else
    tell "Load cancelled"
    session.goOn

def loadCommand (session : Session) (text : String) : Action := do
  let (name, merge) := loadArguments text
  match (name.map plainPath).or session.file with
  | none => session.fail (.notText "list" "exists")
  | some file =>
    match <- find file with
    | .missing .nameTooLong => session.fail .nameTooLong
    | .missing _ =>
      tell ("Error: File " ++ file ++ " not found")
      session.goOn
    | found => loadFound session file merge found

end Shell
end WeakKleene
