import WeakKleene.Shell.Advice
import WeakKleene.Shell.Files

namespace WeakKleene
namespace Shell

/-!
Command lines: which command a line asks for, and the loop over the lines of a
session.
-/

open Dialogue

variable [Memory]

def helpCommand (session : Session) (text : String) : Action := do
  if text.isEmpty then tellAll helpLines
  else
    match helpOn? text with
    | some lines => tellAll lines
    | none => tell ("No help available for '" ++ text ++ "'")
  session.goOn

def quitCommand (session : Session) (_ : String) : Action := return (session, .stop)

def command? : String -> Option (Session -> String -> Action)
  | "assert" => some assertCommand
  | "retract" => some retractCommand
  | "list" => some listCommand
  | "check" => some checkCommand
  | "infer" => some inferCommand
  | "report" => some reportCommand
  | "clear" => some clearCommand
  | "save" => some saveCommand
  | "load" => some loadCommand
  | "claim" => some claimCommand
  | "evaluate" => some evaluateCommand
  | "llm" => some llmCommand
  | "help" => some helpCommand
  | "quit" | "exit" => some quitCommand
  | _ => none

/-- A line that starts with no command.  A slash in front of a command is allowed, but such a
command does not end the session. -/
def unknownLine (session : Session) (line : String) : Action := do
  match line.toList with
  | '/' :: rest =>
    match Text.firstWord rest with
    | none =>
      tell "Unknown command. Type 'help' for available commands."
      session.goOn
    | some (word, args) =>
      let name := String.ofList word
      match command? name with
      | some command =>
        match <- command session (String.ofList (args.getD [])) with
        | (session, .stop) => session.goOn
        | ended => return ended
      | none =>
        tell ("Unknown command: /" ++ name)
        tell "Type 'help' for available commands."
        session.goOn
  | chars =>
    match Text.firstWord chars with
    | some (word, _) =>
      tell ("Unknown command: " ++ String.ofList word)
      tell "Type 'help' for available commands."
      tell "To make an assertion, use: assert <statement>"
      session.goOn
    | none => session.goOn

/-- Whether a character can be part of a command's name. -/
def isCommandChar (c : Char) : Bool := c.isAlphanum || c == '_'

/-- Carry out a line.  A question mark asks for help, and the name of a command ends where its
letters do. -/
def execute (session : Session) (line : String) : Action :=
  let chars := Text.trim line.toList
  match chars with
  | [] => session.goOn
  | '!' :: _ => unknownLine session (String.ofList chars)
  | first :: rest =>
    let chars := if first == '?' then "help ".toList ++ rest else chars
    let name := String.ofList (chars.takeWhile isCommandChar)
    match command? name with
    | some command => command session (String.ofList (Text.trim (chars.dropWhile isCommandChar)))
    | none => unknownLine session (String.ofList chars)

/-- A line without blanks around it and without the slash that may stand in front of a command. -/
def preparedLine (line : String) : String :=
  match Text.trim line.toList with
  | '/' :: rest =>
    match Text.firstWord rest with
    | some (word, args) => String.ofList (word ++ ' ' :: args.getD [])
    | none => "/"
  | chars => String.ofList chars

end Shell
end WeakKleene
