import WeakKleene.Evaluator.Consultation
import WeakKleene.Shell.Dialogue
import WeakKleene.Shell.Help
import WeakKleene.Theory.Chaining
import WeakKleene.Theory.File
import WeakKleene.Theory.Report

namespace WeakKleene
namespace Shell

/-!
A session with a theory: the theory, the file it works on, and the adviser that
was chosen.
-/

/-- A session.  There may be no file to work on.  `keys` are the variables of the surroundings that
hold a key to a provider, `now` is the time that new statements get, and `service` is what reaches
language models. -/
structure Session where
  theory : Theory
  file : Option String
  loadedFrom : Option String
  adviser : Option Adviser
  provider : Option String
  keys : List String
  now : String
  service : Option Service

inductive Status where
  | goOn
  | stop
  | failed (fault : Fault)

abbrev Action := Dialogue (Session × Status)

namespace Session

def start (file : Option String) (now : String) (keys : List String)
    (service : Option Service) : Session where
  theory := Theory.empty
  file := file.map plainPath
  loadedFrom := none
  adviser := none
  provider := none
  keys := keys
  now := now
  service := service

def goOn (session : Session) : Action := return (session, .goOn)

def fail (session : Session) (fault : Fault) : Action := return (session, .failed fault)

def withTheory (session : Session) (theory : Theory) : Session := { session with theory := theory }

def keyName? : String -> Option String
  | "openai" => some "OPENAI_API_KEY"
  | "anthropic" => some "ANTHROPIC_API_KEY"
  | "openrouter" => some "OPENROUTER_API_KEY"
  | _ => none

def hasKey (session : Session) (provider : String) : Bool :=
  (keyName? provider).any session.keys.contains

def version : String := "3.3.2"

def greeting (session : Session) : String :=
  let available := ["openai", "anthropic", "openrouter"].filter session.hasKey
  let providers :=
    if available.isEmpty then "No LLM API keys found in environment"
    else "LLM providers available: " ++ String.intercalate ", " available
  "ACrQ Theory Manager - wkrq version " ++ version ++ "\n" ++ providers ++
    "\nType 'help' for available commands.\n"

end Session
end Shell
end WeakKleene
