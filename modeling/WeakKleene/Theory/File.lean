import WeakKleene.Json.Print
import WeakKleene.Json.Read
import WeakKleene.Theory.Basic

namespace WeakKleene

/-!
Theories as files.

Loading replaces the theory step by step: the numbering first, then the
statements one by one.  When a step fails, what was done before it stays done.
-/

namespace Statement

def toJson (statement : Statement) : Json :=
  .record [
    ("id", statement.id),
    ("natural_language", statement.sentence),
    ("formula", statement.formula),
    ("sign", statement.sign),
    ("is_inferred", statement.inferred),
    ("timestamp", statement.timestamp),
    ("metadata", statement.metadata)]

def field (fields : List (FieldName × Json)) (name : String) : Except Fault Json :=
  match Json.entry? name fields with
  | some value => .ok value
  | none => .error (.missingField name)

/-- The statement that data stands for.  Only its id and its sentence have to be there. -/
def ofJson : Json -> Except Fault Statement
  | .object fields => do
      let entry := fun name default => (Json.entry? name fields).getD default
      return {
        id := <- field fields "id"
        sentence := <- field fields "natural_language"
        formula := entry "formula" .null
        sign := entry "sign" (.string "t")
        inferred := entry "is_inferred" (.bool false)
        timestamp := entry "timestamp" (.string "")
        metadata := entry "metadata" (.object []) }
  | _ => .error .wrongKind

end Statement

namespace Theory

def toJson (theory : Theory) (now : String) : Json :=
  .record [
    ("metadata", .record [
      ("version", .string "1.0"),
      ("created", .string now),
      ("next_id", theory.nextId)]),
    ("statements", .list (theory.statements.map Statement.toJson))]

def document (theory : Theory) (now : String) : String := (theory.toJson now).document

/-- The number that data tells to go on with. -/
def numbering : Json -> Except Fault Json
  | .object fields => do
      match <- Statement.field fields "metadata" with
      | .object metadata => return (Json.entry? "next_id" metadata).getD (.int 1)
      | _ => .error .noFields
  | _ => .error .wrongKind

/-- The data of the statements.  The members of an object or a text are no statements, but there
may be none. -/
def statementData : Json -> Except Fault (List Json)
  | .object fields => do
      match <- Statement.field fields "statements" with
      | .list items => return items
      | .object [] | .string "" => return []
      | _ => .error .wrongKind
  | _ => .error .wrongKind

/-- Store the statements that data stands for, until one cannot be read or its id names
nothing. -/
def loadStatements (theory : Theory) : List Json -> Theory × Option Fault
  | [] => (theory, none)
  | data :: rest =>
    match Statement.ofJson data with
    | .ok statement =>
      if statement.id.isName then (theory.put statement).loadStatements rest
      else (theory, some (.notName statement.id.kind))
    | .error fault => (theory, some fault)

/-- Replace the theory by what data tells.  The fault, if there is one, tells why the rest is
missing. -/
def load (theory : Theory) (data : Json) : Theory × Option Fault :=
  match numbering data with
  | .error fault => (theory, some fault)
  | .ok number =>
    let cleared := { theory with statements := [], nextId := number }
    match statementData data with
    | .error fault => (cleared, some fault)
    | .ok items => cleared.loadStatements items

/-- Replace the theory by what the text of a file tells. -/
def loadDocument (theory : Theory) (text : String) : Theory × Option Fault :=
  match Json.parse? text with
  | some data => theory.load data
  | none => (theory, some .notJson)

def firstLetter (id : Json) : Except Fault Char :=
  match id.text? with
  | none => .error .wrongKind
  | some text =>
    match text.toList with
    | letter :: _ => .ok letter
    | [] => .error .unnamedStatement

/-- Add a statement of another theory, under a new number if its id is in use.  The flag tells
whether it was renamed. -/
def mergeStatement (theory : Theory) (statement : Statement) : Except Fault (Theory × Bool) := do
  if (theory.find? statement.id).isSome then
    let (id, numbered) <- theory.takeId (<- firstLetter statement.id)
    return (numbered.put { statement with id := .string id }, true)
  else return (theory.put statement, false)

/-- Add the statements of another theory, and count those that were renamed, until one cannot be
added. -/
def merge (theory : Theory) (renamed : Nat) : List Statement -> Theory × Nat × Option Fault
  | [] => (theory, renamed, none)
  | statement :: rest =>
    match theory.mergeStatement statement with
    | .ok (merged, changed) => merged.merge (if changed then renamed + 1 else renamed) rest
    | .error fault => (theory, renamed, some fault)

end Theory
end WeakKleene
