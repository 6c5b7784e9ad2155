import WeakKleene.Evaluator
import WeakKleene.Theory.Statement

namespace WeakKleene

/-!
Theories: statements under ids, in the order in which they came.

An operation that fails leaves the theory as far changed as it had come.
-/

namespace Json

/-- The items of a value that may be a name with its value: those of a list, the characters of a
text, or the names of an object. -/
def items? : Json -> Option (List Json)
  | .list items => some items
  | .string text => some (text.toList.map fun c => .string c.toString)
  | .ragged codes => some (codes.map fun code => .ofCodes [code])
  | .object fields => some (fields.map fun field => .ofName field.1)
  | _ => none

def toName : Json -> FieldName
  | .string text => .plain text
  | .ragged codes => .ragged codes
  | value => .plain value.document

/-- The field that an item at a position of a list stands for. -/
def fieldAt (position : Nat) (item : Json) : Except Fault (FieldName × Json) :=
  match item.items? with
  | none => .error (.notField position)
  | some [name, value] =>
    if name.isName then .ok (name.toName, value) else .error (.notName name.kind)
  | some items => .error (.fieldLength position items.length)

/-- The fields that a value lists: those of an object, or those that its items stand for. -/
def listedFields : Json -> Except Fault (List (FieldName × Json))
  | .object fields => .ok fields
  | value =>
    match value.items? with
    | some items => items.zipIdx.mapM fun (item, position) => fieldAt position item
    | none => .error (.notListing value.kind)

end Json

structure Adviser where
  evaluator : Evaluator
  info : Option Json

namespace Adviser

/-- Metadata with what the adviser says about itself. -/
def signed (adviser : Adviser) (metadata : List (FieldName × Json)) :
    Except Fault (List (FieldName × Json)) := do
  let fields <- (adviser.info.map Json.listedFields).getD (.ok [])
  return fields.foldl (fun known (name, value) => Json.put name value known) metadata

end Adviser

/-- How many thousandths of a second were last spent on inference, on an adviser during
inference, and on a check. -/
structure Timings where
  inference : Option Nat
  advice : Option Nat
  check : Option Nat
deriving DecidableEq, Repr

/-- A theory.  Ids are numbered on from `nextId`, which is meant to be a number. -/
structure Theory where
  statements : List Statement
  nextId : Json
  timings : Timings

namespace Theory

def empty : Theory := ⟨[], .int 1, ⟨none, none, none⟩⟩

def find? (theory : Theory) (id : Json) : Option Statement :=
  theory.statements.find? fun statement => statement.id.sameName id

/-- Put a statement in place of the one with its id, or at the end if there is none. -/
def putStatement (statement : Statement) : List Statement -> List Statement
  | [] => [statement]
  | first :: rest =>
    if first.id.sameName statement.id then statement :: rest
    else first :: putStatement statement rest

def put (theory : Theory) (statement : Statement) : Theory :=
  { theory with statements := putStatement statement theory.statements }

def nextNumber (theory : Theory) : Except Fault Int :=
  match theory.nextId.number?, theory.nextId with
  | some number, _ => .ok number
  | none, .string _ | none, .ragged _ | none, .fraction _ => .error (.notWhole theory.nextId.kind)
  | none, _ => .error (.numberedBy theory.nextId.kind)

def takeId (theory : Theory) (letter : Char) : Except Fault (String × Theory) := do
  let number <- theory.nextNumber
  return (Statement.idOf letter number, { theory with nextId := .int (number + 1) })

def add (theory : Theory) (now : String) (draft : Draft) : Except Fault (Theory × Statement) := do
  let (id, numbered) <- theory.takeId draft.origin.letter
  let statement := draft.statement id now
  return (numbered.put statement, statement)

/-- Store a new statement that an adviser answers for.  What the adviser says about itself is
looked at when the id is taken already. -/
def addSigned (theory : Theory) (now : String) (adviser : Adviser) (draft : Draft) :
    Theory × Except Fault Statement :=
  match theory.takeId draft.origin.letter with
  | .error fault => (theory, .error fault)
  | .ok (id, numbered) =>
    match adviser.signed draft.metadata with
    | .error fault => (numbered, .error fault)
    | .ok metadata =>
      let statement := { draft with metadata := metadata : Draft }.statement id now
      (numbered.put statement, .ok statement)

/-- The formula that is kept for a sentence, given the formula if it is not null. -/
def assertedFormula (sentence formula : Json) : Except Fault String :=
  match formula, sentence.text? with
  | .null, some text => .ok (Statement.keptFormula (.string (Statement.formulaOfSentence text)))
  | .null, none => .error (.notText sentence.kind "lower")
  | formula, _ => .ok (Statement.keptFormula formula)

/-- Assert a sentence under a sign, with its formula unless that is null. -/
def assert (theory : Theory) (now : String) (sentence formula sign : Json) :
    Theory × Except Fault Statement :=
  match Statement.signs.find? fun known => sign.isText known with
  | none => (theory, .error (.unknownStatementSign sign.shown))
  | some sign =>
    match theory.takeId Origin.asserted.letter with
    | .error fault => (theory, .error fault)
    | .ok (id, numbered) =>
      match assertedFormula sentence formula with
      | .error fault => (numbered, .error fault)
      | .ok formula =>
        let draft : Draft := {
          origin := .asserted
          sentence := sentence
          formula := formula
          sign := sign
          metadata := [("source", .string "user_assertion")] }
        let statement := draft.statement id now
        (numbered.put statement, .ok statement)

/-- Remove the statement of an id.  The flag tells whether there was one. -/
def retract (theory : Theory) (id : Json) : Theory × Bool :=
  if (theory.find? id).isSome then
    ({ theory with
      statements := theory.statements.filter fun statement => !statement.id.sameName id }, true)
  else (theory, false)

def clear (theory : Theory) : Theory := { theory with statements := [], nextId := .int 1 }

/-- Whether an id comes before another or is the same, where they are of one kind.  The undefined
number, which no order places, counts as the last. -/
def idBefore (left right : Json) : Bool :=
  match left.codes?, right.codes? with
  | some left, some right => Text.codesBefore left right
  | _, _ =>
    let left := left.rank?.getD (0, 0)
    let right := right.rank?.getD (0, 0)
    left.1 < right.1 || (left.1 == right.1 && left.2 <= right.2)

/-- Whether ids have an order: there is at most one, all are texts, or all are numbers. -/
def ordered (ids : List Json) : Bool :=
  ids.length <= 1 || (ids.all fun id => id.text?.isSome) || ids.all fun id => id.rank?.isSome

/-- The statements by their ids, all of them or only those that were not inferred. -/
def list (theory : Theory) (onlyAsserted : Bool) : Except Fault (List Statement) :=
  let statements := theory.statements.filter fun statement =>
    !(onlyAsserted && statement.inferred.isTrue)
  if ordered (statements.map Statement.id) then
    .ok (statements.mergeSort fun left right => idBefore left.id right.id)
  else .error .unorderedIds

/-- The first statement that has the very text as its formula. -/
def withFormula? (theory : Theory) (text : String) : Option Statement :=
  theory.statements.find? fun statement => statement.formula.isText text

def hasFormula (theory : Theory) (text : String) : Bool := (theory.withFormula? text).isSome

end Theory
end WeakKleene
