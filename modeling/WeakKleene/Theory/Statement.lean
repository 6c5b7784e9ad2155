import WeakKleene.Grammar.Inference
import WeakKleene.Json.Print
import WeakKleene.Language.Sentence

namespace WeakKleene

/-!
Statements of a theory: a sentence, the formula it stands for, and where it
comes from.

A theory may be read from a file that holds any data in any place.  The entries
of a statement are therefore values, and what needs a text refuses all others.
-/

/-- A statement.  Its id, sentence, formula, sign and timestamp are meant to be texts.  A formula
that starts with two slashes is a comment: the sentence could not be read as a formula. -/
structure Statement where
  id : Json
  sentence : Json
  formula : Json
  sign : Json
  inferred : Json
  timestamp : Json
  metadata : Json

/-- The letters that tell where a statement comes from: it was asserted, inferred, or is an
evaluator's evidence. -/
inductive Origin where
  | asserted
  | inferred
  | evidence
deriving DecidableEq, Repr

namespace Origin

def letter : Origin -> Char
  | asserted => 'S'
  | inferred => 'I'
  | evidence => 'E'

def mark : Origin -> String
  | asserted => "[A]"
  | inferred => "[I]"
  | evidence => "[E]"

/-- The origin that the text of an id tells. -/
def ofId? (id : String) : Option Origin :=
  match id.toList with
  | 'S' :: _ => some .asserted
  | 'I' :: _ => some .inferred
  | 'E' :: _ => some .evidence
  | _ => none

end Origin

structure Draft where
  origin : Origin
  sentence : Json
  formula : String
  sign : String
  metadata : List (FieldName × Json)

/-- The statement of a draft.  All but what was asserted is marked as inferred. -/
def Draft.statement (draft : Draft) (id now : String) : Statement where
  id := .string id
  sentence := draft.sentence
  formula := .string draft.formula
  sign := .string draft.sign
  inferred := .bool (draft.origin != .asserted)
  timestamp := .string now
  metadata := .object draft.metadata

namespace Statement

/-- A number with zeros in front, to a width of four with its sign. -/
def paddedNumber (number : Int) : String :=
  let digits := Nat.toDigits 10 number.natAbs
  let minus := if number < 0 then ['-'] else []
  String.ofList (minus ++ List.replicate (4 - minus.length - digits.length) '0' ++ digits)

def idOf (letter : Char) (number : Int) : String := letter.toString ++ paddedNumber number

/-- The text that a value has to be in order to tell how it starts. -/
def startOf (value : Json) : Except Fault String :=
  match value.text? with
  | some text => .ok text
  | none => .error (.notText value.kind "startswith")

def origin? (statement : Statement) : Except Fault (Option Origin) :=
  (startOf statement.id).map Origin.ofId?

def mark (origin : Option Origin) : String := (origin.map Origin.mark).getD "[?]"

def isComment (formula : String) : Bool := "//".toList.isPrefixOf formula.toList

/-- The text of the statement's formula, unless there is none or it is a comment. -/
def formulaText? (statement : Statement) : Except Fault (Option String) :=
  if statement.formula.isTrue then do
    let text <- startOf statement.formula
    return if isComment text then none else some text
  else .ok none

/-- Read a formula in which predicates may be denied in either way. -/
def readFormula (text : String) : Except Fault Formula := Formula.parseSided .mixed text

def content? (statement : Statement) : Except Fault (Option Formula) := do
  return (<- statement.formulaText?).bind fun text => (readFormula text).toOption

/-- The formula that a sentence stands for: the sentence itself if it is one, or else its form in
English; a comment if it is neither. -/
def formulaOfSentence (sentence : String) : String :=
  match readFormula sentence with
  | .ok _ => sentence
  | .error _ => (Language.formula? sentence).getD ("// " ++ sentence)

/-- A formula that cannot be read, as a comment that says why. -/
def refusedFormula (formula : Json) (fault : Fault) : String :=
  "// PARSE ERROR: " ++ formula.shown ++ " - " ++ fault.message

/-- The formula as it is kept: one that cannot be read becomes a comment that says why. -/
def keptFormula (formula : Json) : String :=
  match startOf formula with
  | .error fault => refusedFormula formula fault
  | .ok text =>
    if isComment text then text
    else
      match readFormula text with
      | .ok _ => text
      | .error fault => refusedFormula formula fault

def signs : List String := ["t", "f", "e", "m", "n", "v"]

end Statement
end WeakKleene
