import WeakKleene.Formula.Basic
import WeakKleene.Text.Quoted

namespace WeakKleene

/-!
What can go wrong, by cause, and how each cause is worded.
-/

/-- Why a text is not read as a formula or an inference. -/
inductive ParseError where
  | emptyFormula
  | expectedFormula
  | unexpectedEnd
  | unclosedParenthesis
  | expectedClosing (found : Option String)
  | unexpectedToken (token : String)
  | invalidCharacter (position : Nat) (character : Char)
  | invalidInference (text : String)
  | inferenceGiven
  | formulaGiven
  | missingConclusion
  | starNotAllowed
  | negationNotAllowed (name : String)
  | negatedPredicate (name : String)
  | disallowed (text : String)
deriving DecidableEq, Repr

namespace ParseError

def message : ParseError -> String
  | emptyFormula => "Empty formula"
  | expectedFormula => "Expected formula"
  | unexpectedEnd => "Unexpected end of formula"
  | unclosedParenthesis => "Expected closing parenthesis"
  | expectedClosing found => "Expected ')', got '" ++ found.getD "None" ++ "'"
  | unexpectedToken token => "Unexpected token: " ++ token
  | invalidCharacter position character =>
    "Invalid character at position " ++ toString position ++ ": '" ++ character.toString ++ "'"
  | invalidInference text => "Invalid inference format: " ++ text
  | inferenceGiven => "Expected formula but got inference. Use parse_inference() instead."
  | formulaGiven => "Expected inference but got formula. Use parse() instead."
  | missingConclusion => "Inference format requires premises and conclusion separated by comma"
  | starNotAllowed =>
    "Star syntax (P*) is not allowed in transparent mode. " ++
      "Use standard negation syntax: ¬P(x) or ~P(x)"
  | negationNotAllowed name =>
    "Negated predicates are not allowed in bilateral mode. Use explicit star syntax: " ++
      name ++ "* instead of ¬" ++ name
  | negatedPredicate name =>
    "Negated predicates (¬" ++ name ++ ") are not allowed in bilateral mode. " ++
      "Use explicit star syntax: " ++ name ++ "*"
  | disallowed text => "Invalid syntax: " ++ text

end ParseError

/-- Why an operation has no result. -/
inductive Fault where
  /-- The text could not be read. -/
  | parse (error : ParseError)
  /-- A propositional atom without a name. -/
  | unnamedAtom
  /-- A compound without a written form. -/
  | misshapen (symbol : String) (parts : Nat)
  /-- A compound that lacks a part which an operation needs. -/
  | missingPart
  /-- An operand that an operation on truth values needs is not given. -/
  | missingOperand
  /-- An argument of a predicate is blank where its first letter decides its kind. -/
  | blankArgument
  /-- A substitution reached into the scope of a restricted quantifier. -/
  | quantifierInScope (existential : Bool)
  /-- An operation on bilateral predicates was asked of another formula. -/
  | notBilateral
  /-- A predicate's name was asked of a formula that is none. -/
  | notPredicate
  | unknownConnective (symbol : String)
  /-- A quantifier of another symbol has no truth value. -/
  | unknownQuantifier
  | unknownSign (symbol : String)
  | invalidSign (text : String)
  /-- Evidence on both sides, which an interpretation does not hold. -/
  | conflictingEvidence (predicate : String) (args : List String)
  /-- A tableau needs at least one formula to start from. -/
  | nothingToRefute
  | unknownFormat (name : String)
  /-- A sign that a statement cannot carry. -/
  | unknownStatementSign (text : String)
  /-- A statement without an id was to be renamed. -/
  | unnamedStatement
  /-- Ids of different kinds have no order. -/
  | unorderedIds
  /-- Statements cannot be numbered on from a text or a fraction. -/
  | notWhole (kind : String)
  /-- Statements cannot be numbered on from a value of this kind. -/
  | numberedBy (kind : String)
  | fileNotFound
  /-- A folder was named where a file is needed. -/
  | folderGiven
  /-- A path leads through a file as if it were a folder. -/
  | fileInPath
  /-- A null character in a text that may not hold one. -/
  | nullInText
  /-- A name that is too long for a file. -/
  | nameTooLong
  /-- There is no file to work on. -/
  | noFile
  /-- A tree was to be drawn in a format that is not given. -/
  | noFormat
  /-- A file that is no JSON document. -/
  | notJson
  /-- A field that is needed is not there. -/
  | missingField (name : String)
  /-- A value of another kind than is needed. -/
  | wrongKind
  /-- Fields were asked of a value that has none. -/
  | noFields
  /-- A value of this kind was to be used as a text. -/
  | notText (kind use : String)
  /-- A value of this kind names nothing. -/
  | notName (kind : String)
  /-- A value of this kind lists no fields. -/
  | notListing (kind : String)
  /-- The item at this position is no field. -/
  | notField (position : Nat)
  /-- The item at this position has a length other than that of a name with its value. -/
  | fieldLength (position length : Nat)
deriving DecidableEq, Repr

namespace Fault

def message : Fault -> String
  | parse error => error.message
  | unnamedAtom => "Atom name cannot be empty"
  | misshapen symbol parts =>
    "Invalid compound formula: " ++ symbol ++ " with " ++ toString parts ++ " subformulas"
  | missingPart => "list index out of range"
  | missingOperand => "tuple index out of range"
  | blankArgument => "string index out of range"
  | quantifierInScope existential =>
    (if existential then "RestrictedExistentialFormula" else "RestrictedUniversalFormula") ++
      ".__init__() takes 4 positional arguments but 5 were given"
  | notBilateral => "not a bilateral predicate"
  | notPredicate => "not a predicate"
  | unknownConnective symbol => "Unknown connective: " ++ symbol
  | unknownQuantifier => "Unknown formula type: <class 'wkrq.formula.RestrictedQuantifierFormula'>"
  | unknownSign symbol => "Unknown sign: " ++ symbol
  | invalidSign text => "Invalid sign: " ++ text ++ ". Must be t, f, e, m, n, or v."
  | conflictingEvidence predicate args =>
    "Bilateral inconsistency: " ++ predicate ++ Text.quotedTuple args ++
      " cannot be both true and false"
  | nothingToRefute => "Cannot create tableau with empty formula list"
  | unknownFormat name => "Unknown format: " ++ name
  | unknownStatementSign text => "Invalid sign '" ++ text ++ "'. Must be one of: t, f, e, m, n, v"
  | unnamedStatement => "string index out of range"
  | unorderedIds => "ids of different kinds have no order"
  | notWhole kind => "Unknown format code 'd' for object of type '" ++ kind ++ "'"
  | numberedBy kind => "unsupported format string passed to " ++ kind ++ ".__format__"
  | fileNotFound => "file not found"
  | folderGiven => "a folder is not a file"
  | fileInPath => "a file is not a folder"
  | nullInText => "embedded null byte"
  | nameTooLong => "a name is too long for a file"
  | noFile => "there is no file to work on"
  | noFormat => "'TableauTreeRenderer' object has no attribute 'render_[]'"
  | notJson => "not a JSON document"
  | missingField name => Text.quoted name
  | wrongKind => "a value of another kind is needed"
  | noFields => "a value has no fields"
  | notText kind use => "'" ++ kind ++ "' object has no attribute '" ++ use ++ "'"
  | notName kind => "unhashable type: '" ++ kind ++ "'"
  | notListing kind => "'" ++ kind ++ "' object is not iterable"
  | notField position =>
    "cannot convert dictionary update sequence element #" ++ toString position ++ " to a sequence"
  | fieldLength position length =>
    "dictionary update sequence element #" ++ toString position ++ " has length " ++
      toString length ++ "; 2 is required"

end Fault
end WeakKleene
