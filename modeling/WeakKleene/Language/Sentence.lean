import WeakKleene.Language.Singular
import WeakKleene.Text.Blank
import WeakKleene.Text.Replace

namespace WeakKleene
namespace Language

/-!
Simple English sentences as formulas.

A sentence is a sequence of words with single spaces between them, and its
form is known by the words that stand at fixed places.  The first of the forms
below that fits decides.  Predicates are then put into the singular and get a
capital letter.
-/

/-- The words of a text that consists of words with single spaces between them. -/
def wordsOf? (text : List Char) : Option (List String) :=
  let pieces := text.splitOn ' '
  if pieces.all fun piece => !piece.isEmpty && piece.all Text.isWordChar then
    some (pieces.map String.ofList)
  else none

/-- What stands before a final "s", if something does. -/
def stem? (word : String) : Option String :=
  match word.toList.reverse with
  | 's' :: c :: rest => some (String.ofList (c :: rest).reverse)
  | _ => none

def unary (predicate subject : String) : String := predicate ++ "(" ++ subject ++ ")"

/-- Every individual of the first kind is of the second. -/
def universal (kind other : String) : String :=
  "[forall X " ++ unary kind "X" ++ "]" ++ unary other "X"

/-- Some individual of the first kind is of the second. -/
def existential (kind other : String) : String :=
  "[exists X " ++ unary kind "X" ++ "]" ++ unary other "X"

/-- A sentence about all or some of a plural kind.  The other kind loses its final "s" too, if it
has one. -/
def plural? (quantified : String -> String -> String) (kinds others : String) : Option String :=
  (stem? kinds).map fun kind => quantified kind ((stem? others).getD others)

/-- A sentence that says of a subject what it is or is not. -/
def copular? : List String -> Option String
  | [subject, "is", "not", "a", kind] => some ("~" ++ unary kind subject)
  | [subject, "is", "not", quality] => some ("~" ++ unary quality subject)
  | [subject, "is", "a", kind] => some (unary kind subject)
  | [subject, "is", quality] => some (unary quality subject)
  | _ => none

/-- A condition, or a sentence about all or some of a kind. -/
def general? : List String -> Option String
  | ["if", subject, "is", "a", kind, "then", other, "is", "a", consequence] =>
    some (unary kind subject ++ " -> " ++ unary consequence other)
  | ["all", kinds, "are", others] => plural? universal kinds others
  | ["every", kind, "can", ability] => some (universal kind ability)
  | ["every", kind, "is", "a", other] => some (universal kind other)
  | ["some", kinds, "are", others] => plural? existential kinds others
  | ["some", kind, "is", "a", other] => some (existential kind other)
  | ["there", "exists", "a", kind, "that", "is", "a", other] => some (existential kind other)
  | _ => none

/-- Two things that are said of one subject, or a relation. -/
def joint? : List String -> Option String
  | [subject, "is", "a", kind, "and", "a", other] =>
    some (unary kind subject ++ " & " ++ unary other subject)
  | [subject, "is", "a", kind, "or", "a", other] =>
    some (unary kind subject ++ " | " ++ unary other subject)
  | [subject, relation, object] => some (unary relation (subject ++ ", " ++ object))
  | _ => none

/-- A sentence by its form, with predicates as they are written in the sentence. -/
def form? (words : List String) : Option String :=
  (copular? words).or ((general? words).or (joint? words))

/-- Whether a character is a small letter of the Latin alphabet. -/
def isSmall (c : Char) : Bool := 'a' <= c && c <= 'z'

/-- A word in front of an argument list, if it starts with a small letter, in the singular and
with a capital. -/
def predicateWord (word : List Char) (next : Option Char) : List Char :=
  if next == some '(' && (word.head?.map isSmall).getD false then
    match singular word with
    | first :: rest => first.toUpper :: rest
    | [] => []
  else word

/-- The single letter x as a variable. -/
def variableWord (word : List Char) (_ : Option Char) : List Char :=
  if word == ['x'] then ['X'] else word

/-- A formula with its predicates in the singular and with capitals, and with a capital letter
for the variable x. -/
def capitalized (formula : String) : String :=
  let named := Text.mapWords predicateWord formula.toList
  let varied := Text.mapWords variableWord named
  let universal := Text.replaceAll "[forall x".toList "[forall X".toList varied
  String.ofList (Text.replaceAll "[exists x".toList "[exists X".toList universal)

/-- The formula of a sentence, if its form is known. -/
def formula? (sentence : String) : Option String := do
  let words <- wordsOf? (Text.trim (Text.lower sentence.toList))
  return capitalized (<- form? words)

end Language
end WeakKleene
