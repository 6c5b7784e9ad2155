namespace WeakKleene

/-!
The three truth values of weak Kleene logic and its connectives.

The undefined value is infectious: a compound is undefined as soon as one of
its parts is, whatever the other part may be.  On the two classical values the
connectives are the classical ones.
-/

/-- True, false, or undefined. -/
inductive Truth where
  | t
  | f
  | e
deriving DecidableEq, Repr, Inhabited

namespace Truth

def letter : Truth -> String
  | t => "t"
  | f => "f"
  | e => "e"

def name : Truth -> String
  | t => "true"
  | f => "false"
  | e => "undefined"

def describe (value : Truth) : String := "TruthValue(" ++ value.letter ++ ", " ++ value.name ++ ")"

def ofLetter? : String -> Option Truth
  | "t" => some t
  | "f" => some f
  | "e" => some e
  | _ => none

/-- Only truth itself is preserved by inferences. -/
def designated (value : Truth) : Bool := value == t

def neg : Truth -> Truth
  | t => f
  | f => t
  | e => e

def conj : Truth -> Truth -> Truth
  | e, _ => e
  | _, e => e
  | t, t => t
  | _, _ => f

def disj : Truth -> Truth -> Truth
  | e, _ => e
  | _, e => e
  | f, f => f
  | _, _ => t

def imp : Truth -> Truth -> Truth
  | e, _ => e
  | _, e => e
  | t, f => f
  | _, _ => t

end Truth

inductive Connective where
  | conj
  | disj
  | imp
deriving DecidableEq, Repr

namespace Connective

def symbol : Connective -> String
  | conj => "&"
  | disj => "|"
  | imp => "->"

def ofSymbol? : String -> Option Connective
  | "&" => some conj
  | "|" => some disj
  | "->" => some imp
  | _ => none

def eval : Connective -> Truth -> Truth -> Truth
  | conj => Truth.conj
  | disj => Truth.disj
  | imp => Truth.imp

end Connective

/-- What can be computed from truth values alone: a negation or a joining connective. -/
inductive Operation where
  | neg
  | join (connective : Connective)
deriving DecidableEq, Repr

namespace Operation

/-- The rows of the negation's truth table. -/
def negationTable : List (Truth × Truth) := [(.t, .f), (.e, .e), (.f, .t)]

/-- The rows of a joining connective's truth table, by the values of the left and the right
operand. -/
def joinTable : Connective -> List ((Truth × Truth) × Truth)
  | .conj => [
    ((.t, .t), .t), ((.t, .e), .e), ((.t, .f), .f),
    ((.e, .t), .e), ((.e, .e), .e), ((.e, .f), .e),
    ((.f, .t), .f), ((.f, .e), .e), ((.f, .f), .f)]
  | .disj => [
    ((.t, .t), .t), ((.t, .e), .e), ((.t, .f), .t),
    ((.e, .t), .e), ((.e, .e), .e), ((.e, .f), .e),
    ((.f, .t), .t), ((.f, .e), .e), ((.f, .f), .f)]
  | .imp => [
    ((.t, .t), .t), ((.t, .e), .e), ((.t, .f), .f),
    ((.e, .t), .e), ((.e, .e), .e), ((.e, .f), .e),
    ((.f, .t), .t), ((.f, .e), .e), ((.f, .f), .t)]

/-- Every spelling under which an operation may be asked for. -/
def ofSpelling? : String -> Option Operation
  | "&" | "'" | "∧" => some (join .conj)
  | "|" | "(" | "∨" => some (join .disj)
  | "~" | "¬" => some neg
  | "->" | "→" => some (join .imp)
  | _ => none

/-- The value of an operation on a list of operands, of which it reads as many as it needs, by its
truth table.  There is none when operands are missing. -/
def eval? : Operation -> List Truth -> Option Truth
  | neg, value :: _ => negationTable.lookup value
  | join connective, left :: right :: _ => (joinTable connective).lookup (left, right)
  | _, _ => none

end Operation

/-- Every way to give one of the three values to each of the atoms, in the order e, f, t with
the first atom varying slowest. -/
def valuations : List String -> List (List (String × Truth))
  | [] => [[]]
  | atom :: rest =>
    [Truth.e, Truth.f, Truth.t].flatMap fun value =>
      (valuations rest).map fun row => (atom, value) :: row

end WeakKleene
