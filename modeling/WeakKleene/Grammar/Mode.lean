import WeakKleene.Fault
import WeakKleene.Text.Blank

namespace WeakKleene
namespace Grammar

/-!
The three ways to write the denial of a predicate: by negating it, by starring
its name, or by either.
-/

/-- Which of the two ways of denial are allowed: negation only, star only, or both. -/
inductive Mode where
  | transparent
  | bilateral
  | mixed
deriving DecidableEq, Repr

namespace Mode

def ofName? : String -> Option Mode
  | "transparent" => some transparent
  | "bilateral" => some bilateral
  | "mixed" => some mixed
  | _ => none

def name : Mode -> String
  | transparent => "transparent"
  | bilateral => "bilateral"
  | mixed => "mixed"

def allowsStar : Mode -> Bool
  | transparent => false
  | _ => true

def allowsNegatedPredicate : Mode -> Bool
  | bilateral => false
  | _ => true

/-- A denial without its negation signs and without the arguments of the predicate. -/
def deniedName (attempt : List Char) : List Char :=
  (Text.trim (attempt.filter fun c => c != '¬' && c != '~')).takeWhile (· != '(')

def refusal (mode : Mode) (attempt : String) : ParseError :=
  let chars := attempt.toList
  match mode with
  | transparent => if chars.contains '*' then .starNotAllowed else .disallowed attempt
  | bilateral =>
    if chars.contains '¬' || chars.contains '~' then
      .negationNotAllowed (String.ofList (deniedName chars))
    else .disallowed attempt
  | mixed => .disallowed attempt

/-- The denial of a predicate that was written with a negation. -/
def denial (mode : Mode) (name : String) (args : List Term) : Except ParseError Formula :=
  match mode with
  | bilateral => .error (.negatedPredicate name)
  | _ => .ok (.sided name args true)

end Mode
end Grammar
end WeakKleene
