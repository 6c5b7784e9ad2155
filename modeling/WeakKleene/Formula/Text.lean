import WeakKleene.Formula.Basic

namespace WeakKleene
namespace Formula

/-!
The written form of a formula.

Parts that are compounds themselves stand in parentheses, so that the structure
can be read off without knowing which connective binds stronger.  An irregular
compound has a written form only when it has two parts: `text` gives some text
for every formula, and `misshapen?` finds the compound for which it means
nothing.
-/

/-- A name, followed by its arguments if there are any. -/
def application (name : String) (args : List Term) : String :=
  if args.isEmpty then name
  else name ++ "(" ++ String.intercalate ", " (args.map Term.name) ++ ")"

/-- A part as it stands inside a compound. -/
def enclose (inParentheses : Bool) (text : String) : String :=
  if inParentheses then "(" ++ text ++ ")" else text

mutual

def text : Formula -> String
  | atom name => name
  | pred name args => application name args
  | bilateral name args starName starred => application (if starred then starName else name) args
  | neg body => "~" ++ enclose body.isCompound body.text
  | join connective left right =>
    enclose left.isCompound left.text ++ " " ++ connective.symbol ++ " " ++
      enclose right.isCompound right.text
  | quant quantifier var restriction matrix =>
    "[" ++ quantifier.symbol ++ var ++ " " ++ restriction.text ++ "]" ++ matrix.text
  | irregular symbol parts => String.intercalate (" " ++ symbol ++ " ") (partTexts parts)

def partTexts : List Formula -> List String
  | [] => []
  | part :: rest => enclose part.isCompound part.text :: partTexts rest

end

mutual

/-- The first compound, from the outside in and from left to right, that has no written form:
its symbol and its number of parts. -/
def misshapen? : Formula -> Option (String × Nat)
  | atom _ | pred .. | bilateral .. => none
  | neg body => body.misshapen?
  | join _ left right => left.misshapen?.or right.misshapen?
  | quant _ _ restriction matrix => restriction.misshapen?.or matrix.misshapen?
  | irregular symbol parts =>
    if parts.length = 2 then misshapenAmong? parts else some (symbol, parts.length)

def misshapenAmong? : List Formula -> Option (String × Nat)
  | [] => none
  | part :: rest => part.misshapen?.or (misshapenAmong? rest)

end

mutual

/-- The written forms of the atomic parts without variables, in order of occurrence. -/
def groundAtoms : Formula -> List String
  | atom name => [name]
  | pred name args => if args.all Term.isConst then [application name args] else []
  | bilateral name args starName starred =>
    if args.all Term.isConst then [application (if starred then starName else name) args] else []
  | neg body => body.groundAtoms
  | join _ left right => left.groundAtoms ++ right.groundAtoms
  | quant _ _ restriction matrix => restriction.groundAtoms ++ matrix.groundAtoms
  | irregular _ parts => groundAtomsOf parts

def groundAtomsOf : List Formula -> List String
  | [] => []
  | part :: rest => part.groundAtoms ++ groundAtomsOf rest

end

def atoms (formula : Formula) : List String := Sorted.ofList formula.groundAtoms

end Formula
end WeakKleene
