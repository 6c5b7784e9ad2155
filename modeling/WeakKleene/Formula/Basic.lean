import WeakKleene.Sorted
import WeakKleene.Truth

namespace WeakKleene

/-!
Terms and formulas.

Formulas are built from propositional atoms and predicates by negation, the
three joining connectives and restricted quantifiers.  Two kinds stand beside
the usual ones.  A *bilateral* predicate knows the name of its denial and says
which of the two it is.  An *irregular* compound joins parts by a symbol that
is no connective, or by a connective with the wrong number of parts; it can be
built and taken apart, and most operations refuse it.
-/

/-- A named individual, or a variable for one. -/
inductive Term where
  | const (name : String)
  | var (name : String)
deriving DecidableEq, Repr

namespace Term

def name : Term -> String
  | const name => name
  | var name => name

def isConst : Term -> Bool
  | const _ => true
  | var _ => false

/-- Replace a term whose name is listed, be it a constant or a variable. -/
def replace (mapping : List (String × Term)) (term : Term) : Term :=
  (mapping.lookup term.name).getD term

/-- One name is replaced, be it a constant's or a variable's. -/
theorem replace_singleton (name : String) (other term : Term) :
    term.replace [(name, other)] = if term.name = name then other else term := by
  rw [replace, List.lookup_cons]
  by_cases same : term.name = name
  · rw [if_pos same, beq_iff_eq.mpr same]
    rfl
  · rw [if_neg same, beq_eq_false_iff_ne.mpr same]
    rfl

end Term

/-- The two restricted quantifiers, and quantifiers of other symbols that have no rules. -/
inductive Quantifier where
  | all
  | exist
  | other (symbol : String)
deriving DecidableEq, Repr

namespace Quantifier

def symbol : Quantifier -> String
  | all => "∀"
  | exist => "∃"
  | other symbol => symbol

end Quantifier

/-- A formula, possibly with free variables.

`bilateral name args starName starred` is the predicate `name` of `args`, or its denial
`starName` when `starred` holds.  In `quant q x φ ψ` the variable `x` ranges over what
satisfies `φ`.  `irregular symbol parts` is meant for the symbols and numbers of parts that
`neg` and `join` leave over; `compound` chooses among the three. -/
inductive Formula where
  | atom (name : String)
  | pred (name : String) (args : List Term)
  | bilateral (name : String) (args : List Term) (starName : String) (starred : Bool)
  | neg (body : Formula)
  | join (connective : Connective) (left right : Formula)
  | quant (quantifier : Quantifier) (var : String) (restriction matrix : Formula)
  | irregular (symbol : String) (parts : List Formula)

instance : Inhabited Formula := ⟨.atom "p"⟩

namespace Formula

/-- The denial's name when none is given. -/
def starOf (name : String) : String := name ++ "*"

/-- A name without the star at its end, if it has one. -/
def unstarred? (name : String) : Option String :=
  match name.toList.reverse with
  | '*' :: rest => some (String.ofList rest.reverse)
  | _ => none

/-- A bilateral predicate whose denial has the default name. -/
def sided (name : String) (args : List Term) (starred : Bool) : Formula :=
  bilateral name args (starOf name) starred

/-- The compound of the given parts under the given symbol. -/
def compound (symbol : String) (parts : List Formula) : Formula :=
  match parts with
  | [body] => if symbol = "~" then neg body else irregular symbol [body]
  | [left, right] =>
    match Connective.ofSymbol? symbol with
    | some connective => join connective left right
    | none => irregular symbol [left, right]
  | _ => irregular symbol parts

def symbolAndParts? : Formula -> Option (String × List Formula)
  | neg body => some ("~", [body])
  | join connective left right => some (connective.symbol, [left, right])
  | irregular symbol parts => some (symbol, parts)
  | _ => none

def isCompound : Formula -> Bool
  | neg _ | join .. | irregular .. => true
  | _ => false

/-- Whether a formula has no proper parts. -/
def isAtomic : Formula -> Bool
  | atom _ | pred .. | bilateral .. => true
  | _ => false

def predicateName? : Formula -> Option String
  | pred name _ => some name
  | bilateral name _ starName starred => some (if starred then starName else name)
  | _ => none

def arguments? : Formula -> Option (List Term)
  | pred _ args => some args
  | bilateral _ args _ _ => some args
  | _ => none

/-- A bilateral predicate's other side. -/
def dual? : Formula -> Option Formula
  | bilateral name args starName starred => some (bilateral name args starName !starred)
  | _ => none

/-- The name that both sides of a bilateral predicate share. -/
def baseName? : Formula -> Option String
  | bilateral name .. => some name
  | _ => none

/-- The two sides of a bilateral predicate as plain predicates. -/
def sides? : Formula -> Option (Formula × Formula)
  | bilateral name args starName _ => some (pred name args, pred starName args)
  | _ => none

mutual

def complexity : Formula -> Nat
  | atom _ | pred .. | bilateral .. => 0
  | neg body => 1 + body.complexity
  | join _ left right => 1 + left.complexity + right.complexity
  | quant _ _ restriction matrix => 1 + restriction.complexity + matrix.complexity
  | irregular _ parts => 1 + complexities parts

def complexities : List Formula -> Nat
  | [] => 0
  | part :: rest => part.complexity + complexities rest

end

mutual

/-- The names of all constants that occur, in order of occurrence and with repetitions. -/
def constants : Formula -> List String
  | atom _ => []
  | pred _ args | bilateral _ args _ _ => (args.filter Term.isConst).map Term.name
  | neg body => body.constants
  | join _ left right => left.constants ++ right.constants
  | quant _ _ restriction matrix => restriction.constants ++ matrix.constants
  | irregular _ parts => constantsOf parts

def constantsOf : List Formula -> List String
  | [] => []
  | part :: rest => part.constants ++ constantsOf rest

end

end Formula
end WeakKleene
