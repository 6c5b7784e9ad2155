import WeakKleene.Evidence
import WeakKleene.Fault
import WeakKleene.Sorted

namespace WeakKleene

/-!
Interpretations, and the truth value of a formula under one.

An interpretation gives truth values to atoms and evidence to predicates of
named individuals.  It never holds evidence for and against at once.  Formulas
are evaluated as they stand: a quantifier looks whether there are individuals
at all, and then at the values of its restriction and matrix.
-/

/-- The value of an operation asked for by its spelling. -/
def Operation.apply (spelling : String) (operands : List Truth) : Except Fault Truth :=
  match Operation.ofSpelling? spelling with
  | none => .error (.unknownConnective spelling)
  | some operation =>
    match operation.eval? operands with
    | some value => .ok value
    | none => .error .missingOperand

/-- Values of atoms, evidence on predicates, and the individuals they are about. -/
structure Interpretation where
  atoms : List (String × Truth)
  evidence : List ((String × List String) × Evidence)
  domain : List String

namespace Interpretation

def empty : Interpretation := ⟨[], [], []⟩

/-- Give a value to an atom, in place of any earlier one. -/
def assign (interpretation : Interpretation) (atom : String) (value : Truth) : Interpretation :=
  { interpretation with
    atoms := (atom, value) :: interpretation.atoms.filter fun entry => entry.1 != atom }

/-- Set the evidence on a predicate of individuals, unless it is for and against at once. -/
def record (interpretation : Interpretation) (predicate : String) (args : List String)
    (evidence : Evidence) : Except Fault Interpretation :=
  if evidence.glut then .error (.conflictingEvidence predicate args)
  else .ok { interpretation with
    evidence := ((predicate, args), evidence) :: interpretation.evidence
    domain := Sorted.insertAll args interpretation.domain }

/-- The evidence on a predicate of individuals; a gap if none was recorded. -/
def evidenceOn (interpretation : Interpretation) (predicate : String) (args : List String) :
    Evidence :=
  (interpretation.evidence.lookup (predicate, args)).getD ⟨.f, .f⟩

/-- The value of an atom; undefined if it was not given one. -/
def valueOf (interpretation : Interpretation) (atom : String) : Truth :=
  (interpretation.atoms.lookup atom).getD .e

/-- The value of a predicate.  A starred name is the denial of the name without the star. -/
def predicateValue (interpretation : Interpretation) (name : String) (args : List Term) : Truth :=
  let args := args.map Term.name
  match Formula.unstarred? name with
  | some base => (interpretation.evidenceOn base args).negative
  | none => (interpretation.evidenceOn name args).positive

/-- The value of a quantified formula from those of its restriction and matrix, when there are
individuals. -/
def quantified : Quantifier -> Truth -> Truth -> Truth
  | .all, .t, .f => .f
  | .all, .e, _ => .e
  | .all, _, .e => .e
  | .all, _, _ => .t
  | _, .t, .t => .t
  | _, _, _ => .f

mutual

def eval (interpretation : Interpretation) : Formula -> Except Fault Truth
  | .atom name => .ok (interpretation.valueOf name)
  | .pred name args => .ok (interpretation.predicateValue name args)
  | .bilateral name args _ starred =>
    let evidence := interpretation.evidenceOn name (args.map Term.name)
    .ok (if starred then evidence.negative else evidence.positive)
  | .neg body => do return (<- interpretation.eval body).neg
  | .join connective left right => do
      let leftValue <- interpretation.eval left
      let rightValue <- interpretation.eval right
      return connective.eval leftValue rightValue
  | .quant (.other _) _ _ _ => .error .unknownQuantifier
  | .quant quantifier _ restriction matrix => do
      if interpretation.domain.isEmpty then
        return if quantifier == .all then .t else .f
      let restrictionValue <- interpretation.eval restriction
      let matrixValue <- interpretation.eval matrix
      return quantified quantifier restrictionValue matrixValue
  | .irregular symbol parts =>
    if symbol == "~" then do
      match <- interpretation.evalFirst 1 parts with
      | [value] => return value.neg
      | _ => .error .missingPart
    else
      match Connective.ofSymbol? symbol with
      | none => .error (.unknownConnective symbol)
      | some connective => do
          match <- interpretation.evalFirst 2 parts with
          | [left, right] => return connective.eval left right
          | _ => .error .missingPart

/-- The truth values of the first few formulas of a list. -/
def evalFirst (interpretation : Interpretation) : Nat -> List Formula -> Except Fault (List Truth)
  | 0, _ => .ok []
  | _ + 1, [] => .error .missingPart
  | count + 1, part :: rest => do
      let value <- interpretation.eval part
      return value :: (<- interpretation.evalFirst count rest)

end

end Interpretation
end WeakKleene
