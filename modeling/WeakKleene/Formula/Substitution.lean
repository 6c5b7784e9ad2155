import WeakKleene.Fault
import WeakKleene.Formula.Text

namespace WeakKleene
namespace Formula

/-!
Putting formulas for atoms and terms for terms.

Both substitutions leave a quantifier's own variable alone.  Neither reaches
into a restricted universal or existential formula: such a formula inside the
one substituted into is a fault, also when nothing in it would change.
-/

/-- The atom of a name, which must not be empty. -/
def named (name : String) : Except Fault Formula :=
  if name.isEmpty then .error .unnamedAtom else .ok (.atom name)

/-- The outcome of rebuilding a quantifier from its substituted parts. -/
def requantify (quantifier : Quantifier) (var : String) (restriction matrix : Formula) :
    Except Fault Formula :=
  match quantifier with
  | .all => .error (.quantifierInScope false)
  | .exist => .error (.quantifierInScope true)
  | .other symbol => .ok (quant (.other symbol) var restriction matrix)

mutual

/-- Put formulas for atoms, which are named by their written form. -/
def substitute (mapping : List (String × Formula)) : Formula -> Except Fault Formula
  | atom name => .ok ((mapping.lookup name).getD (atom name))
  | pred name args => .ok ((mapping.lookup (application name args)).getD (pred name args))
  | bilateral name args starName starred =>
    .ok ((mapping.lookup (application (if starred then starName else name) args)).getD
      (bilateral name args starName starred))
  | neg body => return neg (<- body.substitute mapping)
  | join connective left right =>
    return join connective (<- left.substitute mapping) (<- right.substitute mapping)
  | quant quantifier var restriction matrix => do
      let kept := mapping.filter (fun entry => entry.1 != var)
      requantify quantifier var (<- restriction.substitute kept) (<- matrix.substitute kept)
  | irregular symbol parts => return irregular symbol (<- substituteAll mapping parts)

def substituteAll (mapping : List (String × Formula)) : List Formula -> Except Fault (List Formula)
  | [] => .ok []
  | part :: rest => return (<- part.substitute mapping) :: (<- substituteAll mapping rest)

end

mutual

/-- Put terms for terms, by name. -/
def instantiate (mapping : List (String × Term)) : Formula -> Except Fault Formula
  | atom name => .ok (atom name)
  | pred name args => .ok (pred name (args.map (Term.replace mapping)))
  | bilateral name args starName starred =>
    .ok (bilateral name (args.map (Term.replace mapping)) starName starred)
  | neg body => return neg (<- body.instantiate mapping)
  | join connective left right =>
    return join connective (<- left.instantiate mapping) (<- right.instantiate mapping)
  | quant quantifier var restriction matrix => do
      let kept := mapping.filter (fun entry => entry.1 != var)
      requantify quantifier var (<- restriction.instantiate kept) (<- matrix.instantiate kept)
  | irregular symbol parts => return irregular symbol (<- instantiateAll mapping parts)

def instantiateAll (mapping : List (String × Term)) : List Formula -> Except Fault (List Formula)
  | [] => .ok []
  | part :: rest => return (<- part.instantiate mapping) :: (<- instantiateAll mapping rest)

end

def withConstant (formula : Formula) (var constant : String) : Except Fault Formula :=
  formula.instantiate [(var, .const constant)]

def print (formula : Formula) : Except Fault String :=
  match formula.misshapen? with
  | some (symbol, parts) => .error (.misshapen symbol parts)
  | none => .ok formula.text

end Formula
end WeakKleene
