import WeakKleene.Formula.Substitution

namespace WeakKleene
namespace Formula

/-!
The bilateral form of a formula.

Negations are pushed inwards by double negation and the laws of duality until
they are absorbed by a predicate, whose denial then stands in its place.  The
negation of a propositional atom, or of a quantifier without rules, stays.
-/

mutual

/-- The bilateral form.  It is missing when a negation or a dual law needs a part that an
irregular compound does not have. -/
def bilateralForm : Formula -> Except Fault Formula
  | atom name => .ok (atom name)
  | pred name args => .ok (pred name args)
  | bilateral name args starName starred => .ok (bilateral name args starName starred)
  | neg body => return (<- body.denialForm?).getD (neg body)
  | join connective left right =>
    return join connective (<- left.bilateralForm) (<- right.bilateralForm)
  | quant (.other symbol) var restriction matrix =>
    .ok (quant (.other symbol) var restriction matrix)
  | quant .all var restriction matrix =>
    return quant .all var (<- restriction.bilateralForm) (<- matrix.bilateralForm)
  | quant .exist var restriction matrix =>
    return quant .exist var (<- restriction.bilateralForm) (<- matrix.bilateralForm)
  | irregular symbol parts =>
    if symbol = "~" then
      match parts with
      | [] => .error .missingPart
      | body :: rest => return (<- body.denialForm?).getD (irregular symbol (body :: rest))
    else return irregular symbol (<- bilateralForms parts)

/-- The bilateral form of a formula's negation, if the negation can be pushed inwards. -/
def denialForm? : Formula -> Except Fault (Option Formula)
  | atom _ => .ok none
  | pred name args => .ok (some (sided name args true))
  | bilateral name args starName starred =>
    .ok (some (sided (if starred then starName else name) args true))
  | neg body => return some (<- body.bilateralForm)
  | join .conj left right =>
    return some (join .disj ((<- left.denialForm?).getD (neg left))
      ((<- right.denialForm?).getD (neg right)))
  | join .disj left right =>
    return some (join .conj ((<- left.denialForm?).getD (neg left))
      ((<- right.denialForm?).getD (neg right)))
  | join .imp left right =>
    return some (join .conj (<- left.bilateralForm) ((<- right.denialForm?).getD (neg right)))
  | quant .all var restriction matrix =>
    return some (quant .exist var (<- restriction.bilateralForm)
      ((<- matrix.denialForm?).getD (neg matrix)))
  | quant .exist var restriction matrix =>
    return some (quant .all var (<- restriction.bilateralForm)
      ((<- matrix.denialForm?).getD (neg matrix)))
  | quant (.other _) _ _ _ => .ok none
  | irregular symbol parts =>
    match symbol, parts with
    | "~", [] => .error .missingPart
    | "~", body :: _ => return some (<- body.bilateralForm)
    | "&", left :: right :: _ =>
      return some (join .disj ((<- left.denialForm?).getD (neg left))
        ((<- right.denialForm?).getD (neg right)))
    | "|", left :: right :: _ =>
      return some (join .conj ((<- left.denialForm?).getD (neg left))
        ((<- right.denialForm?).getD (neg right)))
    | "->", left :: right :: _ =>
      return some (join .conj (<- left.bilateralForm) ((<- right.denialForm?).getD (neg right)))
    | "&", _ | "|", _ | "->", _ => .error .missingPart
    | _, _ => .ok none

def bilateralForms : List Formula -> Except Fault (List Formula)
  | [] => .ok []
  | part :: rest => return (<- part.bilateralForm) :: (<- bilateralForms rest)

end

/-- Whether two formulas have bilateral forms that are written alike. -/
def equivalent (left right : Formula) : Bool :=
  match left.bilateralForm, right.bilateralForm with
  | .ok left, .ok right => left.text == right.text
  | _, _ => false

/-- Why the bilateral form of a formula cannot be written, if so. -/
def formFault? (formula : Formula) : Option Fault :=
  match formula.bilateralForm with
  | .error fault => some fault
  | .ok form => form.misshapen?.map fun (symbol, parts) => .misshapen symbol parts

end Formula
end WeakKleene
