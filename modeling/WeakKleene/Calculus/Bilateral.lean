import WeakKleene.Calculus.Standard

namespace WeakKleene
namespace Bilateral

/-!
The bilateral calculus.

It has the rules of the standard one except for negation.  A negation is pushed
inwards instead, under the same sign, until it is absorbed by a predicate.  The
negation of an atom or of an implication stays as it is.
-/

/-- The rule that pushes a negation past the outermost structure of the negated formula. -/
def pushNegation (signed : Signed) (body : Formula) : Except Fault (Option Rule) :=
  let become : String -> Formula -> Except Fault (Option Rule) := fun kind formula =>
    .ok (some (Rule.named signed kind [[⟨signed.sign, formula⟩]] none))
  match body with
  | .neg inner => become "double-negation" inner
  | .pred name args => become "negated-predicate-to-bilateral" (.sided name args true)
  | .bilateral name args _ true => become "negated-bilateral-to-positive" (.pred name args)
  | .bilateral name args _ false => become "negated-positive-to-bilateral" (.sided name args true)
  | .join .conj left right => become "demorgan-conjunction" (.join .disj (.neg left) (.neg right))
  | .join .disj left right => become "demorgan-disjunction" (.join .conj (.neg left) (.neg right))
  | .quant .all var restriction matrix =>
    become "demorgan-universal" (.quant .exist var restriction (.neg matrix))
  | .quant .exist var restriction matrix =>
    become "demorgan-existential" (.quant .all var restriction (.neg matrix))
  | .irregular symbol parts =>
    if symbol = "~" then do
      become "double-negation" (<- firstPart parts)
    else if symbol = "&" then do
      let (left, right) <- firstTwoParts parts
      become "demorgan-conjunction" (.join .disj (.neg left) (.neg right))
    else if symbol = "|" then do
      let (left, right) <- firstTwoParts parts
      become "demorgan-disjunction" (.join .conj (.neg left) (.neg right))
    else .ok none
  | _ => .ok none

def negationRule (signed : Signed) : Except Fault (Option Rule) :=
  match signed.formula with
  | .neg body => pushNegation signed body
  | .irregular symbol parts =>
    if symbol = "~" then do pushNegation signed (<- firstPart parts) else .ok none
  | _ => .ok none

def compoundRule (signed : Signed) : Except Fault (Option Rule) :=
  match signed.formula with
  | .neg body => pushNegation signed body
  | .irregular symbol _ =>
    if symbol = "~" then negationRule signed else Standard.compoundRule signed
  | _ => Standard.compoundRule signed

/-- The rule that applies to a signed formula in a situation, if there is one. -/
def rule (signed : Signed) (situation : Situation) : Except Fault (Option Rule) :=
  match signed.formula with
  | .bilateral .. =>
    .ok ((Standard.spelledOut signed.formula signed.sign).map fun cases =>
      Rule.named signed "bilateral" cases none)
  | .neg _ | .join .. | .irregular .. => compoundRule signed
  | .quant .exist .. => Standard.existentialRule signed situation.fresh situation.existing.head?
  | .quant .all .. =>
    match situation.universalConstant? with
    | some constant => Standard.universalRule signed constant none
    | none => .ok none
  | _ => .ok (Standard.atomicRule signed)

end Bilateral
end WeakKleene
