import WeakKleene.Formula.Basic

namespace WeakKleene
namespace Formula

/-!
Sameness of formulas.

Two formulas are the same when they are built alike, where a quantifier counts
by its symbol: the universal quantifier is the same as a quantifier without
rules that is written `∀`.
-/

mutual

/-- Built alike, quantifiers counting by their symbol. -/
def same : Formula -> Formula -> Bool
  | atom name, atom name' => name == name'
  | pred name args, pred name' args' => name == name' && args == args'
  | bilateral name args starName starred, bilateral name' args' starName' starred' =>
    name == name' && starName == starName' && args == args' && starred == starred'
  | neg body, neg body' => body.same body'
  | join connective left right, join connective' left' right' =>
    connective == connective' && left.same left' && right.same right'
  | quant quantifier var restriction matrix, quant quantifier' var' restriction' matrix' =>
    quantifier.symbol == quantifier'.symbol && var == var' &&
      restriction.same restriction' && matrix.same matrix'
  | irregular symbol parts, irregular symbol' parts' => symbol == symbol' && allSame parts parts'
  | _, _ => false

def allSame : List Formula -> List Formula -> Bool
  | [], [] => true
  | part :: rest, part' :: rest' => part.same part' && allSame rest rest'
  | _, _ => false

end

end Formula
end WeakKleene
