import WeakKleene.Calculus.Rule
import WeakKleene.Formula.Substitution

namespace WeakKleene
namespace Standard

/-!
The standard calculus.

A rule answers, for one sign and one shape of formula, which signed formulas
follow; where several are possible it splits.  Negation turns the sign around,
the joining connectives follow their truth tables, and a restricted quantifier
is instantiated with constants.
-/

/-- What a signed negation says about the negated formula. -/
def negationCases (body : Formula) : Sign -> Option (List (List Signed))
  | .t => some [[⟨.f, body⟩]]
  | .f => some [[⟨.t, body⟩]]
  | .e => some [[⟨.e, body⟩]]
  | .m => some [[⟨.f, body⟩], [⟨.t, body⟩]]
  | .n => some [[⟨.t, body⟩], [⟨.e, body⟩]]
  | .v => none

def conjunctionCases (left right : Formula) : Sign -> Option (List (List Signed))
  | .t => some [[⟨.t, left⟩, ⟨.t, right⟩]]
  | .f | .n => some [[⟨.f, left⟩], [⟨.f, right⟩], [⟨.e, left⟩, ⟨.e, right⟩]]
  | .e => some [[⟨.e, left⟩], [⟨.e, right⟩]]
  | .m => some [[⟨.t, left⟩, ⟨.t, right⟩], [⟨.f, left⟩], [⟨.f, right⟩]]
  | .v => none

def disjunctionCases (left right : Formula) : Sign -> Option (List (List Signed))
  | .t => some [[⟨.t, left⟩], [⟨.t, right⟩], [⟨.e, left⟩, ⟨.e, right⟩]]
  | .f => some [[⟨.f, left⟩, ⟨.f, right⟩]]
  | .e => some [[⟨.e, left⟩], [⟨.e, right⟩]]
  | .m => some [[⟨.t, left⟩], [⟨.t, right⟩], [⟨.f, left⟩, ⟨.f, right⟩]]
  | .n => some [[⟨.f, left⟩, ⟨.f, right⟩], [⟨.e, left⟩], [⟨.e, right⟩]]
  | .v => none

def implicationCases (left right : Formula) : Sign -> Option (List (List Signed))
  | .t => some [[⟨.f, left⟩], [⟨.t, right⟩], [⟨.e, left⟩, ⟨.e, right⟩]]
  | .f => some [[⟨.t, left⟩, ⟨.f, right⟩]]
  | .e => some [[⟨.e, left⟩], [⟨.e, right⟩]]
  | .m => some [[⟨.f, left⟩], [⟨.t, right⟩], [⟨.t, left⟩, ⟨.f, right⟩]]
  | .n => some [[⟨.t, left⟩, ⟨.f, right⟩], [⟨.e, left⟩], [⟨.e, right⟩]]
  | .v => none

def joinCases : Connective -> Formula -> Formula -> Sign -> Option (List (List Signed))
  | .conj => conjunctionCases
  | .disj => disjunctionCases
  | .imp => implicationCases

def joinKind : Connective -> String
  | .conj => "conjunction"
  | .disj => "disjunction"
  | .imp => "implication"

def negate (signed : Signed) (body : Formula) : Option Rule :=
  (negationCases body signed.sign).map fun cases => Rule.named signed "negation" cases none

def split (signed : Signed) (connective : Connective) (left right : Formula) : Option Rule :=
  (joinCases connective left right signed.sign).map fun cases =>
    Rule.named signed (joinKind connective) cases none

def negationRule (signed : Signed) : Except Fault (Option Rule) :=
  match signed.formula with
  | .neg body => .ok (negate signed body)
  | .irregular symbol parts =>
    if symbol = "~" then return negate signed (<- firstPart parts) else .ok none
  | _ => .ok none

def joinRule (connective : Connective) (signed : Signed) : Except Fault (Option Rule) :=
  match signed.formula with
  | .join found left right =>
    .ok (if found = connective then split signed connective left right else none)
  | .irregular symbol parts =>
    if symbol = connective.symbol then do
      let (left, right) <- firstTwoParts parts
      return split signed connective left right
    else .ok none
  | _ => .ok none

/-- The second new constant of a rule that needs two. -/
def arbitrary (fresh : String) : String := fresh ++ "_arb"

/-- The rule for existential formulas, with a new constant and possibly one that occurs already;
other formulas have none. -/
def existentialRule (signed : Signed) (fresh : String) (existing : Option String) :
    Except Fault (Option Rule) :=
  match signed.formula with
  | .quant .exist var restriction matrix => do
      let conclude : List (List Signed) -> Except Fault (Option Rule) := fun conclusions =>
        .ok (some (Rule.named signed "restricted-exists" conclusions none))
      let witnessed <- restriction.withConstant var fresh
      let body <- matrix.withConstant var fresh
      match signed.sign with
      | .t => conclude [[⟨.t, witnessed⟩, ⟨.t, body⟩]]
      | .f => do
          let other := existing.getD (arbitrary fresh)
          let restriction' <- restriction.withConstant var other
          let body' <- matrix.withConstant var other
          conclude [[⟨.m, witnessed⟩, ⟨.m, body⟩, ⟨.n, restriction'⟩],
            [⟨.m, witnessed⟩, ⟨.m, body⟩, ⟨.n, body'⟩]]
      | .e => conclude [[⟨.e, witnessed⟩], [⟨.e, body⟩]]
      | .m => do
          let restriction' <- restriction.withConstant var (arbitrary fresh)
          let body' <- matrix.withConstant var (arbitrary fresh)
          conclude [[⟨.t, witnessed⟩, ⟨.t, body⟩],
            [⟨.m, witnessed⟩, ⟨.m, body⟩, ⟨.n, restriction'⟩],
            [⟨.m, witnessed⟩, ⟨.m, body⟩, ⟨.n, body'⟩]]
      | .n => do
          let restriction' <- restriction.withConstant var (arbitrary fresh)
          let body' <- matrix.withConstant var (arbitrary fresh)
          conclude [[⟨.m, witnessed⟩, ⟨.m, body⟩, ⟨.n, restriction'⟩],
            [⟨.m, witnessed⟩, ⟨.m, body⟩, ⟨.n, body'⟩],
            [⟨.e, witnessed⟩], [⟨.e, body⟩]]
      | .v => return none
  | _ => .ok none

/-- What a signed universal formula says about one instance of it. -/
def universalCases (restriction matrix : Formula) : Sign -> List (List Signed)
  | .t => [[⟨.f, restriction⟩], [⟨.t, matrix⟩]]
  | .f => [[⟨.t, restriction⟩, ⟨.f, matrix⟩]]
  | .e => [[⟨.e, restriction⟩], [⟨.e, matrix⟩]]
  | .m => [[⟨.f, restriction⟩], [⟨.t, matrix⟩], [⟨.t, restriction⟩, ⟨.f, matrix⟩]]
  | .n => [[⟨.t, restriction⟩, ⟨.f, matrix⟩], [⟨.e, restriction⟩], [⟨.e, matrix⟩]]
  | .v => []

/-- The rule for universal formulas at one constant, and under n also at an additional one;
other formulas have none. -/
def universalRule (signed : Signed) (constant : String) (additional : Option String) :
    Except Fault (Option Rule) :=
  match signed.formula with
  | .quant .all var restriction matrix => do
      let restriction' <- restriction.withConstant var constant
      let matrix' <- matrix.withConstant var constant
      let here := universalCases restriction' matrix' signed.sign
      match signed.sign, additional with
      | .v, _ => return none
      | .n, some other => do
          let restriction'' <- restriction.withConstant var other
          let matrix'' <- matrix.withConstant var other
          return some (Rule.named signed "restricted-forall"
            (here ++ universalCases restriction'' matrix'' .n) (some constant))
      | _, _ => return some (Rule.named signed "restricted-forall" here (some constant))
  | _ => .ok none

/-- What the signs m and n stand for, spelled out. -/
def spelledOut (formula : Formula) : Sign -> Option (List (List Signed))
  | .m => some [[⟨.t, formula⟩], [⟨.f, formula⟩]]
  | .n => some [[⟨.f, formula⟩], [⟨.e, formula⟩]]
  | _ => none

def atomicRule (signed : Signed) : Option Rule :=
  (spelledOut signed.formula signed.sign).map fun cases =>
    Rule.named signed "atomic" cases none

/-- The rule that spells out m and n on whatever is no compound. -/
def metaRule (signed : Signed) : Option Rule :=
  if signed.formula.isCompound then none else atomicRule signed

def compoundRule (signed : Signed) : Except Fault (Option Rule) :=
  match signed.formula with
  | .neg body => .ok (negate signed body)
  | .join connective left right => .ok (split signed connective left right)
  | .irregular symbol _ =>
    if symbol = "~" then negationRule signed
    else match Connective.ofSymbol? symbol with
      | some connective => joinRule connective signed
      | none => .ok none
  | _ => .ok none

/-- The rule for a universal formula in a situation.  A counterexample is looked for only once,
with a new constant, under n also with one that occurs already. -/
def universalChoice (signed : Signed) (situation : Situation) : Except Fault (Option Rule) :=
  match signed.sign with
  | .f =>
    if situation.anyUsed then .ok none
    else universalRule signed situation.fresh none
  | .n =>
    if situation.anyUsed then .ok none
    else match situation.existing with
      | first :: _ => universalRule signed first (some situation.fresh)
      | [] => universalRule signed situation.fresh none
  | _ =>
    match situation.universalConstant? with
    | some constant => universalRule signed constant none
    | none => .ok none

/-- The rule that applies to a signed formula in a situation, if there is one. -/
def rule (signed : Signed) (situation : Situation) : Except Fault (Option Rule) :=
  match signed.formula with
  | .neg _ | .join .. | .irregular .. => compoundRule signed
  | .quant .exist .. => existentialRule signed situation.fresh situation.existing.head?
  | .quant .all .. => universalChoice signed situation
  | _ => .ok (atomicRule signed)

end Standard
end WeakKleene
