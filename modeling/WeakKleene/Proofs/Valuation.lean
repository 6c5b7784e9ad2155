import Mathlib.Algebra.Order.Ring.Nat
import WeakKleene.Calculus.Standard
import WeakKleene.Proofs.Propositional

namespace WeakKleene

/-!
# Values of signed formulas, and the rules that cover them

A valuation gives one of the three truth values to each written atom, and the
tables of the connectives extend it to every formula without quantifiers.  A
signed formula is true under a valuation when its sign stands for the value of
its formula.

A rule covers a valuation when one of its conclusions is true as a whole.  Every
rule for a negation or a joining connective covers each valuation that makes its
premise true, with one exception: the rule for a conjunction under the sign n
has no conclusion for a true part beside an undefined one.
-/

variable {valuation : String -> Truth}

namespace Formula

/-- The value of a formula when every written atom has the given value.  Quantifiers and
irregular compounds have no table and count as undefined. -/
def value (valuation : String -> Truth) : Formula -> Truth
  | atom name => valuation name
  | pred name args => valuation (application name args)
  | bilateral name args starName starred =>
    valuation (application (if starred then starName else name) args)
  | neg body => (body.value valuation).neg
  | join connective left right => connective.eval (left.value valuation) (right.value valuation)
  | quant .. | irregular .. => .e

/-- A conjunction of a true part and an undefined one. -/
def HalfTrue (valuation : String -> Truth) : Formula -> Prop
  | join .conj left right =>
    (left.value valuation = .t ∧ right.value valuation = .e) ∨
      (left.value valuation = .e ∧ right.value valuation = .t)
  | _ => False

theorem HalfTrue.value_eq {formula : Formula}
    (half : formula.HalfTrue valuation) : formula.value valuation = .e := by
  unfold HalfTrue at half
  split at half
  · rcases half with parts | parts <;>
      simp only [value, parts, Connective.eval, Truth.conj]
  · exact False.elim half

end Formula

namespace Sign

/-- A definite sign stands for exactly the value that it is named after. -/
theorem mem_truths_iff {sign : Sign} (definite : sign.definite = true) (value : Truth) :
    value ∈ sign.truths ↔ sign = ofTruth value := by
  cases sign <;> cases value <;> simp [Sign.definite, truths, ofTruth] at definite ⊢

end Sign

namespace Signed

/-- The sign stands for the value of the formula. -/
def TrueUnder (valuation : String -> Truth) (signed : Signed) : Prop :=
  signed.formula.value valuation ∈ signed.sign.truths

theorem TrueUnder.sign_eq {signed other : Signed} (holds : signed.TrueUnder valuation)
    (holds' : other.TrueUnder valuation) (definite : signed.sign.definite = true)
    (definite' : other.sign.definite = true)
    (same : signed.formula = other.formula) : signed.sign = other.sign := by
  have named := (Sign.mem_truths_iff definite _).mp holds
  have named' := (Sign.mem_truths_iff definite' _).mp holds'
  rw [named, named', same]

/-- The connectives and quantifiers that are left to take apart.  Signs that stand for several
values need one more step, which spells them out. -/
def weight (signed : Signed) : Nat :=
  signed.formula.complexity + if signed.sign.definite then 0 else 1

end Signed

namespace Standard

/-! ## The rules of the propositional fragment -/

/-- What a signed formula without quantifiers says about its parts, if anything. -/
def cases? (signed : Signed) : Option (List (List Signed)) :=
  match signed.formula with
  | .neg body => negationCases body signed.sign
  | .join connective left right => joinCases connective left right signed.sign
  | formula => spelledOut formula signed.sign

def kindOf : Formula -> String
  | .neg _ => "negation"
  | .join connective _ _ => joinKind connective
  | _ => "atomic"

variable {signed : Signed} {cases : List (List Signed)} {formula : Formula} {sign : Sign}

/-- Without quantifiers the rule does not depend on the branch, does not fail, and
instantiates nothing. -/
theorem rule_eq_cases (shape : signed.formula.Propositional) (situation : Situation) :
    rule signed situation = .ok ((cases? signed).map fun cases =>
        Rule.named signed (kindOf signed.formula) cases none) := by
  rcases signed with ⟨sign, formula⟩
  cases shape with
  | basic given => cases given; rfl
  | neg inner => rfl
  | join connective first second => rfl

/-- One of the conclusions is true as a whole, whatever the values of formulas may be. -/
def Covers (value : Formula -> Truth) (cases : List (List Signed)) : Prop :=
  ∃ conclusion, conclusion ∈ cases ∧
    forall signed, signed ∈ conclusion -> value signed.formula ∈ signed.sign.truths

section Cover

variable {value : Formula -> Truth} {sign : Sign} {cases : List (List Signed)}

/-- The rule for negations follows the table: turning the value around turns the sign around. -/
theorem negationCases_cover {body : Formula} (found : negationCases body sign = some cases)
    (holds : (value body).neg ∈ sign.truths) : Covers value cases := by
  cases sign <;> simp only [negationCases, Option.some.injEq, reduceCtorEq] at found <;>
    subst found <;>
    simp only [Covers, List.mem_cons, List.not_mem_nil, or_false, exists_eq_or_imp,
      exists_eq_left, forall_eq] <;>
    revert holds <;> cases value body <;> decide

/-- Each way to reach a value that the sign stands for is a way that some conclusion asks for.
Under n a conjunction of a true part and an undefined one has to be left out. -/
theorem joinCases_cover {connective : Connective} {left right : Formula}
    (found : joinCases connective left right sign = some cases)
    (holds : connective.eval (value left) (value right) ∈ sign.truths)
    (whole : sign = .n -> connective = .conj ->
      ¬ ((value left = .t ∧ value right = .e) ∨ (value left = .e ∧ value right = .t))) :
    Covers value cases := by
  -- Once the sign and the connective are known, only the two values are left.
  cases connective <;> cases sign <;>
    simp only [joinCases, conjunctionCases, disjunctionCases, implicationCases,
      Option.some.injEq, reduceCtorEq] at found <;>
    subst found <;>
    simp only [Covers, List.mem_cons, List.not_mem_nil, or_false, exists_eq_or_imp,
      exists_eq_left, forall_eq_or_imp, forall_eq] <;>
    revert holds whole <;> cases value left <;> cases value right <;> decide

/-- Spelling out m and n leaves nothing out. -/
theorem spelledOut_cover (found : spelledOut formula sign = some cases)
    (holds : value formula ∈ sign.truths) : Covers value cases := by
  cases sign <;> simp only [spelledOut, Option.some.injEq, reduceCtorEq] at found <;>
    subst found <;>
    simp only [Covers, List.mem_cons, List.not_mem_nil, or_false, exists_eq_or_imp,
      exists_eq_left, forall_eq] <;>
    revert holds <;> cases value formula <;> decide

end Cover

/-- The rule of a true signed formula has a conclusion that is true as a whole, unless the
formula is a half true conjunction under n. -/
theorem cases?_cover (found : cases? signed = some cases) (holds : signed.TrueUnder valuation)
    (whole : signed.sign = .n -> ¬ signed.formula.HalfTrue valuation) :
    Covers (Formula.value valuation) cases := by
  rcases signed with ⟨sign, formula⟩
  cases formula with
  | neg body => exact negationCases_cover found holds
  | join connective left right =>
    refine joinCases_cover found holds ?_
    rintro spread rfl
    exact whole spread
  | atom name | pred name args | bilateral name args starName starred
  | quant quantifier var restriction matrix | irregular symbol parts =>
    exact spelledOut_cover found holds

/-! ## What the conclusions are made of -/

/-- What a formula is taken apart into: the parts of a compound, else the formula itself. -/
def components : Formula -> List Formula
  | .neg body => [body]
  | .join _ left right => [left, right]
  | formula => [formula]

theorem components_of_isAtomic (atomic : formula.isAtomic = true) :
    components formula = [formula] := by
  cases formula with
  | atom | pred | bilateral => rfl
  | _ => cases atomic

/-- The shape of a rule's conclusions: there are one to three of them, each names components
under definite signs and at most once, and together they weigh less than the premise. -/
structure Analysis (signed : Signed) (cases : List (List Signed)) : Prop where
  nonempty : cases ≠ []
  few : cases.length ≤ 3
  definite : forall conclusion, conclusion ∈ cases -> forall part, part ∈ conclusion ->
    part.sign.definite = true
  sublist : forall conclusion, conclusion ∈ cases ->
    (conclusion.map Signed.formula).Sublist (components signed.formula)
  lighter : forall conclusion, conclusion ∈ cases ->
    (conclusion.map Signed.weight).sum < signed.weight

theorem Analysis.parts (analysis : Analysis signed cases) (conclusion : List Signed)
    (chosen : conclusion ∈ cases) (part : Signed) (member : part ∈ conclusion) :
    part.formula ∈ components signed.formula :=
  (analysis.sublist conclusion chosen).subset (List.mem_map_of_mem member)

theorem negationCases_analysis {body : Formula}
    (found : negationCases body sign = some cases) : Analysis ⟨sign, .neg body⟩ cases := by
  cases sign <;> simp only [negationCases, Option.some.injEq, reduceCtorEq] at found <;>
    subst found <;>
    refine ⟨by simp, by simp, by simp [Sign.definite], by simp [components], ?_⟩ <;>
    simp only [List.mem_cons, List.not_mem_nil, or_false, forall_eq_or_imp, forall_eq,
      List.map_cons, List.map_nil, List.sum_cons, List.sum_nil, Signed.weight, Sign.definite,
      Formula.complexity, Bool.false_eq_true, if_true, if_false] <;>
    omega

theorem joinCases_analysis {connective : Connective} {left right : Formula}
    (found : joinCases connective left right sign = some cases) :
    Analysis ⟨sign, .join connective left right⟩ cases := by
  cases connective <;> cases sign <;>
    simp only [joinCases, conjunctionCases, disjunctionCases, implicationCases,
      Option.some.injEq, reduceCtorEq] at found <;>
    subst found <;>
    refine ⟨by simp, by simp, by simp [Sign.definite], by simp [components], ?_⟩ <;>
    simp only [List.mem_cons, List.not_mem_nil, or_false, forall_eq_or_imp, forall_eq,
      List.map_cons, List.map_nil, List.sum_cons, List.sum_nil, Signed.weight, Sign.definite,
      Formula.complexity, Bool.false_eq_true, if_true, if_false] <;>
    omega

theorem spelledOut_analysis (found : spelledOut formula sign = some cases)
    (basic : components formula = [formula]) : Analysis ⟨sign, formula⟩ cases := by
  cases sign <;> simp only [spelledOut, Option.some.injEq, reduceCtorEq] at found <;>
    subst found <;> constructor <;> simp [basic, Sign.definite, Signed.weight]

/-- The shape of every rule of the propositional fragment. -/
theorem cases?_analysis (found : cases? signed = some cases) : Analysis signed cases := by
  rcases signed with ⟨sign, formula⟩
  cases formula with
  | neg body => exact negationCases_analysis found
  | join connective left right => exact joinCases_analysis found
  | atom name | pred name args | bilateral name args starName starred
  | quant quantifier var restriction matrix | irregular symbol parts =>
    exact spelledOut_analysis found rfl

theorem components_propositional (shape : formula.Propositional)
    {part : Formula} (member : part ∈ components formula) : part.Propositional := by
  cases shape with
  | basic given =>
    cases given with
    | named plain =>
      rw [List.mem_singleton.mp member]
      exact .basic (.named plain)
  | neg inner =>
    rw [List.mem_singleton.mp member]
    exact inner
  | join connective first second =>
    rcases List.mem_cons.mp member with equal | later
    · rw [equal]
      exact first
    · rw [List.mem_singleton.mp later]
      exact second

end Standard
end WeakKleene
