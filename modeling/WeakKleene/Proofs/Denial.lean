import WeakKleene.Proofs.FlatQuantifiers

namespace WeakKleene

/-!
# Denials and the verdicts of the bilateral calculus

In the bilateral calculus a negation is not evaluated.  It is pushed inwards
until a predicate absorbs it, and the denied predicate has a value of its own.
Two separate procedures do so.  The rules push one negation at a time on a
branch, and the bilateral form, by which branches close, pushes all of them at
once.

The two agree with one exception.  The rules take the denial of a denied
predicate back to the predicate, where the form has a denial of the denial.  So
a valuation is kept by the rules if it does not tell these two apart wherever
they occur, and closed tableaux refute all such valuations.  Where only plain
predicates occur there is nothing to tell apart.
-/

namespace Formula

/-! ## The bilateral form without quantifiers -/

/-- The bilateral form of a formula without quantifiers, or of its negation. -/
def sideForm : Bool -> Formula -> Formula
  | denied, neg body => sideForm (!denied) body
  | false, join connective left right =>
    join connective (sideForm false left) (sideForm false right)
  | true, join .conj left right => join .disj (sideForm true left) (sideForm true right)
  | true, join .disj left right => join .conj (sideForm true left) (sideForm true right)
  | true, join .imp left right => join .conj (sideForm false left) (sideForm true right)
  | true, pred name args => sided name args true
  | true, bilateral name args starName starred =>
    sided (if starred then starName else name) args true
  | true, formula => neg formula
  | false, formula => formula

variable {formula : Formula}

/-- Without quantifiers every formula has a bilateral form, and so has its negation. -/
theorem bilateralForm_eq (free : formula.QuantifierFree) :
    formula.bilateralForm = .ok (formula.sideForm false) ∧
      ∃ denial, formula.denialForm? = .ok denial ∧
        denial.getD (neg formula) = formula.sideForm true := by
  induction free with
  | @basic formula given =>
    cases formula with
    | atom name => exact ⟨rfl, none, rfl, rfl⟩
    | pred name args => exact ⟨rfl, some _, rfl, rfl⟩
    | bilateral name args starName starred => exact ⟨rfl, some _, rfl, rfl⟩
    | _ => cases given
  | @neg body inner ih =>
    rcases ih with ⟨form, denial, denied, turned⟩
    constructor
    · rw [bilateralForm, denied]
      exact congrArg Except.ok turned
    · rw [denialForm?, form]
      exact ⟨some _, rfl, rfl⟩
  | @join left right connective first second atFirst atSecond =>
    rcases atFirst with ⟨leftForm, leftDenial, leftDenied, leftTurned⟩
    rcases atSecond with ⟨rightForm, rightDenial, rightDenied, rightTurned⟩
    constructor
    · rw [bilateralForm, leftForm, rightForm]
      rfl
    · cases connective with
      | conj | disj =>
        rw [denialForm?, leftDenied, rightDenied]
        refine ⟨some _, rfl, ?_⟩
        rw [leftTurned, rightTurned]
        rfl
      | imp =>
        rw [denialForm?, leftForm, rightDenied]
        refine ⟨some _, rfl, ?_⟩
        rw [rightTurned]
        rfl

/-- Without quantifiers only negations and compounds have parts. -/
theorem BuiltFrom.symbolAndParts?_cases (free : formula.QuantifierFree) {symbol : String}
    {parts : List Formula} (shape : formula.symbolAndParts? = some (symbol, parts)) :
    (∃ body, formula = .neg body ∧ symbol = "~" ∧ parts = [body]) ∨
      ∃ connective left right, formula = .join connective left right ∧
        symbol = connective.symbol ∧ parts = [left, right] := by
  cases free with
  | basic given => cases formula <;> cases given <;> cases shape
  | neg =>
    cases shape
    exact .inl ⟨_, rfl, rfl, rfl⟩
  | join =>
    cases shape
    exact .inr ⟨_, _, _, rfl, rfl, rfl⟩

theorem BuiltFrom.sideForm {basic other : Formula -> Prop} (shape : BuiltFrom basic formula)
    (sides : forall formula, basic formula -> forall denied,
      BuiltFrom other (formula.sideForm denied)) (denied : Bool) :
    BuiltFrom other (formula.sideForm denied) := by
  induction shape generalizing denied with
  | basic given => exact sides _ given denied
  | neg inner ih => exact ih (!denied)
  | join connective first second atFirst atSecond =>
    cases denied with
    | false => exact .join connective (atFirst false) (atSecond false)
    | true =>
      cases connective with
      | conj | disj => exact .join _ (atFirst true) (atSecond true)
      | imp => exact .join .conj (atFirst false) (atSecond true)

theorem value_of_isAtomic (atomic : formula.isAtomic = true)
    (valuation : String -> Truth) : formula.value valuation = valuation formula.text := by
  cases formula with
  | atom name => rfl
  | pred name args => rfl
  | bilateral name args starName starred => rfl
  | _ => cases atomic

/-- Formulas of the same structure over atomic parts that are written alike have the same
value. -/
theorem Alike.value_eq {other : Formula} (alike : Alike formula other)
    (valuation : String -> Truth) : formula.value valuation = other.value valuation := by
  induction alike with
  | basic atomic atomic' same => rw [value_of_isAtomic atomic, value_of_isAtomic atomic', same]
  | neg inner ih => simp only [value, ih]
  | join connective first second atFirst atSecond => simp only [value, atFirst, atSecond]

/-- Wherever the denial of a predicate is denied, the predicate can be told from its text and
the valuation gives it the value of that double denial.  The flag tells whether the formula itself
is denied. -/
def Cancels (valuation : String -> Truth) : Bool -> Formula -> Prop
  | denied, neg body => Cancels valuation (!denied) body
  | denied, join .imp left right => Cancels valuation false left ∧ Cancels valuation denied right
  | denied, join _ left right => Cancels valuation denied left ∧ Cancels valuation denied right
  | true, bilateral name args starName true =>
    Distinct (pred name args) ∧
      valuation (application (starOf starName) args) = valuation (application name args)
  | _, _ => True

/-- An atomic formula that can be told from its text, and so can its denial. -/
structure Telling (formula : Formula) : Prop where
  atomic : formula.isAtomic = true
  sides : forall denied, BuiltFrom Distinct (formula.sideForm denied)

/-- A name without blanks, parentheses, stars and negation signs. -/
def Identifier (name : String) : Prop :=
  name ≠ "" ∧ forall c, c ∈ name.toList -> c ∉ [' ', ')', '(', '*', '~']

instance (name : String) : Decidable (Identifier name) :=
  @instDecidableAnd _ _ inferInstance
    (List.decidableBAll (fun c => c ∉ [' ', ')', '(', '*', '~']) name.toList)

section Atomic

variable {name : String} {args : List Term} {front : List Char}

theorem toList_starOf {count : Nat} (written : name.toList = front ++ List.replicate count '*') :
    (starOf name).toList = front ++ List.replicate (count + 1) '*' := by
  rw [List.replicate_succ', <- List.append_assoc, <- written]
  simp [starOf]

/-- The denial of a predicate can be told from its text, however often it is starred. -/
theorem distinct_denial (count : Nat) (starrable : Starrable front)
    (written : name.toList = front ++ List.replicate count '*')
    (terms : forall term, term ∈ args -> ')' ∉ term.name.toList) :
    Distinct (.sided name args true) := by
  refine ⟨rfl, ?_⟩
  refine starrable.legible (toList_starOf written) ?_ ?_
  · intro c member
    rw [List.eq_of_mem_replicate member]
    decide
  · intro term listed c member
    refine decide_eq_true ?_
    rintro rfl
    exact terms term listed member

theorem telling_denial (count : Nat) (starrable : Starrable front)
    (written : name.toList = front ++ List.replicate count '*')
    (terms : forall term, term ∈ args -> ')' ∉ term.name.toList) :
    Telling (.sided name args true) := by
  refine ⟨rfl, fun denied => .basic ?_⟩
  cases denied with
  | false => exact distinct_denial count starrable written terms
  | true => exact distinct_denial (count + 1) starrable (toList_starOf written) terms

/-- A predicate that is not starred can be told from its text, and so can its denial. -/
theorem telling_predicate (identifier : Identifier name)
    (terms : forall term, term ∈ args -> forall c, c ∈ term.name.toList -> c ≠ ')' ∧ c ≠ '*') :
    Telling (.pred name args) ∧ Telling (.sided name args false) := by
  have affirmed : Legible (application name args).toList := by
    refine legible_application identifier.1 identifier.2 fun term listed c member => ?_
    have excluded := terms term listed c member
    simp [Zone.keeps, excluded]
  have unstarred : name.toList = name.toList ++ List.replicate 0 '*' := by simp
  have denied := distinct_denial 0 (starrable_name identifier.2) unstarred
    fun term listed member => (terms term listed _ member).1 rfl
  constructor
  · refine ⟨rfl, fun turned => .basic ?_⟩
    cases turned with
    | false => exact ⟨rfl, affirmed⟩
    | true => exact denied
  · refine ⟨rfl, fun turned => .basic ?_⟩
    cases turned with
    | false => exact ⟨rfl, affirmed⟩
    | true => exact denied

theorem telling_atom (legible : Legible name.toList) : Telling (.atom name) := by
  have distinct : Distinct (.atom name) := ⟨rfl, legible⟩
  refine ⟨rfl, fun denied => ?_⟩
  cases denied with
  | false => exact .basic distinct
  | true => exact .neg (.basic distinct)

end Atomic

abbrev Readable : Formula -> Prop := BuiltFrom Telling

theorem Readable.quantifierFree (readable : formula.Readable) : formula.QuantifierFree :=
  readable.mono fun _ telling => telling.atomic

theorem Readable.form (readable : formula.Readable) : BuiltFrom Distinct (formula.sideForm false) :=
  readable.sideForm (fun _ telling => telling.sides) false

end Formula

namespace Bilateral

open Formula

/-! ## What a valuation backs -/

/-- The sign names the value of the bilateral form, which can be told from its text. -/
structure Backed (valuation : String -> Truth) (signed : Signed) : Prop where
  definite : signed.sign.definite = true
  free : signed.formula.QuantifierFree
  cancels : signed.formula.Cancels valuation false
  readable : BuiltFrom Distinct (signed.formula.sideForm false)
  holds : (signed.formula.sideForm false).value valuation ∈ signed.sign.truths

section Backing

variable {valuation : String -> Truth} {sign : Sign}

theorem Backed.split {connective : Connective} {left right : Formula}
    {cases : List (List Signed)} (backed : Backed valuation ⟨sign, .join connective left right⟩)
    (found : Standard.joinCases connective left right sign = some cases) :
    ∃ conclusion, conclusion ∈ cases ∧ forall part, part ∈ conclusion -> Backed valuation part := by
  rcases backed with ⟨definite, free, cancels, readable, holds⟩
  -- The bilateral form of a compound is that of its parts, so its value is computed from theirs.
  have covered : Standard.Covers (fun formula => (formula.sideForm false).value valuation) cases :=
    Standard.joinCases_cover found holds fun spread _ _ => by
      rw [spread] at definite
      cases definite
  have analysis := Standard.joinCases_analysis found
  rcases covered with ⟨conclusion, chosen, allTrue⟩
  refine ⟨conclusion, chosen, fun part listed => ?_⟩
  have cancelsParts : left.Cancels valuation false ∧ right.Cancels valuation false := by
    cases connective <;> exact cancels
  rcases free.of_join fun _ atomic => atomic with ⟨freeLeft, freeRight⟩
  rcases readable.of_join fun _ distinct => distinct.atomic with ⟨readableLeft, readableRight⟩
  have sameSign := analysis.definite conclusion chosen part listed
  have holdsPart := allTrue part listed
  rcases part with ⟨sign', formula⟩
  rcases List.mem_cons.mp (analysis.parts conclusion chosen _ listed) with here | later
  · cases here
    exact ⟨sameSign, freeLeft, cancelsParts.1, readableLeft, holdsPart⟩
  · cases List.mem_singleton.mp later
    exact ⟨sameSign, freeRight, cancelsParts.2, readableRight, holdsPart⟩

/-- Pushing a negation inwards keeps the bilateral form.  Only a denial that is denied changes
it, and there the valuation sees no difference. -/
theorem Backed.push {body part : Formula} (backed : Backed valuation ⟨sign, .neg body⟩)
    (pushed : Pushed body part) : Backed valuation ⟨sign, part⟩ := by
  rcases backed with ⟨definite, free, cancels, readable, holds⟩
  have inner := free.of_neg fun _ atomic => atomic
  cases pushed with
  | neg => exact ⟨definite, inner.of_neg fun _ atomic => atomic, cancels, readable, holds⟩
  | pred | affirmed => exact ⟨definite, .basic rfl, True.intro, readable, holds⟩
  | conj | disj =>
    rcases inner.of_join fun _ atomic => atomic with ⟨first, second⟩
    exact ⟨definite, .join _ (.neg first) (.neg second), cancels, readable, holds⟩
  | denied name args starName =>
    -- The form denied the denial once more, the rule goes back to the predicate.
    rcases cancels with ⟨distinct, same⟩
    refine ⟨definite, .basic rfl, True.intro, .basic distinct, ?_⟩
    have value : (Formula.pred name args).value valuation =
        (Formula.sided starName args true).value valuation := same.symm
    exact value ▸ holds
  | all | exist | irregularNeg | irregularConj | irregularDisj =>
    cases inner with
    | basic given => cases given

/-- What a valuation backs answers every rule by one of its conclusions. -/
theorem Backed.answered {signed : Signed} {names : List String} {cases : List (List Signed)}
    (backed : Backed valuation signed) (chosen : Chosen true names signed cases) :
    ∃ conclusion, conclusion ∈ cases ∧ forall part, part ∈ conclusion -> Backed valuation part := by
  rcases signed with ⟨sign, formula⟩
  cases chosen with
  | spelled found =>
    -- Atomic formulas have rules under m and n only, which are not definite.
    have definite := backed.definite
    rcases (Chosen.spelledOut_parts found).2.1 with rfl | rfl <;> cases definite
  | negated standard => cases standard
  | pushed _ shape pushed =>
    rcases backed.free.symbolAndParts?_cases shape with
      ⟨_, rfl, _, same⟩ | ⟨connective, _, _, _, negates, _⟩
    · cases same
      refine ⟨_, List.mem_cons_self, fun part listed => ?_⟩
      rw [List.mem_singleton.mp listed]
      exact backed.push pushed
    · exact absurd negates (by cases connective <;> decide)
  | @joined connective _ _ _ _ shape found =>
    rcases backed.free.symbolAndParts?_cases shape with
      ⟨_, _, negates, _⟩ | ⟨other, _, _, rfl, symbols, same⟩
    · exact absurd negates (by cases connective <;> decide)
    · have joined : connective = other := by
        cases connective <;> cases other <;> first | rfl | exact absurd symbols (by decide)
      subst joined
      cases same
      exact backed.split found
  | quantified shape =>
    cases shape
    cases backed.free with
    | basic given => cases given

/-- Bilateral forms that are written alike have the same value, and so the same sign. -/
theorem Backed.not_conflict {signed other : Signed} (backed : Backed valuation signed)
    (backed' : Backed valuation other) :
    ¬ Tableau.Conflict (.bilateral none) signed other := by
  rintro ⟨clash, equivalent⟩
  have sameText : (signed.formula.sideForm false).text = (other.formula.sideForm false).text := by
    rw [Formula.equivalent, (bilateralForm_eq backed.free).1, (bilateralForm_eq backed'.free).1]
      at equivalent
    exact eq_of_beq equivalent
  have sameValue := (alike_of_text_eq backed.readable backed'.readable sameText).value_eq valuation
  have named := (Sign.mem_truths_iff backed.definite _).mp backed.holds
  have named' := (Sign.mem_truths_iff backed'.definite _).mp backed'.holds
  have sameSign : signed.sign = other.sign := by rw [named, named', sameValue]
  rw [sameSign, Sign.contradicts, bne_self_eq_false, Bool.and_false] at clash
  cases clash

end Backing
end Bilateral

namespace Tableau

variable {tableau : Tableau} {formulas : List Signed} {valuation : String -> Truth}

/-! ## Bilateral tableaux without an evaluator -/

theorem guides_backed [Memory] (valuation : String -> Truth) :
    Guides (.bilateral none) (Bilateral.Backed valuation) := by
  intro tableau node found expansion sided backed _ proposed
  rcases bilateral_rule_of_proposed sided proposed with ⟨situation, rule, ruled, rfl⟩ | evaluated
  · rcases Bilateral.rule_chosen ruled with ⟨names, chosen⟩
    rcases backed.answered chosen with ⟨conclusion, listed, allBacked⟩
    exact ⟨conclusion, listed, fun part member => ⟨allBacked part member, fun _ backed' =>
      (allBacked part member).not_conflict backed'⟩⟩
  · cases evaluated

theorem exists_ofFormulas_bilateral [Memory] (traced : Bool) (some_formula : formulas ≠ [])
    (free : forall signed, signed ∈ formulas -> signed.formula.QuantifierFree) :
    ∃ tableau, ofFormulas (.bilateral none) formulas traced = .ok tableau ∧
      Reachable (.bilateral none) formulas tableau :=
  exists_ofFormulas_flat _ traced some_formula fun signed member => (free signed member).flat

/-- A valuation that backs the initial formulas keeps a branch open. -/
theorem Reachable.satisfiable_of_backed [Memory]
    (reachable : Reachable (.bilateral none) formulas tableau)
    (backed : forall signed, signed ∈ formulas -> Bilateral.Backed valuation signed) :
    tableau.satisfiable = true :=
  reachable.satisfiable_of_guides (guides_backed valuation) backed
    fun signed other member member' => (backed signed member).not_conflict (backed other member')

/-- Without an open branch every valuation that cancels double denials fails: the bilateral
form of some formula does not have the value that its sign names. -/
theorem Reachable.exists_unbacked [Memory]
    (reachable : Reachable (.bilateral none) formulas tableau)
    (closed : tableau.satisfiable = false)
    (definite : forall signed, signed ∈ formulas -> signed.sign.definite = true)
    (readable : forall signed, signed ∈ formulas -> signed.formula.Readable)
    (cancels : forall signed, signed ∈ formulas -> signed.formula.Cancels valuation false) :
    ∃ signed, signed ∈ formulas ∧ ∃ form, signed.formula.bilateralForm = .ok form ∧
      Sign.ofTruth (form.value valuation) ≠ signed.sign := by
  by_contra none_fails
  simp only [not_exists, not_and, ne_eq, not_not] at none_fails
  have backed : forall signed, signed ∈ formulas -> Bilateral.Backed valuation signed := by
    intro signed member
    have free := (readable signed member).quantifierFree
    have named := none_fails signed member _ (Formula.bilateralForm_eq free).1
    exact ⟨definite signed member, free, cancels signed member, (readable signed member).form,
      (Sign.mem_truths_iff (definite signed member) _).mpr named.symm⟩
  rw [reachable.satisfiable_of_backed backed] at closed
  cases closed

end Tableau

/-! ## Plain predicates -/

namespace Formula

def PlainBasic : Formula -> Prop
  | atom name => Identifier name
  | pred name args => Identifier name ∧ forall term, term ∈ args -> Identifier term.name
  | _ => False

instance : DecidablePred PlainBasic
  | atom name => inferInstanceAs (Decidable (Identifier name))
  | pred _ _ => inferInstanceAs (Decidable (_ ∧ _))
  | bilateral .. | neg _ | join .. | quant .. | irregular .. => inferInstanceAs (Decidable False)

theorem PlainBasic.telling {formula : Formula} (plain : formula.PlainBasic) : formula.Telling := by
  cases formula with
  | atom name =>
    refine telling_atom (legible_name fun c member => ?_)
    have excluded := plain.2 c member
    simp only [List.mem_cons, List.not_mem_nil, or_false, not_or] at excluded
    simp [excluded]
  | pred name args =>
    refine (telling_predicate plain.1 fun term listed c member => ?_).1
    have excluded := (plain.2 term listed).2 c member
    simp only [List.mem_cons, List.not_mem_nil, or_false, not_or] at excluded
    exact ⟨excluded.2.1, excluded.2.2.2.1⟩
  | _ => cases plain

theorem cancels_of_plain {formula : Formula} (plain : BuiltFrom PlainBasic formula)
    (valuation : String -> Truth) (denied : Bool) : formula.Cancels valuation denied := by
  induction plain generalizing denied with
  | @basic formula given =>
    cases formula with
    | atom | pred => cases denied <;> exact True.intro
    | _ => cases given
  | neg inner ih => exact ih (!denied)
  | join connective first second atFirst atSecond =>
    cases connective with
    | conj | disj | imp => cases denied <;> exact ⟨atFirst _, atSecond _⟩

end Formula

namespace Tableau

/-- A finished bilateral tableau of plain formulas under definite signs without an open branch
refutes every valuation: some formula has a bilateral form without the value that its sign
names.  The values of a predicate and of its denial do not depend on each other. -/
theorem no_sided_valuation_of_unsatisfiable [Memory] (formulas : List Signed) (traced : Bool)
    (some_formula : formulas ≠ [])
    (definite : forall signed, signed ∈ formulas -> signed.sign.definite = true)
    (plain : forall signed, signed ∈ formulas ->
      Formula.BuiltFrom Formula.PlainBasic signed.formula) :
    ∃ tableau, ofFormulas (.bilateral none) formulas traced = .ok tableau ∧
      (tableau.satisfiable = false -> forall valuation : String -> Truth,
        ∃ signed, signed ∈ formulas ∧ ∃ form, signed.formula.bilateralForm = .ok form ∧
          Sign.ofTruth (form.value valuation) ≠ signed.sign) := by
  have readable : forall signed, signed ∈ formulas -> signed.formula.Readable :=
    fun signed member => (plain signed member).mono fun _ basic => basic.telling
  rcases exists_ofFormulas_bilateral traced some_formula
    (fun signed member => (readable signed member).quantifierFree) with
      ⟨tableau, finished, reachable⟩
  refine ⟨tableau, finished, ?_⟩
  intro closed valuation
  exact reachable.exists_unbacked closed definite readable
    fun signed member => Formula.cancels_of_plain (plain signed member) valuation false

open scoped Memory

/-- A denied conjunction is not true when the denial of one part and the other part, denied
twice, are false. -/
theorem no_sided_valuation_of_denied_conjunction : (ofFormulas (.bilateral none)
      [⟨.t, .neg (.join .conj (.pred "P" [.const "a"]) (.neg (.atom "q")))⟩,
        ⟨.f, .neg (.pred "P" [.const "a"])⟩, ⟨.f, .atom "q"⟩] false).map satisfiable = .ok false ∧
    forall valuation : String -> Truth, ∃ signed,
      signed ∈ [⟨.t, .neg (.join .conj (.pred "P" [.const "a"]) (.neg (.atom "q")))⟩,
        ⟨.f, .neg (.pred "P" [.const "a"])⟩, Signed.mk .f (.atom "q")] ∧
      ∃ form, signed.formula.bilateralForm = .ok form ∧
        Sign.ofTruth (form.value valuation) ≠ signed.sign := by
  have closed : (ofFormulas (.bilateral none)
      [⟨.t, .neg (.join .conj (.pred "P" [.const "a"]) (.neg (.atom "q")))⟩,
        ⟨.f, .neg (.pred "P" [.const "a"])⟩, ⟨.f, .atom "q"⟩] false).map satisfiable =
      .ok false := rfl
  refine ⟨closed, ?_⟩
  rcases no_sided_valuation_of_unsatisfiable
    [⟨.t, .neg (.join .conj (.pred "P" [.const "a"]) (.neg (.atom "q")))⟩,
      ⟨.f, .neg (.pred "P" [.const "a"])⟩, ⟨.f, .atom "q"⟩] false (by decide) (by decide)
    (by
      simp only [List.mem_cons, List.not_mem_nil, or_false]
      rintro signed (rfl | rfl | rfl)
      · exact .neg (.join .conj (.basic (by decide)) (.neg (.basic (by decide))))
      · exact .neg (.basic (by decide))
      · exact .basic (by decide)) with ⟨tableau, finished, refutes⟩
  rw [finished] at closed
  exact refutes (Except.ok.inj closed)

end Tableau
end WeakKleene
