import WeakKleene.Proofs.ChosenRules
import WeakKleene.Proofs.Guidance
import WeakKleene.Proofs.NegationNormalForm

namespace WeakKleene

/-!
# Flat quantifiers

A rule for a quantified formula puts a constant for the bound variable.  That
fails where another quantifier stands inside, and it is the only failure that
formulas without irregular compounds can meet.  So tableaux of flat formulas,
where no quantifier stands inside another, are always constructed: neither
calculus leads out of the flat formulas, and neither does an evaluator.
-/

namespace Formula

variable {formula : Formula}

theorem BuiltFrom.proper (free : formula.QuantifierFree) : formula.Proper := by
  induction free with
  | basic given => exact .atomic given
  | neg inner ih => exact .neg ih
  | join connective first second atFirst atSecond => exact .join connective atFirst atSecond

/-- No quantifier stands inside another, and there are no irregular compounds. -/
inductive Flat : Formula -> Prop where
  | atomic {formula : Formula} (atomic : formula.isAtomic = true) : Flat formula
  | neg {body : Formula} (inner : Flat body) : Flat (.neg body)
  | join {left right : Formula} (connective : Connective) (first : Flat left)
      (second : Flat right) : Flat (.join connective left right)
  | all {var : String} {restriction matrix : Formula} (first : restriction.QuantifierFree)
      (second : matrix.QuantifierFree) : Flat (.quant .all var restriction matrix)
  | exist {var : String} {restriction matrix : Formula} (first : restriction.QuantifierFree)
      (second : matrix.QuantifierFree) : Flat (.quant .exist var restriction matrix)

theorem BuiltFrom.flat (free : formula.QuantifierFree) : formula.Flat := by
  induction free with
  | basic given => exact .atomic given
  | neg inner ih => exact .neg ih
  | join connective first second atFirst atSecond => exact .join connective atFirst atSecond

theorem Flat.proper (flat : formula.Flat) : formula.Proper := by
  induction flat with
  | atomic given => exact .atomic given
  | neg inner ih => exact .neg ih
  | join connective first second atFirst atSecond => exact .join connective atFirst atSecond
  | all first second => exact .all first.proper second.proper
  | exist first second => exact .exist first.proper second.proper

theorem Flat.of_neg {body : Formula} (flat : (Formula.neg body).Flat) : body.Flat := by
  cases flat with
  | atomic given => cases given
  | neg inner => exact inner

theorem Flat.of_join {connective : Connective} {left right : Formula}
    (flat : (Formula.join connective left right).Flat) : left.Flat ∧ right.Flat := by
  cases flat with
  | atomic given => cases given
  | join _ first second => exact ⟨first, second⟩

def isQuantifierFree : Formula -> Bool
  | neg body => body.isQuantifierFree
  | join _ left right => left.isQuantifierFree && right.isQuantifierFree
  | formula => formula.isAtomic

theorem quantifierFree_of_isQuantifierFree
    (free : formula.isQuantifierFree = true) : formula.QuantifierFree := by
  induction formula using isQuantifierFree.induct with
  | case1 body ih => exact .neg (ih free)
  | case2 connective left right atLeft atRight =>
    rw [isQuantifierFree, Bool.and_eq_true] at free
    exact .join connective (atLeft free.1) (atRight free.2)
  | case3 formula notNeg notJoin =>
    rw [isQuantifierFree] at free
    · exact .basic free
    · exact notNeg
    · exact notJoin

def isFlat : Formula -> Bool
  | neg body => body.isFlat
  | join _ left right => left.isFlat && right.isFlat
  | quant .all _ restriction matrix | quant .exist _ restriction matrix =>
    restriction.isQuantifierFree && matrix.isQuantifierFree
  | formula => formula.isAtomic

theorem flat_of_isFlat (flat : formula.isFlat = true) : formula.Flat := by
  induction formula using isFlat.induct with
  | case1 body ih => exact .neg (ih flat)
  | case2 connective left right atLeft atRight =>
    rw [isFlat, Bool.and_eq_true] at flat
    exact .join connective (atLeft flat.1) (atRight flat.2)
  | case3 var restriction matrix =>
    rw [isFlat, Bool.and_eq_true] at flat
    exact .all (quantifierFree_of_isQuantifierFree flat.1)
      (quantifierFree_of_isQuantifierFree flat.2)
  | case4 var restriction matrix =>
    rw [isFlat, Bool.and_eq_true] at flat
    exact .exist (quantifierFree_of_isQuantifierFree flat.1)
      (quantifierFree_of_isQuantifierFree flat.2)
  | case5 formula notNeg notJoin notAll notExist =>
    rw [isFlat] at flat
    · exact .atomic flat
    · exact notNeg
    · exact notJoin
    · exact notAll
    · exact notExist

/-! ## Written forms -/

theorem Proper.misshapen?_eq_none (proper : formula.Proper) : formula.misshapen? = none := by
  induction proper with
  | atomic given =>
    exact (BuiltFrom.basic given : QuantifierFree _).misshapen?_eq_none fun _ atomic => atomic
  | neg inner ih => exact ih
  | join connective first second atFirst atSecond | all first second atFirst atSecond
  | exist first second atFirst atSecond =>
    rw [misshapen?, atFirst, atSecond]
    rfl

/-- A proper formula has a bilateral form that can be written. -/
theorem Proper.formFault?_eq_none (proper : formula.Proper) : formula.formFault? = none := by
  rcases proper.exists_recast with ⟨form, recast⟩
  rw [formFault?, recast.bilateralForm_eq]
  simp only [recast.normal.proper.misshapen?_eq_none, Option.map_none]

theorem exists_withConstant (free : formula.QuantifierFree) (var name : String) :
    ∃ made, formula.withConstant var name = .ok made ∧ made.QuantifierFree := by
  induction free with
  | @basic formula given =>
    cases formula with
    | atom | pred | bilateral => exact ⟨_, rfl, .basic rfl⟩
    | _ => cases given
  | neg inner ih =>
    rcases ih with ⟨made, found, free⟩
    refine ⟨.neg made, ?_, .neg free⟩
    simp only [withConstant, instantiate] at found ⊢
    rw [found]
    rfl
  | join connective first second atFirst atSecond =>
    rcases atFirst with ⟨left, foundLeft, freeLeft⟩
    rcases atSecond with ⟨right, foundRight, freeRight⟩
    refine ⟨.join connective left right, ?_, .join connective freeLeft freeRight⟩
    simp only [withConstant, instantiate] at foundLeft foundRight ⊢
    rw [foundLeft, foundRight]
    rfl

end Formula

/-! ## Rules -/

/-- A computation that fails by the given faults only and whose results are good. -/
def Makes {α : Type} (good : α -> Prop) (faults : Fault -> Prop) : Except Fault α -> Prop
  | .ok value => good value
  | .error fault => faults fault

theorem Makes.bind {α β : Type} {good : α -> Prop} {good' : β -> Prop} {faults : Fault -> Prop}
    {first : Except Fault α} {next : α -> Except Fault β} (here : Makes good faults first)
    (further : forall value, good value -> Makes good' faults (next value)) :
    Makes good' faults (first >>= next) := by
  cases first with
  | error fault => exact here
  | ok value => exact further value here

theorem Makes.map {α β : Type} {faults : Fault -> Prop} {first : Except Fault α}
    (here : Makes (fun _ => True) faults first) (change : α -> β) :
    Makes (fun _ => True) faults (first.map change) := by
  cases first with
  | error fault => exact here
  | ok value => exact True.intro

/-- A kind of formulas that no rule leads out of.  It has the parts of its members, and negations
and compounds of them.  Instances of its members are members, unless they are missing because of
one of the given faults. -/
structure Formula.Hereditary (good : Formula -> Prop) (faults : Fault -> Prop) : Prop where
  atomic : forall {formula}, formula.isAtomic = true -> good formula
  neg_iff : forall {body}, good (.neg body) ↔ good body
  join_iff : forall {connective left right},
    good (.join connective left right) ↔ good left ∧ good right
  denied_all : forall {var restriction matrix}, good (.quant .all var restriction matrix) ->
    good (.quant .exist var restriction (.neg matrix))
  denied_exist : forall {var restriction matrix}, good (.quant .exist var restriction matrix) ->
    good (.quant .all var restriction (.neg matrix))
  instances : forall {quantifier var restriction matrix},
    good (.quant quantifier var restriction matrix) -> forall name,
      Makes good faults (restriction.withConstant var name) ∧
        Makes good faults (matrix.withConstant var name)
  ruled : forall {symbol var restriction matrix},
    ¬ good (.quant (.other symbol) var restriction matrix)
  regular : forall {symbol parts}, ¬ good (.irregular symbol parts)

section Rules

open Formula

variable {good : Formula -> Prop} {faults : Fault -> Prop}
variable (hereditary : Hereditary good faults) {signed : Signed}

include hereditary

namespace Formula.Hereditary

variable {formula body : Formula}

theorem part {part : Formula} {symbol : String} {parts : List Formula} (fits : good formula)
    (shape : formula.symbolAndParts? = some (symbol, parts)) (listed : part ∈ parts) :
    good part := by
  cases formula with
  | neg body =>
    cases shape
    exact List.mem_singleton.mp listed ▸ hereditary.neg_iff.mp fits
  | join connective left right =>
    cases shape
    rcases hereditary.join_iff.mp fits with ⟨first, second⟩
    rcases List.mem_cons.mp listed with here | later
    · exact here ▸ first
    · exact List.mem_singleton.mp later ▸ second
  | irregular => exact absurd fits hereditary.regular
  | atom | pred | bilateral | quant => cases shape

theorem pushed (fits : good body) (pushed : Bilateral.Pushed body formula) : good formula := by
  have denied {part : Formula} (fits : good part) : good (.neg part) := hereditary.neg_iff.mpr fits
  cases pushed with
  | neg => exact hereditary.neg_iff.mp fits
  | pred | affirmed | denied => exact hereditary.atomic rfl
  | conj | disj =>
    rcases hereditary.join_iff.mp fits with ⟨first, second⟩
    exact hereditary.join_iff.mpr ⟨denied first, denied second⟩
  | all => exact hereditary.denied_all fits
  | exist => exact hereditary.denied_exist fits
  | irregularNeg | irregularConj | irregularDisj => exact absurd fits hereditary.regular

/-- Neither calculus leads out of a hereditary kind of formulas. -/
theorem chosen {sided : Bool} {names : List String} {cases : List (List Signed)}
    (fits : good signed.formula)
    (chosen : Chosen sided names signed cases) : forall conclusion, conclusion ∈ cases ->
      forall part, part ∈ conclusion -> good part.formula := by
  intro conclusion listed part member
  rcases chosen.source listed member with same | ⟨symbol, parts, shape, within, _⟩ |
    ⟨body, rest, _, shape, pushed⟩ | ⟨quantifier, var, restriction, matrix, shape, drawn⟩
  · exact same ▸ fits
  · exact hereditary.part fits shape within
  · exact hereditary.pushed (hereditary.part fits shape List.mem_cons_self) pushed
  · rcases drawn with ⟨name, _, here | there⟩
    · have made := (hereditary.instances (shape ▸ fits) name).1
      rwa [here] at made
    · have made := (hereditary.instances (shape ▸ fits) name).2
      rwa [there] at made

end Formula.Hereditary

/-! ## Failures -/

variable {sign : Sign} {var : String} {restriction matrix : Formula}

namespace Standard

theorem existentialRule_makes (fits : good (.quant .exist var restriction matrix))
    (fresh : String) (existing : Option String) : Makes (fun _ => True) faults
      (existentialRule ⟨sign, .quant .exist var restriction matrix⟩ fresh existing) := by
  have at_constant := hereditary.instances fits
  refine (at_constant fresh).1.bind fun _ _ => ?_
  refine (at_constant fresh).2.bind fun _ _ => ?_
  cases sign with
  | t | e | v => exact True.intro
  | f =>
    refine (at_constant (existing.getD (arbitrary fresh))).1.bind fun _ _ => ?_
    exact (at_constant (existing.getD (arbitrary fresh))).2.bind fun _ _ => True.intro
  | m | n =>
    refine (at_constant (arbitrary fresh)).1.bind fun _ _ => ?_
    exact (at_constant (arbitrary fresh)).2.bind fun _ _ => True.intro

theorem universalRule_makes (fits : good (.quant .all var restriction matrix)) (name : String)
    (additional : Option String) : Makes (fun _ => True) faults
      (universalRule ⟨sign, .quant .all var restriction matrix⟩ name additional) := by
  have at_constant := hereditary.instances fits
  refine (at_constant name).1.bind fun _ _ => ?_
  refine (at_constant name).2.bind fun _ _ => ?_
  cases sign with
  | t | f | e | m | v => exact True.intro
  | n =>
    cases additional with
    | none => exact True.intro
    | some other =>
      refine (at_constant other).1.bind fun _ _ => ?_
      exact (at_constant other).2.bind fun _ _ => True.intro

theorem universalChoice_makes (fits : good (.quant .all var restriction matrix))
    (situation : Situation) : Makes (fun _ => True) faults
      (universalChoice ⟨sign, .quant .all var restriction matrix⟩ situation) := by
  have here (name : String) (additional : Option String) :=
    @universalRule_makes _ _ hereditary sign var restriction matrix fits name additional
  cases sign with
  | t | e | m | v =>
    simp only [universalChoice]
    split
    · exact here _ _
    · exact True.intro
  | f =>
    simp only [universalChoice]
    split
    · exact True.intro
    · exact here _ _
  | n =>
    simp only [universalChoice]
    split
    · exact True.intro
    · split
      · exact here _ _
      · exact here _ _

theorem rule_makes (fits : good signed.formula) (situation : Situation) :
    Makes (fun _ => True) faults (rule signed situation) := by
  rcases signed with ⟨sign, formula⟩
  cases formula with
  | atom | pred | bilateral | neg | join => exact True.intro
  | quant quantifier =>
    cases quantifier with
    | all => exact universalChoice_makes hereditary fits situation
    | exist => exact existentialRule_makes hereditary fits _ _
    | other => exact True.intro
  | irregular => exact absurd fits hereditary.regular

end Standard

namespace Bilateral

theorem pushNegation_makes {body : Formula} (fits : good body) :
    Makes (fun _ => True) faults (pushNegation signed body) := by
  cases body with
  | atom | pred | neg => exact True.intro
  | bilateral name args starName starred => cases starred <;> exact True.intro
  | join connective => cases connective <;> exact True.intro
  | quant quantifier => cases quantifier <;> exact True.intro
  | irregular => exact absurd fits hereditary.regular

theorem rule_makes (fits : good signed.formula) (situation : Situation) :
    Makes (fun _ => True) faults (rule signed situation) := by
  rcases signed with ⟨sign, formula⟩
  cases formula with
  | atom | pred | bilateral | join => exact True.intro
  | neg body => exact pushNegation_makes hereditary (hereditary.neg_iff.mp fits)
  | quant quantifier =>
    cases quantifier with
    | exist => exact Standard.existentialRule_makes hereditary fits _ _
    | all =>
      simp only [rule]
      cases situation.universalConstant? with
      | none => exact True.intro
      | some name => exact Standard.universalRule_makes hereditary fits name none
    | other => exact True.intro
  | irregular => exact absurd fits hereditary.regular

end Bilateral
end Rules

namespace Tableau

variable {tableau : Tableau} {logic : Logic} {formulas : List Signed}

/-! ## Tableaux -/

section Hereditary

open Formula

variable {good : Formula -> Prop} {faults : Fault -> Prop}
variable (hereditary : Hereditary good faults)

include hereditary

/-- An evaluator is asked about atomic formulas only, and leads to such. -/
theorem byEvaluation?_good {evaluator : Option Evaluator} {formula : Formula}
    {expansion : Expansion} (found : Expansion.byEvaluation? evaluator formula = some expansion) :
    forall conclusion, conclusion ∈ expansion.conclusions ->
      forall part, part ∈ conclusion -> good part.formula := by
  rcases byEvaluation?_eq_some found with ⟨_, evidence, _, atomic, _, conclusions⟩
  rw [conclusions, List.forall_mem_singleton]
  intro part listed
  rcases mem_evidenceConclusion listed with same | ⟨denial, _⟩
  · exact same ▸ hereditary.atomic atomic
  · apply hereditary.atomic
    cases formula with
    | pred | bilateral =>
      rw [<- Option.some.inj denial]
      rfl
    | _ => cases denial

/-- An expansion of a good formula leads to good formulas, whatever an evaluator says. -/
theorem closed_of_hereditary [Memory] (logic : Logic) :
    Closed logic fun signed => good signed.formula := by
  intro tableau node found expansion same fits proposed
  cases logic with
  | standard =>
    rcases standard_rule_of_proposed same proposed with ⟨situation, rule, ruled, rfl⟩
    exact hereditary.chosen fits (Standard.rule_chosen ruled)
  | bilateral evaluator =>
    rcases bilateral_rule_of_proposed same proposed with ⟨situation, rule, ruled, rfl⟩ | evaluated
    · rcases Bilateral.rule_chosen ruled with ⟨names, chosen⟩
      exact hereditary.chosen fits chosen
    · exact byEvaluation?_good hereditary evaluated

/-- Looking for an expansion of a good formula fails by the given faults only. -/
theorem expansion?_makes [Memory] {node : Node} (fits : good node.signed.formula) (found : Branch) :
    Makes (fun _ => True) faults (tableau.expansion? node found) := by
  cases same : tableau.logic with
  | standard =>
    rcases expansion?_standard_cases same node found with equal | ⟨situation, equal⟩
    · rw [equal]
      exact True.intro
    · rw [equal]
      exact (Standard.rule_makes hereditary fits situation).map _
  | bilateral evaluator =>
    rcases expansion?_bilateral_cases same node found with equal | ⟨situation, equal⟩
    · rw [equal]
      exact True.intro
    · rw [equal]
      exact (Bilateral.rule_makes hereditary fits situation).map _

end Hereditary

/-- Flat formulas have instances, and rules do not lead out of them. -/
theorem hereditary_flat : Formula.Hereditary Formula.Flat fun _ => False where
  atomic := .atomic
  neg_iff := ⟨Formula.Flat.of_neg, .neg⟩
  join_iff := ⟨Formula.Flat.of_join, fun ⟨first, second⟩ => .join _ first second⟩
  denied_all := by
    intro var restriction matrix flat
    cases flat with
    | atomic given => cases given
    | all first second => exact .exist first (.neg second)
  denied_exist := by
    intro var restriction matrix flat
    cases flat with
    | atomic given => cases given
    | exist first second => exact .all first (.neg second)
  instances := by
    have makes {formula : Formula} (free : formula.QuantifierFree) (var name : String) :
        Makes Formula.Flat (fun _ => False) (formula.withConstant var name) := by
      rcases Formula.exists_withConstant free var name with ⟨made, done, free'⟩
      rw [done]
      exact free'.flat
    intro quantifier var restriction matrix flat name
    cases flat with
    | atomic given => cases given
    | all first second | exist first second => exact ⟨makes first var name, makes second var name⟩
  ruled := by
    intro symbol var restriction matrix flat
    cases flat with
    | atomic given => cases given
  regular := by
    intro symbol parts flat
    cases flat with
    | atomic given => cases given

/-- No proper formula is refused at the start. -/
theorem exists_start_proper [Memory] (logic : Logic) (traced : Bool) (some_formula : formulas ≠ [])
    (proper : forall signed, signed ∈ formulas -> signed.formula.Proper) :
    ∃ initial, start logic formulas traced = .ok initial := by
  apply exists_start_of_accepted traced some_formula
  intro other same branch id signed member
  have written := (proper signed member).misshapen?_eq_none
  cases logic with
  | standard => simp [refusal?, same, written]
  | bilateral evaluator => simp [refusal?, same, written, (proper signed member).formFault?_eq_none]

theorem Reachable.faultless_of_flat [Memory] (reachable : Reachable logic formulas tableau)
    (flat : forall signed, signed ∈ formulas -> signed.formula.Flat) : tableau.Faultless := by
  intro id found worked known node waiting
  rcases reachable.within (closed_of_hereditary hereditary_flat logic) flat with
    ⟨within, regular, _⟩
  have made := @expansion?_makes tableau _ _ hereditary_flat _ node
    (good_of_pending within regular worked known waiting) found
  cases proposed : tableau.expansion? node found with
  | error fault =>
    rw [proposed] at made
    exact False.elim made
  | ok proposal => exact ⟨proposal, rfl⟩

/-- The finished tableau of flat formulas exists and is reachable, in either calculus and with any
evaluator. -/
theorem exists_ofFormulas_flat [Memory] (logic : Logic) (traced : Bool)
    (some_formula : formulas ≠ [])
    (flat : forall signed, signed ∈ formulas -> signed.formula.Flat) :
    ∃ tableau, ofFormulas logic formulas traced = .ok tableau ∧
      Reachable logic formulas tableau := by
  rcases exists_start_proper logic traced some_formula fun signed member =>
    (flat signed member).proper with ⟨initial, begun⟩
  exact exists_ofFormulas_of_faultless begun fun _ reachable => reachable.faultless_of_flat flat

end Tableau
end WeakKleene
