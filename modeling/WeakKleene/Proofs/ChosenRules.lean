import WeakKleene.Calculus.Bilateral
import WeakKleene.Proofs.Reachability
import WeakKleene.Proofs.Valuation

namespace WeakKleene

/-!
# The rules that are chosen

A rule that is chosen for a signed formula spells its sign out, takes a compound
apart, or instantiates a quantifier, and the bilateral calculus pushes a negation
inwards instead of taking it apart.  Instances are taken at constants that occur
on the branch or at constants that the rule makes up, and which these are can be
read off the premise.

What holds of the conclusions in each of these cases holds of all rules: every
rule has a conclusion, and one that keeps the sign of the premise if that is e,
in the bilateral calculus also if it is t.
-/

open Tableau (exists_of_bind_eq_ok)

variable {parts : List Formula} {body : Formula} {name : String}

theorem eq_of_firstPart {first : Formula}
    (chosen : firstPart parts = .ok first) : ∃ rest, parts = first :: rest := by
  cases parts with
  | nil => cases chosen
  | cons _ rest =>
    cases chosen
    exact ⟨rest, rfl⟩

theorem eq_of_firstTwoParts {pair : Formula × Formula}
    (chosen : firstTwoParts parts = .ok pair) : ∃ rest, parts = pair.1 :: pair.2 :: rest := by
  match parts with
  | [] => cases chosen
  | [_] => cases chosen
  | _ :: _ :: rest =>
    cases chosen
    exact ⟨rest, rfl⟩

/-! ## Negations that are pushed inwards -/

namespace Bilateral

/-- A formula and what its negation is rewritten to. -/
inductive Pushed : Formula -> Formula -> Prop where
  | neg (inner : Formula) : Pushed (.neg inner) inner
  | pred (name : String) (args : List Term) : Pushed (.pred name args) (.sided name args true)
  | affirmed (name : String) (args : List Term) (starName : String) :
      Pushed (.bilateral name args starName false) (.sided name args true)
  | denied (name : String) (args : List Term) (starName : String) :
      Pushed (.bilateral name args starName true) (.pred name args)
  | conj (left right : Formula) :
      Pushed (.join .conj left right) (.join .disj (.neg left) (.neg right))
  | disj (left right : Formula) :
      Pushed (.join .disj left right) (.join .conj (.neg left) (.neg right))
  | all (var : String) (restriction matrix : Formula) :
      Pushed (.quant .all var restriction matrix) (.quant .exist var restriction (.neg matrix))
  | exist (var : String) (restriction matrix : Formula) :
      Pushed (.quant .exist var restriction matrix) (.quant .all var restriction (.neg matrix))
  | irregularNeg (inner : Formula) (rest : List Formula) :
      Pushed (.irregular "~" (inner :: rest)) inner
  | irregularConj (left right : Formula) (rest : List Formula) :
      Pushed (.irregular "&" (left :: right :: rest)) (.join .disj (.neg left) (.neg right))
  | irregularDisj (left right : Formula) (rest : List Formula) :
      Pushed (.irregular "|" (left :: right :: rest)) (.join .conj (.neg left) (.neg right))

theorem pushNegation_eq_some {signed : Signed} {rule : Rule}
    (found : pushNegation signed body = .ok (some rule)) :
    ∃ formula, Pushed body formula ∧ rule.conclusions = [[⟨signed.sign, formula⟩]] := by
  cases body with
  | atom => cases found
  | neg inner =>
    cases found
    exact ⟨inner, .neg inner, rfl⟩
  | pred name args =>
    cases found
    exact ⟨_, .pred name args, rfl⟩
  | bilateral name args starName starred =>
    cases starred with
    | true =>
      cases found
      exact ⟨_, .denied name args starName, rfl⟩
    | false =>
      cases found
      exact ⟨_, .affirmed name args starName, rfl⟩
  | join connective left right =>
    cases connective with
    | conj =>
      cases found
      exact ⟨_, .conj left right, rfl⟩
    | disj =>
      cases found
      exact ⟨_, .disj left right, rfl⟩
    | imp => cases found
  | quant quantifier var restriction matrix =>
    cases quantifier with
    | all =>
      cases found
      exact ⟨_, .all var restriction matrix, rfl⟩
    | exist =>
      cases found
      exact ⟨_, .exist var restriction matrix, rfl⟩
    | other => cases found
  | irregular symbol parts =>
    simp only [pushNegation] at found
    split at found
    · next isNegation =>
      rcases exists_of_bind_eq_ok found with ⟨inner, taken, same⟩
      rcases eq_of_firstPart taken with ⟨rest, rfl⟩
      cases same
      exact ⟨inner, isNegation ▸ .irregularNeg inner rest, rfl⟩
    · split at found
      · next isConjunction =>
        rcases exists_of_bind_eq_ok found with ⟨⟨left, right⟩, taken, same⟩
        rcases eq_of_firstTwoParts taken with ⟨rest, rfl⟩
        cases same
        exact ⟨_, isConjunction ▸ .irregularConj left right rest, rfl⟩
      · split at found
        · next isDisjunction =>
          rcases exists_of_bind_eq_ok found with ⟨⟨left, right⟩, taken, same⟩
          rcases eq_of_firstTwoParts taken with ⟨rest, rfl⟩
          cases same
          exact ⟨_, isDisjunction ▸ .irregularDisj left right rest, rfl⟩
        · cases found

end Bilateral

namespace Standard

open Formula

/-! ## The constants that a rule makes up -/

/-- The constants that the rule for a quantifier makes up under a sign. -/
def coinedFor : Quantifier -> Sign -> Situation -> List String
  | .exist, .f, situation =>
    situation.fresh :: if situation.existing.isEmpty then [arbitrary situation.fresh] else []
  | .exist, .m, situation | .exist, .n, situation => [situation.fresh, arbitrary situation.fresh]
  | .exist, _, situation => [situation.fresh]
  | .all, .f, situation | .all, .n, situation => [situation.fresh]
  | .all, _, situation => if situation.existing.isEmpty then [situation.fresh] else []
  | .other _, _, _ => []

def coined (signed : Signed) (situation : Situation) : List String :=
  match signed.formula with
  | .quant quantifier .. => coinedFor quantifier signed.sign situation
  | _ => []

variable {situation : Situation} {signed : Signed}

theorem mem_coinedFor {quantifier : Quantifier} {sign : Sign}
    (made : name ∈ coinedFor quantifier sign situation) :
    name = situation.fresh ∨ name = arbitrary situation.fresh := by
  unfold coinedFor at made
  split at made <;> try split at made
  all_goals simp_all

theorem mem_coined (made : name ∈ coined signed situation) :
    name = situation.fresh ∨ name = arbitrary situation.fresh := by
  unfold coined at made
  split at made
  · exact mem_coinedFor made
  · cases made

/-- An instance of one of the two parts of a quantified formula, at one of the given constants. -/
def IsInstance (var : String) (restriction matrix : Formula) (names : List String)
    (made : Formula) : Prop :=
  ∃ name, name ∈ names ∧
    (restriction.withConstant var name = .ok made ∨ matrix.withConstant var name = .ok made)

/-- What the rule for a quantified formula concludes: at most six conclusions, each of one to
three instances. -/
structure Instantiates (var : String) (restriction matrix : Formula) (names : List String)
    (conclusions : List (List Signed)) : Prop where
  few : conclusions.length ≤ 6
  short : forall conclusion, conclusion ∈ conclusions -> conclusion ≠ [] ∧ conclusion.length ≤ 3
  parts : forall conclusion, conclusion ∈ conclusions -> forall part, part ∈ conclusion ->
    IsInstance var restriction matrix names part.formula

/-- Some conclusion keeps the sign of the premise, if that is t or e. -/
def Passes (sign : Sign) (conclusions : List (List Signed)) : Prop :=
  ∃ conclusion, conclusion ∈ conclusions ∧
    (sign = .t ∨ sign = .e -> forall part, part ∈ conclusion -> part.sign = sign)

section Rules

variable {sign : Sign} {var : String} {restriction matrix : Formula} {situation : Situation}
variable {rule : Rule} {names : List String}

theorem existentialRule_instantiates
    (ruled : existentialRule ⟨sign, .quant .exist var restriction matrix⟩ situation.fresh
      situation.existing.head? = .ok (some rule)) :
    rule.constant = none ∧ Passes sign rule.conclusions ∧ Instantiates var restriction matrix
      (situation.existing ++ coinedFor .exist sign situation) rule.conclusions := by
  rcases exists_of_bind_eq_ok ruled with ⟨witnessed, atFirst, ruled⟩
  rcases exists_of_bind_eq_ok ruled with ⟨body, atSecond, ruled⟩
  generalize listed : situation.existing ++ coinedFor .exist sign situation = names
  have fresh : situation.fresh ∈ names := by
    rw [<- listed]
    cases sign <;> exact List.mem_append_right _ List.mem_cons_self
  have here : IsInstance var restriction matrix names witnessed := ⟨_, fresh, .inl atFirst⟩
  have here' : IsInstance var restriction matrix names body := ⟨_, fresh, .inr atSecond⟩
  cases sign with
  | t | e =>
    cases ruled
    exact ⟨rfl, ⟨_, List.mem_cons_self, by simp⟩, by simp [Rule.named], by simp [Rule.named],
      by simp [Rule.named, here, here']⟩
  | v => cases ruled
  | f =>
    rcases exists_of_bind_eq_ok ruled with ⟨restriction', atOther, ruled⟩
    rcases exists_of_bind_eq_ok ruled with ⟨body', atOther', ruled⟩
    cases ruled
    have other : situation.existing.head?.getD (arbitrary situation.fresh) ∈ names := by
      rw [<- listed, coinedFor]
      cases situation.existing <;> simp
    have there : IsInstance var restriction matrix names restriction' := ⟨_, other, .inl atOther⟩
    have there' : IsInstance var restriction matrix names body' := ⟨_, other, .inr atOther'⟩
    exact ⟨rfl, ⟨_, List.mem_cons_self, nofun⟩, by simp [Rule.named], by simp [Rule.named],
      by simp [Rule.named, here, here', there, there']⟩
  | m | n =>
    rcases exists_of_bind_eq_ok ruled with ⟨restriction', atOther, ruled⟩
    rcases exists_of_bind_eq_ok ruled with ⟨body', atOther', ruled⟩
    cases ruled
    have other : arbitrary situation.fresh ∈ names := by
      rw [<- listed, coinedFor]
      simp
    have there : IsInstance var restriction matrix names restriction' := ⟨_, other, .inl atOther⟩
    have there' : IsInstance var restriction matrix names body' := ⟨_, other, .inr atOther'⟩
    exact ⟨rfl, ⟨_, List.mem_cons_self, nofun⟩, by simp [Rule.named], by simp [Rule.named],
      by simp [Rule.named, here, here', there, there']⟩

theorem universalCases_parts {first second : Formula} {sign : Sign}
    (here : IsInstance var restriction matrix names first)
    (here' : IsInstance var restriction matrix names second) :
    Instantiates var restriction matrix names (universalCases first second sign) ∧
      (universalCases first second sign).length ≤ 3 := by
  cases sign <;>
    exact ⟨⟨by simp [universalCases], by simp [universalCases],
      by simp [universalCases, here, here']⟩, by simp [universalCases]⟩

theorem universalCases_passes (first second : Formula) (ruled : sign ≠ .v) :
    Passes sign (universalCases first second sign) := by
  cases sign with
  | t => exact ⟨_, List.mem_cons_of_mem _ List.mem_cons_self, by simp⟩
  | e => exact ⟨_, List.mem_cons_self, by simp⟩
  | f | m | n => exact ⟨_, List.mem_cons_self, nofun⟩
  | v => exact absurd rfl ruled

theorem universalRule_instantiates {additional : Option String}
    (ruled : universalRule ⟨sign, .quant .all var restriction matrix⟩ name additional =
      .ok (some rule)) (given : name ∈ names)
    (added : sign = .n -> forall other, additional = some other -> other ∈ names) :
    rule.constant = some name ∧ Passes sign rule.conclusions ∧
      Instantiates var restriction matrix names rule.conclusions := by
  rcases exists_of_bind_eq_ok ruled with ⟨first, atFirst, ruled⟩
  rcases exists_of_bind_eq_ok ruled with ⟨second, atSecond, ruled⟩
  rcases @universalCases_parts var restriction matrix names first second sign
    ⟨_, given, .inl atFirst⟩ ⟨_, given, .inr atSecond⟩ with ⟨once, few⟩
  cases sign with
  | v => cases ruled
  | t | f | e | m =>
    cases ruled
    exact ⟨rfl, universalCases_passes _ _ nofun, once⟩
  | n =>
    cases additional with
    | none =>
      cases ruled
      exact ⟨rfl, universalCases_passes _ _ nofun, once⟩
    | some other =>
      rcases exists_of_bind_eq_ok ruled with ⟨first', atFirst', ruled⟩
      rcases exists_of_bind_eq_ok ruled with ⟨second', atSecond', ruled⟩
      cases ruled
      have further := added rfl other rfl
      rcases @universalCases_parts var restriction matrix names first' second' .n
        ⟨_, further, .inl atFirst'⟩ ⟨_, further, .inr atSecond'⟩ with ⟨again, few'⟩
      refine ⟨rfl, ⟨_, List.mem_cons_self, nofun⟩, ?_, ?_, ?_⟩
      · simp only [Rule.named, List.length_append]
        omega
      · intro conclusion chosen
        exact (List.mem_append.mp chosen).elim (once.short _) (again.short _)
      · intro conclusion chosen
        exact (List.mem_append.mp chosen).elim (once.parts _) (again.parts _)

/-- How a universal formula is instantiated at a constant: it occurs and was not used yet, or
there is none that occurs, or none was used.  Only in the last two cases a constant may be new. -/
def Draws (situation : Situation) (coined : List String) (name : String) : Prop :=
  (coined = [] ∧ name ∈ situation.existing ∧
      forall used, situation.used = some used -> name ∉ used) ∨
    (coined = [situation.fresh] ∧ (situation.existing = [] ∨ situation.anyUsed = false))

theorem exists_universalRule {signed : Signed}
    (ruled : universalChoice signed situation = .ok (some rule)) :
    ∃ name additional, universalRule signed name additional = .ok (some rule) ∧
      Draws situation (coinedFor .all signed.sign situation) name ∧
      forall other, other = name ∨ signed.sign = .n ∧ additional = some other ->
        other ∈ situation.existing ++ coinedFor .all signed.sign situation := by
  rcases signed with ⟨sign, formula⟩
  have alone {name : String} (given : name ∈ situation.existing ++ coinedFor .all sign situation) :
      forall other, other = name ∨ sign = .n ∧ none = some other ->
        other ∈ situation.existing ++ coinedFor .all sign situation := by
    rintro other (rfl | ⟨_, impossible⟩)
    · exact given
    · cases impossible
  cases sign with
  | f =>
    simp only [universalChoice] at ruled
    split at ruled
    · cases ruled
    · next unused =>
      exact ⟨_, none, ruled, .inr ⟨rfl, .inr (Bool.eq_false_iff.mpr unused)⟩,
        alone (List.mem_append_right _ List.mem_cons_self)⟩
  | n =>
    simp only [universalChoice] at ruled
    split at ruled
    · cases ruled
    · next unused =>
      have sought (name : String) : Draws situation (coinedFor .all .n situation) name :=
        .inr ⟨rfl, .inr (Bool.eq_false_iff.mpr unused)⟩
      split at ruled
      · next first rest existing =>
        refine ⟨first, _, ruled, sought first, ?_⟩
        rintro other (rfl | ⟨_, same⟩)
        · rw [existing]
          exact List.mem_cons_self
        · rw [<- Option.some.inj same]
          exact List.mem_append_right _ List.mem_cons_self
      · exact ⟨_, none, ruled, sought _, alone (List.mem_append_right _ List.mem_cons_self)⟩
  | t | e | m | v =>
    simp only [universalChoice] at ruled
    split at ruled
    · next name chosen =>
      rcases Situation.universalConstant?_eq_some chosen with ⟨nothing, new⟩ | ⟨occurs, unused⟩
      · exact ⟨name, none, ruled, .inr ⟨by simp [coinedFor, nothing], .inl nothing⟩,
          alone (by simp [coinedFor, nothing, new])⟩
      · have others : situation.existing.isEmpty = false :=
          List.isEmpty_eq_false_iff.mpr (List.ne_nil_of_mem occurs)
        exact ⟨name, none, ruled, .inl ⟨by simp [coinedFor, others], occurs, unused⟩,
          alone (List.mem_append_left _ occurs)⟩
    · cases ruled

/-- A universal formula is instantiated at a constant that occurs, or at one that is made up. -/
theorem universalChoice_instantiates
    (ruled : universalChoice ⟨sign, .quant .all var restriction matrix⟩ situation =
      .ok (some rule)) :
    ∃ name, rule.constant = some name ∧ Draws situation (coinedFor .all sign situation) name ∧
      Passes sign rule.conclusions ∧ Instantiates var restriction matrix
        (situation.existing ++ coinedFor .all sign situation) rule.conclusions := by
  rcases exists_universalRule ruled with ⟨name, additional, ruled, drawn, listed⟩
  rcases universalRule_instantiates ruled (listed name (.inl rfl))
    fun untrue other same => listed other (.inr ⟨untrue, same⟩) with ⟨recorded, instantiated⟩
  exact ⟨name, recorded, drawn, instantiated⟩

end Rules

end Standard

/-! ## Both calculi -/

/-- How the conclusions of a rule come about.  The bilateral calculus, which is the sided one,
pushes negations inwards, and the standard calculus takes them apart. -/
inductive Chosen (sided : Bool) (names : List String) (signed : Signed) :
    List (List Signed) -> Prop where
  | spelled {cases : List (List Signed)}
      (found : Standard.spelledOut signed.formula signed.sign = some cases) :
      Chosen sided names signed cases
  | negated {body : Formula} {rest : List Formula} {cases : List (List Signed)}
      (standard : sided = false)
      (shape : signed.formula.symbolAndParts? = some ("~", body :: rest))
      (found : Standard.negationCases body signed.sign = some cases) :
      Chosen sided names signed cases
  | pushed {body formula : Formula} {rest : List Formula} (bilateral : sided = true)
      (shape : signed.formula.symbolAndParts? = some ("~", body :: rest))
      (pushed : Bilateral.Pushed body formula) :
      Chosen sided names signed [[⟨signed.sign, formula⟩]]
  | joined {connective : Connective} {left right : Formula} {rest : List Formula}
      {cases : List (List Signed)}
      (shape : signed.formula.symbolAndParts? = some (connective.symbol, left :: right :: rest))
      (found : Standard.joinCases connective left right signed.sign = some cases) :
      Chosen sided names signed cases
  | quantified {quantifier : Quantifier} {var : String} {restriction matrix : Formula}
      {cases : List (List Signed)}
      (shape : signed.formula = .quant quantifier var restriction matrix)
      (passes : Standard.Passes signed.sign cases)
      (instances : Standard.Instantiates var restriction matrix names cases) :
      Chosen sided names signed cases

variable {sided : Bool} {names : List String} {signed : Signed} {situation : Situation}
variable {rule : Rule} {cases : List (List Signed)} {rest : List Formula}

/-! ## The rules of both calculi are so chosen -/

namespace Standard

theorem negate_chosen (shape : signed.formula.symbolAndParts? = some ("~", body :: rest))
    (ruled : negate signed body = some rule) : Chosen false names signed rule.conclusions := by
  rcases Option.map_eq_some_iff.mp ruled with ⟨cases, found, rfl⟩
  exact .negated rfl shape found

theorem split_chosen {connective : Connective} {left right : Formula}
    (shape : signed.formula.symbolAndParts? = some (connective.symbol, left :: right :: rest))
    (ruled : split signed connective left right = some rule) :
    Chosen sided names signed rule.conclusions := by
  rcases Option.map_eq_some_iff.mp ruled with ⟨cases, found, rfl⟩
  exact .joined shape found

theorem spelledOut_chosen {kind : String}
    (ruled : (spelledOut signed.formula signed.sign).map
      (fun cases => Rule.named signed kind cases none) = some rule) :
    Chosen sided names signed rule.conclusions := by
  rcases Option.map_eq_some_iff.mp ruled with ⟨cases, found, rfl⟩
  exact .spelled found

theorem compoundRule_chosen {symbol : String} {sign : Sign} (joins : symbol ≠ "~")
    (ruled : compoundRule ⟨sign, .irregular symbol parts⟩ = .ok (some rule)) :
    Chosen sided names ⟨sign, .irregular symbol parts⟩ rule.conclusions := by
  simp only [compoundRule, if_neg joins] at ruled
  split at ruled
  · simp only [joinRule] at ruled
    split at ruled
    · next connective _ isSymbol =>
      rcases exists_of_bind_eq_ok ruled with ⟨pair, taken, ruled⟩
      rcases eq_of_firstTwoParts taken with ⟨rest, rfl⟩
      exact split_chosen (congrArg (fun name => some (name, _)) isSymbol) (Except.ok.inj ruled)
    · cases ruled
  · cases ruled

theorem rule_chosen {found : Rule}
    (ruled : Standard.rule signed situation = .ok (some found)) :
    Chosen false (situation.existing ++ coined signed situation) signed found.conclusions := by
  rcases signed with ⟨sign, formula⟩
  cases formula with
  | atom | pred | bilateral => exact spelledOut_chosen (Except.ok.inj ruled)
  | neg body => exact negate_chosen rfl (Except.ok.inj ruled)
  | join connective left right => exact split_chosen rfl (Except.ok.inj ruled)
  | irregular symbol parts =>
    by_cases negates : symbol = "~"
    · subst negates
      rcases exists_of_bind_eq_ok ruled with ⟨body, taken, ruled⟩
      rcases eq_of_firstPart taken with ⟨rest, rfl⟩
      exact negate_chosen rfl (Except.ok.inj ruled)
    · exact compoundRule_chosen negates ruled
  | quant quantifier var restriction matrix =>
    cases quantifier with
    | other => exact spelledOut_chosen (Except.ok.inj ruled)
    | exist =>
      rcases existentialRule_instantiates ruled with ⟨_, passes, instances⟩
      exact .quantified rfl passes instances
    | all =>
      rcases universalChoice_instantiates ruled with ⟨_, _, _, passes, instances⟩
      exact .quantified rfl passes instances

end Standard

namespace Bilateral

theorem pushNegation_chosen (shape : signed.formula.symbolAndParts? = some ("~", body :: rest))
    (ruled : pushNegation signed body = .ok (some rule)) :
    Chosen true names signed rule.conclusions := by
  rcases pushNegation_eq_some ruled with ⟨formula, pushed, concluded⟩
  rw [concluded]
  exact .pushed rfl shape pushed

theorem rule_chosen {found : Rule}
    (ruled : Bilateral.rule signed situation = .ok (some found)) :
    ∃ names, Chosen true names signed found.conclusions := by
  rcases signed with ⟨sign, formula⟩
  cases formula with
  | atom | pred | bilateral => exact ⟨[], Standard.spelledOut_chosen (Except.ok.inj ruled)⟩
  | neg body => exact ⟨[], pushNegation_chosen rfl ruled⟩
  | join connective left right => exact ⟨[], Standard.split_chosen rfl (Except.ok.inj ruled)⟩
  | irregular symbol parts =>
    simp only [Bilateral.rule, compoundRule, negationRule] at ruled
    split at ruled
    · next negates =>
      subst negates
      rcases exists_of_bind_eq_ok ruled with ⟨body, taken, ruled⟩
      rcases eq_of_firstPart taken with ⟨rest, rfl⟩
      exact ⟨[], pushNegation_chosen rfl ruled⟩
    · next joins => exact ⟨[], Standard.compoundRule_chosen joins ruled⟩
  | quant quantifier var restriction matrix =>
    cases quantifier with
    | other => exact ⟨[], Standard.spelledOut_chosen (Except.ok.inj ruled)⟩
    | exist =>
      rcases Standard.existentialRule_instantiates ruled with ⟨_, passes, instances⟩
      exact ⟨_, .quantified rfl passes instances⟩
    | all =>
      simp only [Bilateral.rule] at ruled
      split at ruled
      · rcases Standard.universalRule_instantiates ruled (List.mem_singleton.mpr rfl)
          (fun _ _ nothing => by cases nothing) with ⟨_, passes, instances⟩
        exact ⟨_, .quantified rfl passes instances⟩
      · cases ruled

end Bilateral

/-! ## What is concluded -/

namespace Chosen

theorem spelledOut_parts {formula : Formula} {sign : Sign}
    (found : Standard.spelledOut formula sign = some cases) :
    cases ≠ [] ∧ (sign = .m ∨ sign = .n) ∧ forall conclusion, conclusion ∈ cases ->
      forall part, part ∈ conclusion -> part.formula = formula := by
  cases sign with
  | m | n =>
    cases found
    simp
  | t | f | e | v => cases found

theorem ne_nil (chosen : Chosen sided names signed cases) : cases ≠ [] := by
  cases chosen with
  | spelled found => exact (spelledOut_parts found).1
  | negated standard shape found => exact (Standard.negationCases_analysis found).nonempty
  | pushed => exact List.cons_ne_nil _ _
  | joined shape found => exact (Standard.joinCases_analysis found).nonempty
  | quantified shape passes =>
    rcases passes with ⟨conclusion, listed, _⟩
    exact List.ne_nil_of_mem listed

/-- Every rule under e passes the sign on, in the bilateral calculus also every rule under t. -/
theorem exists_kept (chosen : Chosen sided names signed cases)
    (kept : signed.sign = .e ∨ signed.sign = .t ∧ sided = true) :
    ∃ conclusion, conclusion ∈ cases ∧
      forall part, part ∈ conclusion -> part.sign = signed.sign := by
  rcases signed with ⟨sign, formula⟩
  cases chosen with
  | spelled found =>
    rcases (spelledOut_parts found).2.1 with rfl | rfl <;> simp at kept
  | negated standard shape found =>
    rcases kept with rfl | ⟨_, bilateral⟩
    · cases found
      exact ⟨_, List.mem_cons_self, by simp⟩
    · cases standard.symm.trans bilateral
  | pushed => exact ⟨_, List.mem_cons_self, by simp⟩
  | @joined connective left right rest cases shape found =>
    rcases kept with rfl | ⟨rfl, _⟩
    · cases connective <;> cases found <;> exact ⟨_, List.mem_cons_self, by simp⟩
    · cases connective with
      | conj | disj =>
        cases found
        exact ⟨_, List.mem_cons_self, by simp⟩
      | imp =>
        cases found
        exact ⟨_, List.mem_cons_of_mem _ List.mem_cons_self, by simp⟩
  | quantified shape passes =>
    rcases passes with ⟨conclusion, listed, same⟩
    exact ⟨conclusion, listed, same (kept.symm.imp_left And.left)⟩

/-- What a rule concludes about: its premise, a part of it, what a part is rewritten to behind a
negation, or an instance. -/
theorem source (chosen : Chosen sided names signed cases) {conclusion : List Signed}
    (listed : conclusion ∈ cases) {part : Signed} (member : part ∈ conclusion) :
    part.formula = signed.formula ∨
    (∃ symbol parts, signed.formula.symbolAndParts? = some (symbol, parts) ∧
      part.formula ∈ parts ∧ (symbol = "~" -> sided = false)) ∨
    (∃ body rest, sided = true ∧ signed.formula.symbolAndParts? = some ("~", body :: rest) ∧
      Bilateral.Pushed body part.formula) ∨
    ∃ quantifier var restriction matrix,
      signed.formula = .quant quantifier var restriction matrix ∧
      Standard.IsInstance var restriction matrix names part.formula := by
  cases chosen with
  | spelled found => exact .inl ((spelledOut_parts found).2.2 conclusion listed part member)
  | negated standard shape found =>
    have component := (Standard.negationCases_analysis found).parts conclusion listed part member
    exact .inr (.inl ⟨_, _, shape, List.mem_append_left _ component, fun _ => standard⟩)
  | pushed bilateral shape pushed =>
    cases List.mem_singleton.mp listed
    cases List.mem_singleton.mp member
    exact .inr (.inr (.inl ⟨_, _, bilateral, shape, pushed⟩))
  | @joined connective left right rest cases shape found =>
    have component := (Standard.joinCases_analysis found).parts conclusion listed part member
    refine .inr (.inl ⟨_, _, shape, List.mem_append_left rest component, fun negates => ?_⟩)
    exact absurd negates (by cases connective <;> decide)
  | quantified shape passes instances =>
    exact .inr (.inr (.inr ⟨_, _, _, _, shape, instances.parts conclusion listed part member⟩))

end Chosen
end WeakKleene
