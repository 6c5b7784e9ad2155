import Mathlib.Data.Set.Basic
import Mathlib.Logic.Function.Basic
import WeakKleene.Proofs.Valuation

namespace WeakKleene

/-!
# Restricted quantifiers and the rules that instantiate them

A structure gives an individual to every constant, a truth value to every
predicate of individuals, and one to every atom.  A restricted quantifier looks
at the pairs of values that its two parts take, one pair for each individual.
It is undefined when no pair is defined in both places.  Otherwise the
existential one asks for a pair of truths, and the universal one forbids a true
restriction beside a matrix that is not true.

The rule for a quantified formula names one or two individuals and says which
pairs they may have.  Constants that stand neither in the formula nor on the
branch may denote anyone.  So a rule keeps the structure exactly when some
conclusion is true for a suitable choice of those.  Every existential rule does.
The universal ones forget pairs: under t and m an instance at a constant of the
branch may be undefined, and under f the only counterexamples may have an
undefined matrix.

Terms are replaced by name.  A constant that is spelled like the bound variable
would be replaced with it, and the statements leave such formulas out.
-/

namespace Quantifier

def SomeDefined (pairs : Set (Truth × Truth)) : Prop :=
  ∃ pair, pair ∈ pairs ∧ pair.1 ≠ .e ∧ pair.2 ≠ .e

open Classical in
/-- The value of a restricted quantifier from the values of its parts at all individuals.
Symbols other than the two quantifiers have no table. -/
noncomputable def eval (pairs : Set (Truth × Truth)) : Quantifier -> Truth
  | exist =>
    if (.t, .t) ∈ pairs then .t
    else if SomeDefined pairs then .f
    else .e
  | all =>
    if ¬ SomeDefined pairs then .e
    else if (.t, .f) ∈ pairs ∨ (.t, .e) ∈ pairs then .f
    else .t
  | other _ => .e

variable {pairs : Set (Truth × Truth)}

theorem someDefined_of_mem_truths (member : (.t, .t) ∈ pairs) : SomeDefined pairs :=
  ⟨(.t, .t), member, by decide, by decide⟩

theorem eval_exist_eq_t : exist.eval pairs = .t ↔ (.t, .t) ∈ pairs := by
  by_cases both : (Truth.t, Truth.t) ∈ pairs <;> by_cases defined : SomeDefined pairs <;>
    simp [eval, both, defined]

theorem eval_exist_eq_f : exist.eval pairs = .f ↔ (.t, .t) ∉ pairs ∧ SomeDefined pairs := by
  by_cases both : (Truth.t, Truth.t) ∈ pairs <;> by_cases defined : SomeDefined pairs <;>
    simp [eval, both, defined]

theorem eval_exist_eq_e : exist.eval pairs = .e ↔ ¬ SomeDefined pairs := by
  by_cases both : (Truth.t, Truth.t) ∈ pairs
  · simp [eval, both, someDefined_of_mem_truths both]
  · by_cases defined : SomeDefined pairs <;> simp [eval, both, defined]

theorem eval_all_eq_t :
    all.eval pairs = .t ↔ ((.t, .f) ∉ pairs ∧ (.t, .e) ∉ pairs) ∧ SomeDefined pairs := by
  rw [<- not_or]
  by_cases broken : (Truth.t, Truth.f) ∈ pairs ∨ (Truth.t, Truth.e) ∈ pairs <;>
    by_cases defined : SomeDefined pairs <;> simp only [eval, broken, defined] <;> decide

theorem eval_all_eq_f :
    all.eval pairs = .f ↔ ((.t, .f) ∈ pairs ∨ (.t, .e) ∈ pairs) ∧ SomeDefined pairs := by
  by_cases broken : (Truth.t, Truth.f) ∈ pairs ∨ (Truth.t, Truth.e) ∈ pairs <;>
    by_cases defined : SomeDefined pairs <;> simp only [eval, broken, defined] <;> decide

theorem eval_all_eq_e : all.eval pairs = .e ↔ ¬ SomeDefined pairs := by
  by_cases broken : (Truth.t, Truth.f) ∈ pairs ∨ (Truth.t, Truth.e) ∈ pairs <;>
    by_cases defined : SomeDefined pairs <;> simp only [eval, broken, defined] <;> decide

end Quantifier

/-- A world of individuals for the language: whom the constants name, of whom the predicates
hold, and the values of the atoms.  A bilateral predicate is read under the name it is written
with. -/
structure Structure (Individual : Type*) where
  constant : String -> Individual
  relation : String -> List Individual -> Truth
  atom : String -> Truth

namespace Structure

variable {Individual : Type*}

def denote (world : Structure Individual) (assignment : String -> Individual) : Term -> Individual
  | .const name => world.constant name
  | .var name => assignment name

/-- The value of a formula in a structure.  Irregular compounds have no table. -/
noncomputable def value (world : Structure Individual) (assignment : String -> Individual) :
    Formula -> Truth
  | .atom name => world.atom name
  | .pred name args => world.relation name (args.map (world.denote assignment))
  | .bilateral name args starName starred =>
    world.relation (if starred then starName else name) (args.map (world.denote assignment))
  | .neg body => (world.value assignment body).neg
  | .join connective left right =>
    connective.eval (world.value assignment left) (world.value assignment right)
  | .quant quantifier var restriction matrix =>
    quantifier.eval (Set.range fun individual =>
      (world.value (Function.update assignment var individual) restriction,
        world.value (Function.update assignment var individual) matrix))
  | .irregular .. => .e

def renamed (world : Structure Individual) (naming : String -> Individual) : Structure Individual :=
  { world with constant := naming }

end Structure

namespace Formula

/-- What may stand under a quantifier here: two formulas without quantifiers, in which no
constant is spelled like the bound variable. -/
structure Scope (var : String) (restriction matrix : Formula) : Prop where
  restrictionFree : restriction.QuantifierFree
  matrixFree : matrix.QuantifierFree
  apart : var ∉ restriction.constants ++ matrix.constants

end Formula

variable {name : String} {naming : String -> Individual}

namespace Structure

/-! ## Names and values -/

variable {world : Structure Individual} {assignment : String -> Individual}

@[simp] theorem renamed_constant (naming : String -> Individual) :
    (world.renamed naming).constant = naming :=
  rfl

@[simp] theorem renamed_relation (naming : String -> Individual) :
    (world.renamed naming).relation = world.relation :=
  rfl

theorem denote_renamed {args : List Term}
    (kept : forall name, name ∈ (args.filter Term.isConst).map Term.name ->
      naming name = world.constant name) :
    args.map ((world.renamed naming).denote assignment) = args.map (world.denote assignment) := by
  apply List.map_congr_left
  intro term member
  cases term with
  | var name => rfl
  | const name =>
    apply kept
    exact List.mem_map_of_mem (List.mem_filter.mpr ⟨member, rfl⟩)

/-- The value depends on the constants that occur, and on no others. -/
theorem value_renamed {formula : Formula} (free : formula.QuantifierFree)
    (kept : forall name, name ∈ formula.constants -> naming name = world.constant name) :
    (world.renamed naming).value assignment formula = world.value assignment formula := by
  induction free with
  | @basic formula given =>
    cases formula with
    | atom name => rfl
    | pred name args => simp only [value, denote_renamed kept, renamed_relation]
    | bilateral name args starName starred =>
      simp only [value, denote_renamed kept, renamed_relation]
    | _ => cases given
  | neg inner ih => simp only [value, ih kept]
  | join connective first second atFirst atSecond =>
    have keptLeft := atFirst fun name member => kept name (List.mem_append_left _ member)
    have keptRight := atSecond fun name member => kept name (List.mem_append_right _ member)
    simp only [value, keptLeft, keptRight]

theorem denote_replace {term : Term} {var : String} (apart : term ≠ .const var) :
    world.denote assignment (term.replace [(var, .const name)]) =
      world.denote (Function.update assignment var (world.constant name)) term := by
  cases term with
  | const other =>
    have distinct : (other == var) = false := by
      apply beq_false_of_ne
      rintro rfl
      exact apart rfl
    simp [Term.replace, Term.name, List.lookup_cons, List.lookup_nil, distinct, denote]
  | var other =>
    by_cases same : other = var
    · simp [Term.replace, Term.name, same, denote]
    · have distinct : (other == var) = false := beq_false_of_ne same
      simp [Term.replace, Term.name, List.lookup_cons, List.lookup_nil, same, distinct, denote]

theorem denote_instance {args : List Term} {var : String}
    (apart : var ∉ (args.filter Term.isConst).map Term.name) :
    (args.map (Term.replace [(var, .const name)])).map (world.denote assignment) =
      args.map (world.denote (Function.update assignment var (world.constant name))) := by
  rw [List.map_map]
  apply List.map_congr_left
  intro term member
  apply denote_replace
  rintro rfl
  exact apart (List.mem_map_of_mem (List.mem_filter.mpr ⟨member, rfl⟩))

end Structure

/-- The instance of a formula at a constant exists, and its value is that of the formula for
the individual that the constant names. -/
theorem Formula.exists_instance (Individual : Type*) {formula : Formula} {var : String}
    (free : formula.QuantifierFree) (apart : var ∉ formula.constants) (name : String) :
    ∃ made, formula.withConstant var name = .ok made ∧
      forall (world : Structure Individual) (assignment : String -> Individual),
        world.value assignment made =
          world.value (Function.update assignment var (world.constant name)) formula := by
  induction free with
  | @basic formula given =>
    cases formula with
    | atom atomName => exact ⟨_, rfl, fun _ _ => rfl⟩
    | pred predicate args | bilateral predicate args starName starred =>
      refine ⟨_, rfl, fun world assignment => ?_⟩
      simp only [Structure.value, Structure.denote_instance apart]
    | _ => cases given
  | neg inner ih =>
    obtain ⟨made, found, values⟩ := ih apart
    refine ⟨.neg made, ?_, fun world assignment => ?_⟩
    · simp only [withConstant, instantiate] at found ⊢
      rw [found]
      rfl
    · simp only [Structure.value, values]
  | join connective first second atFirst atSecond =>
    obtain ⟨left, foundLeft, valuesLeft⟩ :=
      atFirst fun member => apart (List.mem_append_left _ member)
    obtain ⟨right, foundRight, valuesRight⟩ :=
      atSecond fun member => apart (List.mem_append_right _ member)
    refine ⟨.join connective left right, ?_, fun world assignment => ?_⟩
    · simp only [withConstant, instantiate] at foundLeft foundRight ⊢
      rw [foundLeft, foundRight]
      rfl
    · simp only [Structure.value, valuesLeft, valuesRight]

namespace Structure

/-! ## Conclusions about named individuals -/

/-- The values of both parts of a quantified formula for one individual. -/
noncomputable def pair (world : Structure Individual) (assignment : String -> Individual)
    (var : String) (restriction matrix : Formula) (individual : Individual) : Truth × Truth :=
  (world.value (Function.update assignment var individual) restriction,
    world.value (Function.update assignment var individual) matrix)

theorem value_quant (world : Structure Individual) (assignment : String -> Individual)
    (quantifier : Quantifier) (var : String) (restriction matrix : Formula) :
    world.value assignment (.quant quantifier var restriction matrix) =
      quantifier.eval (Set.range (world.pair assignment var restriction matrix)) :=
  rfl

def Satisfies (world : Structure Individual) (assignment : String -> Individual)
    (conclusion : List Signed) : Prop :=
  forall signed, signed ∈ conclusion -> world.value assignment signed.formula ∈ signed.sign.truths

/-- Some conclusion is true as a whole when the constants that are not listed may denote
anyone. -/
def Realizes (world : Structure Individual) (assignment : String -> Individual)
    (names : List String) (conclusions : List (List Signed)) : Prop :=
  ∃ naming : String -> Individual,
    (forall name, name ∈ names -> naming name = world.constant name) ∧
      ∃ conclusion, conclusion ∈ conclusions ∧
        (world.renamed naming).Satisfies assignment conclusion

variable {world : Structure Individual} {assignment : String -> Individual}
variable {var : String} {restriction matrix : Formula}

variable {names : List String} {sign : Sign} {pairs : Set (Truth × Truth)}

theorem exists_naming (world : Structure Individual) (unlisted : name ∉ names)
    (anyone : Individual) :
    ∃ naming : String -> Individual,
      (forall other, other ∈ names -> naming other = world.constant other) ∧
        naming name = anyone := by
  refine ⟨Function.update world.constant name anyone, ?_, Function.update_self ..⟩
  intro other member
  apply Function.update_of_ne
  rintro rfl
  exact unlisted member

/-- A listed constant denotes whom it did, and any other may denote anyone. -/
theorem exists_naming_iff {property : Individual -> Prop} :
    (∃ naming : String -> Individual,
      (forall other, other ∈ names -> naming other = world.constant other) ∧
        property (naming name)) ↔
      if name ∈ names then property (world.constant name) else ∃ anyone, property anyone := by
  split_ifs with listed
  · constructor
    · rintro ⟨naming, kept, holds⟩
      rwa [kept name listed] at holds
    · intro holds
      exact ⟨world.constant, fun _ _ => rfl, holds⟩
  · constructor
    · rintro ⟨naming, kept, holds⟩
      exact ⟨_, holds⟩
    · rintro ⟨anyone, holds⟩
      obtain ⟨naming, kept, rfl⟩ := exists_naming world listed anyone
      exact ⟨naming, kept, holds⟩

/-- Both parts of a quantified formula at a constant.  They have the pair of values of the
individual that the constant denotes, however the constants outside the formula are read. -/
structure Instances (world : Structure Individual) (assignment : String -> Individual)
    (var : String) (restriction matrix : Formula) (name : String) (made made' : Formula) :
    Prop where
  restrictionAt : restriction.withConstant var name = .ok made
  matrixAt : matrix.withConstant var name = .ok made'
  values : forall naming : String -> Individual,
    (forall other, other ∈ restriction.constants ++ matrix.constants ->
      naming other = world.constant other) ->
    (((world.renamed naming).value assignment made,
      (world.renamed naming).value assignment made') : Truth × Truth) =
      world.pair assignment var restriction matrix (naming name)

theorem exists_instances (world : Structure Individual) (assignment : String -> Individual)
    (scope : Formula.Scope var restriction matrix) (name : String) :
    ∃ made made', world.Instances assignment var restriction matrix name made made' := by
  have apart := scope.apart
  rw [List.mem_append, not_or] at apart
  obtain ⟨made, found, values⟩ :=
    Formula.exists_instance Individual scope.restrictionFree apart.1 name
  obtain ⟨made', found', values'⟩ :=
    Formula.exists_instance Individual scope.matrixFree apart.2 name
  refine ⟨made, made', found, found', fun naming kept => ?_⟩
  rw [values, values', renamed_constant, value_renamed scope.restrictionFree fun other member =>
      kept other (List.mem_append_left _ member),
    value_renamed scope.matrixFree fun other member =>
      kept other (List.mem_append_right _ member)]
  rfl

/-! ## The universal rules -/

/-- The pairs of values that the cases of a signed universal formula allow. -/
def Meets : Sign -> Truth × Truth -> Prop
  | .t, (restriction, matrix) => restriction = .f ∨ matrix = .t
  | .f, (restriction, matrix) => restriction = .t ∧ matrix = .f
  | .e, (restriction, matrix) => restriction = .e ∨ matrix = .e
  | .m, (restriction, matrix) => restriction = .f ∨ matrix = .t ∨ restriction = .t ∧ matrix = .f
  | .n, (restriction, matrix) => restriction = .t ∧ matrix = .f ∨ restriction = .e ∨ matrix = .e
  | .v, _ => False

theorem universalCases_satisfied_iff {made made' : Formula} :
    (∃ conclusion, conclusion ∈ Standard.universalCases made made' sign ∧
      world.Satisfies assignment conclusion) ↔
      Meets sign (world.value assignment made, world.value assignment made') := by
  cases sign <;>
    simp only [Standard.universalCases, Satisfies, Meets, List.mem_cons, List.not_mem_nil,
      or_false, false_and, exists_false, exists_eq_or_imp, exists_eq_left, forall_eq_or_imp,
      forall_eq, Sign.truths]

/-- The rule at one constant, with what the individual that it denotes has to meet. -/
theorem universalRule_realizes (world : Structure Individual)
    (assignment : String -> Individual) (scope : Formula.Scope var restriction matrix)
    (ruled : sign ≠ .v)
    (listed : forall name, name ∈ restriction.constants ++ matrix.constants -> name ∈ names)
    (name : String) :
    ∃ rule, Standard.universalRule ⟨sign, .quant .all var restriction matrix⟩ name none =
        .ok (some rule) ∧
      (world.Realizes assignment names rule.conclusions ↔ if name ∈ names then
          Meets sign (world.pair assignment var restriction matrix (world.constant name))
        else ∃ anyone, Meets sign (world.pair assignment var restriction matrix anyone)) := by
  obtain ⟨made, made', here⟩ := exists_instances world assignment scope name
  refine ⟨Rule.named ⟨sign, .quant .all var restriction matrix⟩ "restricted-forall"
    (Standard.universalCases made made' sign) (some name), ?_, ?_⟩
  · simp only [Standard.universalRule, here.restrictionAt, here.matrixAt]
    cases sign with
    | v => exact absurd rfl ruled
    | _ => rfl
  · refine Iff.trans ?_ exists_naming_iff
    apply exists_congr
    intro naming
    apply and_congr_right
    intro kept
    rw [<- here.values naming fun other member => kept other (listed other member)]
    exact universalCases_satisfied_iff

/-- Under n a second constant that is not listed is looked at too, so anyone may answer. -/
theorem universalRule_realizes_of_additional (world : Structure Individual)
    (assignment : String -> Individual) (scope : Formula.Scope var restriction matrix)
    (listed : forall name, name ∈ restriction.constants ++ matrix.constants -> name ∈ names)
    (name : String) {other : String} (unlisted : other ∉ names) :
    ∃ rule, Standard.universalRule ⟨.n, .quant .all var restriction matrix⟩ name (some other) =
        .ok (some rule) ∧
      (world.Realizes assignment names rule.conclusions ↔
        ∃ anyone, Meets .n (world.pair assignment var restriction matrix anyone)) := by
  obtain ⟨made, made', here⟩ := exists_instances world assignment scope name
  obtain ⟨added, added', there⟩ := exists_instances world assignment scope other
  refine ⟨Rule.named ⟨.n, .quant .all var restriction matrix⟩ "restricted-forall"
    (Standard.universalCases made made' .n ++ Standard.universalCases added added' .n)
    (some name), ?_, ?_, ?_⟩
  · simp only [Standard.universalRule, here.restrictionAt, here.matrixAt, there.restrictionAt,
      there.matrixAt]
    rfl
  · rintro ⟨naming, kept, conclusion, member, holds⟩
    have keptHere := fun other member => kept other (listed other member)
    rcases List.mem_append.mp member with first | second
    · have met := universalCases_satisfied_iff.mp ⟨conclusion, first, holds⟩
      rw [here.values naming keptHere] at met
      exact ⟨_, met⟩
    · have met := universalCases_satisfied_iff.mp ⟨conclusion, second, holds⟩
      rw [there.values naming keptHere] at met
      exact ⟨_, met⟩
  · rintro ⟨anyone, met⟩
    obtain ⟨naming, kept, rfl⟩ := exists_naming world unlisted anyone
    rw [<- there.values naming fun other member => kept other (listed other member)] at met
    obtain ⟨conclusion, member, holds⟩ := universalCases_satisfied_iff.mpr met
    exact ⟨naming, kept, conclusion, List.mem_append_right _ member, holds⟩

/-- A value is missing, and neither a false restriction nor a true matrix makes up for it. -/
def Undecided (pair : Truth × Truth) : Prop :=
  (pair.1 = .e ∨ pair.2 = .e) ∧ pair.1 ≠ .f ∧ pair.2 ≠ .t

theorem meets_of_defined {pair : Truth × Truth} (first : pair.1 ≠ .e) (second : pair.2 ≠ .e) :
    Meets .m pair ∧ (pair ≠ (.t, .f) -> Meets .t pair) := by
  rcases pair with ⟨u, v⟩
  revert first second
  cases u <;> cases v <;> simp [Meets]

/-- When a signed universal formula is true, some pair meets it, except under f when every
counterexample has an undefined matrix. -/
theorem exists_meets (inhabited : pairs.Nonempty) (holds : Quantifier.all.eval pairs ∈ sign.truths)
    (ruled : sign ≠ .v)
    (answered : sign = .f -> (.t, .f) ∈ pairs) : ∃ pair, pair ∈ pairs ∧ Meets sign pair := by
  have undefined (nowhere : ¬ Quantifier.SomeDefined pairs) :
      ∃ pair, pair ∈ pairs ∧ (pair.1 = .e ∨ pair.2 = .e) := by
    obtain ⟨pair, member⟩ := inhabited
    refine ⟨pair, member, ?_⟩
    by_contra neither
    exact nowhere ⟨pair, member, fun first => neither (.inl first),
      fun second => neither (.inr second)⟩
  cases sign with
  | t =>
    obtain ⟨⟨unbroken, -⟩, pair, member, first, second⟩ :=
      Quantifier.eval_all_eq_t.mp (List.mem_singleton.mp holds)
    refine ⟨pair, member, (meets_of_defined first second).2 ?_⟩
    rintro rfl
    exact unbroken member
  | f => exact ⟨_, answered rfl, rfl, rfl⟩
  | e => exact undefined (Quantifier.eval_all_eq_e.mp (List.mem_singleton.mp holds))
  | m =>
    have defined : Quantifier.SomeDefined pairs := by
      by_contra nowhere
      rw [Quantifier.eval_all_eq_e.mpr nowhere] at holds
      exact absurd holds (by decide)
    obtain ⟨pair, member, first, second⟩ := defined
    exact ⟨pair, member, (meets_of_defined first second).1⟩
  | n =>
    by_cases defined : Quantifier.SomeDefined pairs
    · have broken : (.t, .f) ∈ pairs ∨ (.t, .e) ∈ pairs := by
        by_contra unbroken
        rw [Quantifier.eval_all_eq_t.mpr ⟨not_or.mp unbroken, defined⟩] at holds
        exact absurd holds (by decide)
      rcases broken with counterexample | partly
      · exact ⟨_, counterexample, .inl ⟨rfl, rfl⟩⟩
      · exact ⟨_, partly, .inr (.inr rfl)⟩
    · obtain ⟨pair, member, missing⟩ := undefined defined
      exact ⟨pair, member, .inr missing⟩
  | v => exact absurd rfl ruled

/-- Whether a given pair meets a true universal formula under t, e or m. -/
theorem meets_iff (holds : Quantifier.all.eval pairs ∈ sign.truths) {pair : Truth × Truth}
    (member : pair ∈ pairs) (looksAnywhere : sign = .t ∨ sign = .e ∨ sign = .m) :
    Meets sign pair ↔ (sign = .e ∨ ¬ Undecided pair) := by
  rcases looksAnywhere with rfl | rfl | rfl
  · have unbroken := (Quantifier.eval_all_eq_t.mp (List.mem_singleton.mp holds)).1.1
    have distinct : pair ≠ (.t, .f) := fun equal => unbroken (equal ▸ member)
    rcases pair with ⟨u, v⟩
    revert distinct
    cases u <;> cases v <;> simp [Meets, Undecided]
  · have nowhere := Quantifier.eval_all_eq_e.mp (List.mem_singleton.mp holds)
    have missing : pair.1 = .e ∨ pair.2 = .e := by
      by_contra neither
      rw [not_or] at neither
      exact nowhere ⟨pair, member, neither⟩
    simpa [Meets] using missing
  · rcases pair with ⟨u, v⟩
    cases u <;> cases v <;> simp [Meets, Undecided]

/-- Where the rule for a quantified formula leaves the structure out: under t and m the constant
of the branch it looks at is undecided, under f no individual is a counterexample with a false
matrix. -/
def Overlooked (world : Structure Individual) (assignment : String -> Individual)
    (var : String) (restriction matrix : Formula) (situation : Situation) :
    Quantifier -> Sign -> Prop
  | .all, .t | .all, .m =>
    ∃ name, name ∈ situation.existing ∧ situation.universalConstant? = some name ∧
      Undecided (world.pair assignment var restriction matrix (world.constant name))
  | .all, .f => forall anyone, world.pair assignment var restriction matrix anyone ≠ (.t, .f)
  | _, _ => False

/-- Choosing a rule does not fail, and a rule that is found keeps the structure unless it is
overlooked. -/
def KeptUnless (world : Structure Individual) (assignment : String -> Individual)
    (names : List String) (overlooked : Prop) (outcome : Except Fault (Option Rule)) : Prop :=
  ∃ result, outcome = .ok result ∧ forall rule, result = some rule ->
    (world.Realizes assignment names rule.conclusions ↔ ¬ overlooked)

theorem keptUnless_none {overlooked : Prop} :
    world.KeptUnless assignment names overlooked (.ok none) :=
  ⟨none, rfl, nofun⟩

theorem keptUnless_of_rule {overlooked : Prop} {outcome : Except Fault (Option Rule)}
    (found : ∃ rule, outcome = .ok (some rule) ∧
      (world.Realizes assignment names rule.conclusions ↔ ¬ overlooked)) :
    world.KeptUnless assignment names overlooked outcome := by
  obtain ⟨rule, made, realized⟩ := found
  refine ⟨some rule, made, ?_⟩
  rintro _ ⟨⟩
  exact realized

section Universal

variable (scope : Formula.Scope var restriction matrix) {sign : Sign} {situation : Situation}
variable (unlisted :
  situation.fresh ∉ restriction.constants ++ matrix.constants ++ situation.existing)
variable (holds : world.value assignment (.quant .all var restriction matrix) ∈ sign.truths)

include holds in
theorem exists_anyone_meets (ruled : sign ≠ .v) (answered : sign = .f ->
      ∃ anyone, world.pair assignment var restriction matrix anyone = (.t, .f)) :
    ∃ anyone, Meets sign (world.pair assignment var restriction matrix anyone) := by
  have inhabited : (Set.range (world.pair assignment var restriction matrix)).Nonempty :=
    ⟨_, Set.mem_range_self (world.constant var)⟩
  obtain ⟨_, ⟨anyone, rfl⟩, met⟩ := exists_meets inhabited holds ruled answered
  exact ⟨anyone, met⟩

include scope unlisted holds in
/-- Under t, e and m the rule looks at one constant, be it new or from the branch. -/
theorem chosen_realizes_iff (looksAnywhere : sign = .t ∨ sign = .e ∨ sign = .m)
    (chosen : situation.universalConstant? = some name) :
    ∃ rule, Standard.universalRule ⟨sign, .quant .all var restriction matrix⟩ name none =
        .ok (some rule) ∧
      (world.Realizes assignment
          (restriction.constants ++ matrix.constants ++ situation.existing) rule.conclusions ↔
        ¬ world.Overlooked assignment var restriction matrix situation .all sign) := by
  have ruled : sign ≠ .v := by rcases looksAnywhere with rfl | rfl | rfl <;> decide
  obtain ⟨rule, made, realized⟩ := universalRule_realizes world assignment scope ruled
    (fun name member => List.mem_append_left situation.existing member) name
  refine ⟨rule, made, realized.trans ?_⟩
  rcases Situation.universalConstant?_eq_some chosen with ⟨empty, rfl⟩ | ⟨listed, _⟩
  · rw [if_neg unlisted]
    have nowhere : ¬ world.Overlooked assignment var restriction matrix situation .all sign := by
      rcases looksAnywhere with rfl | rfl | rfl <;> simp [Overlooked, empty]
    refine iff_of_true (exists_anyone_meets holds ruled ?_) nowhere
    rcases looksAnywhere with rfl | rfl | rfl <;> intro equal <;> cases equal
  · rw [value_quant] at holds
    rw [if_pos (List.mem_append_right _ listed),
      meets_iff holds (Set.mem_range_self _) looksAnywhere]
    rcases looksAnywhere with rfl | rfl | rfl <;>
      simp [Overlooked, chosen, listed]

include holds in
/-- Under f and n a new constant may denote anyone, and only f overlooks. -/
theorem exists_meets_iff_not_overlooked (looksNew : sign = .f ∨ sign = .n) :
    (∃ anyone, Meets sign (world.pair assignment var restriction matrix anyone)) ↔
      ¬ world.Overlooked assignment var restriction matrix situation .all sign := by
  rcases looksNew with rfl | rfl
  · simp [Overlooked, Meets, Prod.ext_iff]
  · have someone := exists_anyone_meets holds (by decide) nofun
    exact iff_of_true someone id

include scope unlisted holds in
theorem universalChoice_kept : world.KeptUnless assignment
      (restriction.constants ++ matrix.constants ++ situation.existing)
      (world.Overlooked assignment var restriction matrix situation .all sign)
      (Standard.universalChoice ⟨sign, .quant .all var restriction matrix⟩ situation) := by
  have listed (name : String) (member : name ∈ restriction.constants ++ matrix.constants) :
      name ∈ restriction.constants ++ matrix.constants ++ situation.existing :=
    List.mem_append_left _ member
  have kept_fresh (looksNew : sign = .f ∨ sign = .n) (ruled : sign ≠ .v) :
      world.KeptUnless assignment (restriction.constants ++ matrix.constants ++ situation.existing)
        (world.Overlooked assignment var restriction matrix situation .all sign)
        (Standard.universalRule ⟨sign, .quant .all var restriction matrix⟩ situation.fresh
          none) := by
    obtain ⟨rule, made, realized⟩ :=
      universalRule_realizes world assignment scope ruled listed situation.fresh
    rw [if_neg unlisted] at realized
    exact keptUnless_of_rule
      ⟨rule, made, realized.trans (exists_meets_iff_not_overlooked holds looksNew)⟩
  unfold Standard.universalChoice
  cases sign with
  | t | e | m =>
    cases chosen : situation.universalConstant? with
    | none => exact keptUnless_none
    | some name =>
      exact keptUnless_of_rule (chosen_realizes_iff scope unlisted holds (by decide) chosen)
  | f =>
    by_cases used : situation.anyUsed = true
    · simpa only [used, if_true] using keptUnless_none
    · simpa only [used, Bool.false_eq_true, if_false] using kept_fresh (.inl rfl) (by decide)
  | n =>
    by_cases used : situation.anyUsed = true
    · simpa only [used, if_true] using keptUnless_none
    · simp only [used, Bool.false_eq_true, if_false]
      split
      case h_1 first rest existing =>
        obtain ⟨rule, made, realized⟩ :=
          universalRule_realizes_of_additional world assignment scope listed first unlisted
        exact keptUnless_of_rule
          ⟨rule, made, realized.trans (exists_meets_iff_not_overlooked holds (.inr rfl))⟩
      case h_2 => exact kept_fresh (.inr rfl) (by decide)
  | v =>
    cases chosen : situation.universalConstant? with
    | none => exact keptUnless_none
    | some name =>
      obtain ⟨made, made', here⟩ := exists_instances world assignment scope name
      simp only [Standard.universalRule, here.restrictionAt, here.matrixAt]
      exact keptUnless_none

end Universal

/-! ## The existential rules -/

/-- Two classical values, and elsewhere no pair of truths, satisfy one of the two conclusions
that deny an existential formula. -/
theorem denial_satisfied {witness witness' other other' : Formula}
    (first : world.value assignment witness ≠ .e) (second : world.value assignment witness' ≠ .e)
    (elsewhere : (world.value assignment other, world.value assignment other') ≠ (.t, .t)) :
    world.Satisfies assignment [⟨.m, witness⟩, ⟨.m, witness'⟩, ⟨.n, other⟩] ∨
      world.Satisfies assignment [⟨.m, witness⟩, ⟨.m, witness'⟩, ⟨.n, other'⟩] := by
  have classical {value : Truth} (defined : value ≠ .e) : value ∈ Sign.m.truths := by
    cases value <;> simp [Sign.truths] at defined ⊢
  have untrue {value : Truth} (distinct : value ≠ .t) : value ∈ Sign.n.truths := by
    cases value <;> simp [Sign.truths] at distinct ⊢
  simp only [Satisfies, List.forall_mem_cons, List.not_mem_nil, false_implies, implies_true,
    and_true, classical first, classical second, true_and]
  by_cases same : world.value assignment other = .t
  · right
    apply untrue
    intro same'
    exact elsewhere (by rw [same, same'])
  · exact .inl (untrue same)

section Existential

variable {names : List String}
variable (listed : forall name, name ∈ restriction.constants ++ matrix.constants -> name ∈ names)
variable {fresh : String} (unlisted : fresh ∉ names) {made made' : Formula}
variable (here : world.Instances assignment var restriction matrix fresh made made')

include listed unlisted here in
theorem exists_naming_pair (anyone : Individual) : ∃ naming : String -> Individual,
      (forall name, name ∈ names -> naming name = world.constant name) ∧
        (world.renamed naming).value assignment made =
            (world.pair assignment var restriction matrix anyone).1 ∧
          (world.renamed naming).value assignment made' =
            (world.pair assignment var restriction matrix anyone).2 := by
  obtain ⟨naming, kept, rfl⟩ := exists_naming world unlisted anyone
  have values := here.values naming fun name member => kept name (listed name member)
  exact ⟨naming, kept, congrArg Prod.fst values, congrArg Prod.snd values⟩

variable {conclusions : List (List Signed)}

include listed unlisted here in
theorem realizes_of_true
    (holds : world.value assignment (.quant .exist var restriction matrix) = .t)
    (member : [⟨.t, made⟩, ⟨.t, made'⟩] ∈ conclusions) :
    world.Realizes assignment names conclusions := by
  rw [value_quant, Quantifier.eval_exist_eq_t] at holds
  obtain ⟨anyone, both⟩ := holds
  obtain ⟨naming, kept, first, second⟩ := exists_naming_pair listed unlisted here anyone
  rw [both] at first second
  exact ⟨naming, kept, _, member, by simp [Satisfies, Sign.truths, first, second]⟩

include listed unlisted here in
theorem realizes_of_false
    (holds : world.value assignment (.quant .exist var restriction matrix) = .f)
    {other other' : Formula}
    (there : world.Instances assignment var restriction matrix name other other')
    (member : [⟨.m, made⟩, ⟨.m, made'⟩, ⟨.n, other⟩] ∈ conclusions)
    (member' : [⟨.m, made⟩, ⟨.m, made'⟩, ⟨.n, other'⟩] ∈ conclusions) :
    world.Realizes assignment names conclusions := by
  rw [value_quant, Quantifier.eval_exist_eq_f] at holds
  obtain ⟨nowhere, _, ⟨anyone, rfl⟩, defined, defined'⟩ := holds
  obtain ⟨naming, kept, first, second⟩ := exists_naming_pair listed unlisted here anyone
  rw [<- first] at defined
  rw [<- second] at defined'
  have elsewhere := there.values naming fun name member => kept name (listed name member)
  rcases denial_satisfied defined defined' fun both =>
    nowhere ⟨naming name, elsewhere.symm.trans both⟩ with satisfied | satisfied
  · exact ⟨naming, kept, _, member, satisfied⟩
  · exact ⟨naming, kept, _, member', satisfied⟩

include listed unlisted here in
theorem realizes_of_undefined
    (holds : world.value assignment (.quant .exist var restriction matrix) = .e)
    (member : [⟨.e, made⟩] ∈ conclusions)
    (member' : [⟨.e, made'⟩] ∈ conclusions) : world.Realizes assignment names conclusions := by
  rw [value_quant, Quantifier.eval_exist_eq_e] at holds
  obtain ⟨naming, kept, first, second⟩ :=
    exists_naming_pair listed unlisted here (world.constant fresh)
  by_cases missing : (world.renamed naming).value assignment made = .e
  · exact ⟨naming, kept, _, member, by simp [Satisfies, Sign.truths, missing]⟩
  · by_cases missing' : (world.renamed naming).value assignment made' = .e
    · exact ⟨naming, kept, _, member', by simp [Satisfies, Sign.truths, missing']⟩
    · rw [first] at missing
      rw [second] at missing'
      exact absurd ⟨_, Set.mem_range_self _, missing, missing'⟩ holds

end Existential

theorem existentialRule_kept (scope : Formula.Scope var restriction matrix) {situation : Situation}
    (unlisted : situation.fresh ∉ restriction.constants ++ matrix.constants ++ situation.existing)
    (holds : world.value assignment (.quant .exist var restriction matrix) ∈ sign.truths) :
    world.KeptUnless assignment (restriction.constants ++ matrix.constants ++ situation.existing)
      (world.Overlooked assignment var restriction matrix situation .exist sign)
      (Standard.existentialRule ⟨sign, .quant .exist var restriction matrix⟩ situation.fresh
        situation.existing.head?) := by
  have listed (name : String) (member : name ∈ restriction.constants ++ matrix.constants) :
      name ∈ restriction.constants ++ matrix.constants ++ situation.existing :=
    List.mem_append_left _ member
  obtain ⟨made, made', here⟩ := exists_instances world assignment scope situation.fresh
  obtain ⟨other, other', there⟩ := exists_instances world assignment scope
    (situation.existing.head?.getD (Standard.arbitrary situation.fresh))
  obtain ⟨second, second', beyond⟩ :=
    exists_instances world assignment scope (Standard.arbitrary situation.fresh)
  simp only [Standard.existentialRule, here.restrictionAt, here.matrixAt]
  cases sign with
  | v => exact keptUnless_none
  | t =>
    refine keptUnless_of_rule ⟨_, rfl, iff_of_true ?_ id⟩
    exact realizes_of_true listed unlisted here (List.mem_singleton.mp holds) List.mem_cons_self
  | f =>
    simp only [there.restrictionAt, there.matrixAt]
    refine keptUnless_of_rule ⟨_, rfl, iff_of_true ?_ id⟩
    exact realizes_of_false listed unlisted here (List.mem_singleton.mp holds) there
      List.mem_cons_self (List.mem_cons_of_mem _ List.mem_cons_self)
  | e =>
    refine keptUnless_of_rule ⟨_, rfl, iff_of_true ?_ id⟩
    exact realizes_of_undefined listed unlisted here (List.mem_singleton.mp holds)
      List.mem_cons_self (List.mem_cons_of_mem _ List.mem_cons_self)
  | m =>
    simp only [beyond.restrictionAt, beyond.matrixAt]
    refine keptUnless_of_rule ⟨_, rfl, iff_of_true ?_ id⟩
    simp only [Sign.truths, List.mem_cons, List.not_mem_nil, or_false] at holds
    rcases holds with isFalse | isTrue
    · exact realizes_of_false listed unlisted here isFalse beyond (by simp [Rule.named])
        (by simp [Rule.named])
    · exact realizes_of_true listed unlisted here isTrue List.mem_cons_self
  | n =>
    simp only [beyond.restrictionAt, beyond.matrixAt]
    refine keptUnless_of_rule ⟨_, rfl, iff_of_true ?_ id⟩
    simp only [Sign.truths, List.mem_cons, List.not_mem_nil, or_false] at holds
    rcases holds with isUndefined | isFalse
    · exact realizes_of_undefined listed unlisted here isUndefined (by simp [Rule.named])
        (by simp [Rule.named])
    · exact realizes_of_false listed unlisted here isFalse beyond (by simp [Rule.named])
        (by simp [Rule.named])

/-! ## Both quantifiers -/

/-- Two individuals, of whom P and Q have the given values.  Every constant denotes the
first. -/
def couple (first second : Truth × Truth) : Structure Bool where
  constant _ := false
  relation name args :=
    match args with
    | [true] => if name = "P" then second.1 else second.2
    | _ => if name = "P" then first.1 else first.2
  atom _ := .e

theorem couple_pair (first second : Truth × Truth) (assignment : String -> Bool)
    (individual : Bool) :
    (couple first second).pair assignment "X" (.pred "P" [.var "X"]) (.pred "Q" [.var "X"])
      individual = if individual then second else first := by
  cases individual <;> simp [pair, value, denote, couple]

theorem couple_value (first second : Truth × Truth) (assignment : String -> Bool)
    (quantifier : Quantifier) :
    (couple first second).value assignment
        (.quant quantifier "X" (.pred "P" [.var "X"]) (.pred "Q" [.var "X"])) =
      quantifier.eval {first, second} := by
  rw [value_quant]
  congr 1
  ext values
  simp [couple_pair, eq_comm]

/-- The parts of "all P are Q" may stand under a quantifier. -/
theorem couple_scope : Formula.Scope "X" (.pred "P" [.var "X"]) (.pred "Q" [.var "X"]) :=
  ⟨.basic rfl, .basic rfl, by decide⟩

/-- Choosing the rule for a true quantified formula does not fail, and a rule that is found has
a conclusion that is true for some reading of the constants outside the formula and the branch,
unless the structure is overlooked. -/
theorem quantifier_rule_realized_iff (world : Structure Individual)
    (assignment : String -> Individual) {quantifier : Quantifier}
    (known : quantifier = .all ∨ quantifier = .exist)
    (scope : Formula.Scope var restriction matrix) {sign : Sign} (situation : Situation)
    (unlisted : situation.fresh ∉
      (Formula.quant quantifier var restriction matrix).constants ++ situation.existing)
    (holds : world.value assignment (.quant quantifier var restriction matrix) ∈ sign.truths) :
    ∃ result, Standard.rule ⟨sign, .quant quantifier var restriction matrix⟩ situation =
        .ok result ∧
      forall rule, result = some rule -> (world.Realizes assignment
            ((Formula.quant quantifier var restriction matrix).constants ++ situation.existing)
            rule.conclusions ↔
          ¬ world.Overlooked assignment var restriction matrix situation quantifier sign) := by
  rw [Formula.constants] at unlisted ⊢
  rcases known with rfl | rfl
  · exact universalChoice_kept scope unlisted holds
  · exact existentialRule_kept scope unlisted holds

/-- The first individual is a true instance of "all P are Q", so the rule at its name keeps the
structure, although the second one is undecided. -/
theorem quantifier_rule_realized_couple : ∃ rule, Standard.rule
        ⟨.t, .quant .all "X" (.pred "P" [.var "X"]) (.pred "Q" [.var "X"])⟩
        ⟨["a"], none, "c_1"⟩ = .ok (some rule) ∧
      (couple (.t, .t) (.e, .f)).Realizes (fun _ => false) ["a"] rule.conclusions := by
  have holds : (couple (.t, .t) (.e, .f)).value (fun _ => false)
      (.quant .all "X" (.pred "P" [.var "X"]) (.pred "Q" [.var "X"])) ∈ Sign.t.truths := by
    rw [couple_value, Quantifier.eval_all_eq_t.mpr ⟨by simp, (.t, .t), by simp⟩]
    decide
  obtain ⟨_, ⟨⟩, realized⟩ := quantifier_rule_realized_iff (couple (.t, .t) (.e, .f))
    (fun _ => false) (.inl rfl) couple_scope ⟨["a"], none, "c_1"⟩ (by decide) holds
  refine ⟨_, rfl, (realized _ rfl).mpr ?_⟩
  rintro ⟨name, -, -, missing, -⟩
  rw [couple_pair] at missing
  simp [couple] at missing

/-- Structures that the rules leave out.  "All P are Q" is true of the first couple, whose first
individual has an undefined P and a false Q; the rule asks the name of that individual for a
false P or a true Q.  It is false of the second couple, where the only individual that is P has
an undefined Q; the rule asks for a false Q.  In the last formula a constant is spelled like the
bound variable and gets replaced with it. -/
theorem quantifier_rules_leave_out : (∃ rule, (couple (.e, .f) (.t, .t)).value (fun _ => false)
          (.quant .all "X" (.pred "P" [.var "X"]) (.pred "Q" [.var "X"])) = .t ∧
        Standard.rule ⟨.t, .quant .all "X" (.pred "P" [.var "X"]) (.pred "Q" [.var "X"])⟩
          ⟨["a"], none, "c_1"⟩ = .ok (some rule) ∧
        ¬ (couple (.e, .f) (.t, .t)).Realizes (fun _ => false) ["a"] rule.conclusions) ∧
      (∃ rule, (couple (.t, .e) (.f, .f)).value (fun _ => false)
          (.quant .all "X" (.pred "P" [.var "X"]) (.pred "Q" [.var "X"])) = .f ∧
        Standard.rule ⟨.f, .quant .all "X" (.pred "P" [.var "X"]) (.pred "Q" [.var "X"])⟩
          ⟨[], none, "c_1"⟩ = .ok (some rule) ∧
        ¬ (couple (.t, .e) (.f, .f)).Realizes (fun _ => false) [] rule.conclusions) ∧
      ∃ rule, (couple (.f, .t) (.t, .f)).value (fun _ => false)
          (.quant .exist "X" (.pred "P" [.var "X"]) (.pred "Q" [.const "X"])) = .t ∧
        Standard.rule ⟨.t, .quant .exist "X" (.pred "P" [.var "X"]) (.pred "Q" [.const "X"])⟩
          ⟨[], none, "c_1"⟩ = .ok (some rule) ∧
        ¬ (couple (.f, .t) (.t, .f)).Realizes (fun _ => false) ["X"] rule.conclusions := by
  refine ⟨⟨_, ?_, rfl, ?_⟩, ⟨_, ?_, rfl, ?_⟩, ⟨_, ?_, rfl, ?_⟩⟩
  · rw [couple_value, Quantifier.eval_all_eq_t]
    exact ⟨by simp, (.t, .t), by simp⟩
  · rintro ⟨naming, kept, conclusion, member, satisfied⟩
    have denoted : naming "a" = false := kept "a" (by simp)
    have listed : conclusion ∈
        [[⟨.f, .pred "P" [.const "a"]⟩], [⟨.t, .pred "Q" [.const "a"]⟩]] := member
    simp only [List.mem_cons, List.not_mem_nil, or_false] at listed
    rcases listed with rfl | rfl <;>
      simp [Satisfies, value, renamed, denote, couple, denoted, Sign.truths] at satisfied
  · rw [couple_value, Quantifier.eval_all_eq_f]
    exact ⟨.inr (by simp), (.f, .f), by simp⟩
  · rintro ⟨naming, kept, conclusion, member, satisfied⟩
    have listed : conclusion = [⟨.t, .pred "P" [.const "c_1"]⟩, ⟨.f, .pred "Q" [.const "c_1"]⟩] :=
      List.mem_singleton.mp member
    subst listed
    cases denoted : naming "c_1" <;>
      simp [Satisfies, value, renamed, denote, couple, denoted, Sign.truths] at satisfied
  · rw [value_quant, Quantifier.eval_exist_eq_t]
    exact ⟨true, by simp [pair, value, denote, couple]⟩
  · rintro ⟨naming, kept, conclusion, member, satisfied⟩
    have listed : conclusion = [⟨.t, .pred "P" [.const "c_1"]⟩, ⟨.t, .pred "Q" [.const "c_1"]⟩] :=
      List.mem_singleton.mp member
    subst listed
    cases denoted : naming "c_1" <;>
      simp [Satisfies, value, renamed, denote, couple, denoted, Sign.truths] at satisfied

end Structure

end WeakKleene
