import WeakKleene.Proofs.Chaining
import WeakKleene.Proofs.Numbering
import WeakKleene.Proofs.SidedReading

namespace WeakKleene

/-!
# What follows by name

Chaining knows a universal statement by the names of its two predicates alone.
A fact of the first name leads to a fact of the second about the same
individual, whatever arguments the two predicates have.  So each statement that
is added belongs to a rule and to an earlier fact.  It is an instance of the rule
exactly if both predicates have one argument, and that is the bound variable or
the individual itself.

A fact that was derived is not stored where a statement has its text as the
formula, under whatever sign.  It leads on to others all the same.  So the fact
behind an added statement is held under the sign t, or it is one that a
statement under another sign has kept from being stored.
-/

/-! ## Instances of predicates -/

namespace Formula

/-- A predicate of one argument, which is the variable or is named like the individual. -/
def Concerns (formula : Formula) (var individual : String) : Prop :=
  ∃ term, formula.arguments? = some [term] ∧ (term.name = var ∨ term.name = individual)

/-- The instance of a formula at an individual is written as the text. -/
def InstanceReads (formula : Formula) (var individual text : String) : Prop :=
  ∃ instantiated, formula.withConstant var individual = .ok instantiated ∧ instantiated.text = text

variable {formula : Formula} {name individual : String} {args : List Term}

theorem text_eq_application (named : formula.predicateName? = some name) :
    ∃ args, formula.arguments? = some args ∧ formula.text = application name args := by
  cases formula with
  | pred other args | bilateral other args star starred =>
    cases named
    exact ⟨args, rfl, by rw [text]⟩
  | atom | neg | join | quant | irregular => cases named

theorem withConstant_predicate (named : formula.predicateName? = some name)
    (arguments : formula.arguments? = some args) (var individual : String) :
    ∃ instantiated, formula.withConstant var individual = .ok instantiated ∧ instantiated.text =
        application name (args.map (Term.replace [(var, .const individual)])) := by
  cases formula with
  | pred other others | bilateral other others star starred =>
    cases named
    cases arguments
    exact ⟨_, by rw [withConstant, instantiate], by rw [text]⟩
  | atom | neg | join | quant | irregular => cases named

/-- Several arguments are written with a comma between them. -/
theorem argumentChars_eq_iff (some : args ≠ []) (separated : ',' ∉ individual.toList) :
    argumentChars args = individual.toList ↔ ∃ term, args = [term] ∧ term.name = individual := by
  match args, some with
  | [term], _ => simp [argumentChars, String.toList_inj]
  | first :: second :: rest, _ =>
    have comma : ',' ∈ argumentChars (first :: second :: rest) := by
      simp [argumentChars, String.intercalate_cons_cons]
    constructor
    · intro same
      exact absurd (same ▸ comma) separated
    · rintro ⟨term, same, _⟩
      cases same

/-- A predicate is written like a fact exactly if the individual of the fact is its argument. -/
theorem application_eq_iff (separated : ',' ∉ individual.toList) :
    application name args = Theory.factText (name, individual) ↔
      ∃ term, args = [term] ∧ term.name = individual := by
  rw [<- String.toList_inj, application_toList]
  have written : (Theory.factText (name, individual)).toList =
      name.toList ++ '(' :: (individual.toList ++ [')']) := by
    simp [Theory.factText]
  rw [written, List.append_cancel_left_eq]
  by_cases none : args = []
  · simp [none]
  · rw [if_neg none, List.cons_inj_right, List.append_cancel_right_eq]
    exact argumentChars_eq_iff none separated

theorem application_ne {text : String} (args : List Term) (nonempty : name ≠ "")
    (different : name.toList.head? ≠ text.toList.head?) : application name args ≠ text := by
  rintro rfl
  apply different
  rw [application_toList]
  cases characters : name.toList with
  | nil => exact absurd (String.toList_eq_nil_iff.mp characters) nonempty
  | cons c rest => rfl

/-- The instance of a predicate at an individual is a fact of its name exactly if the predicate
concerns the individual. -/
theorem instanceReads_iff (named : formula.predicateName? = some name) (var : String)
    (separated : ',' ∉ individual.toList) :
    formula.InstanceReads var individual (Theory.factText (name, individual)) ↔
      formula.Concerns var individual := by
  rcases text_eq_application named with ⟨args, arguments, _⟩
  rcases withConstant_predicate named arguments var individual with ⟨instantiated, made, written⟩
  have reads : formula.InstanceReads var individual (Theory.factText (name, individual)) ↔
      application name (args.map (Term.replace [(var, .const individual)])) =
        Theory.factText (name, individual) := by
    rw [<- written]
    constructor
    · rintro ⟨other, same, text⟩
      cases made.symm.trans same
      exact text
    · exact fun text => ⟨instantiated, made, text⟩
  have replaced (term : Term) : (term.replace [(var, .const individual)]).name = individual ↔
      term.name = var ∨ term.name = individual := by
    rw [Term.replace_singleton]
    by_cases bound : term.name = var
    · rw [if_pos bound]
      exact ⟨fun _ => .inl bound, fun _ => rfl⟩
    · rw [if_neg bound]
      exact ⟨.inr, fun either => either.resolve_left bound⟩
  rw [reads, application_eq_iff separated, Concerns, arguments]
  constructor
  · rintro ⟨term, same, text⟩
    rcases List.map_eq_singleton_iff.mp same with ⟨original, rfl, rfl⟩
    exact ⟨original, rfl, (replaced original).mp text⟩
  · rintro ⟨term, same, either⟩
    cases same
    exact ⟨_, rfl, (replaced term).mpr either⟩

end Formula

/-! ## Storing derivations -/

namespace Theory

open Tableau (exists_of_bind_eq_ok)

variable {given : List Statement} {derivations : List Derivation} {stored : List Statement}

/-- A statement under the sign t that a derivation was stored as. -/
structure StoredFrom (derivation : Derivation) (statement : Statement) : Prop where
  formula : statement.formula = .string (factText derivation.fact)
  sign : statement.sign = .string "t"

/-- What becomes of derivations that are stored one after the other: nothing where a statement has
the text as its formula already, and a new statement elsewhere. -/
inductive Stores (given : List Statement) : List Derivation -> List Statement -> Prop where
  | nil : Stores given [] []
  | known {derivations : List Derivation} {stored : List Statement} {derivation : Derivation}
      {statement : Statement} (before : Stores given derivations stored)
      (member : statement ∈ given ++ stored)
      (same : statement.formula.isText (factText derivation.fact) = true) :
      Stores given (derivations ++ [derivation]) stored
  | new {derivations : List Derivation} {stored : List Statement} {derivation : Derivation}
      {statement : Statement} (before : Stores given derivations stored)
      (made : StoredFrom derivation statement) :
      Stores given (derivations ++ [derivation]) (stored ++ [statement])

/-- Every stored statement comes from a derivation, and those before it from derivations before. -/
theorem Stores.split (stores : Stores given derivations stored) {earlier later : List Statement}
    {added : Statement} (whole : stored = earlier ++ added :: later) :
    ∃ before derivation after, derivations = before ++ derivation :: after ∧
      Stores given before earlier ∧ StoredFrom derivation added := by
  induction stores generalizing later with
  | nil => exact absurd whole.symm (by simp)
  | @known _ _ last _ _ _ _ ih =>
    rcases ih whole with ⟨before, derivation, after, rfl, stores, made⟩
    refine ⟨before, derivation, after ++ [last], ?_, stores, made⟩
    rw [List.append_assoc, List.cons_append]
  | @new _ _ last statement stores made ih =>
    rcases List.eq_nil_or_concat later with rfl | ⟨between, final, rfl⟩
    · rcases List.append_inj' whole rfl with ⟨rfl, same⟩
      cases same
      exact ⟨_, last, [], rfl, stores, made⟩
    · rw [List.concat_eq_append, <- List.cons_append, <- List.append_assoc] at whole
      rcases ih (List.append_inj' whole rfl).1 with ⟨before, derivation, after, rfl, stores, made⟩
      refine ⟨before, derivation, after ++ [last], ?_, stores, made⟩
      rw [List.append_assoc, List.cons_append]

theorem Stores.has (stores : Stores given derivations stored) :
    forall derivation, derivation ∈ derivations -> ∃ statement, statement ∈ given ++ stored ∧
      statement.formula.isText (factText derivation.fact) = true := by
  induction stores with
  | nil => exact nofun
  | @known _ _ last statement _ member same ih =>
    intro derivation listed
    rcases List.mem_append.mp listed with old | new
    · exact ih derivation old
    · exact ⟨statement, member, List.mem_singleton.mp new ▸ same⟩
  | @new _ _ last statement _ made ih =>
    intro derivation listed
    rcases List.mem_append.mp listed with old | new
    · rcases ih derivation old with ⟨other, member, same⟩
      rw [<- List.append_assoc]
      exact ⟨other, List.mem_append_left _ member, same⟩
    · refine ⟨statement, by simp, ?_⟩
      rw [List.mem_singleton.mp new, made.formula]
      exact beq_self_eq_true _

/-- Storing one more derivation, in a theory of the statements that were given or stored. -/
theorem Stores.storeDerivation {now : String} {state next : Theory × List Statement}
    {derivation : Derivation} (stores : Stores given derivations state.2)
    (within : state.1.statements ⊆ given ++ state.2)
    (done : storeDerivation now state derivation = .ok next) :
    Stores given (derivations ++ [derivation]) next.2 ∧ next.1.statements ⊆ given ++ next.2 := by
  rcases state with ⟨theory, stored⟩
  rw [Theory.storeDerivation] at done
  split at done
  · next has =>
    cases done
    rw [hasFormula, withFormula?, List.find?_isSome] at has
    rcases has with ⟨statement, member, same⟩
    exact ⟨.known stores (within member) same, within⟩
  · rcases exists_of_bind_eq_ok done with ⟨⟨after, statement⟩, added, same⟩
    cases same
    rcases exists_of_bind_eq_ok added with ⟨⟨id, moved⟩, taken, same⟩
    cases same
    rcases exists_of_bind_eq_ok taken with ⟨number, _, same⟩
    cases same
    refine ⟨.new stores ⟨rfl, rfl⟩, fun other member => ?_⟩
    rw [<- List.append_assoc]
    rcases mem_putStatement member with old | rfl
    · exact List.mem_append_left _ (within old)
    · exact List.mem_append_right _ List.mem_cons_self

theorem Stores.foldlM {now : String} {state next : Theory × List Statement}
    {more : List Derivation} (stores : Stores given derivations state.2)
    (within : state.1.statements ⊆ given ++ state.2)
    (done : more.foldlM (Theory.storeDerivation now) state = .ok next) :
    Stores given (derivations ++ more) next.2 ∧ next.1.statements ⊆ given ++ next.2 := by
  induction more generalizing derivations state with
  | nil =>
    cases done
    exact ⟨(List.append_nil derivations).symm ▸ stores, within⟩
  | cons derivation rest ih =>
    rcases exists_of_bind_eq_ok done with ⟨middle, first, others⟩
    rcases stores.storeDerivation within first with ⟨stores, within⟩
    rw [List.append_cons]
    exact ih stores within others

/-! ## What is inferred -/

/-- A statement under the sign t has the text as its formula, or a formula that is written so. -/
def Held (statements : List Statement) (text : String) : Prop :=
  ∃ statement, statement ∈ statements ∧ statement.sign.isText "t" = true ∧
    (statement.formula.isText text = true ∨
      ∃ formula, statement.content? = .ok (some formula) ∧ formula.text = text)

/-- A statement under another sign has the text as its formula. -/
def Withheld (statements : List Statement) (text : String) : Prop :=
  ∃ statement, statement ∈ statements ∧ statement.sign.isText "t" = false ∧
    statement.formula.isText text = true

variable {theory : Theory}

variable {formula content : Formula} {fact : Fact} {statement : Statement}
variable {contents : List (Statement × Formula)}

theorem text_of_fact? (found : fact? formula = some fact) : formula.text = factText fact := by
  rcases fact?_eq_some found with ⟨named, arguments⟩
  rcases Formula.text_eq_application named with ⟨args, same, written⟩
  cases arguments.symm.trans same
  simp [written, Formula.application, factText, Term.name]

/-- A statement's formula is read from the text that the statement has. -/
theorem readFormula_of_content? (content : statement.content? = .ok (some formula)) :
    ∃ text, statement.formula.text? = some text ∧ Statement.readFormula text = .ok formula := by
  rcases exists_of_bind_eq_ok content with ⟨text?, found, same⟩
  rcases Option.bind_eq_some_iff.mp (Except.ok.inj same) with ⟨text, rfl, read⟩
  refine ⟨text, ?_, ?_⟩
  · rw [Statement.formulaText?] at found
    split at found
    · rcases exists_of_bind_eq_ok found with ⟨start, started, made⟩
      rw [Statement.startOf] at started
      split at started
      · next named =>
        cases started
        split at made <;> cases made
        exact named
      · cases started
    · cases found
  · cases result : Statement.readFormula text with
    | error fault => rw [result] at read; cases read
    | ok other => rw [result] at read; cases read; rfl

/-- No individual of a fact that was read is named with a comma. -/
theorem separated_of_fact?
    (content : statement.content? = .ok (some formula)) (found : fact? formula = some fact) :
    ',' ∉ fact.2.toList := by
  rcases readFormula_of_content? content with ⟨text, _, parsed⟩
  have apart := Grammar.readSided_separated parsed (fact?_eq_some found).2 List.mem_cons_self
  exact apart

theorem statement_of_mem_facts
    (read : theory.trueContents = .ok contents) (member : fact ∈ facts contents) :
    ∃ statement formula, statement ∈ theory.statements ∧ statement.sign.isText "t" = true ∧
      statement.content? = .ok (some formula) ∧ fact? formula = some fact := by
  rcases mem_facts_iff.mp member with ⟨⟨statement, formula⟩, content, found⟩
  rcases mem_of_trueContents read content with ⟨stated, sign, content⟩
  exact ⟨statement, formula, stated, sign, content, found⟩

theorem separated_of_mem_facts
    (read : theory.trueContents = .ok contents) (member : fact ∈ facts contents) :
    ',' ∉ fact.2.toList := by
  rcases statement_of_mem_facts read member with ⟨statement, formula, _, _, content, found⟩
  exact separated_of_fact? content found

/-- A fact that is given or was derived before is held, unless its text was in the way. -/
theorem Stores.held_or_withheld (read : theory.trueContents = .ok contents)
    (stores : Stores theory.statements derivations stored)
    (known : fact ∈ facts contents ++ derivations.map Derivation.fact) :
    Held (theory.statements ++ stored) (factText fact) ∨
      Withheld (theory.statements ++ stored) (factText fact) := by
  rcases List.mem_append.mp known with member | derived
  · rcases statement_of_mem_facts read member with
      ⟨statement, formula, stated, sign, content, found⟩
    exact .inl ⟨statement, List.mem_append_left _ stated, sign,
      .inr ⟨formula, content, text_of_fact? found⟩⟩
  · rcases List.mem_map.mp derived with ⟨derivation, listed, rfl⟩
    rcases stores.has derivation listed with ⟨statement, member, same⟩
    cases sign : statement.sign.isText "t" with
    | true => exact .inl ⟨statement, member, sign, .inl same⟩
    | false => exact .inr ⟨statement, member, sign, same⟩

/-- A text is an instance of one of the rules: a universal statement under the sign t, at an
individual for which its condition is held. -/
def IsInstance (rules known : List Statement) (text : String) : Prop :=
  ∃ rule var restriction matrix individual premise, rule ∈ rules ∧ rule.sign.isText "t" = true ∧
    rule.content? = .ok (some (.quant .all var restriction matrix)) ∧
    restriction.InstanceReads var individual premise ∧ Held known premise ∧
    matrix.InstanceReads var individual text

/-! ## Rules that lead too far -/

open Grammar

def literal (id formula sign : String) : Statement :=
  Draft.statement ⟨.asserted, .string formula, formula, sign, []⟩ id ""

theorem isComment_of_readFormula {text : String} (read : Statement.readFormula text = .ok content) :
    Statement.isComment text = false := by
  rcases readSided_eq_ok_iff.mp read with ⟨tokens, scanned, _⟩
  by_contra comment
  rw [Bool.not_eq_false, Statement.isComment, List.isPrefixOf_iff_prefix] at comment
  rcases comment with ⟨rest, same⟩
  rw [<- same] at scanned
  cases scanned

/-- A text that is read is no comment, and it is not empty either. -/
theorem content?_of_readFormula {text : String} (written : statement.formula = .string text)
    (read : Statement.readFormula text = .ok content) :
    statement.content? = .ok (some content) := by
  have nonempty : text.isEmpty = false := by
    rcases readSided_eq_ok_iff.mp read with ⟨tokens, scanned, derived⟩
    by_contra empty
    rw [Bool.not_eq_false, String.isEmpty_iff] at empty
    rw [empty] at scanned
    cases scanned
    exact derived.nonempty rfl
  rw [Statement.content?, Statement.formulaText?, written]
  simp [Json.isTrue, nonempty, Statement.startOf, Json.text?, isComment_of_readFormula read, read,
    bind, Except.bind, pure, Except.pure, Except.toOption]

theorem content?_literal (id sign : String) {formula : String}
    (read : Statement.readFormula formula = .ok content) :
    (literal id formula sign).content? = .ok (some content) :=
  content?_of_readFormula rfl read

/-- What a statement is held as: its formula as it was asserted, or as it is written. -/
theorem text_of_held_literal {id sign formula text : String}
    (read : (literal id formula sign).content? = .ok (some content))
    (held : (literal id formula sign).formula.isText text = true ∨
      ∃ other, (literal id formula sign).content? = .ok (some other) ∧ other.text = text) :
    formula = text ∨ content.text = text := by
  rcases held with same | ⟨other, found, same⟩
  · exact .inl (beq_iff_eq.mp same)
  · cases read.symm.trans found
    exact .inr same

/-- A predicate of one individual, and a rule about a predicate of that name with two arguments. -/
def unequalArguments : Theory :=
  ⟨[literal "S0001" "P(a)" "t", literal "S0002" "[forall X P(X, b)]Q(X)" "t"], .int 3,
    ⟨none, none, none⟩⟩

theorem readFormula_P_a : Statement.readFormula "P(a)" = .ok (.sided "P" [.const "a"] false) := by
  with_unfolding_all rfl

theorem readFormula_binary_rule : Statement.readFormula "[forall X P(X, b)]Q(X)" =
      .ok (.quant .all "X" (.sided "P" [.var "X", .const "b"] false)
        (.sided "Q" [.var "X"] false)) :=
  readSided_rule ['P'] "X, b".toList ['Q'] (by decide) (by decide) (by decide) rfl (by decide) rfl

theorem infer_unequalArguments :
    ∃ after, unequalArguments.infer "" none = .ok (after, [Draft.statement
      ⟨.inferred, .string "Inferred: Q(a) is t", "Q(a)", "t",
        [("source", .string "forward_chaining"), ("from_rule", .string "S0002")]⟩
      "I0003" ""]) := by
  have contents := @trueContents_of_contents unequalArguments _
    (.cons (content?_literal _ _ readFormula_P_a)
      (.cons (content?_literal _ _ readFormula_binary_rule) .nil))
  rw [infer, derivations, contents]
  exact ⟨_, rfl⟩

theorem readFormula_Q_a : Statement.readFormula "Q(a)" = .ok (.sided "Q" [.const "a"] false) := by
  with_unfolding_all rfl

/-- A rule between two predicates of one argument. -/
theorem readFormula_unary_rules : Statement.readFormula "[forall X P(X)]Q(X)" =
        .ok (.quant .all "X" (.sided "P" [.var "X"] false) (.sided "Q" [.var "X"] false)) ∧
      Statement.readFormula "[forall X Q(X)]R(X)" =
        .ok (.quant .all "X" (.sided "Q" [.var "X"] false) (.sided "R" [.var "X"] false)) :=
  ⟨readSided_rule ['P'] ['X'] ['Q'] (by decide) (by decide) (by decide) rfl (by decide) rfl,
    readSided_rule ['Q'] ['X'] ['R'] (by decide) (by decide) (by decide) rfl (by decide) rfl⟩

/-- A fact that follows but is asserted to be false, and a rule that leads on from it. -/
def deniedBetween : Theory :=
  ⟨[literal "S0001" "P(a)" "t", literal "S0002" "Q(a)" "f",
    literal "S0003" "[forall X P(X)]Q(X)" "t", literal "S0004" "[forall X Q(X)]R(X)" "t"], .int 5,
    ⟨none, none, none⟩⟩

theorem infer_deniedBetween : ∃ after, deniedBetween.infer "" none = .ok (after, [Draft.statement
      ⟨.inferred, .string "Inferred: R(a) is t", "R(a)", "t",
        [("source", .string "forward_chaining"), ("from_rule", .string "S0004")]⟩
      "I0005" ""]) := by
  have contents := @trueContents_of_contents deniedBetween _
    (.cons (content?_literal _ _ readFormula_P_a)
      (.cons (content?_literal _ _ readFormula_Q_a)
        (.cons (content?_literal _ _ readFormula_unary_rules.1)
          (.cons (content?_literal _ _ readFormula_unary_rules.2) .nil))))
  rw [infer, derivations, contents]
  exact ⟨_, rfl⟩

theorem not_isInstance_unequalArguments :
    ¬ IsInstance unequalArguments.statements unequalArguments.statements "Q(a)" := by
  have first := content?_literal "S0001" "t" readFormula_P_a
  have second := content?_literal "S0002" "t" readFormula_binary_rule
  rintro ⟨rule, var, restriction, matrix, individual, _, listed, _, content, ⟨_, made, rfl⟩,
    ⟨statement, member, _, held⟩, _⟩
  simp only [unequalArguments, List.mem_cons, List.not_mem_nil, or_false] at listed member
  rcases listed with rfl | rfl
  · cases first.symm.trans content
  · cases second.symm.trans content
    cases made
    have one : "P(a)" ≠ Formula.application "P" [.const individual, .const "b"] := by
      intro same
      have alone : ',' ∉ "a".toList := by decide
      rcases (Formula.application_eq_iff alone).mp same.symm with ⟨_, single, _⟩
      cases single
    rcases member with rfl | rfl
    · exact (text_of_held_literal first held).elim one one
    · rcases text_of_held_literal second held with same | same
      · exact Formula.application_ne _ (by decide) (by decide) same.symm
      · exact Formula.application_ne _ (by decide) (by decide) same.symm

theorem not_isInstance_deniedBetween :
    ¬ IsInstance deniedBetween.statements deniedBetween.statements "R(a)" := by
  have first := content?_literal "S0001" "t" readFormula_P_a
  have second := content?_literal "S0002" "f" readFormula_Q_a
  have third := content?_literal "S0003" "t" readFormula_unary_rules.1
  have fourth := content?_literal "S0004" "t" readFormula_unary_rules.2
  rintro ⟨rule, var, restriction, matrix, individual, _, listed, _, content, ⟨_, made, rfl⟩,
    ⟨statement, member, sign, held⟩, ⟨_, concluded, text⟩⟩
  simp only [deniedBetween, List.mem_cons, List.not_mem_nil, or_false] at listed member
  rcases listed with rfl | rfl | rfl | rfl
  · cases first.symm.trans content
  · cases second.symm.trans content
  · cases third.symm.trans content
    cases concluded
    exact Formula.application_ne _ (by decide) (by decide) text
  · cases fourth.symm.trans content
    cases made
    cases concluded
    have alone : ',' ∉ "a".toList := by decide
    rcases (Formula.application_eq_iff alone).mp text with ⟨_, single, named⟩
    cases single
    have same : individual = "a" := named
    subst same
    rcases member with rfl | rfl | rfl | rfl
    · exact absurd (text_of_held_literal first held) (by decide)
    · cases sign
    · exact absurd (text_of_held_literal third held) (by decide)
    · exact absurd (text_of_held_literal fourth held) (by decide)

/-! ## The theorem -/

/-- What is inferred without an adviser follows by name.  Each new statement belongs to a universal
statement and to an earlier fact, which is held under the sign t unless a statement under another
sign has its text.  Whether they are instances depends on the arguments of the two predicates. -/
theorem inferred_by_name {after : Theory} {now : String}
    (inferred : theory.infer now none = .ok (after, stored)) :
    after.statements ⊆ theory.statements ++ stored ∧
      forall earlier added later, stored = earlier ++ added :: later ->
        ∃ rule var restriction matrix first second individual,
          rule ∈ theory.statements ∧ rule.sign.isText "t" = true ∧
          rule.content? = .ok (some (.quant .all var restriction matrix)) ∧
          restriction.predicateName? = some first ∧ matrix.predicateName? = some second ∧
          added.formula = .string (factText (second, individual)) ∧ added.sign = .string "t" ∧
          (Held (theory.statements ++ earlier) (factText (first, individual)) ∨
            Withheld (theory.statements ++ earlier) (factText (first, individual))) ∧
          (restriction.InstanceReads var individual (factText (first, individual)) ↔
            restriction.Concerns var individual) ∧
          (matrix.InstanceReads var individual (factText (second, individual)) ↔
            matrix.Concerns var individual) := by
  rcases exists_of_bind_eq_ok inferred with ⟨derivations, found, inferred⟩
  rcases exists_of_bind_eq_ok inferred with ⟨⟨chained, statements⟩, folded, same⟩
  cases same
  rcases chain_of_derivations found with ⟨contents, read, chain⟩
  have start : Stores theory.statements [] [] := .nil
  rcases Stores.foldlM start (List.subset_append_left _ _) folded with ⟨stores, within⟩
  refine ⟨within, fun earlier added later whole => ?_⟩
  rcases stores.split whole with ⟨before, derivation, behind, listed, storesBefore, made⟩
  rw [List.nil_append] at listed
  have member : derivation ∈ derivations := listed ▸ List.mem_append_right before List.mem_cons_self
  have separated : ',' ∉ derivation.fact.2.toList :=
    chain.individual (fun name => ',' ∉ name.toList) (fun _ => separated_of_mem_facts read)
      derivation member
  rcases chain.split listed with ⟨rule, individual, ruled, rfl, premise⟩
  rcases List.mem_filterMap.mp ruled with ⟨⟨source, formula⟩, content, isRule⟩
  rcases mem_of_trueContents read content with ⟨stated, sign, sourceContent⟩
  rcases rule?_eq_some isRule with ⟨_, var, restriction, matrix, rfl, restricted, asserted⟩
  exact ⟨source, var, restriction, matrix, rule.restriction, rule.matrix, individual, stated, sign,
    sourceContent, restricted, asserted, made.formula, made.sign,
    storesBefore.held_or_withheld read premise, Formula.instanceReads_iff restricted var separated,
    Formula.instanceReads_iff asserted var separated⟩

theorem inferred_by_name_unequal_arguments :
    ∃ after added, unequalArguments.infer "" none = .ok (after, [added]) ∧
      after.statements ⊆ unequalArguments.statements ++ [added] ∧
      ∃ rule var restriction matrix first second individual,
        rule ∈ unequalArguments.statements ∧ rule.sign.isText "t" = true ∧
        rule.content? = .ok (some (.quant .all var restriction matrix)) ∧
        restriction.predicateName? = some first ∧ matrix.predicateName? = some second ∧
        added.formula = .string (factText (second, individual)) ∧ added.sign = .string "t" ∧
        (Held unequalArguments.statements (factText (first, individual)) ∨
          Withheld unequalArguments.statements (factText (first, individual))) ∧
        (restriction.InstanceReads var individual (factText (first, individual)) ↔
          restriction.Concerns var individual) ∧
        (matrix.InstanceReads var individual (factText (second, individual)) ↔
          matrix.Concerns var individual) := by
  rcases infer_unequalArguments with ⟨after, inferred⟩
  rcases inferred_by_name inferred with ⟨within, each⟩
  exact ⟨after, _, inferred, within, each [] _ [] rfl⟩

/-- A rule about two arguments is applied to a fact about one, and a fact that is only asserted to
be false leads on. -/
theorem inferred_without_instance :
    (∃ after added, unequalArguments.infer "" none = .ok (after, [added]) ∧
        added.formula = .string "Q(a)" ∧
        ¬ IsInstance unequalArguments.statements unequalArguments.statements "Q(a)") ∧
      ∃ after added, deniedBetween.infer "" none = .ok (after, [added]) ∧
        added.formula = .string "R(a)" ∧
        ¬ IsInstance deniedBetween.statements deniedBetween.statements "R(a)" := by
  rcases infer_unequalArguments with ⟨first, inferredFirst⟩
  rcases infer_deniedBetween with ⟨second, inferredSecond⟩
  exact ⟨⟨first, _, inferredFirst, rfl, not_isInstance_unequalArguments⟩, second, _, inferredSecond,
    rfl, not_isInstance_deniedBetween⟩

end Theory
end WeakKleene
