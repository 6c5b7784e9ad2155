import WeakKleene.Proofs.ChosenRules
import WeakKleene.Proofs.FlatQuantifiers
import WeakKleene.Theory.Check

namespace WeakKleene

/-!
# Theories that only affirm

In the bilateral calculus a denial is something that can be affirmed.  Every
rule for a formula under t has a conclusion under t alone, since negations are
pushed inwards without a change of the sign, and formulas under one sign never
contradict each other.  So from formulas under t alone, however they deny each
other, a branch of formulas under t always stays open, and a theory that asserts
nothing under f or e is never found unsatisfiable.

The same holds of e, which also every rule passes on.
-/

/-! ## A branch of one sign -/

namespace Tableau

variable {tableau : Tableau} {formulas : List Signed} {sign : Sign}

theorem not_conflict_of_sign_eq {signed other : Signed} (same : signed.sign = other.sign) :
    ¬ Conflict (.bilateral none) signed other := by
  rintro ⟨clash, _⟩
  rw [same, Sign.contradicts, bne_self_eq_false, Bool.and_false] at clash
  cases clash

theorem guides_sign [Memory] (kept : sign = .t ∨ sign = .e) :
    Guides (.bilateral none) fun signed => signed.sign = sign := by
  intro tableau node found expansion sided same _ proposed
  have passed : ∃ conclusion, conclusion ∈ expansion.conclusions ∧
      forall part, part ∈ conclusion -> part.sign = node.signed.sign := by
    rcases bilateral_rule_of_proposed sided proposed with ⟨situation, rule, ruled, rfl⟩ | evaluated
    · rcases Bilateral.rule_chosen ruled with ⟨names, chosen⟩
      refine chosen.exists_kept ?_
      rw [same]
      exact kept.symm.imp_right fun isTrue => ⟨isTrue, rfl⟩
    · cases evaluated
  rcases passed with ⟨conclusion, chosen, passed⟩
  rw [same] at passed
  refine ⟨conclusion, chosen, fun part listed => ⟨passed part listed, fun other same' => ?_⟩⟩
  exact not_conflict_of_sign_eq ((passed part listed).trans same'.symm)

/-- From formulas under t alone, or under e alone, a branch of that sign stays open. -/
theorem Reachable.follows_sign [Memory] (reachable : Reachable (.bilateral none) formulas tableau)
    (kept : sign = .t ∨ sign = .e) (same : forall signed, signed ∈ formulas -> signed.sign = sign) :
    Follows (fun signed => signed.sign = sign) tableau :=
  reachable.follows (guides_sign kept) same fun signed other member member' =>
    not_conflict_of_sign_eq ((same signed member).trans (same other member').symm)

end Tableau

/-! ## Theories -/

/-- Whether a statement has a formula that is flat, or one that cannot be read. -/
def Statement.isFlat (statement : Statement) : Bool :=
  match statement.content? with
  | .ok content => content.all Formula.isFlat
  | .error _ => false

variable {statement : Statement} {result : CheckResult}

theorem Statement.exists_content (flat : statement.isFlat = true) :
    ∃ content, statement.content? = .ok content ∧
      forall formula, content = some formula -> formula.Flat := by
  rw [isFlat] at flat
  split at flat
  · next content read =>
    refine ⟨content, read, ?_⟩
    rintro formula rfl
    exact Formula.flat_of_isFlat flat
  · cases flat

namespace Theory

open Tableau

variable {theory : Theory} {formulas : List Signed}

/-- No statement that can be read is signed f or e. -/
def Affirmative (theory : Theory) : Prop :=
  forall statement, statement ∈ theory.statements -> forall formula,
    statement.content? = .ok (some formula) ->
      statement.sign.isText "f" = false ∧ statement.sign.isText "e" = false

/-- A statement gives a formula under the sign that it is checked with. -/
theorem signedFormula?_eq_some {signed : Signed}
    (found : signedFormula? statement = .ok (some signed)) :
    statement.content? = .ok (some signed.formula) ∧
      checkedSign? statement.sign = some signed.sign := by
  rcases exists_of_bind_eq_ok found with ⟨content, read, chosen⟩
  split at chosen
  · next formula sign checked =>
    cases chosen
    exact ⟨read, checked⟩
  · cases chosen

theorem exists_signedFormula? {content : Option Formula} (read : statement.content? = .ok content) :
    ∃ result, signedFormula? statement = .ok result := by
  rw [signedFormula?, read]
  cases content with
  | none => exact ⟨none, rfl⟩
  | some formula =>
    cases checkedSign? statement.sign with
    | none => exact ⟨none, rfl⟩
    | some sign => exact ⟨some ⟨sign, formula⟩, rfl⟩

theorem exists_statement_of_mem (read : theory.signedFormulas = .ok formulas) {signed : Signed}
    (member : signed ∈ formulas) :
    ∃ statement, statement ∈ theory.statements ∧ statement.content? = .ok (some signed.formula) ∧
      checkedSign? statement.sign = some signed.sign := by
  rcases return_eq_ok.mp read with ⟨results, visited, rfl⟩
  rcases List.mem_filterMap.mp member with ⟨result, listed, equal⟩
  rcases (mem_of_mapM visited).1 result listed with ⟨statement, stated, found⟩
  rw [show result = some signed from equal] at found
  exact ⟨statement, stated, signedFormula?_eq_some found⟩

theorem sign_eq_of_affirmative (affirmative : theory.Affirmative)
    (read : theory.signedFormulas = .ok formulas) :
    forall signed, signed ∈ formulas -> signed.sign = .t := by
  intro signed member
  rcases exists_statement_of_mem read member with ⟨statement, stated, content, checked⟩
  rcases affirmative statement stated signed.formula content with ⟨notFalse, notUndefined⟩
  rw [checkedSign?, notFalse, notUndefined] at checked
  cases named : statement.sign.isName with
  | true =>
    rw [named] at checked
    exact (Option.some.inj checked).symm
  | false =>
    rw [named] at checked
    cases checked

/-- Without an adviser the result is that of the tableau, if there are formulas. -/
theorem result_of_check [Memory] {now : String} (checked : (theory.check now none).2 = .ok result) :
    (theory.tableau? none = .ok none ∧ result = ⟨true, []⟩) ∨
    ∃ formulas tableau, theory.signedFormulas = .ok formulas ∧
      theory.tableau? none = .ok (some tableau) ∧
      ofFormulas (.bilateral none) formulas false = .ok tableau ∧
      result = ⟨tableau.satisfiable, informationStates tableau⟩ := by
  rw [check] at checked
  cases finished : theory.tableau? none with
  | error fault =>
    rw [finished] at checked
    cases checked
  | ok found =>
    rw [finished] at checked
    cases found with
    | none =>
      cases checked
      exact .inl ⟨rfl, rfl⟩
    | some tableau =>
      cases checked
      rcases exists_of_bind_eq_ok finished with ⟨formulas, read, constructed⟩
      split at constructed
      · cases constructed
      · rcases return_eq_ok.mp constructed with ⟨other, constructed, equal⟩
        cases equal
        exact .inr ⟨formulas, tableau, read, rfl, constructed, rfl⟩

theorem check_eq_ok [Memory] {now : String} (checked : (theory.check now none).2 = .ok result) :
    result.satisfiable = true ∨ ∃ formulas tableau, theory.signedFormulas = .ok formulas ∧
      ofFormulas (.bilateral none) formulas false = .ok tableau ∧
      result.satisfiable = tableau.satisfiable := by
  rcases result_of_check checked with ⟨_, rfl⟩ | ⟨formulas, tableau, read, _, constructed, rfl⟩
  · exact .inl rfl
  · exact .inr ⟨formulas, tableau, read, constructed, rfl⟩

theorem exists_check_eq_ok [Memory] (now : String)
    (flat : forall statement, statement ∈ theory.statements -> statement.isFlat = true) :
    ∃ result, (theory.check now none).2 = .ok result := by
  have visited : forall statement, statement ∈ theory.statements ->
      ∃ result, signedFormula? statement = .ok result := by
    intro statement stated
    rcases Statement.exists_content (flat statement stated) with ⟨content, read, _⟩
    exact exists_signedFormula? read
  rcases exists_mapM_eq_ok visited with ⟨results, visited⟩
  have read : theory.signedFormulas = .ok (results.filterMap id) := return_eq_ok.mpr
    ⟨results, visited, rfl⟩
  have flatFormulas : forall signed, signed ∈ results.filterMap id -> signed.formula.Flat := by
    intro signed member
    rcases exists_statement_of_mem read member with ⟨statement, stated, content, _⟩
    rcases Statement.exists_content (flat statement stated) with ⟨content', read', flatContent⟩
    rw [content] at read'
    exact flatContent signed.formula (Except.ok.inj read').symm
  cases nothing : (results.filterMap id).isEmpty with
  | true =>
    have none_found : theory.tableau? none = .ok none := by
      rw [tableau?, read]
      exact if_pos nothing
    rw [check, none_found]
    exact ⟨_, rfl⟩
  | false =>
    have some_formula : results.filterMap id ≠ [] := List.isEmpty_eq_false_iff.mp nothing
    rcases exists_ofFormulas_flat (.bilateral none) false some_formula flatFormulas with
      ⟨tableau, constructed, _⟩
    have found : theory.tableau? none = .ok (some tableau) := by
      rw [tableau?, read]
      simp only [bind, Except.bind, nothing, Option.map_none, constructed]
      rfl
    rw [check, found]
    exact ⟨_, rfl⟩

/-- No theory is found unsatisfiable whose statements, as far as they can be read, are signed
neither f nor e, whatever they deny and quantify.  If its formulas are flat, the check has a
result.  In every tableau that is reached from formulas under t, an open branch carries t
alone. -/
theorem check_satisfiable_of_affirmative [Memory] (theory : Theory) (now : String)
    (affirmative : theory.Affirmative) :
    (forall result, (theory.check now none).2 = .ok result -> result.satisfiable = true) ∧
    ((forall statement, statement ∈ theory.statements -> statement.isFlat = true) ->
      ∃ result, (theory.check now none).2 = .ok result ∧ result.satisfiable = true) ∧
    forall formulas, (forall signed, signed ∈ formulas -> signed.sign = .t) ->
      forall tableau, Reachable (.bilateral none) formulas tableau ->
        ∃ id, id ∈ tableau.opened ∧ ∃ found, tableau.branch? id = some found ∧
          found.closure = none ∧ forall node, node ∈ tableau.nodesOn found ->
            node.signed.sign = .t := by
  have satisfiable : forall result, (theory.check now none).2 = .ok result ->
      result.satisfiable = true := by
    intro result checked
    rcases check_eq_ok checked with holds | ⟨formulas, tableau, read, constructed, verdict⟩
    · exact holds
    · have reachable := reachable_of_ofFormulas constructed
      rcases reachable.follows_sign (.inl rfl) (sign_eq_of_affirmative affirmative read) with
        ⟨id, worked, _⟩
      rw [verdict, satisfiable_iff reachable.regular]
      exact List.ne_nil_of_mem worked
  refine ⟨satisfiable, fun flat => ?_, fun formulas affirmed tableau reachable => ?_⟩
  · rcases exists_check_eq_ok now flat with ⟨result, checked⟩
    exact ⟨result, checked, satisfiable result checked⟩
  · rcases reachable.follows_sign (.inl rfl) affirmed with ⟨id, worked, found, known, within⟩
    refine ⟨id, worked, found, known, reachable.regular.unclosed worked known, ?_⟩
    intro node member
    refine within node.signed ?_
    rw [formulasOn_eq_map]
    exact List.mem_map_of_mem member

/-- A sentence and its denial, a rule and an exception to it. -/
def conflicting : Theory where
  statements := [("S0001", "[forall X Bird(X)]Flies(X)", "t"), ("S0002", "Bird(tweety)", "t"),
    ("S0003", "~Flies(tweety)", "m"), ("S0004", "~Bird(tweety)", "t")].map
      fun (id, formula, sign) => {
        id := .string id
        sentence := .string formula
        formula := .string formula
        sign := .string sign
        inferred := .bool false
        timestamp := .string ""
        metadata := .object [] }
  nextId := .int 5
  timings := ⟨none, none, none⟩

open scoped Memory

/-- They are checked together and found satisfiable. -/
theorem check_conflicting :
    conflicting.Affirmative ∧ ∃ result, (conflicting.check "" none).2 = .ok result ∧
      result.satisfiable = true := by
  have affirmative : conflicting.Affirmative := by
    intro statement stated formula _
    simp only [conflicting, List.map_cons, List.map_nil, List.mem_cons, List.not_mem_nil,
      or_false] at stated
    rcases stated with rfl | rfl | rfl | rfl <;> decide
  refine ⟨affirmative, (check_satisfiable_of_affirmative conflicting "" affirmative).2.1 ?_⟩
  decide +kernel

end Theory
end WeakKleene
