import Mathlib.Data.List.Nodup
import WeakKleene.Proofs.FactTexts
import WeakKleene.Proofs.Fixpoint

namespace WeakKleene

/-!
# Statements that are inferred

All that follows is stored, except what was given or what a statement has as its
formula.  The new statements are read when chaining starts again, but they lead
to nothing that was not derived before, so that nothing is stored then.

This needs ids that are not in use.  A new statement takes the place of one that
has its id, and then a fact may be lost that has to be derived again.
-/

namespace Theory

open Tableau (exists_of_bind_eq_ok)

variable {theory : Theory}

/-! ## Storing -/

variable {statement : Statement} {stored : List Statement} {now text : String} {number : Int}
variable {derivations : List Derivation} {derivation : Derivation} {fact : Fact}

theorem length_putStatement_used {statements : List Statement}
    (used : ∃ other, other ∈ statements ∧ other.id.sameName statement.id = true) :
    (putStatement statement statements).length = statements.length := by
  induction statements with
  | nil =>
    rcases used with ⟨_, impossible, _⟩
    cases impossible
  | cons first rest ih =>
    rw [putStatement]
    split
    · rfl
    · next different =>
      rcases used with ⟨other, member, same⟩
      rcases List.mem_cons.mp member with rfl | later
      · exact absurd same different
      · exact congrArg Nat.succ (ih ⟨other, later, same⟩)

/-- The statement that a derived fact is stored as, under a number. -/
def inferredStatement (now : String) (number : Int) (derivation : Derivation) : Statement :=
  Draft.statement {
    origin := .inferred
    sentence := .string ("Inferred: " ++ factText derivation.fact ++ " is t")
    formula := factText derivation.fact
    sign := "t"
    metadata := [("source", .string "forward_chaining"), ("from_rule", derivation.source)] }
    (Statement.idOf 'I' number) now

def inferredStatements (now : String) : Int -> List Derivation -> List Statement
  | _, [] => []
  | number, derivation :: rest =>
    inferredStatement now number derivation :: inferredStatements now (number + 1) rest

theorem map_formula_inferredStatements (now : String) (number : Int)
    (derivations : List Derivation) :
    (inferredStatements now number derivations).map Statement.formula =
      (derivations.map Derivation.fact).map fun fact => .string (factText fact) := by
  induction derivations generalizing number with
  | nil => rfl
  | cons derivation rest ih =>
    rw [inferredStatements, List.map_cons, ih]
    rfl

theorem map_id_inferredStatements (now : String) (number : Int) (derivations : List Derivation) :
    (inferredStatements now number derivations).map Statement.id =
      (List.range derivations.length).map fun k => .string (Statement.idOf 'I' (number + k)) := by
  induction derivations generalizing number with
  | nil => rfl
  | cons derivation rest ih =>
    rw [inferredStatements, List.map_cons, ih, List.length_cons,
      List.range_succ_eq_map, List.map_cons, List.map_map]
    refine congrArg₂ List.cons ?_ (List.map_congr_left fun k _ => ?_)
    · rw [Int.natCast_zero, Int.add_zero]
      rfl
    · rw [Function.comp, Nat.succ_eq_add_one, Int.natCast_succ, Int.add_assoc, Int.add_comm 1]

theorem sign_of_mem_inferredStatements
    (member : statement ∈ inferredStatements now number derivations) :
    statement.sign = .string "t" := by
  induction derivations generalizing number with
  | nil => cases member
  | cons derivation rest ih =>
    rcases List.mem_cons.mp member with rfl | later
    · rfl
    · exact ih later

theorem hasFormula_iff : theory.hasFormula text = true ↔
    ∃ statement, statement ∈ theory.statements ∧ statement.formula.isText text = true := by
  rw [hasFormula, withFormula?, List.find?_isSome]

theorem storeDerivation_known (known : theory.hasFormula (factText derivation.fact) = true) :
    storeDerivation now (theory, stored) derivation = .ok (theory, stored) := by
  rw [storeDerivation, if_pos known]
  rfl

theorem storeDerivation_new (new : theory.hasFormula (factText derivation.fact) = false)
    (counted : theory.nextNumber = .ok number) :
    storeDerivation now (theory, stored) derivation =
      .ok (({ theory with nextId := .int (number + 1) } : Theory).put
          (inferredStatement now number derivation),
        stored ++ [inferredStatement now number derivation]) := by
  rw [storeDerivation, if_neg (Bool.eq_false_iff.mp new), add, takeId, counted]
  rfl

/-- A statement goes behind all others under an id that is not in use. -/
theorem put_inferred
    (unused : .string (Statement.idOf 'I' number) ∉ theory.statements.map Statement.id) :
    putStatement (inferredStatement now number derivation) theory.statements =
      theory.statements ++ [inferredStatement now number derivation] := by
  refine putStatement_new fun other member => ?_
  rw [Bool.eq_false_iff, ne_eq]
  intro same
  exact unused (List.mem_map.mpr ⟨other, member, Json.sameName_string.mp same⟩)

/-- A stored statement makes the list of statements longer, unless it takes the place of one that
has its id. -/
theorem unused_of_storeAll {after : Theory} {all : List Statement}
    (done : derivations.foldlM (storeDerivation now) (theory, stored) = .ok (after, all)) :
    ∃ more, all = stored ++ more ∧
      after.statements.length ≤ theory.statements.length + more.length ∧
      (after.statements.length = theory.statements.length + more.length ->
        forall statement, statement ∈ more ->
          statement.id ∉ theory.statements.map Statement.id) := by
  induction derivations generalizing theory stored with
  | nil =>
    cases done
    exact ⟨[], (List.append_nil _).symm, Nat.le_refl _, fun _ _ => nofun⟩
  | cons derivation rest ih =>
    rw [List.foldlM_cons] at done
    cases known : theory.hasFormula (factText derivation.fact) with
    | true =>
      rw [storeDerivation_known known] at done
      exact ih done
    | false =>
      cases counted : theory.nextNumber with
      | error fault =>
        rw [storeDerivation, if_neg (Bool.eq_false_iff.mp known), add, takeId, counted] at done
        cases done
      | ok number =>
        rw [storeDerivation_new known counted] at done
        rcases ih done with ⟨more, same, bound, new⟩
        let first := inferredStatement now number derivation
        refine ⟨first :: more, by rw [same, List.append_assoc]; rfl, ?_⟩
        rw [List.length_cons]
        by_cases used : first.id ∈ theory.statements.map Statement.id
        · rcases List.mem_map.mp used with ⟨other, member, same⟩
          have kept := @length_putStatement_used first theory.statements
            ⟨other, member, Json.sameName_string.mpr same⟩
          rw [put, kept] at bound
          exact ⟨by omega, by omega⟩
        · rw [put, put_inferred used, List.length_append, List.length_singleton] at bound new
          refine ⟨by omega, fun whole statement member => ?_⟩
          rcases List.mem_cons.mp member with rfl | later
          · exact used
          · have unused := new (by omega) statement later
            rw [List.map_append, List.mem_append, not_or] at unused
            exact unused.1

def unstated (theory : Theory) (derivations : List Derivation) : List Derivation :=
  derivations.filter fun derivation => !theory.hasFormula (factText derivation.fact)

/-- A statement that has none of the texts keeps nothing from being stored. -/
theorem unstated_append {next : Theory}
    (appended : next.statements = theory.statements ++ [statement])
    (written : statement.formula = .string text)
    (other : text ∉ derivations.map fun derivation => factText derivation.fact) :
    next.unstated derivations = theory.unstated derivations := by
  refine List.filter_congr fun derivation member => congrArg _ ?_
  rw [Bool.eq_iff_iff, hasFormula_iff, hasFormula_iff, appended]
  constructor
  · rintro ⟨found, listed, same⟩
    rcases List.mem_append.mp listed with old | new
    · exact ⟨found, old, same⟩
    · rw [List.mem_singleton.mp new, written] at same
      exact absurd (List.mem_map.mpr ⟨derivation, member, (beq_iff_eq.mp same).symm⟩) other
  · rintro ⟨found, listed, same⟩
    exact ⟨found, List.mem_append_left _ listed, same⟩

/-- Facts that are written differently are stored at the end, under ids that are not in use. -/
theorem storeAll_unused (now : String)
    (stored : List Statement) (counted : theory.nextNumber = .ok number)
    (distinct : (derivations.map fun derivation => factText derivation.fact).Nodup)
    (unused : forall k : Nat, k < (theory.unstated derivations).length ->
      .string (Statement.idOf 'I' (number + k)) ∉ theory.statements.map Statement.id) :
    ∃ after, derivations.foldlM (storeDerivation now) (theory, stored) =
        .ok (after, stored ++ inferredStatements now number (theory.unstated derivations)) ∧
      after.statements =
        theory.statements ++ inferredStatements now number (theory.unstated derivations) := by
  induction derivations generalizing theory number stored with
  | nil =>
    refine ⟨theory, ?_, (List.append_nil _).symm⟩
    rw [unstated, List.filter_nil, inferredStatements, List.append_nil]
    rfl
  | cons derivation rest ih =>
    rcases List.nodup_cons.mp distinct with ⟨alone, distinct⟩
    cases known : theory.hasFormula (factText derivation.fact) with
    | true =>
      have skipped : theory.unstated (derivation :: rest) = theory.unstated rest :=
        List.filter_cons_of_neg (by simp [known])
      rw [skipped] at unused ⊢
      rw [List.foldlM_cons, storeDerivation_known known]
      exact ih stored counted distinct unused
    | false =>
      let statement := inferredStatement now number derivation
      let next := ({ theory with nextId := .int (number + 1) } : Theory).put statement
      have kept : theory.unstated (derivation :: rest) = derivation :: theory.unstated rest :=
        List.filter_cons_of_pos (by simp [known])
      rw [kept] at unused ⊢
      have appended : next.statements = theory.statements ++ [statement] := by
        have free := unused 0 (Nat.zero_lt_succ _)
        rw [Int.natCast_zero, Int.add_zero] at free
        exact put_inferred free
      have others : next.unstated rest = theory.unstated rest := unstated_append appended rfl alone
      have countedNext : next.nextNumber = .ok (number + 1) := rfl
      rw [List.foldlM_cons, storeDerivation_new known counted, inferredStatements,
        <- others, List.append_cons stored (inferredStatement now number derivation)
          (inferredStatements now (number + 1) (next.unstated rest)),
        List.append_cons theory.statements, <- appended]
      refine ih _ countedNext distinct fun k few => ?_
      rw [others] at few
      rw [appended, List.map_append, List.mem_append, not_or]
      have shifted : number + 1 + (k : Int) = number + ((k + 1 : Nat) : Int) := by omega
      refine ⟨shifted ▸ unused (k + 1) (Nat.succ_lt_succ few), ?_⟩
      intro same
      have equal := Statement.idOf_inj (Json.string.inj (List.mem_singleton.mp same))
      omega

/-! ## Reading again -/

variable {contents others : List (Statement × Formula)}

theorem exists_content? (written : statement.formula = .string text) :
    ∃ formula?, statement.content? = .ok formula? := by
  have found : ∃ text?, statement.formulaText? = .ok text? := by
    rw [Statement.formulaText?, written]
    split
    · exact ⟨_, rfl⟩
    · exact ⟨_, rfl⟩
  rcases found with ⟨text?, found⟩
  rw [Statement.content?, found]
  exact ⟨_, rfl⟩

theorem exists_trueContents (texts : forall statement, statement ∈ theory.statements ->
      ∃ text, statement.formula = .string text) :
    ∃ contents, theory.trueContents = .ok contents := by
  unfold trueContents
  have succeeds : forall statement, statement ∈ theory.statements ->
      ∃ visit, (do return (<- statement.content?).map fun formula => (statement, formula)) =
        (.ok visit : Except Fault (Option (Statement × Formula))) := by
    intro statement member
    rcases texts statement member with ⟨text, written⟩
    rcases exists_content? written with ⟨formula?, content⟩
    rw [content]
    exact ⟨_, rfl⟩
  rcases Tableau.exists_mapM_eq_ok succeeds with ⟨visits, visited⟩
  rw [visited]
  exact ⟨_, rfl⟩

theorem trueContents_append {first second whole : Theory}
    (same : whole.statements = first.statements ++ second.statements)
    (read : first.trueContents = .ok contents) (readOthers : second.trueContents = .ok others) :
    whole.trueContents = .ok (contents ++ others) := by
  rcases exists_of_bind_eq_ok read with ⟨visits, visited, equal⟩
  rcases exists_of_bind_eq_ok readOthers with ⟨visitsOthers, visitedOthers, equalOthers⟩
  cases equal
  cases equalOthers
  rw [trueContents, same, List.mapM_append, visited, visitedOthers]
  refine congrArg Except.ok ?_
  rw [List.filterMap_append, List.filter_append]

theorem rule?_of_fact? {formula : Formula} (found : fact? formula = some fact)
    (source : Json) : rule? source formula = none := by
  have named := (fact?_eq_some found).1
  cases formula with
  | quant => cases named
  | _ => rfl

theorem rules_append_facts
    (facts : forall content, content ∈ others -> ∃ fact, fact? content.2 = some fact) :
    rules (contents ++ others) = rules contents := by
  have none : rules others = [] := by
    refine List.filterMap_eq_nil_iff.mpr fun content member => ?_
    rcases facts content member with ⟨fact, found⟩
    exact rule?_of_fact? found content.1.id
  have both : rules (contents ++ others) = rules contents ++ rules others := List.filterMap_append
  rw [both, none, List.append_nil]

/-- What follows is read back, or read as a fact that no rule starts from. -/
theorem fact_of_entailed (read : theory.trueContents = .ok contents)
    (words : forall fact, fact ∈ facts contents -> Grammar.IsWord fact.2.toList)
    (entailed : Entailed (rules contents) (facts contents) fact)
    (new : fact ∉ facts contents) {formula : Formula}
    (parsed : Statement.readFormula (factText fact) = .ok formula) :
    ∃ other, fact? formula = some other ∧ (other = fact ∨ '(' ∈ other.1.toList) := by
  have isWord : Grammar.IsWord fact.2.toList :=
    entailed.individual (fun name => Grammar.IsWord name.toList) words
  have small : Text.startsUpper fact.2.toList = false :=
    entailed.individual (fun name => Text.startsUpper name.toList = false)
      fun _ => small_of_mem_facts read
  cases entailed with
  | given member => exact absurd member new
  | step listed => exact fact_of_readFormula (names_of_mem_rules read listed).2 isWord small parsed

/-- Facts that followed before, or that no rule starts from, lead to nothing new. -/
theorem entailed_again (names : forall rule, rule ∈ rules contents -> '(' ∉ rule.restriction.toList)
    (known : forall content, content ∈ others -> ∃ fact, fact? content.2 = some fact ∧
      (Entailed (rules contents) (facts contents) fact ∨ '(' ∈ fact.1.toList))
    (entailed : Entailed (rules contents) (facts (contents ++ others)) fact) :
    fact ∈ facts (contents ++ others) ∨ Entailed (rules contents) (facts contents) fact := by
  induction entailed with
  | given member => exact .inl member
  | @step rule individual listed premise ih =>
    right
    rcases ih with member | before
    · rcases mem_facts_iff.mp member with ⟨content, inside, found⟩
      rcases List.mem_append.mp inside with old | new
      · exact .step listed (.given (mem_facts_iff.mpr ⟨content, old, found⟩))
      · rcases known content new with ⟨other, foundOther, followed | opened⟩
        · cases found.symm.trans foundOther
          exact .step listed followed
        · cases found.symm.trans foundOther
          exact absurd opened (names rule listed)
    · exact .step listed before

/-- Where all that is derived is stated already, nothing is stored. -/
theorem storeAll_known (known : forall derivation, derivation ∈ derivations ->
      theory.hasFormula (factText derivation.fact) = true) :
    derivations.foldlM (storeDerivation now) (theory, stored) = .ok (theory, stored) := by
  induction derivations with
  | nil => rfl
  | cons derivation rest ih =>
    rw [List.foldlM_cons, storeDerivation_known (known derivation List.mem_cons_self)]
    exact ih fun other member => known other (List.mem_cons_of_mem _ member)

/-! ## The theorem -/

/-- What is derived, each once, is what follows and was not given. -/
theorem mem_consequences_iff (few : (rules contents).length ≤ ChainState.roundBound) :
    fact ∈ (consequences contents).map Derivation.fact ↔
      Entailed (rules contents) (facts contents) fact ∧ fact ∉ facts contents := by
  have traced := ChainState.traced_saturate (rules contents) (facts contents) ChainState.roundBound
  rw [<- ChainState.mem_saturate_iff few, traced.facts, List.mem_append]
  constructor
  · intro derived
    refine ⟨.inr derived, ?_⟩
    rcases List.mem_map.mp derived with ⟨derivation, listed, rfl⟩
    exact traced.new derivation listed
  · rintro ⟨given | derived, new⟩
    · exact absurd given new
    · exact derived

/-- The theory after chaining without an adviser, which took no time that is measured. -/
def timed (theory : Theory) : Theory :=
  { theory with timings := { theory.timings with inference := some 0, advice := none } }

theorem infer_eq_ok_iff {after : Theory} :
    theory.infer now none = .ok (after, stored) ↔ ∃ derivations middle,
      theory.derivations = .ok derivations ∧
      derivations.foldlM (storeDerivation now) (theory, []) = .ok (middle, stored) ∧
      after = middle.timed := by
  rw [infer]
  constructor
  · intro done
    rcases exists_of_bind_eq_ok done with ⟨derivations, found, done⟩
    rcases exists_of_bind_eq_ok done with ⟨⟨middle, statements⟩, folded, same⟩
    cases same
    exact ⟨derivations, middle, found, folded, rfl⟩
  · rintro ⟨derivations, middle, found, folded, rfl⟩
    rw [found]
    change (derivations.foldlM (storeDerivation now) (theory, []) >>= _) = _
    rw [folded]
    rfl

/-- New facts are stored at the end under the sign t, with one statement for each, and numbered
on. -/
structure Adds (theory : Theory) (number : Int) (new : List Fact) (after : Theory)
    (stored : List Statement) : Prop where
  statements : after.statements = theory.statements ++ stored
  formulas : stored.map Statement.formula = new.map fun fact => .string (factText fact)
  ids : stored.map Statement.id =
    (List.range new.length).map fun k => .string (Statement.idOf 'I' (number + k))
  signs : forall statement, statement ∈ stored -> statement.sign = .string "t"

section Adds

variable {number : Int} {new : List Fact} {after : Theory} {stored : List Statement}

theorem Adds.exists_fact (adds : theory.Adds number new after stored)
    (member : statement ∈ stored) :
    ∃ fact, fact ∈ new ∧ statement.formula = .string (factText fact) := by
  have listed : statement.formula ∈ stored.map Statement.formula := List.mem_map_of_mem member
  rw [adds.formulas] at listed
  rcases List.mem_map.mp listed with ⟨fact, inside, same⟩
  exact ⟨fact, inside, same.symm⟩

/-- Whatever is read in the new statements followed before, or no rule starts from it. -/
theorem Adds.known (adds : theory.Adds number new after stored)
    (read : theory.trueContents = .ok contents)
    (words : forall fact, fact ∈ facts contents -> Grammar.IsWord fact.2.toList)
    (followed : forall fact, fact ∈ new ->
      Entailed (rules contents) (facts contents) fact ∧ fact ∉ facts contents)
    (readOthers : ({ theory with statements := stored } : Theory).trueContents = .ok others) :
    forall content, content ∈ others -> ∃ fact, fact? content.2 = some fact ∧
      (Entailed (rules contents) (facts contents) fact ∨ '(' ∈ fact.1.toList) := by
  intro content member
  rcases mem_of_trueContents readOthers member with ⟨listed, _, content⟩
  rcases adds.exists_fact listed with ⟨fact, inside, written⟩
  rcases readFormula_of_content? content with ⟨text, said, parsed⟩
  rw [written] at said
  cases said
  rcases followed fact inside with ⟨entailed, unknown⟩
  rcases fact_of_entailed read words entailed unknown parsed with ⟨other, found, rfl | opened⟩
  · exact ⟨_, found, .inl entailed⟩
  · exact ⟨_, found, .inr opened⟩

/-- Where the facts that follow are stated, chaining again stores nothing. -/
theorem Adds.infer_again (adds : theory.Adds number new after stored)
    (read : theory.trueContents = .ok contents)
    (words : forall fact, fact ∈ facts contents -> Grammar.IsWord fact.2.toList)
    (followed : forall fact, fact ∈ new ->
      Entailed (rules contents) (facts contents) fact ∧ fact ∉ facts contents)
    (stated : forall fact, Entailed (rules contents) (facts contents) fact ->
      fact ∉ facts contents -> after.hasFormula (factText fact) = true) (later : String) :
    after.infer later none = .ok (after.timed, []) := by
  have texts : forall statement, statement ∈ stored ->
      ∃ text, statement.formula = .string text := by
    intro statement member
    rcases adds.exists_fact member with ⟨fact, _, written⟩
    exact ⟨_, written⟩
  let added : Theory := { theory with statements := stored }
  rcases (exists_trueContents texts : ∃ others, added.trueContents = .ok others) with
    ⟨others, readOthers⟩
  have known := adds.known read words followed readOthers
  have sameRules : rules (contents ++ others) = rules contents :=
    rules_append_facts fun content member =>
      (known content member).imp fun _ found => found.1
  have whole : after.trueContents = .ok (contents ++ others) :=
    trueContents_append adds.statements read readOthers
  refine infer_eq_ok_iff.mpr ⟨consequences (contents ++ others), after, ?_, ?_, rfl⟩
  · rw [derivations, whole]
    rfl
  · refine storeAll_known fun derivation member => ?_
    have traced := ChainState.traced_saturate (rules (contents ++ others))
      (facts (contents ++ others)) ChainState.roundBound
    have entailed := traced.chain.entailed derivation member
    have unknown := traced.new derivation member
    rw [sameRules] at entailed
    have before := (entailed_again (fun rule listed => (names_of_mem_rules read listed).1) known
      entailed).resolve_left unknown
    refine stated derivation.fact before fun given => unknown ?_
    rcases mem_facts_iff.mp given with ⟨content, listed, found⟩
    exact mem_facts_iff.mpr ⟨content, List.mem_append_left _ listed, found⟩

/-- What was unstated is added, and so all that follows is stated. -/
theorem Adds.stated (adds : theory.Adds number new after stored)
    (either : theory.hasFormula (factText fact) = true ∨ fact ∈ new) :
    after.hasFormula (factText fact) = true := by
  rw [hasFormula_iff, adds.statements]
  rcases either with before | added
  · rcases hasFormula_iff.mp before with ⟨statement, member, same⟩
    exact ⟨statement, List.mem_append_left _ member, same⟩
  · have written : Json.string (factText fact) ∈ stored.map Statement.formula := by
      rw [adds.formulas]
      exact List.mem_map.mpr ⟨fact, added, rfl⟩
    rcases List.mem_map.mp written with ⟨statement, member, same⟩
    refine ⟨statement, List.mem_append_right _ member, ?_⟩
    rw [same]
    exact beq_self_eq_true _

/-- Whatever is stored behind all statements has ids that were not in use. -/
theorem Adds.unused (adds : theory.Adds number new after stored)
    (done : theory.infer now none = .ok (after, stored)) {k : Nat} (few : k < new.length) :
    .string (Statement.idOf 'I' (number + k)) ∉ theory.statements.map Statement.id := by
  rcases infer_eq_ok_iff.mp done with ⟨_, middle, _, folded, rfl⟩
  rcases unused_of_storeAll folded with ⟨_, rfl, _, new⟩
  have length := congrArg List.length adds.statements
  rw [List.length_append] at length
  have drawn : .string (Statement.idOf 'I' (number + k)) ∈ stored.map Statement.id := by
    rw [adds.ids]
    exact List.mem_map.mpr ⟨k, List.mem_range.mpr few, rfl⟩
  rcases List.mem_map.mp drawn with ⟨statement, member, same⟩
  rw [<- same]
  exact new length statement member

end Adds

/-- What is stored, each once, follows, was not given, and is no formula of a statement. -/
theorem mem_unstated_iff (few : (rules contents).length ≤ ChainState.roundBound) :
    fact ∈ (theory.unstated (consequences contents)).map Derivation.fact ↔
      Entailed (rules contents) (facts contents) fact ∧ fact ∉ facts contents ∧
        theory.hasFormula (factText fact) = false := by
  rw [<- and_assoc, <- mem_consequences_iff few, unstated]
  simp only [List.mem_map, List.mem_filter, Bool.not_eq_true']
  constructor
  · rintro ⟨derivation, ⟨listed, new⟩, rfl⟩
    exact ⟨⟨derivation, listed, rfl⟩, new⟩
  · rintro ⟨⟨derivation, listed, rfl⟩, new⟩
    exact ⟨derivation, ⟨listed, new⟩, rfl⟩

theorem nodup_factTexts
    (words : forall fact, fact ∈ facts contents -> Grammar.IsWord fact.2.toList) :
    ((consequences contents).map fun derivation => factText derivation.fact).Nodup := by
  have traced := ChainState.traced_saturate (rules contents) (facts contents) ChainState.roundBound
  have isWord : forall fact, fact ∈ (consequences contents).map Derivation.fact ->
      Grammar.IsWord fact.2.toList := by
    intro fact member
    rcases List.mem_map.mp member with ⟨derivation, listed, rfl⟩
    exact (traced.chain.entailed derivation listed).individual
      (fun name => Grammar.IsWord name.toList) words
  have texts := traced.distinct.map_on fun first inFirst second inSecond =>
    factText_inj (isWord first inFirst) (isWord second inSecond)
  rwa [List.map_map] at texts

/-- Where all is asserted, the ids of what is inferred are not in use. -/
theorem inferredId_unused (asserted : forall id, id ∈ theory.statements.map Statement.id ->
      firstLetter id = .ok 'S') (number : Int) :
    .string (Statement.idOf 'I' number) ∉ theory.statements.map Statement.id := by
  intro member
  have letter := asserted _ member
  rw [firstLetter_idOf] at letter
  exact absurd (Except.ok.inj letter) (by decide)

/-- Under ids that are not in use, what is derived and unstated is added. -/
theorem exists_infer_adds (read : theory.trueContents = .ok contents)
    (counted : theory.nextNumber = .ok number)
    (words : forall fact, fact ∈ facts contents -> Grammar.IsWord fact.2.toList)
    (unused : forall k : Nat, k < (theory.unstated (consequences contents)).length ->
      .string (Statement.idOf 'I' (number + k)) ∉ theory.statements.map Statement.id)
    (now : String) : ∃ after stored, theory.infer now none = .ok (timed after, stored) ∧
      theory.Adds number ((theory.unstated (consequences contents)).map Derivation.fact)
        after.timed stored := by
  have found : theory.derivations = .ok (consequences contents) := by
    rw [derivations, read]
    rfl
  rcases storeAll_unused now [] counted (nodup_factTexts words) unused with
    ⟨middle, folded, appended⟩
  exact ⟨middle, _, infer_eq_ok_iff.mpr ⟨_, middle, found, folded, rfl⟩,
    ⟨appended, map_formula_inferredStatements _ _ _,
      by rw [List.length_map]; exact map_id_inferredStatements _ _ _,
      fun _ => sign_of_mem_inferredStatements⟩⟩

/-- Then all that follows and was not given is stated. -/
theorem Adds.hasFormula_of_entailed {after : Theory} (adds : theory.Adds number
      ((theory.unstated (consequences contents)).map Derivation.fact) after stored)
    (few : (rules contents).length ≤ ChainState.roundBound)
    (entailed : Entailed (rules contents) (facts contents) fact) (unknown : fact ∉ facts contents) :
    after.hasFormula (factText fact) = true := by
  apply adds.stated
  cases before : theory.hasFormula (factText fact) with
  | true => exact .inl rfl
  | false => exact .inr ((mem_unstated_iff few).mpr ⟨entailed, unknown, before⟩)

/-- Chaining without an adviser stores, once each, all that follows, was not given and is no
statement's formula, and then nothing more, exactly if the ids that it draws are not in use. -/
theorem infer_reaches_fixpoint_iff {number : Int} (read : theory.trueContents = .ok contents)
    (counted : theory.nextNumber = .ok number) (few : (rules contents).length ≤ 100)
    (words : forall fact, fact ∈ facts contents -> Grammar.IsWord fact.2.toList) :
    ∃ new : List Fact, new.Nodup ∧
      (forall fact, fact ∈ new ↔ Entailed (rules contents) (facts contents) fact ∧
        fact ∉ facts contents ∧ theory.hasFormula (factText fact) = false) ∧
      ((forall k : Nat, k < new.length ->
          .string (Statement.idOf 'I' (number + k)) ∉ theory.statements.map Statement.id) ↔
        forall now, ∃ after stored, theory.infer now none = .ok (after, stored) ∧
          theory.Adds number new after stored ∧
          forall later, after.infer later none = .ok (after, [])) := by
  have traced := ChainState.traced_saturate (rules contents) (facts contents) ChainState.roundBound
  refine ⟨(theory.unstated (consequences contents)).map Derivation.fact,
    traced.distinct.sublist (List.filter_sublist.map _), fun fact => mem_unstated_iff few, ?_⟩
  constructor
  · intro unused now
    rw [List.length_map] at unused
    rcases exists_infer_adds read counted words unused now with ⟨after, stored, done, adds⟩
    refine ⟨after.timed, stored, done, adds, ?_⟩
    refine adds.infer_again read words (fun fact member => ?_)
      fun _ => adds.hasFormula_of_entailed few
    have followed := (mem_unstated_iff few).mp member
    exact ⟨followed.1, followed.2.1⟩
  · intro always k few
    rcases always "" with ⟨after, stored, done, adds, _⟩
    exact adds.unused done few

def reversedRules : Theory :=
  ⟨[literal "S0001" "P(a)" "t", literal "S0002" "[forall X Q(X)]R(X)" "t",
    literal "S0003" "[forall X P(X)]Q(X)" "t"], .int 4, ⟨none, none, none⟩⟩

theorem trueContents_reversedRules :
    ∃ contents, reversedRules.trueContents = .ok contents ∧ facts contents = [("P", "a")] ∧
      rules contents = [⟨.string "S0002", "Q", "R"⟩, ⟨.string "S0003", "P", "Q"⟩] := by
  have read := @trueContents_of_contents reversedRules _
    (.cons (content?_literal _ _ readFormula_P_a)
      (.cons (content?_literal _ _ readFormula_unary_rules.2)
        (.cons (content?_literal _ _ readFormula_unary_rules.1) .nil)))
  exact ⟨_, read, rfl, rfl⟩

theorem infer_reaches_fixpoint_reversed_rules :
    ∃ contents, reversedRules.trueContents = .ok contents ∧
      reversedRules.nextNumber = .ok 4 ∧ (rules contents).length ≤ 100 ∧
      (forall fact, fact ∈ facts contents -> Grammar.IsWord fact.2.toList) ∧
      ∃ new : List Fact, new.Nodup ∧ ("Q", "a") ∈ new ∧ ("R", "a") ∈ new ∧
        (forall k : Nat, k < new.length ->
          .string (Statement.idOf 'I' (4 + k)) ∉ reversedRules.statements.map Statement.id) ∧
        forall now, ∃ after stored, reversedRules.infer now none = .ok (after, stored) ∧
          reversedRules.Adds 4 new after stored ∧
          forall later, after.infer later none = .ok (after, []) := by
  rcases trueContents_reversedRules with ⟨contents, read, factsOf, rulesOf⟩
  have few : (rules contents).length ≤ 100 := by
    rw [rulesOf]
    decide
  have words : forall fact, fact ∈ facts contents -> Grammar.IsWord fact.2.toList := by
    intro fact member
    rw [factsOf] at member
    rw [List.mem_singleton.mp member]
    exact Grammar.isWord_iff.mpr (by decide)
  have first : Entailed (rules contents) (facts contents) ("P", "a") :=
    .given (factsOf ▸ List.mem_cons_self)
  have second : Entailed (rules contents) (facts contents) ("Q", "a") :=
    @Entailed.step _ _ ⟨.string "S0003", "P", "Q"⟩ _ (by simp [rulesOf]) first
  have third : Entailed (rules contents) (facts contents) ("R", "a") :=
    @Entailed.step _ _ ⟨.string "S0002", "Q", "R"⟩ _ (by simp [rulesOf]) second
  have asserted : forall id, id ∈ reversedRules.statements.map Statement.id ->
      firstLetter id = .ok 'S' := by
    intro id listed
    simp only [reversedRules, List.map_cons, List.map_nil, List.mem_cons, List.not_mem_nil,
      or_false] at listed
    rcases listed with rfl | rfl | rfl <;> rfl
  have unused (k : Nat) := inferredId_unused asserted (4 + k)
  rcases infer_reaches_fixpoint_iff read rfl few words with ⟨new, distinct, exact, whole⟩
  refine ⟨contents, read, rfl, few, words, new, distinct, ?_, ?_, fun k _ => unused k,
    whole.mp fun k _ => unused k⟩
  · exact (exact _).mpr ⟨second, by rw [factsOf]; decide, by decide⟩
  · exact (exact _).mpr ⟨third, by rw [factsOf]; decide, by decide⟩

/-- A fact under an id that the counter comes to.  It follows from another one. -/
def reusedId : Theory :=
  ⟨[literal "S0001" "P(a)" "t", literal "S0002" "[forall X P(X)]Q(X)" "t",
    literal "S0003" "[forall X Q(X)]R(X)" "t", literal "I0004" "Q(a)" "t"], .int 4,
    ⟨none, none, none⟩⟩

/-- The fact is lost when another one is stored under its id. -/
def replacedFact : Theory :=
  ⟨[literal "S0001" "P(a)" "t", literal "S0002" "[forall X P(X)]Q(X)" "t",
    literal "S0003" "[forall X Q(X)]R(X)" "t",
    inferredStatement "" 4 ⟨("R", "a"), .string "S0003"⟩], .int 5, ⟨some 0, none, none⟩⟩

theorem infer_reusedId : reusedId.infer "" none =
    .ok (replacedFact, [inferredStatement "" 4 ⟨("R", "a"), .string "S0003"⟩]) := by
  have read := @trueContents_of_contents reusedId _
    (.cons (content?_literal _ _ readFormula_P_a)
      (.cons (content?_literal _ _ readFormula_unary_rules.1)
        (.cons (content?_literal _ _ readFormula_unary_rules.2)
          (.cons (content?_literal _ _ readFormula_Q_a) .nil))))
  rw [infer, derivations, read]
  rfl

theorem readFormula_R_a : Statement.readFormula "R(a)" = .ok (.sided "R" [.const "a"] false) := by
  with_unfolding_all rfl

theorem infer_replacedFact : ∃ last, replacedFact.infer "" none =
    .ok (last, [inferredStatement "" 5 ⟨("Q", "a"), .string "S0002"⟩]) := by
  have content : (inferredStatement "" 4 ⟨("R", "a"), .string "S0003"⟩).content? =
      .ok (some (.sided "R" [.const "a"] false)) :=
    content?_of_readFormula rfl readFormula_R_a
  have read := @trueContents_of_contents replacedFact _
    (.cons (content?_literal _ _ readFormula_P_a)
      (.cons (content?_literal _ _ readFormula_unary_rules.1)
        (.cons (content?_literal _ _ readFormula_unary_rules.2) (.cons content .nil))))
  rw [infer, derivations, read]
  exact ⟨_, rfl⟩

/-- Chaining replaces a statement whose id it draws, and the fact that is lost with it is derived
again by the next chaining. -/
theorem infer_reused_id_not_idempotent :
    ∃ after stored, reusedId.infer "" none = .ok (after, stored) ∧
      after.statements ≠ reusedId.statements ++ stored ∧
      ∃ last again, after.infer "" none = .ok (last, again) ∧ again ≠ [] := by
  rcases infer_replacedFact with ⟨last, inferred⟩
  refine ⟨_, _, infer_reusedId, fun same => ?_, last, _, inferred, List.cons_ne_nil _ _⟩
  have length := congrArg List.length same
  cases length

end Theory
end WeakKleene
