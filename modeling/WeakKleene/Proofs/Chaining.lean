import WeakKleene.Proofs.Reachability
import WeakKleene.Proofs.Updates
import WeakKleene.Theory.Chaining

namespace WeakKleene

/-!
# Chains of derivations

Chaining goes through the rules again and again, and each rule goes through all
individuals that were known to fall under its first predicate.  What comes out
is a list of derivations, and each of them belongs to a rule and to a fact that
was given or derived earlier in the list.
-/

/-! ## Derivations -/

/-- Derivations in order, each by a rule from a fact that is given or was derived before. -/
inductive Chain (rules : List ChainRule) (given : List Fact) : List Derivation -> Prop where
  | nil : Chain rules given []
  | snoc {earlier : List Derivation} {rule : ChainRule} {individual : String}
      (chain : Chain rules given earlier) (listed : rule ∈ rules)
      (premise : (rule.restriction, individual) ∈ given ++ earlier.map Derivation.fact) :
      Chain rules given (earlier ++ [⟨(rule.matrix, individual), rule.source⟩])

namespace Chain

variable {rules : List ChainRule} {given : List Fact} {derivations : List Derivation}

/-- Each derivation belongs to a rule and to a fact before it. -/
theorem split (chain : Chain rules given derivations) {earlier later : List Derivation}
    {derivation : Derivation} (whole : derivations = earlier ++ derivation :: later) :
    ∃ rule individual, rule ∈ rules ∧ derivation = ⟨(rule.matrix, individual), rule.source⟩ ∧
      (rule.restriction, individual) ∈ given ++ earlier.map Derivation.fact := by
  induction chain generalizing later with
  | nil => exact absurd whole.symm (by simp)
  | @snoc before rule individual chain listed premise ih =>
    rcases List.eq_nil_or_concat later with rfl | ⟨between, last, rfl⟩
    · rcases List.append_inj' whole rfl with ⟨rfl, same⟩
      exact ⟨rule, individual, listed, (List.cons.inj same).1.symm, premise⟩
    · rw [List.concat_eq_append, <- List.cons_append, <- List.append_assoc] at whole
      exact ih (List.append_inj' whole rfl).1

/-- What is derived is about individuals of which something was given. -/
theorem individual (chain : Chain rules given derivations) (holds : String -> Prop)
    (start : forall fact, fact ∈ given -> holds fact.2) :
    forall derivation, derivation ∈ derivations -> holds derivation.fact.2 := by
  induction chain with
  | nil => exact nofun
  | @snoc before rule individual chain listed premise ih =>
    intro derivation member
    rcases List.mem_append.mp member with old | new
    · exact ih derivation old
    · rw [List.mem_singleton.mp new]
      rcases List.mem_append.mp premise with first | derived
      · exact start (rule.restriction, individual) first
      · rcases List.mem_map.mp derived with ⟨before, listed, same⟩
        exact congrArg Prod.snd same ▸ ih before listed

end Chain

namespace ChainState

variable {rules : List ChainRule} {given : List Fact} {state : ChainState}

/-- A property of states that is kept when a rule derives a fact from one that is known. -/
def Kept (rules : List ChainRule) (holds : ChainState -> Prop) : Prop :=
  forall {state : ChainState} {rule : ChainRule} {individual : String}, holds state ->
    rule ∈ rules -> (rule.restriction, individual) ∈ state.facts ->
    holds (derive rule.source state (rule.matrix, individual))

theorem facts_subset_derive (source : Json) (state : ChainState) (fact : Fact) :
    state.facts ⊆ (derive source state fact).facts := by
  rw [derive]
  split
  · exact List.Subset.refl _
  · exact List.subset_append_left _ _

theorem mem_individuals_iff {predicate individual : String} :
    individual ∈ state.individuals predicate ↔ (predicate, individual) ∈ state.facts := by
  rw [individuals, Sorted.mem_ofList_iff, List.mem_map]
  constructor
  · rintro ⟨⟨name, other⟩, kept, rfl⟩
    rcases List.mem_filter.mp kept with ⟨listed, same⟩
    rw [<- beq_iff_eq.mp same]
    exact listed
  · intro known
    exact ⟨_, List.mem_filter.mpr ⟨known, beq_self_eq_true _⟩, rfl⟩

section Kept

variable {holds : ChainState -> Prop}

section

variable (kept : Kept rules holds) (start : holds state)
include kept start

theorem Kept.apply {rule : ChainRule}
    (listed : rule ∈ rules) : holds (state.apply rule) := by
  have known : forall individual, individual ∈ state.individuals rule.restriction ->
      (rule.restriction, individual) ∈ state.facts :=
    fun _ => mem_individuals_iff.mp
  rw [ChainState.apply]
  generalize state.individuals rule.restriction = individuals at known
  induction individuals generalizing state with
  | nil => exact start
  | cons first rest ih =>
    refine ih (kept start listed (known first List.mem_cons_self)) ?_
    intro individual member
    exact facts_subset_derive _ _ _ (known individual (List.mem_cons_of_mem first member))

theorem Kept.applyAll {some : List ChainRule}
    (within : some ⊆ rules) : holds (some.foldl ChainState.apply state) := by
  induction some generalizing state with
  | nil => exact start
  | cons rule rest ih =>
    rcases List.cons_subset.mp within with ⟨listed, others⟩
    exact ih (kept.apply start listed) others

theorem Kept.round : holds (round rules state) :=
  kept.applyAll start (List.Subset.refl _)

theorem Kept.saturate (bound : Nat) :
    holds (saturate rules bound state) := by
  induction bound generalizing state with
  | zero => exact start
  | succ bound ih =>
    rw [ChainState.saturate]
    split
    · exact kept.round start
    · exact ih (kept.round start)

end

end Kept

/-- The facts of a state are those given and those derived, in order, and nothing is derived that
was given or derived before. -/
structure Traced (rules : List ChainRule) (given : List Fact) (state : ChainState) : Prop where
  facts : state.facts = given ++ state.derived.map Derivation.fact
  chain : Chain rules given state.derived
  distinct : (state.derived.map Derivation.fact).Nodup
  new : forall derivation, derivation ∈ state.derived -> derivation.fact ∉ given

theorem kept_traced : Kept rules (Traced rules given) := by
  intro state rule individual traced listed known
  rw [derive]
  split
  · exact traced
  · next unknown =>
    rw [List.contains_iff_mem, traced.facts, List.mem_append, not_or] at unknown
    rw [traced.facts] at known
    refine ⟨?_, .snoc traced.chain listed known, ?_, ?_⟩
    · rw [traced.facts, List.map_append, List.append_assoc]
      rfl
    · rw [List.map_append]
      refine List.nodup_append.mpr ⟨traced.distinct, by simp, ?_⟩
      intro fact derived other last
      rw [List.mem_singleton.mp last]
      rintro rfl
      exact unknown.2 derived
    · intro derivation member
      rcases List.mem_append.mp member with old | new
      · exact traced.new derivation old
      · rw [List.mem_singleton.mp new]
        exact unknown.1

theorem traced_saturate (rules : List ChainRule) (given : List Fact) (bound : Nat) :
    (saturate rules bound ⟨given, []⟩).Traced rules given := by
  have start : Traced rules given ⟨given, []⟩ :=
    ⟨(List.append_nil _).symm, .nil, List.nodup_nil, fun _ => List.not_mem_nil.elim⟩
  exact kept_traced.saturate start bound

end ChainState

/-! ## Contents as facts and rules -/

namespace Theory

open Tableau (exists_of_bind_eq_ok mem_of_mapM)

variable {theory : Theory}
variable {formula : Formula} {contents : List (Statement × Formula)} {derivations : List Derivation}

theorem mem_of_trueContents (read : theory.trueContents = .ok contents) {statement : Statement}
    (member : (statement, formula) ∈ contents) :
    statement ∈ theory.statements ∧ statement.sign.isText "t" = true ∧
      statement.content? = .ok (some formula) := by
  rcases exists_of_bind_eq_ok read with ⟨visits, visited, same⟩
  cases same
  rcases List.mem_filter.mp member with ⟨listed, sign⟩
  rcases List.mem_filterMap.mp listed with ⟨visit, found, rfl⟩
  rcases (mem_of_mapM visited).1 _ found with ⟨other, stated, equal⟩
  rcases exists_of_bind_eq_ok equal with ⟨formula?, content, made⟩
  rcases Option.map_eq_some_iff.mp (Except.ok.inj made) with ⟨inside, rfl, pair⟩
  cases pair
  exact ⟨stated, sign, content⟩

/-- Where every statement can be read, those under the sign t are left. -/
theorem trueContents_of_contents {formulas : List Formula}
    (read : List.Forall₂ (fun statement formula => statement.content? = .ok (some formula))
      theory.statements formulas) :
    theory.trueContents =
      .ok ((theory.statements.zip formulas).filter fun content => content.1.sign.isText "t") := by
  have visited : (theory.statements.mapM fun statement => do
      return (<- statement.content?).map fun formula => (statement, formula)) =
      (.ok ((theory.statements.zip formulas).map some) : Except Fault _) := by
    generalize theory.statements = statements at read ⊢
    induction read with
    | nil => rfl
    | cons content _ ih =>
      rw [List.mapM_cons, content, ih]
      rfl
  rw [trueContents, visited]
  simp [bind, Except.bind, pure, Except.pure]

theorem mem_facts_iff {fact : Fact} :
    fact ∈ facts contents ↔ ∃ content, content ∈ contents ∧ fact? content.2 = some fact := by
  rw [facts, List.mem_eraseDups, List.mem_filterMap]

theorem predicateName?_of_predicate? {name : String}
    (found : predicate? formula = some name) : formula.predicateName? = some name :=
  (Option.filter_eq_some_iff.mp found).1

theorem fact?_eq_some {fact : Fact} (found : fact? formula = some fact) :
    formula.predicateName? = some fact.1 ∧ formula.arguments? = some [.const fact.2] := by
  rcases Option.bind_eq_some_iff.mp found with ⟨name, named, found⟩
  rcases Option.bind_eq_some_iff.mp found with ⟨args, arguments, found⟩
  split at found
  · split at found
    · cases found
    · cases found
      exact ⟨predicateName?_of_predicate? named, arguments⟩
  · cases found

theorem rule?_eq_some {source : Json} {rule : ChainRule}
    (found : rule? source formula = some rule) :
    rule.source = source ∧ ∃ var restriction matrix, formula = .quant .all var restriction matrix ∧
        restriction.predicateName? = some rule.restriction ∧
        matrix.predicateName? = some rule.matrix := by
  rw [rule?.eq_def] at found
  split at found
  · next var restriction matrix =>
    rcases Option.bind_eq_some_iff.mp found with ⟨first, restricted, found⟩
    rcases Option.bind_eq_some_iff.mp found with ⟨second, asserted, same⟩
    cases same
    exact ⟨rfl, var, restriction, matrix, rfl, predicateName?_of_predicate? restricted,
      predicateName?_of_predicate? asserted⟩
  · cases found

/-- What a theory derives is a chain from the facts and by the rules that its statements are. -/
theorem chain_of_derivations (found : theory.derivations = .ok derivations) :
    ∃ contents, theory.trueContents = .ok contents ∧
      Chain (rules contents) (facts contents) derivations := by
  rcases exists_of_bind_eq_ok found with ⟨contents, read, same⟩
  cases same
  exact ⟨contents, read, (ChainState.traced_saturate _ _ ChainState.roundBound).chain⟩

theorem source_of_mem_derivations (found : theory.derivations = .ok derivations)
    {derivation : Derivation} (member : derivation ∈ derivations) :
    ∃ statement, statement ∈ theory.statements ∧ derivation.source = statement.id := by
  rcases chain_of_derivations found with ⟨contents, read, chain⟩
  rcases List.append_of_mem member with ⟨earlier, later, whole⟩
  rcases chain.split whole with ⟨rule, individual, listed, rfl, _⟩
  rcases List.mem_filterMap.mp listed with ⟨⟨statement, formula⟩, content, ruled⟩
  exact ⟨statement, (mem_of_trueContents read content).1, (rule?_eq_some ruled).1⟩

end Theory
end WeakKleene
