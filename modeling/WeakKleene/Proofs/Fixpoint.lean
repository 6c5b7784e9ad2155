import WeakKleene.Proofs.Chaining

namespace WeakKleene

/-!
# The least fixpoint of chaining

What follows from facts by rules is the least set that holds the facts and is
closed under the rules.  Each fact is about one individual, and rules lead from
facts to facts about the same individual.  A round that finds an individual open
makes the matrix of a further rule known to hold of it, and one that finds it
closed leaves it so.  As many rounds as there are rules are therefore enough,
and a round that derives nothing may end them earlier.
-/

/-- The least set of facts that holds those given and is closed under the rules. -/
inductive Entailed (rules : List ChainRule) (given : List Fact) : Fact -> Prop where
  | given {fact : Fact} (member : fact ∈ given) : Entailed rules given fact
  | step {rule : ChainRule} {individual : String} (listed : rule ∈ rules)
      (premise : Entailed rules given (rule.restriction, individual)) :
      Entailed rules given (rule.matrix, individual)

theorem Entailed.individual {rules : List ChainRule} {given : List Fact} {fact : Fact}
    (entailed : Entailed rules given fact) (holds : String -> Prop)
    (start : forall fact, fact ∈ given -> holds fact.2) : holds fact.2 := by
  induction entailed with
  | given member => exact start _ member
  | step _ _ ih => exact ih

theorem Chain.entailed {rules : List ChainRule} {given : List Fact}
    {derivations : List Derivation} (chain : Chain rules given derivations) :
    forall derivation, derivation ∈ derivations -> Entailed rules given derivation.fact := by
  induction chain with
  | nil => exact fun _ => List.not_mem_nil.elim
  | @snoc earlier rule individual chain listed premise ih =>
    intro derivation member
    rcases List.mem_append.mp member with old | new
    · exact ih derivation old
    · rw [List.mem_singleton.mp new]
      refine .step listed ?_
      rcases List.mem_append.mp premise with first | derived
      · exact .given first
      · rcases List.mem_map.mp derived with ⟨before, listed, same⟩
        exact same ▸ ih before listed

namespace ChainState

variable {rules : List ChainRule} {given : List Fact} {state later : ChainState}

/-! ## Rounds -/

def Extends (state later : ChainState) : Prop :=
  ∃ more, later.derived = state.derived ++ more ∧
    later.facts = state.facts ++ more.map Derivation.fact

theorem Extends.refl (state : ChainState) : state.Extends state :=
  ⟨[], (List.append_nil _).symm, (List.append_nil _).symm⟩

theorem Extends.subset (further : state.Extends later) : state.facts ⊆ later.facts := by
  rcases further with ⟨more, _, facts⟩
  rw [facts]
  exact List.subset_append_left _ _

theorem Extends.eq_of_length (further : state.Extends later)
    (same : later.derived.length = state.derived.length) : later.facts = state.facts := by
  rcases further with ⟨more, derived, facts⟩
  rw [derived, List.length_append] at same
  have nothing : more = [] := List.length_eq_zero_iff.mp (by omega)
  rw [facts, nothing, List.map_nil, List.append_nil]

theorem kept_extends : Kept rules state.Extends := by
  intro middle rule individual further _ _
  rw [derive]
  split
  · exact further
  · rcases further with ⟨more, derived, facts⟩
    refine ⟨more ++ [⟨(rule.matrix, individual), rule.source⟩], ?_, ?_⟩
    · rw [derived, List.append_assoc]
    · rw [facts, List.map_append, List.append_assoc]
      rfl

theorem extends_applyAll (some : List ChainRule) (state : ChainState) :
    state.Extends (some.foldl apply state) := by
  have kept : Kept some state.Extends := kept_extends
  exact kept.applyAll (.refl state) (List.Subset.refl _)

theorem extends_round (rules : List ChainRule) (state : ChainState) :
    state.Extends (round rules state) :=
  extends_applyAll rules state

theorem mem_derive (source : Json) (state : ChainState) (fact : Fact) :
    fact ∈ (derive source state fact).facts := by
  rw [derive]
  split
  · next known => exact List.contains_iff_mem.mp known
  · exact List.mem_append_right _ List.mem_cons_self

variable {rule : ChainRule} {individual : String}

/-- A rule makes its matrix known to hold of what its restriction is known to hold of. -/
theorem mem_apply (known : (rule.restriction, individual) ∈ state.facts) :
    (rule.matrix, individual) ∈ (state.apply rule).facts := by
  have listed := mem_individuals_iff.mpr known
  rw [apply]
  generalize state.individuals rule.restriction = individuals at listed
  clear known
  induction individuals generalizing state with
  | nil => cases listed
  | cons first rest ih =>
    rcases List.mem_cons.mp listed with rfl | later
    · -- What the first individual brings is kept while the others have their turn.
      have kept (some : List String) {state : ChainState} {fact : Fact}
          (member : fact ∈ state.facts) :
          fact ∈ (some.foldl (fun state individual =>
            state.derive rule.source (rule.matrix, individual)) state).facts := by
        induction some generalizing state with
        | nil => exact member
        | cons first rest ih => exact ih (facts_subset_derive _ _ _ member)
      exact kept rest (mem_derive _ _ _)
    · exact ih later

/-- A round applies each rule to all that was known before. -/
theorem mem_round (listed : rule ∈ rules) (known : (rule.restriction, individual) ∈ state.facts) :
    (rule.matrix, individual) ∈ (round rules state).facts := by
  rcases List.append_of_mem listed with ⟨front, back, rfl⟩
  rw [round, List.foldl_append, List.foldl_cons]
  have before := (extends_applyAll front state).subset known
  exact (extends_applyAll back _).subset (mem_apply before)

/-! ## Individuals -/

/-- Nothing more follows about an individual. -/
def ClosedFor (rules : List ChainRule) (facts : List Fact) (individual : String) : Prop :=
  forall rule, rule ∈ rules -> (rule.restriction, individual) ∈ facts ->
    (rule.matrix, individual) ∈ facts

/-- The number of rules whose matrix is not known to hold of an individual. -/
def unmet (rules : List ChainRule) (facts : List Fact) (individual : String) : Nat :=
  rules.countP fun rule => !facts.contains (rule.matrix, individual)

theorem unmet_le_length (rules : List ChainRule) (facts : List Fact) (individual : String) :
    unmet rules facts individual ≤ rules.length :=
  List.countP_le_length

theorem unmet_lt {facts more : List Fact} (within : facts ⊆ more)
    (listed : rule ∈ rules) (unknown : (rule.matrix, individual) ∉ facts)
    (known : (rule.matrix, individual) ∈ more) :
    unmet rules more individual < unmet rules facts individual := by
  have fewer (some : List ChainRule) :
      unmet some more individual ≤ unmet some facts individual := by
    refine List.countP_mono_left fun rule _ unmet => ?_
    simp only [Bool.not_eq_true', List.contains_eq_mem, decide_eq_false_iff_not] at unmet ⊢
    exact fun member => unmet (within member)
  rcases List.append_of_mem listed with ⟨front, back, rfl⟩
  have atFront := fewer front
  have atBack := fewer back
  simp only [unmet, List.countP_append, List.countP_cons, List.contains_eq_mem, unknown, known,
    decide_true, decide_false, Bool.not_true, Bool.not_false, Bool.false_eq_true, if_true,
    if_false] at atFront atBack ⊢
  omega

/-- About an individual for which nothing more follows, nothing is derived. -/
theorem ClosedFor.round (closed : ClosedFor rules state.facts individual) :
    ClosedFor rules (round rules state).facts individual := by
  have kept : Kept rules fun later => forall predicate,
      (predicate, individual) ∈ later.facts -> (predicate, individual) ∈ state.facts := by
    intro middle rule other old listed premise predicate member
    rw [derive] at member
    split at member
    · exact old predicate member
    · rcases List.mem_append.mp member with known | new
      · exact old predicate known
      · cases List.mem_singleton.mp new
        exact closed rule listed (old rule.restriction premise)
  intro rule listed known
  have before := kept.round (fun _ member => member) rule.restriction known
  exact (extends_round rules state).subset (closed rule listed before)

/-- By induction on the number of rounds.  A round that derives nothing finds nothing to derive,
and every other one meets a further rule for each individual that needs it. -/
theorem closedFor_saturate (bound : Nat)
    (enough : ClosedFor rules state.facts individual ∨ unmet rules state.facts individual ≤ bound) :
    ClosedFor rules (saturate rules bound state).facts individual := by
  induction bound generalizing state with
  | zero =>
    rw [saturate]
    rcases enough with closed | none
    · exact closed
    · intro rule listed _
      have met := List.countP_eq_zero.mp (Nat.le_zero.mp none) rule listed
      simpa using met
  | succ bound ih =>
    rw [saturate]
    split
    · next same =>
      intro rule listed known
      rw [(extends_round rules state).eq_of_length (beq_iff_eq.mp same)] at known
      exact mem_round listed known
    · apply ih
      by_cases closed : ClosedFor rules state.facts individual
      · exact .inl closed.round
      · have few := enough.resolve_left closed
        simp only [ClosedFor, not_forall] at closed
        rcases closed with ⟨rule, listed, known, unknown⟩
        have fewer := unmet_lt (extends_round rules state).subset listed unknown
          (mem_round listed known)
        exact .inr (by omega)

/-- With at least as many rounds as there are rules, chaining finds exactly what follows. -/
theorem mem_saturate_iff {bound : Nat} (few : rules.length ≤ bound) {fact : Fact} :
    fact ∈ (saturate rules bound ⟨given, []⟩).facts ↔ Entailed rules given fact := by
  have traced := traced_saturate rules given bound
  rw [traced.facts, List.mem_append]
  constructor
  · rintro (first | derived)
    · exact .given first
    · rcases List.mem_map.mp derived with ⟨derivation, listed, rfl⟩
      exact traced.chain.entailed derivation listed
  · intro entailed
    rw [<- List.mem_append, <- traced.facts]
    induction entailed with
    | given member =>
      rw [traced.facts]
      exact List.mem_append_left _ member
    | @step rule individual listed _ ih =>
      have enough := Nat.le_trans (unmet_le_length rules given individual) few
      exact closedFor_saturate bound (.inr enough) rule listed ih

end ChainState

end WeakKleene
