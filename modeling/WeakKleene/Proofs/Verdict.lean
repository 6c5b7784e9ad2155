import WeakKleene.Proofs.Termination
import WeakKleene.Proofs.Untraced

namespace WeakKleene

/-!
# What the verdict of a finished tableau means

For propositional formulas under definite signs the verdict has a meaning of
its own, without branches, orders and bounds: a branch stays open just when some
coherent set contains the formulas.

The formulas that are true under a valuation form a coherent set, except for
half true conjunctions under n.  So closed tableaux refute valuations, and a
conclusion that is accepted is true whenever its premises are, unless it is half
true there.
-/

namespace Standard

/-- Some coherent set contains the formulas. -/
def Satisfied (formulas : List Signed) : Prop :=
  ∃ set, Coherent set ∧ forall signed, signed ∈ formulas -> set signed

/-- A propositional formula whose sign stands for its value, and which is no half true
conjunction under n. -/
structure WhollyTrue (valuation : String -> Truth) (signed : Signed) : Prop where
  shape : signed.formula.Propositional
  holds : signed.TrueUnder valuation
  whole : signed.sign = .n -> ¬ signed.formula.HalfTrue valuation

theorem WhollyTrue.of_definite {valuation : String -> Truth} {signed : Signed}
    (shape : signed.formula.Propositional) (holds : signed.TrueUnder valuation)
    (definite : signed.sign.definite = true) : WhollyTrue valuation signed where
  shape := shape
  holds := holds
  whole := by
    intro spread
    rw [spread] at definite
    cases definite

theorem coherent_of_valuation (valuation : String -> Truth) : Coherent (WhollyTrue valuation) where
  analysed := by
    rintro signed ⟨shape, holds, whole⟩ situation rule ruled
    rw [rule_eq_cases shape] at ruled
    rcases Option.map_eq_some_iff.mp (Except.ok.inj ruled) with ⟨conclusions, cases, equal⟩
    rcases cases?_cover cases holds whole with ⟨conclusion, chosen, allTrue⟩
    have analysis := cases?_analysis cases
    rw [<- equal]
    exact ⟨conclusion, chosen, fun part member => .of_definite
      (components_propositional shape (analysis.parts conclusion chosen part member))
      (allTrue part member) (analysis.definite conclusion chosen part member)⟩
  consistent := by
    rintro formula sign other ⟨_, holds, _⟩ ⟨_, holds', _⟩ definite definite'
    exact Signed.TrueUnder.sign_eq holds holds' definite definite' rfl

end Standard

namespace Tableau

variable {tableau : Tableau} {formulas : List Signed}

theorem exists_start_eq_ok [Memory] (traced : Bool) (some_formula : formulas ≠ [])
    (shape : forall signed, signed ∈ formulas -> signed.formula.Propositional) :
    ∃ initial, start .standard formulas traced = .ok initial := by
  apply exists_start_of_accepted traced some_formula
  intro tableau standard branch id signed member
  rw [refusal?, standard, Formula.misshapen?_of_propositional (shape signed member)]
  rfl

/-- Any finished tableau has an open branch just when a coherent set contains the formulas. -/
theorem Finished.opened_iff [Memory] {traced : Bool} {initial : Tableau}
    (finished : tableau.Finished)
    (definite : forall signed, signed ∈ formulas -> signed.sign.definite = true)
    (shape : forall signed, signed ∈ formulas -> signed.formula.Propositional)
    (begun : start .standard formulas traced = .ok initial)
    (advances : Advances initial tableau) :
    tableau.opened ≠ [] ↔ Standard.Satisfied formulas := by
  have conformingInitial := conforming_start shape begun
  have conforming := conformingInitial.advances advances
  constructor
  · intro someOpen
    rcases finished with noneOpen | ⟨id, worked, found, known, saturated⟩
    · exact absurd noneOpen someOpen
    · exact ⟨_, conforming.coherent worked known saturated,
        (conforming.lawful id found worked known).carries⟩
  · rintro ⟨set, coherent, contained⟩ noneOpen
    have compatible : forall signed other, signed ∈ formulas -> other ∈ formulas ->
        ¬ Conflict .standard signed other := fun signed other member member' =>
      coherent.not_conflict (contained signed member) (contained other member')
        (shape signed member) (shape other member') (definite signed member)
    have reachable : Reachable .standard formulas tableau := ⟨traced, initial, begun, advances⟩
    rcases reachable.follows coherent.guides
      (fun signed member => ⟨contained signed member, shape signed member⟩) compatible with
        ⟨id, worked, _⟩
    rw [noneOpen] at worked
    exact List.not_mem_nil worked

/-- For propositional formulas under definite signs a run without a bound ends, and a branch is
open then just when a coherent set contains the formulas.  The same holds for the formulas in any
order, for expansions in any order, and wherever these stop with a saturated branch or none. -/
theorem satisfiable_iff_coherent [Memory] (formulas : List Signed) (traced : Bool)
    (some_formula : formulas ≠ [])
    (definite : forall signed, signed ∈ formulas -> signed.sign.definite = true)
    (shape : forall signed, signed ∈ formulas -> signed.formula.Propositional) :
    (∃ initial steps final, start .standard formulas traced = .ok initial ∧
      (forall more, initial.run (steps + more) = (final, none)) ∧ final.step? = .ok none ∧
      (final.satisfiable = true ↔ Standard.Satisfied formulas)) ∧
    forall reordered, reordered.Perm formulas ->
      forall tableau, Reachable .standard reordered tableau ->
        Acc (fun after before => Advance before after) tableau ∧
          (tableau.Finished -> (tableau.opened ≠ [] ↔ Standard.Satisfied formulas)) := by
  constructor
  · rcases exists_start_eq_ok traced some_formula shape with ⟨initial, begun⟩
    have conforming := conforming_start shape begun
    rcases run_ends conforming.ends conforming.regular
      (fun later advances => (conforming.advances advances).faultless) with
        ⟨steps, final, ended, advances, stopped⟩
    have regular := conforming.regular.advances advances
    refine ⟨initial, steps, final, begun, ended, stopped, ?_⟩
    rw [satisfiable_iff regular]
    exact (finished_of_step? regular stopped).opened_iff definite shape begun advances
  · rintro reordered same tableau ⟨traced', initial, begun, advances⟩
    have shape' : forall signed, signed ∈ reordered -> signed.formula.Propositional :=
      fun signed member => shape signed (same.mem_iff.mp member)
    have definite' : forall signed, signed ∈ reordered -> signed.sign.definite = true :=
      fun signed member => definite signed (same.mem_iff.mp member)
    refine ⟨((conforming_start shape' begun).advances advances).ends, ?_⟩
    intro finished
    rw [finished.opened_iff definite' shape' begun advances]
    simp only [Standard.Satisfied, same.mem_iff]

open scoped Memory

/-- A disjunction that is true beside a false part, which needs a split. -/
theorem satisfiable_iff_coherent_disjunction : ∃ initial steps final,
      start .standard [⟨.t, .join .disj (.atom "p") (.neg (.atom "q"))⟩, ⟨.f, .atom "p"⟩] true =
        .ok initial ∧
      (forall more, initial.run (steps + more) = (final, none)) ∧ final.step? = .ok none ∧
      (final.satisfiable = true ↔ Standard.Satisfied
        [⟨.t, .join .disj (.atom "p") (.neg (.atom "q"))⟩, ⟨.f, .atom "p"⟩]) :=
  (satisfiable_iff_coherent _ true (by decide) (by decide) (by decide)).1

/-! ## Valuations -/

theorem exists_ofFormulas_eq_ok [Memory] (traced : Bool) (some_formula : formulas ≠ [])
    (shape : forall signed, signed ∈ formulas -> signed.formula.Propositional) :
    ∃ tableau, ofFormulas .standard formulas traced = .ok tableau ∧
      Reachable .standard formulas tableau := by
  rcases exists_start_eq_ok traced some_formula shape with ⟨initial, begun⟩
  apply exists_ofFormulas_of_faultless begun
  rintro later ⟨traced', initial', begun', advances⟩
  exact ((conforming_start shape begun').advances advances).faultless

/-- A valuation that makes the initial formulas wholly true keeps a branch open, unless some of
them conflict. -/
theorem Reachable.satisfiable_of_valuation [Memory] {valuation : String -> Truth}
    (reachable : Reachable .standard formulas tableau)
    (holds : forall signed, signed ∈ formulas -> Standard.WhollyTrue valuation signed)
    (compatible : forall signed other, signed ∈ formulas -> other ∈ formulas ->
      ¬ Conflict .standard signed other) : tableau.satisfiable = true :=
  reachable.satisfiable_of_guides (Standard.coherent_of_valuation valuation).guides
    (fun signed member => ⟨holds signed member, (holds signed member).shape⟩) compatible

/-- A finished tableau of propositional formulas under definite signs without an open branch
refutes every valuation: none gives each formula the value that its sign names. -/
theorem no_valuation_of_unsatisfiable [Memory] (formulas : List Signed) (traced : Bool)
    (some_formula : formulas ≠ [])
    (definite : forall signed, signed ∈ formulas -> signed.sign.definite = true)
    (shape : forall signed, signed ∈ formulas -> signed.formula.Propositional) :
    ∃ tableau, ofFormulas .standard formulas traced = .ok tableau ∧
      (tableau.satisfiable = false -> forall valuation, ¬ forall signed, signed ∈ formulas ->
          Sign.ofTruth (signed.formula.value valuation) = signed.sign) := by
  rcases exists_ofFormulas_eq_ok traced some_formula shape with ⟨tableau, finished, reachable⟩
  refine ⟨tableau, finished, ?_⟩
  intro closed valuation named
  have holds : forall signed, signed ∈ formulas -> Standard.WhollyTrue valuation signed := by
    intro signed member
    exact .of_definite (shape signed member)
      ((Sign.mem_truths_iff (definite signed member) _).mpr (named signed member).symm)
      (definite signed member)
  have compatible : forall signed other, signed ∈ formulas -> other ∈ formulas ->
      ¬ Conflict .standard signed other := fun signed other member member' =>
    (Standard.coherent_of_valuation valuation).not_conflict (holds signed member)
      (holds other member') (shape signed member) (shape other member') (definite signed member)
  rw [reachable.satisfiable_of_valuation holds compatible] at closed
  cases closed

/-- A conjunction is not true beside an undefined part. -/
theorem no_valuation_of_undefined_part : ¬ ∃ valuation, forall signed,
      signed ∈ [⟨.t, .join .conj (.atom "p") (.neg (.atom "q"))⟩, Signed.mk .e (.atom "q")] ->
        Sign.ofTruth (signed.formula.value valuation) = signed.sign := by
  rintro ⟨valuation, named⟩
  rcases no_valuation_of_unsatisfiable
    [⟨.t, .join .conj (.atom "p") (.neg (.atom "q"))⟩, ⟨.e, .atom "q"⟩] false
    (by decide) (by decide) (by decide) with ⟨tableau, finished, refutes⟩
  have closed : (ofFormulas .standard
      [⟨.t, .join .conj (.atom "p") (.neg (.atom "q"))⟩, ⟨.e, .atom "q"⟩] false).map satisfiable =
        .ok false := rfl
  rw [finished] at closed
  exact refutes (Except.ok.inj closed) valuation named

end Tableau

/-! ## Accepted inferences -/

section Inference

variable {premises : List Formula} {conclusion : Formula} {valuation : String -> Truth}

theorem mem_refutationStart {signed : Signed} : signed ∈ refutationStart premises conclusion ↔
      (∃ premise, premise ∈ premises ∧ signed = ⟨.t, premise⟩) ∨ signed = ⟨.n, conclusion⟩ := by
  rw [refutationStart, List.mem_append, List.mem_map, List.mem_singleton]
  simp only [eq_comm]

/-- True premises and a conclusion that is not true do not conflict: the conclusion comes last,
and no true premise is the same formula. -/
theorem refutationStart_compatible
    (holds : forall signed, signed ∈ refutationStart premises conclusion ->
      Standard.WhollyTrue valuation signed) :
    forall signed other, signed ∈ refutationStart premises conclusion ->
      other ∈ refutationStart premises conclusion -> ¬ Tableau.Conflict .standard signed other := by
  intro signed other member member' conflict
  rcases mem_refutationStart.mp member with ⟨premise, _, equal⟩ | equal
  · refine (Standard.coherent_of_valuation valuation).not_conflict (holds signed member)
      (holds other member') (holds signed member).shape (holds other member').shape ?_ conflict
    rw [equal]
    rfl
  · rcases conflict with ⟨sameText, definite, _⟩
    have same := Formula.text_injective (holds other member').shape (holds signed member).shape
      sameText
    have named := (Sign.mem_truths_iff definite _).mp (holds other member').holds
    have unnamed := (holds signed member).holds
    rw [Signed.TrueUnder, <- same, equal] at unnamed
    rcases mem_refutationStart.mp member' with ⟨premise, _, equal'⟩ | equal'
    · rw [equal'] at named unnamed
      dsimp only at named unnamed
      revert named unnamed
      cases premise.value valuation <;> decide
    · rw [equal'] at definite
      cases definite

/-- A valuation with true premises and a conclusion that is neither true nor half true keeps a
branch of the refutation open. -/
theorem satisfiable_of_countermodel [Memory] {tableau : Tableau}
    (reachable : Tableau.Reachable .standard (refutationStart premises conclusion) tableau)
    (shapes : forall premise, premise ∈ premises -> premise.Propositional)
    (shape : conclusion.Propositional)
    (premisesTrue : forall premise, premise ∈ premises -> premise.value valuation = .t)
    (untrue : conclusion.value valuation ≠ .t) (whole : ¬ conclusion.HalfTrue valuation) :
    tableau.satisfiable = true := by
  have holds : forall signed, signed ∈ refutationStart premises conclusion ->
      Standard.WhollyTrue valuation signed := by
    intro signed member
    rcases mem_refutationStart.mp member with ⟨premise, listed, equal⟩ | equal
    · rw [equal]
      refine .of_definite (shapes premise listed) ?_ rfl
      show premise.value valuation ∈ Sign.t.truths
      rw [premisesTrue premise listed]
      decide
    · rw [equal]
      refine ⟨shape, ?_, fun _ => whole⟩
      show conclusion.value valuation ∈ Sign.n.truths
      revert untrue
      cases conclusion.value valuation <;> decide
  exact reachable.satisfiable_of_valuation holds (refutationStart_compatible holds)

end Inference

/-- Propositional inferences always get an answer, the same with and without a trace.  Where the
answer is that the conclusion follows, a valuation that makes all premises true makes the
conclusion true too, exactly if the conclusion is not half true there. -/
theorem entails_sound_unless_half_true [Memory] (premises : List Formula) (conclusion : Formula)
    (traced : Bool) (some_premise : premises ≠ [])
    (shapes : forall premise, premise ∈ premises -> premise.Propositional)
    (shape : conclusion.Propositional) :
    ∃ answer, entails premises conclusion = .ok answer ∧
      (∃ verdict, Inference.check ⟨premises, conclusion⟩ traced = .ok verdict ∧
        verdict.valid = answer) ∧
      (answer = true -> forall valuation,
        (forall premise, premise ∈ premises -> premise.value valuation = .t) ->
          (conclusion.value valuation = .t ↔ ¬ conclusion.HalfTrue valuation)) := by
  have shapeAll : forall signed, signed ∈ refutationStart premises conclusion ->
      signed.formula.Propositional := by
    intro signed member
    rcases mem_refutationStart.mp member with ⟨premise, listed, equal⟩ | equal
    · rw [equal]
      exact shapes premise listed
    · rw [equal]
      exact shape
  have some_formula : refutationStart premises conclusion ≠ [] :=
    List.ne_nil_of_mem (mem_refutationStart.mpr (Or.inr rfl))
  rcases Tableau.exists_ofFormulas_eq_ok false some_formula shapeAll with
    ⟨tableau, finished, reachable⟩
  have answered : entails premises conclusion = .ok (!tableau.satisfiable) := by
    rw [entails, if_neg (by rwa [List.isEmpty_iff]), finished]
    rfl
  refine ⟨!tableau.satisfiable, answered, ?_, ?_⟩
  · have checked := check_valid_eq_entails premises conclusion traced some_premise
    rw [answered] at checked
    cases outcome : Inference.check ⟨premises, conclusion⟩ traced with
    | error fault =>
      rw [outcome] at checked
      cases checked
    | ok verdict =>
      rw [outcome] at checked
      exact ⟨verdict, rfl, Except.ok.inj checked⟩
  · intro accepted valuation premisesTrue
    constructor
    · intro isTrue half
      rw [half.value_eq] at isTrue
      cases isTrue
    · intro whole
      by_contra untrue
      rw [satisfiable_of_countermodel reachable shapes shape premisesTrue untrue whole] at accepted
      cases accepted

open scoped Memory

/-- Detaching the consequent is accepted, and keeps truth. -/
theorem entails_detachment :
    entails [.join .imp (.atom "p") (.atom "q"), .atom "p"] (.atom "q") = .ok true ∧
      ¬ ∃ valuation, (Formula.join .imp (.atom "p") (.atom "q")).value valuation = .t ∧
        (Formula.atom "p").value valuation = .t ∧ (Formula.atom "q").value valuation ≠ .t := by
  have accepted : entails [.join .imp (.atom "p") (.atom "q"), .atom "p"] (.atom "q") =
    .ok true := rfl
  refine ⟨accepted, ?_⟩
  rintro ⟨valuation, implied, given, untrue⟩
  rcases entails_sound_unless_half_true [.join .imp (.atom "p") (.atom "q"), .atom "p"]
    (.atom "q") true (by decide) (by decide) (by decide) with ⟨answer, answered, _, sound⟩
  rw [accepted] at answered
  have premisesTrue : forall premise,
      premise ∈ [Formula.join .imp (.atom "p") (.atom "q"), .atom "p"] ->
        premise.value valuation = .t :=
    List.forall_mem_cons.mpr ⟨implied, List.forall_mem_singleton.mpr given⟩
  exact untrue ((sound (Except.ok.inj answered).symm valuation premisesTrue).mpr id)

/-- A true premise is said to entail its conjunction with any self-implication, also where that
is undefined. -/
theorem entails_half_true_conjunction :
    entails [.atom "p"] (.join .conj (.atom "p") (.join .imp (.atom "q") (.atom "q"))) = .ok true ∧
      ∃ valuation, (Formula.atom "p").value valuation = .t ∧
        (Formula.join .conj (.atom "p") (.join .imp (.atom "q") (.atom "q"))).value valuation =
          .e :=
  ⟨rfl, fun name => if name = "p" then .t else .e, rfl, rfl⟩

end WeakKleene
