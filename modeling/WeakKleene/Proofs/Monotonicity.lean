import WeakKleene.Proofs.Completion

namespace WeakKleene

/-!
# More premises entail no less

Premises enter a refutation in their order and each as often as it is listed,
and the tableau depends on both.  The answer depends only on which premises
there are.  A branch that is open at the end is coherent, and so is what it has
of fewer premises, whatever their order.

The conclusion stands last and under n.  It closes the first branch if it is
itself among the premises, but a premise that comes later by a rule never meets
it.  This one closure is no matter of coherence, so it is kept apart.
-/

namespace Formula

theorem value_undefined (formula : Formula) : formula.value (fun _ => .e) = .e := by
  induction formula using value.induct with
  | case4 body ih =>
    rw [value, ih]
    rfl
  | case5 connective left right atLeft atRight =>
    rw [value, atLeft, atRight]
    cases connective <;> rfl
  | _ => rfl

end Formula

namespace Tableau

variable {tableau initial : Tableau}

theorem Advances.eq_of_opened_nil [Memory] (advances : Advances initial tableau)
    (noneOpen : initial.opened = []) : tableau = initial := by
  rcases Relation.ReflTransGen.cases_head advances with equal | ⟨next, advance, _⟩
  · exact equal.symm
  · cases advance with
    | expand worked =>
      rw [noneOpen] at worked
      cases worked

end Tableau

section Inference

open Tableau

variable {premises more : List Formula} {conclusion : Formula} {tableau initial : Tableau}
variable {traced : Bool}

theorem refutationStart_ne_nil : refutationStart premises conclusion ≠ [] :=
  List.ne_nil_of_mem (mem_refutationStart.mpr (Or.inr rfl))

section

variable (shapes : forall premise, premise ∈ premises -> premise.Propositional)
variable (shape : conclusion.Propositional)
include shapes shape

theorem refutationStart_propositional :
    forall signed, signed ∈ refutationStart premises conclusion ->
      signed.formula.Propositional := by
  intro signed member
  rcases mem_refutationStart.mp member with ⟨premise, listed, rfl⟩ | rfl
  · exact shapes premise listed
  · exact shape

/-- A conclusion that is among the premises closes the first branch at once. -/
theorem not_mem_of_opened [Memory]
    (begun : start .standard (refutationStart premises conclusion) traced = .ok initial)
    (someOpen : initial.opened ≠ []) : conclusion ∉ premises := by
  intro listed
  have conforming := conforming_start (refutationStart_propositional shapes shape) begun
  rcases start_extension begun with ⟨_, trace, closed, extension⟩
  cases closed with
  | true => exact someOpen (extension.closes rfl).1
  | false =>
    rcases extension.stays rfl with ⟨opened, new, known, prolonged⟩
    have worked : 0 ∈ initial.opened := by
      rw [opened]
      exact List.mem_cons_self
    have carries := (conforming.lawful 0 new worked known).carries
    have premised := carries ⟨.t, conclusion⟩ (mem_refutationStart.mpr (.inl ⟨_, listed, rfl⟩))
    have concluded := carries ⟨.n, conclusion⟩ (mem_refutationStart.mpr (.inr rfl))
    have apart := (conforming.reachable.explained known).unclosed prolonged.unclosed
    rcases prolonged.formulas with ⟨added, equal, sublist⟩
    rw [show (blank .standard trace).formulasOn (Branch.empty 0) = [] from rfl,
      List.nil_append] at equal
    rw [equal] at premised concluded apart
    -- The premises stand in front of the conclusion.
    rcases List.sublist_append_iff.mp sublist with ⟨front, back, rfl, fromPremises, atEnd⟩
    have inFront : ⟨.t, conclusion⟩ ∈ front := by
      rcases List.mem_append.mp premised with there | behind
      · exact there
      · cases List.mem_singleton.mp (atEnd.subset behind)
    have inBack : ⟨.n, conclusion⟩ ∈ back := by
      rcases List.mem_append.mp concluded with there | behind
      · rcases List.mem_map.mp (fromPremises.subset there) with ⟨premise, _, impossible⟩
        cases impossible
      · exact behind
    have clash : Sign.t ≠ .n := by decide
    exact (List.pairwise_append.mp apart).2.2 _ inFront _ inBack ⟨rfl, rfl, clash⟩

/-- A finished refutation with an open branch leaves a coherent set, and the conclusion is none of
the premises. -/
theorem satisfied_of_opened [Memory]
    (begun : start .standard (refutationStart premises conclusion) traced = .ok initial)
    (advances : Advances initial tableau) (finished : tableau.Finished)
    (someOpen : tableau.opened ≠ []) :
    conclusion ∉ premises ∧ Standard.Satisfied (refutationStart premises conclusion) := by
  have conforming :=
    (conforming_start (refutationStart_propositional shapes shape) begun).advances advances
  constructor
  · apply not_mem_of_opened shapes shape begun
    intro noneOpen
    rw [advances.eq_of_opened_nil noneOpen] at someOpen
    exact someOpen noneOpen
  · rcases finished with noneOpen | ⟨id, worked, found, known, saturated⟩
    · exact absurd noneOpen someOpen
    · exact ⟨_, conforming.coherent worked known saturated,
        (conforming.lawful id found worked known).carries⟩

/-- A coherent set that contains the refutation of more premises keeps a branch open in that of
fewer, unless the conclusion is among them. -/
theorem satisfiable_of_satisfied [Memory]
    (reachable : Reachable .standard (refutationStart premises conclusion) tableau)
    (apart : conclusion ∉ premises)
    (satisfied : Standard.Satisfied (refutationStart premises conclusion)) :
    tableau.satisfiable = true := by
  have shapeAll := refutationStart_propositional shapes shape
  rcases satisfied with ⟨set, coherent, contained⟩
  refine reachable.satisfiable_of_guides coherent.guides
    (fun signed member => ⟨contained signed member, shapeAll signed member⟩) ?_
  intro signed other member member' conflict
  rcases mem_refutationStart.mp member with ⟨premise, listed, rfl⟩ | rfl
  · exact coherent.not_conflict (contained _ member) (contained other member')
      (shapeAll _ member) (shapeAll other member') rfl conflict
  · -- The conclusion conflicts only with a premise that is written like it.
    rcases conflict with ⟨sameText, definite, _⟩
    rcases mem_refutationStart.mp member' with ⟨premise, listed, rfl⟩ | rfl
    · rw [Formula.text_injective (shapes premise listed) shape sameText] at listed
      exact apart listed
    · cases definite

end

theorem Standard.Satisfied.subset {formulas fewer : List Signed}
    (satisfied : Standard.Satisfied formulas)
    (contained : forall signed, signed ∈ fewer -> signed ∈ formulas) :
    Standard.Satisfied fewer := by
  rcases satisfied with ⟨set, coherent, all⟩
  exact ⟨set, coherent, fun signed member => all signed (contained signed member)⟩

theorem valid_eq_false [Memory] (shape : conclusion.Propositional) :
    valid conclusion = .ok false := by
  have shapes (sign : Sign) : forall signed, signed ∈ [Signed.mk sign conclusion] ->
      signed.formula.Propositional := List.forall_mem_singleton.mpr shape
  rcases exists_ofFormulas_eq_ok false (List.cons_ne_nil _ _) (shapes .f) with
    ⟨falseTableau, falseFinished, _⟩
  rcases exists_ofFormulas_eq_ok false (List.cons_ne_nil _ _) (shapes .e) with
    ⟨undefinedTableau, undefinedFinished, reachable⟩
  have undefined : forall signed, signed ∈ [Signed.mk .e conclusion] ->
      Standard.WhollyTrue (fun _ => .e) signed := by
    refine List.forall_mem_singleton.mpr (.of_definite shape ?_ rfl)
    show conclusion.value (fun _ => .e) ∈ Sign.e.truths
    rw [conclusion.value_undefined]
    decide
  have undefinable : undefinedTableau.satisfiable = true := by
    refine reachable.satisfiable_of_valuation undefined fun signed other member member' => ?_
    refine (Standard.coherent_of_valuation _).not_conflict (undefined signed member)
      (undefined other member') (shapes .e signed member) (shapes .e other member') ?_
    rw [List.mem_singleton.mp member]
    rfl
  rw [valid, solve, solve, falseFinished, undefinedFinished]
  show (if falseTableau.satisfiable = true then Except.ok false
    else .ok (!undefinedTableau.satisfiable)) = .ok false
  rw [undefinable]
  split <;> rfl

theorem entails_eq [Memory] (some_premise : premises ≠ [])
    (constructed : ofFormulas .standard (refutationStart premises conclusion) false =
      .ok tableau) : entails premises conclusion = .ok (!tableau.satisfiable) := by
  rw [entails, if_neg (by rwa [List.isEmpty_iff]), constructed]
  rfl

/-- A refutation that is done before the bound ends with a branch that is saturated, or with none
that is open. -/
theorem exists_finished_refutation [Memory]
    (shapes : forall premise, premise ∈ premises -> premise.Propositional)
    (shape : conclusion.Propositional) :
    ∃ initial tableau, start .standard (refutationStart premises conclusion) false = .ok initial ∧
      ofFormulas .standard (refutationStart premises conclusion) false = .ok tableau ∧
      Advances initial tableau ∧
      (initial.passes stepBound < stepBound -> tableau.Finished) := by
  have shapeAll := refutationStart_propositional shapes shape
  rcases exists_start_eq_ok false refutationStart_ne_nil shapeAll with ⟨initial, begun⟩
  have conforming := conforming_start shapeAll begun
  have faultless : forall later, Advances initial later -> later.Faultless :=
    fun later advances => (conforming.advances advances).faultless
  have advances := advances_run conforming.regular stepBound
  refine ⟨initial, (initial.run stepBound).1, begun, ?_, advances, fun early => ?_⟩
  · rw [ofFormulas, begun]
    exact construct_eq (run_faultless conforming.regular faultless)
  · exact finished_of_step? (conforming.regular.advances advances)
      (step?_of_passes_lt conforming.regular faultless early)

end Inference

/-- Entailment is monotone, whatever the order of the premises and however often they are
repeated.  Propositional inferences always get an answer.  Where a conclusion follows from some
premises it follows from all lists that contain them, if the refutation is done before the bound on
expansions is reached. -/
theorem entails_of_subset [Memory] (premises more : List Formula) (conclusion : Formula)
    (contained : forall premise, premise ∈ premises -> premise ∈ more)
    (shapes : forall premise, premise ∈ more -> premise.Propositional)
    (shape : conclusion.Propositional) :
    ∃ answer answer' initial, entails premises conclusion = .ok answer ∧
      entails more conclusion = .ok answer' ∧
      Tableau.start .standard (refutationStart more conclusion) false = .ok initial ∧
      (answer = true -> initial.passes Tableau.stepBound < Tableau.stepBound ->
        answer' = true) := by
  have fewerShapes : forall premise, premise ∈ premises -> premise.Propositional :=
    fun premise listed => shapes premise (contained premise listed)
  rcases exists_finished_refutation shapes shape with
    ⟨initial, tableau, begun, constructed, advances, finished⟩
  rcases exists_finished_refutation fewerShapes shape with
    ⟨_, fewer, begunFewer, constructedFewer, advancesFewer, _⟩
  cases premises with
  | nil =>
    -- Without premises nothing follows.
    cases more with
    | nil =>
      exact ⟨false, false, initial, valid_eq_false shape, valid_eq_false shape, begun,
        nofun⟩
    | cons premise rest =>
      exact ⟨false, _, initial, valid_eq_false shape,
        entails_eq (List.cons_ne_nil _ _) constructed, begun,
        nofun⟩
  | cons premise rest =>
    have some_premise : more ≠ [] := List.ne_nil_of_mem (contained premise List.mem_cons_self)
    refine ⟨_, _, initial, entails_eq (List.cons_ne_nil _ _) constructedFewer,
      entails_eq some_premise constructed, begun, fun accepted early => ?_⟩
    by_contra refused
    rw [Bool.not_eq_true', Bool.not_eq_false] at refused
    have regular : tableau.Regular := (Tableau.reachable_of_ofFormulas constructed).regular
    rcases satisfied_of_opened shapes shape begun advances (finished early)
      ((Tableau.satisfiable_iff regular).mp refused) with ⟨apart, satisfied⟩
    have satisfiedFewer : Standard.Satisfied (refutationStart (premise :: rest) conclusion) := by
      apply satisfied.subset
      intro signed member
      rcases mem_refutationStart.mp member with ⟨given, listed, equal⟩ | equal
      · exact mem_refutationStart.mpr (.inl ⟨given, contained given listed, equal⟩)
      · exact mem_refutationStart.mpr (.inr equal)
    have stillOpen := satisfiable_of_satisfied fewerShapes shape
      ⟨false, _, begunFewer, advancesFewer⟩ (fun listed => apart (contained conclusion listed))
      satisfiedFewer
    rw [stillOpen] at accepted
    cases accepted

open scoped Memory

/-- Detaching the consequent is accepted also with the premises turned around, one of them twice
and another one beside them. -/
theorem entails_detachment_among_more :
    entails [.join .imp (.atom "p") (.atom "q"), .atom "p"] (.atom "q") = .ok true ∧
      entails [.atom "p", .neg (.atom "r"), .join .imp (.atom "p") (.atom "q"), .atom "p"]
        (.atom "q") = .ok true := by
  have accepted : entails [.join .imp (.atom "p") (.atom "q"), .atom "p"] (.atom "q") =
    .ok true := rfl
  refine ⟨accepted, ?_⟩
  rcases entails_of_subset [.join .imp (.atom "p") (.atom "q"), .atom "p"]
    [.atom "p", .neg (.atom "r"), .join .imp (.atom "p") (.atom "q"), .atom "p"] (.atom "q")
    (by simp) (by decide) (by decide) with ⟨answer, answer', initial, first, second, begun, kept⟩
  have counted : (Tableau.start .standard (refutationStart
      [.atom "p", .neg (.atom "r"), .join .imp (.atom "p") (.atom "q"), .atom "p"] (.atom "q"))
        false).map (Tableau.passes Tableau.stepBound) = .ok 4 := rfl
  rw [begun] at counted
  rw [accepted] at first
  rw [second, kept (Except.ok.inj first).symm]
  rw [Except.ok.inj counted]
  decide

end WeakKleene
