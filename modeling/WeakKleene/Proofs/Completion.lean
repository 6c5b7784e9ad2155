import WeakKleene.Proofs.Verdict

namespace WeakKleene
namespace Tableau

/-!
# What a run leaves behind

A run works on the first open branch until nothing is left to expand there.  It
then stops, although branches further back may still have nodes whose rule was
never applied.  So a run that is not cut off by its bound ends with a first
branch that is saturated, and the tableau is complete exactly if the other open
branches happen to be saturated too.

The verdict does not suffer.  Expansions work on one branch and leave the others
alone, so a saturated branch stays what it is, however the rest is expanded.
The models of the branches further back are another matter: they are read off
formulas that were never taken apart.
-/

section Runs

variable [Memory] {tableau : Tableau} {formulas : List Signed}

/-- The passes through the loop of a run: it looks whether the tableau is complete, and if not
works on the first branch.  The pass that finds nothing to do there is the last one. -/
def passes : Nat -> Tableau -> Nat
  | 0, _ => 0
  | bound + 1, tableau =>
    match tableau.complete with
    | .ok true => 0
    | _ =>
      match tableau.step? with
      | .ok (some advanced) => passes bound advanced + 1
      | _ => 1

/-! ## Completeness and saturation -/

/-- Where no expansion has a fault, a tableau is complete just when all its open branches are
saturated. -/
theorem Faultless.complete_iff (faultless : tableau.Faultless) : tableau.complete = .ok true ↔
      forall id, id ∈ tableau.opened -> forall found, tableau.branch? id = some found ->
        tableau.Saturated found := by
  constructor
  · intro complete id worked found known
    exact saturated_of_complete complete worked known
  · intro saturated
    rcases faultless.complete with ⟨complete, completed⟩
    cases complete with
    | true => exact completed
    | false =>
      rcases return_eq_ok.mp completed with ⟨unfinished, searched, equal⟩
      rw [Bool.not_eq_false'] at equal
      rw [equal] at searched
      rcases exists_of_anyM searched nofun with ⟨found, member, atBranch⟩
      rcases List.mem_filterMap.mp member with ⟨id, worked, known⟩
      rcases exists_of_anyM atBranch nofun with ⟨node, waiting, atNode⟩
      rcases return_eq_ok.mp atNode with ⟨proposal, proposed, present⟩
      rw [saturated id worked found known node waiting] at proposed
      rw [<- Except.ok.inj proposed] at present
      cases present

theorem step?_of_complete (complete : tableau.complete = .ok true) : tableau.step? = .ok none := by
  rw [step?, next?, complete]
  rfl

/-- A run that needs fewer passes than it is allowed ends where no step is left. -/
theorem step?_of_passes_lt {bound : Nat} (regular : Regular tableau)
    (faultless : forall later, Advances tableau later -> later.Faultless)
    (early : tableau.passes bound < bound) : (tableau.run bound).1.step? = .ok none := by
  induction bound generalizing tableau with
  | zero => exact absurd early (Nat.not_lt_zero _)
  | succ bound ih =>
    rcases (faultless tableau .refl).step? with ⟨result, stepped⟩
    cases result with
    | none =>
      rw [run, stepped]
      exact stepped
    | some after =>
      have advance := advance_of_step? regular stepped
      have incomplete : forall complete, tableau.complete = .ok complete -> complete = false := by
        intro complete completed
        cases complete with
        | false => rfl
        | true =>
          rw [step?_of_complete completed] at stepped
          cases stepped
      rcases (faultless tableau .refl).complete with ⟨complete, completed⟩
      rw [incomplete complete completed] at completed
      rw [passes, completed, stepped] at early
      rw [run, stepped]
      exact ih (regular.updates (advance.updates regular))
        (fun later advances => faultless later (advances.head advance))
        (Nat.lt_of_succ_lt_succ early)

/-! ## Saturated branches stay -/

variable {after : Tableau} {found : Branch}

/-- Without quantifiers it depends on the contents alone whether a branch is saturated. -/
theorem Conforming.saturated_of_contents {id : Nat}
    (conforming : Conforming formulas tableau) (conformingAfter : Conforming formulas after)
    (worked : id ∈ tableau.opened) (known : tableau.branch? id = some found)
    (same : after.contents found = tableau.contents found)
    (saturated : tableau.Saturated found) : after.Saturated found := by
  intro node waiting
  rcases mem_contents_of_pending conformingAfter.regular waiting with ⟨present, unprocessed⟩
  rw [same] at present
  rcases exists_pending_of_mem_contents conforming.regular present unprocessed with
    ⟨before, waitingBefore, number, carried⟩
  have shape := (conforming.lawful id found worked known).propositional node.signed
    (mem_formulasOn_iff.mpr ⟨node.id, present⟩)
  have proposed := saturated before waitingBefore
  rw [<- carried] at shape
  rw [<- number] at unprocessed
  rw [expansion?_eq conforming.standard shape unprocessed] at proposed
  rw [carried] at shape proposed
  rw [number] at unprocessed
  rw [expansion?_eq conformingAfter.standard shape unprocessed, Except.ok.inj proposed]

theorem Conforming.saturated_advance {id : Nat}
    (conforming : Conforming formulas tableau) (worked : id ∈ tableau.opened)
    (known : tableau.branch? id = some found) (saturated : tableau.Saturated found)
    (advance : Advance tableau after) :
    id ∈ after.opened ∧ after.branch? id = some found ∧ after.Saturated found := by
  rcases advance.expanded conforming.regular with
    ⟨branch, other, node, expansion, _, known', waiting, proposed, expanded⟩
  -- The branch that is expanded had a proposal, so it is not the saturated one.
  have different : id ≠ branch := by
    rintro rfl
    have same : found = other := Option.some.inj (known.symm.trans known')
    subst same
    rw [saturated node waiting] at proposed
    cases proposed
  rcases expanded.division with ⟨fresh, opened, _⟩
  have same := expanded.grows.contents (conforming.regular.branches id found known).membersExist
  refine ⟨?_, (expanded.kept id worked different).trans known,
    conforming.saturated_of_contents (conforming.advances (.single advance)) worked known same
      saturated⟩
  exact opened.mem_iff.mpr (List.mem_append_left _ ((List.mem_erase_of_ne different).mpr worked))

theorem Conforming.saturated_advances {id : Nat}
    (conforming : Conforming formulas tableau) (worked : id ∈ tableau.opened)
    (known : tableau.branch? id = some found) (saturated : tableau.Saturated found)
    (advances : Advances tableau after) :
    id ∈ after.opened ∧ after.branch? id = some found ∧ after.Saturated found := by
  induction advances with
  | refl => exact ⟨worked, known, saturated⟩
  | tail earlier advance ih =>
    rcases ih with ⟨worked', known', saturated'⟩
    exact (conforming.advances earlier).saturated_advance worked' known' saturated' advance

/-- Once a tableau has halted, no further expansion changes the verdict. -/
theorem Halted.satisfiable_advances {later : Tableau} (halted : tableau.Halted)
    (conforming : Conforming formulas tableau) (advances : Advances tableau later) :
    later.satisfiable = tableau.satisfiable := by
  rcases halted with nothing | ⟨first, others, found, worked, known, saturated⟩
  · -- Without an open branch there is nothing to expand.
    cases advances.cases_head with
    | inl same => rw [same]
    | inr step =>
      rcases step with ⟨after, advance, _⟩
      cases advance with
      | expand worked known waiting proposed =>
        rw [nothing] at worked
        cases worked
  · have member : first ∈ tableau.opened := by
      rw [worked]
      exact List.mem_cons_self
    rcases conforming.saturated_advances member known saturated advances with ⟨member', _⟩
    rw [(satisfiable_iff conforming.regular).mpr (List.ne_nil_of_mem member),
      (satisfiable_iff (conforming.advances advances).regular).mpr (List.ne_nil_of_mem member')]

/-- Behind a saturated first branch only the others decide whether a tableau is complete. -/
theorem Halted.complete_iff (halted : tableau.Halted) (faultless : tableau.Faultless) :
    tableau.complete = .ok true ↔
      forall id, id ∈ tableau.opened.tail -> forall found, tableau.branch? id = some found ->
        tableau.Saturated found := by
  rw [faultless.complete_iff]
  rcases halted with nothing | ⟨first, others, found, worked, known, saturated⟩
  · rw [nothing]
    rfl
  · rw [worked, List.tail_cons]
    constructor
    · intro all id member
      exact all id (List.mem_cons_of_mem _ member)
    · intro behind id member other known'
      rcases List.mem_cons.mp member with rfl | later
      · rw [known] at known'
        rw [<- Option.some.inj known']
        exact saturated
      · exact behind id later other known'

/-- A run on propositional formulas that is not cut off by its bound ends without open branches
or with a first one that is saturated.  Then no further expansion changes the verdict, but the
tableau is complete only if the other open branches are saturated as well. -/
theorem complete_iff_rest_saturated (formulas : List Signed) (traced : Bool)
    (some_formula : formulas ≠ [])
    (shape : forall signed, signed ∈ formulas -> signed.formula.Propositional) :
    ∃ initial final, start .standard formulas traced = .ok initial ∧ initial.construct = .ok final ∧
      (initial.passes stepBound < stepBound -> final.Halted ∧ (final.complete = .ok true ↔
          forall id, id ∈ final.opened.tail -> forall found, final.branch? id = some found ->
            final.Saturated found) ∧
        forall later, Advances final later -> later.satisfiable = final.satisfiable) := by
  rcases exists_start_eq_ok traced some_formula shape with ⟨initial, begun⟩
  have conformingInitial := conforming_start shape begun
  have faultless : forall later, Advances initial later -> later.Faultless :=
    fun later advances => (conformingInitial.advances advances).faultless
  have advances := advances_run conformingInitial.regular stepBound
  have conforming := conformingInitial.advances advances
  refine ⟨initial, (initial.run stepBound).1, begun,
    construct_eq (run_faultless conformingInitial.regular faultless), ?_⟩
  intro early
  have halted := halted_of_step? conforming.regular
    (step?_of_passes_lt conformingInitial.regular faultless early)
  exact ⟨halted, halted.complete_iff conforming.faultless,
    fun later advances => halted.satisfiable_advances conforming advances⟩

end Runs

open scoped Memory

/-- A disjunction of atoms splits once, and no branch has anything left then. -/
theorem complete_disjunction_of_atoms : ∃ initial final,
      start .standard [⟨.t, .join .disj (.atom "p") (.atom "q")⟩] true = .ok initial ∧
      initial.construct = .ok final ∧ initial.passes stepBound = 1 ∧
      (forall id, id ∈ final.opened.tail -> forall found, final.branch? id = some found ->
        final.Saturated found) ∧
      forall later, Advances final later -> later.satisfiable = true := by
  rcases complete_iff_rest_saturated [⟨.t, .join .disj (.atom "p") (.atom "q")⟩] true (by decide)
    (by decide) with ⟨initial, final, begun, constructed, early⟩
  have finished : ofFormulas .standard [⟨.t, .join .disj (.atom "p") (.atom "q")⟩] true =
      .ok final := by
    rw [ofFormulas, begun]
    exact constructed
  have counted : (start .standard [⟨.t, .join .disj (.atom "p") (.atom "q")⟩] true).map
    (passes stepBound) = .ok 1 := rfl
  have completed : (do (<- ofFormulas .standard
    [⟨.t, .join .disj (.atom "p") (.atom "q")⟩] true).complete) = .ok true := rfl
  have verdict : (ofFormulas .standard [⟨.t, .join .disj (.atom "p") (.atom "q")⟩] true).map
    satisfiable = .ok true := rfl
  rw [begun] at counted
  rw [finished] at completed verdict
  have one := Except.ok.inj counted
  rcases early (by rw [one]; decide) with ⟨_, complete, unchanged⟩
  refine ⟨initial, final, begun, constructed, one, complete.mp completed, ?_⟩
  intro later advances
  rw [unchanged later advances]
  exact Except.ok.inj verdict

/-- Of a disjunction with a negated part only the first branch is saturated.  On the second one
the negation still waits for its rule when the run stops, and the model of that branch leaves p
undefined, which makes the disjunction undefined too. -/
theorem half_expanded_behind_first :
    (start .standard [⟨.t, .join .disj (.atom "p") (.neg (.atom "p"))⟩] false).map
        (passes stepBound) = .ok 2 ∧
      (do (<- ofFormulas .standard
        [⟨.t, .join .disj (.atom "p") (.neg (.atom "p"))⟩] false).complete) = .ok false ∧
      (ofFormulas .standard [⟨.t, .join .disj (.atom "p") (.neg (.atom "p"))⟩] false).map
        (fun tableau => tableau.models.map Model.valuations) =
          .ok [[("p", .t)], [("p", .e)], [("p", .e)]] :=
  ⟨rfl, rfl, rfl⟩

end Tableau
end WeakKleene
