import WeakKleene.Proofs.Affirmation
import WeakKleene.Proofs.FreshConstants

namespace WeakKleene

/-!
# Formulas that may be undefined

In weak Kleene logic a compound is undefined as soon as one of its parts is, so
every formula can be undefined and none is valid.  The standard calculus agrees
on all formulas, also on irregular compounds and on quantifiers without rules.
Every rule for a formula under e has a conclusion under e alone, and formulas
under e never close a branch.  From e and any formula a branch of formulas under
e is therefore open at all times, whatever the order of expansions and however
early a run is given up.

Only faults keep the test of validity from its answer.
-/

/-! ## A branch of undefined formulas -/

namespace Tableau

variable {tableau : Tableau} {formulas : List Signed}

theorem guides_undefined [Memory] : Guides .standard fun signed => signed.sign = .e := by
  intro tableau node found expansion standard same unprocessed proposed
  rcases exists_rule_of_expansion? standard unprocessed proposed with ⟨rule, ruled, rfl⟩
  rcases node with ⟨id, ⟨sign, formula⟩, parent, children, reason, depth, branches, clash⟩
  cases same
  rcases (Standard.rule_chosen ruled).exists_kept (.inl rfl) with ⟨conclusion, chosen, passed⟩
  refine ⟨conclusion, chosen, fun part listed => ⟨passed part listed, fun other same' => ?_⟩⟩
  rintro ⟨_, _, different⟩
  exact different (same'.trans (passed part listed).symm)

theorem Reachable.follows_undefined [Memory] (reachable : Reachable .standard formulas tableau)
    (same : forall signed, signed ∈ formulas -> signed.sign = .e) :
    Follows (fun signed => signed.sign = .e) tableau := by
  refine reachable.follows guides_undefined same ?_
  rintro signed other member member' ⟨_, _, different⟩
  exact different ((same other member').trans (same signed member).symm)

end Tableau

/-! ## Validity -/

theorem satisfiable_of_solve_undefined [Memory] {formula : Formula} {traced : Bool}
    {tableau : Tableau}
    (solved : solve formula .e traced = .ok tableau) : tableau.satisfiable = true := by
  have reachable := Tableau.reachable_of_ofFormulas solved
  rcases reachable.follows_undefined (List.forall_mem_singleton.mpr rfl) with ⟨id, worked, _⟩
  rw [Tableau.satisfiable_iff reachable.regular]
  exact List.ne_nil_of_mem worked

theorem valid_eq_false_or_fault [Memory] (formula : Formula) :
    valid formula = .ok false ∨ ∃ fault, valid formula = .error fault ∧
      (solve formula .f false = .error fault ∨ solve formula .e false = .error fault) := by
  unfold valid
  cases falsified : solve formula .f false with
  | error fault => exact .inr ⟨fault, rfl, .inl rfl⟩
  | ok falsum =>
    simp only [bind, Except.bind]
    split
    · exact .inl rfl
    · cases undefinable : solve formula .e false with
      | error fault => exact .inr ⟨fault, rfl, .inr rfl⟩
      | ok tableau =>
        have satisfied := satisfiable_of_solve_undefined undefinable
        exact .inl (congrArg (fun answer => Except.ok !answer) satisfied)

/-- No formula is valid.  While it is tested whether the formula can be undefined, a branch is
open at all times that carries the formula and has no sign but e.  So the finished tableau is
satisfiable, and the answer on validity is negative unless one of the two tableaux that are asked
for has a fault. -/
theorem no_formula_valid [Memory] (formula : Formula) :
    (forall tableau, Tableau.Reachable .standard [⟨.e, formula⟩] tableau ->
      ∃ id, id ∈ tableau.opened ∧ ∃ found, tableau.branch? id = some found ∧
        found.isClosed = false ∧ ⟨.e, formula⟩ ∈ tableau.formulasOn found ∧
        forall node, node ∈ tableau.nodesOn found -> node.signed.sign = .e) ∧
    (forall traced tableau, solve formula .e traced = .ok tableau -> tableau.satisfiable = true) ∧
    (valid formula = .ok false ∨ ∃ fault, valid formula = .error fault ∧
      (solve formula .f false = .error fault ∨ solve formula .e false = .error fault)) := by
  refine ⟨?_, fun traced tableau => satisfiable_of_solve_undefined, valid_eq_false_or_fault formula⟩
  intro tableau reachable
  rcases reachable.follows_undefined (List.forall_mem_singleton.mpr rfl) with
    ⟨id, worked, found, known, undefined⟩
  have unclosed := reachable.regular.unclosed worked known
  refine ⟨id, worked, found, known, Tableau.isClosed_eq_false_iff.mpr unclosed,
    reachable.carries id worked found known _ List.mem_cons_self, ?_⟩
  intro node member
  exact undefined node.signed (Tableau.signed_mem_formulasOn member)

open scoped Memory

/-- Not even that all individuals of a kind are of that kind is valid. -/
theorem all_of_a_kind_not_valid :
    (∃ tableau, solve (.quant .all "X" (.pred "P" [.var "X"]) (.pred "P" [.var "X"])) .e true =
      .ok tableau ∧ tableau.satisfiable = true) ∧
    valid (.quant .all "X" (.pred "P" [.var "X"]) (.pred "P" [.var "X"])) = .ok false := by
  rcases no_formula_valid (.quant .all "X" (.pred "P" [.var "X"]) (.pred "P" [.var "X"])) with
    ⟨_, satisfiable, answer⟩
  refine ⟨⟨_, rfl, satisfiable true _ rfl⟩, answer.resolve_right ?_⟩
  rintro ⟨fault, failed, _⟩
  cases failed

end WeakKleene
