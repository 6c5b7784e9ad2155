import Mathlib.Data.List.Pairwise
import WeakKleene.Proofs.Closure
import WeakKleene.Proofs.Guidance
import WeakKleene.Proofs.Valuation

namespace WeakKleene

/-!
# Coherent sets and the branches of a propositional tableau

A coherent set of signed formulas answers every rule by one of its conclusions
and gives no formula two definite signs.  Such sets and the branches of a
tableau determine each other.  A branch that stays open and has nothing left to
expand is coherent.  In the other direction a coherent set that contains the
initial formulas shows the way to a branch that never closes: of each rule it
contains a conclusion, and what it contains cannot conflict.

Both directions need that formulas with the same written form are the same, as
propositional formulas are.
-/

/-- A set of signed formulas that contains, for each member with a rule, a conclusion of that
rule, and no formula under two definite signs. -/
structure Standard.Coherent (set : Signed -> Prop) : Prop where
  analysed : forall signed, set signed -> forall situation rule,
    Standard.rule signed situation = .ok (some rule) ->
      ∃ conclusion, conclusion ∈ rule.conclusions ∧ forall part, part ∈ conclusion -> set part
  consistent : forall formula sign other, set ⟨sign, formula⟩ -> set ⟨other, formula⟩ ->
    sign.definite = true -> other.definite = true -> sign = other

variable {set : Signed -> Prop} {conclusions : List (List Signed)}

theorem Standard.Coherent.cases (coherent : Standard.Coherent set) {signed : Signed}
    (member : set signed) (shape : signed.formula.Propositional)
    (found : cases? signed = some conclusions) :
    ∃ conclusion, conclusion ∈ conclusions ∧ forall part, part ∈ conclusion -> set part := by
  have ruled := rule_eq_cases shape ⟨[], none, ""⟩
  rw [found, Option.map_some] at ruled
  exact coherent.analysed signed member _ _ ruled

theorem Formula.misshapen?_of_propositional {formula : Formula} (shape : formula.Propositional) :
    formula.misshapen? = none :=
  shape.misshapen?_eq_none fun _ plain => plain.distinct.atomic

namespace Tableau

variable {tableau : Tableau} {formulas : List Signed}

/-! ## Expansions without quantifiers -/

variable {found : Branch} {signed : Signed} {after : Tableau}

/-- A pending propositional node is expanded by the conclusions of its sign and form. -/
theorem expansion?_eq [Memory] {node : Node} (standard : tableau.logic = .standard)
    (shape : node.signed.formula.Propositional) (unprocessed : node.id ∉ found.processed) :
    tableau.expansion? node found =
      .ok ((Standard.cases? node.signed).map fun conclusions => Expansion.ofRule
        (Rule.named node.signed (Standard.kindOf node.signed.formula) conclusions none)) := by
  have waiting : found.processed.contains node.id = false := by
    rw [List.contains_eq_mem, decide_eq_false_iff_not]
    exact unprocessed
  unfold expansion?
  simp only [standard, waiting, Bool.false_and, Bool.false_eq_true, if_false,
    Standard.rule_eq_cases shape]
  cases Standard.cases? node.signed <;> rfl

/-! ## What holds of the branches that are worked on -/

/-- A branch as a propositional tableau keeps it while it is open: it carries the initial
formulas, and of the rule of every processed node it has a conclusion. -/
structure Lawful (formulas : List Signed) (tableau : Tableau) (found : Branch) : Prop where
  propositional : forall signed, signed ∈ tableau.formulasOn found -> signed.formula.Propositional
  carries : forall signed, signed ∈ formulas -> signed ∈ tableau.formulasOn found
  justified : forall id signed conclusions, (id, signed) ∈ tableau.contents found ->
    id ∈ found.processed -> Standard.cases? signed = some conclusions ->
      ∃ conclusion, conclusion ∈ conclusions ∧
        forall part, part ∈ conclusion -> part ∈ tableau.formulasOn found

/-- A branch holds only what stands on it, since written forms are unique. -/
theorem mem_of_holds {id : Nat} (regular : RegularBranch tableau id found)
    (propositional : forall other, other ∈ tableau.formulasOn found -> other.formula.Propositional)
    (shape : signed.formula.Propositional) (held : found.holds signed = true) :
    signed ∈ tableau.formulasOn found := by
  rcases (regular.holds_iff signed).mp held with ⟨⟨sign, formula⟩, member, sameText, sameSign⟩
  have same : formula = signed.formula :=
    Formula.text_injective (propositional _ member) shape sameText
  subst same
  subst sameSign
  exact member

/-- Lawfulness concerns contents and processed nodes only. -/
theorem Lawful.congr (lawful : Lawful formulas tableau found)
    (same : after.contents found = tableau.contents found) : Lawful formulas after found := by
  have sameFormulas : after.formulasOn found = tableau.formulasOn found := congrArg _ same
  constructor
  · rw [sameFormulas]
    exact lawful.propositional
  · rw [sameFormulas]
    exact lawful.carries
  · rw [same, sameFormulas]
    exact lawful.justified

theorem Lawful.prolonged {id node : Nat} {new : Branch} {conclusion : List Signed}
    (lawful : Lawful formulas tableau found) (regular : RegularBranch tableau id found) {id' : Nat}
    (regular' : RegularBranch after id' new) (present : (node, signed) ∈ tableau.contents found)
    (cases : Standard.cases? signed = some conclusions) (chosen : conclusion ∈ conclusions)
    (prolonged : Prolonged tableau after (found.mark node none) new conclusion) :
    Lawful formulas after new := by
  have marked := @formulasOn_mark tableau found node none
  have shapeOfParts : forall part, part ∈ conclusion -> part.formula.Propositional := by
    intro part member
    exact Standard.components_propositional
      (lawful.propositional signed (mem_formulasOn_iff.mpr ⟨node, present⟩))
      ((Standard.cases?_analysis cases).parts conclusion chosen part member)
  have propositional : forall other, other ∈ after.formulasOn new ->
      other.formula.Propositional := by
    intro other member
    rcases prolonged.mem_new member with old | part
    · rw [marked] at old
      exact lawful.propositional other old
    · exact shapeOfParts other part
  have stays : forall other, other ∈ tableau.formulasOn found -> other ∈ after.formulasOn new := by
    intro other member
    rw [<- marked] at member
    exact prolonged.mem_old member
  refine ⟨propositional, fun other member => stays other (lawful.carries other member), ?_⟩
  intro entry other conclusions' listed processed cases'
  rw [prolonged.processed] at processed
  have either := Sorted.mem_insert_iff.mp processed
  have member : entry ∈ found.members :=
    either.elim (fun first => first ▸ (mem_contents_iff.mp present).1)
      (regular.processedMembers entry)
  -- Added nodes are too recent to be processed.
  have old := prolonged.mem_old_contents (regular.membersExist entry member) listed
  rw [contents_mark] at old
  rcases either with first | earlier
  · -- The node that was expanded is answered by the conclusion, all of which is held.
    rw [first] at old
    have same : other = signed := Option.some.inj
      ((mem_contents_iff.mp old).2.symm.trans (mem_contents_iff.mp present).2)
    rw [same, cases] at cases'
    rw [<- Option.some.inj cases']
    exact ⟨conclusion, chosen, fun part member => mem_of_holds regular' propositional
      (shapeOfParts part member) (prolonged.holds part member)⟩
  · rcases lawful.justified entry other conclusions' old earlier cases' with
      ⟨answer, listed', there⟩
    exact ⟨answer, listed', fun part member => stays part (there part member)⟩

/-! ## The invariant of all expansions -/

/-- Two signed formulas do not give one written formula two definite signs. -/
def Unanimous (signed other : Signed) : Prop :=
  signed.formula.text = other.formula.text -> signed.sign.definite = true ->
    other.sign.definite = true -> signed.sign = other.sign

instance : Std.Symm Unanimous where
  symm := fun _ _ same text definite definite' => (same text.symm definite' definite).symm

/-- On a branch that is not closed a written formula has at most one definite sign, in whichever
order its signs came. -/
theorem Explained.unanimous (explained : Explained tableau found)
    (unclosed : found.closure = none) {other : Signed}
    (member : signed ∈ tableau.formulasOn found) (member' : other ∈ tableau.formulasOn found) :
    Unanimous signed other := by
  have unanimous : (tableau.formulasOn found).Pairwise Unanimous := by
    apply (explained.unclosed unclosed).imp
    intro earlier later clear same definite _
    by_contra different
    exact clear ⟨same, definite, different⟩
  exact List.Pairwise.forall_of_forall (fun _ _ _ _ _ => rfl) unanimous member member'

variable [Memory]

structure Conforming (formulas : List Signed) (tableau : Tableau) : Prop where
  shape : forall signed, signed ∈ formulas -> signed.formula.Propositional
  reachable : Reachable .standard formulas tableau

theorem cases?_of_proposed {node : Node} {expansion : Expansion}
    (standard : tableau.logic = .standard) (shape : node.signed.formula.Propositional)
    (unprocessed : node.id ∉ found.processed)
    (proposed : tableau.expansion? node found = .ok (some expansion)) :
    Standard.cases? node.signed = some expansion.conclusions ∧ expansion.constant = none := by
  rw [expansion?_eq standard shape unprocessed] at proposed
  rcases Option.map_eq_some_iff.mp (Except.ok.inj proposed) with ⟨conclusions, cases, rfl⟩
  exact ⟨cases, rfl⟩

theorem lawful_start {traced : Bool} {initial : Tableau} {id : Nat}
    (shape : forall signed, signed ∈ formulas -> signed.formula.Propositional)
    (begun : start .standard formulas traced = .ok initial) (worked : id ∈ initial.opened)
    (known : initial.branch? id = some found) : Lawful formulas initial found := by
  rcases start_prolonged begun worked known with ⟨trace, prolonged⟩
  have reachable : Reachable .standard formulas initial := ⟨traced, initial, begun, .refl⟩
  have propositional : forall signed, signed ∈ initial.formulasOn found ->
      signed.formula.Propositional := by
    intro signed member
    rcases prolonged.mem_new member with impossible | listed
    · cases impossible
    · exact shape signed listed
  refine ⟨propositional, ?_, ?_⟩
  · intro signed member
    exact mem_of_holds (reachable.regular.branches id found known) propositional
      (shape signed member) (prolonged.holds signed member)
  · intro entry signed conclusions _ processed _
    rw [prolonged.processed] at processed
    cases processed

section

variable (conforming : Conforming formulas tableau)
include conforming

theorem Conforming.regular : Regular tableau := conforming.reachable.regular

theorem Conforming.standard : tableau.logic = .standard := conforming.reachable.logic_eq

theorem Conforming.lawful : forall id found, id ∈ tableau.opened ->
    tableau.branch? id = some found -> Lawful formulas tableau found := by
  intro id found worked known
  refine conforming.reachable.of_branches (Lawful formulas)
    (fun traced initial begun id worked found known =>
      lawful_start conforming.shape begun worked known)
    (fun _ same lawful => lawful.congr same) ?_ id worked found known
  intro before after old new node expansion conclusion succession lawful
  have regular := succession.reachable.regular
  rcases succession.worked with ⟨branch, _, known⟩
  rcases succession.regular with ⟨_, regular'⟩
  rcases mem_contents_of_pending regular succession.waiting with ⟨present, unprocessed⟩
  rcases cases?_of_proposed succession.reachable.logic_eq
    (lawful.propositional _ (mem_formulasOn_iff.mpr ⟨node.id, present⟩)) unprocessed
    succession.proposed with ⟨cases, constant⟩
  have prolonged := succession.prolonged
  rw [constant] at prolonged
  exact lawful.prolonged (regular.branches branch old known) regular' present cases
    succession.chosen prolonged

theorem Conforming.advances (advances : Advances tableau after) : Conforming formulas after := by
  rcases conforming with ⟨shape, traced, initial, begun, before⟩
  exact ⟨shape, traced, initial, begun, before.trans advances⟩

theorem Conforming.division (advance : Advance tableau after) :
    ∃ branch found node signed conclusions, branch ∈ tableau.opened ∧
      tableau.branch? branch = some found ∧ (node, signed) ∈ tableau.contents found ∧
      node ∉ found.processed ∧ Standard.cases? signed = some conclusions ∧
      Expanded tableau after branch (found.mark node none) conclusions := by
  cases advance with
  | @expand branch found node expansion worked known waiting proposed =>
    rcases mem_contents_of_pending conforming.regular waiting with ⟨present, unprocessed⟩
    have shape := (conforming.lawful branch found worked known).propositional node.signed
      (mem_formulasOn_iff.mpr ⟨node.id, present⟩)
    rcases cases?_of_proposed conforming.standard shape unprocessed proposed with
      ⟨cases, constant⟩
    have expanded := apply_expanded expansion conforming.regular known worked
      (mem_contents_iff.mp present).1
    rw [constant] at expanded
    exact ⟨branch, found, node.id, node.signed, _, worked, known, present, unprocessed, cases,
      expanded⟩

end

theorem conforming_start {traced : Bool} {initial : Tableau}
    (shape : forall signed, signed ∈ formulas -> signed.formula.Propositional)
    (begun : start .standard formulas traced = .ok initial) : Conforming formulas initial :=
  ⟨shape, traced, initial, begun, .refl⟩

theorem Conforming.faultless (conforming : Conforming formulas tableau) : tableau.Faultless := by
  intro id found worked known node waiting
  rcases mem_contents_of_pending conforming.regular waiting with ⟨present, unprocessed⟩
  have shape := (conforming.lawful id found worked known).propositional node.signed
    (mem_formulasOn_iff.mpr ⟨node.id, present⟩)
  exact ⟨_, expansion?_eq conforming.standard shape unprocessed⟩

/-! ## From a saturated branch to a coherent set -/

theorem Conforming.coherent {id : Nat} (conforming : Conforming formulas tableau)
    (worked : id ∈ tableau.opened) (known : tableau.branch? id = some found)
    (saturated : tableau.Saturated found) :
    Standard.Coherent fun signed => signed ∈ tableau.formulasOn found where
  analysed := by
    intro signed member situation rule ruled
    have lawful := conforming.lawful id found worked known
    have shape := lawful.propositional signed member
    rcases mem_formulasOn_iff.mp member with ⟨entry, present⟩
    rw [Standard.rule_eq_cases shape] at ruled
    rcases Option.map_eq_some_iff.mp (Except.ok.inj ruled) with ⟨conclusions, cases, equal⟩
    rw [<- equal]
    -- An entry that is not processed would be pending, with an expansion.
    by_cases processed : entry ∈ found.processed
    · exact lawful.justified entry signed conclusions present processed cases
    · rcases exists_pending_of_mem_contents conforming.regular present processed with
        ⟨node, waiting, number, carried⟩
      have proposed := saturated node waiting
      rw [<- number] at processed
      rw [<- carried] at shape
      rw [expansion?_eq conforming.standard shape processed, carried, cases] at proposed
      cases proposed
  consistent := by
    intro formula sign other member member' definite definite'
    exact (conforming.reachable.explained known).unanimous
      (conforming.regular.unclosed worked known) member member' rfl definite definite'

/-! ## From a coherent set to an open branch -/

end Tableau

namespace Standard

theorem Coherent.not_conflict (coherent : Coherent set) {signed other : Signed}
    (member : set signed) (member' : set other) (shape : signed.formula.Propositional)
    (shape' : other.formula.Propositional)
    (definite : signed.sign.definite = true) : ¬ Tableau.Conflict .standard signed other := by
  rcases signed with ⟨sign, formula⟩
  rcases other with ⟨sign', formula'⟩
  rintro ⟨sameText, definite', different⟩
  have same : formula' = formula := Formula.text_injective shape' shape sameText
  rw [same] at member'
  exact different (coherent.consistent formula sign' sign member' member definite' definite)

/-- Of a rule for a propositional member a coherent set contains a conclusion, and what it
contains cannot conflict. -/
theorem Coherent.guides [Memory] (coherent : Coherent set) :
    Tableau.Guides .standard fun signed => set signed ∧ signed.formula.Propositional := by
  rintro tableau node found expansion standard ⟨member, shape⟩ unprocessed proposed
  have cases := (Tableau.cases?_of_proposed standard shape unprocessed proposed).1
  rcases coherent.cases member shape cases with ⟨conclusion, chosen, all⟩
  have analysis := cases?_analysis cases
  have shapeOf : forall part, part ∈ conclusion -> part.formula.Propositional :=
    fun part listed => components_propositional shape (analysis.parts conclusion chosen part listed)
  refine ⟨conclusion, chosen, fun part listed => ⟨⟨all part listed, shapeOf part listed⟩, ?_⟩⟩
  rintro other ⟨member', shape'⟩
  exact coherent.not_conflict (all part listed) member' (shapeOf part listed) shape'
    (analysis.definite conclusion chosen part listed)

end Standard
end WeakKleene
