import WeakKleene.Consequence
import WeakKleene.Proofs.Origins

namespace WeakKleene
namespace Tableau

/-!
# What every expansion keeps

Two kinds of facts survive expansions in any order and under either calculus.
The first concerns all formulas on all branches that are worked on, or on all
nodes there are: it is kept if a rule never leads out of it.  The second
concerns one branch.  A set of signed formulas that answers every rule for a
member by a conclusion, and whose answers conflict with no member, always has a
branch within it.
-/

variable {tableau after : Tableau} {logic : Logic} {formulas : List Signed}
variable {good set : Signed -> Prop}

/-! ## What an expansion can be -/

/-- Evidence on a formula leads to the formula itself or to its denial. -/
theorem mem_evidenceConclusion {formula : Formula} {evidence : Evidence} {part : Signed}
    (member : part ∈ Expansion.evidenceConclusion formula evidence) :
    part.formula = formula ∨ Expansion.denialOf? formula = some part.formula ∧
      (evidence.negative = .t ∨ evidence = ⟨.f, .f⟩) := by
  have alone {sign : Sign} (member : part ∈ [Signed.mk sign formula]) : part.formula = formula := by
    rw [List.mem_singleton.mp member]
  have withDenial {sign sign' : Sign} (member : part ∈ ⟨sign, formula⟩ ::
      ((Expansion.denialOf? formula).map (Signed.mk sign')).toList) :
      part.formula = formula ∨ Expansion.denialOf? formula = some part.formula := by
    rcases List.mem_cons.mp member with rfl | listed
    · exact .inl rfl
    · rcases Option.map_eq_some_iff.mp (Option.mem_toList.mp listed) with ⟨denial, found, rfl⟩
      exact .inr found
  unfold Expansion.evidenceConclusion at member
  split at member
  · exact .inl (alone member)
  · split at member
    · next denial found =>
      rw [List.mem_singleton.mp member]
      exact .inr ⟨found, .inl rfl⟩
    · exact .inl (alone member)
  · exact (withDenial member).imp_right fun found => ⟨found, .inl rfl⟩
  · exact (withDenial member).imp_right fun found => ⟨found, .inr rfl⟩
  · exact .inl (alone member)

theorem byEvaluation?_eq_some {formula : Formula}
    (found : Expansion.byEvaluation? evaluator formula = some expansion) :
    ∃ asked evidence, evaluator = some asked ∧ formula.isAtomic = true ∧
      (asked formula).evidence? = some evidence ∧
      expansion.conclusions = [Expansion.evidenceConclusion formula evidence] := by
  rcases Option.bind_eq_some_iff.mp found with ⟨asked, given, found⟩
  rcases Option.bind_eq_some_iff.mp found with ⟨_, guarded, found⟩
  rcases Option.bind_eq_some_iff.mp found with ⟨evidence, answered, equal⟩
  have atomic : formula.isAtomic = true := by
    by_contra compound
    rw [guard, if_neg compound] at guarded
    cases guarded
  cases equal
  exact ⟨asked, evidence, given, atomic, answered, rfl⟩

variable [Memory]

/-- An expansion in the standard calculus is by a rule, if there is any. -/
theorem expansion?_standard_cases (standard : tableau.logic = .standard) (node : Node)
    (found : Branch) :
    tableau.expansion? node found = .ok none ∨ ∃ situation, tableau.expansion? node found =
        (Standard.rule node.signed situation).map (Option.map Expansion.ofRule) := by
  unfold expansion?
  simp only [standard]
  split <;> split
  · exact .inl rfl
  · exact .inr ⟨_, rfl⟩
  · exact .inl rfl
  · exact .inr ⟨_, rfl⟩

variable {evaluator : Option Evaluator} {node : Node} {found : Branch} {expansion : Expansion}
variable {traced : Bool} {initial : Tableau}

/-- An expansion in the bilateral calculus is by a rule, or by evaluation where there is none. -/
theorem expansion?_bilateral_cases
    (sided : tableau.logic = .bilateral evaluator) (node : Node) (found : Branch) :
    tableau.expansion? node found =
        .ok (Expansion.byEvaluation? evaluator node.signed.formula) ∨ ∃ situation,
      tableau.expansion? node found = (Bilateral.rule node.signed situation).map fun choice =>
        (choice.map Expansion.ofRule).or
          (Expansion.byEvaluation? evaluator node.signed.formula) := by
  unfold expansion?
  simp only [sided]
  split <;> split
  · exact .inl rfl
  · generalize chosen : Bilateral.rule node.signed _ = choice
    refine .inr ⟨_, Eq.trans ?_ (congrArg (Except.map _) chosen.symm)⟩
    rcases choice with fault | (_ | rule) <;> rfl
  · exact .inl rfl
  · generalize chosen : Bilateral.rule node.signed _ = choice
    refine .inr ⟨_, Eq.trans ?_ (congrArg (Except.map _) chosen.symm)⟩
    rcases choice with fault | (_ | rule) <;> rfl

/-- What is proposed in the standard calculus, a rule proposes. -/
theorem standard_rule_of_proposed (standard : tableau.logic = .standard)
    (proposed : tableau.expansion? node found = .ok (some expansion)) :
    ∃ situation rule, Standard.rule node.signed situation = .ok (some rule) ∧
      expansion = .ofRule rule := by
  rcases expansion?_standard_cases standard node found with nothing | ⟨situation, ruled⟩
  · rw [nothing] at proposed
    cases proposed
  · rw [ruled] at proposed
    generalize chosen : Standard.rule node.signed situation = choice at proposed
    rcases choice with fault | (_ | rule)
    · cases proposed
    · cases proposed
    · cases proposed
      exact ⟨situation, rule, chosen, rfl⟩

/-- What is proposed in the bilateral calculus, a rule or the evaluator proposes. -/
theorem bilateral_rule_of_proposed (sided : tableau.logic = .bilateral evaluator)
    (proposed : tableau.expansion? node found = .ok (some expansion)) :
    (∃ situation rule, Bilateral.rule node.signed situation = .ok (some rule) ∧
      expansion = .ofRule rule) ∨
      Expansion.byEvaluation? evaluator node.signed.formula = some expansion := by
  rcases expansion?_bilateral_cases sided node found with evaluated | ⟨situation, ruled⟩
  · rw [evaluated] at proposed
    exact .inr (Except.ok.inj proposed)
  · rw [ruled] at proposed
    generalize chosen : Bilateral.rule node.signed situation = choice at proposed
    rcases choice with fault | (_ | rule)
    · cases proposed
    · exact .inr (Except.ok.inj proposed)
    · cases proposed
      exact .inl ⟨situation, rule, chosen, rfl⟩

/-! ## What an advance does -/

theorem Advance.expanded (advance : Advance tableau after) (regular : Regular tableau) :
    ∃ branch found node expansion, branch ∈ tableau.opened ∧
      tableau.branch? branch = some found ∧ node ∈ tableau.pending found ∧
      tableau.expansion? node found = .ok (some expansion) ∧
      Expanded tableau after branch (found.mark node.id expansion.constant)
        expansion.conclusions := by
  cases advance with
  | @expand branch found node expansion worked known waiting proposed =>
    have member := ((mem_pending_iff regular.nodeNumbers).mp waiting).2.1
    exact ⟨branch, found, node, expansion, worked, known, waiting, proposed,
      apply_expanded expansion regular known worked member⟩

theorem Advance.logic_eq (advance : Advance tableau after) (regular : Regular tableau) :
    after.logic = tableau.logic := by
  rcases advance.expanded regular with ⟨_, _, _, _, _, _, _, _, expanded⟩
  exact expanded.logic

/-- A branch that is worked on afterwards was worked on before, or prolongs the expanded one. -/
theorem Expanded.opened_cases {branch id : Nat} {marked new : Branch}
    {conclusions : List (List Signed)}
    (expanded : Expanded tableau after branch marked conclusions) (regular : Regular tableau)
    (worked : id ∈ after.opened) (known : after.branch? id = some new) :
    (id ∈ tableau.opened ∧ tableau.branch? id = some new ∧
      after.contents new = tableau.contents new) ∨
      ∃ conclusion, conclusion ∈ conclusions ∧ Prolonged tableau after marked new conclusion := by
  rcases expanded.division with ⟨fresh, opened, division⟩
  rcases List.mem_append.mp (opened.mem_iff.mp worked) with old | added
  · have member := List.mem_of_mem_erase old
    have different := ((List.Nodup.mem_erase_iff regular.openedDistinct).mp old).1
    rw [expanded.kept id member different] at known
    exact .inl ⟨member, known, expanded.grows.contents (regular.branches id new known).membersExist⟩
  · rcases division.prolonged added with ⟨conclusion, chosen, new', known', prolonged⟩
    rw [known] at known'
    rw [<- Option.some.inj known'] at prolonged
    exact .inr ⟨conclusion, chosen, prolonged⟩

/-! ## Facts about all branches -/

/-- Every formula on a branch that is worked on is good. -/
def Within (good : Signed -> Prop) (tableau : Tableau) : Prop :=
  forall id, id ∈ tableau.opened -> forall found, tableau.branch? id = some found ->
    forall signed, signed ∈ tableau.formulasOn found -> good signed

/-- No expansion of a good formula leads out of the good ones. -/
def Closed (logic : Logic) (good : Signed -> Prop) : Prop :=
  forall (tableau : Tableau) (node : Node) (found : Branch) (expansion : Expansion),
    tableau.logic = logic -> good node.signed ->
      tableau.expansion? node found = .ok (some expansion) ->
        forall conclusion, conclusion ∈ expansion.conclusions ->
          forall part, part ∈ conclusion -> good part

theorem good_of_pending {id : Nat} (within : Within good tableau)
    (regular : Regular tableau) (worked : id ∈ tableau.opened)
    (known : tableau.branch? id = some found) (waiting : node ∈ tableau.pending found) :
    good node.signed :=
  within id worked found known node.signed
    (mem_formulasOn_iff.mpr ⟨node.id, (mem_contents_of_pending regular waiting).1⟩)

theorem Within.advance (within : Within good tableau) (closed : Closed tableau.logic good)
    (regular : Regular tableau) (advance : Advance tableau after) : Within good after := by
  rcases advance.expanded regular with
    ⟨branch, found, node, expansion, worked, known, waiting, proposed, expanded⟩
  intro id worked' new known' signed member
  rcases expanded.opened_cases regular worked' known' with
    ⟨before, same, unchanged⟩ | ⟨conclusion, chosen, prolonged⟩
  · rw [formulasOn, unchanged] at member
    exact within id before new same signed member
  · rcases prolonged.mem_new member with old | part
    · rw [formulasOn_mark] at old
      exact within branch worked found known signed old
    · exact closed tableau node found expansion rfl
        (good_of_pending within regular worked known waiting) proposed conclusion chosen signed part

/-- At the start the branch that is worked on has the initial formulas, and no records. -/
theorem start_prolonged {id : Nat}
    (begun : start logic formulas traced = .ok initial) (worked : id ∈ initial.opened)
    (known : initial.branch? id = some found) :
    ∃ trace, Prolonged (blank logic trace) initial (Branch.empty 0) found formulas := by
  rcases start_extension begun with ⟨_, trace, closed, extension⟩
  cases closed with
  | true =>
    rw [(extension.closes rfl).1] at worked
    cases worked
  | false =>
    rcases extension.stays rfl with ⟨opened, new, known', prolonged⟩
    rw [opened] at worked
    rw [List.mem_singleton.mp worked, known'] at known
    rw [<- Option.some.inj known]
    exact ⟨trace, prolonged⟩

theorem within_start (begun : start logic formulas traced = .ok initial)
    (allGood : forall signed, signed ∈ formulas -> good signed) : Within good initial := by
  intro id worked found known signed member
  rcases start_prolonged begun worked known with ⟨trace, prolonged⟩
  rcases prolonged.mem_new member with impossible | listed
  · cases impossible
  · exact allGood signed listed

theorem Reachable.logic_eq (reachable : Reachable logic formulas tableau) :
    tableau.logic = logic := by
  refine reachable.of_advance (fun tableau => tableau.logic = logic) ?_ ?_
  · intro traced initial begun
    rcases start_extension begun with ⟨_, trace, shut, extension⟩
    exact extension.frame.logic
  · intro before after reached advance same
    exact (advance.logic_eq reached.regular).trans same

/-- What is reached from good formulas has good formulas only. -/
theorem Reachable.within (reachable : Reachable logic formulas tableau) (closed : Closed logic good)
    (allGood : forall signed, signed ∈ formulas -> good signed) :
    Within good tableau ∧ Regular tableau ∧ tableau.logic = logic := by
  refine ⟨?_, reachable.regular, reachable.logic_eq⟩
  refine reachable.of_advance (Within good) (fun _ _ begun => within_start begun allGood) ?_
  intro before after reached advance within
  rw [<- reached.logic_eq] at closed
  exact within.advance closed reached.regular advance

/-- A branch that is worked on behind an expansion, and the branch that it prolongs. -/
structure Succession (logic : Logic) (formulas : List Signed) (before after : Tableau)
    (old new : Branch) (node : Node) (expansion : Expansion) (conclusion : List Signed) :
    Prop where
  reachable : Reachable logic formulas before
  worked : ∃ id, id ∈ before.opened ∧ before.branch? id = some old
  waiting : node ∈ before.pending old
  proposed : before.expansion? node old = .ok (some expansion)
  chosen : conclusion ∈ expansion.conclusions
  grows : Grows before after
  regular : ∃ id, RegularBranch after id new
  prolonged : Prolonged before after (old.mark node.id expansion.constant) new conclusion

/-- What the first branch has and what is handed on to every branch that prolongs another one, all
branches have that are worked on. -/
theorem Reachable.of_branches (reachable : Reachable logic formulas tableau)
    (holds : Tableau -> Branch -> Prop)
    (first : forall traced initial, start logic formulas traced = .ok initial ->
      forall id, id ∈ initial.opened -> forall found, initial.branch? id = some found ->
        holds initial found)
    (kept : forall {before after found}, Grows before after ->
      after.contents found = before.contents found -> holds before found -> holds after found)
    (further : forall {before after old new node expansion conclusion},
      Succession logic formulas before after old new node expansion conclusion ->
        holds before old -> holds after new) :
    forall id, id ∈ tableau.opened -> forall found, tableau.branch? id = some found ->
      holds tableau found := by
  refine reachable.of_advance (fun tableau => forall id, id ∈ tableau.opened ->
    forall found, tableau.branch? id = some found -> holds tableau found) first ?_
  intro before after reached advance ih id worked' new known'
  have regular := reached.regular
  rcases advance.expanded regular with
    ⟨branch, old, node, expansion, worked, known, waiting, proposed, expanded⟩
  rcases expanded.opened_cases regular worked' known' with
    ⟨still, same, unchanged⟩ | ⟨conclusion, chosen, prolonged⟩
  · exact kept expanded.grows unchanged (ih id still new same)
  · have regular' := (regular.updates (advance.updates regular)).branches id new known'
    exact further ⟨reached, ⟨branch, worked, known⟩, waiting, proposed, chosen,
      expanded.grows, ⟨id, regular'⟩, prolonged⟩ (ih branch worked old known)

/-! ## Facts about all nodes -/

/-- Every node carries a good formula, also those that are on closed branches only. -/
def Bears (good : Signed -> Prop) (tableau : Tableau) : Prop :=
  forall id signed, tableau.signedAt? id = some signed -> good signed

omit [Memory] in
theorem Bears.sprouts (bears : Bears good tableau)
    (sprouts : Sprouts (fun birth => good birth.2.2) tableau after) : Bears good after := by
  intro id signed carried
  rcases Option.map_eq_some_iff.mp carried with ⟨node, known, rfl⟩
  have born : after.birthAt? id = some node.birth := congrArg (Option.map Node.birth) known
  by_cases old : id < tableau.nodes.size
  · rw [sprouts.old id old] at born
    rcases Option.map_eq_some_iff.mp born with ⟨before, known, equal⟩
    have same : before.signed = node.signed := congrArg (fun birth => birth.2.2) equal
    exact bears id node.signed (Option.map_eq_some_iff.mpr ⟨before, known, same⟩)
  · rcases sprouts.new id (Nat.le_of_not_lt old) (Array.getElem?_eq_some_iff.mp known).1 with
      ⟨birth, fit, found⟩
    rw [Option.some.inj (found.symm.trans born)] at fit
    exact fit

theorem Bears.advance (bears : Bears good tableau) (closed : Closed tableau.logic good)
    (regular : Regular tableau) (advance : Advance tableau after) : Bears good after := by
  cases advance with
  | @expand branch found node expansion _ _ waiting proposed =>
    have onBranch := mem_contents_iff.mp (mem_contents_of_pending regular waiting).1
    have expanded : Bears good (tableau.expand node.id branch expansion).1 :=
      bears.sprouts (.expand (closed tableau node found expansion rfl
        (bears _ _ onBranch.2) proposed) branch)
    rw [apply_eq]
    split
    · exact expanded
    · rcases record_eq tableau (tableau.expand node.id branch expansion).1 node.id expansion with
        ⟨trace, equal⟩
      rw [equal]
      exact expanded

/-- All nodes of what is reached from good formulas carry good formulas. -/
theorem Reachable.bears (reachable : Reachable logic formulas tableau) (closed : Closed logic good)
    (allGood : forall signed, signed ∈ formulas -> good signed) : Bears good tableau := by
  refine reachable.of_advance (Bears good) ?_ ?_
  · intro traced initial begun
    rw [start_eq (start_extension begun).1] at begun
    have blank : Bears good (blank logic (if traced then some (Trace.start formulas) else none)) :=
      nofun
    exact blank.sprouts (.plant (fun signed member _ => allGood signed member) begun)
  · intro before after reached advance bears
    rw [<- reached.logic_eq] at closed
    exact bears.advance closed reached.regular advance

/-! ## A branch within a set -/

def Follows (set : Signed -> Prop) (tableau : Tableau) : Prop :=
  ∃ id, id ∈ tableau.opened ∧ ∃ found, tableau.branch? id = some found ∧
    forall signed, signed ∈ tableau.formulasOn found -> set signed

/-- A set that answers each expansion of a member by a conclusion without conflicts. -/
def Guides (logic : Logic) (set : Signed -> Prop) : Prop :=
  forall (tableau : Tableau) (node : Node) (found : Branch) (expansion : Expansion),
    tableau.logic = logic -> set node.signed -> node.id ∉ found.processed ->
      tableau.expansion? node found = .ok (some expansion) ->
        ∃ conclusion, conclusion ∈ expansion.conclusions ∧ forall part, part ∈ conclusion ->
          set part ∧ forall other, set other -> ¬ Conflict logic part other

theorem Follows.guided (follows : Follows set tableau) (guides : Guides tableau.logic set)
    (regular : Regular tableau) (advance : Advance tableau after) : Follows set after := by
  rcases advance.expanded regular with
    ⟨branch, found, node, expansion, worked, known, waiting, proposed, expanded⟩
  rcases follows with ⟨id, worked', found', known', within⟩
  rcases expanded.division with ⟨fresh, opened, division⟩
  by_cases same : id = branch
  · -- The branch in the set is expanded: the set has an answer, which is not blocked.
    subst same
    rw [known] at known'
    rw [<- Option.some.inj known'] at within
    have onBranch := mem_contents_of_pending regular waiting
    have marked := @formulasOn_mark tableau found node.id expansion.constant
    rcases guides tableau node found expansion rfl
      (within node.signed (mem_formulasOn_iff.mpr ⟨node.id, onBranch.1⟩)) onBranch.2 proposed with
        ⟨conclusion, chosen, answered⟩
    rcases division.exhaustive chosen with
      ⟨added, listed, new, knownNew, prolonged⟩ | ⟨part, member, other, place, conflict⟩
    · refine ⟨added, opened.mem_iff.mpr (List.mem_append_right _ listed), new, knownNew, ?_⟩
      intro signed member
      rcases prolonged.mem_new member with old | part
      · rw [marked] at old
        exact within signed old
      · exact (answered signed part).1
    · rw [marked] at place
      have inSet : set other := place.elim (within other) fun listed => (answered other listed).1
      exact absurd conflict ((answered part member).2 other inSet)
  · refine ⟨id, ?_, found', (expanded.kept id worked' same).trans known', ?_⟩
    · exact opened.mem_iff.mpr (List.mem_append_left _ ((List.mem_erase_of_ne same).mpr worked'))
    · rw [expanded.grows.formulasOn (regular.branches id found' known').membersExist]
      exact within

/-- A set that contains the initial formulas follows the start, if these do not conflict with
each other. -/
theorem follows_start (contained : forall signed, signed ∈ formulas -> set signed)
    (compatible : forall signed other, signed ∈ formulas -> other ∈ formulas ->
      ¬ Conflict logic signed other)
    (begun : start logic formulas traced = .ok initial) : Follows set initial := by
  rcases start_extension begun with ⟨_, trace, closed, extension⟩
  cases closed with
  | true =>
    rcases (extension.closes rfl).2 with ⟨signed, member, other, place, conflict⟩
    rcases place with impossible | listed
    · cases impossible
    · exact absurd conflict (compatible signed other member listed)
  | false =>
    rcases extension.stays rfl with ⟨opened, new, known, prolonged⟩
    refine ⟨0, by rw [opened]; exact List.mem_cons_self, new, known, ?_⟩
    intro signed member
    rcases prolonged.mem_new member with impossible | listed
    · cases impossible
    · exact contained signed listed

/-- A guiding set that contains the initial formulas has a branch in everything reached. -/
theorem Reachable.follows (reachable : Reachable logic formulas tableau)
    (guides : Guides logic set) (contained : forall signed, signed ∈ formulas -> set signed)
    (compatible : forall signed other, signed ∈ formulas -> other ∈ formulas ->
      ¬ Conflict logic signed other) : Follows set tableau := by
  refine reachable.of_advance (Follows set)
    (fun _ _ begun => follows_start contained compatible begun) ?_
  intro before after reached advance follows
  rw [<- reached.logic_eq] at guides
  exact follows.guided guides reached.regular advance

omit [Memory] in
theorem satisfiable_iff (regular : Regular tableau) :
    tableau.satisfiable = true ↔ tableau.opened ≠ [] := by
  rw [satisfiable, Bool.not_eq_true', List.isEmpty_eq_false_iff, models, ne_eq, List.map_eq_nil_iff]
  refine not_congr ⟨?_, ?_⟩
  · intro nothing
    apply List.eq_nil_iff_forall_not_mem.mpr
    intro id member
    rcases regular.openedFound id member with ⟨found, known, _⟩
    have listed := List.mem_filterMap.mpr ⟨id, member, known⟩
    rw [nothing] at listed
    exact List.not_mem_nil listed
  · intro nothing
    rw [nothing, List.filterMap_nil]

/-- So the verdict on formulas from a guiding set is that they are satisfiable. -/
theorem Reachable.satisfiable_of_guides (reachable : Reachable logic formulas tableau)
    (guides : Guides logic set) (contained : forall signed, signed ∈ formulas -> set signed)
    (compatible : forall signed other, signed ∈ formulas -> other ∈ formulas ->
      ¬ Conflict logic signed other) : tableau.satisfiable = true := by
  rcases reachable.follows guides contained compatible with ⟨id, worked, _⟩
  rw [satisfiable_iff reachable.regular]
  exact List.ne_nil_of_mem worked

/-! ## Construction -/

theorem reachable_of_ofFormulas (finished : ofFormulas logic formulas traced = .ok tableau) :
    Reachable logic formulas tableau := by
  rcases exists_of_bind_eq_ok finished with ⟨initial, begun, constructed⟩
  rcases start_extension begun with ⟨_, trace, closed, extension⟩
  have regular := (blank_regular logic trace).updates extension.updates
  have advances := advances_run regular stepBound
  rw [construct] at constructed
  split at constructed
  · next final ran =>
    rw [ran] at advances
    cases constructed
    exact ⟨traced, initial, begun, advances⟩
  · cases constructed

/-- A tableau that starts and never meets a fault can be constructed. -/
theorem exists_ofFormulas_of_faultless (begun : start logic formulas traced = .ok initial)
    (faultless : forall later, Reachable logic formulas later -> later.Faultless) :
    ∃ tableau, ofFormulas logic formulas traced = .ok tableau ∧
      Reachable logic formulas tableau := by
  rcases start_extension begun with ⟨_, trace, closed, extension⟩
  have regular := (blank_regular logic trace).updates extension.updates
  have reachable (later : Tableau) (advances : Advances initial later) :
      Reachable logic formulas later := ⟨traced, initial, begun, advances⟩
  have finished : (initial.run stepBound).2 = none := run_faultless regular
    fun later advances => faultless later (reachable later advances)
  refine ⟨(initial.run stepBound).1, ?_, reachable _ (advances_run regular stepBound)⟩
  rw [ofFormulas, begun]
  exact construct_eq finished

end Tableau
end WeakKleene
