import WeakKleene.Proofs.Contents

namespace WeakKleene

/-!
# Elementary updates of a tableau

Planting the initial formulas, prolonging a branch and splitting one all come
down to six elementary updates.  Each constructor of `Update` carries the
checks that were made before it: a node is added to a branch that is not
closed, a formula that a rule concludes is added only where it is missing, and
a branch is taken up for work only if it is new and not closed.

The order of updates in one application is not recorded here.  It matters for
what a branch contains afterwards, not for the invariants of single states.
-/

namespace Branch

variable (branch : Branch) (node : Nat) (constant : Option String)

theorem mark_eq : ∃ processed instantiated, branch.mark node constant =
      { branch with processed := processed, instantiated := instantiated } ∧
    forall other, other ∈ processed -> other = node ∨ other ∈ branch.processed := by
  have done : forall other, other ∈ Sorted.insert node branch.processed ->
      other = node ∨ other ∈ branch.processed :=
    fun other member => Sorted.mem_insert_iff.mp member
  cases constant with
  | none => exact ⟨_, branch.instantiated, rfl, done⟩
  | some name =>
    simp only [mark]
    split
    · exact ⟨_, branch.instantiated, rfl, done⟩
    · exact ⟨branch.processed, _, rfl, fun other member => Or.inr member⟩

theorem mark_id : (branch.mark node constant).id = branch.id := by
  rcases mark_eq branch node constant with ⟨processed, instantiated, equal, _⟩
  rw [equal]

theorem mark_members : (branch.mark node constant).members = branch.members := by
  rcases mark_eq branch node constant with ⟨processed, instantiated, equal, _⟩
  rw [equal]

theorem mark_index : (branch.mark node constant).index = branch.index := by
  rcases mark_eq branch node constant with ⟨processed, instantiated, equal, _⟩
  rw [equal]

theorem mark_closure : (branch.mark node constant).closure = branch.closure := by
  rcases mark_eq branch node constant with ⟨processed, instantiated, equal, _⟩
  rw [equal]

end Branch

namespace Tableau

variable {tableau : Tableau}

theorem contents_mark (branch : Branch) (node : Nat) (constant : Option String) :
    tableau.contents (branch.mark node constant) = tableau.contents branch := by
  unfold contents
  rw [Branch.mark_members]

theorem formulasOn_mark (branch : Branch) (node : Nat) (constant : Option String) :
    tableau.formulasOn (branch.mark node constant) = tableau.formulasOn branch := by
  rw [formulasOn, contents_mark, formulasOn]

theorem RegularBranch.marked {id node : Nat} {branch : Branch}
    (regular : RegularBranch tableau id branch) (member : node ∈ branch.members)
    (constant : Option String) : RegularBranch tableau id (branch.mark node constant) where
  number := (Branch.mark_id branch node constant).trans regular.number
  membersExist := by
    rw [Branch.mark_members]
    exact regular.membersExist
  processedMembers := by
    rcases Branch.mark_eq branch node constant with ⟨processed, instantiated, equal, done⟩
    rw [equal]
    intro other listed
    rcases done other listed with same | old
    · rw [same]
      exact member
    · exact regular.processedMembers other old
  indexed := by rw [Branch.mark_index, contents_mark, regular.indexed]

/-! ## Adding a formula to a branch -/

variable [Memory]

/-- Grow the tree by a formula and put it on a branch, or close the branch. -/
def add (tableau : Tableau) (parent : Option Nat) (rule : Option String) (branch : Nat)
    (signed : Signed) : Tableau × Bool :=
  (tableau.grow parent rule signed).1.settle tableau.nodes.size branch

/-- What adding a formula to a branch does in any case: one more node carries it, and other
branches stay as they are. -/
structure Added (before after : Tableau) (branch : Nat) (signed : Signed) : Prop where
  size : after.nodes.size = before.nodes.size + 1
  grows : Grows before after
  new : after.signedAt? before.nodes.size = some signed
  numbers : (forall id node, before.node? id = some node -> node.id = id) ->
    forall id node, after.node? id = some node -> node.id = id
  others : forall other, other ≠ branch -> after.branch? other = before.branch? other
  branchCount : after.branches.size = before.branches.size
  logic : after.logic = before.logic

section Add

variable {parent : Option Nat} {rule : Option String} {branch : Nat} {signed : Signed}
variable {found : Branch}

omit [Memory] in
/-- Both outcomes start from the grown tree and leave its nodes and the other branches alone. -/
theorem added_of_sameNodes {after : Tableau}
    (same : SameNodes (tableau.grow parent rule signed).1 after)
    (others : forall other, other ≠ branch ->
      after.branch? other = (tableau.grow parent rule signed).1.branch? other)
    (branchCount : after.branches.size = (tableau.grow parent rule signed).1.branches.size)
    (logic : after.logic = (tableau.grow parent rule signed).1.logic) :
    Added tableau after branch signed where
  size := same.size.trans (grow_size tableau parent rule signed)
  grows := (grow_grows tableau parent rule signed).trans (Grows.of_same same)
  new := by
    rcases node?_grow tableau parent rule signed with ⟨node, at_new, _, carried⟩
    rw [same.signedAt?, signedAt?, at_new, Option.map_some, carried]
  numbers := fun numbered => same.numbers (grow_numbers tableau parent rule signed numbered)
  others := by
    intro other different
    rw [others other different, grow_branch?]
  branchCount := by rw [branchCount, grow_branches]
  logic := logic.trans (grow_logic tableau parent rule signed)

theorem add_cases (known : tableau.branch? branch = some found) :
    (∃ present, (tableau.grow parent rule signed).1.contradicted? found tableau.nodes.size signed =
        some present ∧
      tableau.add parent rule branch signed =
        ((tableau.grow parent rule signed).1.close branch tableau.nodes.size present, true)) ∨
    ((tableau.grow parent rule signed).1.contradicted? found tableau.nodes.size signed = none ∧
      tableau.add parent rule branch signed =
        ((tableau.grow parent rule signed).1.register tableau.nodes.size branch, false)) := by
  rcases node?_grow tableau parent rule signed with ⟨node, at_new, _, carried⟩
  have known' := (grow_branch? tableau parent rule signed branch).trans known
  cases outcome :
      (tableau.grow parent rule signed).1.contradicted? found tableau.nodes.size signed with
  | some present =>
    refine Or.inl ⟨present, rfl, ?_⟩
    simp only [add, settle, at_new, known', carried, outcome]
  | none =>
    refine Or.inr ⟨rfl, ?_⟩
    simp only [add, settle, at_new, known', carried, outcome]

theorem add_added (known : tableau.branch? branch = some found) :
    Added tableau (tableau.add parent rule branch signed).1 branch signed := by
  rcases @add_cases tableau _ parent rule branch signed found known with
    ⟨present, _, equal⟩ | ⟨_, equal⟩
  · rw [equal]
    exact added_of_sameNodes (close_sameTree _ _ _ _).sameNodes
      (fun other different => close_branch_ne different _ _)
      (close_branches_size _ _ _ _) (close_logic _ _ _ _)
  · rw [equal]
    exact added_of_sameNodes (register_sameTree _ _ _).sameNodes
      (fun other different => register_branch_ne different)
      (register_branches_size _ _ _) (register_logic _ _ _)

/-- A formula that closes the branch conflicts with one that is there, and the closure names
the two nodes. -/
theorem add_closes (regular : Regular tableau) (known : tableau.branch? branch = some found)
    (closes : (tableau.add parent rule branch signed).2 = true) :
    (tableau.add parent rule branch signed).1.opened = tableau.opened.erase branch ∧
      ∃ present other reason, (present, other) ∈ tableau.contents found ∧
        Conflict tableau.logic signed other ∧
        (tableau.add parent rule branch signed).1.branch? branch =
          some { found with closure := some ⟨tableau.nodes.size, present, reason⟩ } := by
  have grows := grow_grows tableau parent rule signed
  have regularFound := regular.branches branch found known
  rcases @add_cases tableau _ parent rule branch signed found known with
    ⟨present, clash, equal⟩ | ⟨_, equal⟩
  · rw [equal]
    have known' := (grow_branch? tableau parent rule signed branch).trans known
    rcases contradicted?_eq_some (regularFound.grows grows)
      (grow_numbers tableau parent rule signed regular.nodeNumbers) clash with
        ⟨other, listed, conflict⟩
    rw [grows.contents regularFound.membersExist] at listed
    rw [grow_logic] at conflict
    rcases close_branch_self known' tableau.nodes.size present with ⟨reason, closed⟩
    refine ⟨?_, present, other, reason, listed, conflict, closed⟩
    rw [close_opened, grow_opened]
  · rw [equal] at closes
    cases closes

/-- A formula that does not close the branch stands at its end, and in the standard calculus it
conflicts with nothing there. -/
theorem add_stays (regular : Regular tableau) (known : tableau.branch? branch = some found)
    (stays : (tableau.add parent rule branch signed).2 = false) :
    (tableau.add parent rule branch signed).1.opened = tableau.opened ∧
      (tableau.add parent rule branch signed).1.branch? branch =
        some (found.register tableau.nodes.size signed) ∧
      (tableau.logic = .standard -> forall other, other ∈ tableau.formulasOn found ->
        ¬ Conflict .standard signed other) := by
  have grows := grow_grows tableau parent rule signed
  have regularFound := regular.branches branch found known
  rcases @add_cases tableau _ parent rule branch signed found known with
    ⟨present, clash, equal⟩ | ⟨clear, equal⟩
  · rw [equal] at stays
    cases stays
  · rw [equal]
    have known' := (grow_branch? tableau parent rule signed branch).trans known
    rcases node?_grow tableau parent rule signed with ⟨node, at_new, _, carried⟩
    refine ⟨?_, ?_, ?_⟩
    · rw [register_opened, grow_opened]
    · rw [register_branch_self at_new known', carried]
    · intro standard other member
      apply not_conflict_of_contradicted?_eq_none (regularFound.grows grows)
        ((grow_logic tableau parent rule signed).trans standard) clear
      rwa [formulasOn, grows.contents regularFound.membersExist]

end Add

/-! ## The six updates -/

/-- One elementary change of a tableau, with the checks that were made before it. -/
inductive Update : Tableau -> Tableau -> Prop where
  | add {tableau : Tableau} {branch : Nat} {found : Branch} (parent : Option Nat)
      (rule : Option String) (signed : Signed) (known : tableau.branch? branch = some found)
      (unclosed : found.closure = none)
      (below : forall id, parent = some id -> id < tableau.nodes.size)
      (root : parent = none -> tableau.nodes.size = 0)
      (missing : rule ≠ none -> found.holds signed = false) :
      Update tableau (tableau.add parent rule branch signed).1
  | mark {tableau : Tableau} {branch : Nat} {found : Branch} {node : Nat}
      (constant : Option String) (known : tableau.branch? branch = some found)
      (unclosed : found.closure = none) (member : node ∈ found.members) :
      Update tableau (tableau.modifyBranch branch fun found => found.mark node constant)
  | fork {tableau : Tableau} {branch : Nat} {found : Branch}
      (known : tableau.branch? branch = some found) (unclosed : found.closure = none) :
      Update tableau (tableau.fork branch).1
  | takeUp {tableau : Tableau} {branch : Nat} {found : Branch}
      (known : tableau.branch? branch = some found) (unclosed : found.closure = none)
      (absent : branch ∉ tableau.opened) :
      Update tableau { tableau with opened := tableau.opened ++ [branch] }
  | release {tableau : Tableau} (branch : Nat) :
      Update tableau { tableau with opened := tableau.opened.erase branch }
  | record {tableau : Tableau} (trace : Option Trace) :
      Update tableau { tableau with trace := trace }

abbrev Updates : Tableau -> Tableau -> Prop := Relation.ReflTransGen Update

variable {after : Tableau}

omit [Memory] in
/-- Regularity after a change of one branch, from what it has become and from the branches that
are still worked on. -/
theorem Regular.of_change (regular : Regular tableau) {branch : Nat} {new : Branch}
    (numbers : forall id node, after.node? id = some node -> node.id = id)
    (grows : Grows tableau after)
    (others : forall other, other ≠ branch -> after.branch? other = tableau.branch? other)
    (changed : after.branch? branch = some new) (regularNew : RegularBranch after branch new)
    (opened : after.opened.Sublist tableau.opened)
    (still : branch ∈ after.opened -> new.closure = none) : Regular after where
  nodeNumbers := numbers
  branches := by
    intro id found known
    by_cases same : id = branch
    · rw [same, changed] at known
      rw [same, <- Option.some.inj known]
      exact regularNew
    · rw [others id same] at known
      exact (regular.branches id found known).grows grows
  openedFound := by
    intro id member
    by_cases same : id = branch
    · subst same
      exact ⟨new, changed, still member⟩
    · rcases regular.openedFound id (opened.subset member) with ⟨found, known, unclosed⟩
      exact ⟨found, (others id same).trans known, unclosed⟩
  openedDistinct := regular.openedDistinct.sublist opened

theorem Regular.add {parent : Option Nat} {rule : Option String} {branch : Nat}
    {signed : Signed} {found : Branch} (regular : Regular tableau)
    (known : tableau.branch? branch = some found) (unclosed : found.closure = none) :
    Regular (tableau.add parent rule branch signed).1 := by
  have added := @add_added tableau _ parent rule branch signed found known
  have regularFound := (regular.branches branch found known).grows added.grows
  cases outcome : (tableau.add parent rule branch signed).2 with
  | true =>
    rcases add_closes regular known outcome with ⟨opened, present, other, reason, _, _, closed⟩
    apply regular.of_change (added.numbers regular.nodeNumbers) added.grows added.others closed
      (regularFound.closed _) <;> rw [opened]
    · exact List.erase_sublist
    · intro member
      exact absurd rfl (regular.openedDistinct.mem_erase_iff.mp member).1
  | false =>
    rcases add_stays regular known outcome with ⟨opened, stays, _⟩
    have bound : tableau.nodes.size < (tableau.add parent rule branch signed).1.nodes.size := by
      rw [added.size]
      exact Nat.lt_succ_self _
    exact regular.of_change (added.numbers regular.nodeNumbers) added.grows added.others stays
      (regularFound.registered added.new bound) (by rw [opened]) fun _ => unclosed

theorem Regular.update (regular : Regular tableau)
    (change : Update tableau after) : Regular after := by
  cases change with
  | add parent rule signed known unclosed below root missing => exact regular.add known unclosed
  | @mark branch found node constant known unclosed member =>
    have grows : Grows tableau (tableau.modifyBranch branch fun found =>
        found.mark node constant) :=
      ⟨Nat.le_refl _, fun _ _ => rfl⟩
    exact regular.of_change regular.nodeNumbers grows
      (fun other different => branch?_modifyBranch_ne different _)
      (branch?_modifyBranch_self known _)
      (((regular.branches branch found known).marked member constant).grows grows)
      (List.Sublist.refl _) fun _ => (Branch.mark_closure found node constant).trans unclosed
  | @fork branch found known unclosed =>
    have same := (fork_sameTree tableau branch).sameNodes
    have grows := Grows.of_same same
    exact regular.of_change (same.numbers regular.nodeNumbers) grows
      (fun other different => fork_branch_old different) (fork_branch_new known)
      (((regular.branches branch found known).copied _).grows grows)
      (by rw [fork_opened]) fun _ => rfl
  | @takeUp branch found known unclosed absent =>
    refine ⟨regular.nodeNumbers, fun id branch known =>
      (regular.branches id branch known).grows ⟨Nat.le_refl _, fun _ _ => rfl⟩, ?_, ?_⟩
    · intro id member
      rcases List.mem_append.mp member with old | new
      · exact regular.openedFound id old
      · rw [List.mem_singleton.mp new]
        exact ⟨found, known, unclosed⟩
    · apply List.nodup_append.mpr
      refine ⟨regular.openedDistinct, List.pairwise_singleton _ _, ?_⟩
      intro id old other new equal
      rw [equal, List.mem_singleton.mp new] at old
      exact absent old
  | release branch =>
    refine ⟨regular.nodeNumbers, fun id branch known =>
      (regular.branches id branch known).grows ⟨Nat.le_refl _, fun _ _ => rfl⟩, ?_, ?_⟩
    · intro id member
      exact regular.openedFound id (List.mem_of_mem_erase member)
    · exact regular.openedDistinct.erase _
  | record trace =>
    exact ⟨regular.nodeNumbers, fun id branch known =>
      (regular.branches id branch known).grows ⟨Nat.le_refl _, fun _ _ => rfl⟩,
      regular.openedFound, regular.openedDistinct⟩

theorem Regular.updates (regular : Regular tableau)
    (changes : Updates tableau after) : Regular after := by
  induction changes with
  | refl => exact regular
  | tail _ change ih => exact ih.update change

/-! ## What a change does to a branch -/

theorem Update.logic (update : Update tableau after) : after.logic = tableau.logic := by
  cases update with
  | @add branch found parent rule signed known => exact (add_added known).logic
  | mark => rfl
  | fork => exact fork_logic _ _
  | takeUp => rfl
  | release => rfl
  | record => rfl

theorem Update.grows (update : Update tableau after) : Grows tableau after := by
  cases update with
  | @add branch found parent rule signed known => exact (add_added known).grows
  | fork => exact Grows.of_same (fork_sameTree _ _).sameNodes
  | mark | takeUp | release | record => exact ⟨Nat.le_refl _, fun _ _ => rfl⟩

theorem Updates.grows (updates : Updates tableau after) : Grows tableau after := by
  induction updates with
  | refl => exact .refl tableau
  | tail _ update ih => exact ih.trans update.grows

/-- How a branch comes out of one elementary change: as it was, closed, with one more node, with
another record, or as a copy. -/
inductive Descent (before after : Tableau) (new : Branch) : Prop where
  | same {id : Nat} (known : before.branch? id = some new)
  | closed {id : Nat} {found : Branch} {signed other : Signed} {present : Nat} {reason : String}
      (known : before.branch? id = some found) (unclosed : found.closure = none)
      (carried : after.signedAt? before.nodes.size = some signed)
      (listed : (present, other) ∈ before.contents found)
      (conflict : Conflict before.logic signed other)
      (equal : new = { found with closure := some ⟨before.nodes.size, present, reason⟩ })
  | registered {id : Nat} {found : Branch} {signed : Signed} {parent : Option Nat}
      {rule : Option String} (known : before.branch? id = some found)
      (unclosed : found.closure = none)
      (carried : after.signedAt? before.nodes.size = some signed)
      (clear : (before.grow parent rule signed).1.contradicted? found before.nodes.size signed =
        none)
      (equal : new = found.register before.nodes.size signed)
  | marked {id node : Nat} {found : Branch} {constant : Option String}
      (known : before.branch? id = some found) (unclosed : found.closure = none)
      (member : node ∈ found.members) (equal : new = found.mark node constant)
  | copied {id fresh : Nat} {found : Branch} (known : before.branch? id = some found)
      (unclosed : found.closure = none)
      (equal : new = { found with id := fresh, closure := none })

theorem Update.descent {id : Nat} {new : Branch} (update : Update tableau after)
    (regular : Regular tableau) (known' : after.branch? id = some new) :
    Descent tableau after new := by
  cases update with
  | @add branch found parent rule signed known unclosed =>
    have added := @add_added tableau _ parent rule branch signed found known
    by_cases same : id = branch
    · subst same
      rcases @add_cases tableau _ parent rule id signed found known with
        ⟨_, _, equal⟩ | ⟨clear, equal⟩
      · rcases add_closes regular known (by rw [equal]) with
          ⟨_, present, other, reason, listed, conflict, closed⟩
        rw [closed] at known'
        exact .closed known unclosed added.new listed conflict (Option.some.inj known').symm
      · rcases add_stays regular known (by rw [equal]) with ⟨_, registered, _⟩
        rw [registered] at known'
        exact .registered known unclosed added.new clear (Option.some.inj known').symm
    · rw [added.others id same] at known'
      exact .same known'
  | @mark branch found node constant known unclosed member =>
    by_cases same : id = branch
    · subst same
      rw [branch?_modifyBranch_self known] at known'
      exact .marked known unclosed member (Option.some.inj known').symm
    · rw [branch?_modifyBranch_ne same] at known'
      exact .same known'
  | @fork branch found known unclosed =>
    by_cases same : id = tableau.branches.size
    · rw [same, fork_branch_new known] at known'
      exact .copied known unclosed (Option.some.inj known').symm
    · rw [fork_branch_old same] at known'
      exact .same known'
  | takeUp | release | record => exact .same known'

/-- What changes hand on from branch to branch, all branches have that come out of them. -/
theorem Updates.of_descent (updates : Updates tableau after)
    (regular : Regular tableau) (holds : Tableau -> Branch -> Prop)
    (step : forall {before after new}, Regular before -> before.logic = tableau.logic ->
      Grows before after ->
      (forall id found, before.branch? id = some found -> holds before found) ->
      Descent before after new -> holds after new)
    (first : forall id found, tableau.branch? id = some found -> holds tableau found) :
    after.logic = tableau.logic ∧
      forall id found, after.branch? id = some found -> holds after found := by
  induction updates with
  | refl => exact ⟨rfl, first⟩
  | tail earlier update ih =>
    rcases ih with ⟨same, before⟩
    have regular' := regular.updates earlier
    exact ⟨update.logic.trans same, fun id found known =>
      step regular' same update.grows before (update.descent regular' known)⟩

end Tableau
end WeakKleene
