import WeakKleene.Tableau.Construction
import Mathlib.Data.List.Basic
import Mathlib.Logic.Relation

namespace WeakKleene

/-!
# What stands on a branch, and how it changes

A branch refers to nodes by number and keeps an index of written formulas
beside them.  Everything that the calculus asks of a branch depends on its
*contents*: the numbers of its nodes, each with the signed formula found there.
Nodes are never removed and never change their formula, so contents are stable
while other branches grow.

Every operation on a tableau is a sequence of few elementary updates, each
guarded by what the operation has checked before.  The guards are part of the
relation `Update`; an invariant has to be proved for the elementary updates
only.
-/

/-- A node apart from its branches and from what it clashes with. -/
def Node.bare (node : Node) : Node := { node with branches := [], clash := none }

namespace Tableau

variable {tableau : Tableau}

def signedAt? (tableau : Tableau) (id : Nat) : Option Signed := (tableau.node? id).map Node.signed

/-- The nodes of a branch by number, each with its signed formula. -/
def contents (tableau : Tableau) (branch : Branch) : List (Nat × Signed) :=
  branch.members.filterMap fun id => (tableau.signedAt? id).map fun signed => (id, signed)

/-- The signed formulas of a branch in the order of its nodes. -/
def formulasOn (tableau : Tableau) (branch : Branch) : List Signed :=
  (tableau.contents branch).map Prod.snd

variable {branch found : Branch} {id other : Nat} {signed : Signed} {node : Node} {sign : Sign}

theorem mem_contents_iff : (id, signed) ∈ tableau.contents branch ↔
      id ∈ branch.members ∧ tableau.signedAt? id = some signed := by
  simp only [contents, List.mem_filterMap, Option.map_eq_some_iff, Prod.mk.injEq]
  constructor
  · rintro ⟨found, member, carried, at_found, rfl, rfl⟩
    exact ⟨member, at_found⟩
  · rintro ⟨member, carried⟩
    exact ⟨id, member, signed, carried, rfl, rfl⟩

theorem mem_formulasOn_iff :
    signed ∈ tableau.formulasOn branch ↔ ∃ id, (id, signed) ∈ tableau.contents branch := by
  simp only [formulasOn, List.mem_map, Prod.exists, exists_eq_right]

theorem formulasOn_eq_map (tableau : Tableau) (found : Branch) :
    tableau.formulasOn found = (tableau.nodesOn found).map Node.signed := by
  unfold formulasOn contents nodesOn signedAt?
  rw [List.map_filterMap, List.map_filterMap]
  apply List.filterMap_congr
  intro id _
  cases tableau.node? id <;> rfl

/-- Contents are the same wherever the nodes of the branch carry the same formulas. -/
theorem contents_congr {other : Tableau}
    (same : forall id, id ∈ branch.members -> other.signedAt? id = tableau.signedAt? id) :
    other.contents branch = tableau.contents branch := by
  unfold contents
  apply List.filterMap_congr
  intro id member
  rw [same id member]

theorem mem_contents_of_nodesOn
    (numbered : forall id node, tableau.node? id = some node -> node.id = id)
    (member : node ∈ tableau.nodesOn branch) :
    (node.id, node.signed) ∈ tableau.contents branch := by
  rcases List.mem_filterMap.mp member with ⟨id, listed, found⟩
  rw [mem_contents_iff, numbered id node found]
  exact ⟨listed, by rw [signedAt?, found, Option.map_some]⟩

theorem signed_mem_formulasOn (member : node ∈ tableau.nodesOn branch) :
    node.signed ∈ tableau.formulasOn branch := by
  rw [formulasOn_eq_map]
  exact List.mem_map_of_mem member

/-! ## Nodes keep their number and their formula -/

structure SameNodes (before after : Tableau) : Prop where
  size : after.nodes.size = before.nodes.size
  outline : forall id, (after.node? id).map (fun node => (node.id, node.signed)) =
    (before.node? id).map fun node => (node.id, node.signed)

namespace SameNodes

theorem refl (tableau : Tableau) : SameNodes tableau tableau := ⟨rfl, fun _ => rfl⟩

variable {before after : Tableau}

theorem signedAt? (same : SameNodes before after) (id : Nat) :
    after.signedAt? id = before.signedAt? id := by
  have outline := congrArg (Option.map Prod.snd) (same.outline id)
  simpa only [Tableau.signedAt?, Option.map_map, Function.comp_def] using outline

theorem contents (same : SameNodes before after) (branch : Branch) :
    after.contents branch = before.contents branch :=
  contents_congr fun id _ => same.signedAt? id

theorem numbers (same : SameNodes before after)
    (numbered : forall id node, before.node? id = some node -> node.id = id) :
    forall id node, after.node? id = some node -> node.id = id := by
  intro id node found
  have outline := same.outline id
  rw [found, Option.map_some] at outline
  rcases Option.map_eq_some_iff.mp outline.symm with ⟨old, foundOld, equal⟩
  rw [<- numbered id old foundOld]
  exact (congrArg Prod.fst equal).symm

end SameNodes

/-- A change of one node does not concern what it leaves alone. -/
theorem map_node?_modifyNode {α : Type} {view : Node -> α} {change : Node -> Node}
    (keeps : forall node, view (change node) = view node) (id other : Nat) :
    ((tableau.modifyNode id change).node? other).map view = (tableau.node? other).map view := by
  simp only [modifyNode, node?, Array.getElem?_modify]
  split
  · rw [Option.map_map]
    congr 1
    funext node
    exact keeps node
  · rfl

/-- The same nodes but for their branches and clashes. -/
structure SameTree (before after : Tableau) : Prop where
  size : after.nodes.size = before.nodes.size
  bare : forall id, (after.node? id).map Node.bare = (before.node? id).map Node.bare

namespace SameTree

theorem refl (tableau : Tableau) : SameTree tableau tableau := ⟨rfl, fun _ => rfl⟩

theorem trans {first second third : Tableau} (left : SameTree first second)
    (right : SameTree second third) : SameTree first third :=
  ⟨right.size.trans left.size, fun id => (right.bare id).trans (left.bare id)⟩

theorem modify (tableau : Tableau) (id : Nat) {change : Node -> Node}
    (keeps : forall node, (change node).bare = node.bare) :
    SameTree tableau (tableau.modifyNode id change) :=
  ⟨Array.size_modify, map_node?_modifyNode keeps id⟩

variable {before after : Tableau}

/-- Nothing changes that depends neither on branches nor on clashes. -/
theorem view {α : Type} {view : Node -> α} (same : SameTree before after)
    (steady : forall node, view node.bare = view node) (id : Nat) :
    (after.node? id).map view = (before.node? id).map view := by
  have equal := congrArg (Option.map view) (same.bare id)
  simpa only [Option.map_map, Function.comp_def, steady] using equal

theorem sameNodes (same : SameTree before after) : SameNodes before after :=
  ⟨same.size, same.view fun _ => rfl⟩

end SameTree

/-- Nodes are added behind the others, and no formula changes. -/
structure Grows (before after : Tableau) : Prop where
  size : before.nodes.size ≤ after.nodes.size
  signed : forall id, id < before.nodes.size -> after.signedAt? id = before.signedAt? id

namespace Grows

theorem refl (tableau : Tableau) : Grows tableau tableau := ⟨Nat.le_refl _, fun _ _ => rfl⟩

theorem trans {first second third : Tableau} (left : Grows first second)
    (right : Grows second third) : Grows first third where
  size := Nat.le_trans left.size right.size
  signed := fun id bound =>
    (right.signed id (Nat.lt_of_lt_of_le bound left.size)).trans (left.signed id bound)

variable {before after : Tableau}

theorem of_same (same : SameNodes before after) : Grows before after :=
  ⟨Nat.le_of_eq same.size.symm, fun id _ => same.signedAt? id⟩

theorem contents (grows : Grows before after)
    (exist : forall member, member ∈ branch.members -> member < before.nodes.size) :
    after.contents branch = before.contents branch :=
  contents_congr fun id member => grows.signed id (exist id member)

theorem formulasOn (grows : Grows before after)
    (exist : forall member, member ∈ branch.members -> member < before.nodes.size) :
    after.formulasOn branch = before.formulasOn branch := by
  rw [Tableau.formulasOn, grows.contents exist, Tableau.formulasOn]

end Grows

/-! ### Growing the tree -/

section

variable (tableau : Tableau) (parent : Option Nat) (rule : Option String) (signed : Signed)

theorem grow_branches : (tableau.grow parent rule signed).1.branches = tableau.branches := by
  cases parent <;> rfl

theorem grow_branch? (branch : Nat) :
    (tableau.grow parent rule signed).1.branch? branch = tableau.branch? branch := by
  rw [branch?, grow_branches, branch?]

theorem grow_opened : (tableau.grow parent rule signed).1.opened = tableau.opened := by
  cases parent <;> rfl

theorem grow_closed : (tableau.grow parent rule signed).1.closed = tableau.closed := by
  cases parent <;> rfl

theorem grow_logic : (tableau.grow parent rule signed).1.logic = tableau.logic := by
  cases parent <;> rfl

/-- The nodes of the grown tree are those from before, linked to the new one, and the new one. -/
theorem grow_nodes :
    ∃ linked node, SameNodes tableau linked ∧ node.id = tableau.nodes.size ∧ node.signed = signed ∧
      (tableau.grow parent rule signed).1.nodes = linked.nodes.push node := by
  cases parent with
  | none => exact ⟨tableau, _, SameNodes.refl tableau, rfl, rfl, rfl⟩
  | some parent =>
    refine ⟨tableau.modifyNode parent fun node =>
      { node with children := node.children ++ [tableau.nodes.size] }, _, ?_, rfl, rfl, rfl⟩
    exact ⟨Array.size_modify, fun id => map_node?_modifyNode (by intro; rfl) parent id⟩

theorem grow_size : (tableau.grow parent rule signed).1.nodes.size = tableau.nodes.size + 1 := by
  rcases grow_nodes tableau parent rule signed with ⟨linked, node, same, _, _, nodes⟩
  rw [nodes, Array.size_push, same.size]

theorem grow_grows :
    Grows tableau (tableau.grow parent rule signed).1 where
  size := by
    rw [grow_size]
    exact Nat.le_succ _
  signed := by
    intro id bound
    rcases grow_nodes tableau parent rule signed with ⟨linked, node, same, _, _, nodes⟩
    have old : id ≠ linked.nodes.size := by
      rw [same.size]
      exact Nat.ne_of_lt bound
    rw [<- same.signedAt? id]
    simp only [signedAt?, node?, nodes, Array.getElem?_push, if_neg old]

theorem node?_grow :
    ∃ node, (tableau.grow parent rule signed).1.node? tableau.nodes.size = some node ∧
      node.id = tableau.nodes.size ∧ node.signed = signed := by
  rcases grow_nodes tableau parent rule signed with ⟨linked, node, same, number, carried, nodes⟩
  refine ⟨node, ?_, number, carried⟩
  rw [node?, nodes, <- same.size, Array.getElem?_push_size]

theorem grow_numbers (numbered : forall id node, tableau.node? id = some node -> node.id = id) :
    forall id node, (tableau.grow parent rule signed).1.node? id = some node -> node.id = id := by
  intro id node found
  rcases grow_nodes tableau parent rule signed with ⟨linked, added, same, number, _, nodes⟩
  rw [node?, nodes, Array.getElem?_push] at found
  split at found
  · next last =>
    rw [<- Option.some.inj found, number, last, same.size]
  · exact same.numbers numbered id node found

end

/-! ### Changing one branch -/

theorem branch?_modifyBranch_self {branch : Nat} (present : tableau.branch? branch = some found)
    (change : Branch -> Branch) :
    (tableau.modifyBranch branch change).branch? branch = some (change found) := by
  rw [branch?] at present
  rw [branch?, modifyBranch, Array.getElem?_modify, if_pos rfl, present, Option.map_some]

theorem branch?_modifyBranch_ne {branch : Nat} (different : other ≠ branch)
    (change : Branch -> Branch) :
    (tableau.modifyBranch branch change).branch? other = tableau.branch? other := by
  rw [branch?, modifyBranch, Array.getElem?_modify, if_neg different.symm, branch?]

/-! ### Closing a branch -/

section

variable (tableau : Tableau) (branch added present : Nat)

theorem close_sameTree : SameTree tableau (tableau.close branch added present) := by
  have first := @SameTree.modify tableau added
    (fun node => { node with clash := some (present, branch) }) fun _ => rfl
  have second := @SameTree.modify (tableau.modifyNode added fun node =>
    { node with clash := some (present, branch) }) present
    (fun node => { node with clash := some (added, branch) }) fun _ => rfl
  have both := first.trans second
  unfold close
  dsimp only
  split <;> exact ⟨both.size, both.bare⟩

theorem close_opened :
    (tableau.close branch added present).opened = tableau.opened.erase branch := by
  unfold close
  dsimp only
  split
  · rfl
  · next absent =>
    rw [List.erase_of_not_mem (by simpa using absent)]
    rfl

theorem close_closed :
    (tableau.close branch added present).closed =
      tableau.closed ++ if tableau.opened.contains branch then [branch] else [] := by
  unfold close
  dsimp only
  split
  · rfl
  · exact (List.append_nil _).symm

theorem close_logic :
    (tableau.close branch added present).logic = tableau.logic := by
  unfold close
  dsimp only
  split <;> rfl

theorem close_branches_size :
    (tableau.close branch added present).branches.size = tableau.branches.size := by
  unfold close
  dsimp only
  split <;> exact Array.size_modify

end

theorem close_branch_self {branch : Nat}
    (known : tableau.branch? branch = some found) (added present : Nat) :
    ∃ reason, (tableau.close branch added present).branch? branch =
      some { found with closure := some ⟨added, present, reason⟩ } := by
  unfold close
  dsimp only
  split <;> exact ⟨_, branch?_modifyBranch_self known _⟩

theorem close_branch_ne {branch : Nat} (different : other ≠ branch) (added present : Nat) :
    (tableau.close branch added present).branch? other = tableau.branch? other := by
  unfold close
  dsimp only
  split <;> exact branch?_modifyBranch_ne different _

/-! ### Putting a node on a branch -/

section

variable (tableau : Tableau) (id branch : Nat)

theorem register_sameTree : SameTree tableau (tableau.register id branch) := by
  unfold register
  split
  · exact .refl tableau
  · have same := @SameTree.modify tableau id
      (fun node => { node with branches := node.branches.insert branch }) fun _ => rfl
    exact ⟨same.size, same.bare⟩

theorem settle_sameTree [Memory] : SameTree tableau (tableau.settle id branch).1 := by
  unfold settle
  split
  · split
    · exact close_sameTree _ _ _ _
    · exact register_sameTree _ _ _
  · exact .refl tableau

theorem register_opened :
    (tableau.register id branch).opened = tableau.opened := by
  unfold register
  split <;> rfl

theorem register_closed :
    (tableau.register id branch).closed = tableau.closed := by
  unfold register
  split <;> rfl

theorem register_logic :
    (tableau.register id branch).logic = tableau.logic := by
  unfold register
  split <;> rfl

theorem register_branches_size :
    (tableau.register id branch).branches.size = tableau.branches.size := by
  unfold register
  split
  · rfl
  · exact Array.size_modify

end

theorem register_branch_self {branch : Nat}
    (at_id : tableau.node? id = some node) (known : tableau.branch? branch = some found) :
    (tableau.register id branch).branch? branch = some (found.register id node.signed) := by
  unfold register
  simp only [at_id]
  exact branch?_modifyBranch_self known _

theorem register_branch_ne {branch : Nat} (different : other ≠ branch) :
    (tableau.register id branch).branch? other = tableau.branch? other := by
  unfold register
  split
  · rfl
  · exact branch?_modifyBranch_ne different _

/-! ### Copying a branch -/

section

variable (tableau : Tableau) (branch : Nat)

theorem fork_snd :
    (tableau.fork branch).2 = tableau.branches.size := by
  unfold fork
  dsimp only
  split <;> rfl

theorem fork_opened :
    (tableau.fork branch).1.opened = tableau.opened := by
  unfold fork
  dsimp only
  split <;> rfl

theorem fork_closed :
    (tableau.fork branch).1.closed = tableau.closed := by
  unfold fork
  dsimp only
  split <;> rfl

theorem fork_logic :
    (tableau.fork branch).1.logic = tableau.logic := by
  unfold fork
  dsimp only
  split <;> rfl

/-- Copying notes the new branch on each node and changes nothing else there. -/
theorem fork_sameTree : SameTree tableau (tableau.fork branch).1 := by
  have noted (members : List Nat) (current : Tableau) (id : Nat) :
      SameTree current { current with nodes := members.foldl (fun nodes member =>
        nodes.modify member fun node =>
          { node with branches := id :: node.branches }) current.nodes } := by
    induction members generalizing current with
    | nil => exact .refl current
    | cons member rest ih =>
      have first := @SameTree.modify current member
        (fun node => { node with branches := id :: node.branches }) fun _ => rfl
      exact first.trans (ih (current.modifyNode member _))
  unfold fork
  dsimp only
  split
  · exact ⟨rfl, fun _ => rfl⟩
  · next found _ =>
    have same := noted found.members tableau tableau.branches.size
    exact ⟨same.size, same.bare⟩

end

theorem fork_branch_new {branch : Nat} (known : tableau.branch? branch = some found) :
    (tableau.fork branch).1.branch? tableau.branches.size =
      some { found with id := tableau.branches.size, closure := none } := by
  unfold fork
  simp only [known]
  exact Array.getElem?_push_size

theorem fork_branch_old {branch : Nat} (old : other ≠ tableau.branches.size) :
    (tableau.fork branch).1.branch? other = tableau.branch? other := by
  unfold fork
  dsimp only
  split <;> simp only [branch?, Array.getElem?_push, if_neg old]

theorem fork_branches_size (tableau : Tableau) (branch : Nat) :
    (tableau.fork branch).1.branches.size = tableau.branches.size + 1 := by
  unfold fork
  dsimp only
  split <;> exact Array.size_push _

/-! ## A regular tableau -/

def entryOf (node : Nat × Signed) : Entry := ⟨node.2.formula.text, node.2.sign, node.1⟩

/-- A branch in its place: it refers to existing nodes only, has processed none but its own, and
its index lists exactly its contents. -/
structure RegularBranch (tableau : Tableau) (id : Nat) (branch : Branch) : Prop where
  number : branch.id = id
  membersExist : forall member, member ∈ branch.members -> member < tableau.nodes.size
  processedMembers : forall node, node ∈ branch.processed -> node ∈ branch.members
  indexed : branch.index = (tableau.contents branch).map entryOf

/-- Numbers are places, branches are regular, and the branches to be worked on are distinct and
not closed. -/
structure Regular (tableau : Tableau) : Prop where
  nodeNumbers : forall id node, tableau.node? id = some node -> node.id = id
  branches : forall id branch, tableau.branch? id = some branch -> RegularBranch tableau id branch
  openedFound : forall id, id ∈ tableau.opened ->
    ∃ branch, tableau.branch? id = some branch ∧ branch.closure = none
  openedDistinct : tableau.opened.Nodup

theorem lt_of_branch? (known : tableau.branch? id = some found) : id < tableau.branches.size := by
  rcases Nat.lt_or_ge id tableau.branches.size with bound | beyond
  · exact bound
  · rw [branch?, Array.getElem?_eq_none beyond] at known
    cases known

theorem isClosed_eq_false_iff : found.isClosed = false ↔ found.closure = none := by
  rw [Branch.isClosed, Option.isSome_eq_false_iff, Option.isNone_iff_eq_none]

namespace Regular

theorem unclosed (regular : Regular tableau) (worked : id ∈ tableau.opened)
    (known : tableau.branch? id = some found) :
    found.closure = none := by
  rcases regular.openedFound id worked with ⟨found', known', unclosed⟩
  rw [known] at known'
  rwa [Option.some.inj known']

/-- Branches that are worked on exist, so the number of the next branch is not among them. -/
theorem size_not_mem_opened (regular : Regular tableau) :
    tableau.branches.size ∉ tableau.opened := by
  intro member
  rcases regular.openedFound _ member with ⟨found, known, _⟩
  exact Nat.lt_irrefl _ (lt_of_branch? known)

end Regular

namespace RegularBranch

variable {id : Nat} {branch : Branch}

theorem grows {after : Tableau} (regular : RegularBranch tableau id branch)
    (grows : Grows tableau after) : RegularBranch after id branch where
  number := regular.number
  membersExist := fun member listed =>
    Nat.lt_of_lt_of_le (regular.membersExist member listed) grows.size
  processedMembers := regular.processedMembers
  indexed := by rw [grows.contents regular.membersExist, regular.indexed]

theorem closed (regular : RegularBranch tableau id branch) (closure : Option Closure) :
    RegularBranch tableau id { branch with closure := closure } where
  number := regular.number
  membersExist := regular.membersExist
  processedMembers := regular.processedMembers
  indexed := regular.indexed

theorem copied (regular : RegularBranch tableau id branch) (fresh : Nat) :
    RegularBranch tableau fresh { branch with id := fresh, closure := none } where
  number := rfl
  membersExist := regular.membersExist
  processedMembers := regular.processedMembers
  indexed := regular.indexed

end RegularBranch

theorem contents_register (carried : tableau.signedAt? id = some signed) :
    tableau.contents (branch.register id signed) = tableau.contents branch ++ [(id, signed)] := by
  simp only [contents, Branch.register, List.filterMap_append, List.filterMap_cons, carried,
    Option.map_some, List.filterMap_nil]

theorem RegularBranch.registered {node : Nat} (regular : RegularBranch tableau id branch)
    (carried : tableau.signedAt? node = some signed) (bound : node < tableau.nodes.size) :
    RegularBranch tableau id (branch.register node signed) where
  number := regular.number
  membersExist := by
    intro member listed
    rcases List.mem_append.mp listed with old | new
    · exact regular.membersExist member old
    · rw [List.mem_singleton.mp new]
      exact bound
  processedMembers := fun other processed =>
    List.mem_append_left _ (regular.processedMembers other processed)
  indexed := by
    rw [contents_register carried, List.map_append]
    exact congrArg (· ++ [entryOf (node, signed)]) regular.indexed

/-! ## Looking formulas up -/

section

variable (regular : RegularBranch tableau id branch)
include regular

/-- Looking up the index is searching the contents. -/
theorem RegularBranch.find?_eq (text : String) (sign : Sign) :
    branch.find? text sign = ((tableau.contents branch).find? fun node =>
      node.2.formula.text == text && node.2.sign == sign).map Prod.fst := by
  rw [Branch.find?, regular.indexed, List.find?_map, Option.map_map]
  rfl

/-- A node that is found is on the branch, with the text and the sign that were looked up. -/
theorem RegularBranch.of_find?_eq_some {node : Nat}
    {text : String}
    (found : branch.find? text sign = some node) :
    ∃ signed, (node, signed) ∈ tableau.contents branch ∧ signed.formula.text = text ∧
      signed.sign = sign := by
  rw [regular.find?_eq, Option.map_eq_some_iff] at found
  rcases found with ⟨⟨number, signed⟩, first, equal⟩
  have fits := List.find?_some first
  rw [Bool.and_eq_true, beq_iff_eq, beq_iff_eq] at fits
  rw [<- equal]
  exact ⟨signed, List.mem_of_find?_eq_some first, fits.1, fits.2⟩

theorem RegularBranch.of_find?_eq_none {text : String}
    (missing : branch.find? text sign = none)
    (member : signed ∈ tableau.formulasOn branch) :
    ¬ (signed.formula.text = text ∧ signed.sign = sign) := by
  rw [regular.find?_eq, Option.map_eq_none_iff, List.find?_eq_none] at missing
  rcases mem_formulasOn_iff.mp member with ⟨node, listed⟩
  have unfit := missing (node, signed) listed
  rwa [Bool.and_eq_true, beq_iff_eq, beq_iff_eq] at unfit

/-- A branch holds a formula when one with the same text and sign stands on it. -/
theorem RegularBranch.holds_iff (signed : Signed) :
    branch.holds signed = true ↔ ∃ other, other ∈ tableau.formulasOn branch ∧
      other.formula.text = signed.formula.text ∧ other.sign = signed.sign := by
  rw [Branch.holds, Option.isSome_iff_exists]
  constructor
  · rintro ⟨node, found⟩
    rcases regular.of_find?_eq_some found with ⟨other, listed, text, sign⟩
    exact ⟨other, mem_formulasOn_iff.mpr ⟨node, listed⟩, text, sign⟩
  · rintro ⟨other, member, fits⟩
    cases found : branch.find? signed.formula.text signed.sign with
    | some node => exact ⟨node, rfl⟩
    | none => exact absurd fits (regular.of_find?_eq_none found member)

end

/-! ## Conflicts -/

/-- When a new formula and one that is there exclude each other.  In the standard calculus the
sign of the new one need not be definite. -/
def Conflict (logic : Logic) (signed other : Signed) : Prop :=
  match logic with
  | .standard => other.formula.text = signed.formula.text ∧ other.sign.definite = true ∧
      other.sign ≠ signed.sign
  | .bilateral _ => signed.sign.contradicts other.sign = true ∧
      signed.formula.equivalent other.formula = true

theorem definite_iff_mem : sign.definite = true ↔ sign ∈ [Sign.t, .f, .e] := by
  cases sign <;> decide

variable [Memory]

/-- The node that a formula contradicts is on the branch and conflicts with it. -/
theorem contradicted?_eq_some {added present : Nat} (regular : RegularBranch tableau id branch)
    (numbered : forall id node, tableau.node? id = some node -> node.id = id)
    (clash : tableau.contradicted? branch added signed = some present) :
    ∃ other, (present, other) ∈ tableau.contents branch ∧ Conflict tableau.logic signed other := by
  cases kind : tableau.logic with
  | standard =>
    simp only [contradicted?, kind] at clash
    rcases List.exists_of_findSome?_eq_some clash with ⟨sign, definite, found⟩
    split at found
    · next differs =>
      rcases regular.of_find?_eq_some found with ⟨other, listed, text, rfl⟩
      exact ⟨other, listed, text, definite_iff_mem.mpr definite, by simpa using differs⟩
    · cases found
  | bilateral evaluator =>
    simp only [contradicted?, kind] at clash
    split at clash
    · cases clash
    · rcases Option.map_eq_some_iff.mp clash with ⟨node, found, rfl⟩
      have fits := List.find?_some found
      rw [Bool.and_eq_true] at fits
      have there := mem_listed_iff.mp (List.mem_of_find?_eq_some found)
      exact ⟨node.signed, mem_contents_of_nodesOn numbered there, fits⟩

/-- In the standard calculus a formula that contradicts no node conflicts with none. -/
theorem not_conflict_of_contradicted?_eq_none (regular : RegularBranch tableau id branch)
    (standard : tableau.logic = .standard) {added : Nat}
    (clear : tableau.contradicted? branch added signed = none) {other : Signed}
    (member : other ∈ tableau.formulasOn branch) :
    ¬ Conflict .standard signed other := by
  rintro ⟨text, definite, differs⟩
  simp only [contradicted?, standard] at clear
  have missing := List.findSome?_eq_none_iff.mp clear other.sign (definite_iff_mem.mp definite)
  rw [if_pos (by simpa using differs)] at missing
  exact regular.of_find?_eq_none missing member ⟨text, rfl⟩

end Tableau
end WeakKleene
