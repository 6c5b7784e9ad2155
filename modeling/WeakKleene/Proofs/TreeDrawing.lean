import Mathlib.Data.List.Nodup
import Mathlib.Data.List.Perm.Basic
import WeakKleene.Drawing.Format
import WeakKleene.Proofs.Guidance
import WeakKleene.Proofs.NodeTree

namespace WeakKleene
namespace Tableau

/-!
# Every node is drawn once

A drawing starts at the first node and descends from each node to its children.
It shows a node once for each way that leads there, so it shows the whole
tableau, and nothing twice, because the nodes form one tree.

How often a node is visited is counted along the tree: a node other than the
first is visited as often as its parent, whichever node the visit starts from,
unless it starts right there.
-/

variable {tableau : Tableau}

/-! ## Visits -/

def IsChild (tableau : Tableau) (above child : Nat) : Prop :=
  ∃ node, tableau.node? above = some node ∧ child ∈ node.children

mutual

/-- The nodes under a node, itself first and then what is under its children from left to
right. -/
inductive Preorder (tableau : Tableau) : Nat -> List Nat -> Prop where
  | visit {id : Nat} {node : Node} {order : List Nat} (found : tableau.node? id = some node)
      (below : PreorderAll tableau node.children order) : Preorder tableau id (id :: order)

inductive PreorderAll (tableau : Tableau) : List Nat -> List Nat -> Prop where
  | nil : PreorderAll tableau [] []
  | cons {child : Nat} {rest first others : List Nat} (here : Preorder tableau child first)
      (later : PreorderAll tableau rest others) :
      PreorderAll tableau (child :: rest) (first ++ others)

end

mutual

theorem Preorder.lt_size {id : Nat} {order : List Nat} (visited : Preorder tableau id order) :
    forall other, other ∈ order -> other < tableau.nodes.size := by
  match visited with
  | .visit found below =>
    intro other member
    rcases List.mem_cons.mp member with same | under
    · rw [same]
      exact lt_of_placeAt? (placeAt?_eq_some found)
    · exact below.lt_size other under

theorem PreorderAll.lt_size {ids order : List Nat} (visited : PreorderAll tableau ids order) :
    forall other, other ∈ order -> other < tableau.nodes.size := by
  match visited with
  | .nil => exact nofun
  | .cons here later =>
    intro other member
    rcases List.mem_append.mp member with first | second
    · exact here.lt_size other first
    · exact later.lt_size other second

end

namespace IsTree

variable {id child : Nat} {node : Node}

section

variable (tree : IsTree tableau)
include tree

/-- What hangs under a node is not the root. -/
theorem ne_root {above : Nat} {place : Place}
    (known : tableau.placeAt? id = some place) (hangs : place.parent = some above) : id ≠ 0 := by
  rintro rfl
  rw [(tree.root place known).1] at hangs
  cases hangs

section

variable (found : tableau.node? id = some node) (member : child ∈ node.children)
include found member

/-- A child has a larger number than its parent, and stands one step deeper. -/
theorem child_place :
    ∃ lower, tableau.placeAt? child = some lower ∧ lower.parent = some id ∧ id < child ∧
      lower.depth = node.depth + 1 := by
  rcases tree.children id _ child (placeAt?_eq_some found) member with ⟨lower, known, hangs⟩
  rcases tree.hung child lower known (tree.ne_root known hangs) with
    ⟨above, upper, hangs', smaller, knownUpper, _, depth⟩
  rw [hangs, Option.some.injEq] at hangs'
  rw [<- hangs', placeAt?_eq_some found] at knownUpper
  rw [<- Option.some.inj knownUpper] at depth
  exact ⟨lower, known, hangs, hangs' ▸ smaller, depth⟩

theorem lt_of_child : id < child ∧ child < tableau.nodes.size := by
  rcases tree.child_place found member with ⟨_, known, _, larger, _⟩
  exact ⟨larger, lt_of_placeAt? known⟩

theorem depth_child {lower : Node}
    (known : tableau.node? child = some lower) : lower.depth = node.depth + 1 := by
  rcases tree.child_place found member with ⟨place, known', _, _, depth⟩
  rw [placeAt?_eq_some known] at known'
  rw [<- Option.some.inj known'] at depth
  exact depth

end

/-- Visits end, since children have larger numbers. -/
theorem exists_preorder (bound : id < tableau.nodes.size) :
    ∃ order, Preorder tableau id order := by
  induction remaining : tableau.nodes.size - id using Nat.strongRecOn generalizing id with
  | ind remaining ih =>
    have found : tableau.node? id = some _ := Array.getElem?_eq_getElem bound
    have all : forall children : List Nat,
        (forall child, child ∈ children -> id < child ∧ child < tableau.nodes.size) ->
        ∃ order, PreorderAll tableau children order := by
      intro children
      induction children with
      | nil => exact fun _ => ⟨[], .nil⟩
      | cons child rest further =>
        intro larger
        rcases larger child List.mem_cons_self with ⟨beyond, below⟩
        rcases ih (tableau.nodes.size - child) (by omega) below rfl with ⟨first, here⟩
        rcases further fun other member => larger other (List.mem_cons_of_mem _ member) with
          ⟨others, later⟩
        exact ⟨first ++ others, .cons here later⟩
    rcases all _ fun child member => tree.lt_of_child found member with ⟨order, below⟩
    exact ⟨id :: order, .visit found below⟩

theorem count_children {above : Nat} {place : Place}
    (found : tableau.node? id = some node) (known : tableau.placeAt? child = some place)
    (hangs : place.parent = some above) :
    node.children.count child = if id = above then 1 else 0 := by
  split
  · next same =>
    rcases tree.hung child place known (tree.ne_root known hangs) with
      ⟨other, upper, hangs', _, knownUpper, once, _⟩
    rw [hangs, Option.some.injEq, <- same] at hangs'
    rw [<- hangs', placeAt?_eq_some found] at knownUpper
    rw [<- Option.some.inj knownUpper] at once
    exact once
  · next different =>
    apply List.count_eq_zero_of_not_mem
    intro member
    rcases tree.children id _ child (placeAt?_eq_some found) member with ⟨lower, knownLower, under⟩
    rw [known, Option.some.injEq] at knownLower
    rw [<- knownLower, hangs, Option.some.injEq] at under
    exact different under.symm

theorem count_children_root (found : tableau.node? id = some node) : node.children.count 0 = 0 := by
  apply List.count_eq_zero_of_not_mem
  intro member
  exact absurd (tree.lt_of_child found member).1 (Nat.not_lt_zero _)

end

end IsTree

section Counting

variable {child above : Nat} {place : Place}

mutual

/-- A node is visited as often as its parent, and once more if the visit starts there. -/
theorem Preorder.count_eq (tree : IsTree tableau) (known : tableau.placeAt? child = some place)
    (hangs : place.parent = some above) {id : Nat} {order : List Nat}
    (visited : Preorder tableau id order) :
    order.count child = (if id = child then 1 else 0) + order.count above := by
  match visited with
  | .visit found below =>
    have counted := below.count_eq tree known hangs
    have listed := tree.count_children found known hangs
    rw [List.count_cons, List.count_cons, counted, listed]
    simp only [beq_iff_eq]
    omega

theorem PreorderAll.count_eq (tree : IsTree tableau) (known : tableau.placeAt? child = some place)
    (hangs : place.parent = some above) {ids order : List Nat}
    (visited : PreorderAll tableau ids order) :
    order.count child = ids.count child + order.count above := by
  match visited with
  | .nil => rfl
  | .cons here later =>
    have first := here.count_eq tree known hangs
    have others := later.count_eq tree known hangs
    rw [List.count_append, List.count_append, List.count_cons, first, others]
    simp only [beq_iff_eq]
    omega

end

mutual

/-- Only a visit that starts at the root comes there. -/
theorem Preorder.count_root (tree : IsTree tableau) {id : Nat} {order : List Nat}
    (visited : Preorder tableau id order) : order.count 0 = if id = 0 then 1 else 0 := by
  match visited with
  | .visit found below =>
    rw [List.count_cons, below.count_root tree, tree.count_children_root found]
    simp only [beq_iff_eq, Nat.zero_add]

theorem PreorderAll.count_root (tree : IsTree tableau) {ids order : List Nat}
    (visited : PreorderAll tableau ids order) : order.count 0 = ids.count 0 := by
  match visited with
  | .nil => rfl
  | .cons here later =>
    rw [List.count_append, List.count_cons, here.count_root tree, later.count_root tree]
    simp only [beq_iff_eq]
    omega

end

end Counting

theorem IsTree.count_preorder (tree : IsTree tableau) {order : List Nat}
    (visited : Preorder tableau 0 order) {id : Nat} (bound : id < tableau.nodes.size) :
    order.count id = 1 := by
  induction id using Nat.strongRecOn with
  | ind id ih =>
    by_cases root : id = 0
    · rw [root, visited.count_root tree, if_pos rfl]
    · rcases exists_place_of_lt bound with ⟨place, known⟩
      rcases tree.hung id place known root with ⟨above, _, hangs, smaller, _⟩
      rw [visited.count_eq tree known hangs, if_neg (Ne.symm root), Nat.zero_add]
      exact ih above smaller (Nat.lt_trans smaller bound)

theorem IsTree.preorder_perm (tree : IsTree tableau) {order : List Nat}
    (visited : Preorder tableau 0 order) : order.Perm (List.range tableau.nodes.size) := by
  rw [List.perm_iff_count]
  intro id
  by_cases bound : id < tableau.nodes.size
  · rw [tree.count_preorder visited bound]
    exact (List.count_eq_one_of_mem List.nodup_range (List.mem_range.mpr bound)).symm
  · rw [List.count_eq_zero_of_not_mem fun member => bound (visited.lt_size id member),
      List.count_eq_zero_of_not_mem fun member => bound (List.mem_range.mp member)]

theorem IsTree.connected (tree : IsTree tableau) {id : Nat} (bound : id < tableau.nodes.size) :
    Relation.ReflTransGen tableau.IsChild 0 id := by
  induction id using Nat.strongRecOn with
  | ind id ih =>
    by_cases root : id = 0
    · rw [root]
    · rcases exists_place_of_lt bound with ⟨place, known⟩
      rcases tree.hung id place known root with ⟨above, upper, _, smaller, knownUpper, once, _⟩
      rcases exists_node_of_placeAt? knownUpper with ⟨node, found, rfl⟩
      have member : id ∈ node.children :=
        List.count_pos_iff.mp (Nat.lt_of_lt_of_eq Nat.one_pos once.symm)
      exact (ih above smaller (Nat.lt_trans smaller bound)).tail ⟨node, found, member⟩

end Tableau

namespace Drawing

open Tableau

variable {tableau : Tableau} {strokes : Strokes} {column : Option Nat}

/-! ## Lines -/

/-- The strokes that lead past a node and those that end above it take up the same width. -/
structure Strokes.Even (strokes : Strokes) : Prop where
  blank : strokes.blank.length = strokes.width
  bar : strokes.bar.length = strokes.width

/-- A text is the line of a node, behind as many strokes as the node is deep. -/
def IsLine (strokes : Strokes) (column : Option Nat) (tableau : Tableau) (id : Nat)
    (text : String) : Prop :=
  ∃ node lead last, tableau.node? id = some node ∧
    lead.length = node.depth * strokes.width ∧ text = line strokes column lead last node

mutual

/-- Enough depth given, a drawing has the lines of the nodes that a visit comes to, in order. -/
theorem subtree_lines (tree : IsTree tableau) (even : strokes.Even) {id : Nat} {order : List Nat}
    (visited : Preorder tableau id order) {depth : Nat} (deep : tableau.nodes.size ≤ id + depth)
    {lead : String} (last : Bool) (indented : forall node, tableau.node? id = some node ->
      lead.length = node.depth * strokes.width) :
    List.Forall₂ (IsLine strokes column tableau) order
      (subtree strokes column tableau depth lead last id) := by
  match visited with
  | @Preorder.visit _ _ node order found below =>
    have bound := lt_of_placeAt? (placeAt?_eq_some found)
    obtain ⟨rest, rfl⟩ : ∃ rest, depth = rest + 1 := ⟨depth - 1, by omega⟩
    simp only [subtree, found]
    refine .cons ⟨node, lead, last, found, indented node found, rfl⟩ ?_
    refine subtrees_lines tree even below (fun child member => ?_)
      fun child member lower known => ?_
    · have larger := (tree.lt_of_child found member).1
      omega
    · have depth := tree.depth_child found member known
      have width : (if last then strokes.blank else strokes.bar).length = strokes.width := by
        cases last with
        | true => exact even.blank
        | false => exact even.bar
      rw [String.length_append, indented node found, width, depth, Nat.succ_mul]

theorem subtrees_lines (tree : IsTree tableau) (even : strokes.Even) {ids order : List Nat}
    (visited : PreorderAll tableau ids order) {depth : Nat}
    (deep : forall id, id ∈ ids -> tableau.nodes.size ≤ id + depth) {lead : String}
    (indented : forall id, id ∈ ids -> forall node, tableau.node? id = some node ->
      lead.length = node.depth * strokes.width) :
    List.Forall₂ (IsLine strokes column tableau) order ((withLast ids).flatMap fun (child, last) =>
        subtree strokes column tableau depth lead last child) := by
  match visited with
  | .nil => exact .nil
  | @PreorderAll.cons _ child rest first others here later =>
    simp only [withLast, List.flatMap_cons]
    refine List.rel_append ?_ ?_
    · exact subtree_lines tree even here (deep child List.mem_cons_self) _
        (indented child List.mem_cons_self)
    · exact subtrees_lines tree even later
        (fun id member => deep id (List.mem_cons_of_mem _ member))
        fun id member => indented id (List.mem_cons_of_mem _ member)

end

theorem tree_lines (tree : IsTree tableau) (even : strokes.Even) {order : List Nat}
    (visited : Preorder tableau 0 order) (showRules : Bool) :
    ∃ lines, Drawing.tree strokes showRules tableau = String.intercalate "\n" lines ∧
      List.Forall₂ (IsLine strokes (if showRules then some (widest strokes tableau) else none)
        tableau) order lines := by
  refine ⟨_, rfl, subtree_lines tree even visited (Nat.le_of_eq (Nat.zero_add _).symm) true ?_⟩
  intro node found
  have depth : node.depth = 0 := (tree.root _ (placeAt?_eq_some found)).2
  rw [depth, Nat.zero_mul]
  rfl

theorem shortStrokes_even : shortStrokes.Even := ⟨by decide, by decide⟩

theorem longStrokes_even : longStrokes.Even := ⟨by decide, by decide⟩

/-! ## Data -/

def field? (name : String) : Json -> Option Json
  | .object fields => Json.entry? name fields
  | _ => none

theorem field?_id (node : Node) : field? "id" (nodeData node) = some (.nat node.id) := by
  rfl

theorem field?_children (node : Node) :
    field? "children" (nodeData node) = some (.nats node.children) := by
  rfl

theorem field?_parent (node : Node) :
    field? "parent" (nodeData node) = node.parent.map Json.nat := by
  cases node with
  | mk id signed parent => cases parent <;> rfl

/-- In the data of a tree, a node lists another one as its child if and only if that one names it
as its parent. -/
theorem data_links (tree : IsTree tableau) (numbered : forall id node,
      tableau.node? id = some node -> node.id = id) :
    ∃ entries, field? "nodes" (data tableau) = some (.list entries) ∧
      entries.length = tableau.nodes.size ∧
      forall id entry, entries[id]? = some entry -> field? "id" entry = some (.nat id) ∧
        ∃ children, field? "children" entry = some (.nats children) ∧
          (forall child, child ∈ children -> child < tableau.nodes.size) ∧
          forall child lower, entries[child]? = some lower ->
            (child ∈ children ↔ field? "parent" lower = some (.nat id)) := by
  refine ⟨tableau.nodes.toList.map nodeData, rfl, by rw [List.length_map, Array.length_toList], ?_⟩
  have shown (id : Nat) (entry : Json)
      (found : (tableau.nodes.toList.map nodeData)[id]? = some entry) :
      ∃ node, tableau.node? id = some node ∧ entry = nodeData node := by
    rw [List.getElem?_map, Array.getElem?_toList] at found
    rcases Option.map_eq_some_iff.mp found with ⟨node, at_id, rfl⟩
    exact ⟨node, at_id, rfl⟩
  intro id entry found
  rcases shown id entry found with ⟨node, at_id, rfl⟩
  refine ⟨?_, node.children, field?_children node, ?_, ?_⟩
  · rw [field?_id, numbered id node at_id]
  · exact fun child member => (tree.lt_of_child at_id member).2
  · intro child lower known
    rcases shown child lower known with ⟨below, at_child, rfl⟩
    rw [field?_parent]
    constructor
    · intro member
      rcases tree.child_place at_id member with ⟨place, known', hangs, _⟩
      rw [placeAt?_eq_some at_child] at known'
      rw [<- Option.some.inj known'] at hangs
      rw [show below.parent = some id from hangs, Option.map_some]
    · intro named
      rcases Option.map_eq_some_iff.mp named with ⟨above, hangs, same⟩
      have number : above = id := Int.ofNat.inj (Json.int.inj same)
      rw [number] at hangs
      have once := tree.count_children at_id (placeAt?_eq_some at_child) hangs
      rw [if_pos rfl] at once
      exact List.count_pos_iff.mp (Nat.lt_of_lt_of_eq Nat.one_pos once.symm)

end Drawing

open Drawing Tableau

/-- The nodes of every tableau that is reached, in either calculus, form one tree.  They are
numbered from zero on, the first is the root, and every other one hangs under a node with a
smaller number, which lists it once, one step higher, and is reached from the root.  A drawing
with short or long strokes has one line for each node, in preorder, and the data list parents and
children that agree. -/
theorem Tableau.nodes_drawn_once [Memory] (logic : Logic) (formulas : List Signed)
    (tableau : Tableau)
    (reachable : Reachable logic formulas tableau) :
    tableau.nodes.toList.map Node.id = List.range tableau.nodes.size ∧
    (∃ root, tableau.node? 0 = some root ∧ root.parent = none ∧ root.depth = 0) ∧
    (forall id node, tableau.node? id = some node -> id ≠ 0 ->
      ∃ above upper, node.parent = some above ∧ above < id ∧ tableau.node? above = some upper ∧
        upper.children.count id = 1 ∧ node.depth = upper.depth + 1 ∧
        Relation.ReflTransGen tableau.IsChild 0 id) ∧
    (∃ order, Preorder tableau 0 order ∧ order.Perm (List.range tableau.nodes.size) ∧
      forall format strokes showRules,
        (format, strokes) ∈ [(Format.ascii, shortStrokes), (Format.unicode, longStrokes)] ->
        ∃ lines, draw tableau showRules format = String.intercalate "\n" lines ∧
          List.Forall₂ (IsLine strokes (if showRules then some (widest strokes tableau) else none)
            tableau) order lines) ∧
    (∃ entries, field? "nodes" (data tableau) = some (.list entries) ∧
      entries.length = tableau.nodes.size ∧
      forall id entry, entries[id]? = some entry -> field? "id" entry = some (.nat id) ∧
        ∃ children, field? "children" entry = some (.nats children) ∧
          (forall child, child ∈ children -> child < tableau.nodes.size) ∧
          forall child lower, entries[child]? = some lower ->
            (child ∈ children ↔ field? "parent" lower = some (.nat id))) := by
  have tree := reachable.isTree
  have numbered := reachable.regular.nodeNumbers
  have first : tableau.node? 0 = some _ := Array.getElem?_eq_getElem reachable.nodes_pos
  refine ⟨?_, ⟨_, first, tree.root _ (placeAt?_eq_some first)⟩, ?_, ?_, data_links tree numbered⟩
  · apply List.ext_getElem?
    intro id
    rw [List.getElem?_map, Array.getElem?_toList]
    by_cases bound : id < tableau.nodes.size
    · have found : tableau.nodes[id]? = some _ := Array.getElem?_eq_getElem bound
      rw [List.getElem?_range bound, found, Option.map_some, numbered id _ found]
    · rw [Array.getElem?_eq_none (Nat.le_of_not_lt bound), List.getElem?_eq_none]
      · rfl
      · rw [List.length_range]
        exact Nat.le_of_not_lt bound
  · intro id node found other
    rcases tree.hung id _ (placeAt?_eq_some found) other with
      ⟨above, place, hangs, smaller, known, once, depth⟩
    rcases exists_node_of_placeAt? known with ⟨upper, at_above, rfl⟩
    exact ⟨above, upper, hangs, smaller, at_above, once, depth,
      tree.connected (lt_of_placeAt? (placeAt?_eq_some found))⟩
  · rcases tree.exists_preorder reachable.nodes_pos with ⟨order, visited⟩
    refine ⟨order, visited, tree.preorder_perm visited, ?_⟩
    intro format strokes showRules member
    rcases List.mem_cons.mp member with equal | member
    · cases equal
      exact tree_lines tree shortStrokes_even visited showRules
    · cases List.mem_singleton.mp member
      exact tree_lines tree longStrokes_even visited showRules

open scoped Memory

/-- A denied disjunct: of the copies of the branch two close, and the nodes that close them are
drawn although they are on no branch. -/
theorem Tableau.closing_nodes_drawn : ∃ tableau order, ofFormulas .standard
        [⟨.f, .atom "p"⟩, ⟨.t, .join .disj (.atom "p") (.atom "q")⟩] false = .ok tableau ∧
      tableau.nodes.size = 5 ∧ Preorder tableau 0 order ∧ order.Perm (List.range 5) := by
  have finished : ∃ tableau, ofFormulas .standard
      [⟨.f, .atom "p"⟩, ⟨.t, .join .disj (.atom "p") (.atom "q")⟩] false = .ok tableau := ⟨_, rfl⟩
  rcases finished with ⟨tableau, finished⟩
  rcases nodes_drawn_once _ _ tableau (reachable_of_ofFormulas finished) with
    ⟨_, _, _, ⟨order, visited, perm, _⟩, _⟩
  have size : tableau.nodes.size = 5 := by
    cases finished
    rfl
  rw [size] at perm
  exact ⟨tableau, order, finished, size, visited, perm⟩

end WeakKleene
