import Mathlib.Data.List.Count
import WeakKleene.Proofs.Reachability

namespace WeakKleene

/-!
# The nodes form one tree

Initial formulas hang one under the other, and what a rule concludes hangs under
the node that it was applied to, on whichever branch that happens.  A node that
closes a branch is in the tree although it is on no branch.

Where a node stands is set when it is created.  Later only its children change,
by new ones that are put behind them; closing, registering and copying write to
other fields.  So the invariant has to be checked where the tree grows.
-/

structure Place where
  parent : Option Nat
  children : List Nat
  depth : Nat

def Node.place (node : Node) : Place := ⟨node.parent, node.children, node.depth⟩

def Place.adopt (child : Nat) (place : Place) : Place :=
  { place with children := place.children ++ [child] }

namespace Tableau

variable {tableau after : Tableau}

def placeAt? (tableau : Tableau) (id : Nat) : Option Place := (tableau.node? id).map Node.place

variable {id : Nat} {logic : Logic} {formulas : List Signed} {place : Place}

theorem placeAt?_eq_some {node : Node} (found : tableau.node? id = some node) :
    tableau.placeAt? id = some node.place := by
  rw [placeAt?, found, Option.map_some]

theorem exists_node_of_placeAt? (found : tableau.placeAt? id = some place) :
    ∃ node, tableau.node? id = some node ∧ node.place = place :=
  Option.map_eq_some_iff.mp found

theorem lt_of_placeAt? (found : tableau.placeAt? id = some place) :
    id < tableau.nodes.size := by
  rcases exists_node_of_placeAt? found with ⟨node, at_id, _⟩
  exact (Array.getElem?_eq_some_iff.mp at_id).1

theorem exists_place_of_lt (bound : id < tableau.nodes.size) :
    ∃ place, tableau.placeAt? id = some place :=
  ⟨_, placeAt?_eq_some (Array.getElem?_eq_getElem bound)⟩

def SamePlaces (before after : Tableau) : Prop := forall id, after.placeAt? id = before.placeAt? id

/-! ## Growing the tree -/

def placeUnder (tableau : Tableau) (parent : Option Nat) : Place where
  parent := parent
  children := []
  depth := ((parent.bind tableau.placeAt?).map fun above => above.depth + 1).getD 0

theorem placeAt?_grow_new (tableau : Tableau) (parent : Option Nat) (rule : Option String)
    (signed : Signed) : (tableau.grow parent rule signed).1.placeAt? tableau.nodes.size =
      some (tableau.placeUnder parent) := by
  have depth : ((parent.bind tableau.placeAt?).map fun above => above.depth + 1) =
      (parent.bind tableau.node?).map fun node => node.depth + 1 := by
    cases parent with
    | none => rfl
    | some above =>
      simp only [Option.bind_some, placeAt?, Option.map_map]
      rfl
  rw [placeUnder, depth]
  cases parent with
  | none =>
    simp only [grow, placeAt?, node?, Array.getElem?_push_size, Option.map_some]
    rfl
  | some above =>
    simp only [grow, placeAt?, node?, modifyNode, Array.getElem?_push, Array.size_modify, if_true,
      Option.map_some]
    rfl

theorem placeAt?_grow_old (tableau : Tableau) (parent : Option Nat) (rule : Option String)
    (signed : Signed) (old : id ≠ tableau.nodes.size) :
    (tableau.grow parent rule signed).1.placeAt? id =
      if parent = some id then (tableau.placeAt? id).map (Place.adopt tableau.nodes.size)
      else tableau.placeAt? id := by
  cases parent with
  | none => simp [grow, placeAt?, node?, Array.getElem?_push, old]
  | some above =>
    simp only [grow, placeAt?, node?, modifyNode, Array.getElem?_push, Array.size_modify,
      if_neg old, Array.getElem?_modify, Option.some.injEq]
    split
    · rw [Option.map_map, Option.map_map]
      rfl
    · rfl

/-! ## The invariant -/

/-- Every node but the first hangs under one with a smaller number, which has it once among its
children and stands one step higher; and nobody has other children. -/
structure IsTree (tableau : Tableau) : Prop where
  root : forall place, tableau.placeAt? 0 = some place -> place.parent = none ∧ place.depth = 0
  hung : forall id place, tableau.placeAt? id = some place -> id ≠ 0 ->
    ∃ above upper, place.parent = some above ∧ above < id ∧
      tableau.placeAt? above = some upper ∧ upper.children.count id = 1 ∧
      place.depth = upper.depth + 1
  children : forall id place child, tableau.placeAt? id = some place ->
    child ∈ place.children -> ∃ lower, tableau.placeAt? child = some lower ∧ lower.parent = some id

namespace IsTree

theorem of_same (tree : IsTree tableau) (same : SamePlaces tableau after) : IsTree after where
  root := by
    intro place found
    rw [same] at found
    exact tree.root place found
  hung := by
    intro id place found other
    rw [same] at found
    rcases tree.hung id place found other with ⟨above, upper, hangs, smaller, known, rest⟩
    exact ⟨above, upper, hangs, smaller, (same above).trans known, rest⟩
  children := by
    intro id place child found member
    rw [same] at found
    rcases tree.children id place child found member with ⟨lower, known, hangs⟩
    exact ⟨lower, (same child).trans known, hangs⟩

theorem blank (logic : Logic) (trace : Option Trace) : IsTree (blank logic trace) where
  root := by
    intro place found
    cases found
  hung := by
    intro id place found
    cases found
  children := by
    intro id place child found
    cases found

theorem size_not_mem (tree : IsTree tableau) {id : Nat}
    (found : tableau.placeAt? id = some place) : tableau.nodes.size ∉ place.children := by
  intro member
  rcases tree.children id place _ found member with ⟨lower, known, _⟩
  exact absurd (lt_of_placeAt? known) (Nat.lt_irrefl _)

section Grow

variable {parent : Option Nat} {rule : Option String} {signed : Signed}

/-- An old node is where it was, and may have the new one as an additional child. -/
theorem place_of_grow {id : Nat} (old : id ≠ tableau.nodes.size)
    (found : (tableau.grow parent rule signed).1.placeAt? id = some place) :
    ∃ before, tableau.placeAt? id = some before ∧ place.parent = before.parent ∧
      place.depth = before.depth ∧
      place.children =
        before.children ++ if parent = some id then [tableau.nodes.size] else [] := by
  rw [placeAt?_grow_old tableau parent rule signed old] at found
  split at found
  · next hangs =>
    rcases Option.map_eq_some_iff.mp found with ⟨before, known, rfl⟩
    exact ⟨before, known, rfl, rfl, by rw [if_pos hangs]; rfl⟩
  · next elsewhere =>
    exact ⟨place, found, rfl, rfl, by rw [if_neg elsewhere, List.append_nil]⟩

theorem grow_place {id : Nat} {before : Place} (found : tableau.placeAt? id = some before) :
    ∃ place, (tableau.grow parent rule signed).1.placeAt? id = some place ∧
      place.parent = before.parent ∧ place.depth = before.depth ∧
      place.children =
        before.children ++ if parent = some id then [tableau.nodes.size] else [] := by
  have old : id ≠ tableau.nodes.size := Nat.ne_of_lt (lt_of_placeAt? found)
  rw [placeAt?_grow_old tableau parent rule signed old, found]
  split
  · exact ⟨_, rfl, rfl, rfl, rfl⟩
  · exact ⟨before, rfl, rfl, rfl, (List.append_nil _).symm⟩

/-- A tree grows by a root if it is empty, and else by a node under one that exists. -/
theorem grow (tree : IsTree tableau)
    (below : forall id, parent = some id -> id < tableau.nodes.size)
    (root : parent = none -> tableau.nodes.size = 0) :
    IsTree (tableau.grow parent rule signed).1 where
  root := by
    intro place found
    by_cases new : 0 = tableau.nodes.size
    · rw [new, placeAt?_grow_new] at found
      rw [<- Option.some.inj found]
      cases parent with
      | none => exact ⟨rfl, rfl⟩
      | some above =>
        have bound := below above rfl
        omega
    · rcases place_of_grow new found with ⟨before, known, same, depth, _⟩
      rw [same, depth]
      exact tree.root before known
  hung := by
    intro id place found other
    by_cases new : id = tableau.nodes.size
    · rw [new, placeAt?_grow_new] at found
      rw [<- Option.some.inj found, new]
      cases parent with
      | none => exact absurd (new.trans (root rfl)) other
      | some above =>
        have bound := below above rfl
        rcases exists_place_of_lt bound with ⟨before, known⟩
        rcases @grow_place tableau (some above) rule signed above before known with
          ⟨upper, known', _, depth, children⟩
        refine ⟨above, upper, rfl, bound, known', ?_, ?_⟩
        · rw [children, if_pos rfl, List.count_append, List.count_singleton_self,
            List.count_eq_zero_of_not_mem (tree.size_not_mem known)]
        · simp only [placeUnder, Option.bind_some, known, Option.map_some, Option.getD_some, depth]
    · rcases place_of_grow new found with ⟨before, known, same, depth, _⟩
      rcases tree.hung id before known other with ⟨above, old, hangs, smaller, knownOld, once, step⟩
      rcases @grow_place tableau parent rule signed above old knownOld with
        ⟨upper, knownUpper, _, depthUpper, children⟩
      refine ⟨above, upper, same.trans hangs, smaller, knownUpper, ?_, ?_⟩
      · rw [children, List.count_append, once]
        split
        · rw [List.count_singleton, if_neg (by simpa using Ne.symm new)]
        · rfl
      · rw [depth, step, depthUpper]
  children := by
    intro id place child found member
    by_cases new : id = tableau.nodes.size
    · rw [new, placeAt?_grow_new] at found
      rw [<- Option.some.inj found] at member
      cases member
    · rcases place_of_grow new found with ⟨before, known, _, _, children⟩
      rw [children, List.mem_append] at member
      rcases member with listed | added
      · rcases tree.children id before child known listed with ⟨lower, knownLower, hangs⟩
        rcases @grow_place tableau parent rule signed child lower knownLower with
          ⟨later, knownLater, same, _, _⟩
        exact ⟨later, knownLater, same.trans hangs⟩
      · split at added
        · next hangs =>
          rw [List.mem_singleton.mp added]
          exact ⟨_, placeAt?_grow_new tableau parent rule signed, hangs⟩
        · cases added

end Grow

theorem update [Memory] (tree : IsTree tableau) (change : Update tableau after) : IsTree after := by
  cases change with
  | @add branch found parent rule signed known unclosed below root missing =>
    have grown := @grow tableau parent rule signed tree below root
    exact grown.of_same ((settle_sameTree _ _ _).view fun _ => rfl)
  | fork => exact tree.of_same ((fork_sameTree _ _).view fun _ => rfl)
  | mark | takeUp | release | record => exact tree.of_same fun _ => rfl

end IsTree

theorem Reachable.isTree [Memory] (reachable : Reachable logic formulas tableau) :
    IsTree tableau := by
  rcases reachable.updates with ⟨trace, updates⟩
  clear reachable
  induction updates with
  | refl => exact .blank logic trace
  | tail _ change ih => exact ih.update change

theorem start_nodes [Memory] {traced : Bool} {initial : Tableau}
    (begun : start logic formulas traced = .ok initial) : 0 < initial.nodes.size := by
  have someFormula := (start_extension begun).1
  rw [start_eq someFormula] at begun
  cases formulas with
  | nil => exact absurd rfl someFormula
  | cons signed rest =>
    have regular := blank_regular logic
      (if traced then some (Trace.start (signed :: rest)) else none)
    have known := blank_branch logic (if traced then some (Trace.start (signed :: rest)) else none)
    have size := (@add_added _ _ none none 0 signed _ known).size
    have positive := Nat.lt_of_lt_of_eq (Nat.succ_pos _) size.symm
    rcases add_of_plant begun with outcome | ⟨settled, outcome, begun⟩
    · rwa [outcome] at positive
    · have regular' := @Regular.add _ _ none none 0 signed _ regular known rfl
      have known' := (add_stays regular known (by rw [outcome])).2.1
      rw [outcome] at positive regular' known'
      rcases plant_extension regular' known' rfl
        (fun id equal => by rw [<- Option.some.inj equal]; exact positive)
        (fun impossible => by cases impossible) begun with ⟨closed, extension⟩
      exact Nat.lt_of_lt_of_le positive extension.frame.grows.size

theorem Reachable.nodes_pos [Memory]
    (reachable : Reachable logic formulas tableau) : 0 < tableau.nodes.size := by
  refine reachable.of_advance (fun tableau => 0 < tableau.nodes.size)
    (fun _ _ begun => start_nodes begun) ?_
  intro before after reached advance positive
  exact Nat.lt_of_lt_of_le positive (advance.updates reached.regular).grows.size

end Tableau
end WeakKleene
