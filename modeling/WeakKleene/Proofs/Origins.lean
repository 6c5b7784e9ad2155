import WeakKleene.Proofs.NodeTree

namespace WeakKleene

/-!
# Where nodes come from

A node remembers the node that it was hung under and the rule that put it there.
Both are set when it is created and never change.  Initial formulas come by no
rule.  An application of a rule puts all of its nodes under the one node that it
expands, on whichever branches that happens, so the origin of a node tells which
applications may have created it.
-/

def Node.origin (node : Node) : Option Nat × Option String := (node.parent, node.rule)

/-- How a node came into the tree: its origin and the formula that it carries. -/
def Node.birth (node : Node) : Option Nat × Option String × Signed :=
  (node.parent, node.rule, node.signed)

namespace Tableau

variable {tableau after : Tableau}

/-! ## Where nodes come from -/

def originAt? (tableau : Tableau) (id : Nat) : Option (Option Nat × Option String) :=
  (tableau.node? id).map Node.origin

def birthAt? (tableau : Tableau) (id : Nat) : Option (Option Nat × Option String × Signed) :=
  (tableau.node? id).map Node.birth

theorem originAt?_eq_birthAt? (tableau : Tableau) (id : Nat) :
    tableau.originAt? id = (tableau.birthAt? id).map fun birth => (birth.1, birth.2.1) := by
  rw [birthAt?, Option.map_map]
  rfl

theorem birthAt?_grow (tableau : Tableau) (parent : Option Nat) (rule : Option String)
    (signed : Signed) (id : Nat) : (tableau.grow parent rule signed).1.birthAt? id =
      if id = tableau.nodes.size then some (parent, rule, signed) else tableau.birthAt? id := by
  cases parent with
  | none =>
    simp only [grow, birthAt?, node?, Array.getElem?_push]
    split <;> rfl
  | some above =>
    have kept := @map_node?_modifyNode tableau _ Node.birth
      (fun node => { node with children := node.children ++ [tableau.nodes.size] })
      (fun _ => rfl) above id
    simp only [grow, birthAt?, node?, Array.getElem?_push, modifyNode, Array.size_modify]
    split
    · rfl
    · exact kept

theorem settle_trace [Memory] (tableau : Tableau) (id branch : Nat) :
    (tableau.settle id branch).1.trace = tableau.trace := by
  unfold settle close register
  dsimp only
  split
  · split
    · split <;> rfl
    · split <;> rfl
  · rfl

section Add

variable [Memory]
variable (tableau : Tableau) (parent : Option Nat) (rule : Option String) (branch : Nat)
variable (signed : Signed)

theorem add_size : (tableau.add parent rule branch signed).1.nodes.size = tableau.nodes.size + 1 :=
  (settle_sameTree _ _ _).size.trans (grow_size tableau parent rule signed)

theorem add_trace : (tableau.add parent rule branch signed).1.trace = tableau.trace := by
  refine (settle_trace _ _ _).trans ?_
  cases parent <;> rfl

theorem birthAt?_add (id : Nat) : (tableau.add parent rule branch signed).1.birthAt? id =
    if id = tableau.nodes.size then some (parent, rule, signed) else tableau.birthAt? id :=
  ((settle_sameTree _ _ _).view (fun _ => rfl) id).trans
    (birthAt?_grow tableau parent rule signed id)

end Add

/-- What an application does before it is recorded: new nodes come in a way that fits, and the
other nodes and the trace are as they were. -/
structure Sprouts (fits : Option Nat × Option String × Signed -> Prop) (before after : Tableau) :
    Prop where
  size : before.nodes.size ≤ after.nodes.size
  old : forall id, id < before.nodes.size -> after.birthAt? id = before.birthAt? id
  new : forall id, before.nodes.size ≤ id -> id < after.nodes.size ->
    ∃ birth, fits birth ∧ after.birthAt? id = some birth
  trace : after.trace = before.trace

namespace Sprouts

variable {fits : Option Nat × Option String × Signed -> Prop}

theorem of_same (same : SameTree tableau after) (trace : after.trace = tableau.trace) :
    Sprouts fits tableau after where
  size := Nat.le_of_eq same.size.symm
  old := fun id _ => same.view (fun _ => rfl) id
  new := fun _ beyond bound => absurd (same.size ▸ bound) (Nat.not_lt.mpr beyond)
  trace := trace

theorem trans {middle : Tableau} (first : Sprouts fits tableau middle)
    (second : Sprouts fits middle after) : Sprouts fits tableau after where
  size := Nat.le_trans first.size second.size
  old := fun id bound =>
    (second.old id (Nat.lt_of_lt_of_le bound first.size)).trans (first.old id bound)
  new := by
    intro id beyond bound
    by_cases early : id < middle.nodes.size
    · rw [second.old id early]
      exact first.new id beyond early
    · exact second.new id (Nat.le_of_not_lt early) bound
  trace := second.trace.trans first.trace

variable [Memory]

theorem add {parent : Option Nat} {rule : Option String} {signed : Signed}
    (fit : fits (parent, rule, signed)) (branch : Nat) :
    Sprouts fits tableau (tableau.add parent rule branch signed).1 where
  size := by
    rw [add_size]
    exact Nat.le_succ _
  old := by
    intro id bound
    rw [birthAt?_add, if_neg (Nat.ne_of_lt bound)]
  new := by
    intro id beyond bound
    rw [add_size] at bound
    exact ⟨_, fit, by rw [birthAt?_add, if_pos (by omega)]⟩
  trace := add_trace _ _ _ _ _

theorem plant {previous : Option Nat} {formulas : List Signed}
    (fit : forall signed, signed ∈ formulas -> forall above, fits (above, none, signed))
    (planted : tableau.plant previous formulas = .ok after) : Sprouts fits tableau after := by
  induction formulas generalizing tableau previous with
  | nil =>
    rw [<- Except.ok.inj planted]
    exact of_same (.refl _) rfl
  | cons signed rest ih =>
    rcases List.forall_mem_cons.mp fit with ⟨first, others⟩
    have added := @add tableau fits _ previous none signed (first previous) 0
    rcases add_of_plant planted with outcome | ⟨settled, outcome, planted⟩ <;>
      rw [outcome] at added
    · exact added
    · exact added.trans (ih others planted)

variable {source : Nat} {rule : String}

theorem extend {conclusion : List Signed}
    (fit : forall part, part ∈ conclusion -> fits (some source, some rule, part)) (branch : Nat) :
    Sprouts fits tableau (tableau.extend source branch rule conclusion).1 := by
  induction conclusion generalizing tableau with
  | nil => exact of_same (.refl _) rfl
  | cons signed rest ih =>
    rcases List.forall_mem_cons.mp fit with ⟨first, others⟩
    have added := @add tableau fits _ _ _ signed first branch
    rw [extend_cons]
    split
    · exact ih others
    · split
      · next outcome =>
        rw [outcome] at added
        exact added
      · next outcome =>
        rw [outcome] at added
        exact added.trans (ih others)

theorem split {conclusions : List (List Signed)}
    (fit : forall conclusion, conclusion ∈ conclusions -> forall part, part ∈ conclusion ->
      fits (some source, some rule, part)) (branch : Nat) :
    Sprouts fits tableau (tableau.split source branch rule conclusions) := by
  induction conclusions generalizing tableau with
  | nil => exact of_same (.refl _) rfl
  | cons conclusion rest ih =>
    rcases List.forall_mem_cons.mp fit with ⟨first, others⟩
    have forked : Sprouts fits tableau (tableau.fork branch).1 := by
      refine of_same (fork_sameTree tableau branch) ?_
      unfold Tableau.fork
      dsimp only
      split <;> rfl
    have copied := forked.trans (extend first tableau.branches.size)
    rw [split_cons]
    refine copied.trans (trans (of_same ?_ ?_) (ih others))
    · split <;> next outcome =>
        rw [outcome]
        exact ⟨rfl, fun _ => rfl⟩
    · split <;> next outcome => rw [outcome]

theorem expand {expansion : Expansion}
    (fit : forall conclusion, conclusion ∈ expansion.conclusions -> forall part,
      part ∈ conclusion -> fits (some source, some expansion.name, part)) (branch : Nat) :
    Sprouts fits tableau (tableau.expand source branch expansion).1 := by
  have marked : Sprouts fits tableau (tableau.modifyBranch branch fun found =>
      found.mark source expansion.constant) := of_same ⟨rfl, fun _ => rfl⟩ rfl
  unfold Tableau.expand
  dsimp only
  split
  · next single => exact marked.trans (extend (fit _ (single ▸ List.mem_cons_self)) branch)
  · refine marked.trans (trans ?_ (split fit branch))
    exact of_same ⟨rfl, fun _ => rfl⟩ rfl

end Sprouts

section Start

variable [Memory]
variable {logic : Logic} {formulas : List Signed} {initial : Tableau}

/-- Initial formulas are put into the tree by no rule, and the trace is not touched. -/
theorem start_sprouts {traced : Bool} (begun : start logic formulas traced = .ok initial) :
    Sprouts (fun birth => birth.2.1 = none ∧ birth.2.2 ∈ formulas)
      (blank logic (if traced then some (Trace.start formulas) else none)) initial := by
  rw [start_eq (start_extension begun).1] at begun
  exact .plant (fun _ member _ => ⟨rfl, member⟩) begun

theorem start_trace (begun : start logic formulas true = .ok initial) :
    initial.trace = some (Trace.start formulas) := (start_sprouts begun).trace

end Start

variable {id : Nat} {origin : Option Nat × Option String}

theorem IsTree.mem_children_iff (tree : IsTree tableau) {source : Nat} {node : Node}
    (known : tableau.node? source = some node) :
    id ∈ node.children ↔ ∃ child, tableau.node? id = some child ∧ child.parent = some source := by
  constructor
  · intro listed
    rcases tree.children source node.place id (placeAt?_eq_some known) listed with
      ⟨lower, found, hangs⟩
    rcases exists_node_of_placeAt? found with ⟨child, knownChild, rfl⟩
    exact ⟨child, knownChild, hangs⟩
  · rintro ⟨child, knownChild, hangs⟩
    have place := placeAt?_eq_some knownChild
    have other : id ≠ 0 := by
      rintro rfl
      exact absurd ((tree.root _ place).1.symm.trans hangs) (by simp)
    rcases tree.hung id _ place other with ⟨above, upper, hangs', _, knownAbove, once, _⟩
    have same : above = source := Option.some.inj (hangs'.symm.trans hangs)
    rw [same, placeAt?_eq_some known] at knownAbove
    rw [<- Option.some.inj knownAbove] at once
    exact List.count_pos_iff.mp (by rw [show node.children.count id = 1 from once]; decide)

theorem originAt?_eq_some_iff :
    tableau.originAt? id = some origin ↔ ∃ node, tableau.node? id = some node ∧
      node.parent = origin.1 ∧ node.rule = origin.2 := by
  rw [originAt?, Option.map_eq_some_iff]
  refine exists_congr fun node => and_congr_right fun _ => ?_
  rw [Node.origin, Prod.ext_iff]

theorem lt_of_originAt? (found : tableau.originAt? id = some origin) : id < tableau.nodes.size := by
  rcases originAt?_eq_some_iff.mp found with ⟨node, known, _⟩
  exact (Array.getElem?_eq_some_iff.mp known).1

theorem start_unruled [Memory] {logic : Logic} {formulas : List Signed} {traced : Bool}
    {initial : Tableau} (begun : start logic formulas traced = .ok initial)
    (found : initial.originAt? id = some origin) :
    origin.2 = none := by
  rcases (start_sprouts begun).new id (Nat.zero_le id) (lt_of_originAt? found) with
    ⟨birth, unruled, known⟩
  rw [originAt?_eq_birthAt?, known] at found
  rw [<- Option.some.inj found]
  exact unruled.1

end Tableau
end WeakKleene
