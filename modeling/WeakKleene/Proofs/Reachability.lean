import WeakKleene.Proofs.Expansion

namespace WeakKleene
namespace Tableau

/-!
# The tableaux that a list of formulas leads to

A tableau starts with the formulas of a list on one branch.  From then on any
branch that is worked on may be expanded by any of its pending nodes:
`Advance` is one such expansion, whichever it is.  The order that a run
follows is one of many, so what holds along `Advance` depends neither on the
branch that comes first nor on the expansions that are preferred.
-/

/-! ## Computations that may fail -/

section Search

variable {α β ε : Type} {list : List α}

theorem return_eq_ok {computation : Except ε α} {change : α -> β} {result : β} :
    (do return change (<- computation)) = Except.ok result ↔
      ∃ value, computation = .ok value ∧ change value = result := by
  cases computation with
  | error fault => exact ⟨fun impossible => (by cases impossible), fun ⟨_, impossible, _⟩ =>
    by cases impossible⟩
  | ok value =>
    constructor
    · intro equal
      exact ⟨value, rfl, Except.ok.inj equal⟩
    · rintro ⟨other, equal, rfl⟩
      rw [Except.ok.inj equal]
      rfl

theorem exists_of_bind_eq_ok {first : Except ε α} {next : α -> Except ε β}
    {result : β} (done : (first >>= next) = .ok result) :
    ∃ value, first = .ok value ∧ next value = .ok result := by
  cases first with
  | error fault => cases done
  | ok value => exact ⟨value, rfl, done⟩

theorem mem_of_mapM {visit : α -> Except ε β} {results : List β}
    (visited : list.mapM visit = .ok results) :
    (forall result, result ∈ results -> ∃ element, element ∈ list ∧ visit element = .ok result) ∧
      forall element, element ∈ list ->
        ∃ result, result ∈ results ∧ visit element = .ok result := by
  induction list generalizing results with
  | nil =>
    rw [List.mapM_nil] at visited
    rw [<- Except.ok.inj visited]
    exact ⟨nofun,
      nofun⟩
  | cons first rest ih =>
    rw [List.mapM_cons] at visited
    cases atFirst : visit first with
    | error fault =>
      rw [atFirst] at visited
      cases visited
    | ok result =>
      cases atRest : rest.mapM visit with
      | error fault =>
        rw [atFirst, atRest] at visited
        cases visited
      | ok others =>
        rw [atFirst, atRest] at visited
        rw [<- Except.ok.inj visited]
        rcases ih atRest with ⟨back, forth⟩
        constructor
        · intro result' member
          rcases List.mem_cons.mp member with equal | later
          · exact ⟨first, List.mem_cons_self, by rw [equal, atFirst]⟩
          · rcases back result' later with ⟨element, there, outcome⟩
            exact ⟨element, List.mem_cons_of_mem _ there, outcome⟩
        · intro element member
          rcases List.mem_cons.mp member with equal | later
          · exact ⟨result, List.mem_cons_self, by rw [equal, atFirst]⟩
          · rcases forth element later with ⟨result', there, outcome⟩
            exact ⟨result', List.mem_cons_of_mem _ there, outcome⟩

theorem exists_of_mapM_eq_error {visit : α -> Except ε β} {error : ε}
    (failed : list.mapM visit = .error error) :
    ∃ element, element ∈ list ∧ visit element = .error error := by
  induction list with
  | nil => cases failed
  | cons first rest ih =>
    rw [List.mapM_cons] at failed
    cases atFirst : visit first with
    | error other =>
      rw [atFirst] at failed
      cases failed
      exact ⟨first, List.mem_cons_self, atFirst⟩
    | ok result =>
      rw [atFirst] at failed
      cases atRest : rest.mapM visit with
      | error other =>
        rw [atRest] at failed
        cases failed
        rcases ih atRest with ⟨element, later, outcome⟩
        exact ⟨element, List.mem_cons_of_mem _ later, outcome⟩
      | ok others =>
        rw [atRest] at failed
        cases failed

theorem exists_mapM_eq_ok {visit : α -> Except ε β}
    (succeeds : forall element, element ∈ list -> ∃ result, visit element = .ok result) :
    ∃ results, list.mapM visit = .ok results := by
  cases visited : list.mapM visit with
  | ok results => exact ⟨results, rfl⟩
  | error fault =>
    rcases exists_of_mapM_eq_error visited with ⟨element, member, failed⟩
    rcases succeeds element member with ⟨result, succeeded⟩
    rw [succeeded] at failed
    cases failed

variable {test : α -> Except ε Bool}

theorem eq_false_of_anyM (none_found : list.anyM test = .ok false) :
    forall element, element ∈ list -> test element = .ok false := by
  induction list with
  | nil => exact nofun
  | cons first rest ih =>
    intro element member
    rw [List.anyM] at none_found
    cases atFirst : test first with
    | error fault =>
      rw [atFirst] at none_found
      cases none_found
    | ok found =>
      rw [atFirst] at none_found
      cases found with
      | true => cases none_found
      | false =>
        rcases List.mem_cons.mp member with equal | later
        · rw [equal, atFirst]
        · exact ih none_found element later

/-- A search that does not run to the end stops at an element with its own result. -/
theorem exists_of_anyM {result : Except ε Bool} (found : list.anyM test = result)
    (stopped : result ≠ .ok false) : ∃ element, element ∈ list ∧ test element = result := by
  induction list with
  | nil => exact absurd found.symm stopped
  | cons first rest ih =>
    rw [List.anyM] at found
    cases atFirst : test first with
    | error fault =>
      rw [atFirst] at found
      exact ⟨first, List.mem_cons_self, atFirst.trans found⟩
    | ok holds =>
      rw [atFirst] at found
      cases holds with
      | true => exact ⟨first, List.mem_cons_self, atFirst.trans found⟩
      | false =>
        rcases ih found with ⟨element, member, outcome⟩
        exact ⟨element, List.mem_cons_of_mem _ member, outcome⟩

theorem exists_anyM_eq_ok
    (succeeds : forall element, element ∈ list -> ∃ result, test element = .ok result) :
    ∃ result, list.anyM test = .ok result := by
  cases searched : list.anyM test with
  | ok result => exact ⟨result, rfl⟩
  | error fault =>
    rcases exists_of_anyM searched nofun with ⟨element, member, failed⟩
    rcases succeeds element member with ⟨result, succeeded⟩
    rw [succeeded] at failed
    cases failed

end Search

theorem mem_of_preferred? {candidates : List (Nat × Expansion)} {best : Nat × Expansion}
    (chosen : preferred? candidates = some best) : best ∈ candidates := by
  cases candidates with
  | nil => cases chosen
  | cons first rest =>
    rw [preferred?, Option.some.injEq] at chosen
    rw [<- chosen]
    clear chosen
    induction rest generalizing first with
    | nil => exact List.mem_cons_self
    | cons next rest ih =>
      rw [List.foldl_cons]
      rcases List.mem_cons.mp (ih
        (if next.2.before first.2 then next else first)) with equal | later
      · rw [equal]
        split
        · exact List.mem_cons_of_mem _ List.mem_cons_self
        · exact List.mem_cons_self
      · exact List.mem_cons_of_mem _ (List.mem_cons_of_mem _ later)

variable {tableau : Tableau}

/-! ## Planting the initial formulas -/

/-- The tableau that initial formulas are planted in: one empty branch. -/
def blank (logic : Logic) (trace : Option Trace) : Tableau where
  logic := logic
  nodes := #[]
  branches := #[Branch.empty 0]
  opened := [0]
  closed := []
  constants := []
  trace := trace

theorem blank_branch (logic : Logic) (trace : Option Trace) :
    (blank logic trace).branch? 0 = some (Branch.empty 0) := rfl

theorem blank_regular (logic : Logic) (trace : Option Trace) : Regular (blank logic trace) where
  nodeNumbers := by
    intro id node found
    cases found
  branches := by
    intro id branch found
    cases id with
    | zero =>
      rw [<- Option.some.inj found]
      exact ⟨rfl, nofun,
        nofun, rfl⟩
    | succ id => cases found
  openedFound := by
    intro id member
    rw [List.mem_singleton.mp member]
    exact ⟨Branch.empty 0, rfl, rfl⟩
  openedDistinct := List.pairwise_singleton _ _

variable {logic : Logic} {formulas : List Signed} {found : Branch} {after : Tableau}

variable [Memory]

theorem start_eq {traced : Bool} (some_formula : formulas ≠ []) : start logic formulas traced =
      (blank logic (if traced then some (Trace.start formulas) else none)).plant none formulas := by
  rw [start, if_neg (by rwa [List.isEmpty_iff])]
  rfl

theorem plant_cons (previous : Option Nat) (signed : Signed) (rest : List Signed) :
    tableau.plant previous (signed :: rest) =
      match (tableau.branch? 0).bind fun branch =>
          tableau.refusal? branch tableau.nodes.size signed,
        tableau.add previous none 0 signed with
      | some fault, _ => .error fault
      | none, (settled, true) => .ok settled
      | none, (settled, false) => settled.plant (some tableau.nodes.size) rest := by
  rfl

section Plant

variable {previous : Option Nat} {found : Branch} {formulas : List Signed} {planted : Tableau}

/-- A first formula that is planted ends the planting, or the others go under it. -/
theorem add_of_plant {signed : Signed} {rest : List Signed}
    (result : tableau.plant previous (signed :: rest) = .ok planted) :
    tableau.add previous none 0 signed = (planted, true) ∨
      ∃ settled, tableau.add previous none 0 signed = (settled, false) ∧
        settled.plant (some tableau.nodes.size) rest = .ok planted := by
  rw [plant_cons] at result
  split at result
  · cases result
  · next equal =>
    rw [<- Except.ok.inj result]
    exact .inl equal
  · next settled _ equal => exact .inr ⟨settled, equal, result⟩

/-- Initial formulas prolong the first branch as the formulas of a conclusion do. -/
theorem plant_extension (regular : Regular tableau) (known : tableau.branch? 0 = some found)
    (unclosed : found.closure = none)
    (below : forall id, previous = some id -> id < tableau.nodes.size)
    (root : previous = none -> tableau.nodes.size = 0)
    (result : tableau.plant previous formulas = .ok planted) :
    ∃ closed, Extension tableau 0 found formulas (planted, closed) := by
  induction formulas generalizing tableau found previous with
  | nil =>
    rw [plant] at result
    rw [<- Except.ok.inj result]
    exact ⟨false, Extension.nil known unclosed⟩
  | cons signed rest ih =>
    -- Initial formulas are not looked up first: the same one may come twice.
    have change : Update tableau (tableau.add previous none 0 signed).1 :=
      .add _ _ _ known unclosed below root (fun impossible => absurd rfl impossible)
    have added := @add_added tableau _ previous none 0 signed found known
    rcases add_of_plant result with outcome | ⟨settled, outcome, result⟩
    · rw [outcome] at change
      exact ⟨true, Extension.cons_closing known rest regular change outcome⟩
    · have known' := (add_stays regular known (by rw [outcome])).2.1
      rw [outcome] at change added known'
      have below' : forall id, some tableau.nodes.size = some id -> id < settled.nodes.size := by
        intro id equal
        rw [<- Option.some.inj equal, added.size]
        exact Nat.lt_succ_self _
      rcases ih (regular.update change) known' unclosed below'
        (fun impossible => absurd impossible (Option.some_ne_none _)) result with
        ⟨closed, extension⟩
      exact ⟨closed, Extension.cons_staying known regular change outcome extension⟩

theorem plant_ok (known : tableau.branch? 0 = some found)
    (accepted : forall other : Tableau, other.logic = tableau.logic ->
      forall branch id signed, signed ∈ formulas -> other.refusal? branch id signed = none) :
    ∃ planted, tableau.plant previous formulas = .ok planted := by
  induction formulas generalizing tableau found previous with
  | nil => exact ⟨tableau, rfl⟩
  | cons signed rest ih =>
    have added := @add_added tableau _ previous none 0 signed found known
    rw [plant_cons, known, Option.bind_some, accepted tableau rfl found _ signed
      List.mem_cons_self]
    rcases @add_cases tableau _ previous none 0 signed found known with
      ⟨present, _, equal⟩ | ⟨_, equal⟩
    · rw [equal]
      exact ⟨_, rfl⟩
    · rcases node?_grow tableau previous none signed with ⟨node, at_new, _, _⟩
      have known' := (grow_branch? tableau previous none signed 0).trans known
      rw [equal] at added ⊢
      exact ih (register_branch_self at_new known')
        fun other logic branch id signed member => accepted other (logic.trans added.logic) branch
          id signed (List.mem_cons_of_mem _ member)

end Plant

theorem start_extension {traced : Bool}
    {initial : Tableau} (begun : start logic formulas traced = .ok initial) :
    formulas ≠ [] ∧ ∃ trace closed,
      Extension (blank logic trace) 0 (Branch.empty 0) formulas (initial, closed) := by
  have some_formula : formulas ≠ [] := by
    rintro rfl
    cases begun
  rw [start_eq some_formula] at begun
  rcases plant_extension (blank_regular _ _) (blank_branch _ _) rfl
    (fun _ impossible => by cases impossible) (fun _ => rfl) begun with ⟨closed, extension⟩
  exact ⟨some_formula, _, closed, extension⟩

theorem exists_start_of_accepted (traced : Bool) (some_formula : formulas ≠ [])
    (accepted : forall other : Tableau, other.logic = logic ->
      forall branch id signed, signed ∈ formulas -> other.refusal? branch id signed = none) :
    ∃ initial, start logic formulas traced = .ok initial := by
  rw [start_eq some_formula]
  exact plant_ok (blank_branch _ _) accepted

/-! ## Expanding any branch by any node -/

/-- One expansion of a pending node on a branch that is worked on. -/
inductive Advance : Tableau -> Tableau -> Prop where
  | expand {tableau : Tableau} {branch : Nat} {found : Branch} {node : Node}
      {expansion : Expansion} (worked : branch ∈ tableau.opened)
      (known : tableau.branch? branch = some found) (listed : node ∈ tableau.pending found)
      (proposed : tableau.expansion? node found = .ok (some expansion)) :
      Advance tableau (tableau.apply node.id branch expansion)

abbrev Advances : Tableau -> Tableau -> Prop := Relation.ReflTransGen Advance

/-- A tableau that some order of expansions leads to from the start. -/
def Reachable (logic : Logic) (formulas : List Signed) (tableau : Tableau) : Prop :=
  ∃ traced initial, start logic formulas traced = .ok initial ∧ Advances initial tableau

/-- Pending nodes stand on the branch and are not processed. -/
theorem mem_pending_iff {node : Node}
    (numbered : forall id node, tableau.node? id = some node -> node.id = id) :
    node ∈ tableau.pending found ↔ tableau.node? node.id = some node ∧
      node.id ∈ found.members ∧ node.id ∉ found.processed := by
  simp only [pending, List.mem_filter, mem_listed_iff, nodesOn, List.mem_filterMap,
    Bool.not_eq_true', List.contains_eq_mem, decide_eq_false_iff_not]
  constructor
  · rintro ⟨⟨id, member, at_id⟩, unprocessed⟩
    rw [numbered id node at_id] at unprocessed ⊢
    exact ⟨at_id, member, unprocessed⟩
  · rintro ⟨at_id, member, unprocessed⟩
    exact ⟨⟨node.id, member, at_id⟩, unprocessed⟩

theorem mem_contents_of_pending {node : Node} (regular : Regular tableau)
    (waiting : node ∈ tableau.pending found) :
    (node.id, node.signed) ∈ tableau.contents found ∧ node.id ∉ found.processed := by
  rcases (mem_pending_iff regular.nodeNumbers).mp waiting with ⟨at_id, member, unprocessed⟩
  exact ⟨mem_contents_iff.mpr ⟨member, by rw [signedAt?, at_id, Option.map_some]⟩, unprocessed⟩

theorem exists_pending_of_mem_contents {id : Nat} {signed : Signed}
    (regular : Regular tableau) (present : (id, signed) ∈ tableau.contents found)
    (unprocessed : id ∉ found.processed) :
    ∃ node, node ∈ tableau.pending found ∧ node.id = id ∧ node.signed = signed := by
  rcases mem_contents_iff.mp present with ⟨member, carried⟩
  rcases Option.map_eq_some_iff.mp carried with ⟨node, at_id, same⟩
  have number := regular.nodeNumbers id node at_id
  rw [<- number] at at_id member unprocessed
  exact ⟨node, (mem_pending_iff regular.nodeNumbers).mpr ⟨at_id, member, unprocessed⟩, number, same⟩

theorem Advance.updates (advance : Advance tableau after)
    (regular : Regular tableau) : Updates tableau after := by
  cases advance with
  | expand worked known listed proposed =>
    have member := ((mem_pending_iff regular.nodeNumbers).mp listed).2.1
    exact (apply_expanded _ regular known worked member).updates

theorem Regular.advances (regular : Regular tableau)
    (advances : Advances tableau after) : Regular after := by
  induction advances with
  | refl => exact regular
  | tail _ advance ih => exact ih.updates (advance.updates ih)

section

variable (reachable : Reachable logic formulas tableau)
include reachable

theorem Reachable.regular : Regular tableau := by
  rcases reachable with ⟨traced, initial, begun, advances⟩
  rcases start_extension begun with ⟨_, trace, closed, extension⟩
  exact ((blank_regular logic trace).updates extension.updates).advances advances

/-- What the start has and every expansion keeps, all reachable tableaux have. -/
theorem Reachable.of_advance
    (holds : Tableau -> Prop)
    (first : forall traced initial, start logic formulas traced = .ok initial -> holds initial)
    (step : forall {before after}, Reachable logic formulas before -> Advance before after ->
      holds before -> holds after) : holds tableau := by
  rcases reachable with ⟨traced, initial, begun, advances⟩
  induction advances with
  | refl => exact first traced initial begun
  | tail earlier advance ih => exact step ⟨traced, initial, begun, earlier⟩ advance ih

/-- Whatever is reached is reached by elementary changes. -/
theorem Reachable.updates :
    ∃ trace, Updates (blank logic trace) tableau := by
  rcases reachable with ⟨traced, initial, begun, advances⟩
  rcases start_extension begun with ⟨_, trace, closed, extension⟩
  refine ⟨trace, extension.updates.trans ?_⟩
  have regular := (blank_regular logic trace).updates extension.updates
  clear begun extension
  induction advances with
  | refl => exact .refl
  | tail earlier advance ih => exact ih.trans (advance.updates (regular.advances earlier))

/-- What the empty branch has and elementary changes hand on, all branches of a reachable tableau
have. -/
theorem Reachable.of_descent
    (holds : Tableau -> Branch -> Prop)
    (empty : forall trace, holds (blank logic trace) (Branch.empty 0))
    (step : forall {before after new}, Regular before -> before.logic = logic ->
      Grows before after ->
      (forall id found, before.branch? id = some found -> holds before found) ->
      Descent before after new -> holds after new)
    {id : Nat} (known : tableau.branch? id = some found) :
    holds tableau found := by
  rcases reachable.updates with ⟨trace, updates⟩
  refine (updates.of_descent (blank_regular logic trace) holds step ?_).2 id found known
  intro id first known'
  cases id with
  | zero =>
    rw [<- Option.some.inj known']
    exact empty trace
  | succ id => cases known'

end

/-! ## A run is one order of expansions -/

/-- A branch without anything left to expand. -/
def Saturated (tableau : Tableau) (found : Branch) : Prop :=
  forall node, node ∈ tableau.pending found -> tableau.expansion? node found = .ok none

/-- Every branch has closed, or some branch is saturated. -/
def Finished (tableau : Tableau) : Prop :=
  tableau.opened = [] ∨ ∃ id, id ∈ tableau.opened ∧
    ∃ found, tableau.branch? id = some found ∧ tableau.Saturated found

/-- Every branch has closed, or the first one is saturated. -/
def Halted (tableau : Tableau) : Prop :=
  tableau.opened = [] ∨ ∃ first others found, tableau.opened = first :: others ∧
    tableau.branch? first = some found ∧ tableau.Saturated found

theorem Halted.finished (halted : tableau.Halted) : tableau.Finished := by
  rcases halted with nothing | ⟨first, others, found, worked, known, saturated⟩
  · exact Or.inl nothing
  · refine Or.inr ⟨first, ?_, found, known, saturated⟩
    rw [worked]
    exact List.mem_cons_self

theorem mem_expansions (listed : tableau.expansions found = .ok candidates) :
    (forall candidate, candidate ∈ candidates -> ∃ node, node ∈ tableau.pending found ∧
      node.id = candidate.1 ∧ tableau.expansion? node found = .ok (some candidate.2)) ∧
      forall node, node ∈ tableau.pending found -> tableau.expansion? node found = .ok none ∨
        ∃ candidate, candidate ∈ candidates := by
  rcases return_eq_ok.mp listed with ⟨results, visited, equal⟩
  rcases mem_of_mapM visited with ⟨back, forth⟩
  rw [<- equal]
  constructor
  · intro candidate member
    rcases List.mem_filterMap.mp member with ⟨result, there, chosen⟩
    rcases back result there with ⟨node, waiting, outcome⟩
    rcases return_eq_ok.mp outcome with ⟨proposal, proposed, rfl⟩
    rcases Option.map_eq_some_iff.mp chosen with ⟨expansion, rfl, same⟩
    rw [<- same]
    exact ⟨node, waiting, rfl, proposed⟩
  · intro node waiting
    rcases forth node waiting with ⟨result, there, outcome⟩
    rcases return_eq_ok.mp outcome with ⟨proposal, proposed, rfl⟩
    cases proposal with
    | none => exact Or.inl proposed
    | some expansion => exact Or.inr ⟨(node.id, expansion), List.mem_filterMap.mpr ⟨_, there, rfl⟩⟩

theorem saturated_of_complete (complete : tableau.complete = .ok true) {id : Nat}
    (worked : id ∈ tableau.opened) (known : tableau.branch? id = some found) :
    tableau.Saturated found := by
  rcases return_eq_ok.mp complete with ⟨unfinished, searched, equal⟩
  rw [Bool.not_eq_true'] at equal
  rw [equal] at searched
  intro node waiting
  have nothing := eq_false_of_anyM (eq_false_of_anyM searched found
    (List.mem_filterMap.mpr ⟨id, worked, known⟩)) node waiting
  rcases return_eq_ok.mp nothing with ⟨proposal, proposed, absent⟩
  rw [proposed, Option.isSome_eq_false_iff.mp absent |> Option.isNone_iff_eq_none.mp]

theorem saturated_of_preferred?_eq_none (listed : tableau.expansions found = .ok candidates)
    (nothing : preferred? candidates = none) : tableau.Saturated found := by
  intro node waiting
  rcases (mem_expansions listed).2 node waiting with proposed | ⟨candidate, member⟩
  · exact proposed
  · cases candidates with
    | nil => cases member
    | cons first rest => cases nothing

/-- What the next expansion of a run is: none for a tableau that has halted, else one of the
first branch. -/
theorem next?_cases (regular : Regular tableau) {next : Option (Nat × Nat × Expansion)}
    (determined : tableau.next? = .ok next) :
    (next = none ∧ tableau.Halted) ∨
      ∃ branch found node expansion, next = some (branch, node.id, expansion) ∧
        branch ∈ tableau.opened ∧ tableau.branch? branch = some found ∧
        node ∈ tableau.pending found ∧
        tableau.expansion? node found = .ok (some expansion) := by
  unfold next? at determined
  cases completed : tableau.complete with
  | error fault =>
    rw [completed] at determined
    cases determined
  | ok complete =>
    rw [completed] at determined
    cases worked : tableau.opened with
    | nil =>
      rw [worked] at determined
      refine Or.inl ⟨?_, Or.inl worked⟩
      cases complete <;> exact (Except.ok.inj determined).symm
    | cons branch others =>
      have member : branch ∈ tableau.opened := by
        rw [worked]
        exact List.mem_cons_self
      rcases regular.openedFound branch member with ⟨found, known, _⟩
      cases complete with
      | true =>
        exact Or.inl ⟨(Except.ok.inj determined).symm, Or.inr ⟨branch, others, found,
          worked, known, saturated_of_complete completed member known⟩⟩
      | false =>
        -- Something is left to expand, but not necessarily on the first branch.
        simp only [worked, List.head?_cons, Option.bind_some, known] at determined
        rcases return_eq_ok.mp determined with ⟨candidates, listed, equal⟩
        cases chosen : preferred? candidates with
        | none =>
          rw [chosen] at equal
          exact Or.inl ⟨equal.symm, Or.inr ⟨branch, others, found, worked, known,
            saturated_of_preferred?_eq_none listed chosen⟩⟩
        | some best =>
          rcases (mem_expansions listed).1 best (mem_of_preferred? chosen) with
            ⟨node, waiting, number, proposed⟩
          rw [chosen, Option.map_some,
            (regular.branches branch found known).number, <- number] at equal
          exact Or.inr ⟨branch, found, node, best.2, equal.symm, List.mem_cons_self, known,
            waiting, proposed⟩

theorem advance_of_step? (regular : Regular tableau)
    (stepped : tableau.step? = .ok (some after)) : Advance tableau after := by
  rcases return_eq_ok.mp stepped with ⟨next, determined, equal⟩
  rcases next?_cases regular determined with
    ⟨nothing, _⟩ | ⟨branch, found, node, expansion, chosen, worked, known, waiting, proposed⟩
  · rw [nothing] at equal
    cases equal
  · rw [chosen] at equal
    rw [<- Option.some.inj equal]
    exact .expand worked known waiting proposed

/-- A run stops at tableaux that have halted only. -/
theorem halted_of_step? (regular : Regular tableau) (stopped : tableau.step? = .ok none) :
    tableau.Halted := by
  rcases return_eq_ok.mp stopped with ⟨next, determined, equal⟩
  rcases next?_cases regular determined with
    ⟨_, halted⟩ | ⟨branch, found, node, expansion, chosen, _⟩
  · exact halted
  · rw [chosen] at equal
    cases equal

theorem finished_of_step? (regular : Regular tableau) (stopped : tableau.step? = .ok none) :
    tableau.Finished :=
  (halted_of_step? regular stopped).finished

/-- A tableau without a pending node whose expansion has a fault. -/
def Faultless (tableau : Tableau) : Prop :=
  forall id found, id ∈ tableau.opened -> tableau.branch? id = some found ->
    forall node, node ∈ tableau.pending found ->
      ∃ proposal, tableau.expansion? node found = .ok proposal

theorem Faultless.complete (faultless : tableau.Faultless) :
    ∃ complete, tableau.complete = .ok complete := by
  have searched : ∃ unfinished, ((tableau.opened.filterMap tableau.branch?).anyM fun branch =>
      (tableau.pending branch).anyM fun node =>
        return (<- tableau.expansion? node branch).isSome) = .ok unfinished := by
    apply exists_anyM_eq_ok
    intro found member
    rcases List.mem_filterMap.mp member with ⟨id, worked, known⟩
    apply exists_anyM_eq_ok
    intro node waiting
    rcases faultless id found worked known node waiting with ⟨proposal, proposed⟩
    exact ⟨_, return_eq_ok.mpr ⟨proposal, proposed, rfl⟩⟩
  rcases searched with ⟨unfinished, outcome⟩
  exact ⟨!unfinished, return_eq_ok.mpr ⟨unfinished, outcome, rfl⟩⟩

theorem Faultless.step? (faultless : tableau.Faultless) : ∃ result, tableau.step? = .ok result := by
  have determined : ∃ next, tableau.next? = .ok next := by
    rcases faultless.complete with ⟨complete, completed⟩
    unfold next?
    rw [completed]
    cases complete with
    | true => exact ⟨none, rfl⟩
    | false =>
      cases first : tableau.opened.head?.bind tableau.branch? with
      | none => exact ⟨none, rfl⟩
      | some found =>
        rcases Option.bind_eq_some_iff.mp first with ⟨branch, head, known⟩
        have visited : ∃ results, ((tableau.pending found).mapM fun node => do
            return (<- tableau.expansion? node found).map fun expansion =>
              (node.id, expansion)) = .ok results := by
          apply exists_mapM_eq_ok
          intro node waiting
          rcases faultless branch found (List.mem_of_head? head) known node waiting with
            ⟨proposal, proposed⟩
          exact ⟨_, return_eq_ok.mpr ⟨proposal, proposed, rfl⟩⟩
        rcases visited with ⟨results, outcome⟩
        have listed : tableau.expansions found = .ok (results.filterMap id) :=
          return_eq_ok.mpr ⟨results, outcome, rfl⟩
        exact ⟨_, return_eq_ok.mpr ⟨_, listed, rfl⟩⟩
  rcases determined with ⟨next, determined⟩
  exact ⟨_, return_eq_ok.mpr ⟨next, determined, rfl⟩⟩

/-! ## Whole runs -/

/-- A run goes from expansion to expansion. -/
theorem advances_run (regular : Regular tableau) (bound : Nat) :
    Advances tableau (tableau.run bound).1 := by
  induction bound generalizing tableau with
  | zero =>
    rw [run]
    split <;> exact .refl
  | succ bound ih =>
    rw [run]
    split
    · next after stepped =>
      have advance := advance_of_step? regular stepped
      exact (ih (regular.updates (advance.updates regular))).head advance
    · exact .refl
    · exact .refl

theorem run_faultless {bound : Nat} (regular : Regular tableau)
    (faultless : forall later, Advances tableau later -> later.Faultless) :
    (tableau.run bound).2 = none := by
  induction bound generalizing tableau with
  | zero =>
    rcases (faultless tableau .refl).complete with ⟨complete, completed⟩
    rw [run, completed]
  | succ bound ih =>
    rcases (faultless tableau .refl).step? with ⟨result, stepped⟩
    rw [run, stepped]
    cases result with
    | none => rfl
    | some after =>
      have advance := advance_of_step? regular stepped
      exact ih (regular.updates (advance.updates regular))
        fun later advances => faultless later (advances.head advance)

theorem construct_eq (finished : (tableau.run stepBound).2 = none) :
    tableau.construct = .ok (tableau.run stepBound).1 := by
  rw [construct]
  generalize tableau.run stepBound = outcome at finished
  rcases outcome with ⟨final, fault⟩
  subst finished
  rfl

/-- Where expansions cannot go on forever and have no faults, a run ends, and a greater bound
changes nothing. -/
theorem run_ends (ends : Acc (fun after before => Advance before after) tableau)
    (regular : Regular tableau)
    (faultless : forall later, Advances tableau later -> later.Faultless) :
    ∃ steps final, (forall more, tableau.run (steps + more) = (final, none)) ∧
      Advances tableau final ∧ final.step? = .ok none := by
  induction ends with
  | intro tableau _ ih =>
    rcases (faultless tableau .refl).step? with ⟨result, stepped⟩
    cases result with
    | none =>
      refine ⟨0, tableau, ?_, .refl, stepped⟩
      intro more
      rw [Nat.zero_add]
      cases more with
      | zero =>
        -- Even without steps a run asks whether the tableau is complete.
        rcases (faultless tableau .refl).complete with ⟨complete, completed⟩
        rw [run, completed]
      | succ more => rw [run, stepped]
    | some after =>
      have advance := advance_of_step? regular stepped
      rcases ih after advance (regular.updates (advance.updates regular))
        (fun later advances => faultless later (advances.head advance)) with
          ⟨steps, final, same, advances, stopped⟩
      refine ⟨steps + 1, final, ?_, advances.head advance, stopped⟩
      intro more
      rw [Nat.add_right_comm, run, stepped]
      exact same more

end Tableau
end WeakKleene
