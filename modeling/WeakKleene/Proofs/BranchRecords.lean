import Mathlib.Data.List.Nodup
import Mathlib.Data.List.Pairwise
import WeakKleene.Proofs.FreshConstants
import WeakKleene.Proofs.Lineage

namespace WeakKleene

/-!
# What a branch records about itself

Beside its nodes a branch keeps an index of them, its constants, the nodes that
need no further rule, and the constants that universal formulas were
instantiated with.  Contradictions, models and the choice of rules rely on these
records.  In every reachable tableau, of either calculus and with any evaluator,
they agree with the nodes, and nodes that rules add never repeat one that is
there.

A branch that is neither worked on nor closed was given up for copies: rules
always have a conclusion, so one that is given up has at least two copies, and
each of them carries its nodes ever after.
-/

variable {name : String}

namespace Formula

/-! ## The terms in a formula -/

/-- A term is an argument somewhere in a formula. -/
inductive Occurs (term : Term) : Formula -> Prop where
  | pred {name : String} {args : List Term} (listed : term ∈ args) : Occurs term (.pred name args)
  | bilateral {name star : String} {args : List Term} {starred : Bool} (listed : term ∈ args) :
      Occurs term (.bilateral name args star starred)
  | neg {body : Formula} (inside : Occurs term body) : Occurs term (.neg body)
  | left {connective : Connective} {left right : Formula} (inside : Occurs term left) :
      Occurs term (.join connective left right)
  | right {connective : Connective} {left right : Formula} (inside : Occurs term right) :
      Occurs term (.join connective left right)
  | restriction {quantifier : Quantifier} {var : String} {restriction matrix : Formula}
      (inside : Occurs term restriction) : Occurs term (.quant quantifier var restriction matrix)
  | matrix {quantifier : Quantifier} {var : String} {restriction matrix : Formula}
      (inside : Occurs term matrix) : Occurs term (.quant quantifier var restriction matrix)
  | part {symbol : String} {parts : List Formula} {part : Formula} (listed : part ∈ parts)
      (inside : Occurs term part) : Occurs term (.irregular symbol parts)

theorem mem_constantNames_iff {args : List Term} :
    name ∈ (args.filter Term.isConst).map Term.name ↔ .const name ∈ args := by
  constructor
  · intro member
    rcases List.mem_map.mp member with ⟨term, listed, rfl⟩
    rcases List.mem_filter.mp listed with ⟨given, constant⟩
    cases term with
    | const => exact given
    | var => cases constant
  · intro given
    exact List.mem_map.mpr ⟨.const name, List.mem_filter.mpr ⟨given, rfl⟩, rfl⟩

mutual

theorem occurs_of_mem_constants (formula : Formula)
    (member : name ∈ formula.constants) : formula.Occurs (.const name) := by
  match formula with
  | .atom _ => cases member
  | .pred _ args => exact .pred (mem_constantNames_iff.mp member)
  | .bilateral _ args _ _ => exact .bilateral (mem_constantNames_iff.mp member)
  | .neg body => exact .neg (occurs_of_mem_constants body member)
  | .join _ left right =>
    rcases List.mem_append.mp member with here | there
    · exact .left (occurs_of_mem_constants left here)
    · exact .right (occurs_of_mem_constants right there)
  | .quant _ _ restriction matrix =>
    rcases List.mem_append.mp member with here | there
    · exact .restriction (occurs_of_mem_constants restriction here)
    · exact .matrix (occurs_of_mem_constants matrix there)
  | .irregular _ parts =>
    rcases occurs_of_mem_constantsOf parts member with ⟨part, listed, inside⟩
    exact .part listed inside

theorem occurs_of_mem_constantsOf (parts : List Formula) (member : name ∈ constantsOf parts) :
    ∃ part, part ∈ parts ∧ part.Occurs (.const name) := by
  match parts with
  | [] => cases member
  | part :: rest =>
    rcases List.mem_append.mp member with here | there
    · exact ⟨part, List.mem_cons_self, occurs_of_mem_constants part here⟩
    · rcases occurs_of_mem_constantsOf rest there with ⟨later, listed, inside⟩
      exact ⟨later, List.mem_cons_of_mem _ listed, inside⟩

end

theorem mem_constants_iff {formula : Formula} :
    name ∈ formula.constants ↔ formula.Occurs (.const name) := by
  refine ⟨occurs_of_mem_constants formula, fun occurs => ?_⟩
  induction occurs with
  | pred listed | bilateral listed => exact mem_constantNames_iff.mpr listed
  | neg _ ih => exact ih
  | left _ ih | restriction _ ih => exact List.mem_append_left _ ih
  | right _ ih | matrix _ ih => exact List.mem_append_right _ ih
  | part listed _ ih => exact subset_gathered (fun _ _ => rfl) listed ih

end Formula

theorem Branch.mem_instantiated_mark {branch : Branch} {node : Nat} {constant : Option String}
    {entry : Nat × List String} (member : entry ∈ (branch.mark node constant).instantiated) :
    entry.1 = node ∨ entry ∈ branch.instantiated := by
  cases constant with
  | none => exact .inr member
  | some name =>
    simp only [mark] at member
    split at member
    · exact .inr member
    · rcases List.mem_cons.mp member with rfl | kept
      · exact .inl rfl
      · exact .inr (List.mem_filter.mp kept).1

namespace Tableau

variable {tableau after initial : Tableau} {logic : Logic} {formulas : List Signed}
variable {id : Nat} {found : Branch}

theorem conclusions_ne_nil [Memory] {node : Node} {expansion : Expansion}
    (proposed : tableau.expansion? node found = .ok (some expansion)) :
    expansion.conclusions ≠ [] := by
  cases kind : tableau.logic with
  | standard =>
    rcases standard_rule_of_proposed kind proposed with ⟨situation, rule, ruled, rfl⟩
    exact (Standard.rule_chosen ruled).ne_nil
  | bilateral evaluator =>
    rcases bilateral_rule_of_proposed kind proposed with ⟨situation, rule, ruled, rfl⟩ | evaluated
    · rcases Bilateral.rule_chosen ruled with ⟨names, chosen⟩
      exact chosen.ne_nil
    · rcases byEvaluation?_eq_some evaluated with ⟨_, _, _, _, _, single⟩
      rw [single]
      exact List.cons_ne_nil _ _

/-! ## Records and nodes -/

/-- Constants are recorded for nodes of the branch only. -/
theorem Reachable.instantiated_members [Memory] (reachable : Reachable logic formulas tableau)
    (known : tableau.branch? id = some found) :
    forall entry, entry ∈ found.instantiated -> entry.1 ∈ found.members := by
  refine reachable.of_descent (fun _ found => forall entry, entry ∈ found.instantiated ->
    entry.1 ∈ found.members) nofun ?_ known
  intro before after new _ _ _ recorded descent
  cases descent with
  | same known => exact recorded _ new known
  | closed known _ _ _ _ equal | copied known _ equal =>
    have kept := recorded _ _ known
    rw [equal]
    exact kept
  | registered known _ _ _ equal =>
    rw [equal]
    exact fun entry member => List.mem_append_left _ (recorded _ _ known entry member)
  | marked known _ onBranch equal =>
    rw [equal, Branch.mark_members]
    intro entry member
    rcases Branch.mem_instantiated_mark member with same | old
    · rw [same]
      exact onBranch
    · exact recorded _ _ known entry old

/-- Of the nodes that rules add, none repeats another one of its branch. -/
theorem unrepeated_of_advances [Memory] (regular : Regular initial)
    (advances : Advances initial tableau) :
    forall id found, tableau.branch? id = some found ->
      Unrepeated initial.nodes.size (tableau.contents found) := by
  induction advances with
  | refl =>
    intro id found known
    have exist := (regular.branches id found known).membersExist
    apply List.pairwise_of_forall_mem_list
    intro earlier member later member' _
    exact ⟨exist _ (mem_contents_iff.mp member).1, exist _ (mem_contents_iff.mp member').1⟩
  | tail earlier advance ih =>
    intro id found known
    rcases advance.origin (regular.advances earlier) known with ⟨origin, old, knownOld, longer⟩
    exact longer.unrepeated _ (ih origin old knownOld)

theorem Unrepeated.below {bound : Nat} {contents : List (Nat × Signed)}
    (unrepeated : Unrepeated bound contents) {node other : Nat × Signed} (member : node ∈ contents)
    (member' : other ∈ contents) (different : node.1 ≠ other.1)
    (same : SameEntry node.2 other.2) : node.1 < bound ∧ other.1 < bound := by
  have symmetric : Std.Symm fun earlier later : Nat × Signed =>
      SameEntry earlier.2 later.2 -> earlier.1 < bound ∧ later.1 < bound :=
    ⟨fun _ _ below same => (below ⟨same.1.symm, same.2.symm⟩).symm⟩
  apply unrepeated.forall member member' ?_ same
  intro equal
  exact different (congrArg Prod.fst equal)

theorem RegularBranch.mem_index_iff (regular : RegularBranch tableau id found) {text : String}
    {sign : Sign} {node : Nat} :
    ⟨text, sign, node⟩ ∈ found.index ↔ node ∈ found.members ∧ ∃ carried,
      tableau.node? node = some carried ∧ carried.signed.formula.text = text ∧
        carried.signed.sign = sign := by
  rw [regular.indexed, List.mem_map]
  constructor
  · rintro ⟨⟨number, signed⟩, listed, same⟩
    rcases mem_contents_iff.mp listed with ⟨member, carried⟩
    rcases Option.map_eq_some_iff.mp carried with ⟨carrier, given, rfl⟩
    cases same
    exact ⟨member, carrier, given, rfl, rfl⟩
  · rintro ⟨member, carrier, given, rfl, rfl⟩
    have carried : tableau.signedAt? node = some carrier.signed :=
      congrArg (Option.map Node.signed) given
    exact ⟨(node, carrier.signed), mem_contents_iff.mpr ⟨member, carried⟩, rfl⟩

theorem Listed.mem_terms_iff (listed : Listed tableau found) :
    name ∈ found.terms ↔ ∃ node, node ∈ tableau.nodesOn found ∧
      node.signed.formula.Occurs (.const name) := by
  rw [listed name, mem_namesOn_iff]
  constructor
  · rintro ⟨signed, member, occurs⟩
    rw [formulasOn_eq_map] at member
    rcases List.mem_map.mp member with ⟨node, onBranch, rfl⟩
    exact ⟨node, onBranch, Formula.mem_constants_iff.mp occurs⟩
  · rintro ⟨node, onBranch, occurs⟩
    exact ⟨node.signed, signed_mem_formulasOn onBranch, Formula.mem_constants_iff.mpr occurs⟩

/-! ## Branches that were given up -/

/-- A branch was given up on the way to a tableau: an expansion with several conclusions was
applied to it, and each branch that this created carries the nodes that it had. -/
def WasSplit [Memory] (logic : Logic) (formulas : List Signed) (tableau : Tableau) (id : Nat)
    (found : Branch) : Prop :=
  ∃ before old node expansion, Reachable logic formulas before ∧
    id ∈ before.opened ∧ before.branch? id = some old ∧ node ∈ before.pending old ∧
    before.expansion? node old = .ok (some expansion) ∧ 2 ≤ expansion.conclusions.length ∧
    Advances (before.apply node.id id expansion) tableau ∧
    (before.apply node.id id expansion).branches.size =
      before.branches.size + expansion.conclusions.length ∧
    forall copy, before.branches.size ≤ copy ->
      copy < (before.apply node.id id expansion).branches.size ->
        ∃ new, tableau.branch? copy = some new ∧ found.members ⊆ new.members

theorem WasSplit.advance [Memory] (split : WasSplit logic formulas tableau id found)
    (advance : Advance tableau after) (regular : Regular tableau) :
    WasSplit logic formulas after id found := by
  rcases split with ⟨before, old, node, expansion, reachable, worked, known, waiting, proposed,
    several, advances, size, copies⟩
  refine ⟨before, old, node, expansion, reachable, worked, known, waiting, proposed, several,
    advances.tail advance, size, ?_⟩
  intro copy beyond bound
  rcases copies copy beyond bound with ⟨new, knownNew, members⟩
  rcases advance.longer regular knownNew with ⟨last, knownLast, further⟩
  exact ⟨last, knownLast, List.Subset.trans members further⟩

/-- After one expansion, a branch that is neither worked on nor closed was so before, or it is the
one that the expansion split. -/
theorem wasSplit_of_advance [Memory] (reachable : Reachable logic formulas tableau)
    (advance : Advance tableau after)
    (before : forall id found, tableau.branch? id = some found -> id ∉ tableau.opened ->
      found.isClosed = false -> WasSplit logic formulas tableau id found)
    (known : after.branch? id = some found) (idle : id ∉ after.opened)
    (unclosed : found.isClosed = false) : WasSplit logic formulas after id found := by
  have regular := reachable.regular
  have step := advance
  obtain @⟨branch, old, node, expansion, worked, knownOld, waiting, proposed⟩ := advance
  have member := ((mem_pending_iff regular.nodeNumbers).mp waiting).2.1
  have outcome := apply_outcome expansion regular knownOld worked member
  by_cases isOld : id < tableau.branches.size
  · by_cases busy : id ∈ tableau.opened
    · cases outcome with
      | prolonged _ knownNew _ _ _ opened =>
        refine absurd ?_ idle
        by_cases same : id = branch
        · rw [same, knownNew] at known
          rw [Option.some.inj known, unclosed] at opened
          rw [opened]
          exact busy
        · rw [opened]
          split
          · exact (List.mem_erase_of_ne same).mpr busy
          · exact busy
      | split several knownMarked _ members _ size _ opened _ news =>
        have same : id = branch := by
          by_contra different
          exact idle ((opened id isOld).mpr ⟨busy, different⟩)
        subst same
        rw [knownMarked] at known
        refine ⟨tableau, old, node, expansion, reachable, worked, knownOld, waiting, proposed,
          ?_, .refl, size, ?_⟩
        · have answered := List.length_pos_iff.mpr (conclusions_ne_nil proposed)
          omega
        · intro copy beyond bound
          rcases news copy beyond bound with ⟨new, knownNew, longer, _⟩
          rw [<- Option.some.inj known, members]
          exact ⟨new, knownNew, longer.members⟩
    · have given : tableau.branch? id = some _ := Array.getElem?_eq_getElem isOld
      have same := (step.idle regular given busy).1
      rw [known] at same
      rw [<- Option.some.inj same] at given
      exact (before id found given busy unclosed).advance step regular
  · -- A new branch is worked on unless it is closed.
    cases outcome with
    | prolonged _ _ _ size =>
      have bound := lt_of_branch? known
      omega
    | split _ _ _ _ _ _ _ _ _ news =>
      rcases news id (Nat.le_of_not_lt isOld) (lt_of_branch? known) with ⟨new, knownNew, _, taken⟩
      rw [known] at knownNew
      rw [<- Option.some.inj knownNew] at taken
      exact absurd (taken.mpr unclosed) idle

theorem Reachable.wasSplit [Memory] (reachable : Reachable logic formulas tableau)
    (known : tableau.branch? id = some found) (idle : id ∉ tableau.opened)
    (unclosed : found.isClosed = false) : WasSplit logic formulas tableau id found := by
  refine reachable.of_advance (fun tableau => forall id found, tableau.branch? id = some found ->
    id ∉ tableau.opened -> found.isClosed = false -> WasSplit logic formulas tableau id found)
    ?_ ?_ id found known idle unclosed
  · intro traced initial begun id found known idle unclosed
    have listed := start_listed begun known
    rw [unclosed] at listed
    exact absurd listed idle
  · intro before after reached advance ih id found known idle unclosed
    exact wasSplit_of_advance reached advance ih known idle unclosed

/-! ## All records -/

/-- What holds of every branch of every tableau that is reached from a start.  The index lists
exactly the nodes of the branch, and the terms are the constants that occur on it; processed and
instantiated nodes are its own.  Two nodes with the same written formula and sign are both initial
ones.  The branch is listed at most once as one to be worked on, and only if it is not closed; if
it is neither, it was split, and the branches that this created carry all its nodes. -/
theorem branch_records_exact [Memory] (logic : Logic) (formulas : List Signed) (traced : Bool)
    (initial tableau : Tableau) (begun : start logic formulas traced = .ok initial)
    (advances : Advances initial tableau) (id : Nat) (found : Branch)
    (known : tableau.branch? id = some found) :
    (forall text sign node, ⟨text, sign, node⟩ ∈ found.index ↔ node ∈ found.members ∧
      ∃ carried, tableau.node? node = some carried ∧ carried.signed.formula.text = text ∧
        carried.signed.sign = sign) ∧
    (forall name, name ∈ found.terms ↔ ∃ node, node ∈ tableau.nodesOn found ∧
      node.signed.formula.Occurs (.const name)) ∧
    (forall node, node ∈ found.processed -> node ∈ found.members) ∧
    (forall entry, entry ∈ found.instantiated -> entry.1 ∈ found.members) ∧
    (forall node other, node ∈ tableau.nodesOn found -> other ∈ tableau.nodesOn found ->
      node.id ≠ other.id -> node.signed.formula.text = other.signed.formula.text ->
      node.signed.sign = other.signed.sign ->
        node.id < initial.nodes.size ∧ other.id < initial.nodes.size) ∧
    tableau.opened.count id ≤ 1 ∧
    (id ∈ tableau.opened -> found.isClosed = false) ∧
    (id ∉ tableau.opened -> found.isClosed = false ->
      WasSplit logic formulas tableau id found) := by
  have reachable : Reachable logic formulas tableau := ⟨traced, initial, begun, advances⟩
  have regular := reachable.regular
  have regularFound := regular.branches id found known
  have start : Reachable logic formulas initial := ⟨traced, initial, begun, .refl⟩
  refine ⟨fun _ _ _ => regularFound.mem_index_iff, fun _ => (reachable.listed known).mem_terms_iff,
    regularFound.processedMembers, reachable.instantiated_members known, ?_,
    List.nodup_iff_count_le_one.mp regular.openedDistinct id,
    fun worked => isClosed_eq_false_iff.mpr (regular.unclosed worked known),
    fun idle unclosed => reachable.wasSplit known idle unclosed⟩
  intro node other member member' different text sign
  exact (unrepeated_of_advances start.regular advances id found known).below
    (mem_contents_of_nodesOn regular.nodeNumbers member)
    (mem_contents_of_nodesOn regular.nodeNumbers member') different ⟨text, sign⟩

open scoped Memory

/-- The branch on which a universal formula was instantiated with a constant that occurs there. -/
theorem instantiated_branch_records : ∃ tableau found,
      ofFormulas .standard [⟨.t, .quant .all "X" (.pred "P" [.var "X"]) (.pred "Q" [.var "X"])⟩,
        ⟨.t, .pred "P" [.const "a"]⟩] false = .ok tableau ∧
      tableau.branch? 0 = some found ∧ found.instantiated = [(0, ["a"])] ∧ 0 ∈ found.members ∧
      WasSplit .standard [⟨.t, .quant .all "X" (.pred "P" [.var "X"]) (.pred "Q" [.var "X"])⟩,
        ⟨.t, .pred "P" [.const "a"]⟩] tableau 0 found := by
  have finished : ∃ tableau, ofFormulas .standard
      [⟨.t, .quant .all "X" (.pred "P" [.var "X"]) (.pred "Q" [.var "X"])⟩,
        ⟨.t, .pred "P" [.const "a"]⟩] false = .ok tableau := ⟨_, rfl⟩
  rcases finished with ⟨tableau, finished⟩
  rcases reachable_of_ofFormulas finished with ⟨traced, initial, begun, advances⟩
  have records := branch_records_exact _ _ _ initial tableau begun advances 0
  cases finished
  rcases records _ rfl with ⟨_, _, _, instantiated, _, _, _, split⟩
  exact ⟨_, _, rfl, rfl, rfl, instantiated (0, ["a"]) List.mem_cons_self, split (by decide) rfl⟩

end Tableau
end WeakKleene
