import WeakKleene.Proofs.Closure

namespace WeakKleene
namespace Tableau

/-!
# Contradictions behind a glut

A branch of the bilateral calculus closes when a formula arrives whose bilateral
form is there under another definite sign.  That a true predicate stands beside
its true denial is tolerated.  The test for such a glut comes first, and where it
succeeds no other test is made: a predicate that meets its denial is taken up
even if it contradicts a third formula.

So an open branch is not always free of contradictions.  It has one exactly if
some predicate came behind its denial and behind a formula that contradicts it.
Where the same formulas come in another order, the branch closes.
-/

variable {tableau : Tableau} {evaluator : Option Evaluator}
variable {list : List (Nat × Signed)} {signed other : Signed} {found : Branch}

/-! ## Gluts -/

section Tolerance

variable [Memory]

/-- A true predicate beside its true denial, of the very same arguments. -/
def Glut (entry other : Nat × Signed) : Prop :=
  entry.2.sign = .t ∧ other.2.sign = .t ∧ opposed entry.2.formula other.2.formula = true ∧
    sameArguments entry.1 other.1 entry.2.formula = true

theorem meetsDenial_iff {id : Nat}
    (numbered : forall id node, tableau.node? id = some node -> node.id = id) :
    tableau.meetsDenial found id signed = true ↔
      ∃ other, other ∈ tableau.contents found ∧ Glut (id, signed) other := by
  simp only [meetsDenial, Glut, Bool.and_eq_true, List.any_eq_true, beq_iff_eq, and_assoc]
  constructor
  · rintro ⟨isTrue, node, member, alsoTrue, denied, same⟩
    exact ⟨_, mem_contents_of_nodesOn numbered member, isTrue, alsoTrue, denied, same⟩
  · rintro ⟨⟨number, other⟩, member, isTrue, alsoTrue, denied, same⟩
    rcases mem_contents_iff.mp member with ⟨listed, carried⟩
    rcases Option.map_eq_some_iff.mp carried with ⟨node, at_number, rfl⟩
    rw [<- numbered number node at_number] at same
    exact ⟨isTrue, node, List.mem_filterMap.mpr ⟨number, listed, at_number⟩, alsoTrue, denied, same⟩

/-- In the bilateral calculus a formula that contradicts no node makes a glut, or it conflicts with
none. -/
theorem glut_or_not_conflict {id : Nat} (sided : tableau.logic = .bilateral evaluator)
    (numbered : forall id node, tableau.node? id = some node -> node.id = id)
    (clear : tableau.contradicted? found id signed = none) :
    (∃ other, other ∈ tableau.contents found ∧ Glut (id, signed) other) ∨
      forall other, other ∈ tableau.contents found ->
        ¬ Conflict (.bilateral none) signed other.2 := by
  simp only [contradicted?, sided] at clear
  split at clear
  · next met => exact Or.inl ((meetsDenial_iff numbered).mp met)
  · right
    rintro ⟨number, other⟩ member
    rw [Option.map_eq_none_iff, List.find?_eq_none] at clear
    rcases mem_contents_iff.mp member with ⟨listed, carried⟩
    rcases Option.map_eq_some_iff.mp carried with ⟨node, at_number, rfl⟩
    have apart := clear node
      (mem_listed_iff.mpr (List.mem_filterMap.mpr ⟨number, listed, at_number⟩))
    rwa [Bool.and_eq_true] at apart

/-- Each node came behind its denial or without a conflict with those before it. -/
inductive Tolerated : List (Nat × Signed) -> Prop where
  | nil : Tolerated []
  | glut {list : List (Nat × Signed)} {entry other : Nat × Signed} (earlier : Tolerated list)
      (member : other ∈ list) (glut : Glut entry other) : Tolerated (list ++ [entry])
  | clear {list : List (Nat × Signed)} {entry : Nat × Signed} (earlier : Tolerated list)
      (clear : forall other, other ∈ list -> ¬ Conflict (.bilateral none) entry.2 other.2) :
      Tolerated (list ++ [entry])

theorem Reachable.tolerated {formulas : List Signed}
    (reachable : Reachable (.bilateral evaluator) formulas tableau) {id : Nat}
    (known : tableau.branch? id = some found) (unclosed : found.closure = none) :
    Tolerated (tableau.contents found) := by
  refine reachable.of_descent (fun tableau found => found.closure = none ->
    Tolerated (tableau.contents found)) (fun _ _ => .nil) ?_ known unclosed
  intro before after new regular sided grows tolerated descent
  have later {id : Nat} {found : Branch} (known : before.branch? id = some found)
      (unclosed : found.closure = none) : Tolerated (after.contents found) := by
    rw [grows.contents (regular.branches id found known).membersExist]
    exact tolerated id found known unclosed
  cases descent with
  | same known => exact later known
  | closed _ _ _ _ _ equal =>
    rw [equal]
    exact nofun
  | @registered id found signed parent rule known unclosed carried clear equal =>
    have exist := (regular.branches id found known).membersExist
    have earlier := later known unclosed
    intro _
    rw [equal, contents_register carried]
    rcases glut_or_not_conflict ((grow_logic before parent rule signed).trans sided)
      (grow_numbers before parent rule signed regular.nodeNumbers) clear with
        ⟨other, member, glut⟩ | apart
    · rw [(grow_grows before parent rule signed).contents exist, <- grows.contents exist] at member
      exact .glut earlier member glut
    · rw [(grow_grows before parent rule signed).contents exist, <- grows.contents exist] at apart
      exact .clear earlier apart
  | marked known unclosed _ equal =>
    rw [equal, contents_mark]
    exact fun _ => later known unclosed
  | @copied id fresh found known unclosed equal =>
    rw [equal]
    have kept : Tolerated (after.contents found) := later known unclosed
    exact fun _ => kept

end Tolerance

/-! ## What a glut hides -/

theorem contradicts_comm (sign other : Sign) : sign.contradicts other = other.contradicts sign := by
  cases sign <;> cases other <;> rfl

theorem equivalent_comm (left right : Formula) : left.equivalent right = right.equivalent left := by
  unfold Formula.equivalent
  cases left.bilateralForm with
  | error fault => cases right.bilateralForm <;> rfl
  | ok first =>
    cases right.bilateralForm with
    | error fault => rfl
    | ok second => exact BEq.comm

theorem Conflict.symm (conflict : Conflict (.bilateral none) signed other) :
    Conflict (.bilateral none) other signed :=
  ⟨(contradicts_comm _ _).trans conflict.1, (equivalent_comm _ _).trans conflict.2⟩

/-- No formula conflicts with itself: it has one sign. -/
theorem not_conflict_self (signed : Signed) : ¬ Conflict (.bilateral none) signed signed := by
  rintro ⟨clash, _⟩
  rw [Sign.contradicts, bne_self_eq_false, Bool.and_false] at clash
  cases clash

/-- A conflict between nodes of the list involves the last one or is one of the others. -/
theorem conflict_concat_cases {entry first second : Nat × Signed}
    (member : first ∈ list ++ [entry]) (member' : second ∈ list ++ [entry])
    (conflict : Conflict (.bilateral none) first.2 second.2) :
    (first ∈ list ∧ second ∈ list) ∨
      ∃ other, other ∈ list ∧ Conflict (.bilateral none) entry.2 other.2 := by
  rcases List.mem_append.mp member with early | last
  · rcases List.mem_append.mp member' with early' | last'
    · exact Or.inl ⟨early, early'⟩
    · rw [List.mem_singleton.mp last'] at conflict
      exact Or.inr ⟨first, early, conflict.symm⟩
  · rw [List.mem_singleton.mp last] at conflict
    rcases List.mem_append.mp member' with early' | last'
    · exact Or.inr ⟨second, early', conflict⟩
    · rw [List.mem_singleton.mp last'] at conflict
      exact absurd conflict (not_conflict_self entry.2)

section Hiding

variable [Memory]

/-- A node in a list that came behind its denial and behind one that it conflicts with. -/
def Hidden (list : List (Nat × Signed)) : Prop :=
  ∃ before entry rest, list = before ++ entry :: rest ∧
    (∃ denial, denial ∈ before ∧ Glut entry denial) ∧
      ∃ other, other ∈ before ∧ Conflict (.bilateral none) entry.2 other.2

theorem Hidden.append (hidden : Hidden list) (more : List (Nat × Signed)) :
    Hidden (list ++ more) := by
  rcases hidden with ⟨before, entry, rest, rfl, met, contradicted⟩
  exact ⟨before, entry, rest ++ more, by rw [List.append_assoc, List.cons_append], met,
    contradicted⟩

/-- Every conflict among tolerated nodes is hidden by a glut. -/
theorem Tolerated.hidden (tolerated : Tolerated list) {first second : Nat × Signed}
    (member : first ∈ list) (member' : second ∈ list)
    (conflict : Conflict (.bilateral none) first.2 second.2) : Hidden list := by
  induction tolerated with
  | nil => cases member
  | @glut list entry denial earlier met glut ih =>
    rcases conflict_concat_cases member member' conflict with
      ⟨early, early'⟩ | ⟨other, there, conflict'⟩
    · exact (ih early early').append _
    · exact ⟨list, entry, [], rfl, ⟨denial, met, glut⟩, other, there, conflict'⟩
  | @clear list entry earlier apart ih =>
    rcases conflict_concat_cases member member' conflict with
      ⟨early, early'⟩ | ⟨other, there, conflict'⟩
    · exact (ih early early').append _
    · exact absurd conflict' (apart other there)

end Hiding

theorem t_contradicts_iff {sign : Sign} :
    Sign.t.contradicts sign = true ↔ sign = .f ∨ sign = .e := by
  cases sign <;> decide

/-- In every reachable tableau of the bilateral calculus, with any evaluator or none, a branch that
is not closed carries two formulas with the same bilateral form under different definite signs
exactly if it took up a true predicate behind its true denial, of the very same arguments, and
behind a formula with that bilateral form under f or e. -/
theorem contradiction_iff_behind_glut [Memory] (evaluator : Option Evaluator)
    (formulas : List Signed) (tableau : Tableau)
    (reachable : Reachable (.bilateral evaluator) formulas tableau) (id : Nat)
    (found : Branch) (known : tableau.branch? id = some found) (unclosed : found.closure = none) :
    (∃ signed other, signed ∈ tableau.formulasOn found ∧ other ∈ tableau.formulasOn found ∧
      signed.sign.contradicts other.sign = true ∧
      signed.formula.equivalent other.formula = true) ↔
    ∃ before number signed rest,
      tableau.contents found = before ++ (number, signed) :: rest ∧ signed.sign = .t ∧
      (∃ denier denial, (denier, denial) ∈ before ∧ denial.sign = .t ∧
        opposed signed.formula denial.formula = true ∧
        sameArguments number denier signed.formula = true) ∧
      ∃ contrary other, (contrary, other) ∈ before ∧ (other.sign = .f ∨ other.sign = .e) ∧
        signed.formula.equivalent other.formula = true := by
  constructor
  · rintro ⟨first, second, member, member', clash, equivalent⟩
    rcases mem_formulasOn_iff.mp member with ⟨number, listed⟩
    rcases mem_formulasOn_iff.mp member' with ⟨number', listed'⟩
    have tolerated := reachable.tolerated known unclosed
    rcases tolerated.hidden listed listed' ⟨clash, equivalent⟩ with
      ⟨before, ⟨number, signed⟩, rest, equal,
        ⟨⟨denier, denial⟩, met, isTrue, alsoTrue, denied, same⟩,
        ⟨contrary, other⟩, there, clash, alike⟩
    rw [isTrue, t_contradicts_iff] at clash
    exact ⟨before, number, signed, rest, equal, isTrue,
      ⟨denier, denial, met, alsoTrue, denied, same⟩, contrary, other, there, clash, alike⟩
  · rintro ⟨before, number, signed, rest, equal, isTrue, _, contrary, other, there, clash, alike⟩
    refine ⟨signed, other, ?_, ?_, ?_, alike⟩
    · rw [formulasOn, equal, List.map_append]
      exact List.mem_append_right _ List.mem_cons_self
    · rw [formulasOn, equal, List.map_append]
      exact List.mem_append_left _ (List.mem_map_of_mem there)
    · rw [isTrue, t_contradicts_iff]
      exact clash

open scoped Memory

/-- A glut alone is no contradiction. -/
theorem no_contradiction_in_glut : ∃ tableau found, Reachable (.bilateral none)
        [⟨.t, .pred "P" [.const "a"]⟩, ⟨.t, .sided "P" [.const "a"] true⟩] tableau ∧
      tableau.branch? 0 = some found ∧ found.closure = none ∧
      ¬ ∃ signed other, signed ∈ tableau.formulasOn found ∧ other ∈ tableau.formulasOn found ∧
        signed.sign.contradicts other.sign = true ∧
        signed.formula.equivalent other.formula = true := by
  have reachable : Reachable (.bilateral none)
      [⟨.t, .pred "P" [.const "a"]⟩, ⟨.t, .sided "P" [.const "a"] true⟩] _ :=
    ⟨false, _, rfl, .refl⟩
  refine ⟨_, _, reachable, rfl, rfl, ?_⟩
  rw [contradiction_iff_behind_glut none _ _ reachable 0 _ rfl rfl]
  rintro ⟨before, number, signed, rest, equal, _, _, contrary, other, there, clash, _⟩
  -- Nothing there is signed f or e.
  have member : (contrary, other) ∈ before ++ (number, signed) :: rest :=
    List.mem_append_left _ there
  rw [<- equal] at member
  have isTrue : other.sign = .t := by
    rcases List.mem_pair.mp member with same | same <;> cases same <;> rfl
  rw [isTrue] at clash
  rcases clash with wrong | wrong <;> cases wrong

/-- A true predicate behind its denial stays on the open branch although it is false there.  In
front of its denial it closes the branch. -/
theorem contradiction_behind_denial : (∃ tableau found, Reachable (.bilateral none)
        [⟨.t, .sided "P" [] true⟩, ⟨.f, .sided "P" [] false⟩, ⟨.t, .sided "P" [] false⟩]
        tableau ∧
      0 ∈ tableau.opened ∧ tableau.branch? 0 = some found ∧
      ⟨.t, .sided "P" [] false⟩ ∈ tableau.formulasOn found ∧
      ⟨.f, .sided "P" [] false⟩ ∈ tableau.formulasOn found ∧
      Sign.t.contradicts .f = true ∧
      (Formula.sided "P" [] false).equivalent (.sided "P" [] false) = true) ∧
    ∃ tableau, Reachable (.bilateral none)
        [⟨.f, .sided "P" [] false⟩, ⟨.t, .sided "P" [] false⟩, ⟨.t, .sided "P" [] true⟩]
        tableau ∧
      tableau.opened = [] := by
  constructor
  · refine ⟨_, _, ⟨false, _, rfl, .refl⟩, List.mem_singleton.mpr rfl, rfl, ?_, ?_, rfl, rfl⟩
    · exact List.mem_of_getElem? (i := 2) rfl
    · exact List.mem_of_getElem? (i := 1) rfl
  · exact ⟨_, ⟨false, _, rfl, .refl⟩, rfl⟩

end Tableau
end WeakKleene
