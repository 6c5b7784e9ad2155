import WeakKleene.Proofs.Reachability

namespace WeakKleene
namespace Tableau

/-!
# Why branches close

A branch of the standard calculus closes when a formula arrives that stands
there under another definite sign.  The sign of the formula that arrives is not
asked about.  Two definite signs close a branch in either order.  The signs m
and n close it as well when they come behind a definite sign, and do not when
they come before it.

What is shown holds in every reachable tableau, with any formulas: of each
branch, closed or not, and of the branches that are worked on no longer.
-/

variable {tableau : Tableau}

/-- The state of a branch is explained by its contents.  If it is closed, the node that was to be
added conflicts with an earlier one; if it is not, no node conflicts with one before it. -/
structure Explained (tableau : Tableau) (found : Branch) : Prop where
  closed : forall closure, found.closure = some closure ->
    closure.present < closure.added ∧ ∃ signed other,
      tableau.signedAt? closure.added = some signed ∧
      (closure.present, other) ∈ tableau.contents found ∧ Conflict .standard signed other
  unclosed : found.closure = none ->
    (tableau.formulasOn found).Pairwise fun earlier later => ¬ Conflict .standard later earlier

theorem lt_of_signedAt? {id : Nat} {signed : Signed}
    (carried : tableau.signedAt? id = some signed) : id < tableau.nodes.size := by
  rcases Option.map_eq_some_iff.mp carried with ⟨node, at_id, _⟩
  rcases Nat.lt_or_ge id tableau.nodes.size with bound | beyond
  · exact bound
  · rw [node?, Array.getElem?_eq_none beyond] at at_id
    cases at_id

theorem Explained.grows {after : Tableau} {id : Nat} {found : Branch}
    (explained : Explained tableau found) (regular : RegularBranch tableau id found)
    (grows : Grows tableau after) : Explained after found where
  closed := by
    intro closure shut
    rcases explained.closed closure shut with ⟨order, signed, other, carried, listed, conflict⟩
    refine ⟨order, signed, other, ?_, ?_, conflict⟩
    · rw [grows.signed closure.added (lt_of_signedAt? carried), carried]
    · rwa [grows.contents regular.membersExist]
  unclosed := by
    rw [grows.formulasOn regular.membersExist]
    exact explained.unclosed

/-! ## One change -/

section Descent

variable [Memory]
variable {after : Tableau} {found : Branch} {id : Nat} {signed : Signed}

/-- A formula that contradicts nothing leaves the branch without a conflict. -/
theorem Explained.register {parent : Option Nat} {rule : Option String}
    (explained : Explained tableau found) (regular : RegularBranch tableau id found)
    (standard : tableau.logic = .standard) (unclosed : found.closure = none)
    (grows : Grows tableau after) (carried : after.signedAt? tableau.nodes.size = some signed)
    (clear : (tableau.grow parent rule signed).1.contradicted? found tableau.nodes.size signed =
      none) :
    Explained after (found.register tableau.nodes.size signed) := by
  have grown := grow_grows tableau parent rule signed
  refine ⟨fun closure shut => absurd (unclosed.symm.trans shut) (by simp), fun _ => ?_⟩
  rw [formulasOn_register carried, grows.formulasOn regular.membersExist]
  apply List.pairwise_append.mpr
  refine ⟨explained.unclosed unclosed, List.pairwise_singleton _ _, ?_⟩
  intro earlier member later last
  rw [List.mem_singleton.mp last]
  apply not_conflict_of_contradicted?_eq_none (regular.grows grown)
    ((grow_logic tableau parent rule signed).trans standard) clear
  rwa [grown.formulasOn regular.membersExist]

/-- A change keeps all branches explained. -/
theorem Descent.explained {new : Branch} (descent : Descent tableau after new)
    (regular : Regular tableau) (standard : tableau.logic = .standard)
    (grows : Grows tableau after)
    (explained : forall id found, tableau.branch? id = some found -> Explained tableau found) :
    Explained after new := by
  have later {id : Nat} {found : Branch} (known : tableau.branch? id = some found) :
      Explained after found :=
    (explained id found known).grows (regular.branches id found known) grows
  cases descent with
  | same known => exact later known
  | @closed id found signed other present reason known unclosed carried listed conflict equal =>
    have exist := (regular.branches id found known).membersExist
    rw [standard] at conflict
    rw [equal]
    refine ⟨?_, nofun⟩
    -- The new node is not a member of the branch that it closes, and later than all members.
    intro closure shut
    rw [<- Option.some.inj shut]
    refine ⟨exist present (mem_contents_iff.mp listed).1, signed, other, carried, ?_, conflict⟩
    rw [<- grows.contents exist] at listed
    exact listed
  | @registered id found signed parent rule known unclosed carried clear equal =>
    rw [equal]
    exact (explained id found known).register (regular.branches id found known) standard unclosed
      grows carried clear
  | @marked id node found constant known unclosed member equal =>
    rw [equal]
    constructor
    · intro closure shut
      rw [Branch.mark_closure, unclosed] at shut
      cases shut
    · rw [formulasOn_mark]
      exact fun _ => (later known).unclosed unclosed
  | copied known unclosed equal =>
    rw [equal]
    exact ⟨fun closure impossible => (by cases impossible),
      fun _ => (later known).unclosed unclosed⟩

end Descent

/-! ## Every reachable tableau -/

theorem Reachable.explained [Memory] {formulas : List Signed}
    (reachable : Reachable .standard formulas tableau) {id : Nat} {found : Branch}
    (known : tableau.branch? id = some found) : Explained tableau found := by
  refine reachable.of_descent Explained (fun _ => ?_) (fun regular standard grows before descent =>
    descent.explained regular standard grows before) known
  exact ⟨fun _ impossible => (by cases impossible), fun _ => .nil⟩

/-- Where the second sign is definite, two signs contradict each other just when they differ and
the first one is definite too. -/
theorem contradicts_iff_definite {sign other : Sign} (definite : other.definite = true)
    (different : sign ≠ other) : sign.contradicts other = true ↔ sign.definite = true := by
  simp only [Sign.contradicts, definite, Bool.and_true, Bool.and_eq_true, bne_iff_ne, ne_eq,
    different, not_false_eq_true, and_true]

/-- In every reachable tableau a closed branch names a node of the branch under a definite sign
and a later one with the same written formula under another sign.  The two contradict each other
just when the sign of the later one is definite, which m and n are not.  A branch that is not
closed has no such pair. -/
theorem closure_contradicts_iff_definite [Memory] (formulas : List Signed) (tableau : Tableau)
    (reachable : Reachable .standard formulas tableau) (id : Nat) (found : Branch)
    (known : tableau.branch? id = some found) :
    (forall closure, found.closure = some closure ->
      ∃ added present, tableau.node? closure.added = some added ∧
        tableau.node? closure.present = some present ∧
        closure.present ∈ found.members ∧ closure.present < closure.added ∧
        added.signed.formula.text = present.signed.formula.text ∧
        present.signed.sign.definite = true ∧ added.signed.sign ≠ present.signed.sign ∧
        (added.signed.sign.contradicts present.signed.sign = true ↔
          added.signed.sign.definite = true)) ∧
    (found.closure = none -> (tableau.formulasOn found).Pairwise fun earlier later =>
        earlier.formula.text = later.formula.text -> earlier.sign.definite = true ->
          earlier.sign = later.sign) := by
  have explained := reachable.explained known
  constructor
  · intro closure shut
    rcases explained.closed closure shut with
      ⟨order, signed, other, carried, listed, sameText, definite, different⟩
    rcases mem_contents_iff.mp listed with ⟨member, carried'⟩
    rcases Option.map_eq_some_iff.mp carried with ⟨added, at_added, rfl⟩
    rcases Option.map_eq_some_iff.mp carried' with ⟨present, at_present, rfl⟩
    exact ⟨added, present, at_added, at_present, member, order, sameText.symm, definite,
      different.symm, contradicts_iff_definite definite different.symm⟩
  · intro unclosed
    apply (explained.unclosed unclosed).imp
    intro earlier later clear sameText definite
    by_contra different
    exact clear ⟨sameText, definite, different⟩

open scoped Memory

/-- A formula that was false closes the branch when it arrives as true. -/
theorem closure_of_false_then_true : ∃ tableau found closure,
      Reachable .standard [⟨.f, .atom "p"⟩, ⟨.e, .atom "q"⟩, ⟨.t, .atom "p"⟩] tableau ∧
      tableau.branch? 0 = some found ∧ found.closure = some closure ∧
      ∃ added present, tableau.node? closure.added = some added ∧
        tableau.node? closure.present = some present ∧
        added.signed.formula.text = present.signed.formula.text ∧
        (added.signed.sign.contradicts present.signed.sign = true ↔
          added.signed.sign.definite = true) := by
  have reachable : Reachable .standard [⟨.f, .atom "p"⟩, ⟨.e, .atom "q"⟩, ⟨.t, .atom "p"⟩] _ :=
    ⟨false, _, rfl, .refl⟩
  refine ⟨_, _, _, reachable, rfl, rfl, ?_⟩
  rcases (closure_contradicts_iff_definite _ _ reachable 0 _ rfl).1 _ rfl with
    ⟨added, present, atAdded, atPresent, _, _, sameText, _, _, exactly⟩
  exact ⟨added, present, atAdded, atPresent, sameText, exactly⟩

/-- Behind a definite sign the sign m closes a branch, before it does not. -/
theorem meta_sign_closes_behind_definite : (∃ tableau found closure,
      Reachable .standard [⟨.t, .atom "p"⟩, ⟨.m, .atom "p"⟩] tableau ∧
      tableau.branch? 0 = some found ∧ found.closure = some closure ∧
      tableau.signedAt? closure.added = some ⟨.m, .atom "p"⟩ ∧
      tableau.signedAt? closure.present = some ⟨.t, .atom "p"⟩) ∧
    ∃ tableau found, Reachable .standard [⟨.m, .atom "p"⟩, ⟨.t, .atom "p"⟩] tableau ∧
      tableau.branch? 0 = some found ∧ found.closure = none ∧
      tableau.formulasOn found = [⟨.m, .atom "p"⟩, ⟨.t, .atom "p"⟩] :=
  ⟨⟨_, _, _, ⟨false, _, rfl, .refl⟩, rfl, rfl, rfl, rfl⟩,
    ⟨_, _, ⟨false, _, rfl, .refl⟩, rfl, rfl, rfl⟩⟩

end Tableau
end WeakKleene
