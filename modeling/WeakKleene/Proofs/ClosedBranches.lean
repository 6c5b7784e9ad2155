import Mathlib.Data.List.Perm.Subperm
import WeakKleene.Drawing.Format
import WeakKleene.Exchange.Tableau
import WeakKleene.Report
import WeakKleene.Proofs.Guidance
import WeakKleene.Proofs.Lineage

namespace WeakKleene
namespace Tableau

/-!
# The list of closed branches

A branch that is worked on moves to the list of closed branches when it closes.
A copy of a branch that is split is not worked on before its conclusion is
complete.  If the conclusion closes it, the copy is closed from its beginning and
gets into no list.

So the list has closed branches only, each once, and it lacks just those that
were closed from their beginning.  Every report gives the length of the list as
the number of closed branches, and it falls short as soon as there is one of them.
-/

variable {tableau after initial : Tableau} {logic : Logic} {formulas : List Signed}
variable {id : Nat} {found : Branch}

def ClosedAt (tableau : Tableau) (id : Nat) : Prop :=
  ∃ found, tableau.branch? id = some found ∧ found.isClosed = true

/-- A branch is closed from its beginning: the expansion that created it has closed it. -/
def BornClosed [Memory] (logic : Logic) (formulas : List Signed) (tableau : Tableau) (id : Nat) :
    Prop :=
  ∃ before after, Reachable logic formulas before ∧ Advance before after ∧
    Advances after tableau ∧ before.branches.size ≤ id ∧ ClosedAt after id

theorem ClosedAt.not_opened (regular : Regular tableau) (closed : ClosedAt tableau id) :
    id ∉ tableau.opened := by
  rcases closed with ⟨found, known, shut⟩
  intro worked
  rw [isClosed_eq_false_iff.mpr (regular.unclosed worked known)] at shut
  cases shut

/-- Closed branches stay closed, and stay in the list or out of it. -/
theorem ClosedAt.advances [Memory] (closed : ClosedAt tableau id) (regular : Regular tableau)
    (advances : Advances tableau after) :
    ClosedAt after id ∧ (id ∈ after.closed ↔ id ∈ tableau.closed) := by
  have idle := closed.not_opened regular
  rcases closed with ⟨found, known, shut⟩
  rcases advances.idle regular known idle with ⟨known', _, listed⟩
  exact ⟨⟨found, known', shut⟩, listed⟩

/-! ## What the list has -/

/-- The list has closed branches only, and each once. -/
structure ListsClosed (tableau : Tableau) : Prop where
  distinct : tableau.closed.Nodup
  closed : forall id, id ∈ tableau.closed -> ClosedAt tableau id

theorem listsClosed_start [Memory] {traced : Bool}
    (begun : start logic formulas traced = .ok initial) :
    ListsClosed initial := by
  rcases start_lists begun with ⟨found, known, _, _, closed⟩
  cases shut : found.isClosed with
  | false =>
    rw [shut] at closed
    rw [if_neg Bool.false_ne_true] at closed
    constructor
    · rw [closed]
      exact List.nodup_nil
    · intro id listed
      rw [closed] at listed
      cases listed
  | true =>
    rw [shut, if_pos rfl] at closed
    constructor
    · rw [closed]
      exact List.pairwise_singleton _ 0
    · intro id listed
      rw [closed] at listed
      rw [List.mem_singleton.mp listed]
      exact ⟨found, known, shut⟩

theorem ListsClosed.advance [Memory] (lists : ListsClosed tableau) (regular : Regular tableau)
    (advance : Advance tableau after) : ListsClosed after := by
  have still {id : Nat} (listed : id ∈ tableau.closed) : ClosedAt after id :=
    ((lists.closed id listed).advances regular (.single advance)).1
  rcases advance.outcome regular with ⟨branch, found, _, worked, _, outcome⟩
  cases outcome with
  | @prolonged new _ known _ _ _ _ closed =>
    cases shut : new.isClosed with
    | false =>
      rw [shut, if_neg Bool.false_ne_true, List.append_nil] at closed
      constructor
      · rw [closed]
        exact lists.distinct
      · rw [closed]
        exact fun id listed => still listed
    | true =>
      rw [shut, if_pos rfl] at closed
      have unlisted : branch ∉ tableau.closed := fun listed =>
        (lists.closed branch listed).not_opened regular worked
      constructor
      · rw [closed]
        apply List.nodup_append.mpr
        refine ⟨lists.distinct, List.pairwise_singleton _ branch, ?_⟩
        intro id listed other last same
        rw [same, List.mem_singleton.mp last] at listed
        exact unlisted listed
      · intro id listed
        rw [closed] at listed
        rcases List.mem_append.mp listed with old | last
        · exact still old
        · rw [List.mem_singleton.mp last]
          exact ⟨new, known, shut⟩
  | split _ _ _ _ _ _ _ _ closed =>
    constructor
    · rw [closed]
      exact lists.distinct
    · rw [closed]
      exact fun id listed => still listed

theorem Reachable.listsClosed [Memory] (reachable : Reachable logic formulas tableau) :
    ListsClosed tableau := by
  refine reachable.of_advance ListsClosed (fun _ _ begun => listsClosed_start begun) ?_
  intro before after reached advance lists
  exact lists.advance reached.regular advance

/-! ## What the list lacks -/

theorem BornClosed.closedAt [Memory] (born : BornClosed logic formulas tableau id) :
    ClosedAt tableau id := by
  rcases born with ⟨before, middle, reachable, advance, advances, _, closed⟩
  have regular := reachable.regular.advances (.single advance)
  exact (closed.advances regular advances).1

theorem BornClosed.not_listed [Memory] (born : BornClosed logic formulas tableau id) :
    id ∉ tableau.closed := by
  rcases born with ⟨before, middle, reachable, advance, advances, beyond, closed⟩
  have regular := reachable.regular
  have bound : id < middle.branches.size := by
    rcases closed with ⟨found, known, _⟩
    exact lt_of_branch? known
  rw [(closed.advances (regular.advances (.single advance)) advances).2]
  rcases advance.outcome regular with ⟨_, _, _, _, _, outcome⟩
  cases outcome with
  | prolonged _ _ _ size =>
    rw [size] at bound
    exact absurd bound (Nat.not_lt.mpr beyond)
  | split _ _ _ _ _ _ _ _ listed =>
    rw [listed]
    intro member
    rcases reachable.listsClosed.closed id member with ⟨old, known, _⟩
    exact absurd (lt_of_branch? known) (Nat.not_lt.mpr beyond)

theorem Advance.listed_of_closed [Memory] (advance : Advance tableau after)
    (regular : Regular tableau)
    (known : tableau.branch? id = some found) (unclosed : found.isClosed = false)
    (closed : ClosedAt after id) : id ∈ after.closed := by
  rcases closed with ⟨new, known', shut⟩
  have changed : after.branch? id ≠ tableau.branch? id := by
    intro same
    rw [known', known] at same
    rw [Option.some.inj same, unclosed] at shut
    cases shut
  rcases advance.outcome regular with ⟨branch, _, _, _, _, outcome⟩
  cases outcome with
  | prolonged _ knownNew _ _ others _ listed =>
    by_cases same : id = branch
    · rw [same, knownNew] at known'
      rw [listed, Option.some.inj known', shut, same]
      exact List.mem_append_right _ List.mem_cons_self
    · exact absurd (others id same) changed
  | split _ knownMarked unclosedMarked _ _ _ others =>
    by_cases same : id = branch
    · rw [same, knownMarked] at known'
      rw [Option.some.inj known', shut] at unclosedMarked
      cases unclosedMarked
    · exact absurd (others id (lt_of_branch? known) same) changed

theorem BornClosed.advance [Memory] (born : BornClosed logic formulas tableau id)
    (advance : Advance tableau after) : BornClosed logic formulas after id := by
  rcases born with ⟨origin, middle, reachable, birth, advances, beyond, closed⟩
  exact ⟨origin, middle, reachable, birth, advances.tail advance, beyond, closed⟩

/-- A closed branch that the list lacks was closed from its beginning. -/
theorem Reachable.bornClosed [Memory] (reachable : Reachable logic formulas tableau)
    (closed : ClosedAt tableau id) (unlisted : id ∉ tableau.closed) :
    BornClosed logic formulas tableau id := by
  refine reachable.of_advance (fun tableau => ClosedAt tableau id -> id ∉ tableau.closed ->
    BornClosed logic formulas tableau id) ?_ ?_ closed unlisted
  · rintro traced initial begun ⟨found, known, shut⟩ unlisted
    have listed := start_listed begun known
    rw [shut] at listed
    exact absurd listed unlisted
  · intro before after reached advance ih closed unlisted
    have regular := reached.regular
    by_cases isOld : id < before.branches.size
    · have given : before.branch? id = some _ := Array.getElem?_eq_getElem isOld
      cases shut : (before.branches[id]).isClosed with
      | false => exact absurd (advance.listed_of_closed regular given shut closed) unlisted
      | true =>
        have closedBefore : ClosedAt before id := ⟨_, given, shut⟩
        rw [(closedBefore.advances regular (.single advance)).2] at unlisted
        exact (ih closedBefore unlisted).advance advance
    · -- The branch is new, so this very expansion has closed it.
      exact ⟨before, after, reached, advance, .refl, Nat.le_of_not_lt isOld, closed⟩

/-! ## How many are closed -/

def closedNumbers (tableau : Tableau) : List Nat :=
  (tableau.branches.toList.filter Branch.isClosed).map Branch.id

theorem map_id_branches (regular : Regular tableau) :
    tableau.branches.toList.map Branch.id = List.range tableau.branches.size := by
  apply List.ext_getElem?
  intro place
  rw [List.getElem?_map, Array.getElem?_toList]
  cases known : tableau.branches[place]? with
  | none =>
    have beyond := Array.getElem?_eq_none_iff.mp known
    rw [List.getElem?_eq_none (by rwa [List.length_range])]
    rfl
  | some found =>
    rw [List.getElem?_range (lt_of_branch? known), Option.map_some,
      (regular.branches place found known).number]

theorem closedNumbers_nodup (regular : Regular tableau) : tableau.closedNumbers.Nodup := by
  have sublist : tableau.closedNumbers.Sublist (tableau.branches.toList.map Branch.id) :=
    List.filter_sublist.map Branch.id
  rw [map_id_branches regular] at sublist
  exact List.nodup_range.sublist sublist

theorem mem_closedNumbers_iff (regular : Regular tableau) :
    id ∈ tableau.closedNumbers ↔ ClosedAt tableau id := by
  rw [closedNumbers, List.mem_map]
  constructor
  · rintro ⟨found, listed, rfl⟩
    rcases List.mem_filter.mp listed with ⟨member, shut⟩
    rcases List.mem_iff_getElem?.mp member with ⟨place, known⟩
    rw [Array.getElem?_toList] at known
    rw [(regular.branches place found known).number]
    exact ⟨found, known, shut⟩
  · rintro ⟨found, known, shut⟩
    refine ⟨found, List.mem_filter.mpr ⟨?_, shut⟩, (regular.branches id found known).number⟩
    exact List.mem_iff_getElem?.mpr ⟨id, by rwa [Array.getElem?_toList]⟩

theorem length_closedNumbers (tableau : Tableau) :
    tableau.closedNumbers.length = tableau.branches.toList.countP Branch.isClosed := by
  rw [closedNumbers, List.length_map, List.countP_eq_length_filter]

theorem Reachable.mem_closed_iff [Memory] (reachable : Reachable logic formulas tableau) :
    id ∈ tableau.closed ↔ ClosedAt tableau id ∧ ¬ BornClosed logic formulas tableau id := by
  constructor
  · intro listed
    exact ⟨reachable.listsClosed.closed id listed, fun born => born.not_listed listed⟩
  · rintro ⟨closed, notBorn⟩
    by_contra unlisted
    exact notBorn (reachable.bornClosed closed unlisted)

/-- The list is part of all closed branches. -/
theorem Reachable.closed_subperm [Memory] (reachable : Reachable logic formulas tableau) :
    tableau.closed.Subperm tableau.closedNumbers := by
  apply reachable.listsClosed.distinct.subperm
  intro id listed
  exact (mem_closedNumbers_iff reachable.regular).mpr (reachable.listsClosed.closed id listed)

/-- The result, the statistics and the data of the tree all give a number as that of the closed
branches. -/
structure ReportsClosed (tableau : Tableau) (number : Nat) : Prop where
  result : tableau.resultFields.lookup "closed" = some (.nat number)
  statistics : "  Closed branches: " ++ toString number ∈ Report.statistics tableau
  data : ∃ fields, Drawing.data tableau = .object fields ∧
    Json.entry? "closed_branches" fields = some (.nat number)

theorem reportsClosed_iff {number : Nat} :
    ReportsClosed tableau number ↔ tableau.closed.length = number := by
  constructor
  · intro reports
    have given : tableau.resultFields.lookup "closed" = some (.nat tableau.closed.length) := rfl
    have same := Option.some.inj (given.symm.trans reports.result)
    exact Int.ofNat.inj (Json.int.inj same)
  · rintro rfl
    exact ⟨rfl, List.mem_cons_of_mem _ (List.mem_cons_of_mem _ List.mem_cons_self), _, rfl, rfl⟩

/-- In every reachable tableau the list has closed branches only, each once, and it lacks just
those that were closed from their beginning.  So its length is at most the number of closed
branches, and this number is reported if and only if no branch was closed from its beginning. -/
theorem closed_reported_iff_none_born_closed [Memory] (logic : Logic) (formulas : List Signed)
    (tableau : Tableau) (reachable : Reachable logic formulas tableau) :
    tableau.closed.Nodup ∧
    (forall id, id ∈ tableau.closed ↔
      ClosedAt tableau id ∧ ¬ BornClosed logic formulas tableau id) ∧
    ReportsClosed tableau tableau.closed.length ∧
    tableau.closed.length ≤ tableau.branches.toList.countP Branch.isClosed ∧
    (ReportsClosed tableau (tableau.branches.toList.countP Branch.isClosed) ↔
      forall id, ¬ BornClosed logic formulas tableau id) := by
  have regular := reachable.regular
  have within := reachable.closed_subperm
  rw [<- length_closedNumbers]
  refine ⟨reachable.listsClosed.distinct, fun _ => reachable.mem_closed_iff,
    reportsClosed_iff.mpr rfl, within.length_le, ?_⟩
  rw [reportsClosed_iff]
  constructor
  · intro same id born
    have all := within.perm_of_length_le (Nat.le_of_eq same.symm)
    have counted := (mem_closedNumbers_iff regular).mpr born.closedAt
    exact born.not_listed (all.mem_iff.mpr counted)
  · intro noneBorn
    have back : tableau.closedNumbers.Subperm tableau.closed := by
      apply (closedNumbers_nodup regular).subperm
      intro id counted
      exact reachable.mem_closed_iff.mpr ⟨(mem_closedNumbers_iff regular).mp counted, noneBorn id⟩
    exact Nat.le_antisymm within.length_le back.length_le

open scoped Memory

/-- The branch of a contradiction is closed while it is worked on, so it is listed and counted. -/
theorem contradiction_counted :
    ∃ tableau, ofFormulas .standard [⟨.t, .atom "p"⟩, ⟨.t, .neg (.atom "p")⟩] false =
      .ok tableau ∧ tableau.closed = [0] ∧
      (forall id, ¬ BornClosed .standard [⟨.t, .atom "p"⟩, ⟨.t, .neg (.atom "p")⟩] tableau id) := by
  have finished : ∃ tableau,
      ofFormulas .standard [⟨.t, .atom "p"⟩, ⟨.t, .neg (.atom "p")⟩] false = .ok tableau :=
    ⟨_, rfl⟩
  rcases finished with ⟨tableau, finished⟩
  have counted :=
    closed_reported_iff_none_born_closed _ _ tableau (reachable_of_ofFormulas finished)
  cases finished
  exact ⟨_, rfl, rfl, counted.2.2.2.2.mp counted.2.2.1⟩

/-- Two of the three copies that a disjunction splits its branch into are closed by its false part,
and neither is listed. -/
theorem counterexample_copies_closed_unlisted : ∃ tableau, ofFormulas .standard
      [⟨.f, .atom "p"⟩, ⟨.t, .join .disj (.atom "p") (.atom "q")⟩] false = .ok tableau ∧
      tableau.closed = [] ∧ ClosedAt tableau 1 ∧ ClosedAt tableau 3 ∧
      tableau.branches.toList.countP Branch.isClosed = 2 :=
  ⟨_, rfl, rfl, ⟨_, rfl, rfl⟩, ⟨_, rfl, rfl⟩, rfl⟩

end Tableau
end WeakKleene
