import Mathlib.Algebra.Order.BigOperators.Group.List
import Mathlib.Algebra.Order.Ring.Nat
import WeakKleene.Proofs.Saturation

namespace WeakKleene
namespace Tableau

/-!
# Propositional tableaux come to an end

The load of a branch is what its pending nodes weigh.  An expansion replaces a
node by a conclusion that weighs less, so a prolonged branch has a smaller
load.  A split repeats the rest of the branch up to three times, which a sum
of loads would not bear.  With powers of four it does: three branches of a
smaller load come to less than one branch of the old load.

The argument about splits does not depend on how the load of a branch is
measured, so it stands at the beginning, for any measure.
-/

variable {tableau : Tableau} {formulas : List Signed}

/-! ## What is left on all branches -/

section Measure

variable (base : Nat) (left : Tableau -> Branch -> Nat)

def share (tableau : Tableau) (id : Nat) : Nat :=
  (tableau.branch? id).elim 0 fun found => base ^ left tableau found

/-- A measure of what is left on all branches, from what is left on each: a greater branch weighs
more than a number of smaller ones that is less than the base. -/
def potential (tableau : Tableau) : Nat := (tableau.opened.map (share base left tableau)).sum

theorem share_eq {id : Nat} {found : Branch} (known : tableau.branch? id = some found) :
    share base left tableau id = base ^ left tableau found := by
  rw [share, known, Option.elim_some]

end Measure

/-- Smaller powers, fewer of them than the base, come to less than the greater one. -/
theorem sum_lt_pow {base exponent : Nat} {shares : List Nat} (few : shares.length < base)
    (small : forall part, part ∈ shares -> ∃ less, less < exponent ∧ part = base ^ less) :
    shares.sum < base ^ exponent := by
  have positive : 0 < base := Nat.lt_of_le_of_lt (Nat.zero_le _) few
  cases exponent with
  | zero =>
    cases shares with
    | nil => exact Nat.one_pos
    | cons first rest =>
      rcases small first List.mem_cons_self with ⟨less, impossible, _⟩
      exact absurd impossible (Nat.not_lt_zero less)
  | succ exponent =>
    have each : forall part, part ∈ shares -> part ≤ base ^ exponent := by
      intro part member
      rcases small part member with ⟨less, below, equal⟩
      rw [equal]
      exact Nat.pow_le_pow_right positive (Nat.le_of_lt_succ below)
    calc shares.sum ≤ shares.length • base ^ exponent := List.sum_le_card_nsmul shares _ each
      _ < base * base ^ exponent := Nat.mul_lt_mul_of_pos_right few (Nat.pow_pos positive)
      _ = base ^ (exponent + 1) := (Nat.pow_succ'.symm)

variable {after : Tableau} {found : Branch}

/-- The measure falls when an expansion leaves less on each of the branches that it makes.  The
other branches keep what is left on them, as their contents and records stay. -/
theorem Expanded.potential_lt [Memory] {base branch : Nat} {left : Tableau -> Branch -> Nat}
    {marked : Branch} {conclusions : List (List Signed)}
    (expanded : Expanded tableau after branch marked conclusions) (regular : Regular tableau)
    (worked : branch ∈ tableau.opened) (known : tableau.branch? branch = some found)
    (few : conclusions.length < base)
    (stable : forall other : Branch, after.contents other = tableau.contents other ->
      left after other = left tableau other)
    (lower : forall conclusion new, conclusion ∈ conclusions ->
      Prolonged tableau after marked new conclusion -> left after new < left tableau found) :
    after.potential base left < tableau.potential base left := by
  rcases expanded.division with ⟨fresh, opened, division⟩
  let others := tableau.opened.erase branch
  have kept : (others.map (share base left after)).sum =
      (others.map (share base left tableau)).sum := by
    congr 1
    apply List.map_congr_left
    intro id member
    have different := ((List.Nodup.mem_erase_iff regular.openedDistinct).mp member).1
    have worked' := List.mem_of_mem_erase member
    rcases regular.openedFound id worked' with ⟨found', known', _⟩
    have same := expanded.grows.contents (regular.branches id found' known').membersExist
    rw [share_eq _ _ known', share_eq _ _ ((expanded.kept id worked' different).trans known'),
      stable found' same]
  have divided : (fresh.map (share base left after)).sum < share base left tableau branch := by
    rw [share_eq _ _ known]
    apply sum_lt_pow
    · rw [List.length_map]
      exact Nat.lt_of_le_of_lt division.few few
    · intro part member
      rcases List.mem_map.mp member with ⟨id, listed, equal⟩
      rcases division.prolonged listed with ⟨conclusion, chosen, new, knownNew, prolonged⟩
      exact ⟨left after new, lower conclusion new chosen prolonged,
        by rw [<- equal, share_eq _ _ knownNew]⟩
  calc after.potential base left = ((others ++ fresh).map (share base left after)).sum :=
        (opened.map (share base left after)).sum_nat
    _ = (others.map (share base left tableau)).sum + (fresh.map (share base left after)).sum := by
        rw [List.map_append, List.sum_append, kept]
    _ < (others.map (share base left tableau)).sum + share base left tableau branch :=
        Nat.add_lt_add_left divided _
    _ = tableau.potential base left := by
        rw [potential, ((List.perm_cons_erase worked).map (share base left tableau)).sum_nat,
          List.map_cons, List.sum_cons, Nat.add_comm]

/-- A sum whose terms do not grow falls by what one of the terms falls. -/
theorem sum_map_add_le {α : Type} {list : List α} {less more : α -> Nat} {element : α} {fall : Nat}
    (member : element ∈ list) (below : forall other, other ∈ list -> less other ≤ more other)
    (falls : less element + fall ≤ more element) :
    (list.map less).sum + fall ≤ (list.map more).sum := by
  induction list with
  | nil => cases member
  | cons first rest ih =>
    rw [List.map_cons, List.map_cons, List.sum_cons, List.sum_cons]
    have belowRest : forall other, other ∈ rest -> less other ≤ more other :=
      fun other later => below other (List.mem_cons_of_mem _ later)
    rcases List.mem_cons.mp member with equal | later
    · have rest := List.sum_le_sum belowRest
      subst equal
      omega
    · have first := below first List.mem_cons_self
      have rest := ih later belowRest
      omega

/-- The entries of a prolonged branch, weighed.  The weight of one entry falls, the other old ones
do not weigh more, and the new ones weigh no more than what the conclusion allows. -/
theorem Prolonged.sum_add_le {new : Branch} {id fall : Nat} {signed : Signed}
    {constant : Option String} {conclusion : List Signed} {more less : Nat × Signed -> Nat}
    {allowed : Signed -> Nat}
    (prolonged : Prolonged tableau after (found.mark id constant) new conclusion)
    (present : (id, signed) ∈ tableau.contents found)
    (others : forall entry, entry.1 ≠ id -> less entry ≤ more entry)
    (own : less (id, signed) + fall ≤ more (id, signed))
    (added : forall entry, entry.2 ∈ conclusion -> less entry ≤ allowed entry.2) :
    ((after.contents new).map less).sum + fall ≤
      ((tableau.contents found).map more).sum + (conclusion.map allowed).sum := by
  rcases prolonged.contents with ⟨entries, equal, sublist, _⟩
  rw [contents_mark] at equal
  have old : ((tableau.contents found).map less).sum + fall ≤
      ((tableau.contents found).map more).sum := by
    refine sum_map_add_le present ?_ own
    intro entry listed
    by_cases same : entry.1 = id
    · -- A number stands for one formula only.
      have carried := (mem_contents_iff.mp listed).2
      rw [same, (mem_contents_iff.mp present).2] at carried
      have whole : entry = (id, signed) := Prod.ext same (Option.some.inj carried).symm
      rw [whole]
      omega
    · exact others entry same
  have fresh : (entries.map less).sum ≤ (conclusion.map allowed).sum := by
    calc (entries.map less).sum ≤ (entries.map fun entry => allowed entry.2).sum := by
          apply List.sum_le_sum
          intro entry listed
          exact added entry (sublist.subset (List.mem_map_of_mem listed))
      _ = ((entries.map Prod.snd).map allowed).sum := by
          rw [List.map_map]
          rfl
      _ ≤ (conclusion.map allowed).sum := (sublist.map allowed).sum_le_sum fun _ _ => Nat.zero_le _
  rw [equal, List.map_append, List.sum_append]
  omega

/-! ## Without quantifiers -/

def load (tableau : Tableau) (found : Branch) : Nat :=
  ((tableau.contents found).map fun node =>
    if node.1 ∈ found.processed then 0 else node.2.weight).sum

/-- The load of a branch falls by the weight of the expanded node and rises by no more than the
weight of the conclusion. -/
theorem load_prolonged {node : Nat} {new : Branch} {signed : Signed} {conclusion : List Signed}
    (present : (node, signed) ∈ tableau.contents found) (unprocessed : node ∉ found.processed)
    (prolonged : Prolonged tableau after (found.mark node none) new conclusion) :
    after.load new + signed.weight ≤ tableau.load found + (conclusion.map Signed.weight).sum := by
  have processed : new.processed = Sorted.insert node found.processed := prolonged.processed
  refine prolonged.sum_add_le present ?_ ?_ ?_
  · intro entry different
    have same : entry.1 ∈ new.processed ↔ entry.1 ∈ found.processed := by
      rw [processed, Sorted.mem_insert_iff, or_iff_right different]
    simp only [same, Nat.le_refl]
  · rw [if_neg unprocessed,
      if_pos (by rw [processed]; exact Sorted.mem_insert_iff.mpr (Or.inl rfl)), Nat.zero_add]
  · intro entry _
    split
    · exact Nat.zero_le _
    · exact Nat.le_refl _

theorem Advance.potential_lt [Memory] (advance : Advance tableau after)
    (conforming : Conforming formulas tableau) :
    after.potential 4 load < tableau.potential 4 load := by
  rcases conforming.division advance with
    ⟨branch, found, node, signed, conclusions, worked, known, present, unprocessed, cases, expanded⟩
  have analysis := Standard.cases?_analysis cases
  refine expanded.potential_lt conforming.regular worked known (Nat.lt_succ_of_le analysis.few)
    ?_ ?_
  · intro found' same
    rw [load, same, load]
  · intro conclusion new chosen prolonged
    have balance := load_prolonged present unprocessed prolonged
    have lighter := analysis.lighter conclusion chosen
    omega

theorem Conforming.ends [Memory] (conforming : Conforming formulas tableau) :
    Acc (fun after before => Advance before after) tableau := by
  induction bound : tableau.potential 4 load using Nat.strong_induction_on
    generalizing tableau with
  | _ bound ih =>
    constructor
    intro after advance
    have falls := advance.potential_lt conforming
    rw [bound] at falls
    exact ih _ falls (conforming.advances (.single advance)) rfl

end Tableau
end WeakKleene
