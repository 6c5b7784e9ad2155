import WeakKleene.Proofs.Reachability

namespace WeakKleene
namespace Tableau

/-!
# What an expansion leaves of the branches

An expansion by one conclusion prolongs a branch, which may close it.  An
expansion by several gives the branch up for copies, and a copy may close before
its conclusion is complete.  Here all branches are followed, those that close
included: which nodes they carry, and in which of the two lists they stand
afterwards.

A branch is listed as closed if it was worked on when it closed.  A copy is not
worked on before its conclusion is complete, so one that closes is in neither
list.
-/

variable {tableau after : Tableau}

/-! ## Planting the initial formulas -/

variable {found : Branch} {formulas : List Signed}

/-- Where the first branch stands when the initial formulas are on it, or when it closed before. -/
theorem start_lists [Memory] {logic : Logic} {traced : Bool} {initial : Tableau}
    (begun : start logic formulas traced = .ok initial) :
    ∃ found, initial.branch? 0 = some found ∧ initial.branches.size = 1 ∧
      initial.opened = (if found.isClosed then [] else [0]) ∧
      initial.closed = if found.isClosed then [0] else [] := by
  rcases start_extension begun with ⟨_, trace, closed, extension⟩
  rcases extension.flag with ⟨found, known, rfl⟩
  refine ⟨found, known, extension.frame.branchCount, ?_, ?_⟩
  · cases shut : found.isClosed with
    | true => exact (extension.closes shut).1
    | false => exact (extension.stays shut).1
  · have listed := extension.closed
    cases shut : found.isClosed <;> rw [shut] at listed <;> exact listed

/-- At the start there is one branch, which is worked on or listed as closed. -/
theorem start_listed [Memory] {logic : Logic} {traced : Bool} {initial : Tableau}
    {id : Nat} (begun : start logic formulas traced = .ok initial)
    (known : initial.branch? id = some found) :
    if found.isClosed then id ∈ initial.closed else id ∈ initial.opened := by
  rcases start_lists begun with ⟨first, knownFirst, size, opened, closed⟩
  have alone : id = 0 := by
    have bound := lt_of_branch? known
    omega
  rw [alone, knownFirst] at known
  rw [alone, opened, closed, Option.some.inj known]
  split <;> exact List.mem_cons_self

/-! ## Applying an expansion -/

/-- What an expansion does to its branch and to the two lists of branches. -/
inductive Outcome (before after : Tableau) (branch : Nat) (found : Branch) (count : Nat) :
    Prop where
  | prolonged {new : Branch} (single : count = 1) (known : after.branch? branch = some new)
      (longer : Lengthened before after found new)
      (size : after.branches.size = before.branches.size)
      (others : forall id, id ≠ branch -> after.branch? id = before.branch? id)
      (opened : after.opened = if new.isClosed then before.opened.erase branch else before.opened)
      (closed : after.closed = before.closed ++ if new.isClosed then [branch] else [])
  | split {marked : Branch} (several : count ≠ 1) (known : after.branch? branch = some marked)
      (unclosed : marked.isClosed = false) (members : marked.members = found.members)
      (longer : Lengthened before after found marked)
      (size : after.branches.size = before.branches.size + count)
      (others : forall id, id < before.branches.size -> id ≠ branch ->
        after.branch? id = before.branch? id)
      (opened : forall id, id < before.branches.size ->
        (id ∈ after.opened ↔ id ∈ before.opened ∧ id ≠ branch))
      (closed : after.closed = before.closed)
      (news : forall id, before.branches.size ≤ id -> id < after.branches.size ->
        ∃ new, after.branch? id = some new ∧ Lengthened before after found new ∧
          (id ∈ after.opened ↔ new.isClosed = false))

theorem Outcome.recorded {branch count : Nat}
    (outcome : Outcome tableau after branch found count) (source : Nat) (expansion : Expansion) :
    Outcome tableau (tableau.record after source expansion) branch found count := by
  rcases record_eq tableau after source expansion with ⟨trace, equal⟩
  rw [equal]
  cases outcome with
  | prolonged single known longer size others opened closed =>
    exact .prolonged single known ⟨longer.members, longer.unrepeated⟩ size others opened closed
  | split several known unclosed members longer size others opened closed news =>
    refine .split several known unclosed members ⟨longer.members, longer.unrepeated⟩ size others
      opened closed ?_
    intro id beyond bound
    rcases news id beyond bound with ⟨new, knownNew, longerNew, worked⟩
    exact ⟨new, knownNew, ⟨longerNew.members, longerNew.unrepeated⟩, worked⟩

section Apply

variable {source branch : Nat} {name : String} {found : Branch}

theorem extend_outcome [Memory] (conclusion : List Signed)
    (ready : Ready tableau source branch found)
    (worked : branch ∈ tableau.opened) :
    Outcome tableau (tableau.extend source branch name conclusion).1 branch found 1 := by
  have placement := @extend_placement tableau _ source branch name found conclusion ready
  generalize tableau.extend source branch name conclusion = result at placement
  rcases placement.longer with ⟨new, knownNew, longer⟩
  rcases placement.flag with ⟨_, knownNew', flag⟩
  cases knownNew.symm.trans knownNew'
  refine .prolonged rfl knownNew longer placement.frame.branchCount placement.frame.others ?_ ?_
  · rw [flag]
    cases shut : result.2 with
    | true => exact (placement.closes shut).1
    | false => exact (placement.stays shut).1
  · rw [flag, placement.closed, List.contains_iff_mem.mpr worked, Bool.and_true]

theorem split_outcome [Memory] (conclusions : List (List Signed)) (several : conclusions.length ≠ 1)
    (ready : Ready tableau source branch found) :
    Outcome tableau ({ tableau with opened := tableau.opened.erase branch }.split source branch
      name conclusions) branch found conclusions.length := by
  have splitting := @split_splitting _ _ source branch name found conclusions ready.release
  have same := splitting.grows.contents
    (ready.release.regular.branches branch found ready.known).membersExist
  refine .split several ((splitting.olds branch (lt_of_branch? ready.known)).1.trans ready.known)
    (isClosed_eq_false_iff.mpr ready.unclosed) rfl (.of_same rfl same) splitting.count
    (fun id old _ => (splitting.olds id old).1) ?_ splitting.closed ?_
  · intro id old
    rw [(splitting.olds id old).2]
    exact ready.regular.openedDistinct.mem_erase_iff.trans and_comm
  · intro id beyond bound
    rcases splitting.news id beyond bound with ⟨new, knownNew, longer, worked⟩
    exact ⟨new, knownNew, ⟨longer.members, longer.unrepeated⟩, worked⟩

/-- The record that is made on the branch first is no matter of nodes or lists. -/
theorem Outcome.of_marked (source : Nat) (constant : Option String) {count : Nat}
    (outcome : Outcome (tableau.modifyBranch branch fun found => found.mark source constant) after
      branch (found.mark source constant) count) : Outcome tableau after branch found count := by
  have marked : Lengthened tableau (tableau.modifyBranch branch fun found =>
      found.mark source constant) found (found.mark source constant) :=
    .of_same (Branch.mark_members found source constant) (contents_mark found source constant)
  have size : (tableau.modifyBranch branch fun found => found.mark source constant).branches.size =
      tableau.branches.size := Array.size_modify
  cases outcome with
  | prolonged single known longer count others opened closed =>
    refine .prolonged single known (marked.trans longer) (count.trans size) ?_ opened closed
    intro id different
    exact (others id different).trans (branch?_modifyBranch_ne different _)
  | split several known unclosed members longer count others opened closed news =>
    rw [size] at count others opened news
    refine .split several known unclosed (members.trans (Branch.mark_members _ _ _))
      (marked.trans longer) count ?_ opened closed ?_
    · intro id old different
      exact (others id old different).trans (branch?_modifyBranch_ne different _)
    · intro id beyond bound
      rcases news id beyond bound with ⟨new, knownNew, longerNew, worked⟩
      exact ⟨new, knownNew, marked.trans longerNew, worked⟩

/-- What an application does, for any expansion of a node of a branch that is worked on. -/
theorem apply_outcome [Memory] (expansion : Expansion) (regular : Regular tableau)
    (known : tableau.branch? branch = some found) (worked : branch ∈ tableau.opened)
    (member : source ∈ found.members) :
    Outcome tableau (tableau.apply source branch expansion) branch found
      expansion.conclusions.length := by
  have ready := Ready.mark expansion.constant regular known worked member
  have outcome : Outcome tableau (tableau.expand source branch expansion).1 branch found
      expansion.conclusions.length := by
    refine .of_marked source expansion.constant ?_
    unfold expand
    dsimp only
    split
    · next conclusion single =>
      rw [single]
      exact extend_outcome conclusion ready worked
    · next several =>
      refine split_outcome expansion.conclusions ?_ ready
      intro single
      rcases List.length_eq_one_iff.mp single with ⟨conclusion, same⟩
      exact several conclusion same
  rw [apply_eq]
  split
  · exact outcome
  · exact outcome.recorded source expansion

end Apply

theorem Advance.outcome [Memory] (advance : Advance tableau after) (regular : Regular tableau) :
    ∃ branch found count, branch ∈ tableau.opened ∧ tableau.branch? branch = some found ∧
      Outcome tableau after branch found count := by
  cases advance with
  | @expand branch found node expansion worked known waiting =>
    have member := ((mem_pending_iff regular.nodeNumbers).mp waiting).2.1
    exact ⟨branch, found, _, worked, known, apply_outcome expansion regular known worked member⟩

/-! ## Along a run -/

section Run

variable [Memory] {id : Nat} {old new : Branch}

section

variable (advance : Advance tableau after) (regular : Regular tableau)
include advance regular

/-- Whatever is on a branch comes from one branch before. -/
theorem Advance.origin (known : after.branch? id = some new) :
    ∃ origin old, tableau.branch? origin = some old ∧ Lengthened tableau after old new := by
  have grows := (advance.updates regular).grows
  have kept (known : tableau.branch? id = some new) :
      ∃ origin old, tableau.branch? origin = some old ∧ Lengthened tableau after old new :=
    ⟨id, new, known, .of_same rfl (grows.contents (regular.branches id new known).membersExist)⟩
  rcases advance.outcome regular with ⟨branch, found, _, _, knownFound, outcome⟩
  cases outcome with
  | @prolonged last _ knownLast longer _ others =>
    by_cases same : id = branch
    · rw [same, knownLast] at known
      rw [<- Option.some.inj known]
      exact ⟨branch, found, knownFound, longer⟩
    · exact kept ((others id same).symm.trans known)
  | @split marked _ knownMarked _ _ longer _ others _ _ news =>
    by_cases same : id = branch
    · rw [same, knownMarked] at known
      rw [<- Option.some.inj known]
      exact ⟨branch, found, knownFound, longer⟩
    · by_cases isOld : id < tableau.branches.size
      · exact kept ((others id isOld same).symm.trans known)
      · rcases news id (Nat.le_of_not_lt isOld) (lt_of_branch? known) with
          ⟨copy, knownCopy, longerCopy, _⟩
        rw [known] at knownCopy
        rw [Option.some.inj knownCopy]
        exact ⟨branch, found, knownFound, longerCopy⟩

theorem Advance.longer (known : tableau.branch? id = some old) :
    ∃ new, after.branch? id = some new ∧ old.members ⊆ new.members := by
  rcases advance.outcome regular with ⟨branch, found, _, _, knownFound, outcome⟩
  by_cases same : id = branch
  · rw [same, knownFound] at known
    rw [same, <- Option.some.inj known]
    cases outcome with
    | prolonged _ knownLast longer => exact ⟨_, knownLast, longer.members⟩
    | split _ knownMarked _ _ longer => exact ⟨_, knownMarked, longer.members⟩
  · refine ⟨old, ?_, List.Subset.refl _⟩
    cases outcome with
    | prolonged _ _ _ _ others => exact (others id same).trans known
    | split _ _ _ _ _ _ others => exact (others id (lt_of_branch? known) same).trans known

theorem Advance.idle
    (known : tableau.branch? id = some old) (idle : id ∉ tableau.opened) :
    after.branch? id = some old ∧ id ∉ after.opened ∧
      (id ∈ after.closed ↔ id ∈ tableau.closed) := by
  rcases advance.outcome regular with ⟨branch, found, _, worked, _, outcome⟩
  have different : id ≠ branch := by
    rintro rfl
    exact idle worked
  cases outcome with
  | @prolonged last _ _ _ _ others opened closed =>
    refine ⟨(others id different).trans known, ?_, ?_⟩
    · rw [opened]
      split
      · exact fun member => idle (List.mem_of_mem_erase member)
      · exact idle
    · rw [closed, List.mem_append]
      refine or_iff_left ?_
      split
      · exact fun member => different (List.mem_singleton.mp member)
      · exact List.not_mem_nil
  | split _ _ _ _ _ _ others opened closed =>
    have isOld := lt_of_branch? known
    refine ⟨(others id isOld different).trans known, ?_, by rw [closed]⟩
    exact fun member => idle ((opened id isOld).mp member).1

end

theorem Advances.idle (advances : Advances tableau after) (regular : Regular tableau)
    (known : tableau.branch? id = some old) (idle : id ∉ tableau.opened) :
    after.branch? id = some old ∧ id ∉ after.opened ∧
      (id ∈ after.closed ↔ id ∈ tableau.closed) := by
  induction advances with
  | refl => exact ⟨known, idle, Iff.rfl⟩
  | tail earlier advance ih =>
    rcases ih with ⟨knownMiddle, idleMiddle, listed⟩
    rcases advance.idle (regular.advances earlier) knownMiddle idleMiddle with
      ⟨knownAfter, idleAfter, listedAfter⟩
    exact ⟨knownAfter, idleAfter, listedAfter.trans listed⟩

end Run

end Tableau
end WeakKleene
