import WeakKleene.Proofs.Updates

namespace WeakKleene
namespace Tableau

/-!
# What an application does to the branches

A single conclusion prolongs a branch: what the branch does not hold yet is
added at its end, until a conflict closes it.  Several conclusions replace the
branch by prolonged copies of it, one for each conclusion that causes no
conflict.  Both cases have one description, `Expanded`: which branches are
worked on afterwards, what stands on them, and why a conclusion is missing.

The description speaks about contents only.  It holds of both calculi, and of
every expansion, whether a rule or an evaluator proposed it.
-/

variable {tableau : Tableau}

/-! ## Prolonging one branch -/

/-- A branch that carries what another one carried before, and a conclusion behind it.  Formulas
that were held already are not repeated. -/
structure Prolonged (before after : Tableau) (old new : Branch) (conclusion : List Signed) :
    Prop where
  contents : ∃ added, after.contents new = before.contents old ++ added ∧
    (added.map Prod.snd).Sublist conclusion ∧
    forall node, node ∈ added -> before.nodes.size ≤ node.1
  holds : forall signed, signed ∈ conclusion -> new.holds signed = true
  processed : new.processed = old.processed
  instantiated : new.instantiated = old.instantiated
  unclosed : new.closure = none

/-- A conclusion that cannot be put on a branch: one of its formulas conflicts with one that is
there or with another one of its own. -/
def Blocked (tableau : Tableau) (branch : Branch) (conclusion : List Signed) : Prop :=
  ∃ signed, signed ∈ conclusion ∧ ∃ other,
    (other ∈ tableau.formulasOn branch ∨ other ∈ conclusion) ∧ Conflict tableau.logic signed other

namespace Prolonged

variable {before after : Tableau} {old new : Branch} {conclusion : List Signed}

section

variable (prolonged : Prolonged before after old new conclusion)
include prolonged

theorem formulas :
    ∃ added, after.formulasOn new = before.formulasOn old ++ added ∧ added.Sublist conclusion := by
  rcases prolonged.contents with ⟨added, equal, sublist, _⟩
  exact ⟨added.map Prod.snd, by rw [formulasOn, equal, List.map_append, formulasOn], sublist⟩

theorem mem_old {signed : Signed}
    (member : signed ∈ before.formulasOn old) : signed ∈ after.formulasOn new := by
  rcases prolonged.formulas with ⟨added, equal, _⟩
  rw [equal]
  exact List.mem_append_left _ member

theorem mem_new {signed : Signed}
    (member : signed ∈ after.formulasOn new) :
    signed ∈ before.formulasOn old ∨ signed ∈ conclusion := by
  rcases prolonged.formulas with ⟨added, equal, sublist⟩
  rw [equal] at member
  rcases List.mem_append.mp member with there | added
  · exact Or.inl there
  · exact Or.inr (sublist.subset added)

theorem mem_contents {entry : Nat × Signed} (listed : entry ∈ before.contents old) :
    entry ∈ after.contents new := by
  rcases prolonged.contents with ⟨added, equal, _⟩
  rw [equal]
  exact List.mem_append_left _ listed

/-- An entry of a node that is not new stood there before. -/
theorem mem_old_contents {id : Nat} {signed : Signed} (early : id < before.nodes.size)
    (listed : (id, signed) ∈ after.contents new) : (id, signed) ∈ before.contents old := by
  rcases prolonged.contents with ⟨added, equal, _, later⟩
  rw [equal] at listed
  rcases List.mem_append.mp listed with there | recent
  · exact there
  · exact absurd early (Nat.not_lt_of_le (later _ recent))

/-- The starting point may be an earlier tableau with the same contents, and later growth of the
tree does not concern the branch. -/
theorem between {first last : Tableau} (grows : Grows first before)
    (same : before.contents old = first.contents old)
    (same' : last.contents new = after.contents new) :
    Prolonged first last old new conclusion := by
  refine { prolonged with contents := ?_ }
  rcases prolonged.contents with ⟨added, equal, sublist, later⟩
  rw [<- same', same] at equal
  exact ⟨added, equal, sublist, fun node member => Nat.le_trans grows.size (later node member)⟩

end

end Prolonged

/-! ### One formula after the other -/

/-- A change that concerns one branch: the tree grows, and other branches stay as they are. -/
structure Frame (before after : Tableau) (branch : Nat) : Prop where
  grows : Grows before after
  others : forall other, other ≠ branch -> after.branch? other = before.branch? other
  branchCount : after.branches.size = before.branches.size
  logic : after.logic = before.logic

theorem Frame.refl (tableau : Tableau) (branch : Nat) : Frame tableau tableau branch :=
  ⟨Grows.refl tableau, fun _ _ => rfl, rfl, rfl⟩

variable {branch : Nat} {after : Tableau} {signed : Signed} {old new found : Branch}
variable {rest conclusion : List Signed} {conclusions : List (List Signed)} {fresh : List Nat}

theorem Frame.trans {first second third : Tableau}
    (left : Frame first second branch) (right : Frame second third branch) :
    Frame first third branch where
  grows := left.grows.trans right.grows
  others := fun other different =>
    (right.others other different).trans (left.others other different)
  branchCount := right.branchCount.trans left.branchCount
  logic := right.logic.trans left.logic

theorem Added.frame {before : Tableau}
    (added : Added before after branch signed) : Frame before after branch :=
  ⟨added.grows, added.others, added.branchCount, added.logic⟩

/-- The outcome of putting a conclusion on a branch.  The flag tells whether the branch is closed,
and if so it is listed, provided that it was worked on. -/
structure Extension [Memory] (before : Tableau) (branch : Nat) (found : Branch)
    (conclusion : List Signed) (result : Tableau × Bool) : Prop where
  frame : Frame before result.1 branch
  updates : Updates before result.1
  stays : result.2 = false -> result.1.opened = before.opened ∧
    ∃ new, result.1.branch? branch = some new ∧ Prolonged before result.1 found new conclusion
  closes : result.2 = true -> result.1.opened = before.opened.erase branch ∧
    Blocked before found conclusion
  flag : ∃ new, result.1.branch? branch = some new ∧ new.isClosed = result.2
  closed : result.1.closed =
    before.closed ++ if result.2 && before.opened.contains branch then [branch] else []

theorem Prolonged.nil {branch : Branch} (unclosed : branch.closure = none) :
    Prolonged tableau tableau branch branch [] where
  contents := ⟨[], (List.append_nil _).symm, List.Sublist.refl _,
    nofun⟩
  holds := nofun
  processed := rfl
  instantiated := rfl
  unclosed := unclosed

/-- A formula that is held already need not be added. -/
theorem Prolonged.cons_held (prolonged : Prolonged tableau after old new rest)
    (regular : RegularBranch tableau branch old) (regular' : RegularBranch after branch new)
    (held : old.holds signed = true) : Prolonged tableau after old new (signed :: rest) := by
  refine { prolonged with contents := ?_, holds := ?_ }
  · rcases prolonged.contents with ⟨added, equal, sublist, later⟩
    exact ⟨added, equal, sublist.cons _, later⟩
  · intro part member
    rcases List.mem_cons.mp member with equal | listed
    · rw [equal]
      rcases (regular.holds_iff signed).mp held with ⟨other, there, fits⟩
      exact (regular'.holds_iff signed).mpr ⟨other, prolonged.mem_old there, fits⟩
    · exact prolonged.holds part listed

theorem formulasOn_register {branch : Branch} {id : Nat}
    (carried : tableau.signedAt? id = some signed) :
    tableau.formulasOn (branch.register id signed) = tableau.formulasOn branch ++ [signed] := by
  rw [formulasOn, contents_register carried, List.map_append]
  rfl

/-- A formula that was added stands right behind what was there. -/
theorem Prolonged.cons_added {middle : Tableau} (added : Added tableau middle branch signed)
    (regular : RegularBranch tableau branch old) (regular' : RegularBranch after branch new)
    (prolonged : Prolonged middle after (old.register tableau.nodes.size signed) new rest) :
    Prolonged tableau after old new (signed :: rest) := by
  have there := added.grows.contents regular.membersExist
  have registered : middle.contents (old.register tableau.nodes.size signed) =
      tableau.contents old ++ [(tableau.nodes.size, signed)] := by
    rw [contents_register added.new, there]
  refine ⟨?_, ?_, prolonged.processed, prolonged.instantiated, prolonged.unclosed⟩
  · rcases prolonged.contents with ⟨more, equal, sublist, later⟩
    refine ⟨(tableau.nodes.size, signed) :: more, ?_, sublist.cons_cons _, ?_⟩
    · rw [equal, registered, List.append_assoc, List.singleton_append]
    · intro node member
      rcases List.mem_cons.mp member with first | listed
      · exact Nat.le_of_eq (congrArg Prod.fst first).symm
      · exact Nat.le_trans added.grows.size (later node listed)
  · intro part member
    rcases List.mem_cons.mp member with equal | listed
    · rw [equal]
      have carried : signed ∈ middle.formulasOn (old.register tableau.nodes.size signed) := by
        rw [formulasOn_register added.new]
        exact List.mem_append_right _ List.mem_cons_self
      exact (regular'.holds_iff signed).mpr ⟨signed, prolonged.mem_old carried, rfl, rfl⟩
    · exact prolonged.holds part listed

/-- What blocks the rest of a conclusion behind an added formula blocks the whole. -/
theorem Blocked.cons_added {middle : Tableau} (added : Added tableau middle branch signed)
    (regular : RegularBranch tableau branch old)
    (blocked : Blocked middle (old.register tableau.nodes.size signed) rest) :
    Blocked tableau old (signed :: rest) := by
  rcases blocked with ⟨part, member, other, place, conflict⟩
  rw [added.logic] at conflict
  refine ⟨part, List.mem_cons_of_mem _ member, other, ?_, conflict⟩
  rw [formulasOn_register added.new, formulasOn, added.grows.contents regular.membersExist] at place
  rcases place with there | listed
  · rcases List.mem_append.mp there with old | new
    · exact Or.inl old
    · rw [List.mem_singleton.mp new]
      exact Or.inr List.mem_cons_self
  · exact Or.inr (List.mem_cons_of_mem _ listed)

/-! ### Longer branches -/

def SameEntry (signed other : Signed) : Prop :=
  signed.formula.text = other.formula.text ∧ signed.sign = other.sign

/-- Only nodes below the given number repeat each other. -/
def Unrepeated (bound : Nat) (contents : List (Nat × Signed)) : Prop :=
  contents.Pairwise fun earlier later =>
    SameEntry earlier.2 later.2 -> earlier.1 < bound ∧ later.1 < bound

/-- A branch that carries all nodes of another one, and beyond them nothing that it repeats. -/
structure Lengthened (before after : Tableau) (old new : Branch) : Prop where
  members : old.members ⊆ new.members
  unrepeated : forall bound, Unrepeated bound (before.contents old) ->
    Unrepeated bound (after.contents new)

namespace Lengthened

variable {before middle : Tableau} {old between new : Branch}

theorem of_same (members : new.members = old.members)
    (contents : after.contents new = before.contents old) : Lengthened before after old new where
  members := members ▸ List.Subset.refl _
  unrepeated := by
    intro bound unrepeated
    rwa [contents]

theorem trans (first : Lengthened before middle old between)
    (second : Lengthened middle after between new) : Lengthened before after old new where
  members := List.Subset.trans first.members second.members
  unrepeated := fun bound unrepeated => second.unrepeated bound (first.unrepeated bound unrepeated)

/-- A formula that is missing is put at the end of a branch. -/
theorem register (regular : RegularBranch tableau branch found)
    (added : Added tableau after branch signed) (missing : found.holds signed = false) :
    Lengthened tableau after found (found.register tableau.nodes.size signed) where
  members := List.subset_append_left _ _
  unrepeated := by
    intro bound unrepeated
    rw [contents_register added.new, added.grows.contents regular.membersExist]
    apply List.pairwise_append.mpr
    refine ⟨unrepeated, List.pairwise_singleton _ _, ?_⟩
    intro earlier member later last alike
    rw [List.mem_singleton.mp last] at alike
    have held := (regular.holds_iff signed).mpr
      ⟨earlier.2, mem_formulasOn_iff.mpr ⟨earlier.1, member⟩, alike⟩
    rw [missing] at held
    cases held

end Lengthened

section Extend

variable [Memory]
variable {source branch : Nat} {rule : String} {found : Branch} {signed : Signed}
variable {rest : List Signed} {result : Tableau × Bool}

/-! ### The outcome of a conclusion, from its first formula and the others -/

theorem Extension.nil (known : tableau.branch? branch = some found)
    (unclosed : found.closure = none) : Extension tableau branch found [] (tableau, false) :=
  ⟨Frame.refl tableau branch, .refl, fun _ => ⟨rfl, found, known, Prolonged.nil unclosed⟩,
    nofun, ⟨found, known, isClosed_eq_false_iff.mpr unclosed⟩, (List.append_nil _).symm⟩

theorem Extension.cons_held (regular : Regular tableau)
    (known : tableau.branch? branch = some found) (held : found.holds signed = true)
    (extension : Extension tableau branch found rest result) :
    Extension tableau branch found (signed :: rest) result := by
  refine { extension with stays := ?_, closes := ?_ }
  · intro stays
    rcases extension.stays stays with ⟨opened, new, known', prolonged⟩
    have regularNew := (regular.updates extension.updates).branches branch new known'
    exact ⟨opened, new, known',
      prolonged.cons_held (regular.branches branch found known) regularNew held⟩
  · intro closes
    rcases extension.closes closes with ⟨opened, part, member, other, place, conflict⟩
    refine ⟨opened, part, List.mem_cons_of_mem _ member, other, ?_, conflict⟩
    exact place.imp_right (List.mem_cons_of_mem _)

section AddFirst

variable {parent : Option Nat} {reason : Option String} {settled : Tableau}
variable (known : tableau.branch? branch = some found)
include known

theorem add_closed :
    (tableau.add parent reason branch signed).1.closed = tableau.closed ++
      if (tableau.add parent reason branch signed).2 && tableau.opened.contains branch then [branch]
      else [] := by
  rcases @add_cases tableau _ parent reason branch signed found known with
    ⟨present, _, equal⟩ | ⟨_, equal⟩
  · rw [equal, close_closed, grow_closed, grow_opened, Bool.true_and]
  · rw [equal, register_closed, grow_closed]
    exact (List.append_nil _).symm

theorem Extension.cons_closing (rest : List Signed) (regular : Regular tableau)
    (change : Update tableau settled)
    (outcome : tableau.add parent reason branch signed = (settled, true)) :
    Extension tableau branch found (signed :: rest) (settled, true) := by
  have added := @add_added tableau _ parent reason branch signed found known
  have closed := @add_closed tableau _ branch found signed parent reason known
  rcases add_closes regular known (by rw [outcome]) with
    ⟨opened, present, other, _, listed, conflict, shut⟩
  rw [outcome] at opened added closed shut
  refine ⟨added.frame, .single change, nofun, ?_, ⟨_, shut, rfl⟩, closed⟩
  intro _
  exact ⟨opened, signed, List.mem_cons_self, other,
    Or.inl (mem_formulasOn_iff.mpr ⟨present, listed⟩), conflict⟩

theorem Extension.cons_staying (regular : Regular tableau) (change : Update tableau settled)
    (outcome : tableau.add parent reason branch signed = (settled, false))
    (extension : Extension settled branch (found.register tableau.nodes.size signed) rest result) :
    Extension tableau branch found (signed :: rest) result := by
  have added := @add_added tableau _ parent reason branch signed found known
  have unlisted := @add_closed tableau _ branch found signed parent reason known
  have regularFound := regular.branches branch found known
  rcases add_stays regular known (by rw [outcome]) with ⟨opened, _, _⟩
  rw [outcome] at opened added unlisted
  refine ⟨added.frame.trans extension.frame, .head change extension.updates, ?_, ?_,
    extension.flag, ?_⟩
  · intro stays
    rcases extension.stays stays with ⟨opened', new, known', prolonged⟩
    have regularNew :=
      ((regular.update change).updates extension.updates).branches branch new known'
    exact ⟨opened'.trans opened, new, known', prolonged.cons_added added regularFound regularNew⟩
  · intro closes
    rcases extension.closes closes with ⟨opened', blocked⟩
    exact ⟨opened'.trans (by rw [opened]), blocked.cons_added added regularFound⟩
  · rw [extension.closed, opened, unlisted]
    exact congrArg (· ++ _) (List.append_nil _)

end AddFirst

theorem extend_cons (source branch : Nat) (rule : String) (signed : Signed) (rest : List Signed) :
    tableau.extend source branch rule (signed :: rest) =
      if (tableau.branch? branch).any fun found => found.holds signed then
        tableau.extend source branch rule rest
      else match tableau.add (some source) (some rule) branch signed with
        | (settled, true) => (settled, true)
        | (settled, false) => settled.extend source branch rule rest := by
  rw [extend]
  rfl

theorem extend_held (known : tableau.branch? branch = some found)
    (held : found.holds signed = true) :
    tableau.extend source branch rule (signed :: rest) =
      tableau.extend source branch rule rest := by
  rw [extend_cons, known, Option.any_some, if_pos held]

theorem extend_missing (known : tableau.branch? branch = some found)
    (missing : found.holds signed = false) :
    tableau.extend source branch rule (signed :: rest) =
      match tableau.add (some source) (some rule) branch signed with
      | (settled, true) => (settled, true)
      | (settled, false) => settled.extend source branch rule rest := by
  rw [extend_cons, known, Option.any_some, if_neg (by rw [missing]; exact Bool.false_ne_true)]

/-- A branch that is not closed, and a node to put formulas under. -/
structure Ready (tableau : Tableau) (source branch : Nat) (found : Branch) : Prop where
  regular : Regular tableau
  known : tableau.branch? branch = some found
  unclosed : found.closure = none
  below : source < tableau.nodes.size

/-- The outcome of a conclusion whose formulas are looked up first: the branch is longer, but what
it holds is not repeated. -/
structure Placement (before : Tableau) (branch : Nat) (found : Branch) (conclusion : List Signed)
    (result : Tableau × Bool) : Prop extends Extension before branch found conclusion result where
  longer : ∃ new, result.1.branch? branch = some new ∧ Lengthened before result.1 found new

/-- Putting a conclusion on a branch, formula by formula. -/
theorem extend_placement (conclusion : List Signed) (ready : Ready tableau source branch found) :
    Placement tableau branch found conclusion (tableau.extend source branch rule conclusion) := by
  -- Each formula changes the tree and the branch, so both vary in the induction.
  induction conclusion generalizing tableau found with
  | nil =>
    exact ⟨Extension.nil ready.known ready.unclosed, found, ready.known, .of_same rfl rfl⟩
  | cons signed rest ih =>
    rcases ready with ⟨regular, known, unclosed, below⟩
    cases held : found.holds signed with
    | true =>
      have placement := ih ⟨regular, known, unclosed, below⟩
      rw [extend_held known held]
      exact ⟨placement.cons_held regular known held, placement.longer⟩
    | false =>
      have change : Update tableau (tableau.add (some source) (some rule) branch signed).1 :=
        .add _ _ _ known unclosed (fun id equal => by rw [<- Option.some.inj equal]; exact below)
          nofun (fun _ => held)
      have added := @add_added tableau _ (some source) (some rule) branch signed found known
      have regularFound := regular.branches branch found known
      rw [extend_missing known held]
      cases outcome : tableau.add (some source) (some rule) branch signed with
      | mk settled closed =>
        rw [outcome] at change added
        cases closed with
        | true =>
          rcases add_closes regular known (by rw [outcome]) with ⟨_, _, _, _, _, _, shut⟩
          rw [outcome] at shut
          exact ⟨.cons_closing known rest regular change outcome, _, shut,
            .of_same rfl (added.grows.contents regularFound.membersExist)⟩
        | false =>
          rcases add_stays regular known (by rw [outcome]) with ⟨_, known', _⟩
          rw [outcome] at known'
          have placement := ih ⟨regular.update change, known', unclosed,
            Nat.lt_of_lt_of_le below added.grows.size⟩
          rcases placement.longer with ⟨new, knownNew, longer⟩
          exact ⟨.cons_staying known regular change outcome placement.toExtension, new, knownNew,
            (Lengthened.register regularFound added held).trans longer⟩

end Extend

/-! ## Splitting a branch -/

/-- What a branch is replaced by: for each conclusion a prolonged branch, unless the conclusion
is blocked. -/
inductive Division (before after : Tableau) (found : Branch) :
    List (List Signed) -> List Nat -> Prop where
  | nil : Division before after found [] []
  | shut {conclusion : List Signed} {conclusions : List (List Signed)} {fresh : List Nat}
      (blocked : Blocked before found conclusion)
      (others : Division before after found conclusions fresh) :
      Division before after found (conclusion :: conclusions) fresh
  | grown {conclusion : List Signed} {conclusions : List (List Signed)} {fresh : List Nat}
      {id : Nat} {new : Branch} (known : after.branch? id = some new)
      (prolonged : Prolonged before after found new conclusion)
      (others : Division before after found conclusions fresh) :
      Division before after found (conclusion :: conclusions) (id :: fresh)

theorem Blocked.congr {other : Tableau} {branch branch' : Branch}
    (blocked : Blocked other branch' conclusion)
    (same : other.contents branch' = tableau.contents branch)
    (logic : other.logic = tableau.logic) : Blocked tableau branch conclusion := by
  rcases blocked with ⟨signed, member, present, place, conflict⟩
  rw [formulasOn, same] at place
  rw [logic] at conflict
  exact ⟨signed, member, present, place, conflict⟩

namespace Division

section

variable (division : Division tableau after found conclusions fresh)
include division

/-- The starting point of a division may be an earlier tableau with the same contents, and its end
a later one where the branches are the same. -/
theorem between {first last : Tableau} (grows : Grows first tableau)
    (same : tableau.contents found = first.contents found)
    (logic : tableau.logic = first.logic)
    (later : forall {id new}, after.branch? id = some new ->
      last.branch? id = some new ∧ last.contents new = after.contents new) :
    Division first last found conclusions fresh := by
  induction division with
  | nil => exact .nil
  | shut blocked _ ih => exact .shut (blocked.congr same logic) ih
  | grown known prolonged _ ih =>
    exact .grown (later known).1 (prolonged.between grows same (later known).2) ih

theorem few : fresh.length ≤ conclusions.length := by
  induction division with
  | nil => exact Nat.le_refl _
  | shut _ _ ih => exact Nat.le_succ_of_le ih
  | grown _ _ _ ih => exact Nat.succ_le_succ ih

theorem prolonged {id : Nat} (member : id ∈ fresh) : ∃ conclusion, conclusion ∈ conclusions ∧
    ∃ new, after.branch? id = some new ∧ Prolonged tableau after found new conclusion := by
  induction division with
  | nil => cases member
  | shut _ _ ih => exact (ih member).imp fun _ => And.imp_left (List.mem_cons_of_mem _)
  | grown known prolonged _ ih =>
    rcases List.mem_cons.mp member with rfl | later
    · exact ⟨_, List.mem_cons_self, _, known, prolonged⟩
    · exact (ih later).imp fun _ => And.imp_left (List.mem_cons_of_mem _)

theorem exhaustive (listed : conclusion ∈ conclusions) :
    (∃ id, id ∈ fresh ∧ ∃ new, after.branch? id = some new ∧
      Prolonged tableau after found new conclusion) ∨ Blocked tableau found conclusion := by
  induction division with
  | nil => cases listed
  | shut blocked _ ih =>
    rcases List.mem_cons.mp listed with rfl | later
    · exact Or.inr blocked
    · exact ih later
  | grown known prolonged _ ih =>
    rcases List.mem_cons.mp listed with rfl | later
    · exact Or.inl ⟨_, List.mem_cons_self, _, known, prolonged⟩
    · exact (ih later).imp_left fun found =>
        found.imp fun _ => And.imp_left (List.mem_cons_of_mem _)

end

end Division

/-- The outcome of splitting a branch: all branches that were there stay as they are, each
conclusion has a copy, and those copies that are taken up divide the branch.  None is listed as
closed. -/
structure Splitting [Memory] (before after : Tableau) (found : Branch)
    (conclusions : List (List Signed)) : Prop where
  grows : Grows before after
  logic : after.logic = before.logic
  updates : Updates before after
  closed : after.closed = before.closed
  count : after.branches.size = before.branches.size + conclusions.length
  olds : forall id, id < before.branches.size ->
    after.branch? id = before.branch? id ∧ (id ∈ after.opened ↔ id ∈ before.opened)
  division : ∃ fresh, after.opened = before.opened ++ fresh ∧
    Division before after found conclusions fresh
  news : forall id, before.branches.size ≤ id -> id < after.branches.size ->
    ∃ new, after.branch? id = some new ∧ Lengthened before after found new ∧
      (id ∈ after.opened ↔ new.isClosed = false)

section Split

variable [Memory]
variable {source branch : Nat} {rule : String} {found : Branch}

/-- The branch for the first conclusion is made before the others. -/
theorem split_cons (conclusion : List Signed) (rest : List (List Signed)) :
    tableau.split source branch rule (conclusion :: rest) =
      (match (tableau.fork branch).1.extend source tableau.branches.size rule conclusion with
        | (grown, true) => grown
        | (grown, false) => { grown with opened := grown.opened ++ [tableau.branches.size] }).split
        source branch rule rest := by
  have number := fork_snd tableau branch
  rw [split]
  cases forked : tableau.fork branch with
  | mk copy id =>
    rw [forked] at number
    subst number
    rfl

/-- The first conclusion of a split gets a branch of its own, with the next number.  It is worked
on unless the conclusion is blocked. -/
structure Forking (before after : Tableau) (found : Branch) (conclusion : List Signed) : Prop where
  grows : Grows before after
  logic : after.logic = before.logic
  updates : Updates before after
  closed : after.closed = before.closed
  count : after.branches.size = before.branches.size + 1
  olds : forall id, id < before.branches.size ->
    after.branch? id = before.branch? id ∧ (id ∈ after.opened ↔ id ∈ before.opened)
  copy : ∃ new, after.branch? before.branches.size = some new ∧
    Lengthened before after found new ∧
    (before.branches.size ∈ after.opened ↔ new.isClosed = false) ∧
    ((after.opened = before.opened ∧ Blocked before found conclusion) ∨
      (after.opened = before.opened ++ [before.branches.size] ∧
        Prolonged before after found new conclusion))

theorem fork_forking (conclusion : List Signed) (ready : Ready tableau source branch found) :
    Forking tableau
      (match (tableau.fork branch).1.extend source tableau.branches.size rule conclusion with
        | (grown, true) => grown
        | (grown, false) => { grown with opened := grown.opened ++ [tableau.branches.size] })
      found conclusion := by
  rcases ready with ⟨regular, known, unclosed, below⟩
  have forked : Update tableau (tableau.fork branch).1 := .fork known unclosed
  have same := (fork_sameTree tableau branch).sameNodes
  have growsForked := Grows.of_same same
  have placement := @extend_placement (tableau.fork branch).1 _ source tableau.branches.size rule
    _ conclusion ⟨regular.update forked, fork_branch_new known, rfl,
      Nat.lt_of_lt_of_le below growsForked.size⟩
  have absent := regular.size_not_mem_opened
  cases result : (tableau.fork branch).1.extend source tableau.branches.size rule conclusion with
  | mk grown closed =>
    rw [result] at placement
    have grows := growsForked.trans placement.frame.grows
    have logic := placement.frame.logic.trans (fork_logic tableau branch)
    have updates := placement.updates.head forked
    have count := placement.frame.branchCount.trans (fork_branches_size tableau branch)
    have olds : forall id, id < tableau.branches.size -> grown.branch? id = tableau.branch? id := by
      intro id bound
      rw [placement.frame.others id (Nat.ne_of_lt bound), fork_branch_old (Nat.ne_of_lt bound)]
    have unlisted : grown.closed = tableau.closed := by
      have idle : tableau.opened.contains tableau.branches.size = false := by
        rwa [List.contains_eq_mem, decide_eq_false_iff_not]
      rw [placement.closed, fork_closed, fork_opened, idle, Bool.and_false]
      exact List.append_nil _
    rcases placement.longer with ⟨new, knownNew, further⟩
    rcases placement.flag with ⟨_, knownNew', flag⟩
    cases knownNew.symm.trans knownNew'
    -- The copy differs from the branch in its number only, which contents do not show.
    have copied : Lengthened tableau (tableau.fork branch).1 found
        { found with id := tableau.branches.size, closure := none } :=
      .of_same rfl (same.contents found)
    have longer := copied.trans further
    cases closed with
    | true =>
      rcases placement.closes rfl with ⟨opened, blocked⟩
      rw [fork_opened, List.erase_of_not_mem absent] at opened
      refine ⟨grows, logic, updates, unlisted, count, fun id old => ⟨olds id old, by rw [opened]⟩,
        new, knownNew, longer, ?_,
        .inl ⟨opened, blocked.congr (same.contents found) (fork_logic tableau branch)⟩⟩
      rw [opened, flag]
      exact iff_of_false absent nofun
    | false =>
      rcases placement.stays rfl with ⟨opened, _, knownNew', prolonged⟩
      cases knownNew.symm.trans knownNew'
      rw [fork_opened] at opened
      have whole : Prolonged (tableau.fork branch).1 grown found new conclusion :=
        { prolonged with }
      refine ⟨⟨grows.size, grows.signed⟩, logic, updates.tail (.takeUp knownNew prolonged.unclosed
        (by rwa [opened])), unlisted, count, fun id old => ⟨olds id old, ?_⟩, new, knownNew,
        ⟨longer.members, longer.unrepeated⟩,
        iff_of_true (List.mem_append_right _ List.mem_cons_self) flag,
        .inr ⟨congrArg (· ++ _) opened, whole.between growsForked (same.contents found) rfl⟩⟩
      show id ∈ grown.opened ++ [tableau.branches.size] ↔ id ∈ tableau.opened
      rw [opened, List.mem_append, List.mem_singleton]
      exact or_iff_left (Nat.ne_of_lt old)

/-- A split of the first conclusion followed by a split of the others. -/
theorem Forking.splitting {middle : Tableau} {rest : List (List Signed)}
    (forking : Forking tableau middle found conclusion)
    (splitting : Splitting middle after found rest) (regular : Regular middle)
    (regularFound : RegularBranch tableau branch found) :
    Splitting tableau after found (conclusion :: rest) := by
  have same := forking.grows.contents regularFound.membersExist
  have bound : tableau.branches.size < middle.branches.size := by
    rw [forking.count]
    exact Nat.lt_succ_self _
  rcases forking.copy with ⟨new, known, longer, worked, outcome⟩
  rcases splitting.olds _ bound with ⟨knownAfter, still⟩
  rw [known] at knownAfter
  have sameNew := splitting.grows.contents (regular.branches _ new known).membersExist
  refine ⟨forking.grows.trans splitting.grows, splitting.logic.trans forking.logic,
    forking.updates.trans splitting.updates, splitting.closed.trans forking.closed, ?_, ?_, ?_, ?_⟩
  · rw [splitting.count, forking.count, List.length_cons]
    omega
  · intro id old
    rcases splitting.olds id (Nat.lt_trans old bound) with ⟨same, still⟩
    exact ⟨same.trans (forking.olds id old).1, still.trans (forking.olds id old).2⟩
  · rcases splitting.division with ⟨fresh, taken, division⟩
    have division' := division.between forking.grows same forking.logic fun known => ⟨known, rfl⟩
    rcases outcome with ⟨opened, blocked⟩ | ⟨opened, prolonged⟩
    · exact ⟨fresh, by rw [taken, opened], .shut blocked division'⟩
    · refine ⟨tableau.branches.size :: fresh, ?_,
        .grown knownAfter (prolonged.between (.refl _) rfl sameNew) division'⟩
      rw [taken, opened, List.append_assoc, List.singleton_append]
  · intro id beyond within
    rcases Nat.eq_or_lt_of_le beyond with rfl | later
    · exact ⟨new, knownAfter, longer.trans (.of_same rfl sameNew), still.trans worked⟩
    · rcases splitting.news id (by rwa [forking.count]) within with
        ⟨copy, knownCopy, longerCopy, workedCopy⟩
      exact ⟨copy, knownCopy, Lengthened.trans (.of_same rfl same) longerCopy, workedCopy⟩

theorem split_splitting (conclusions : List (List Signed))
    (ready : Ready tableau source branch found) :
    Splitting tableau (tableau.split source branch rule conclusions) found conclusions := by
  induction conclusions generalizing tableau with
  | nil =>
    exact ⟨Grows.refl tableau, rfl, .refl, rfl, rfl, fun _ _ => ⟨rfl, Iff.rfl⟩,
      ⟨[], (List.append_nil _).symm, .nil⟩,
      fun id beyond within => absurd within (Nat.not_lt.mpr beyond)⟩
  | cons conclusion rest ih =>
    have forking := @fork_forking tableau _ source branch rule found conclusion ready
    have regularMiddle := ready.regular.updates forking.updates
    have knownMiddle := (forking.olds branch (lt_of_branch? ready.known)).1.trans ready.known
    rw [split_cons]
    exact forking.splitting (ih ⟨regularMiddle, knownMiddle, ready.unclosed,
        Nat.lt_of_lt_of_le ready.below forking.grows.size⟩)
      regularMiddle (ready.regular.branches branch found ready.known)

end Split

/-! ## Applying an expansion -/

theorem record_eq (before after : Tableau) (source : Nat) (expansion : Expansion) :
    ∃ trace, before.record after source expansion = { after with trace := trace } := by
  unfold record
  split
  · exact ⟨_, rfl⟩
  · exact ⟨after.trace, rfl⟩

variable [Memory]

/-- What an application comes to before it is recorded, and whether that is the end of it because
a single conclusion has closed the branch. -/
def expand (tableau : Tableau) (source branch : Nat) (expansion : Expansion) : Tableau × Bool :=
  let marked := tableau.modifyBranch branch fun found => found.mark source expansion.constant
  match expansion.conclusions with
  | [conclusion] => marked.extend source branch expansion.name conclusion
  | conclusions =>
    ({ marked with opened := marked.opened.erase branch }.split source branch expansion.name
      conclusions, false)

theorem apply_eq (source branch : Nat) (expansion : Expansion) :
    tableau.apply source branch expansion = if (tableau.expand source branch expansion).2 then
      (tableau.expand source branch expansion).1
    else tableau.record (tableau.expand source branch expansion).1 source expansion := by
  rcases expansion with ⟨name, kind, conclusions, constant⟩
  match conclusions with
  | [] | _ :: _ :: _ => rfl
  | [conclusion] =>
    simp only [apply, expand]
    split <;> next equal => simp [equal]

/-- The outcome of an application: the other branches that are worked on stay as they are, and
the branch with its new record is divided by the conclusions. -/
structure Expanded (before after : Tableau) (branch : Nat) (marked : Branch)
    (conclusions : List (List Signed)) : Prop where
  grows : Grows before after
  logic : after.logic = before.logic
  updates : Updates before after
  kept : forall id, id ∈ before.opened -> id ≠ branch -> after.branch? id = before.branch? id
  division : ∃ fresh, after.opened.Perm (before.opened.erase branch ++ fresh) ∧
    Division before after marked conclusions fresh

theorem Expanded.recorded {marked : Branch}
    (expanded : Expanded tableau after branch marked conclusions)
    (source : Nat) (expansion : Expansion) :
    Expanded tableau (tableau.record after source expansion) branch marked conclusions := by
  rcases record_eq tableau after source expansion with ⟨trace, equal⟩
  rw [equal]
  rcases expanded.division with ⟨fresh, opened, division⟩
  exact ⟨⟨expanded.grows.size, expanded.grows.signed⟩, expanded.logic,
    expanded.updates.tail (.record trace), expanded.kept, fresh, opened,
    division.between (.refl _) rfl rfl fun known => ⟨known, rfl⟩⟩

section Apply

variable {source branch : Nat} {rule : String} {found marked : Branch}

theorem Ready.mark (constant : Option String) (regular : Regular tableau)
    (known : tableau.branch? branch = some found) (worked : branch ∈ tableau.opened)
    (member : source ∈ found.members) :
    Ready (tableau.modifyBranch branch fun found => found.mark source constant) source branch
      (found.mark source constant) where
  regular := regular.update (.mark constant known (regular.unclosed worked known) member)
  known := branch?_modifyBranch_self known _
  unclosed := (Branch.mark_closure found source constant).trans (regular.unclosed worked known)
  below := (regular.branches branch found known).membersExist source member

theorem Ready.release (ready : Ready tableau source branch found) :
    Ready { tableau with opened := tableau.opened.erase branch } source branch found :=
  { ready with regular := ready.regular.update (.release branch) }

theorem extend_expanded (conclusion : List Signed) (ready : Ready tableau source branch marked)
    (worked : branch ∈ tableau.opened) :
    Expanded tableau (tableau.extend source branch rule conclusion).1 branch marked
      [conclusion] := by
  have placement := @extend_placement tableau _ source branch rule marked conclusion ready
  refine ⟨placement.frame.grows, placement.frame.logic, placement.updates,
    fun id _ different => placement.frame.others id different, ?_⟩
  cases closed : (tableau.extend source branch rule conclusion).2 with
  | false =>
    rcases placement.stays closed with ⟨opened, new, knownNew, prolonged⟩
    refine ⟨[branch], ?_, .grown knownNew prolonged .nil⟩
    rw [opened]
    exact (List.perm_cons_erase worked).trans (List.perm_append_singleton branch _).symm
  | true =>
    rcases placement.closes closed with ⟨opened, blocked⟩
    exact ⟨[], by rw [opened, List.append_nil], .shut blocked .nil⟩

theorem split_expanded (conclusions : List (List Signed))
    (ready : Ready tableau source branch marked) :
    Expanded tableau ({ tableau with opened := tableau.opened.erase branch }.split source branch
      rule conclusions) branch marked conclusions := by
  have splitting := @split_splitting _ _ source branch rule marked conclusions ready.release
  rcases splitting.division with ⟨fresh, opened, division⟩
  refine ⟨⟨splitting.grows.size, splitting.grows.signed⟩, splitting.logic,
    splitting.updates.head (.release branch), ?_, fresh, .of_eq opened,
    division.between ⟨Nat.le_refl _, fun _ _ => rfl⟩ rfl rfl fun known => ⟨known, rfl⟩⟩
  intro id member _
  rcases ready.regular.openedFound id member with ⟨found, knownId, _⟩
  exact (splitting.olds id (lt_of_branch? knownId)).1

/-- The record of an application on its branch is made before the conclusions are drawn. -/
theorem Expanded.of_marked (constant : Option String)
    (known : tableau.branch? branch = some found) (unclosed : found.closure = none)
    (member : source ∈ found.members)
    (expanded : Expanded (tableau.modifyBranch branch fun found => found.mark source constant)
      after branch marked conclusions) :
    Expanded tableau after branch marked conclusions := by
  rcases expanded.division with ⟨fresh, opened, division⟩
  refine ⟨⟨expanded.grows.size, expanded.grows.signed⟩, expanded.logic,
    expanded.updates.head (.mark constant known unclosed member), ?_, fresh, opened,
    division.between ⟨Nat.le_refl _, fun _ _ => rfl⟩ rfl rfl fun known => ⟨known, rfl⟩⟩
  intro id worked different
  rw [expanded.kept id worked different, branch?_modifyBranch_ne different]

/-- What an application does, for any expansion of a node of a branch that is worked on. -/
theorem apply_expanded (expansion : Expansion)
    (regular : Regular tableau) (known : tableau.branch? branch = some found)
    (worked : branch ∈ tableau.opened) (member : source ∈ found.members) :
    Expanded tableau (tableau.apply source branch expansion) branch
      (found.mark source expansion.constant) expansion.conclusions := by
  have ready := Ready.mark expansion.constant regular known worked member
  have expanded : Expanded tableau (tableau.expand source branch expansion).1 branch
      (found.mark source expansion.constant) expansion.conclusions := by
    refine .of_marked expansion.constant known (regular.unclosed worked known) member ?_
    unfold expand
    dsimp only
    split
    · next conclusion single =>
      rw [single]
      exact extend_expanded conclusion ready worked
    · exact split_expanded expansion.conclusions ready
  rw [apply_eq]
  split
  · exact expanded
  · exact expanded.recorded source expansion

end Apply

end Tableau
end WeakKleene
