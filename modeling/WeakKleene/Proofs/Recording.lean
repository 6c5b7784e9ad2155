import Mathlib.Data.List.Forall2
import WeakKleene.Proofs.ClosedBranches
import WeakKleene.Proofs.Origins

namespace WeakKleene

/-!
# What the trace of a construction records

The trace is written at the end of each application of a rule, from what is
found then: the nodes that hang under the source by a rule of this name, and the
branches that the list of closed ones has gained.  Neither says what the
application itself has done.  An earlier application of the same rule to the
same node has left its nodes there as well, a copy that closes when it is made
never gets into the list, and an application that closes its branch by a single
conclusion is over before anything is written.

So the trace is faithful just as long as nothing closes and no node is expanded
again by the rule that has put nodes under it.
-/

namespace Tableau

variable {tableau after : Tableau}

/-! ## Before an application is recorded -/

section Expand

variable {source branch : Nat} {found : Branch} {expansion : Expansion}

theorem expand_sprouts [Memory] (tableau : Tableau) (source branch : Nat) (expansion : Expansion) :
    Sprouts (fun birth => (birth.1, birth.2.1) = (some source, some expansion.name)) tableau
      (tableau.expand source branch expansion).1 :=
  .expand (fun _ _ _ _ => rfl) branch

theorem single_of_expand [Memory] (finished : (tableau.expand source branch expansion).2 = true) :
    expansion.conclusions.length = 1 := by
  unfold expand at finished
  dsimp only at finished
  split at finished
  · next single => rw [single]; rfl
  · cases finished

/-- The list of closed branches gains the one that is worked on if the application is over, and
none otherwise. -/
theorem expand_closed [Memory] (expansion : Expansion) (regular : Regular tableau)
    (known : tableau.branch? branch = some found) (worked : branch ∈ tableau.opened)
    (member : source ∈ found.members) :
    (tableau.expand source branch expansion).1.closed = tableau.closed ++
      if (tableau.expand source branch expansion).2 then [branch] else [] := by
  have ready := Ready.mark expansion.constant regular known worked member
  unfold expand
  dsimp only
  split
  · next conclusion _ =>
    rw [(extend_placement conclusion ready).closed, show (tableau.modifyBranch branch fun found =>
      found.mark source expansion.constant).opened = tableau.opened from rfl,
      List.contains_iff_mem.mpr worked, Bool.and_true]
    rfl
  · exact (split_splitting expansion.conclusions ready.release).closed.trans
      (List.append_nil _).symm

end Expand

/-! ## One application and its step -/

theorem mem_created_iff (tree : IsTree tableau) (regular : Regular tableau) {source : Nat}
    {node : Node} (known : tableau.node? source = some node) {rule : String} {id : Nat}
    {signed : Signed} :
    (id, signed) ∈ ((node.children.filterMap tableau.node?).filter fun child =>
        child.rule == some rule).map (fun child => (child.id, child.signed)) ↔
      tableau.originAt? id = some (some source, some rule) ∧
        tableau.signedAt? id = some signed := by
  simp only [List.mem_map, List.mem_filter, List.mem_filterMap, Prod.mk.injEq, beq_iff_eq,
    originAt?_eq_some_iff, signedAt?, Option.map_eq_some_iff]
  constructor
  · rintro ⟨child, ⟨⟨number, listed, at_number⟩, ruled⟩, rfl, rfl⟩
    rw [regular.nodeNumbers number child at_number]
    rcases (tree.mem_children_iff known).mp listed with ⟨same, at_number', hangs⟩
    rw [at_number] at at_number'
    rw [<- Option.some.inj at_number'] at hangs
    exact ⟨⟨child, at_number, hangs, ruled⟩, child, at_number, rfl⟩
  · rintro ⟨⟨child, at_id, hangs, ruled⟩, same, at_id', rfl⟩
    rw [at_id] at at_id'
    rw [<- Option.some.inj at_id']
    exact ⟨child, ⟨⟨id, (tree.mem_children_iff known).mpr ⟨child, at_id, hangs⟩, at_id⟩, ruled⟩,
      regular.nodeNumbers id child at_id, rfl⟩

structure Longer (trace later : Trace) (step : Trace.Step) : Prop where
  initial : later.initial = trace.initial
  steps : later.steps = trace.steps ++ [step]
  number : step.number = trace.steps.length + 1

/-- What is recorded of an application when the list of closed branches has gained none. -/
theorem record_longer {source : Nat} {node : Node} {trace : Trace} (expansion : Expansion)
    (traced : after.trace = some trace) (known : after.node? source = some node)
    (same : after.closed = tableau.closed) :
    ∃ step later, (tableau.record after source expansion).trace = some later ∧
      Longer trace later step ∧ step.rule = expansion.name ∧ step.source = node.signed ∧
      step.produced = expansion.conclusions ∧ step.closures = [] ∧
      step.created = ((node.children.filterMap after.node?).filter fun child =>
        child.rule == some expansion.name).map fun child => (child.id, child.signed) := by
  simp only [record, traced, known]
  refine ⟨_, _, rfl, ⟨rfl, rfl, rfl⟩, rfl, rfl, rfl, ?_, rfl⟩
  rw [same, List.drop_length]
  rfl

end Tableau

/-- A rule that is applied to a node of a branch. -/
structure Application where
  before : Tableau
  branch : Nat
  node : Node
  expansion : Expansion

def Trace.Step.nodes (step : Trace.Step) : List Nat := step.created.map Prod.fst

variable {formulas : List Signed} {logic : Logic}

section Applied

variable [Memory]

namespace Application

open Tableau

variable {application : Application}

def after (application : Application) : Tableau :=
  application.before.apply application.node.id application.branch application.expansion

/-- What the application comes to before it is recorded, and whether it is over then. -/
def expanded (application : Application) : Tableau × Bool :=
  application.before.expand application.node.id application.branch application.expansion

/-- The application expands a pending node on a branch that is worked on. -/
structure Valid (application : Application) : Prop where
  worked : application.branch ∈ application.before.opened
  expandable : ∃ found, application.before.branch? application.branch = some found ∧
    application.node ∈ application.before.pending found ∧
    application.before.expansion? application.node found = .ok (some application.expansion)

/-- The node of this number is one that the application has added to the tableau. -/
def Creates (application : Application) (id : Nat) : Prop :=
  application.before.nodes.size ≤ id ∧ id < application.after.nodes.size

/-- The branch of this number is closed by the application. -/
def Closes (application : Application) (id : Nat) : Prop :=
  ClosedAt application.after id ∧ ¬ ClosedAt application.before id

def Alike (application other : Application) : Prop :=
  application.node.id = other.node.id ∧ application.expansion.name = other.expansion.name

theorem Valid.advance (valid : application.Valid) :
    Advance application.before application.after := by
  rcases valid with ⟨worked, found, known, waiting, proposed⟩
  exact .expand worked known waiting proposed

theorem after_eq_ite (application : Application) : application.after =
    if application.expanded.2 then application.expanded.1
    else application.before.record application.expanded.1 application.node.id
      application.expansion := apply_eq _ _ _

/-- Apart from the trace, recording leaves everything as the expansion has made it. -/
theorem after_eq (application : Application) :
    ∃ trace, application.after = { application.expanded.1 with trace := trace } := by
  rw [after_eq_ite]
  split
  · exact ⟨application.expanded.1.trace, rfl⟩
  · exact record_eq _ _ _ _

theorem size_le_after (application : Application) :
    application.before.nodes.size ≤ application.after.nodes.size := by
  rcases application.after_eq with ⟨trace, equal⟩
  rw [equal]
  exact (expand_sprouts _ _ _ _).size

theorem originAt?_after_old {id : Nat} (bound : id < application.before.nodes.size) :
    application.after.originAt? id = application.before.originAt? id := by
  rcases application.after_eq with ⟨trace, equal⟩
  rw [originAt?_eq_birthAt?, originAt?_eq_birthAt?, equal]
  exact congrArg _ ((expand_sprouts _ _ _ _).old id bound)

/-- An application puts its nodes under the one that it expands. -/
theorem originAt?_after_new {id : Nat} (created : application.Creates id) :
    application.after.originAt? id =
      some (some application.node.id, some application.expansion.name) := by
  rcases application.after_eq with ⟨trace, equal⟩
  rcases created with ⟨beyond, bound⟩
  rw [equal] at bound ⊢
  rcases (expand_sprouts _ _ _ _).new id beyond bound with ⟨birth, origin, known⟩
  rw [originAt?_eq_birthAt?, <- origin]
  exact congrArg _ known

section Valid

variable (valid : application.Valid) (regular : Regular application.before)
include valid regular

theorem Valid.outcome : ∃ found,
    application.before.branch? application.branch = some found ∧ found.isClosed = false ∧
    application.node.id ∈ found.members ∧
    Outcome application.before application.after application.branch found
      application.expansion.conclusions.length := by
  rcases valid with ⟨worked, found, known, waiting, _⟩
  have member := ((mem_pending_iff regular.nodeNumbers).mp waiting).2.1
  exact ⟨found, known, isClosed_eq_false_iff.mpr (regular.unclosed worked known), member,
    apply_outcome _ regular known worked member⟩

/-- The list of closed branches has gained the one that is worked on, if the application is over
before it is recorded. -/
theorem Valid.closed_after : application.after.closed = application.before.closed ++
    if application.expanded.2 then [application.branch] else [] := by
  rcases valid.outcome regular with ⟨found, known, _, member, _⟩
  rcases application.after_eq with ⟨trace, equal⟩
  rw [equal]
  exact expand_closed _ regular known valid.worked member

/-- A single conclusion that lets the list of closed branches grow closes the branch. -/
theorem Valid.closes (single : application.expansion.conclusions.length = 1)
    (gained : application.after.closed = application.before.closed ++ [application.branch]) :
    application.Closes application.branch := by
  rcases valid.outcome regular with ⟨found, known, unclosed, _, outcome⟩
  have open' : ¬ ClosedAt application.before application.branch := by
    rintro ⟨other, known', shut⟩
    rw [known] at known'
    rw [<- Option.some.inj known', unclosed] at shut
    cases shut
  cases outcome with
  | @prolonged new _ knownNew _ _ _ _ listed =>
    cases shut : new.isClosed with
    | true => exact ⟨⟨new, knownNew, shut⟩, open'⟩
    | false =>
      rw [gained, shut] at listed
      exact absurd (List.append_cancel_left listed) (by simp)
  | split several => exact absurd single several

/-- One that does not, closes nothing. -/
theorem Valid.not_closes (single : application.expansion.conclusions.length = 1)
    (same : application.after.closed = application.before.closed) (id : Nat) :
    ¬ application.Closes id := by
  rintro ⟨⟨shutBranch, known', shut⟩, open'⟩
  rcases valid.outcome regular with ⟨found, known, _, _, outcome⟩
  cases outcome with
  | @prolonged new _ knownNew _ _ others _ listed =>
    by_cases here : id = application.branch
    · rw [here, knownNew] at known'
      rw [same, Option.some.inj known', shut] at listed
      exact absurd (List.append_right_eq_self.mp listed.symm) (by simp)
    · rw [others id here] at known'
      exact open' ⟨shutBranch, known', shut⟩
  | split several => exact absurd single several

theorem Valid.signedAt?_node : application.after.signedAt? application.node.id =
    some application.node.signed := by
  rcases valid with ⟨worked, found, known, waiting, proposed⟩
  have present := (mem_pending_iff regular.nodeNumbers).mp waiting
  have grows := ((Advance.expand worked known waiting proposed).updates regular).grows
  rw [show application.after = application.before.apply application.node.id application.branch
    application.expansion from rfl, grows.signed _
    ((regular.branches _ found known).membersExist _ present.2.1), signedAt?, present.1]
  rfl

end Valid

/-- A step says which rule was applied to what and what it called for.  It names no branch as
closed, and as created the nodes that stand under the source by this rule. -/
structure Describes (application : Application) (step : Trace.Step) : Prop where
  rule : step.rule = application.expansion.name
  source : step.source = application.node.signed
  produced : step.produced = application.expansion.conclusions
  closures : step.closures = []
  created : forall id signed, (id, signed) ∈ step.created ↔ application.after.originAt? id =
        some (some application.node.id, some application.expansion.name) ∧
      application.after.signedAt? id = some signed

/-- An application is over before it is recorded because a single conclusion has closed the
branch, or it is recorded by a step that describes it. -/
theorem Valid.recorded (valid : application.Valid)
    (reachable : Reachable logic formulas application.before) {trace : Trace}
    (traced : application.before.trace = some trace) :
    (application.expansion.conclusions.length = 1 ∧ application.Closes application.branch ∧
      application.after.trace = some trace) ∨
    ((application.expansion.conclusions.length = 1 -> forall id, ¬ application.Closes id) ∧
      ∃ step later, application.after.trace = some later ∧ Longer trace later step ∧
        application.Describes step) := by
  have regular := reachable.regular
  have listed := valid.closed_after regular
  have sprouts : Sprouts _ _ application.expanded.1 := expand_sprouts _ _ _ _
  cases finished : application.expanded.2 with
  | true =>
    rw [finished] at listed
    have single := single_of_expand finished
    refine .inl ⟨single, valid.closes regular single listed, ?_⟩
    rw [after_eq_ite, if_pos finished, sprouts.trace, traced]
  | false =>
    rw [finished] at listed
    have same : application.after.closed = application.before.closed :=
      listed.trans (List.append_nil _)
    refine .inr ⟨fun single => valid.not_closes regular single same, ?_⟩
    have further : Reachable logic formulas application.after := by
      rcases reachable with ⟨_, initial, begun, advances⟩
      exact ⟨_, initial, begun, advances.tail valid.advance⟩
    have tree := further.isTree
    have regular' := further.regular
    rcases Option.map_eq_some_iff.mp (valid.signedAt?_node regular) with ⟨node, known, signed⟩
    rcases application.after_eq with ⟨_, equal⟩
    rw [equal] at known same tree regular'
    rcases record_longer application.expansion (sprouts.trace.trans traced) known same with
      ⟨step, later, written, longer, rule, source, produced, closures, created⟩
    refine ⟨step, later, ?_, longer, rule, source.trans signed, produced, closures, ?_⟩
    · rw [after_eq_ite, finished]
      exact written
    · intro id signed
      rw [created, equal]
      exact mem_created_iff tree regular' known

end Application

/-! ## Whole histories -/

/-- The applications that have led from one tableau to another, in order. -/
inductive History (initial : Tableau) : List Application -> Tableau -> Prop where
  | start : History initial [] initial
  | next {earlier : List Application} {application : Application}
      (history : History initial earlier application.before) (valid : application.Valid) :
      History initial (earlier ++ [application]) application.after

namespace History

open Tableau

variable {initial tableau : Tableau} {applications : List Application}

theorem advances (history : History initial applications tableau) : Advances initial tableau := by
  induction history with
  | start => exact .refl
  | next _ valid ih => exact ih.tail valid.advance

/-- Whatever expansions lead to has a history. -/
theorem exists_of_advances (advances : Advances initial tableau) :
    ∃ applications, History initial applications tableau := by
  induction advances with
  | refl => exact ⟨[], .start⟩
  | tail _ advance ih =>
    rcases ih with ⟨applications, history⟩
    cases advance with
    | @expand branch found node expansion worked known waiting proposed =>
      exact ⟨_, @next _ _ _ ⟨_, branch, node, expansion⟩ history
        ⟨worked, found, known, waiting, proposed⟩⟩

section

variable (history : History initial applications tableau)
include history

theorem initial_size_le :
    initial.nodes.size ≤ tableau.nodes.size := by
  induction history with
  | start => exact Nat.le_refl _
  | @next _ last _ _ ih => exact Nat.le_trans ih last.size_le_after

theorem size_le {application : Application}
    (member : application ∈ applications) :
    application.after.nodes.size ≤ tableau.nodes.size := by
  induction history with
  | start => cases member
  | @next earlier last _ _ ih =>
    rcases List.mem_append.mp member with before | isLast
    · exact Nat.le_trans (ih before) last.size_le_after
    · exact Nat.le_of_eq (by rw [List.mem_singleton.mp isLast])

theorem ordered :
    applications.Pairwise fun earlier later =>
      earlier.after.nodes.size ≤ later.before.nodes.size := by
  induction history with
  | start => exact .nil
  | next history _ ih =>
    apply List.pairwise_append.mpr
    refine ⟨ih, List.pairwise_singleton _ _, ?_⟩
    intro earlier member later isLast
    rw [List.mem_singleton.mp isLast]
    exact history.size_le member

theorem creates_iff (id : Nat) :
    (∃ application, application ∈ applications ∧ application.Creates id) ↔
      initial.nodes.size ≤ id ∧ id < tableau.nodes.size := by
  induction history with
  | start =>
    constructor
    · rintro ⟨_, impossible, _⟩
      cases impossible
    · rintro ⟨beyond, bound⟩
      exact absurd bound (Nat.not_lt.mpr beyond)
  | @next earlier last history _ ih =>
    have size := last.size_le_after
    constructor
    · rintro ⟨application, member, created⟩
      rcases List.mem_append.mp member with before | isLast
      · have old := ih.mp ⟨application, before, created⟩
        exact ⟨old.1, Nat.lt_of_lt_of_le old.2 size⟩
      · rw [List.mem_singleton.mp isLast] at created
        exact ⟨Nat.le_trans history.initial_size_le created.1, created.2⟩
    · rintro ⟨beyond, bound⟩
      by_cases old : id < last.before.nodes.size
      · rcases ih.mpr ⟨beyond, old⟩ with ⟨application, member, created⟩
        exact ⟨application, List.mem_append_left _ member, created⟩
      · exact ⟨last, List.mem_append_right _ List.mem_cons_self, Nat.le_of_not_lt old, bound⟩

end

/-- A node stands under another one by a rule just when it was created by an application of that
rule to that node. -/
theorem origin_iff {traced : Bool} (begun : Tableau.start logic formulas traced = .ok initial)
    (history : History initial applications tableau) {id source : Nat} {rule : String} :
    tableau.originAt? id = some (some source, some rule) ↔
      ∃ application, application ∈ applications ∧ application.node.id = source ∧
        application.expansion.name = rule ∧ application.Creates id := by
  induction history with
  | start =>
    constructor
    · intro found
      cases start_unruled begun found
    · rintro ⟨_, impossible, _⟩
      cases impossible
  | @next earlier last history _ ih =>
    constructor
    · intro found
      by_cases old : id < last.before.nodes.size
      · rw [Application.originAt?_after_old old] at found
        rcases ih.mp found with ⟨application, member, rest⟩
        exact ⟨application, List.mem_append_left _ member, rest⟩
      · have created : last.Creates id := ⟨Nat.le_of_not_lt old, lt_of_originAt? found⟩
        rw [Application.originAt?_after_new created] at found
        cases found
        exact ⟨last, List.mem_append_right _ List.mem_cons_self, rfl, rfl, created⟩
    · rintro ⟨application, member, rfl, rfl, created⟩
      rcases List.mem_append.mp member with before | isLast
      · have old : id < last.before.nodes.size :=
          Nat.lt_of_lt_of_le created.2 (history.size_le before)
        rw [Application.originAt?_after_old old]
        exact ih.mpr ⟨application, before, rfl, rfl, created⟩
      · rw [List.mem_singleton.mp isLast] at created ⊢
        exact Application.originAt?_after_new created

end History

/-- What a step has to say of an application: the rule, the node and what was called for, and the
branches that were closed. -/
structure Application.Reports (application : Application) (step : Trace.Step) : Prop where
  rule : step.rule = application.expansion.name
  source : step.source = application.node.signed
  produced : step.produced = application.expansion.conclusions
  closures : forall id, id ∈ step.closures.map Prod.fst ↔ application.Closes id

/-- Steps are faithful to the applications of a history: there is one for each, in order and with
its number.  They name the nodes that were created, each in one step only, and the branches that
were closed. -/
structure Faithful (initial tableau : Tableau) (applications : List Application)
    (steps : List Trace.Step) : Prop where
  each : List.Forall₂ Application.Reports applications steps
  numbered : steps.map Trace.Step.number = List.range' 1 steps.length
  disjoint : steps.Pairwise fun step other => List.Disjoint step.nodes other.nodes
  exhaustive : forall id, (∃ step, step ∈ steps ∧ id ∈ step.nodes) ↔
    initial.nodes.size ≤ id ∧ id < tableau.nodes.size

theorem Faithful.exists_report {initial tableau : Tableau} {applications : List Application}
    {steps : List Trace.Step} (faithful : Faithful initial tableau applications steps)
    {application : Application} (member : application ∈ applications) :
    ∃ step, step ∈ steps ∧ application.Reports step := by
  have each := faithful.each
  clear faithful
  induction each with
  | nil => cases member
  | cons reports _ ih =>
    rcases List.mem_cons.mp member with rfl | later
    · exact ⟨_, List.mem_cons_self, reports⟩
    · rcases ih later with ⟨step, listed, reports⟩
      exact ⟨step, List.mem_cons_of_mem _ listed, reports⟩

/-- The steps that applications leave in the trace.  One that closes its branch by a single
conclusion leaves none.  The step of any other names as created what all applications of the rule
to the node have created up to then, and never a closed branch. -/
inductive Recorded : List Application -> List Trace.Step -> Prop where
  | nil : Recorded [] []
  | omitted {earlier : List Application} {application : Application} {steps : List Trace.Step}
      (recorded : Recorded earlier steps) (single : application.expansion.conclusions.length = 1)
      (closes : application.Closes application.branch) :
      Recorded (earlier ++ [application]) steps
  | noted {earlier : List Application} {application : Application} {steps : List Trace.Step}
      {step : Trace.Step} (recorded : Recorded earlier steps)
      (stays : application.expansion.conclusions.length = 1 -> forall id, ¬ application.Closes id)
      (number : step.number = steps.length + 1) (describes : application.Describes step)
      (created : forall id, id ∈ step.nodes ↔ ∃ other, other ∈ earlier ++ [application] ∧
        other.Alike application ∧ other.Creates id) :
      Recorded (earlier ++ [application]) (steps ++ [step])

theorem Application.Describes.mem_nodes_iff {application : Application} {step : Trace.Step}
    (describes : application.Describes step) {id : Nat} :
    id ∈ step.nodes ↔ application.after.originAt? id =
      some (some application.node.id, some application.expansion.name) := by
  rw [Trace.Step.nodes, List.mem_map]
  constructor
  · rintro ⟨⟨_, signed⟩, member, rfl⟩
    exact ((describes.created _ signed).mp member).1
  · intro found
    rcases Tableau.originAt?_eq_some_iff.mp found with ⟨node, known, _⟩
    have carried : application.after.signedAt? id = some node.signed := by
      rw [Tableau.signedAt?, known, Option.map_some]
    exact ⟨(id, node.signed), (describes.created id node.signed).mpr ⟨found, carried⟩, rfl⟩

/-- The trace of a history. -/
theorem History.recorded {initial tableau : Tableau} {applications : List Application}
    (begun : Tableau.start logic formulas true = .ok initial)
    (history : History initial applications tableau) :
    ∃ trace, tableau.trace = some trace ∧ trace.initial = formulas ∧
      Recorded applications trace.steps := by
  induction history with
  | start => exact ⟨_, Tableau.start_trace begun, rfl, .nil⟩
  | @next earlier last history valid ih =>
    rcases ih with ⟨trace, traced, given, recorded⟩
    have reachable : Tableau.Reachable logic formulas last.before :=
      ⟨true, initial, begun, history.advances⟩
    rcases valid.recorded reachable traced with
      ⟨single, closes, same⟩ | ⟨stays, step, later, written, longer, describes⟩
    · exact ⟨trace, same, given, .omitted recorded single closes⟩
    · refine ⟨later, written, longer.initial.trans given, ?_⟩
      rw [longer.steps]
      refine .noted recorded stays longer.number describes fun id => ?_
      rw [describes.mem_nodes_iff, (history.next valid).origin_iff begun]
      exact exists_congr fun other => and_congr_right fun _ => and_assoc.symm

namespace Recorded

variable {applications : List Application} {steps : List Trace.Step}

/-- No step names a closed branch. -/
theorem closures (recorded : Recorded applications steps) {step : Trace.Step}
    (member : step ∈ steps) : step.closures = [] := by
  induction recorded with
  | nil => cases member
  | omitted _ _ _ ih => exact ih member
  | noted _ _ _ describes _ ih =>
    rcases List.mem_append.mp member with before | isLast
    · exact ih before
    · rw [List.mem_singleton.mp isLast]
      exact describes.closures

theorem numbered (recorded : Recorded applications steps) :
    steps.map Trace.Step.number = List.range' 1 steps.length := by
  induction recorded with
  | nil => rfl
  | omitted _ _ _ ih => exact ih
  | noted _ _ number _ _ ih =>
    rw [List.map_append, ih, List.length_append, List.map_singleton, number,
      List.length_singleton, List.range'_concat, Nat.one_mul, Nat.add_comm 1]

section Quiet

variable (quiet : forall application, application ∈ applications ->
  forall id, ¬ application.Closes id)
include quiet

/-- While nothing closes there is a step for each application. -/
theorem reports (recorded : Recorded applications steps) :
    List.Forall₂ Application.Reports applications steps := by
  induction recorded with
  | nil => exact .nil
  | @omitted _ last _ _ _ closes =>
    exact absurd closes (quiet last (List.mem_append_right _ List.mem_cons_self) _)
  | @noted _ last _ step _ _ _ describes _ ih =>
    have earlier := ih fun application member =>
      quiet application (List.mem_append_left _ member)
    have silent := quiet last (List.mem_append_right _ List.mem_cons_self)
    refine List.rel_append earlier (.cons ⟨describes.rule, describes.source,
      describes.produced, fun id => ?_⟩ .nil)
    rw [describes.closures]
    exact iff_of_false List.not_mem_nil (silent id)

/-- While nothing closes, the nodes that are named are those that were created. -/
theorem named_iff (recorded : Recorded applications steps) (id : Nat) :
    (∃ step, step ∈ steps ∧ id ∈ step.nodes) ↔
      ∃ application, application ∈ applications ∧ application.Creates id := by
  induction recorded with
  | nil =>
    constructor
    · rintro ⟨_, impossible, _⟩
      cases impossible
    · rintro ⟨_, impossible, _⟩
      cases impossible
  | @omitted _ last _ _ _ closes =>
    exact absurd closes (quiet last (List.mem_append_right _ List.mem_cons_self) _)
  | @noted earlier last steps step _ _ _ _ created ih =>
    have before := ih fun application member =>
      quiet application (List.mem_append_left _ member)
    constructor
    · rintro ⟨some_step, member, named⟩
      rcases List.mem_append.mp member with old | isLast
      · rcases before.mp ⟨some_step, old, named⟩ with ⟨application, listed, created⟩
        exact ⟨application, List.mem_append_left _ listed, created⟩
      · rw [List.mem_singleton.mp isLast, created] at named
        rcases named with ⟨application, listed, _, created⟩
        exact ⟨application, listed, created⟩
    · rintro ⟨application, member, creates⟩
      rcases List.mem_append.mp member with old | isLast
      · rcases before.mpr ⟨application, old, creates⟩ with ⟨some_step, listed, named⟩
        exact ⟨some_step, List.mem_append_left _ listed, named⟩
      · refine ⟨step, List.mem_append_right _ List.mem_cons_self, (created id).mpr ?_⟩
        rw [List.mem_singleton.mp isLast] at creates
        exact ⟨last, List.mem_append_right _ List.mem_cons_self, ⟨rfl, rfl⟩, creates⟩

/-- While nothing closes, a node is named in two steps just when a rule that has created it is
applied to its source again. -/
theorem disjoint_iff (recorded : Recorded applications steps)
    (ordered : applications.Pairwise fun earlier later =>
      earlier.after.nodes.size ≤ later.before.nodes.size) :
    (steps.Pairwise fun step other => List.Disjoint step.nodes other.nodes) ↔
      applications.Pairwise fun earlier later =>
        earlier.Alike later -> forall id, ¬ earlier.Creates id := by
  induction recorded with
  | nil => exact iff_of_true .nil .nil
  | @omitted _ last _ _ _ closes =>
    exact absurd closes (quiet last (List.mem_append_right _ List.mem_cons_self) _)
  | @noted earlier last steps step recorded _ _ _ created ih =>
    have quietBefore : forall application, application ∈ earlier ->
        forall id, ¬ application.Closes id :=
      fun application member => quiet application (List.mem_append_left _ member)
    rcases List.pairwise_append.mp ordered with ⟨orderedBefore, _, last_later⟩
    rw [List.pairwise_append, List.pairwise_append, ih quietBefore orderedBefore]
    refine and_congr_right fun _ => and_congr (iff_of_true (List.pairwise_singleton _ _)
      (List.pairwise_singleton _ _)) ?_
    constructor
    · intro apart application member other isLast alike id creates
      rw [List.mem_singleton.mp isLast] at alike
      rcases (recorded.named_iff quietBefore id).mpr ⟨application, member, creates⟩ with
        ⟨some_step, listed, named⟩
      exact apart some_step listed step List.mem_cons_self named
        ((created id).mpr ⟨application, List.mem_append_left _ member, alike, creates⟩)
    · intro single some_step listed other isLast id named namedAgain
      rw [List.mem_singleton.mp isLast, created] at namedAgain
      rcases (recorded.named_iff quietBefore id).mp ⟨some_step, listed, named⟩ with
        ⟨application, member, creates⟩
      rcases namedAgain with ⟨again, member', alike, creates'⟩
      rcases List.mem_append.mp member' with before | isLast'
      · exact single again before last List.mem_cons_self alike id creates'
      · rw [List.mem_singleton.mp isLast'] at creates'
        have late := last_later application member last List.mem_cons_self
        exact absurd creates.2 (Nat.not_lt.mpr (Nat.le_trans late creates'.1))

end Quiet

end Recorded

end Applied

namespace Tableau

theorem exists_history [Memory] {traced : Bool} {tableau : Tableau}
    (finished : ofFormulas logic formulas traced = .ok tableau) :
    ∃ initial applications, start logic formulas traced = .ok initial ∧
      History initial applications tableau := by
  rcases exists_of_bind_eq_ok finished with ⟨initial, begun, constructed⟩
  have regular := Reachable.regular ⟨traced, initial, begun, .refl⟩
  have advances := advances_run regular stepBound
  rw [construct] at constructed
  split at constructed
  · next final ran =>
    rw [ran] at advances
    cases constructed
    rcases History.exists_of_advances advances with ⟨applications, history⟩
    exact ⟨initial, applications, begun, history⟩
  · cases constructed

/-- Every construction has a history.  A history leaves its steps in the trace, and they are
faithful to it if and only if none of its applications closes a branch, and none applies a rule to
a node again that has created nodes there. -/
theorem trace_faithful_iff [Memory] (logic : Logic) (formulas : List Signed) :
    (forall tableau, ofFormulas logic formulas true = .ok tableau ->
      ∃ initial applications, start logic formulas true = .ok initial ∧
        History initial applications tableau) ∧
    forall initial applications tableau, start logic formulas true = .ok initial ->
      History initial applications tableau ->
        ∃ trace, tableau.trace = some trace ∧ trace.initial = formulas ∧
          Recorded applications trace.steps ∧
          (Faithful initial tableau applications trace.steps ↔
            (forall application, application ∈ applications -> forall id, ¬ application.Closes id) ∧
            applications.Pairwise fun earlier later =>
              earlier.Alike later -> forall id, ¬ earlier.Creates id) := by
  refine ⟨fun tableau finished => exists_history finished, ?_⟩
  intro initial applications tableau begun history
  rcases history.recorded begun with ⟨trace, traced, given, recorded⟩
  refine ⟨trace, traced, given, recorded, ?_, ?_⟩
  · intro faithful
    have quiet : forall application, application ∈ applications ->
        forall id, ¬ application.Closes id := by
      intro application member id closes
      rcases faithful.exists_report member with ⟨step, listed, reports⟩
      have named := (reports.closures id).mpr closes
      rw [recorded.closures listed] at named
      cases named
    exact ⟨quiet, (recorded.disjoint_iff quiet history.ordered).mp faithful.disjoint⟩
  · rintro ⟨quiet, single⟩
    refine ⟨recorded.reports quiet, recorded.numbered,
      (recorded.disjoint_iff quiet history.ordered).mpr single, fun id => ?_⟩
    rw [recorded.named_iff quiet, history.creates_iff]

open scoped Memory

/-- A conjunction is taken apart and then its second part splits the branch.  Two steps tell it,
and nothing is missing. -/
theorem trace_faithful_conjunction : ∃ initial first second trace,
      start .standard [⟨.t, .join .conj (.atom "p") (.join .disj (.atom "q") (.atom "r"))⟩] true =
        .ok initial ∧
      ofFormulas .standard
        [⟨.t, .join .conj (.atom "p") (.join .disj (.atom "q") (.atom "r"))⟩] true =
          .ok second.after ∧
      History initial [first, second] second.after ∧ second.after.trace = some trace ∧
      Faithful initial second.after [first, second] trace.steps := by
  have constructed : ∃ initial found node expansion found' node' expansion',
      start .standard [⟨.t, .join .conj (.atom "p") (.join .disj (.atom "q") (.atom "r"))⟩] true =
        .ok initial ∧
      (0 ∈ initial.opened ∧ initial.branch? 0 = some found ∧ node ∈ initial.pending found ∧
        initial.expansion? node found = .ok (some expansion)) ∧
      (0 ∈ (initial.apply node.id 0 expansion).opened ∧
        (initial.apply node.id 0 expansion).branch? 0 = some found' ∧
        node' ∈ (initial.apply node.id 0 expansion).pending found' ∧
        (initial.apply node.id 0 expansion).expansion? node' found' = .ok (some expansion')) ∧
      (ofFormulas .standard
        [⟨.t, .join .conj (.atom "p") (.join .disj (.atom "q") (.atom "r"))⟩] true =
          .ok ((initial.apply node.id 0 expansion).apply node'.id 0 expansion')) ∧
      node.id = 0 ∧ node'.id = 2 ∧ (initial.apply node.id 0 expansion).closedNumbers = [] ∧
      ((initial.apply node.id 0 expansion).apply node'.id 0 expansion').closedNumbers = [] :=
    ⟨_, _, _, _, _, _, _, rfl, ⟨.head _, rfl, .head _, rfl⟩,
      ⟨.head _, rfl, .tail _ (.head _), rfl⟩, rfl, rfl, rfl, rfl, rfl⟩
  rcases constructed with ⟨initial, found, node, expansion, found', node', expansion', begun,
    ⟨worked, rest⟩, ⟨worked', rest'⟩, finished, number, number', unclosed, unclosed'⟩
  have once : History initial [⟨initial, 0, node, expansion⟩] (initial.apply node.id 0 expansion) :=
    @History.next _ initial [] ⟨initial, 0, node, expansion⟩ .start ⟨worked, found, rest⟩
  have twice := @History.next _ initial _ ⟨_, 0, node', expansion'⟩ once ⟨worked', found', rest'⟩
  have silent {applications : List Application} {tableau : Tableau}
      (history : History initial applications tableau) (none_closed : tableau.closedNumbers = [])
      (id : Nat) : ¬ ClosedAt tableau id := by
    have regular := Reachable.regular ⟨true, initial, begun, history.advances⟩
    rw [<- mem_closedNumbers_iff regular, none_closed]
    exact List.not_mem_nil
  rcases (trace_faithful_iff _ _).2 initial _ _ begun twice with ⟨trace, traced, _, _, faithful⟩
  refine ⟨initial, _, ⟨_, 0, node', expansion'⟩, trace, begun, finished, twice, traced,
    faithful.mpr ⟨?_, ?_⟩⟩
  · intro application member id closes
    rcases List.mem_cons.mp member with rfl | later
    · exact silent once unclosed id closes.1
    · rw [List.mem_singleton.mp later] at closes
      exact silent twice unclosed' id closes.1
  · apply List.pairwise_pair.mpr
    intro alike
    exact absurd (number.symm.trans (alike.1.trans number')) (by decide)

/-- A step that closes its branch is missing; a branch that closes when it is made is not named;
and of the steps for one universal formula each names the nodes of the earlier ones again. -/
theorem counterexample_unfaithful_traces :
    (ofFormulas .standard [⟨.t, .atom "p"⟩, ⟨.t, .neg (.atom "p")⟩] true).map (fun tableau =>
        (tableau.nodes.size, tableau.trace.map fun trace => trace.steps.length)) =
      .ok (3, some 0) ∧
    (ofFormulas .standard [⟨.f, .atom "p"⟩, ⟨.t, .join .disj (.atom "p") (.atom "q")⟩] true).map
        (fun tableau => (tableau.closedNumbers,
          tableau.trace.map fun trace => trace.steps.map Trace.Step.closures)) =
      .ok ([1, 3], some [[]]) ∧
    (ofFormulas .standard [⟨.t, .quant .all "X" (.pred "P" [.var "X"]) (.pred "Q" [.var "X"])⟩,
        ⟨.t, .pred "R" [.const "a"]⟩, ⟨.t, .pred "R" [.const "b"]⟩] true).map
        (fun tableau => tableau.trace.map fun trace => trace.steps.map Trace.Step.nodes) =
      .ok (some [[3, 4], [3, 4, 5, 6], [3, 4, 5, 6, 7, 8]]) :=
  ⟨rfl, rfl, rfl⟩

end Tableau
end WeakKleene
