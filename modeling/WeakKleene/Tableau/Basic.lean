import WeakKleene.Calculus.Bilateral
import WeakKleene.Evaluator
import WeakKleene.Formula.BilateralForm
import WeakKleene.Tableau.Trace

namespace WeakKleene

/-!
Tableaux: trees of signed formulas, and the branches through them.

Nodes and branches are numbered in the order of their creation.  A branch
refers to its nodes by number, and keeps beside them an index from written
formulas and signs to nodes, the constants that occur, and a record of what was
done already.
-/

/-- The calculus of a tableau: the standard one, or the bilateral one with or without an
evaluator for atomic formulas. -/
inductive Logic where
  | standard
  | bilateral (evaluator : Option Evaluator)

/-- A signed formula in its place in the tree.  `branches` are the branches that the node or one
of the nodes above it was on when it was created, and those it was put on since, the latest first.
`clash` names the node that it contradicts and the branch that closed by it. -/
structure Node where
  id : Nat
  signed : Signed
  parent : Option Nat
  children : List Nat
  rule : Option String
  depth : Nat
  branches : List Nat
  clash : Option (Nat × Nat)

/-- Two nodes that cannot stand on one branch: the one that was to be added, the one that was
there, and the reason in words. -/
structure Closure where
  added : Nat
  present : Nat
  reason : String

/-- Where a written formula occurs under a sign. -/
structure Entry where
  text : String
  sign : Sign
  node : Nat
deriving DecidableEq, Repr

/-- A branch.  `members` are its nodes in ascending order, `terms` the constants on it;
`processed` are the nodes that need no further rule, and `instantiated` holds for universal
formulas the constants they were instantiated with. -/
structure Branch where
  id : Nat
  members : List Nat
  closure : Option Closure
  index : List Entry
  processed : List Nat
  terms : List String
  instantiated : List (Nat × List String)

namespace Branch

def empty (id : Nat) : Branch := ⟨id, [], none, [], [], [], []⟩

def isClosed (branch : Branch) : Bool := branch.closure.isSome

def find? (branch : Branch) (text : String) (sign : Sign) : Option Nat :=
  (branch.index.find? fun entry => entry.text == text && entry.sign == sign).map Entry.node

/-- Whether a signed formula is on the branch already, judged by its written form. -/
def holds (branch : Branch) (signed : Signed) : Bool :=
  (branch.find? signed.formula.text signed.sign).isSome

def register (branch : Branch) (node : Nat) (signed : Signed) : Branch :=
  { branch with
    members := branch.members ++ [node]
    index := branch.index ++ [⟨signed.formula.text, signed.sign, node⟩]
    terms := Sorted.insertAll signed.formula.constants branch.terms }

/-- The constants that a universal formula was instantiated with. -/
def usedFor (branch : Branch) (node : Nat) : List String :=
  (branch.instantiated.lookup node).getD []

/-- Add a constant to those that a universal formula was instantiated with. -/
def instantiate (branch : Branch) (node : Nat) (constant : String) : Branch :=
  let used := Sorted.insert constant (branch.usedFor node)
  { branch with
    instantiated := (node, used) :: branch.instantiated.filter fun entry => entry.1 != node }

/-- Record that a rule was applied to a node.  An instantiation leaves the node open to further
constants, unless the constant has no name. -/
def mark (branch : Branch) (node : Nat) (constant : Option String) : Branch :=
  match constant with
  | some name =>
    if name.isEmpty then { branch with processed := Sorted.insert node branch.processed }
    else branch.instantiate node name
  | none => { branch with processed := Sorted.insert node branch.processed }

end Branch

/-- What a run takes as it comes: the order in which the constants and the nodes of a branch are
listed, and which nodes have the very same arguments.  Equal arguments that were written twice may
be kept twice. -/
class Memory where
  constants (nodes : Array Node) (branch : Branch) : List String
  constants_perm (nodes : Array Node) (branch : Branch) :
    (constants nodes branch).Perm branch.terms
  members (nodes : Array Node) (branch : Branch) : List Nat
  members_perm (nodes : Array Node) (branch : Branch) :
    (members nodes branch).Perm branch.members
  shared (left right : Nat) : Bool

namespace Memory

/-- The memory that lists everything in ascending order and keeps equal arguments once. -/
scoped instance ascending : Memory where
  constants _ branch := branch.terms
  constants_perm _ _ := .refl _
  members _ branch := branch.members
  members_perm _ _ := .refl _
  shared _ _ := true

end Memory

/-- The three kinds of expansion, in the order in which they are preferred. -/
inductive ExpansionKind where
  | alpha
  | beta
  | evaluation
deriving DecidableEq, Repr

namespace ExpansionKind

def name : ExpansionKind -> String
  | alpha => "alpha"
  | beta => "beta"
  | evaluation => "llm"

def priority : ExpansionKind -> Nat
  | alpha => 10
  | beta => 20
  | evaluation => 30

end ExpansionKind

structure Expansion where
  name : String
  kind : ExpansionKind
  conclusions : List (List Signed)
  constant : Option String

namespace Expansion

def ofRule (rule : Rule) : Expansion :=
  ⟨rule.name, if rule.branching then .beta else .alpha, rule.conclusions, rule.constant⟩

/-- Preferred by kind, then by fewer conclusions. -/
def before (expansion other : Expansion) : Bool :=
  if expansion.kind.priority != other.kind.priority then
    expansion.kind.priority < other.kind.priority
  else expansion.conclusions.length < other.conclusions.length

def denialOf? : Formula -> Option Formula
  | .pred name args => some (.sided name args true)
  | formula => formula.dual?

/-- What an evaluator's evidence on a formula amounts to. -/
def evidenceConclusion (formula : Formula) : Evidence -> List Signed
  | ⟨.t, .f⟩ => [⟨.t, formula⟩]
  | ⟨.f, .t⟩ =>
    match denialOf? formula with
    | some denial => [⟨.t, denial⟩]
    | none => [⟨.f, formula⟩]
  | ⟨.t, .t⟩ => ⟨.t, formula⟩ :: ((denialOf? formula).map (Signed.mk .t)).toList
  | ⟨.f, .f⟩ => ⟨.f, formula⟩ :: ((denialOf? formula).map (Signed.mk .f)).toList
  | _ => [⟨.e, formula⟩]

/-- The expansion of an atomic formula by an evaluator's evidence, if it gives any. -/
def byEvaluation? (evaluator : Option Evaluator) (formula : Formula) : Option Expansion := do
  let evaluator <- evaluator
  guard formula.isAtomic
  let evidence <- (evaluator formula).evidence?
  return ⟨"llm-eval(" ++ formula.text ++ ")", .evaluation,
    [evidenceConclusion formula evidence], none⟩

end Expansion

/-- A tableau under construction.  `opened` and `closed` list branches that are to be worked on
and branches that were when they closed; a branch that was split, or that closed in the very step
that created it, is in neither list. -/
structure Tableau where
  logic : Logic
  nodes : Array Node
  branches : Array Branch
  opened : List Nat
  closed : List Nat
  constants : List String
  trace : Option Trace

namespace Tableau

def node? (tableau : Tableau) (id : Nat) : Option Node := tableau.nodes[id]?

def branch? (tableau : Tableau) (id : Nat) : Option Branch := tableau.branches[id]?

def nodesOn (tableau : Tableau) (branch : Branch) : List Node :=
  branch.members.filterMap tableau.node?

def modifyNode (tableau : Tableau) (id : Nat) (change : Node -> Node) : Tableau :=
  { tableau with nodes := tableau.nodes.modify id change }

def modifyBranch (tableau : Tableau) (id : Nat) (change : Branch -> Branch) : Tableau :=
  { tableau with branches := tableau.branches.modify id change }

/-! ## Contradictions -/

/-- A predicate's name without its star, and whether it had one. -/
def sideOf? : Formula -> Option (String × Bool)
  | .bilateral name _ _ starred => some (name, starred)
  | .pred name _ =>
    match Formula.unstarred? name with
    | some base => some (base, true)
    | none => some (name, false)
  | _ => none

/-- Whether two formulas are a predicate and its denial, of equal arguments. -/
def opposed (left right : Formula) : Bool :=
  match sideOf? left, sideOf? right with
  | some (name, starred), some (name', starred') =>
    name == name' && starred != starred' && left.arguments? == right.arguments?
  | _, _ => false

variable [Memory]

/-- Whether two nodes of equal arguments have the very same ones.  Without any they have. -/
def sameArguments (left right : Nat) (formula : Formula) : Bool :=
  formula.arguments? == some [] || Memory.shared left right

/-- Whether a true predicate meets its true denial, which the bilateral calculus tolerates.  The
predicate is that of a node to be added. -/
def meetsDenial (tableau : Tableau) (branch : Branch) (id : Nat) (signed : Signed) : Bool :=
  signed.sign == .t && (tableau.nodesOn branch).any fun node =>
    node.signed.sign == .t && opposed signed.formula node.signed.formula &&
      sameArguments id node.id signed.formula

/-- The nodes of a branch as they are listed. -/
def listed (tableau : Tableau) (branch : Branch) : List Node :=
  (Memory.members tableau.nodes branch).filterMap tableau.node?

theorem mem_listed_iff {tableau : Tableau} {branch : Branch} {node : Node} :
    node ∈ tableau.listed branch ↔ node ∈ tableau.nodesOn branch :=
  ((Memory.members_perm tableau.nodes branch).filterMap tableau.node?).mem_iff

/-- The node of a branch that a node to be added contradicts, if there is one.

In the standard calculus it is a node with the same written formula under another definite sign.
In the bilateral one both signs are definite and the formulas have the same bilateral form, unless
the new formula makes a glut. -/
def contradicted? (tableau : Tableau) (branch : Branch) (id : Nat) (signed : Signed) :
    Option Nat :=
  match tableau.logic with
  | .standard =>
    [Sign.t, Sign.f, Sign.e].findSome? fun sign =>
      if sign != signed.sign then branch.find? signed.formula.text sign else none
  | .bilateral _ =>
    if tableau.meetsDenial branch id signed then none
    else
      ((tableau.listed branch).find? fun node =>
        signed.sign.contradicts node.signed.sign &&
          signed.formula.equivalent node.signed.formula).map Node.id

/-- Why a formula cannot be put on a branch at all, if so: it has no written form, or it has no
bilateral form where that is asked for. -/
def refusal? (tableau : Tableau) (branch : Branch) (id : Nat) (signed : Signed) : Option Fault :=
  let unwritten := signed.formula.misshapen?.map fun (symbol, parts) =>
    Fault.misshapen symbol parts
  match tableau.logic with
  | .standard => unwritten
  | .bilateral _ =>
    let compared := !tableau.meetsDenial branch id signed &&
      (tableau.nodesOn branch).any fun node => signed.sign.contradicts node.signed.sign
    if compared then signed.formula.formFault?.or unwritten else unwritten

/-! ## Growing the tree -/

def grow (tableau : Tableau) (parent : Option Nat) (rule : Option String) (signed : Signed) :
    Tableau × Nat :=
  let id := tableau.nodes.size
  let above := parent.bind tableau.node?
  let node : Node := {
    id := id
    signed := signed
    parent := parent
    children := []
    rule := rule
    depth := (above.map fun node => node.depth + 1).getD 0
    branches := (above.map Node.branches).getD []
    clash := none }
  let linked :=
    match parent with
    | some parent =>
      tableau.modifyNode parent fun node => { node with children := node.children ++ [id] }
    | none => tableau
  ({ linked with nodes := linked.nodes.push node }, id)

/-- Close a branch by two nodes.  A branch that is worked on moves to the closed ones. -/
def close (tableau : Tableau) (branch added present : Nat) : Tableau :=
  let wording := fun id => ((tableau.node? id).map fun node => node.signed.text).getD ""
  let reason := wording added ++ " contradicts " ++ wording present
  let shut := ((tableau.modifyBranch branch fun found =>
      { found with closure := some ⟨added, present, reason⟩ }).modifyNode added fun node =>
        { node with clash := some (present, branch) }).modifyNode present fun node =>
          { node with clash := some (added, branch) }
  if tableau.opened.contains branch then
    { shut with opened := shut.opened.erase branch, closed := shut.closed ++ [branch] }
  else shut

def register (tableau : Tableau) (id branch : Nat) : Tableau :=
  match tableau.node? id with
  | none => tableau
  | some node =>
    let tableau := tableau.modifyBranch branch fun found => found.register id node.signed
    let tableau := tableau.modifyNode id fun node =>
      { node with branches := node.branches.insert branch }
    { tableau with
      constants := Sorted.insertAll node.signed.formula.constants tableau.constants }

/-- Put a node on a branch, or close the branch if the node contradicts another one there.  The
flag tells whether the branch closed. -/
def settle (tableau : Tableau) (id branch : Nat) : Tableau × Bool :=
  match tableau.node? id, tableau.branch? branch with
  | some node, some found =>
    match tableau.contradicted? found id node.signed with
    | some present => (tableau.close branch id present, true)
    | none => (tableau.register id branch, false)
  | _, _ => (tableau, false)

/-! ## Starting -/

/-- Put the initial formulas on the first branch, one under the other, until it closes. -/
def plant (tableau : Tableau) (previous : Option Nat) : List Signed -> Except Fault Tableau
  | [] => .ok tableau
  | signed :: rest =>
    let (grown, id) := tableau.grow previous none signed
    let refusal := (tableau.branch? 0).bind fun branch => tableau.refusal? branch id signed
    match refusal, grown.settle id 0 with
    | some fault, _ => .error fault
    | none, (settled, true) => .ok settled
    | none, (settled, false) => settled.plant (some id) rest

/-- The tableau of a list of formulas before any rule is applied. -/
def start (logic : Logic) (formulas : List Signed) (traced : Bool) : Except Fault Tableau :=
  if formulas.isEmpty then .error .nothingToRefute
  else
    plant {
      logic := logic
      nodes := #[]
      branches := #[Branch.empty 0]
      opened := [0]
      closed := []
      constants := []
      trace := if traced then some (Trace.start formulas) else none } none formulas

/-! ## Applying rules -/

/-- The expansion of a node on a branch, if there is one.  A node that was processed has none,
except that a universal formula may meet new constants and an evaluator may be asked again. -/
def expansion? (tableau : Tableau) (node : Node) (branch : Branch) :
    Except Fault (Option Expansion) :=
  let universal :=
    match node.signed.formula with
    | .quant .all .. => true
    | _ => false
  let situation : Situation := {
    existing := Memory.constants tableau.nodes branch
    used := if universal then some (branch.usedFor node.id) else none
    fresh := "c_" ++ toString tableau.nodes.size }
  let finished := branch.processed.contains node.id && !universal
  match tableau.logic with
  | .standard =>
    if finished then .ok none
    else return (<- Standard.rule node.signed situation).map Expansion.ofRule
  | .bilateral evaluator => do
      let byRule <- if finished then pure none else Bilateral.rule node.signed situation
      match byRule with
      | some rule => return some (Expansion.ofRule rule)
      | none => return Expansion.byEvaluation? evaluator node.signed.formula

/-- Put the formulas of one conclusion on a branch, each as a node under the source unless the
branch holds it already, until the branch closes.  The flag tells whether it did. -/
def extend (tableau : Tableau) (source branch : Nat) (rule : String) : List Signed -> Tableau × Bool
  | [] => (tableau, false)
  | signed :: rest =>
    if (tableau.branch? branch).any fun found => found.holds signed then
      tableau.extend source branch rule rest
    else
      let (grown, id) := tableau.grow (some source) (some rule) signed
      match grown.settle id branch with
      | (settled, true) => (settled, true)
      | (settled, false) => settled.extend source branch rule rest

/-- Start a new branch with the nodes and the record of another one. -/
def fork (tableau : Tableau) (branch : Nat) : Tableau × Nat :=
  let id := tableau.branches.size
  match tableau.branch? branch with
  | none => ({ tableau with branches := tableau.branches.push (Branch.empty id) }, id)
  | some found =>
    let copied := { found with id := id, closure := none }
    let nodes := found.members.foldl (fun nodes member =>
      nodes.modify member fun node =>
        { node with branches := id :: node.branches }) tableau.nodes
    ({ tableau with nodes := nodes, branches := tableau.branches.push copied }, id)

/-- One new branch for each conclusion.  Those that do not close are worked on later. -/
def split (tableau : Tableau) (source branch : Nat) (rule : String) : List (List Signed) -> Tableau
  | [] => tableau
  | conclusion :: rest =>
    let (forked, id) := tableau.fork branch
    let grown :=
      match forked.extend source id rule conclusion with
      | (grown, true) => grown
      | (grown, false) => { grown with opened := grown.opened ++ [id] }
    grown.split source branch rule rest

def record (before after : Tableau) (source : Nat) (expansion : Expansion) : Tableau :=
  match after.trace, after.node? source with
  | some trace, some node =>
    let created := (node.children.filterMap after.node?).filter fun child =>
      child.rule == some expansion.name
    let closures := (after.closed.drop before.closed.length).filterMap fun id => do
      let closure <- (<- after.branch? id).closure
      return (id, closure.reason)
    let step : Trace.Step := {
      number := 0
      rule := expansion.name
      source := node.signed
      produced := expansion.conclusions
      created := created.map fun child => (child.id, child.signed)
      branches := (List.range after.branches.size).drop before.branches.size
      closures := closures }
    { after with trace := some { trace.record step with
        totalNodes := after.nodes.size
        totalBranches := after.branches.size
        closedBranches := after.closed.length } }
  | _, _ => after

/-- Apply an expansion to a node on a branch.  A single conclusion prolongs the branch, and when
that closes it the step is not recorded; several conclusions split it. -/
def apply (tableau : Tableau) (source branch : Nat) (expansion : Expansion) : Tableau :=
  let marked := tableau.modifyBranch branch fun found => found.mark source expansion.constant
  match expansion.conclusions with
  | [conclusion] =>
    match marked.extend source branch expansion.name conclusion with
    | (closed, true) => closed
    | (extended, false) => tableau.record extended source expansion
  | conclusions =>
    let released := { marked with opened := marked.opened.erase branch }
    tableau.record (released.split source branch expansion.name conclusions) source expansion

end Tableau
end WeakKleene
