import WeakKleene.Json.Basic
import WeakKleene.Tableau.Construction

namespace WeakKleene

/-!
Tableaux and their traces as data, for exchange with other programs.
-/

/-- A node by its number, signed formula, rule, parent, depth, children, branches, and the node
and branch of the contradiction it takes part in. -/
def Node.toJson (node : Node) : Json :=
  .list [
    .nat node.id,
    .string node.signed.text,
    .ofText? node.rule,
    .ofNat? node.parent,
    .nat node.depth,
    .nats node.children,
    .nats (Sorted.ofList node.branches),
    .ofNat? (node.clash.map Prod.fst),
    .ofNat? (node.clash.map Prod.snd)]

def Model.toJson (model : Model) : Json :=
  .record (model.valuations.map fun (atom, value) => (atom, .string value.letter))

namespace Tableau

def branchToJson (tableau : Tableau) (branch : Branch) : Json :=
  let used := branch.instantiated.mergeSort fun left right => left.1 <= right.1
  let wording := fun id => ((tableau.node? id).map fun node => node.signed.formula.text).getD ""
  .record [
    ("id", .nat branch.id),
    ("closed", .bool branch.isClosed),
    ("reason", .ofText? (branch.closure.map Closure.reason)),
    ("pair", (branch.closure.map fun closure =>
      Json.nats [closure.added, closure.present]).getD .null),
    ("nodes", .nats branch.members),
    ("terms", .texts branch.terms),
    ("processed", .nats branch.processed),
    ("used", .list (used.map fun (id, constants) =>
      .list [.nat id, .string (wording id), .texts constants]))]

def stateFields (tableau : Tableau) : List (String × Json) := [
  ("nodes", .list (tableau.nodes.toList.map Node.toJson)),
  ("branches", .list (tableau.branches.toList.map tableau.branchToJson)),
  ("open_ids", .nats tableau.opened),
  ("closed_ids", .nats tableau.closed),
  ("constants", .texts tableau.constants)]

def resultFields (tableau : Tableau) : List (String × Json) := [
  ("satisfiable", .bool tableau.satisfiable),
  ("valid", .bool !tableau.satisfiable),
  ("open", .nat tableau.opened.length),
  ("closed", .nat tableau.closed.length),
  ("total", .nat tableau.nodes.size),
  ("models", .list (tableau.models.map Model.toJson))]

end Tableau

namespace Trace

def Step.toJson (step : Step) : Json :=
  .record [
    ("number", .nat step.number),
    ("summary", .string step.summary),
    ("nodes", .nats (step.created.map Prod.fst)),
    ("branches", .nats step.branches),
    ("closures", .list (step.closures.map fun (branch, reason) =>
      .list [.nat branch, .string reason]))]

def toJson (trace : Trace) : Except Fault Json := do
  let _ <- trace.written.mapM Signed.print
  return .record [
    ("steps", .list (trace.steps.map Step.toJson)),
    ("stats", .nats [trace.totalNodes, trace.totalBranches, trace.closedBranches]),
    ("rules", .texts trace.ruleSummary),
    ("print", .lines trace.report),
    ("by_step", .lines trace.walkthrough)]

end Trace

def conclusionsToJson (conclusions : List (List Signed)) : Except Fault Json := do
  return .list (<- conclusions.mapM fun conclusion => do
    return .texts (<- conclusion.mapM Signed.print))

def Rule.toJson (rule : Rule) : Except Fault Json := do
  return .record [
    ("name", .string rule.name),
    ("conclusions", <- conclusionsToJson rule.conclusions),
    ("constant", .ofText? rule.constant),
    ("branching", .bool rule.branching),
    ("premise", .string (<- rule.premise.print))]

def Expansion.toJson (expansion : Expansion) : Except Fault Json := do
  return .record [
    ("name", .string expansion.name),
    ("conclusions", <- conclusionsToJson expansion.conclusions),
    ("constant", .ofText? expansion.constant),
    ("type", .string expansion.kind.name),
    ("priority", .nat expansion.kind.priority)]

end WeakKleene
