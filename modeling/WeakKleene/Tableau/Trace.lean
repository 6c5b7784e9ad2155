import WeakKleene.Sign

namespace WeakKleene

/-!
The record of a construction: which rule was applied to what, what it called
for, and what came of it.
-/

namespace Trace

/-- One recorded application of a rule.  `created` are the nodes that stand under the source by
this rule, and `closures` the branches that closed, with the reason. -/
structure Step where
  number : Nat
  rule : String
  source : Signed
  produced : List (List Signed)
  created : List (Nat × Signed)
  branches : List Nat
  closures : List (Nat × String)

def banner (line : Char) (title : String) : List String :=
  let rule := String.ofList (List.replicate 70 line)
  ["", rule, title, rule]

namespace Step

/-- A formula that a single conclusion called for, with a mark whether it became a node. -/
def producedLine (step : Step) (signed : Signed) : String :=
  let added := step.created.any fun node => node.2.text == signed.text
  let mark :=
    if added then "✓"
    else if step.closures.isEmpty then "✗"
    else "✗ (branch already closed)"
  "    " ++ mark ++ " " ++ signed.text

/-- The formulas of several conclusions, under a numbered heading each. -/
def conclusionLines (conclusions : List (List Signed)) : List String :=
  conclusions.zipIdx.flatMap fun (conclusion, i) =>
    ("    Branch " ++ toString (i + 1) ++ ":") ::
      conclusion.map fun signed => "      " ++ signed.text

def summaryLines (step : Step) : List String :=
  ["Step " ++ toString step.number ++ ": " ++ step.rule, "  Applied to: " ++ step.source.text] ++
  (match step.produced with
    | [conclusion] => "  Produced:" :: conclusion.map step.producedLine
    | conclusions =>
      ("  Created " ++ toString conclusions.length ++ " branches:") ::
        conclusionLines conclusions) ++
  step.closures.map fun closure => "  ⚠ Caused closure: " ++ closure.2

def summary (step : Step) : String := String.intercalate "\n" step.summaryLines

/-- The nodes whose texts are looked at to tell whether a formula became one of them: those up to
the first with its text.  The formula itself is looked at after the first node. -/
def comparedTexts (step : Step) (signed : Signed) : List Signed :=
  let differs := fun node : Signed => node.text != signed.text
  let nodes := step.created.map Prod.snd
  let looked := nodes.takeWhile differs ++ (nodes.dropWhile differs).take 1
  looked.take 1 ++ [signed] ++ looked.drop 1

/-- The formulas that the summary writes, in the order in which it does. -/
def written (step : Step) : List Signed :=
  step.source :: match step.produced with
    | [conclusion] => conclusion.flatMap step.comparedTexts
    | conclusions => conclusions.flatten

def isEvaluation (step : Step) : Bool := (step.rule.splitOn "llm-eval").length > 1

/-- What an evaluator must have answered, judged by what was concluded from it. -/
def verdict (step : Step) : String :=
  let conclusion := step.produced.headD []
  let count := fun sign => (conclusion.filter fun signed => signed.sign == sign).length
  if count .t > 0 then
    if conclusion.any fun signed => signed.formula.text.toList.contains '*' then
      "glut (both true)"
    else "true"
  else if count .f > 0 then
    if count .f > 1 then "gap (no knowledge)" else "false"
  else if count .e > 0 then "undefined"
  else "unknown"

end Step
end Trace

/-- A construction from its initial formulas, with the numbers of nodes, branches and closed
branches after the last recorded step. -/
structure Trace where
  initial : List Signed
  steps : List Trace.Step
  totalNodes : Nat
  totalBranches : Nat
  closedBranches : Nat

namespace Trace

def start (initial : List Signed) : Trace := ⟨initial, [], 0, 0, 0⟩

def record (trace : Trace) (step : Step) : Trace :=
  { trace with steps := trace.steps ++ [{ step with number := trace.steps.length + 1 }] }

/-- The whole record as lines of text. -/
def report (trace : Trace) : List String :=
  banner '=' "TABLEAU CONSTRUCTION TRACE" ++
  ["", "Initial Formulas:"] ++
  trace.initial.zipIdx.map (fun (signed, i) => "  " ++ toString (i + 1) ++ ". " ++ signed.text) ++
  banner '-' "RULE APPLICATIONS" ++
  trace.steps.flatMap (fun step => "" :: step.summaryLines) ++
  banner '-' "STATISTICS" ++
  ["Total steps: " ++ toString trace.steps.length, "Total nodes: " ++ toString trace.totalNodes,
    "Total branches: " ++ toString trace.totalBranches,
    "Closed branches: " ++ toString trace.closedBranches]

/-- The lines about one step that name its new nodes and count its new branches. -/
def walkthroughLines (step : Step) : List String :=
  ["", String.ofList (List.replicate 70 '-')] ++ step.summaryLines ++
  (if step.created.isEmpty then [] else "  New nodes added to tableau:" ::
      step.created.map fun (id, signed) => "    Node " ++ toString id ++ ": " ++ signed.text) ++
  (if step.branches.isEmpty then []
    else ["  Created " ++ toString step.branches.length ++ " new branches"])

/-- The record step by step, as lines of text. -/
def walkthrough (trace : Trace) : List String :=
  banner '=' "STEP-BY-STEP TABLEAU CONSTRUCTION" ++
  ["", "Initial State:"] ++
  trace.initial.zipIdx.map (fun (signed, i) => "  Node " ++ toString i ++ ": " ++ signed.text) ++
  trace.steps.flatMap walkthroughLines

/-- The formulas that are written about the construction, in the order in which they are. -/
def written (trace : Trace) : List Signed :=
  trace.steps.flatMap Step.written ++ trace.initial ++
    trace.steps.flatMap fun step => step.created.map Prod.snd

/-- How often each rule was applied, by name, and what evaluators answered. -/
def ruleSummary (trace : Trace) : List String :=
  let names := trace.steps.map Step.rule
  let evaluations := trace.steps.filter Step.isEvaluation
  "Rules Applied:" ::
  (Sorted.ofList names).map (fun name =>
    "  " ++ name ++ ": " ++ toString (names.count name) ++ " time(s)") ++
  (if evaluations.isEmpty then [] else "\nLLM Evaluations:" ::
      evaluations.map fun step => "  " ++ step.source.formula.text ++ " → " ++ step.verdict)

end Trace
end WeakKleene
