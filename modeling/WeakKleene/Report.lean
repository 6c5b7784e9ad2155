import WeakKleene.Consequence

namespace WeakKleene
namespace Report

/-!
Results in words, as lines of text.
-/

def flag (value : Bool) : String := if value then "True" else "False"

/-- Models with numbers, each behind the given indentation. -/
def numbered (indentation : String) (models : List Model) : List String :=
  (models.zipIdx 1).map fun (model, number) =>
    indentation ++ toString number ++ ". " ++ model.text

def statistics (tableau : Tableau) : List String := [
  "\nStatistics:",
  "  Open branches: " ++ toString tableau.opened.length,
  "  Closed branches: " ++ toString tableau.closed.length,
  "  Total nodes: " ++ toString tableau.nodes.size]

def branchDetails (tableau : Tableau) : List String :=
  ["\nDebug info:", "  Branch details: " ++ toString tableau.branches.size ++ " total branches"] ++
  tableau.branches.toList.map fun branch =>
    "    Branch " ++ toString branch.id ++ ": " ++ (if branch.isClosed then "CLOSED" else "OPEN") ++
      " (" ++ toString branch.members.length ++ " nodes)"

/-- What a finished tableau says, with models, statistics and branches on request. -/
def outcome (tableau : Tableau) (models stats branches : Bool) : List String :=
  ["Satisfiable: " ++ flag tableau.satisfiable] ++
  (if models && !tableau.models.isEmpty then
    ("Models (" ++ toString tableau.models.length ++ "):") :: numbered "  " tableau.models
  else []) ++
  (if stats then statistics tableau else []) ++
  (if branches then branchDetails tableau else [])

/-- What the test of an inference says, with an explanation on request. -/
def verdict (verdict : Verdict) (explain : Bool) : List String :=
  (if verdict.valid then ["✓ Valid inference"]
  else ["✗ Invalid inference", "Countermodels:"] ++ numbered "  " verdict.countermodels) ++
  (if explain then
    ["\nExplanation:", "Testing satisfiability of: " ++ verdict.inference.refutation.text] ++
      outcome verdict.tableau false true false
  else [])

/-- The trace of a construction, or a hint how to get one. -/
def construction : Option Trace -> List String
  | some trace => trace.report
  | none => ["No trace available. Re-run with trace=True"]

end Report
end WeakKleene
