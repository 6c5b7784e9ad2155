import WeakKleene.Evidence
import WeakKleene.Formula.Text

namespace WeakKleene

/-!
Outside judgement on atomic formulas.

An evaluator is asked about one atomic formula at a time.  It may answer with
evidence, have nothing to say, or fail.
-/

inductive Reply where
  | evidence (evidence : Evidence)
  | silent
  | failure (message : String)
deriving DecidableEq, Repr

/-- The evidence in a reply, if it gives any. -/
def Reply.evidence? : Reply -> Option Evidence
  | .evidence found => some found
  | _ => none

abbrev Evaluator := Formula -> Reply

end WeakKleene
