import WeakKleene.Grammar.Inference
import WeakKleene.Tableau.Construction

namespace WeakKleene

/-!
Satisfiability, validity and consequence, each decided by a finished tableau.

An inference is tested by assuming that its premises are true and its
conclusion is not: it is valid if every branch closes.  A formula is valid if
it can be neither false nor undefined.
-/

variable [Memory]

def systemName : String := "wkrq"

def systemDescription : String := "Weak Kleene logic with restricted quantification"

def Tableau.ofFormulas (logic : Logic) (formulas : List Signed) (traced : Bool) :
    Except Fault Tableau := do
  (<- Tableau.start logic formulas traced).construct

def solve (formula : Formula) (sign : Sign) (traced : Bool) : Except Fault Tableau :=
  Tableau.ofFormulas .standard [⟨sign, formula⟩] traced

/-- Whether a formula can be neither false nor undefined. -/
def valid (formula : Formula) : Except Fault Bool := do
  if (<- solve formula .f false).satisfiable then return false
  return !(<- solve formula .e false).satisfiable

/-- What an inference is refuted from: true premises and a conclusion that is not true. -/
def refutationStart (premises : List Formula) (conclusion : Formula) : List Signed :=
  premises.map (Signed.mk .t) ++ [⟨.n, conclusion⟩]

/-- Whether the conclusion follows from the premises; without premises, whether it is valid. -/
def entails (premises : List Formula) (conclusion : Formula) : Except Fault Bool := do
  if premises.isEmpty then valid conclusion
  else
    let tableau <- Tableau.ofFormulas .standard (refutationStart premises conclusion) false
    return !tableau.satisfiable

/-- The models of a signed formula up to a limit; a negative limit leaves out models at the
end. -/
def findModels (formula : Formula) (sign : Sign) (limit : Option Int) :
    Except Fault (List Model) := do
  let models := (<- solve formula sign false).models
  match limit with
  | none => return models
  | some limit =>
    return models.take (if limit < 0 then (models.length + limit).toNat else limit.toNat)

structure Verdict where
  inference : Inference
  tableau : Tableau

namespace Verdict

/-- The inference holds if no branch is open. -/
def valid (verdict : Verdict) : Bool := !verdict.tableau.satisfiable

def countermodels (verdict : Verdict) : List Model := verdict.tableau.models

def text (verdict : Verdict) : String :=
  if verdict.valid then "✓ Valid inference: " ++ verdict.inference.text
  else
    "✗ Invalid inference: " ++ verdict.inference.text ++ "\nCountermodels: " ++
      String.intercalate ", " (verdict.countermodels.map Model.text)

end Verdict

def Inference.check (inference : Inference) (traced : Bool) : Except Fault Verdict := do
  let start := refutationStart inference.premises inference.conclusion
  return ⟨inference, <- Tableau.ofFormulas .standard start traced⟩

end WeakKleene
