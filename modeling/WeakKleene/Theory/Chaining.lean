import WeakKleene.Sorted
import WeakKleene.Theory.Basic

namespace WeakKleene

/-!
Forward chaining: what follows from facts by universal statements.

A fact is a predicate of one individual.  A universal statement between two
predicates leads from facts of the first to facts of the second.  Rounds of all
rules are repeated until nothing new follows, up to a bound.
-/

/-- A predicate and an individual it holds of. -/
abbrev Fact := String × String

/-- A universal statement between two predicates, with its id. -/
structure ChainRule where
  source : Json
  restriction : String
  matrix : String

/-- A fact that was derived, and the id of the statement it was derived by. -/
structure Derivation where
  fact : Fact
  source : Json

/-- Facts, and those among them that were derived, in order of derivation. -/
structure ChainState where
  facts : List Fact
  derived : List Derivation

namespace ChainState

/-- The individuals that a predicate is known to hold of, in ascending order. -/
def individuals (state : ChainState) (predicate : String) : List String :=
  Sorted.ofList ((state.facts.filter fun fact => fact.1 == predicate).map Prod.snd)

def derive (source : Json) (state : ChainState) (fact : Fact) : ChainState :=
  if state.facts.contains fact then state
  else ⟨state.facts ++ [fact], state.derived ++ [⟨fact, source⟩]⟩

def apply (state : ChainState) (rule : ChainRule) : ChainState :=
  (state.individuals rule.restriction).foldl (fun state individual =>
    state.derive rule.source (rule.matrix, individual)) state

def round (rules : List ChainRule) (state : ChainState) : ChainState := rules.foldl apply state

/-- Repeat rounds until one derives nothing, at most as often as the bound says. -/
def saturate (rules : List ChainRule) : Nat -> ChainState -> ChainState
  | 0, state => state
  | bound + 1, state =>
    let next := round rules state
    if next.derived.length == state.derived.length then next
    else saturate rules bound next

/-- The number of rounds after which chaining is given up. -/
def roundBound : Nat := 100

end ChainState

namespace Theory

/-- The predicate of a formula that is one, if it has a name. -/
def predicate? (formula : Formula) : Option String :=
  formula.predicateName?.filter fun name => !name.isEmpty

/-- The fact that a formula states, if it is a predicate of one named individual. -/
def fact? (formula : Formula) : Option Fact := do
  let predicate <- predicate? formula
  match <- formula.arguments? with
  | [.const individual] => if individual.isEmpty then none else some (predicate, individual)
  | _ => none

/-- The rule that a formula states, if it is universal between two predicates. -/
def rule? (source : Json) : Formula -> Option ChainRule
  | .quant .all _ restriction matrix => do
      return ⟨source, <- predicate? restriction, <- predicate? matrix⟩
  | _ => none

/-- The statements under the sign t that can be read, with their formulas. -/
def trueContents (theory : Theory) : Except Fault (List (Statement × Formula)) := do
  let contents <- theory.statements.mapM fun statement => do
    return (<- statement.content?).map fun formula => (statement, formula)
  return (contents.filterMap id).filter fun content => content.1.sign.isText "t"

def facts (contents : List (Statement × Formula)) : List Fact :=
  (contents.filterMap fun (_, formula) => fact? formula).eraseDups

def rules (contents : List (Statement × Formula)) : List ChainRule :=
  contents.filterMap fun (statement, formula) => rule? statement.id formula

/-- The facts that follow from contents, in order of derivation. -/
def consequences (contents : List (Statement × Formula)) : List Derivation :=
  (ChainState.saturate (rules contents) ChainState.roundBound ⟨facts contents, []⟩).derived

/-- The facts that follow, in order of derivation. -/
def derivations (theory : Theory) : Except Fault (List Derivation) := do
  return consequences (<- theory.trueContents)

def factText (fact : Fact) : String := fact.1 ++ "(" ++ fact.2 ++ ")"

def denialText (fact : Fact) : String := fact.1 ++ "*(" ++ fact.2 ++ ")"

/-- Store a derived fact, unless a statement has it as its formula.  New statements are collected
beside the theory. -/
def storeDerivation (now : String) (state : Theory × List Statement) (derivation : Derivation) :
    Except Fault (Theory × List Statement) := do
  let (theory, stored) := state
  let text := factText derivation.fact
  if theory.hasFormula text then return state
  let (theory, statement) <- theory.add now {
    origin := .inferred
    sentence := .string ("Inferred: " ++ text ++ " is t")
    formula := text
    sign := "t"
    metadata := [("source", .string "forward_chaining"), ("from_rule", derivation.source)] }
  return (theory, stored ++ [statement])

/-! ## An adviser's view of what was derived -/

/-- The metadata that all findings on a derivation share. -/
def findingMetadata (adviser : Adviser) (derivation : Derivation) (evidence : Evidence) :
    Except Fault (List (FieldName × Json)) :=
  adviser.signed [
    ("source", .string "llm_verification"),
    ("verified_inference", derivation.source),
    ("bilateral", .record [
      ("positive", .string evidence.positive.letter),
      ("negative", .string evidence.negative.letter)])]

def storeFinding (now sentence formula sign : String) (metadata : List (FieldName × Json))
    (state : Theory × List Statement) : Except Fault (Theory × List Statement) := do
  let (theory, statement) <- state.1.add now {
    origin := .evidence
    sentence := .string sentence
    formula := formula
    sign := sign
    metadata := metadata }
  return (theory, state.2 ++ [statement])

/-- Store what an adviser's evidence on a derived fact amounts to: that it holds, that its denial
holds, both, or that nothing is known.  Nothing is stored if one side is undefined. -/
def storeEvidence (now : String) (adviser : Adviser) (derivation : Derivation)
    (evidence : Evidence) (state : Theory × List Statement) :
    Except Fault (Theory × List Statement) := do
  let text := factText derivation.fact
  let denial := denialText derivation.fact
  let shared <- findingMetadata adviser derivation evidence
  let metadata := fun verdict => Json.put "verdict" (.string verdict) shared
  match evidence with
  | ⟨.t, .f⟩ =>
    storeFinding now ("LLM: " ++ text ++ " confirmed <t,f>") text "t" (metadata "verified") state
  | ⟨.f, .t⟩ =>
    storeFinding now ("LLM: " ++ denial ++ " (refutes " ++ derivation.fact.1 ++ ") <f,t>")
      denial "t" (Json.put "refutes" (.string text) (metadata "refuted")) state
  | ⟨.t, .t⟩ => do
      let (first, _) <- state.1.takeId Origin.evidence.letter
      let positive <- storeFinding now ("LLM: " ++ text ++ " (glut positive) <t,t>") text "t"
        (metadata "glut") state
      storeFinding now ("LLM: " ++ denial ++ " (glut negative) <t,t>") denial "t"
        (Json.put "glut_pair" (.string first) (metadata "glut")) positive
  | ⟨.f, .f⟩ =>
    storeFinding now ("LLM: " ++ text ++ " has no evidence <f,f>") text "v" (metadata "gap") state
  | _ => return state

/-- Ask an adviser about a derived fact, and store its evidence if that can be done. -/
def verify (now : String) (adviser : Adviser) (state : Theory × List Statement)
    (derivation : Derivation) : Theory × List Statement :=
  match Statement.readFormula (factText derivation.fact) with
  | .error _ => state
  | .ok formula =>
    if formula.isAtomic then
      match (adviser.evaluator formula).evidence? with
      | some evidence => (storeEvidence now adviser derivation evidence state).toOption.getD state
      | none => state
    else state

/-- Store all facts that follow, then what an adviser says about them.  The new statements are
returned beside the theory. -/
def infer (theory : Theory) (now : String) (adviser : Option Adviser) :
    Except Fault (Theory × List Statement) := do
  let derivations <- theory.derivations
  let inferred <- derivations.foldlM (storeDerivation now) (theory, [])
  let (theory, statements) := match adviser with
    | some adviser => derivations.foldl (verify now adviser) inferred
    | none => inferred
  return ({ theory with timings := { theory.timings with
      inference := some 0
      advice := adviser.map fun _ => 0 } }, statements)

end Theory
end WeakKleene
