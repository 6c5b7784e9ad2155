import WeakKleene.Consequence
import WeakKleene.Theory.Basic

namespace WeakKleene

/-!
Whether a theory is satisfiable, and what it says about each predicate.

The statements that can be read go under their signs into a bilateral tableau.
A branch that is not closed tells for each predicate whether there is evidence
for it, against it, both or neither.
-/

variable [Memory]

/-- What is known about a predicate of individuals. -/
inductive Knowledge where
  | glut
  | true
  | false
  | gap
deriving DecidableEq, Repr

namespace Knowledge

def name : Knowledge -> String
  | glut => "glut"
  | true => "true"
  | false => "false"
  | gap => "gap"

end Knowledge

/-- What a branch says about a predicate, with the nodes that say so. -/
structure InformationState where
  predicate : String
  knowledge : Knowledge
  evidence : List String
  branch : Nat

namespace Theory

/-- The sign under which a statement is checked; signs that are not definite count as t.  What
names nothing is no sign at all. -/
def checkedSign? (sign : Json) : Option Sign :=
  if sign.isText "f" then some .f
  else if sign.isText "e" then some .e
  else if sign.isName then some .t
  else none

def signedFormula? (statement : Statement) : Except Fault (Option Signed) := do
  match <- statement.content?, checkedSign? statement.sign with
  | some formula, some sign => return some ⟨sign, formula⟩
  | _, _ => return none

def signedFormulas (theory : Theory) : Except Fault (List Signed) := do
  return (<- theory.statements.mapM signedFormula?).filterMap id

/-- A name without any stars at its end. -/
def withoutStars (name : String) : String :=
  String.ofList (name.toList.reverse.dropWhile (· == '*')).reverse

structure Testimony where
  name : String
  args : List String
  denied : Bool
  sign : Sign
  text : String

/-- What a signed formula says about a predicate, if it is one. -/
def testimony? (signed : Signed) : Option Testimony :=
  let text := signed.sign.letter ++ ":" ++ signed.formula.text
  match signed.formula with
  | .bilateral name args _ starred => some ⟨name, args.map Term.name, starred, signed.sign, text⟩
  | .pred name args =>
    some ⟨withoutStars name, args.map Term.name, (Formula.unstarred? name).isSome, signed.sign,
      text⟩
  | _ => none

/-- What testimonies about one predicate amount to, if anything. -/
def knowledge? (testimonies : List Testimony) : Option Knowledge :=
  let told := fun sign denied => testimonies.any fun testimony =>
    testimony.sign == sign && testimony.denied == denied
  if told .t false && told .t true then some .glut
  else if told .t false then some .true
  else if told .t true then some .false
  else if told .f false && told .f true then some .gap
  else if told .e false || told .e true then some .gap
  else none

/-- What a branch says about each predicate, in order of first mention. -/
def statesOn (tableau : Tableau) (branch : Branch) : List InformationState :=
  let testimonies := (tableau.listed branch).filterMap fun node => testimony? node.signed
  let subjects := (testimonies.map fun testimony => (testimony.name, testimony.args)).eraseDups
  subjects.filterMap fun (name, args) =>
    let about := testimonies.filter fun testimony =>
      testimony.name == name && testimony.args == args
    (knowledge? about).map fun knowledge => {
      predicate := name ++ "(" ++ String.intercalate "," args ++ ")"
      knowledge := knowledge
      evidence := about.map Testimony.text
      branch := branch.id }

/-- States of which none repeats the predicate and knowledge of an earlier one. -/
def distinctStates (states : List InformationState) : List InformationState :=
  states.foldl (fun kept state =>
    if kept.any fun other =>
      other.predicate == state.predicate && other.knowledge == state.knowledge then kept
    else kept ++ [state]) []

/-- What the branches that did not close say. -/
def informationStates (tableau : Tableau) : List InformationState :=
  distinctStates ((tableau.branches.toList.filter fun branch => !branch.isClosed).flatMap
    (statesOn tableau))

/-- The denied predicates of a tableau, each with a sentence that says so. -/
def denials (tableau : Tableau) : List (String × String) :=
  tableau.nodes.toList.filterMap fun node =>
    match node.signed.formula with
    | .bilateral name args _ true =>
      let subject := String.intercalate ", " (args.map Term.name)
      some (node.signed.formula.text, "LLM evidence: " ++ subject ++ " is not " ++ lowered name)
    | _ => none

/-- The first denial of each text that no statement has as its formula. -/
def newDenials (theory : Theory) (tableau : Tableau) : List (String × String) :=
  (denials tableau).foldl (fun kept (text, sentence) =>
    if theory.hasFormula text || kept.any fun other => other.1 == text then kept
    else kept ++ [(text, sentence)]) []

/-- Store denials as an adviser's evidence, until one cannot be stored. -/
def storeDenials (theory : Theory) (now : String) (adviser : Adviser) :
    List (String × String) -> Theory × Option Fault
  | [] => (theory, none)
  | (text, sentence) :: rest =>
    let draft : Draft := {
      origin := .evidence
      sentence := .string sentence
      formula := text
      sign := "t"
      metadata := [("source", .string "llm_evaluation")] }
    match theory.addSigned now adviser draft with
    | (stored, .ok _) => stored.storeDenials now adviser rest
    | (stored, .error fault) => (stored, some fault)

/-- Store an adviser's evidence against predicates, if there is an adviser. -/
def storeAdvice (theory : Theory) (now : String) (adviser : Option Adviser) (tableau : Tableau) :
    Theory × Option Fault :=
  match adviser with
  | some adviser => theory.storeDenials now adviser (theory.newDenials tableau)
  | none => (theory, none)

structure CheckResult where
  satisfiable : Bool
  states : List InformationState

/-- The finished tableau of the theory's formulas, if there are any. -/
def tableau? (theory : Theory) (adviser : Option Adviser) : Except Fault (Option Tableau) := do
  let formulas <- theory.signedFormulas
  if formulas.isEmpty then return none
  return some (<- Tableau.ofFormulas (.bilateral (adviser.map Adviser.evaluator)) formulas false)

/-- Check whether the theory is satisfiable.  With an adviser, its evidence against predicates is
stored.  A theory without formulas is satisfiable and nothing is recorded. -/
def check (theory : Theory) (now : String) (adviser : Option Adviser) :
    Theory × Except Fault CheckResult :=
  match theory.tableau? adviser with
  | .error fault => (theory, .error fault)
  | .ok none => (theory, .ok ⟨true, []⟩)
  | .ok (some tableau) =>
    match theory.storeAdvice now adviser tableau with
    | (stored, some fault) => (stored, .error fault)
    | (stored, none) =>
      ({ stored with timings := { stored.timings with check := some 0 } },
        .ok ⟨tableau.satisfiable, informationStates tableau⟩)

end Theory
end WeakKleene
