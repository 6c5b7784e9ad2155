import WeakKleene.Evaluator

namespace WeakKleene

/-!
Evaluators that consult a language model.

A model is asked about a statement without a star.  What it says about a
denial is what it says about the statement, seen from the other side.  Answers
are remembered, failures are not, so a statement that failed is asked again.
-/

/-- A language model ready to be asked: the name it goes by, if it tells, and its answer about a
statement, if it has one. -/
structure Endpoint where
  model : Option String
  answer : String -> Option Evidence

/-- A model that answers by a table: a value for each side of a statement, or a failure.  A side
whose value is not known counts as undefined. -/
def Endpoint.ofTable (model : Option String)
    (table : String -> Option (Option Truth × Option Truth)) : Endpoint where
  model := model
  answer := fun statement => (table statement).map fun sides =>
    ⟨sides.1.getD .e, sides.2.getD .e⟩

/-- The means to reach language models.  `routes` tells whether the provider that routes requests
to others has an entry of its own; `connect` reaches a provider's model. -/
structure Service where
  routes : Bool
  connect : String -> Option String -> Option Endpoint

structure ModelInfo where
  provider : String
  model : String
deriving DecidableEq, Repr

structure Consultant where
  info : ModelInfo
  answer : String -> Option Evidence

namespace Consultant

/-- The model to ask a provider for: none for the stand-in, a default for the routing provider. -/
def requestedModel (service : Service) (provider : String) (model : Option String) :
    Option String :=
  let named := model.filter fun name => !name.isEmpty
  if provider == "mock" then none
  else if provider == "openrouter" && service.routes then some (named.getD "openrouter/auto")
  else named

/-- How a consultant's model is named: as the endpoint tells, or else by what is known. -/
def modelName (endpoint : Endpoint) (provider : String) (model : Option String) : String :=
  match endpoint.model with
  | some name => name
  | none =>
    if provider == "mock" then "mock-model"
    else (model.filter fun name => !name.isEmpty).getD "unknown"

/-- Reach a provider's model, where there is a service and it can be reached. -/
def connect? (service : Option Service) (provider : String) (model : Option String) :
    Option Consultant := do
  let service <- service
  let endpoint <- service.connect provider (requestedModel service provider model)
  return ⟨⟨provider, modelName endpoint provider model⟩, endpoint.answer⟩

/-- The model that is asked for when a provider is chosen and no model is named. -/
def defaultModel? : String -> Option String
  | "openai" => some "gpt-4"
  | "anthropic" => some "claude-sonnet-4-20250514"
  | "openrouter" => some "openrouter/auto"
  | _ => none

/-- The statement to ask about for a formula, and whether the formula is its denial. -/
def question (formula : Formula) : String × Bool :=
  match formula with
  | .bilateral _ _ _ starred => (String.ofList (formula.text.toList.filter (· != '*')), starred)
  | formula => (formula.text, false)

/-- Answers that were received, and every statement that was asked about. -/
structure Memory where
  answers : List (String × Evidence)
  asked : List String

namespace Memory

def empty : Memory := ⟨[], []⟩

end Memory

/-- What is known of a statement, from memory or by asking. -/
def inquire (consultant : Consultant) (memory : Memory) (statement : String) :
    Option Evidence × Memory :=
  match memory.answers.lookup statement with
  | some evidence => (some evidence, memory)
  | none =>
    let asked := memory.asked ++ [statement]
    match consultant.answer statement with
    | some evidence => (some evidence, ⟨(statement, evidence) :: memory.answers, asked⟩)
    | none => (none, ⟨memory.answers, asked⟩)

/-- Ask about a formula.  Only atomic formulas are asked about. -/
def consult (consultant : Consultant) (memory : Memory) (formula : Formula) :
    Option Evidence × Memory :=
  if formula.isAtomic then
    let (statement, denied) := question formula
    let (evidence, remembered) := consultant.inquire memory statement
    (if denied then evidence.map Evidence.swap else evidence, remembered)
  else (none, memory)

/-- Ask about formulas one after the other. -/
def consultAll (consultant : Consultant) (memory : Memory) :
    List Formula -> List (Option Evidence) × Memory
  | [] => ([], memory)
  | formula :: rest =>
    let (evidence, remembered) := consultant.consult memory formula
    let (others, last) := consultant.consultAll remembered rest
    (evidence :: others, last)

/-- The consultant as an evaluator, which has nothing to say where there is no answer. -/
def evaluator (consultant : Consultant) : Evaluator := fun formula =>
  match (consultant.consult Memory.empty formula).1 with
  | some evidence => .evidence evidence
  | none => .silent

end Consultant
end WeakKleene
