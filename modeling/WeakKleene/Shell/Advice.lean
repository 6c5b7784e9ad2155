import WeakKleene.Shell.Statements
import WeakKleene.Text.Replace

namespace WeakKleene
namespace Shell

/-!
The commands that ask a language model: claim, evaluate and llm.
-/

open Dialogue

variable [Memory]

/-- The line that names the model in use, if the adviser tells.  An adviser that tells anything
has to tell its provider and model. -/
def modelLine (adviser : Option Adviser) : Except Fault (List String) :=
  match adviser.bind Adviser.info with
  | none => .ok []
  | some (.object info) => do
      let provider <- Statement.field info "provider"
      let model <- Statement.field info "model"
      return ["Using: " ++ provider.shown ++ " / " ++ model.shown]
  | some _ => .error .wrongKind

/-! ## Claims -/

/-- The formula of a claim, with the text it was read from, or why there is none. -/
def claimedFormula (text : String) : Except String (String × Formula) :=
  match Statement.readFormula text with
  | .ok formula => .ok (text, formula)
  | .error _ =>
    match Language.formula? text with
    | none => .error ("Error: Could not translate or parse: " ++ text)
    | some formed =>
      match Statement.readFormula formed with
      | .ok formula => .ok (formed, formula)
      | .error fault => .error ("Error: Could not parse translated formula: " ++ fault.message)

/-- The sign that evidence gives to a claim, and the verdict in words.  Evidence on both sides
gives none. -/
def claimSign? : Evidence -> Option (String × String)
  | ⟨.t, .f⟩ => some ("t", "TRUE (verified by LLM)")
  | ⟨.f, .t⟩ => some ("f", "FALSE (refuted by LLM)")
  | ⟨.e, .e⟩ => some ("e", "UNDEFINED (no evidence from LLM)")
  | ⟨.t, .t⟩ => none
  | _ => some ("e", "GAP (neither true nor false per LLM)")

def assertFormula (session : Session) (sentence formula sign : String) :
    Session × Except Fault Statement :=
  let (theory, outcome) :=
    session.theory.assert session.now (.string sentence) (.string formula) (.string sign)
  (session.withTheory theory, outcome)

/-- Assert a claim without advice, after advice was of no use. -/
def fallBack (session : Session) (reason text : String) : Action := do
  tell ("Error evaluating with LLM: " ++ reason)
  tell "Falling back to regular assertion"
  assertCommand session text

/-- Assert a claim without advice, and once more if that fails. -/
def assertOrFallBack (session : Session) (text : String) : Action := do
  match <- assertCommand session text with
  | (session, .failed fault) => fallBack session fault.message text
  | ended => return ended

/-- Assert that the denial of a claimed predicate holds too. -/
def claimDenial (session : Session) (sentence : String) (name : String) (args : List Term) :
    Action := do
  let denial := name ++ "*(" ++ String.intercalate "," (args.map Term.name) ++ ")"
  match assertFormula session (sentence ++ " (negative evidence)") denial "t" with
  | (session, .error fault) => fallBack session fault.message sentence
  | (session, .ok statement) =>
    tell ("✓ Asserted: " ++ statement.id.shown)
    tell "  Sign: t"
    tell ("  Formula: " ++ denial)
    tell "  Note: LLM reported conflicting evidence (glut)"
    session.goOn

/-- Assert a claim and, for a predicate, its denial too. -/
def claimBoth (session : Session) (sentence text : String) (formula : Formula) : Action := do
  tell ("LLM reports conflicting evidence (glut) for: " ++ formula.text)
  match assertFormula session sentence text "t" with
  | (session, .error fault) => fallBack session fault.message sentence
  | (session, .ok statement) =>
    tell ("✓ Asserted: " ++ statement.id.shown)
    tell "  Sign: t"
    tell ("  Formula: " ++ text)
    match formula.predicateName?, formula.arguments? with
    | some name, some args => claimDenial session sentence name args
    | _, _ => session.goOn

/-- Metadata of a statement after it was judged by an adviser. -/
def judgedMetadata (adviser : Adviser) : Json -> Except Fault Json
  | .object fields => do
      return .object (<- adviser.signed (Json.put "llm_evaluated" (.bool true) fields))
  | metadata => .ok metadata

/-- Assert a claim under the sign that an adviser's evidence gives it. -/
def claimSigned (session : Session) (adviser : Adviser) (sentence text sign verdict : String) :
    Action := do
  match assertFormula session sentence text sign with
  | (session, .error fault) => fallBack session fault.message sentence
  | (session, .ok statement) =>
    tell ("✓ Claimed: " ++ statement.id.shown)
    tell ("  Sign: " ++ sign)
    tell ("  Formula: " ++ text)
    tell ("  LLM verdict: " ++ verdict)
    match judgedMetadata adviser statement.metadata with
    | .error fault => fallBack session fault.message sentence
    | .ok metadata =>
      (session.withTheory (session.theory.put { statement with metadata := metadata })).goOn

/-- Assert a claim by what an adviser says about it. -/
def claimByAdvice (session : Session) (adviser : Adviser) (text : String) (formulaText : String)
    (formula : Formula) : Action := do
  tell ("Verifying claim with LLM: " ++ formula.text)
  match modelLine (some adviser) with
  | .error fault => session.fail fault
  | .ok lines =>
    tellAll lines
    match adviser.evaluator formula with
    | .failure message => fallBack session message text
    | .silent =>
      tell "No LLM evaluation available, asserting as true"
      assertOrFallBack session text
    | .evidence evidence =>
      match claimSign? evidence with
      | some (sign, verdict) => claimSigned session adviser text formulaText sign verdict
      | none => claimBoth session text formulaText formula

/-- Assert a claim after asking the adviser about it, where there is one and the claim is
atomic. -/
def claimCommand (session : Session) (text : String) : Action := do
  if text.isEmpty then
    tell "Error: Please provide a statement to claim"
    session.goOn
  else
    match session.adviser with
    | none =>
      tell "Note: No LLM evaluator available, treating as regular assertion"
      assertCommand session text
    | some adviser =>
      match claimedFormula text with
      | .error message =>
        tell message
        session.goOn
      | .ok (formulaText, formula) =>
        if formula.isAtomic then claimByAdvice session adviser text formulaText formula
        else
          tell "Note: Compound formula cannot be verified with LLM, asserting as true"
          assertCommand session text

/-! ## Evaluation -/

/-- What evidence on a formula means. -/
def interpretationLines (formula : String) : Evidence -> List String
  | ⟨.t, .f⟩ => ["\nInterpretation: " ++ formula ++ " is TRUE",
      "  The LLM has positive evidence for this statement"]
  | ⟨.f, .t⟩ => ["\nInterpretation: " ++ formula ++ " is FALSE",
      "  The LLM has negative evidence for this statement"]
  | ⟨.e, .e⟩ => ["\nInterpretation: " ++ formula ++ " is UNDEFINED",
      "  The LLM has no knowledge about this statement"]
  | ⟨.t, .t⟩ => ["\nInterpretation: " ++ formula ++ " is a GLUT",
      "  The LLM has conflicting evidence (both true and false)"]
  | ⟨.f, .f⟩ => ["\nInterpretation: " ++ formula ++ " is a GAP",
      "  The LLM knows this is neither true nor false"]
  | _ => ["\nInterpretation: Complex state"]

def writtenDenial (formula : Formula) : String :=
  match formula.predicateName?, formula.arguments? with
  | some name, some args => (Formula.sided name args true).text
  | _, _ => "~" ++ formula.text

/-- Store the outcome of an evaluation as evidence. -/
def storeEvaluation (session : Session) (adviser : Adviser) (sentence formula : String) :
    Action := do
  let draft : Draft := {
    origin := .evidence
    sentence := .string sentence
    formula := formula
    sign := "t"
    metadata := [
      ("source", .string "llm_evaluation"),
      ("evaluation_type", .string "direct_query")] }
  let (theory, outcome) := session.theory.addSigned session.now adviser draft
  match outcome with
  | .ok statement => tell ("\n✓ Added to theory as " ++ statement.id.shown)
  | .error fault => tell ("Error during evaluation: " ++ fault.message)
  (session.withTheory theory).goOn

/-- Store the outcome of an evaluation, if it is definite. -/
def assertEvaluation (session : Session) (adviser : Adviser) (formula : Formula) :
    Evidence -> Action
  | ⟨.t, .f⟩ =>
    storeEvaluation session adviser ("LLM evaluation: " ++ formula.text ++ " is true") formula.text
  | ⟨.f, .t⟩ =>
    storeEvaluation session adviser ("LLM evaluation: " ++ formula.text ++ " is false")
      (writtenDenial formula)
  | ⟨.e, .e⟩ => do
      tell "\n⚠ Cannot assert: LLM has no knowledge about this statement"
      session.goOn
  | _ => do
      tell "\n⚠ Cannot assert: LLM evaluation is not definite (glut or gap)"
      session.goOn

/-- Show both sides of evidence on a formula, and what they mean. -/
def showEvidence (formula : String) (evidence : Evidence) : Dialogue Unit := do
  tell "\nLLM Evaluation:"
  tell ("  Positive evidence (P is true): " ++ evidence.positive.letter)
  tell ("  Negative evidence (P is false): " ++ evidence.negative.letter)
  tellAll (interpretationLines formula evidence)

def evaluateFormula (session : Session) (assert : Bool) (formula : Formula) : Action := do
  tell ("\nEvaluating: " ++ formula.text)
  match modelLine session.adviser with
  | .error fault => session.fail fault
  | .ok lines =>
    tellAll lines
    match session.adviser with
    | none =>
      tell "Result: No evaluation available"
      session.goOn
    | some adviser =>
      match adviser.evaluator formula with
      | .silent =>
        tell "Result: No evaluation available"
        session.goOn
      | .failure message =>
        tell ("Error during evaluation: " ++ message)
        session.goOn
      | .evidence evidence =>
        showEvidence formula.text evidence
        if assert then assertEvaluation session adviser formula evidence else session.goOn

/-- The formula to evaluate, and whether to store the outcome. -/
def evaluateArguments (text : String) : String × Bool :=
  let option := "--assert".toList
  let chars := Text.trim text.toList
  if Text.occursIn option chars then
    (String.ofList (Text.trim (Text.replaceAll option [] chars)), true)
  else (String.ofList chars, false)

def evaluateCommand (session : Session) (text : String) : Action := do
  if text.isEmpty then
    tell "Error: Please provide a formula to evaluate"
    session.goOn
  else if session.provider.isNone then
    tell "Error: No LLM provider configured. Use 'llm <provider>' first"
    session.goOn
  else
    let (formulaText, assert) := evaluateArguments text
    match Formula.parseSided .transparent formulaText with
    | .error fault =>
      tell ("Error parsing formula: " ++ fault.message)
      session.goOn
    | .ok formula =>
      if formula.isAtomic then evaluateFormula session assert formula
      else
        tell "Error: Only atomic formulas can be evaluated by LLM"
        tell "       Atomic formulas are predicates like P(x) or propositional atoms"
        session.goOn

/-! ## Choosing a model -/

def providerLines (session : Session) : List String :=
  match session.provider with
  | none => ["No LLM provider set", "Use: llm <provider> [api_key]"]
  | some provider =>
    ("Current LLM provider: " ++ provider) :: (if session.hasKey provider then
        ((Session.keyName? provider).map fun name => "  Using API key from " ++ name).toList
      else [])

/-- All providers, and those that there are keys to. -/
def providerList (session : Session) : List String :=
  let line := fun provider text => if session.hasKey provider then [text] else []
  ["Available LLM providers:", "  - openai     : OpenAI GPT models",
    "  - anthropic  : Anthropic Claude models",
    "  - openrouter : Access to various models via OpenRouter",
    "  - mock       : Mock evaluator for testing"] ++
  line "openai" "\n✓ OpenAI API key found in environment" ++
  line "anthropic" "✓ Anthropic API key found in environment" ++
  line "openrouter" "✓ OpenRouter API key found in environment"

def looksLikeKey (word : String) : Bool :=
  ["sk-", "claude-", "key-"].any fun start => start.toList.isPrefixOf word.toList

def modelAndKey : List String -> Option String × Option String
  | [] => (none, none)
  | first :: rest => if looksLikeKey first then (none, some first) else (some first, rest.head?)

/-- The consultant as an adviser that tells its provider and model. -/
def adviserOf (consultant : Consultant) : Adviser where
  evaluator := consultant.evaluator
  info := some (.record [
    ("provider", .string consultant.info.provider),
    ("model", .string consultant.info.model)])

/-- Reach a provider's model and take it as the adviser. -/
def chooseProvider (session : Session) (provider : String) (model key : Option String) :
    Action := do
  match Consultant.connect? session.service provider model with
  | some consultant =>
    tell ("✓ LLM evaluator enabled: " ++ provider)
    tell ("  Model: " ++ consultant.info.model)
    if provider != "mock" then
      if key.isSome then tell "  Using provided API key"
      else if session.hasKey provider then tell "  Using API key from environment"
    { session with adviser := some (adviserOf consultant), provider := some provider }.goOn
  | none =>
    tell ("Error: Could not create LLM evaluator for " ++ provider)
    if !session.hasKey provider then
      tellAll ((Session.keyName? provider).map fun name =>
        "  No " ++ name ++ " found. Provide with: llm " ++ provider ++ " <api_key>").toList
    session.goOn

/-- Show or choose the provider of language models. -/
def llmCommand (session : Session) (text : String) : Action := do
  match (Text.words text.toList).map String.ofList with
  | [] =>
    tellAll (providerLines session)
    session.goOn
  | first :: rest =>
    let provider := lowered first
    let (model, key) := modelAndKey rest
    if provider == "status" then
      tellAll (providerLines session)
      session.goOn
    else if provider == "list" then
      tellAll (providerList session)
      session.goOn
    else if ["openai", "anthropic", "openrouter", "mock"].contains provider then
      match key, Session.keyName? provider with
      | some key, some name =>
        if key.toList.contains '\x00' then session.fail .nullInText
        else
          tell ("✓ Set " ++ name)
          chooseProvider { session with keys := name :: session.keys } provider model (some key)
      | _, _ => chooseProvider session provider model key
    else
      tell ("Error: Unknown provider '" ++ provider ++ "'")
      tell "Available providers: openai, anthropic, openrouter, mock"
      session.goOn

end Shell
end WeakKleene
