import WeakKleene.Grammar.Token
import WeakKleene.Text.Case

namespace WeakKleene
namespace Grammar

/-!
Reading plain formulas.

Arrows group to the right, the other connectives to the left, and bind in the
order arrow, disjunction, conjunction, negation.  An opening parenthesis after
a complete disjunct continues the disjunction, and any other token that stands
where a formula should start is read as an atom of that name.  What a
quantifier governs is the next atomic formula.

Whether an argument is a variable depends on what was read before: upper-case
names are variables, and so is every name that already occurred as one.
-/

/-- The names met so far, in ascending order. -/
structure Vocabulary where
  variableNames : List String := []
  constantNames : List String := []
deriving DecidableEq, Repr

namespace Vocabulary

def addVariable (name : String) (vocabulary : Vocabulary) : Vocabulary :=
  { vocabulary with variableNames := Sorted.insert name vocabulary.variableNames }

def addConstant (name : String) (vocabulary : Vocabulary) : Vocabulary :=
  { vocabulary with constantNames := Sorted.insert name vocabulary.constantNames }

/-- Whether a name is a variable, given what was read before. -/
def isVariable (vocabulary : Vocabulary) (name : List Char) : Bool :=
  Text.isUpper name || vocabulary.variableNames.contains (String.ofList name)

end Vocabulary

/-- Reading keeps the vocabulary, also when it fails. -/
abbrev Reading := ExceptT ParseError (StateM Vocabulary)

/-- What was read off the front of a list of tokens, and the tokens after it. -/
structure Taken (tokens : List Token) where
  formula : Formula
  rest : List Token
  shorter : rest.length < tokens.length

/-- As `Taken`, when possibly nothing was read. -/
structure Extended (tokens : List Token) where
  formula : Formula
  rest : List Token
  notLonger : rest.length <= tokens.length

def commaPieces (text : List Char) : List (List Char) := text.splitOn ','

def readArgument (name : List Char) : Reading Term := do
  let vocabulary <- get
  let text := String.ofList name
  if vocabulary.isVariable name then
    set (vocabulary.addVariable text)
    return .var text
  else
    set (vocabulary.addConstant text)
    return .const text

def readArguments (args : List Char) : Reading (List Term) :=
  if args.isEmpty then return []
  else (commaPieces args).mapM fun piece => readArgument (Text.trim piece)

section Descent

/- How a quantifier's restriction is read, given the vocabulary at its place. -/
variable (restriction : List Char -> Vocabulary -> Except ParseError Formula)

mutual

/-- Arrows group to the right. -/
def readImplication (tokens : List Token) : Reading (Taken tokens) := do
  let left <- readDisjunction tokens
  have := left.shorter
  match found : left.rest with
  | .mark .implies _ :: rest => do
      have : rest.length < tokens.length := by
        simp only [found, List.length_cons] at this; omega
      let right <- readImplication rest
      return ⟨.join .imp left.formula right.formula, right.rest, Nat.lt_trans right.shorter this⟩
  | rest => return ⟨left.formula, rest, by rw [<- found]; exact this⟩
termination_by 8 * tokens.length + 6

def readDisjunction (tokens : List Token) : Reading (Taken tokens) := do
  let first <- readConjunction tokens
  have := first.shorter
  let all <- extendDisjunction first.formula first.rest
  return ⟨all.formula, all.rest, Nat.lt_of_le_of_lt all.notLonger first.shorter⟩
termination_by 8 * tokens.length + 5

/-- The further disjuncts after a first one. -/
def extendDisjunction (left : Formula) (tokens : List Token) : Reading (Extended tokens) :=
  match tokens with
  | .mark .or _ :: rest | .mark .openParen _ :: rest => do
      let next <- readConjunction rest
      have := next.shorter
      let all <- extendDisjunction (.join .disj left next.formula) next.rest
      return ⟨all.formula, all.rest,
        Nat.le_succ_of_le (Nat.le_trans all.notLonger (Nat.le_of_lt next.shorter))⟩
  | tokens => return ⟨left, tokens, Nat.le_refl _⟩
termination_by 8 * tokens.length + 7

def readConjunction (tokens : List Token) : Reading (Taken tokens) := do
  let first <- readNegation tokens
  have := first.shorter
  let all <- extendConjunction first.formula first.rest
  return ⟨all.formula, all.rest, Nat.lt_of_le_of_lt all.notLonger first.shorter⟩
termination_by 8 * tokens.length + 4

/-- The further conjuncts after a first one. -/
def extendConjunction (left : Formula) (tokens : List Token) : Reading (Extended tokens) :=
  match tokens with
  | .mark .and _ :: rest => do
      let next <- readNegation rest
      have := next.shorter
      let all <- extendConjunction (.join .conj left next.formula) next.rest
      return ⟨all.formula, all.rest,
        Nat.le_succ_of_le (Nat.le_trans all.notLonger (Nat.le_of_lt next.shorter))⟩
  | tokens => return ⟨left, tokens, Nat.le_refl _⟩
termination_by 8 * tokens.length + 7

def readNegation (tokens : List Token) : Reading (Taken tokens) :=
  match tokens with
  | .mark .not _ :: rest => do
      let body <- readNegation rest
      return ⟨.neg body.formula, body.rest, Nat.lt_succ_of_lt body.shorter⟩
  | tokens => readAtomic tokens
termination_by 8 * tokens.length + 3

/-- An atom, a predicate, a quantified formula, or a formula in parentheses. -/
def readAtomic (tokens : List Token) : Reading (Taken tokens) :=
  match tokens with
  | [] => throw .expectedFormula
  | .mark .openParen _ :: rest => do
      let inside <- readImplication rest
      have := inside.shorter
      match found : inside.rest with
      | [] => throw .unexpectedEnd
      | .mark .closeParen _ :: rest =>
        return ⟨inside.formula, rest, by
          simp only [found, List.length_cons] at this ⊢; omega⟩
      | _ :: _ => throw .unclosedParenthesis
  | .quantifier quantifier var scope _ :: rest => do
      let name := String.ofList var
      modify (Vocabulary.addVariable name)
      let condition <- liftExcept (restriction scope (<- get))
      let matrix <- readAtomic rest
      return ⟨.quant quantifier name condition matrix.formula, matrix.rest,
        Nat.lt_succ_of_lt matrix.shorter⟩
  | .applied name args :: rest => do
      let terms <- readArguments args
      return ⟨.pred (String.ofList name) terms, rest, Nat.lt_succ_self _⟩
  | token :: rest => return ⟨.atom token.text, rest, Nat.lt_succ_self _⟩
termination_by 8 * tokens.length + 2

end

def readWhole (text : List Char) : Reading Formula := do
  let tokens <- liftExcept (scan .plain text)
  if tokens.isEmpty then throw .emptyFormula
  let whole <- readImplication restriction tokens
  match whole.rest with
  | [] => return whole.formula
  | token :: _ => throw (.unexpectedToken token.text)

end Descent

/-- A restriction is a formula by itself.  It holds no closing bracket, hence no quantifier, and
the names that it adds to the vocabulary are forgotten. -/
def readRestriction (text : List Char) (vocabulary : Vocabulary) : Except ParseError Formula :=
  ((readWhole (fun _ _ => .error .expectedFormula) text).run vocabulary).1

def readFormula (text : List Char) : Reading Formula := readWhole readRestriction text

end Grammar
end WeakKleene
