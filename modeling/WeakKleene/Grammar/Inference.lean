import WeakKleene.Formula.Substitution
import WeakKleene.Grammar.Starred

namespace WeakKleene

/-!
Inferences: premises, a turnstile, and a conclusion.
-/

structure Inference where
  premises : List Formula
  conclusion : Formula

namespace Inference

def joined : Formula -> List Formula -> Formula
  | first, [] => first
  | first, next :: rest => joined (.join .conj first next) rest

/-- The premises together with the denial of the conclusion. -/
def refutation (inference : Inference) : Formula :=
  match inference.premises with
  | [] => .neg inference.conclusion
  | first :: rest => .join .conj (joined first rest) (.neg inference.conclusion)

def text (inference : Inference) : String :=
  String.intercalate ", " (inference.premises.map Formula.text) ++ " |- " ++
    inference.conclusion.text

end Inference

namespace Grammar

/-- How far inside brackets a character leads. -/
def depthAfter (depth : Int) (c : Char) : Int :=
  if c == '(' || c == '[' then depth + 1
  else if c == ')' || c == ']' then depth - 1
  else depth

/-- Cut a text at the commas outside all brackets, given the depth of brackets and, backwards,
the current piece.  Nothing after the last comma makes no piece. -/
def topLevelPiecesFrom (depth : Int) (piece : List Char) : List Char -> List (List Char)
  | [] => if piece.isEmpty then [] else [piece.reverse]
  | c :: rest =>
    if c == ',' && depth == 0 then piece.reverse :: topLevelPiecesFrom depth [] rest
    else topLevelPiecesFrom (depthAfter depth c) (c :: piece) rest

def topLevelPieces (text : List Char) : List (List Char) := topLevelPiecesFrom 0 [] text

/-- Cut a text at every turnstile, given the current piece backwards. -/
def turnstilePiecesFrom (piece : List Char) : List Char -> List (List Char)
  | [] => [piece.reverse]
  | '|' :: '-' :: rest => piece.reverse :: turnstilePiecesFrom [] rest
  | c :: rest => turnstilePiecesFrom (c :: piece) rest

def turnstilePieces (text : List Char) : List (List Char) := turnstilePiecesFrom [] text

def hasTurnstile (text : List Char) : Bool := (turnstilePieces text).length != 1

/-- An inference, whose formulas share one vocabulary from left to right. -/
def readInference (text : List Char) : Reading Inference :=
  match turnstilePieces text with
  | [front, back] => do
      let premises <- (topLevelPieces (Text.trim front)).mapM fun piece =>
        readFormula (Text.trim piece)
      let conclusion <- readFormula (Text.trim back)
      return ⟨premises, conclusion⟩
  | _ => throw (.invalidInference (String.ofList text))

inductive Sentence where
  | formula (formula : Formula)
  | inference (inference : Inference)

/-- Whichever of the two a text is written as. -/
def readSentence (text : List Char) : Reading Sentence :=
  if hasTurnstile text then return .inference (<- readInference text)
  else return .formula (<- readFormula text)

end Grammar

open Grammar

def Formula.parse (text : String) : Except Fault Formula :=
  match ((readSentence text.toList).run {}).1 with
  | .ok (.formula formula) => .ok formula
  | .ok (.inference _) => .error (.parse .inferenceGiven)
  | .error error => .error (.parse error)

def Formula.parseSided (mode : Mode) (text : String) : Except Fault Formula :=
  readSided mode text.toList

/-- Read a plain formula and, where negation is the only way of denial, make its predicates
outside of quantifiers bilateral. -/
def Formula.parseThenSide (mode : Mode) (text : String) : Except Fault Formula := do
  let formula <- Formula.parse text
  match mode with
  | .transparent => return sideOutside formula
  | _ => return formula

def Inference.parse (text : String) : Except Fault Inference :=
  match ((readSentence text.toList).run {}).1 with
  | .ok (.inference inference) => .ok inference
  | .ok (.formula _) => .error (.parse .formulaGiven)
  | .error error => .error (.parse error)

end WeakKleene
