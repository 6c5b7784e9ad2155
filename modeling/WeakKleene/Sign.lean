import WeakKleene.Formula.Substitution
import WeakKleene.Text.Case

namespace WeakKleene

/-!
Signs, and formulas under a sign.

The definite signs t, f and e name one truth value each.  The sign m stands for
"t or f", n for "f or e", and v for any of the three.
-/

inductive Sign where
  | t
  | f
  | e
  | m
  | n
  | v
deriving DecidableEq, Repr

namespace Sign

def letter : Sign -> String
  | t => "t"
  | f => "f"
  | e => "e"
  | m => "m"
  | n => "n"
  | v => "v"

def describe (sign : Sign) : String := "Sign(" ++ sign.letter ++ ")"

def all : List Sign := [t, f, e, m, n, v]

def ofLetter? (letter : String) : Option Sign := all.find? (fun sign => sign.letter == letter)

def parse (text : String) : Except Fault Sign :=
  match ofLetter? (lowered text) with
  | some sign => .ok sign
  | none => .error (.invalidSign (lowered text))

def ofSymbol (symbol : String) : Except Fault Sign :=
  match ofLetter? symbol with
  | some sign => .ok sign
  | none => .error (.unknownSign symbol)

/-- The truth values that a sign stands for, in the order e, f, t. -/
def truths : Sign -> List Truth
  | t => [.t]
  | f => [.f]
  | e => [.e]
  | m => [.f, .t]
  | n => [.e, .f]
  | v => [.e, .f, .t]

/-- Whether a sign names a single truth value. -/
def definite : Sign -> Bool
  | t | f | e => true
  | m | n | v => false

/-- Two definite signs exclude each other unless they are the same. -/
def contradicts (sign other : Sign) : Bool := sign.definite && other.definite && sign != other

/-- The definite sign of a truth value. -/
def ofTruth : Truth -> Sign
  | .t => t
  | .f => f
  | .e => e

end Sign

structure Signed where
  sign : Sign
  formula : Formula

namespace Signed

def text (signed : Signed) : String := signed.sign.letter ++ ": " ++ signed.formula.text

def print (signed : Signed) : Except Fault String := do
  return signed.sign.letter ++ ": " ++ (<- signed.formula.print)

/-- The signed formula in diagnostic output, or why it cannot be written. -/
def describe (signed : Signed) : Except Fault String := do
  return "SignedFormula(" ++ signed.sign.letter ++ ", " ++ (<- signed.formula.print) ++ ")"

end Signed
end WeakKleene
