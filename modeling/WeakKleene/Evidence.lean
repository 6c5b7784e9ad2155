import WeakKleene.Truth

namespace WeakKleene

/-!
Evidence about one atomic statement, for and against, each with its own truth
value.  The two sides are independent: there may be evidence on neither side
(a gap) or on both (a glut).
-/

/-- The truth value of a statement beside the truth value of its denial. -/
structure Evidence where
  positive : Truth
  negative : Truth
deriving DecidableEq, Repr

namespace Evidence

def consistent (evidence : Evidence) : Bool := !(evidence.positive == .t && evidence.negative == .t)

def gap (evidence : Evidence) : Bool := evidence.positive == .f && evidence.negative == .f

def glut (evidence : Evidence) : Bool := evidence.positive == .t && evidence.negative == .t

/-- Evidence on exactly one side, and none on the other. -/
def determinate (evidence : Evidence) : Bool :=
  (evidence.positive == .t && evidence.negative == .f) ||
    (evidence.positive == .f && evidence.negative == .t)

def summary : Evidence -> String
  | ⟨.t, .f⟩ => "true"
  | ⟨.f, .t⟩ => "false"
  | ⟨.f, .f⟩ => "undefined (gap)"
  | ⟨.t, .t⟩ => "both (glut)"
  | _ => "undefined"

/-- The same evidence seen from the denial's side. -/
def swap (evidence : Evidence) : Evidence := ⟨evidence.negative, evidence.positive⟩

def describe (evidence : Evidence) : String :=
  "BilateralTruthValue(pos=" ++ evidence.positive.letter ++ ", neg=" ++
    evidence.negative.letter ++ ")"

end Evidence
end WeakKleene
