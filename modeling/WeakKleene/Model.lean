import WeakKleene.Formula.Substitution

namespace WeakKleene

/-!
Models: truth values for ground atoms.
-/

/-- Truth values of ground atoms in ascending order of the atoms, and formulas that are known of
named individuals. -/
structure Model where
  valuations : List (String × Truth)
  constants : List (String × List Formula)

namespace Model

def valuationText (model : Model) : String :=
  String.intercalate ", " (model.valuations.map fun (atom, value) => atom ++ "=" ++ value.letter)

def constantText (model : Model) : String :=
  String.intercalate "; " (model.constants.map fun (name, formulas) =>
    name ++ ": " ++ String.intercalate ", " (formulas.map Formula.text))

def text (model : Model) : String :=
  if model.constants.isEmpty then "\x7b" ++ model.valuationText ++ "\x7d"
  else
    "\x7bvaluations: \x7b" ++ model.valuationText ++ "\x7d, constants: \x7b" ++
      model.constantText ++ "\x7d\x7d"

/-- The written form, or why there is none. -/
def print (model : Model) : Except Fault String := do
  let _ <- (model.constants.flatMap Prod.snd).mapM Formula.print
  return model.text

end Model
end WeakKleene
