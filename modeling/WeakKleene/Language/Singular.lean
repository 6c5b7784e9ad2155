import WeakKleene.Text.Case

namespace WeakKleene
namespace Language

/-!
From plural to singular, by the endings of English nouns.
-/

/-- Plurals that the endings do not decide. -/
def irregular? (word : List Char) : Option String :=
  match String.ofList (Text.lower word) with
  | "analyses" => some "analysis"
  | "indices" => some "index"
  | "vertices" => some "vertex"
  | _ => none

/-- Whether a stem forms its plural with "es". -/
def takesEs (reversedStem : List Char) : Bool :=
  match reversedStem with
  | 's' :: _ | 'x' :: _ | 'z' :: _ => true
  | 'h' :: 'c' :: _ | 'h' :: 's' :: _ => true
  | _ => false

/-- The singular of a noun by its ending, read from the end. -/
def singularReversed : List Char -> List Char
  | 's' :: 'e' :: 'i' :: c :: rest => 'y' :: c :: rest
  | 's' :: 'e' :: c :: rest => if takesEs (c :: rest) then c :: rest else 'e' :: c :: rest
  | 's' :: 's' :: rest => 's' :: 's' :: rest
  | 's' :: c :: rest => c :: rest
  | word => word

def singular (word : List Char) : List Char :=
  match irregular? word with
  | some noun => noun.toList
  | none => (singularReversed word.reverse).reverse

end Language
end WeakKleene
