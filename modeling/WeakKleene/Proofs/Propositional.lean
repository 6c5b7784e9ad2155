import WeakKleene.Proofs.Readability
import WeakKleene.Text.Word

namespace WeakKleene
namespace Formula

/-!
# The propositional fragment

Atoms with plain names, and what is built from them by negation and the joining
connectives.  A plain name contains none of the signs that separate parts, so a
formula of the fragment can be read back from what is written: formulas that are
written alike are the same.
-/

/-- A name without blanks, parentheses and negation signs. -/
def PlainName (name : String) : Prop :=
  forall c, c ∈ name.toList -> c ≠ ' ' ∧ c ≠ '(' ∧ c ≠ ')' ∧ c ≠ '~'

instance (name : String) : Decidable (PlainName name) :=
  List.decidableBAll (fun c => c ≠ ' ' ∧ c ≠ '(' ∧ c ≠ ')' ∧ c ≠ '~') name.toList

inductive PlainAtom : Formula -> Prop where
  | named {name : String} (plain : PlainName name) : PlainAtom (.atom name)

/-- A formula of propositional logic whose atoms have plain names. -/
abbrev Propositional : Formula -> Prop := BuiltFrom PlainAtom

def isPropositional : Formula -> Bool
  | atom name => decide (PlainName name)
  | neg body => body.isPropositional
  | join _ left right => left.isPropositional && right.isPropositional
  | pred .. | bilateral .. | quant .. | irregular .. => false

theorem isPropositional_iff (formula : Formula) :
    formula.isPropositional = true ↔ formula.Propositional := by
  constructor
  · intro tested
    fun_induction isPropositional formula with
    | case1 name => exact .basic (.named (of_decide_eq_true tested))
    | case2 body ih => exact .neg (ih tested)
    | case3 connective left right atLeft atRight =>
      rw [Bool.and_eq_true] at tested
      exact .join connective (atLeft tested.1) (atRight tested.2)
    | case4 | case5 | case6 | case7 => cases tested
  · intro shape
    induction shape with
    | basic given =>
      cases given with
      | named plain => exact decide_eq_true plain
    | neg inner ih => exact ih
    | join connective first second atFirst atSecond =>
      rw [isPropositional, atFirst, atSecond, Bool.and_true]

instance (formula : Formula) : Decidable formula.Propositional :=
  decidable_of_iff _ formula.isPropositional_iff

/-! ## Unique readability -/

theorem PlainAtom.distinct {formula : Formula} (plain : PlainAtom formula) : Distinct formula := by
  cases plain with
  | @named name plain =>
    refine ⟨rfl, legible_name ?_⟩
    intro c member
    have excluded := plain c member
    simp [excluded]

/-- Propositional formulas of the same structure are the same formula: an atom is written as its
name. -/
theorem Alike.eq {formula other : Formula} (alike : Alike formula other)
    (shape : formula.Propositional) (shape' : other.Propositional) : formula = other := by
  induction alike with
  | basic atomic atomic' same =>
    cases shape with
    | basic given =>
      cases shape' with
      | basic given' =>
        cases given
        cases given'
        exact congrArg atom same
      | neg inner => cases atomic'
      | join connective first second => cases atomic'
    | neg inner => cases atomic
    | join connective first second => cases atomic
  | neg inner ih =>
    cases shape with
    | basic given => cases given
    | neg shape =>
      cases shape' with
      | basic given => cases given
      | neg shape' => rw [ih shape shape']
  | join connective first second atFirst atSecond =>
    cases shape with
    | basic given => cases given
    | join _ left right =>
      cases shape' with
      | basic given => cases given
      | join _ left' right' => rw [atFirst left left', atSecond right right']

theorem text_injective {formula other : Formula} (shape : formula.Propositional)
    (shape' : other.Propositional) (same : formula.text = other.text) : formula = other := by
  have distinct : forall basic, PlainAtom basic -> Distinct basic := fun _ plain => plain.distinct
  exact (alike_of_text_eq (shape.mono distinct) (shape'.mono distinct) same).eq shape shape'

end Formula
end WeakKleene
