import WeakKleene.Interpretation
import WeakKleene.Proofs.Denial

namespace WeakKleene

/-!
# Bilateral forms under settled evidence

An interpretation keeps evidence for a predicate apart from evidence against it.
A negated predicate is evaluated by the evidence for it, and its bilateral form,
the denial, by the evidence against it, so in general the form of a formula has
another value than the formula.

Evidence is settled where the two sides are negations of each other, undefined
evidence against undefined evidence included.  Under settled evidence a denial
has the value of the negation, and pushing negations inwards changes no value.
-/

namespace Interpretation

open Formula

variable {interpretation : Interpretation} {formula : Formula}

/-- An atom, or a plain predicate without a star, on which the evidence against it is the negation
of the evidence for it. -/
inductive Settled (interpretation : Interpretation) : Formula -> Prop where
  | atom (name : String) : Settled interpretation (.atom name)
  | pred (name : String) (args : List Term) (unstarred : '*' ∉ name.toList)
      (opposite : (interpretation.evidenceOn name (args.map Term.name)).negative =
        (interpretation.evidenceOn name (args.map Term.name)).positive.neg) :
      Settled interpretation (.pred name args)

/-- Whether a name ends in a star is a matter of its last character. -/
theorem unstarred?_eq_none {name : String} (unstarred : '*' ∉ name.toList) :
    unstarred? name = none := by
  rw [unstarred?]
  split
  · next rest last =>
    refine absurd (List.mem_reverse.mp ?_) unstarred
    rw [last]
    exact List.mem_cons_self
  · rfl

/-- The value of a formula, and of its form or of the form of its negation. -/
def Valued (interpretation : Interpretation) (formula : Formula) (value : Truth) : Prop :=
  interpretation.eval formula = .ok value ∧
    interpretation.eval (formula.sideForm false) = .ok value ∧
    interpretation.eval (formula.sideForm true) = .ok value.neg

theorem Settled.valued (settled : interpretation.Settled formula) :
    ∃ value, interpretation.Valued formula value := by
  cases settled with
  | atom name => exact ⟨_, rfl, rfl, rfl⟩
  | pred name args unstarred opposite =>
    have plain : interpretation.eval (.pred name args) =
        .ok (interpretation.evidenceOn name (args.map Term.name)).positive := by
      rw [eval, predicateValue, unstarred?_eq_none unstarred]
    exact ⟨_, plain, plain, congrArg Except.ok opposite⟩

theorem Valued.neg {value : Truth} (valued : interpretation.Valued formula value) :
    interpretation.Valued (.neg formula) value.neg := by
  rcases valued with ⟨atFormula, atForm, atDenial⟩
  have twice : value.neg.neg = value := by cases value <;> rfl
  refine ⟨?_, atDenial, ?_⟩
  · rw [eval, atFormula]
    rfl
  · rw [twice]
    exact atForm

/-- The value of a connective from those of what it joins. -/
theorem eval_join {connective : Connective} {left right : Formula} {leftValue rightValue : Truth}
    (atLeft : interpretation.eval left = .ok leftValue)
    (atRight : interpretation.eval right = .ok rightValue) :
    interpretation.eval (.join connective left right) =
      .ok (connective.eval leftValue rightValue) := by
  rw [eval, atLeft, atRight]
  rfl

theorem Valued.join {left right : Formula} {leftValue rightValue : Truth}
    (connective : Connective) (atLeft : interpretation.Valued left leftValue)
    (atRight : interpretation.Valued right rightValue) :
    interpretation.Valued (.join connective left right)
      (connective.eval leftValue rightValue) := by
  refine ⟨eval_join atLeft.1 atRight.1, eval_join atLeft.2.1 atRight.2.1, ?_⟩
  -- The three laws of duality, undefined values included.
  cases connective with
  | conj | disj =>
    refine (eval_join atLeft.2.2 atRight.2.2).trans (congrArg Except.ok ?_)
    cases leftValue <;> cases rightValue <;> rfl
  | imp =>
    refine (eval_join atLeft.2.1 atRight.2.2).trans (congrArg Except.ok ?_)
    cases leftValue <;> cases rightValue <;> rfl

/-- By induction on the formula, together with its form and the form of its negation. -/
theorem exists_valued (settled : BuiltFrom interpretation.Settled formula) :
    ∃ value, interpretation.Valued formula value := by
  induction settled with
  | basic given => exact given.valued
  | neg inner ih =>
    rcases ih with ⟨value, valued⟩
    exact ⟨_, valued.neg⟩
  | join connective first second atFirst atSecond =>
    rcases atFirst with ⟨leftValue, atLeft⟩
    rcases atSecond with ⟨rightValue, atRight⟩
    exact ⟨_, atLeft.join connective atRight⟩

/-- Under settled evidence a formula without quantifiers and its bilateral form have a value, and
it is the same one. -/
theorem eval_bilateralForm_of_settled (interpretation : Interpretation) (formula : Formula)
    (settled : BuiltFrom interpretation.Settled formula) :
    ∃ form value, formula.bilateralForm = .ok form ∧
      interpretation.eval form = .ok value ∧ interpretation.eval formula = .ok value := by
  have free : formula.QuantifierFree := settled.mono fun _ basic => by cases basic <;> rfl
  rcases exists_valued settled with ⟨value, atFormula, atForm, _⟩
  exact ⟨_, value, (bilateralForm_eq free).1, atForm, atFormula⟩

/-- A denied implication is evaluated by evidence for both of its sides, and its form by evidence
for the one and against the other. -/
theorem eval_form_of_denied_implication :
    ∃ form value, (neg (.join .imp (.atom "p") (.pred "Q" [.const "a"]))).bilateralForm =
        .ok form ∧
      form = .join .conj (.atom "p") (.sided "Q" [.const "a"] true) ∧
      eval ⟨[("p", .t)], [(("Q", ["a"]), ⟨.f, .t⟩)], ["a"]⟩ form = .ok value ∧
      eval ⟨[("p", .t)], [(("Q", ["a"]), ⟨.f, .t⟩)], ["a"]⟩
        (neg (.join .imp (.atom "p") (.pred "Q" [.const "a"]))) = .ok value ∧ value = .t := by
  rcases eval_bilateralForm_of_settled ⟨[("p", .t)], [(("Q", ["a"]), ⟨.f, .t⟩)], ["a"]⟩
    (neg (.join .imp (.atom "p") (.pred "Q" [.const "a"])))
    (.neg (.join .imp (.basic (.atom "p")) (.basic (.pred "Q" _ (by decide) rfl)))) with
    ⟨form, value, formed, atForm, atFormula⟩
  refine ⟨form, value, formed, ?_, atForm, atFormula, Except.ok.inj (atFormula.symm.trans rfl)⟩
  cases formed
  rfl

end Interpretation
end WeakKleene
