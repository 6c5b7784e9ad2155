import WeakKleene.Proofs.ChosenRules

namespace WeakKleene

/-!
# One negation at a time, and all at once

A rule of the bilateral calculus pushes a negation past the outermost structure
of what it negates, under the same sign.  A branch closes by bilateral forms, in
which all negations are pushed as far as they go.  The conclusion of the rule has
the very form that its premise has, faults included, so the one closes a branch
exactly where the other does.

There is one exception.  The rule takes the negation of a denied predicate back
to the predicate, and the form goes on to a denial of the denial.  The two are
written alike only if that second denial happens to be named like the predicate.
-/

namespace Formula

/-! ## Forms of negations -/

/-- What a negation negates, be it a regular one or not. -/
def negated? : Formula -> Option Formula
  | neg body => some body
  | irregular symbol parts => if symbol = "~" then parts.head? else none
  | _ => none

/-- A negation of a denied predicate whose denial in turn is not named like the predicate. -/
def DeniesDenial (formula : Formula) : Prop :=
  ∃ name args starName, formula.negated? = some (bilateral name args starName true) ∧
    starOf starName ≠ name

/-- A negation has the form of the denial of what it negates. -/
theorem bilateralForm_of_negated? {formula body : Formula} (found : formula.negated? = some body) :
    formula.bilateralForm = body.denialForm?.map fun denial => denial.getD formula := by
  cases formula with
  | neg inner =>
    cases found
    rw [bilateralForm]
    rfl
  | irregular symbol parts =>
    rw [negated?] at found
    split at found
    · next isNegation =>
      rcases List.head?_eq_some_iff.mp found with ⟨rest, rfl⟩
      rw [bilateralForm, if_pos isNegation]
      rfl
    · cases found
  | atom | pred | bilateral | join | quant => cases found

/-- The bilateral form as it is written, with the part of it that cannot be written. -/
def writtenForm (formula : Formula) : Except Fault (String × Option (String × Nat)) :=
  formula.bilateralForm.map fun form => (form.text, form.misshapen?)

/-- Two formulas have bilateral forms, both can be written, and they are written alike. -/
def Matches (left right : Formula) : Prop :=
  left.formFault? = none ∧ right.formFault? = none ∧ left.equivalent right = true

theorem formFault?_eq_none_iff {formula : Formula} :
    formula.formFault? = none ↔ ∃ text, formula.writtenForm = .ok (text, none) := by
  rw [formFault?, writtenForm]
  cases formula.bilateralForm with
  | error fault =>
    constructor
    · intro impossible
      cases impossible
    · rintro ⟨_, impossible⟩
      cases impossible
  | ok form =>
    rw [Option.map_eq_none_iff, Except.map]
    constructor
    · exact fun written => ⟨form.text, by rw [written]⟩
    · rintro ⟨text, same⟩
      exact congrArg Prod.snd (Except.ok.inj same)

/-- Equivalence is a matter of how forms are written. -/
theorem equivalent_iff {left right : Formula} : left.equivalent right = true ↔ ∃ text fault fault',
      left.writtenForm = .ok (text, fault) ∧ right.writtenForm = .ok (text, fault') := by
  rw [equivalent, writtenForm, writtenForm]
  cases left.bilateralForm with
  | error =>
    constructor
    · intro impossible
      cases impossible
    · rintro ⟨_, _, _, impossible, _⟩
      cases impossible
  | ok form =>
    cases right.bilateralForm with
    | error =>
      constructor
      · intro impossible
        cases impossible
      · rintro ⟨_, _, _, _, impossible⟩
        cases impossible
    | ok form' =>
      constructor
      · intro alike
        have same : form.text = form'.text := beq_iff_eq.mp alike
        exact ⟨form.text, form.misshapen?, form'.misshapen?, rfl, by rw [same]; rfl⟩
      · rintro ⟨text, _, _, written, written'⟩
        have first : form.text = text := congrArg Prod.fst (Except.ok.inj written)
        have second : form'.text = text := congrArg Prod.fst (Except.ok.inj written')
        exact beq_iff_eq.mpr (first.trans second.symm)

theorem matches_iff {left right : Formula} :
    left.Matches right ↔ left.formFault? = none ∧ right.writtenForm = left.writtenForm := by
  rw [Matches, formFault?_eq_none_iff, formFault?_eq_none_iff, equivalent_iff]
  constructor
  · rintro ⟨⟨text, written⟩, ⟨text', written'⟩, _, _, _, first, second⟩
    cases written.symm.trans first
    cases written'.symm.trans second
    exact ⟨⟨_, written⟩, written'.trans written.symm⟩
  · rintro ⟨⟨text, written⟩, same⟩
    have written' := same.trans written
    exact ⟨⟨text, written⟩, ⟨text, written'⟩, text, none, none, written, written'⟩

/-- Names of predicates can be read off what is written. -/
theorem application_inj {name other : String} {args : List Term} :
    application name args = application other args ↔ name = other := by
  rw [<- String.toList_inj, application_toList, application_toList, List.append_cancel_right_eq,
    String.toList_inj]

end Formula

namespace Bilateral

open Formula
open Tableau (Conflict exists_of_bind_eq_ok)

/-! ## What the rule concludes -/

/-- The rule applies to negations only, and pushes one negation. -/
theorem negationRule_eq_some {signed : Signed} {rule : Rule}
    (found : negationRule signed = .ok (some rule)) :
    ∃ body formula, signed.formula.negated? = some body ∧ Pushed body formula ∧
      rule.conclusions = [[⟨signed.sign, formula⟩]] := by
  rcases signed with ⟨sign, formula⟩
  cases formula with
  | atom | pred | bilateral | join | quant => cases found
  | neg body =>
    rcases pushNegation_eq_some found with ⟨formula, pushed, concluded⟩
    exact ⟨body, formula, rfl, pushed, concluded⟩
  | irregular symbol parts =>
    simp only [negationRule] at found
    split at found
    · next isNegation =>
      rcases exists_of_bind_eq_ok found with ⟨body, taken, ruled⟩
      rcases eq_of_firstPart taken with ⟨rest, rfl⟩
      rcases pushNegation_eq_some ruled with ⟨formula, pushed, concluded⟩
      exact ⟨body, formula, if_pos isNegation, pushed, concluded⟩
    · cases found

/-- What a negation is rewritten to has the form of the denial, except behind a denied predicate. -/
theorem Pushed.form {body formula : Formula} (pushed : Pushed body formula) :
    (∃ name args starName, body = .bilateral name args starName true ∧ formula = .pred name args) ∨
    ((forall name args starName, body ≠ .bilateral name args starName true) ∧
      body.denialForm? = formula.bilateralForm.map some) := by
  cases pushed with
  | denied name args starName => exact .inl ⟨name, args, starName, rfl, rfl⟩
  | neg inner | irregularNeg inner rest | pred | affirmed =>
    refine .inr ⟨fun _ _ _ impossible => (by cases impossible), ?_⟩
    rw [denialForm?]
    rfl
  | conj left right | disj left right | irregularConj left right | irregularDisj left right =>
    refine .inr ⟨fun _ _ _ impossible => (by cases impossible), ?_⟩
    rw [denialForm?, bilateralForm, bilateralForm, bilateralForm]
    cases left.denialForm? with
    | error => rfl
    | ok => cases right.denialForm? <;> rfl
  | all var restriction matrix | exist var restriction matrix =>
    refine .inr ⟨fun _ _ _ impossible => (by cases impossible), ?_⟩
    rw [denialForm?, bilateralForm, bilateralForm]
    cases restriction.bilateralForm with
    | error => rfl
    | ok => cases matrix.denialForm? <;> rfl

/-- A negation and what it is rewritten to have forms that are written alike, unless it denies a
denial. -/
theorem Pushed.writtenForm_eq_iff {negation body formula : Formula} (pushed : Pushed body formula)
    (negates : negation.negated? = some body) :
    formula.writtenForm = negation.writtenForm ↔ ¬ negation.DeniesDenial := by
  have form := bilateralForm_of_negated? negates
  rcases pushed.form with ⟨name, args, starName, rfl, rfl⟩ | ⟨undenied, same⟩
  · have whole : negation.writtenForm = .ok (application (starOf starName) args, none) := by
      rw [writtenForm, form, denialForm?]
      rfl
    have part : (Formula.pred name args).writtenForm = .ok (application name args, none) := by
      rw [writtenForm, bilateralForm]
      rfl
    rw [whole, part, Except.ok.injEq, Prod.mk.injEq, application_inj, DeniesDenial, negates]
    constructor
    · rintro ⟨alike, _⟩ ⟨_, _, _, denied, different⟩
      cases denied
      exact different alike.symm
    · intro agrees
      refine ⟨?_, rfl⟩
      by_contra different
      exact agrees ⟨name, args, starName, rfl, Ne.symm different⟩
  · have equal : negation.bilateralForm = formula.bilateralForm := by
      rw [form, same]
      cases formula.bilateralForm <;> rfl
    rw [writtenForm, writtenForm, equal]
    refine ⟨fun _ => ?_, fun _ => rfl⟩
    rintro ⟨name, args, starName, denied, _⟩
    rw [negates] at denied
    exact undenied name args starName (Option.some.inj denied)

/-! ## Rules and closure -/

/-- The rule for negations has one conclusion, with one formula under the sign of the premise.
The two formulas have bilateral forms that are written alike, if the form of the premise can be
written at all, except where a denied predicate is negated whose second denial is not named like
the predicate.  Everywhere else a branch closes by the one exactly where it closes by the other. -/
theorem negation_rule_keeps_form_iff (signed : Signed) (rule : Rule)
    (found : negationRule signed = .ok (some rule)) :
    ∃ formula, rule.conclusions = [[⟨signed.sign, formula⟩]] ∧ (signed.formula.Matches formula ↔
        signed.formula.formFault? = none ∧ ¬ signed.formula.DeniesDenial) ∧
      (¬ signed.formula.DeniesDenial -> forall evaluator other,
        Conflict (.bilateral evaluator) ⟨signed.sign, formula⟩ other ↔
          Conflict (.bilateral evaluator) signed other) := by
  rcases negationRule_eq_some found with ⟨body, formula, negates, pushed, concluded⟩
  have alike := pushed.writtenForm_eq_iff negates
  refine ⟨formula, concluded, matches_iff.trans (and_congr_right fun _ => alike), ?_⟩
  intro agrees evaluator other
  simp only [Conflict, equivalent_iff, alike.mpr agrees]

/-- A negated universal formula over a denied predicate becomes an existential one. -/
theorem negation_rule_keeps_form_universal :
    ∃ rule, negationRule ⟨.f, .neg (.quant .all "X" (.pred "P" [.var "X"])
        (.sided "Q" [.var "X", .const "a"] true))⟩ = .ok (some rule) ∧
      ∃ formula, rule.conclusions = [[⟨.f, formula⟩]] ∧
        (Formula.neg (.quant .all "X" (.pred "P" [.var "X"])
          (.sided "Q" [.var "X", .const "a"] true))).Matches formula := by
  refine ⟨_, rfl, ?_⟩
  rcases negation_rule_keeps_form_iff ⟨.f, .neg (.quant .all "X" (.pred "P" [.var "X"])
    (.sided "Q" [.var "X", .const "a"] true))⟩ _ rfl with ⟨formula, concluded, alike, _⟩
  refine ⟨formula, concluded, alike.mpr ⟨rfl, ?_⟩⟩
  rintro ⟨_, _, _, denied, _⟩
  cases denied

/-- The negation of a denied predicate becomes the predicate, but is compared as a denial of the
denial. -/
theorem negated_denial_not_equivalent :
    (∃ rule, negationRule ⟨.t, .neg (.sided "P" [.const "a"] true)⟩ = .ok (some rule) ∧
      rule.conclusions = [[⟨.t, .pred "P" [.const "a"]⟩]]) ∧
    (Formula.neg (.sided "P" [.const "a"] true)).bilateralForm =
      .ok (.sided "P*" [.const "a"] true) ∧
    (Formula.neg (.sided "P" [.const "a"] true)).equivalent (.pred "P" [.const "a"]) = false :=
  ⟨⟨_, rfl, rfl⟩, rfl, rfl⟩

end Bilateral
end WeakKleene
