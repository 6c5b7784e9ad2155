import WeakKleene.Formula.BilateralForm

namespace WeakKleene
namespace Formula

/-!
# Negations down to the atoms

The bilateral form is computed from the inside, together with the form of the
negation.  It can also be reached from the outside, law by law.  A negation
before a connective gives way to a connective of negations, and the formula that
comes of it is taken up as a whole, although it is no smaller than before.

Each law lowers a weight in which a negation doubles all that it stands on.  So
the laws come to an end on every proper formula, and they end in the form that
is computed.  In that form negations stand on propositional atoms only.  Nothing
is left for the laws to do there, so the form is its own form.
-/

/-- Built from atoms and predicates by negation, the connectives and the two restricted
quantifiers: there are no irregular compounds and no quantifiers without rules. -/
inductive Proper : Formula -> Prop where
  | atomic {formula : Formula} (atomic : formula.isAtomic = true) : Proper formula
  | neg {body : Formula} (inner : Proper body) : Proper (.neg body)
  | join {left right : Formula} (connective : Connective) (first : Proper left)
      (second : Proper right) : Proper (.join connective left right)
  | all {var : String} {restriction matrix : Formula} (first : Proper restriction)
      (second : Proper matrix) : Proper (.quant .all var restriction matrix)
  | exist {var : String} {restriction matrix : Formula} (first : Proper restriction)
      (second : Proper matrix) : Proper (.quant .exist var restriction matrix)

def joinDenial : Connective -> Formula -> Formula -> Formula
  | .conj, left, right => join .disj (neg left) (neg right)
  | .disj, left, right => join .conj (neg left) (neg right)
  | .imp, left, right => join .conj left (neg right)

/-- How a formula is brought into bilateral form from the outside.  The negation of a connective
is replaced first, and then the whole that replaces it is brought into form. -/
inductive Recast : Formula -> Formula -> Prop where
  | atomic {formula : Formula} (atomic : formula.isAtomic = true) : Recast formula formula
  | negAtom (name : String) : Recast (.neg (.atom name)) (.neg (.atom name))
  | negPred (name : String) (args : List Term) :
      Recast (.neg (.pred name args)) (.sided name args true)
  | negBilateral (name : String) (args : List Term) (starName : String) (starred : Bool) :
      Recast (.neg (.bilateral name args starName starred))
        (.sided (if starred then starName else name) args true)
  | negNeg {body form : Formula} (inner : Recast body form) : Recast (.neg (.neg body)) form
  | negJoin {connective : Connective} {left right form : Formula}
      (replaced : Recast (joinDenial connective left right) form) :
      Recast (.neg (.join connective left right)) form
  | negAll {var : String} {restriction matrix first second : Formula}
      (atRestriction : Recast restriction first) (atMatrix : Recast (.neg matrix) second) :
      Recast (.neg (.quant .all var restriction matrix)) (.quant .exist var first second)
  | negExist {var : String} {restriction matrix first second : Formula}
      (atRestriction : Recast restriction first) (atMatrix : Recast (.neg matrix) second) :
      Recast (.neg (.quant .exist var restriction matrix)) (.quant .all var first second)
  | join {left right first second : Formula} (connective : Connective)
      (atLeft : Recast left first) (atRight : Recast right second) :
      Recast (.join connective left right) (.join connective first second)
  | all {var : String} {restriction matrix first second : Formula}
      (atRestriction : Recast restriction first) (atMatrix : Recast matrix second) :
      Recast (.quant .all var restriction matrix) (.quant .all var first second)
  | exist {var : String} {restriction matrix first second : Formula}
      (atRestriction : Recast restriction first) (atMatrix : Recast matrix second) :
      Recast (.quant .exist var restriction matrix) (.quant .exist var first second)

/-- Negations stand on propositional atoms only. -/
inductive NegationNormal : Formula -> Prop where
  | atomic {formula : Formula} (atomic : formula.isAtomic = true) : NegationNormal formula
  | negAtom (name : String) : NegationNormal (.neg (.atom name))
  | join {left right : Formula} (connective : Connective) (first : NegationNormal left)
      (second : NegationNormal right) : NegationNormal (.join connective left right)
  | all {var : String} {restriction matrix : Formula} (first : NegationNormal restriction)
      (second : NegationNormal matrix) : NegationNormal (.quant .all var restriction matrix)
  | exist {var : String} {restriction matrix : Formula} (first : NegationNormal restriction)
      (second : NegationNormal matrix) : NegationNormal (.quant .exist var restriction matrix)

variable {formula form body left right : Formula} {connective : Connective}

/-! ## The laws come to an end -/

/-- A weight in which a negation doubles all that it stands on. -/
def heft : Formula -> Nat
  | neg body => 2 * body.heft
  | join _ left right => left.heft + right.heft + 1
  | quant _ _ restriction matrix => restriction.heft + matrix.heft + 1
  | _ => 1

theorem heft_pos (formula : Formula) : 0 < formula.heft := by
  induction formula using heft.induct with
  | case1 body ih =>
    rw [heft]
    omega
  | case2 | case3 =>
    rw [heft]
    omega
  | case4 formula notNeg notJoin notQuant =>
    rw [heft]
    · exact Nat.one_pos
    · exact notNeg
    · exact notJoin
    · exact notQuant

/-- Although it has a negation more, what replaces a negated connective is lighter: the connective
itself is no longer negated. -/
theorem heft_joinDenial_lt (connective : Connective) (left right : Formula) :
    (joinDenial connective left right).heft < (neg (join connective left right)).heft := by
  have weighty := heft_pos left
  cases connective <;> simp only [joinDenial, heft] <;> omega

theorem Proper.joinDenial (first : left.Proper) (second : right.Proper) :
    (joinDenial connective left right).Proper := by
  cases connective with
  | conj => exact .join .disj (.neg first) (.neg second)
  | disj => exact .join .conj (.neg first) (.neg second)
  | imp => exact .join .conj first (.neg second)

/-- A negation can be recast if all that is lighter can be. -/
theorem exists_recast_neg (proper : body.Proper)
    (lighter : forall part, part.Proper -> part.heft < (neg body).heft ->
      ∃ form, Recast part form) : ∃ form, Recast (.neg body) form := by
  cases proper with
  | atomic given =>
    cases body with
    | atom name => exact ⟨_, .negAtom name⟩
    | pred name args => exact ⟨_, .negPred name args⟩
    | bilateral name args starName starred =>
      exact ⟨_, .negBilateral name args starName starred⟩
    | neg | join | quant | irregular => cases given
  | @neg inner proper =>
    have light : inner.heft < (neg (neg inner)).heft := by
      have weighty := heft_pos inner
      simp only [heft]
      omega
    rcases lighter inner proper light with ⟨form, recast⟩
    exact ⟨form, .negNeg recast⟩
  | @join left right connective first second =>
    rcases lighter _ (.joinDenial first second) (heft_joinDenial_lt connective left right) with
      ⟨form, recast⟩
    exact ⟨form, .negJoin recast⟩
  | @all var restriction matrix first second =>
    rcases lighter restriction first (by simp only [heft]; omega) with ⟨bound, atRestriction⟩
    rcases lighter (neg matrix) (.neg second) (by simp only [heft]; omega) with ⟨form, atMatrix⟩
    exact ⟨_, .negAll atRestriction atMatrix⟩
  | @exist var restriction matrix first second =>
    rcases lighter restriction first (by simp only [heft]; omega) with ⟨bound, atRestriction⟩
    rcases lighter (neg matrix) (.neg second) (by simp only [heft]; omega) with ⟨form, atMatrix⟩
    exact ⟨_, .negExist atRestriction atMatrix⟩

/-- The laws bring every proper formula into a form. -/
theorem Proper.exists_recast (proper : formula.Proper) : ∃ form, Recast formula form := by
  -- The induction is on the weight, since laws do not lead to parts of the formula.
  induction weight : formula.heft using Nat.strongRecOn generalizing formula with
  | ind bound ih =>
    subst weight
    have lighter (part : Formula) (proper : part.Proper) (light : part.heft < formula.heft) :
        ∃ form, Recast part form := ih part.heft light proper rfl
    cases proper with
    | atomic given => exact ⟨formula, .atomic given⟩
    | neg inner => exact exists_recast_neg inner lighter
    | @join left right connective first second =>
      rcases lighter left first (by simp only [heft]; omega) with ⟨_, atLeft⟩
      rcases lighter right second (by simp only [heft]; omega) with ⟨_, atRight⟩
      exact ⟨_, .join connective atLeft atRight⟩
    | @all var restriction matrix first second =>
      rcases lighter restriction first (by simp only [heft]; omega) with ⟨_, atRestriction⟩
      rcases lighter matrix second (by simp only [heft]; omega) with ⟨_, atMatrix⟩
      exact ⟨_, .all atRestriction atMatrix⟩
    | @exist var restriction matrix first second =>
      rcases lighter restriction first (by simp only [heft]; omega) with ⟨_, atRestriction⟩
      rcases lighter matrix second (by simp only [heft]; omega) with ⟨_, atMatrix⟩
      exact ⟨_, .exist atRestriction atMatrix⟩

/-! ## The laws and the computed form -/

/-- The law for a negated connective leaves the computed form as it is, faults included. -/
theorem bilateralForm_neg_join (connective : Connective) (left right : Formula) :
    (neg (join connective left right)).bilateralForm =
      (joinDenial connective left right).bilateralForm := by
  cases connective with
  | conj | disj =>
    rw [joinDenial, bilateralForm, denialForm?, bilateralForm, bilateralForm, bilateralForm]
    cases left.denialForm? with
    | error => rfl
    | ok => cases right.denialForm? <;> rfl
  | imp =>
    rw [joinDenial, bilateralForm, denialForm?, bilateralForm, bilateralForm]
    cases left.bilateralForm with
    | error => rfl
    | ok => cases right.denialForm? <;> rfl

/-- What the negation of a formula has as its form, the denial of the formula has. -/
theorem denialForm?_of_neg (formed : (neg body).bilateralForm = .ok form) :
    ∃ denial, body.denialForm? = .ok denial ∧ denial.getD (neg body) = form := by
  rw [bilateralForm] at formed
  cases outcome : body.denialForm? with
  | error fault =>
    rw [outcome] at formed
    cases formed
  | ok denial =>
    rw [outcome] at formed
    exact ⟨denial, rfl, Except.ok.inj formed⟩

/-- What the laws lead to is computed. -/
theorem Recast.bilateralForm_eq (recast : Recast formula form) :
    formula.bilateralForm = .ok form := by
  induction recast with
  | @atomic formula given =>
    cases formula with
    | atom | pred | bilateral => rfl
    | neg | join | quant | irregular => cases given
  | negAtom | negPred | negBilateral => rfl
  | negNeg inner ih =>
    rw [bilateralForm, denialForm?, ih]
    rfl
  | negJoin replaced ih =>
    rw [bilateralForm_neg_join]
    exact ih
  | negAll atRestriction atMatrix first second | negExist atRestriction atMatrix first second =>
    rcases denialForm?_of_neg second with ⟨denial, denied, rfl⟩
    rw [bilateralForm, denialForm?, first, denied]
    rfl
  | join connective atLeft atRight first second
  | all atLeft atRight first second
  | exist atLeft atRight first second =>
    rw [bilateralForm, first, second]
    rfl

/-! ## Normal forms -/

theorem Recast.normal (recast : Recast formula form) : form.NegationNormal := by
  induction recast with
  | atomic given => exact .atomic given
  | negAtom name => exact .negAtom name
  | negPred | negBilateral => exact .atomic rfl
  | negNeg inner ih => exact ih
  | negJoin replaced ih => exact ih
  | negAll atRestriction atMatrix first second => exact .exist first second
  | negExist atRestriction atMatrix first second => exact .all first second
  | join connective atLeft atRight first second => exact .join connective first second
  | all atRestriction atMatrix first second => exact .all first second
  | exist atRestriction atMatrix first second => exact .exist first second

/-- The laws leave a formula alone in which negations stand on propositional atoms only. -/
theorem NegationNormal.recast (normal : formula.NegationNormal) : Recast formula formula := by
  induction normal with
  | atomic given => exact .atomic given
  | negAtom name => exact .negAtom name
  | join connective first second atFirst atSecond => exact .join connective atFirst atSecond
  | all first second atFirst atSecond => exact .all atFirst atSecond
  | exist first second atFirst atSecond => exact .exist atFirst atSecond

theorem NegationNormal.proper (normal : formula.NegationNormal) : formula.Proper := by
  induction normal with
  | atomic given => exact .atomic given
  | negAtom name => exact .neg (.atomic rfl)
  | join connective first second atFirst atSecond => exact .join connective atFirst atSecond
  | all first second atFirst atSecond => exact .all atFirst atSecond
  | exist first second atFirst atSecond => exact .exist atFirst atSecond

/-- The laws come to an end on every proper formula, in the bilateral form and nowhere else.  There
negations stand on propositional atoms only, and the bilateral form of the result is the result
itself. -/
theorem bilateralForm_normal_idempotent (formula : Formula) (proper : formula.Proper) :
    ∃ form, formula.bilateralForm = .ok form ∧
      (forall other, Recast formula other ↔ other = form) ∧
      form.NegationNormal ∧ form.bilateralForm = .ok form := by
  rcases proper.exists_recast with ⟨form, recast⟩
  have formed := recast.bilateralForm_eq
  refine ⟨form, formed, fun other => ⟨?_, ?_⟩, recast.normal,
    recast.normal.recast.bilateralForm_eq⟩
  · intro reached
    exact Except.ok.inj (reached.bilateralForm_eq.symm.trans formed)
  · rintro rfl
    exact recast

/-- A denied universal formula over an implication and a denied conjunction. -/
theorem deniedUniversal_normal_idempotent :
    ∃ form, (neg (.quant .all "X" (neg (neg (.pred "P" [.var "X"])))
        (.join .imp (.atom "p") (.join .conj (.sided "Q" [.var "X"] true)
          (neg (.atom "q")))))).bilateralForm = .ok form ∧
      form = .quant .exist "X" (.pred "P" [.var "X"]) (.join .conj (.atom "p")
        (.join .disj (.sided "Q*" [.var "X"] true) (.atom "q"))) ∧
      form.NegationNormal ∧ form.bilateralForm = .ok form := by
  rcases bilateralForm_normal_idempotent (neg (.quant .all "X" (neg (neg (.pred "P" [.var "X"])))
    (.join .imp (.atom "p") (.join .conj (.sided "Q" [.var "X"] true) (neg (.atom "q"))))))
    (.neg (.all (.neg (.neg (.atomic rfl)))
      (.join .imp (.atomic rfl) (.join .conj (.atomic rfl) (.neg (.atomic rfl)))))) with
    ⟨form, formed, _, normal, again⟩
  refine ⟨form, formed, ?_, normal, again⟩
  cases formed
  rfl

end Formula
end WeakKleene
