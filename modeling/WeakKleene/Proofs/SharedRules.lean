import WeakKleene.Proofs.Substitution

namespace WeakKleene

/-!
# The rules that the two calculi share

Apart from negations and bilateral predicates the bilateral calculus is meant to
have the rules of the standard one.  It has, except where a universal formula is
to be false or not true.  There the standard calculus looks for a counterexample
once and at a new constant, under n also at a constant that occurs.  The
bilateral calculus treats the formula as one that is to be true: it goes through
the constants that occur, and takes a new one only if there are none.
-/

namespace Standard

open Formula

variable {signed : Signed} {var : String} {restriction matrix : Formula}

theorem universalRule_eq_error {fault : Fault}
    (universal : signed.formula = .quant .all var restriction matrix)
    (nested : restriction.scopeFault?.or matrix.scopeFault? = some fault)
    (name : String) (additional : Option String) :
    universalRule signed name additional = .error fault := by
  have first := restriction.withConstant_failsBy var name
  have second := matrix.withConstant_failsBy var name
  simp only [universalRule, universal]
  cases atFirst : restriction.scopeFault? with
  | some found =>
    rw [atFirst, Option.some_or] at nested
    rw [atFirst] at first
    rw [first.error, Option.some.inj nested]
    rfl
  | none =>
    rw [atFirst, Option.none_or] at nested
    rw [atFirst] at first
    rw [nested] at second
    rcases first with ⟨made, done⟩
    rw [done, second.error]
    rfl

section

variable (universal : signed.formula = .quant .all var restriction matrix)
variable (unnested : restriction.scopeFault?.or matrix.scopeFault? = none)
include universal unnested

/-- Otherwise its rule instantiates the constant it is given, and under n an additional constant
doubles the conclusions. -/
theorem universalRule_eq_ok (sought : signed.sign = .f ∨ signed.sign = .n) (name : String)
    (additional : Option String) :
    ∃ rule, universalRule signed name additional = .ok (some rule) ∧
      rule.constant = some name ∧ (signed.sign = .n ->
        rule.conclusions.length = if additional.isSome then 6 else 3) := by
  rcases Option.or_eq_none_iff.mp unnested with ⟨first, second⟩
  have made (other : String) : ∃ left right, restriction.withConstant var other = .ok left ∧
      matrix.withConstant var other = .ok right := by
    have atFirst := restriction.withConstant_failsBy var other
    have atSecond := matrix.withConstant_failsBy var other
    rw [first] at atFirst
    rw [second] at atSecond
    rcases atFirst with ⟨left, atFirst⟩
    rcases atSecond with ⟨right, atSecond⟩
    exact ⟨left, right, atFirst, atSecond⟩
  rcases made name with ⟨left, right, atFirst, atSecond⟩
  simp only [universalRule, universal, atFirst, atSecond]
  rcases sought with false | untrue
  · rw [false]
    exact ⟨_, rfl, rfl, nofun⟩
  · rw [untrue]
    cases additional with
    | none => exact ⟨_, rfl, rfl, fun _ => rfl⟩
    | some other =>
      rcases made other with ⟨left', right', atFirst', atSecond'⟩
      simp only [atFirst', atSecond']
      exact ⟨_, rfl, rfl, fun _ => rfl⟩

/-- Different constants give different rules. -/
theorem universalRule_eq_iff (sought : signed.sign = .f ∨ signed.sign = .n) {name other : String} :
    universalRule signed name none = universalRule signed other none ↔ name = other := by
  refine ⟨fun same => ?_, fun same => by rw [same]⟩
  rcases universalRule_eq_ok universal unnested sought name none with ⟨_, here, constant, _⟩
  rcases universalRule_eq_ok universal unnested sought other none with ⟨_, there, constant', _⟩
  rw [here, there] at same
  rw [Option.some.inj (Except.ok.inj same), constant'] at constant
  exact (Option.some.inj constant).symm

/-- Under n an additional constant makes a difference: six conclusions instead of three. -/
theorem universalRule_ne_additional (untrue : signed.sign = .n) (name other : String) :
    universalRule signed name none ≠ universalRule signed name (some other) := by
  intro same
  rcases universalRule_eq_ok universal unnested (.inr untrue) name none with ⟨_, here, _, three⟩
  rcases universalRule_eq_ok universal unnested (.inr untrue) name (some other) with
    ⟨_, there, _, six⟩
  rw [here, there] at same
  have lengths := six untrue
  rw [<- Option.some.inj (Except.ok.inj same), three untrue] at lengths
  cases lengths

end

end Standard

namespace Situation

variable {situation : Situation}

/-- Where constants are recorded as used, those that occur are gone through. -/
theorem universalConstant?_eq_none_iff :
    situation.universalConstant? = none ↔ situation.existing ≠ [] ∧ situation.used ≠ none ∧
      forall name, name ∈ situation.existing -> name ∈ situation.used.getD [] := by
  rcases situation with ⟨existing, used, fresh⟩
  cases existing with
  | nil => simp [universalConstant?]
  | cons first rest =>
    cases used with
    | none => simp [universalConstant?]
    | some used => simp [universalConstant?]

/-- Without a constant on record the first one that occurs is taken. -/
theorem universalConstant?_of_unused (unused : situation.anyUsed = false) :
    situation.universalConstant? = some (situation.existing.head?.getD situation.fresh) := by
  rcases situation with ⟨existing, used, fresh⟩
  cases existing with
  | nil => rfl
  | cons first rest =>
    cases used with
    | none => rfl
    | some used =>
      cases used with
      | nil => rfl
      | cons => cases unused

theorem used_ne_none_of_anyUsed (used : situation.anyUsed = true) :
    situation.used ≠ none := by
  intro absent
  rw [anyUsed, absent] at used
  cases used

end Situation

namespace Bilateral

open Formula

/-- Both calculi look for a counterexample to a universal formula at the same constants.  Where one
was looked for already, that is if there are no further constants to go through.  Where none was,
there are no constants at all, or under f the first one is the new one, or neither calculus can
form an instance. -/
def SearchesAlike (signed : Signed) (situation : Situation) : Prop :=
  forall var restriction matrix, signed.formula = .quant .all var restriction matrix ->
    signed.sign = .f ∨ signed.sign = .n -> if situation.anyUsed then
        situation.existing ≠ [] ∧
          forall name, name ∈ situation.existing -> name ∈ situation.used.getD []
      else
        situation.existing = [] ∨
          (signed.sign = .f ∧ situation.existing.head? = some situation.fresh) ∨
          (restriction.scopeFault?.or matrix.scopeFault?).isSome = true

section Comparison

variable {signed : Signed} {situation : Situation} {var : String} {restriction matrix : Formula}

/-- Formulas other than negations, bilateral predicates and universal formulas have the rule of
the standard calculus. -/
theorem rule_eq_of_ne_universal
    (unnegated : forall parts, signed.formula.symbolAndParts? ≠ some ("~", parts))
    (oneSided : signed.formula.baseName? = none)
    (other : forall var restriction matrix, signed.formula ≠ .quant .all var restriction matrix) :
    rule signed situation = Standard.rule signed situation := by
  rcases signed with ⟨sign, formula⟩
  cases formula with
  | atom | pred | join => rfl
  | bilateral => cases oneSided
  | neg body => exact absurd rfl (unnegated [body])
  | quant quantifier var restriction matrix =>
    cases quantifier with
    | all => exact absurd rfl (other var restriction matrix)
    | exist | other => rfl
  | irregular symbol parts =>
    have different : symbol ≠ "~" := by
      rintro rfl
      exact unnegated parts rfl
    simp only [rule, compoundRule, Standard.rule, if_neg different]

section

variable (universal : signed.formula = .quant .all var restriction matrix)
include universal

/-- The bilateral calculus takes every universal formula for one that is to be true. -/
theorem rule_universal :
    rule signed situation = situation.universalConstant?.elim (.ok none) fun constant =>
      Standard.universalRule signed constant none := by
  simp only [rule, universal]
  cases situation.universalConstant? <;> rfl

/-- So does the standard one where it is to be true, undefined, or either true or false. -/
theorem standard_rule_universal :
    Standard.rule signed situation = Standard.universalChoice signed situation := by
  simp only [Standard.rule, universal]

/-- Where a counterexample was looked for, the standard calculus is done with the formula. -/
theorem rule_eq_iff_of_anyUsed (sought : signed.sign = .f ∨ signed.sign = .n)
    (used : situation.anyUsed = true) :
    rule signed situation = Standard.rule signed situation ↔ situation.existing ≠ [] ∧
        forall name, name ∈ situation.existing -> name ∈ situation.used.getD [] := by
  have done : Standard.rule signed situation = .ok none := by
    rw [standard_rule_universal universal, Standard.universalChoice]
    rcases sought with false | untrue
    · simp only [false, used, if_true]
    · simp only [untrue, used, if_true]
  have exhausted : situation.universalConstant? = none ↔ situation.existing ≠ [] ∧
      forall name, name ∈ situation.existing -> name ∈ situation.used.getD [] := by
    rw [Situation.universalConstant?_eq_none_iff]
    exact and_congr_right fun _ => and_iff_right (Situation.used_ne_none_of_anyUsed used)
  rw [<- exhausted, done, rule_universal universal]
  cases chosen : situation.universalConstant? with
  | none => exact iff_of_true rfl rfl
  | some name =>
    -- Another instance is formed, or fails to be: neither is the end.
    refine iff_of_false ?_ (Option.some_ne_none name)
    cases scope : restriction.scopeFault?.or matrix.scopeFault? with
    | some fault =>
      rw [Option.elim_some, Standard.universalRule_eq_error universal scope]
      intro same
      cases same
    | none =>
      rcases Standard.universalRule_eq_ok universal scope sought name none with ⟨found, equal, _⟩
      rw [Option.elim_some, equal]
      intro same
      cases same

/-- Where none was looked for yet, the calculi start with different constants. -/
theorem rule_eq_iff_of_unused (sought : signed.sign = .f ∨ signed.sign = .n)
    (unused : situation.anyUsed = false) :
    rule signed situation = Standard.rule signed situation ↔ situation.existing = [] ∨
        (signed.sign = .f ∧ situation.existing.head? = some situation.fresh) ∨
        (restriction.scopeFault?.or matrix.scopeFault?).isSome = true := by
  rw [rule_universal universal, Situation.universalConstant?_of_unused unused, Option.elim_some,
    standard_rule_universal universal, Standard.universalChoice]
  cases scope : restriction.scopeFault?.or matrix.scopeFault? with
  | some fault =>
    refine iff_of_true ?_ (.inr (.inr rfl))
    have fails := @Standard.universalRule_eq_error signed _ _ _ _ universal scope
    rcases sought with false | untrue
    · simp only [false, unused, Bool.false_eq_true, if_false, fails]
    · simp only [untrue, unused, Bool.false_eq_true, if_false, fails]
      split <;> rfl
  | none =>
    simp only [Option.isSome_none, Bool.false_eq_true, or_false]
    cases existing : situation.existing with
    | nil =>
      refine iff_of_true ?_ (.inl rfl)
      rcases sought with false | untrue
      · simp only [false, unused, Bool.false_eq_true, if_false]
        rfl
      · simp only [untrue, unused, Bool.false_eq_true, if_false]
        rfl
    | cons first rest =>
      simp only [List.head?_cons, Option.getD_some, Option.some.injEq, reduceCtorEq, false_or]
      rcases sought with false | untrue
      · simp only [false, unused, Bool.false_eq_true, if_false, true_and]
        exact Standard.universalRule_eq_iff universal scope (.inl false)
      · simp only [untrue, unused, Bool.false_eq_true, if_false, reduceCtorEq, false_and, iff_false]
        exact Standard.universalRule_ne_additional universal scope untrue first _

end

end Comparison

/-- The bilateral calculus has the rules of the standard one for all formulas other than negations
and bilateral predicates, except for the search for counterexamples to universal formulas. -/
theorem rule_eq_standard_iff (signed : Signed) (situation : Situation)
    (unnegated : forall parts, signed.formula.symbolAndParts? ≠ some ("~", parts))
    (oneSided : signed.formula.baseName? = none) :
    rule signed situation = Standard.rule signed situation ↔ SearchesAlike signed situation := by
  by_cases sought : (∃ var restriction matrix,
      signed.formula = .quant .all var restriction matrix) ∧ (signed.sign = .f ∨ signed.sign = .n)
  · rcases sought with ⟨⟨var, restriction, matrix, universal⟩, sought⟩
    have searches : SearchesAlike signed situation ↔ if situation.anyUsed then
        situation.existing ≠ [] ∧
          forall name, name ∈ situation.existing -> name ∈ situation.used.getD []
      else
        situation.existing = [] ∨
          (signed.sign = .f ∧ situation.existing.head? = some situation.fresh) ∨
          (restriction.scopeFault?.or matrix.scopeFault?).isSome = true := by
      constructor
      · intro alike
        exact alike var restriction matrix universal sought
      · intro alike var' restriction' matrix' universal' _
        cases universal.symm.trans universal'
        exact alike
    rw [searches]
    cases used : situation.anyUsed with
    | true => exact rule_eq_iff_of_anyUsed universal sought used
    | false => exact rule_eq_iff_of_unused universal sought used
  · refine iff_of_true ?_ fun var restriction matrix universal signs =>
      absurd ⟨⟨var, restriction, matrix, universal⟩, signs⟩ sought
    by_cases universal : ∃ var restriction matrix,
        signed.formula = .quant .all var restriction matrix
    · rcases universal with ⟨var, restriction, matrix, universal⟩
      rw [rule_universal universal, standard_rule_universal universal, Standard.universalChoice]
      cases sign : signed.sign with
      | f => exact absurd ⟨⟨_, _, _, universal⟩, .inl sign⟩ sought
      | n => exact absurd ⟨⟨_, _, _, universal⟩, .inr sign⟩ sought
      | t | e | m | v => cases situation.universalConstant? <;> rfl
    · exact rule_eq_of_ne_universal unnegated oneSided fun var restriction matrix equal =>
        universal ⟨var, restriction, matrix, equal⟩

/-- Once all constants that occur were used, neither calculus has a further rule for a universal
formula that is not true. -/
theorem rule_eq_standard_of_exhausted : ∃ signed situation,
      signed = ⟨.n, .quant .all "X" (.pred "P" [.var "X"]) (.pred "Q" [.var "X"])⟩ ∧
      situation = ⟨["a", "b"], some ["a", "b"], "c_9"⟩ ∧
      (forall parts, signed.formula.symbolAndParts? ≠ some ("~", parts)) ∧
      signed.formula.baseName? = none ∧ SearchesAlike signed situation ∧
      rule signed situation = Standard.rule signed situation := by
  refine ⟨_, _, rfl, rfl, ?_⟩
  have unnegated : forall parts, (Formula.quant .all "X" (.pred "P" [.var "X"])
      (.pred "Q" [.var "X"])).symbolAndParts? ≠ some ("~", parts) :=
    nofun
  have alike : SearchesAlike ⟨.n, .quant .all "X" (.pred "P" [.var "X"]) (.pred "Q" [.var "X"])⟩
      ⟨["a", "b"], some ["a", "b"], "c_9"⟩ :=
    fun _ _ _ _ _ => ⟨by decide, by decide⟩
  exact ⟨unnegated, rfl, alike, (rule_eq_standard_iff _ _ unnegated rfl).mpr alike⟩

/-- A universal formula is refuted at a constant that occurs, where the standard calculus takes a
new one. -/
theorem counterexample_at_occurring_constant : ∃ signed situation,
      signed = ⟨.f, .quant .all "X" (.pred "P" [.var "X"]) (.pred "Q" [.var "X"])⟩ ∧
      situation = ⟨["a"], some [], "c_9"⟩ ∧
      rule signed situation = .ok (some (Rule.named signed "restricted-forall"
        [[⟨.t, .pred "P" [.const "a"]⟩, ⟨.f, .pred "Q" [.const "a"]⟩]] (some "a"))) ∧
      Standard.rule signed situation = .ok (some (Rule.named signed "restricted-forall"
        [[⟨.t, .pred "P" [.const "c_9"]⟩, ⟨.f, .pred "Q" [.const "c_9"]⟩]] (some "c_9"))) ∧
      rule signed situation ≠ Standard.rule signed situation := by
  refine ⟨_, _, rfl, rfl, rfl, rfl, ?_⟩
  intro same
  have constants := congrArg (fun rule => rule.toOption.join.bind Rule.constant) same
  exact absurd constants (by decide)

end Bilateral
end WeakKleene
