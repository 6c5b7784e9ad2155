import WeakKleene.Proofs.SettledEvidence

namespace WeakKleene

/-!
# Two ways to the value of a formula

The value of a compound can be read off truth tables, one row for each
combination of operands, or decided by rules that look first whether an operand
is undefined.  Interpretations evaluate by the rules.  On formulas without
quantifiers the tables lead to the same value from the bottom up, and a formula
is undefined exactly if one of its atomic parts is.
-/

/-! ## Rows and rules -/

namespace Operation

theorem lookup_negationTable (value : Truth) : negationTable.lookup value = some value.neg := by
  cases value <;> rfl

theorem lookup_joinTable (connective : Connective) (left right : Truth) :
    (joinTable connective).lookup (left, right) = some (connective.eval left right) := by
  cases connective <;> cases left <;> cases right <;> rfl

theorem apply_not (value : Truth) : apply "~" [value] = .ok value.neg := by
  have known : ofSpelling? "~" = some neg := rfl
  rw [apply, known]
  dsimp only [eval?]
  rw [lookup_negationTable]

theorem apply_symbol (connective : Connective) (left right : Truth) :
    apply connective.symbol [left, right] = .ok (connective.eval left right) := by
  have known : ofSpelling? connective.symbol = some (join connective) := by
    cases connective <;> rfl
  rw [apply, known]
  dsimp only [eval?]
  rw [lookup_joinTable]

end Operation

theorem Truth.neg_eq_e_iff {value : Truth} : value.neg = .e ↔ value = .e := by
  cases value <;> decide

theorem Connective.eval_eq_e_iff {connective : Connective} {left right : Truth} :
    connective.eval left right = .e ↔ left = .e ∨ right = .e := by
  cases connective <;> cases left <;> cases right <;> decide

/-! ## From the bottom up -/

namespace Formula

def atomicParts : Formula -> List Formula
  | neg body => body.atomicParts
  | join _ left right => left.atomicParts ++ right.atomicParts
  | quant .. | irregular .. => []
  | formula => [formula]

/-- The value of a formula from given values of its atomic parts.  Negations and joining
connectives are asked for by their spelling. -/
def tabulated (given : Formula -> Except Fault Truth) : Formula -> Except Fault Truth
  | neg body => do
      let value <- body.tabulated given
      Operation.apply "~" [value]
  | join connective left right => do
      let leftValue <- left.tabulated given
      let rightValue <- right.tabulated given
      Operation.apply connective.symbol [leftValue, rightValue]
  | formula => given formula

end Formula

namespace Interpretation

open Formula

variable {interpretation : Interpretation} {formula : Formula} {value : Truth}

/-- A value that both ways lead to, undefined exactly if an atomic part is. -/
structure Agreed (interpretation : Interpretation) (formula : Formula) (value : Truth) : Prop where
  byRules : interpretation.eval formula = .ok value
  byTables : formula.tabulated interpretation.eval = .ok value
  undefined : value = .e ↔ ∃ part, part ∈ formula.atomicParts ∧ interpretation.eval part = .ok .e

theorem exists_agreed_of_atomic (atomic : formula.isAtomic = true) :
    ∃ value, interpretation.Agreed formula value := by
  have found : ∃ value, interpretation.eval formula = .ok value ∧
      formula.tabulated interpretation.eval = interpretation.eval formula ∧
      formula.atomicParts = [formula] := by
    cases formula with
    | atom | pred | bilateral => exact ⟨_, rfl, rfl, rfl⟩
    | _ => cases atomic
  rcases found with ⟨value, byRules, same, single⟩
  refine ⟨value, byRules, same.trans byRules, ?_⟩
  simp [single, byRules]

theorem Agreed.neg (agreed : interpretation.Agreed formula value) :
    interpretation.Agreed (.neg formula) value.neg where
  byRules := by
    rw [eval, agreed.byRules]
    rfl
  byTables := by
    rw [tabulated, agreed.byTables]
    exact Operation.apply_not value
  undefined := Truth.neg_eq_e_iff.trans agreed.undefined

theorem Agreed.join {left right : Formula} {leftValue rightValue : Truth}
    (connective : Connective) (atLeft : interpretation.Agreed left leftValue)
    (atRight : interpretation.Agreed right rightValue) :
    interpretation.Agreed (.join connective left right)
      (connective.eval leftValue rightValue) where
  byRules := eval_join atLeft.byRules atRight.byRules
  byTables := by
    rw [tabulated, atLeft.byTables, atRight.byTables]
    exact Operation.apply_symbol connective leftValue rightValue
  undefined := by
    rw [Connective.eval_eq_e_iff, atLeft.undefined, atRight.undefined, atomicParts]
    simp only [List.mem_append, or_and_right, exists_or]

/-- A formula without quantifiers has a value under every interpretation.  Truth tables lead to
the same value from the values of its atomic parts, and it is undefined exactly if one of these
is. -/
theorem eval_eq_tabulated (interpretation : Interpretation) (formula : Formula)
    (free : formula.QuantifierFree) :
    ∃ value, interpretation.eval formula = .ok value ∧
      formula.tabulated interpretation.eval = .ok value ∧
      (value = .e ↔
        ∃ part, part ∈ formula.atomicParts ∧ interpretation.eval part = .ok .e) := by
  have found : ∃ value, interpretation.Agreed formula value := by
    induction free with
    | basic atomic => exact exists_agreed_of_atomic atomic
    | neg inner ih =>
      rcases ih with ⟨value, agreed⟩
      exact ⟨_, agreed.neg⟩
    | join connective first second atFirst atSecond =>
      rcases atFirst with ⟨leftValue, atLeft⟩
      rcases atSecond with ⟨rightValue, atRight⟩
      exact ⟨_, atLeft.join connective atRight⟩
  rcases found with ⟨value, agreed⟩
  exact ⟨value, agreed.byRules, agreed.byTables, agreed.undefined⟩

/-- An implication with a false premise is undefined all the same, since the atom that it leads to
was given no value. -/
theorem eval_tabulated_undefined_implication :
    ∃ value,
      eval ⟨[], [(("P", ["a"]), ⟨.t, .f⟩)], ["a"]⟩
        (.join .imp (.neg (.pred "P" [.const "a"])) (.atom "q")) = .ok value ∧
      (Formula.join .imp (.neg (.pred "P" [.const "a"])) (.atom "q")).tabulated
        (eval ⟨[], [(("P", ["a"]), ⟨.t, .f⟩)], ["a"]⟩) = .ok value ∧ value = .e := by
  rcases eval_eq_tabulated ⟨[], [(("P", ["a"]), ⟨.t, .f⟩)], ["a"]⟩
    (.join .imp (.neg (.pred "P" [.const "a"])) (.atom "q"))
    (.join .imp (.neg (.basic rfl)) (.basic rfl)) with ⟨value, byRules, byTables, undefined⟩
  refine ⟨value, byRules, byTables, undefined.mpr ⟨.atom "q", ?_, rfl⟩⟩
  exact List.mem_append_right _ List.mem_cons_self

end Interpretation
end WeakKleene
