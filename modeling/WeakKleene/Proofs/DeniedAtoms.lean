import Mathlib.Data.List.Forall2
import WeakKleene.Proofs.Substitution

namespace WeakKleene

/-!
# What a formula denies

Where negations are pushed inwards, a predicate under an odd number of them ends
as its denial, and so does a starred one under an even number.  These are the
predicates that a formula denies.  No rule of the bilateral calculus denies more
than its premise does: its conclusions deny the same predicates, at most with
constants in place of what the premise binds.
-/

namespace Formula

/-- The denial of a predicate: its name, the name under which it is denied, and its arguments. -/
structure Denial where
  name : String
  star : String
  args : List Term

def Denial.formula (denial : Denial) : Formula := bilateral denial.name denial.args denial.star true

mutual

/-- What a formula denies.  The flag tells whether the formula itself stands under a negation. -/
def denied (turned : Bool) : Formula -> List Denial
  | atom _ => []
  | pred name args => if turned then [⟨name, starOf name, args⟩] else []
  | bilateral name args star starred =>
    if starred != turned then [⟨name, if starred then star else starOf name, args⟩] else []
  | neg body => body.denied !turned
  | join _ left right => left.denied turned ++ right.denied turned
  -- A negation goes past the restriction into the matrix.
  | quant _ _ restriction matrix => restriction.denied false ++ matrix.denied turned
  | irregular symbol parts => deniedAmong (if symbol = "~" then !turned else turned) parts

def deniedAmong (turned : Bool) : List Formula -> List Denial
  | [] => []
  | part :: rest => part.denied turned ++ deniedAmong turned rest

end

mutual

def boundNames : Formula -> List String
  | atom _ | pred .. | bilateral .. => []
  | neg body => body.boundNames
  | join _ left right => left.boundNames ++ right.boundNames
  | quant _ var restriction matrix => var :: (restriction.boundNames ++ matrix.boundNames)
  | irregular _ parts => boundAmong parts

def boundAmong : List Formula -> List String
  | [] => []
  | part :: rest => part.boundNames ++ boundAmong rest

end

/-- Arguments in which constants stand for some terms of the given names. -/
def Fills (names : List String) : List Term -> List Term -> Prop :=
  List.Forall₂ fun term filled => filled = term ∨ term.name ∈ names ∧ filled.isConst = true

theorem Fills.refl (names : List String) (args : List Term) : Fills names args args :=
  List.forall₂_same.mpr fun _ _ => .inl rfl

theorem Fills.trans {names more : List String} (within : names ⊆ more)
    {args middle filled : List Term} (first : Fills more args middle)
    (second : Fills names middle filled) : Fills more args filled := by
  induction first generalizing filled with
  | nil =>
    cases second
    exact .nil
  | cons here _ ih =>
    cases second with
    | cons next others =>
      refine .cons ?_ (ih others)
      rcases here with rfl | ⟨bound, constant⟩
      · exact next.imp_right fun further => ⟨within further.1, further.2⟩
      · rcases next with rfl | further
        · exact .inr ⟨bound, constant⟩
        · exact .inr ⟨bound, further.2⟩

/-- Each denial is one of the originals, up to constants for terms of the given names. -/
def FillsEach (names : List String) (originals denials : List Denial) : Prop :=
  forall denial, denial ∈ denials ->
    ∃ args, { denial with args := args } ∈ originals ∧ Fills names args denial.args

theorem FillsEach.of_subset {originals denials : List Denial} (names : List String)
    (within : denials ⊆ originals) : FillsEach names originals denials :=
  fun denial member => ⟨denial.args, within member, .refl names denial.args⟩

theorem FillsEach.append {names : List String} {originals others denials more : List Denial}
    (first : FillsEach names originals denials) (second : FillsEach names others more) :
    FillsEach names (originals ++ others) (denials ++ more) := by
  intro denial member
  rcases List.mem_append.mp member with left | right
  · rcases first denial left with ⟨args, listed, fills⟩
    exact ⟨args, List.mem_append_left _ listed, fills⟩
  · rcases second denial right with ⟨args, listed, fills⟩
    exact ⟨args, List.mem_append_right _ listed, fills⟩

/-- Whatever a formula denies, another one denies too, up to constants for what that binds. -/
structure DeniesWithin (origin formula : Formula) : Prop where
  bound : formula.boundNames ⊆ origin.boundNames
  denied : FillsEach origin.boundNames (origin.denied false) (formula.denied false)

variable {formula origin made : Formula} {constant var : String}

theorem DeniesWithin.of_subset (bound : formula.boundNames ⊆ origin.boundNames)
    (denied : formula.denied false ⊆ origin.denied false) : DeniesWithin origin formula :=
  ⟨bound, .of_subset _ denied⟩

theorem DeniesWithin.refl (formula : Formula) : DeniesWithin formula formula :=
  .of_subset (List.Subset.refl _) (List.Subset.refl _)

theorem DeniesWithin.trans {middle : Formula} (first : DeniesWithin origin middle)
    (second : DeniesWithin middle formula) : DeniesWithin origin formula := by
  refine ⟨List.Subset.trans second.bound first.bound, fun denial member => ?_⟩
  rcases second.denied denial member with ⟨between, inMiddle, filled⟩
  rcases first.denied _ inMiddle with ⟨original, inOrigin, before⟩
  exact ⟨original, inOrigin, before.trans first.bound filled⟩

/-! ## Constants for variables -/

/-- A formula in which constants stand for some terms of the given names. -/
structure Filled (names : List String) (formula filled : Formula) : Prop where
  bound : filled.boundNames = formula.boundNames
  denied : forall turned, FillsEach names (formula.denied turned) (filled.denied turned)

def PutsConstants (names : List String) (mapping : List (String × Term)) : Prop :=
  forall entry, entry ∈ mapping -> entry.1 ∈ names ∧ entry.2.isConst = true

variable {names : List String} {mapping : List (String × Term)}

theorem PutsConstants.filter (puts : PutsConstants names mapping) (keep : String × Term -> Bool) :
    PutsConstants names (mapping.filter keep) :=
  fun entry member => puts entry (List.mem_filter.mp member).1

theorem PutsConstants.fills (puts : PutsConstants names mapping) (args : List Term) :
    Fills names args (args.map (Term.replace mapping)) := by
  induction args with
  | nil => exact .nil
  | cons term rest ih =>
    refine .cons ?_ ih
    rw [Term.replace]
    cases found : mapping.lookup term.name with
    | none => exact .inl rfl
    | some value =>
      rcases List.lookup_eq_some_iff.mp found with ⟨front, back, whole, _⟩
      have listed : (term.name, value) ∈ mapping :=
        whole ▸ List.mem_append_right front List.mem_cons_self
      exact .inr (puts _ listed)

/-- One predicate, if it is denied at all. -/
theorem PutsConstants.fillsEach (puts : PutsConstants names mapping) (isDenied : Bool)
    (denial : Denial) :
    FillsEach names (if isDenied then [denial] else [])
      (if isDenied then [{ denial with args := denial.args.map (Term.replace mapping) }]
        else []) := by
  cases isDenied with
  | false => exact .of_subset names (List.Subset.refl _)
  | true =>
    intro filled member
    rw [List.mem_singleton.mp member]
    exact ⟨denial.args, List.mem_cons_self, puts.fills denial.args⟩

theorem respects_filled : Respects fun mapping formula made =>
    PutsConstants names mapping -> Filled names formula made where
  atom := fun _ => ⟨rfl, fun _ => .of_subset names (List.Subset.refl _)⟩
  pred := fun puts => ⟨rfl, fun turned => puts.fillsEach turned ⟨_, _, _⟩⟩
  bilateral := fun puts => ⟨rfl, fun turned => puts.fillsEach (_ != turned) ⟨_, _, _⟩⟩
  neg := fun atBody puts => ⟨(atBody puts).bound, fun turned => (atBody puts).denied !turned⟩
  join := by
    intro mapping connective left right first second atLeft atRight puts
    have filled := atLeft puts
    have filled' := atRight puts
    refine ⟨?_, fun turned => (filled.denied turned).append (filled'.denied turned)⟩
    rw [boundNames, boundNames, filled.bound, filled'.bound]
  quant := by
    intro mapping symbol var restriction matrix first second atRestriction atMatrix puts
    have filled := atRestriction (puts.filter _)
    have filled' := atMatrix (puts.filter _)
    refine ⟨?_, fun turned => (filled.denied false).append (filled'.denied turned)⟩
    rw [boundNames, boundNames, filled.bound, filled'.bound]
  irregular := by
    intro mapping symbol parts made each puts
    have whole : boundAmong made = boundAmong parts ∧
        forall turned, FillsEach names (deniedAmong turned parts) (deniedAmong turned made) := by
      induction each with
      | nil => exact ⟨rfl, fun _ => .of_subset names (List.Subset.refl _)⟩
      | cons first _ ih =>
        have filled := first puts
        refine ⟨?_, fun turned => (filled.denied turned).append (ih.2 turned)⟩
        rw [boundAmong, boundAmong, filled.bound, ih.1]
    exact ⟨whole.1, fun turned => whole.2 _⟩

theorem filled_of_withConstant
    (done : formula.withConstant var constant = .ok made) : Filled [var] formula made := by
  refine respects_filled.instantiate formula done fun entry member => ?_
  rw [List.mem_singleton.mp member]
  exact ⟨List.mem_cons_self, rfl⟩

/-- An instance of a part denies no more than the whole, if the whole binds the name that the
constants stand for. -/
theorem Filled.deniesWithin (filled : Filled names formula made) (named : names ⊆ origin.boundNames)
    (bound : formula.boundNames ⊆ origin.boundNames)
    (denied : formula.denied false ⊆ origin.denied false) : DeniesWithin origin made := by
  refine ⟨filled.bound ▸ bound, fun denial member => ?_⟩
  rcases filled.denied false denial member with ⟨original, listed, fills⟩
  refine ⟨original, denied listed, fills.imp fun _ _ same => ?_⟩
  exact same.imp_right fun put => ⟨named put.1, put.2⟩

theorem deniesWithin_restriction {quantifier : Quantifier} {restriction matrix : Formula}
    (done : restriction.withConstant var constant = .ok made) :
    DeniesWithin (.quant quantifier var restriction matrix) made :=
  (filled_of_withConstant done).deniesWithin (by simp [boundNames])
    (List.subset_cons_of_subset _ (List.subset_append_left _ _)) (List.subset_append_left _ _)

theorem deniesWithin_matrix {quantifier : Quantifier} {restriction matrix : Formula}
    (done : matrix.withConstant var constant = .ok made) :
    DeniesWithin (.quant quantifier var restriction matrix) made :=
  (filled_of_withConstant done).deniesWithin (by simp [boundNames])
    (List.subset_cons_of_subset _ (List.subset_append_right _ _)) (List.subset_append_right _ _)

theorem denied_parts {symbol : String} {parts : List Formula}
    (shape : formula.symbolAndParts? = some (symbol, parts)) (turned : Bool) :
    boundAmong parts = formula.boundNames ∧
      deniedAmong (if symbol = "~" then !turned else turned) parts = formula.denied turned := by
  cases formula with
  | atom | pred | bilateral | quant => cases shape
  | neg body =>
    cases shape
    exact ⟨List.append_nil _, List.append_nil _⟩
  | join connective left right =>
    cases shape
    rw [if_neg (by cases connective <;> decide)]
    exact ⟨congrArg (left.boundNames ++ ·) (List.append_nil _),
      congrArg (left.denied turned ++ ·) (List.append_nil _)⟩
  | irregular symbol parts =>
    cases shape
    exact ⟨rfl, rfl⟩

theorem denied_subset_deniedAmong {part : Formula} {parts : List Formula} (listed : part ∈ parts)
    (turned : Bool) :
    part.boundNames ⊆ boundAmong parts ∧ part.denied turned ⊆ deniedAmong turned parts :=
  ⟨subset_gathered (fun _ _ => rfl) listed, subset_gathered (fun _ _ => rfl) listed⟩

end Formula

/-! ## Rules -/

namespace Bilateral

open Formula

theorem Pushed.denies {body formula : Formula} (pushed : Pushed body formula) :
    formula.boundNames ⊆ body.boundNames ∧ formula.denied false ⊆ body.denied true := by
  cases pushed with
  | neg | pred | affirmed | denied | conj | disj | all | exist =>
    exact ⟨List.Subset.refl _, List.Subset.refl _⟩
  | irregularNeg inner rest => exact ⟨List.subset_append_left _ _, List.subset_append_left _ _⟩
  | irregularConj left right rest | irregularDisj left right rest =>
    have first := denied_subset_deniedAmong (@List.mem_cons_self _ left (right :: rest)) true
    have second := denied_subset_deniedAmong
      (List.mem_cons_of_mem left (@List.mem_cons_self _ right rest)) true
    exact ⟨List.append_subset.mpr ⟨first.1, second.1⟩, List.append_subset.mpr ⟨first.2, second.2⟩⟩

variable {signed : Signed} {situation : Situation} {rule : Rule}
variable (ruled : Bilateral.rule signed situation = .ok (some rule)) {conclusion : List Signed}
variable (listed : conclusion ∈ rule.conclusions) {part : Signed} (member : part ∈ conclusion)

include ruled listed member

/-- A rule for a predicate or an atom repeats it. -/
theorem rule_repeats (atomic : signed.formula.isAtomic = true) :
    part.formula = signed.formula := by
  rcases rule_chosen ruled with ⟨names, chosen⟩
  rcases chosen.source listed member with same | ⟨_, _, shape, _⟩ | ⟨_, _, _, shape, _⟩ |
    ⟨_, _, _, _, shape, _⟩
  · exact same
  all_goals cases formula : signed.formula <;> simp_all [symbolAndParts?, isAtomic]

/-- No rule of the bilateral calculus denies more than its premise. -/
theorem rule_leads : DeniesWithin signed.formula part.formula := by
  rcases rule_chosen ruled with ⟨names, chosen⟩
  rcases chosen.source listed member with same | ⟨symbol, parts, shape, within, standard⟩ |
    ⟨body, rest, _, shape, pushed⟩ | ⟨_, _, _, _, shape, name, _, here | there⟩
  · rw [same]
    exact .refl _
  · have joins : symbol ≠ "~" := fun negates => by cases standard negates
    have whole := denied_parts shape false
    rw [if_neg joins] at whole
    have inside := denied_subset_deniedAmong within false
    exact .of_subset (whole.1 ▸ inside.1) (whole.2 ▸ inside.2)
  · have whole := denied_parts shape false
    have inside := denied_subset_deniedAmong (@List.mem_cons_self _ body rest) true
    exact .of_subset (List.Subset.trans pushed.denies.1 (whole.1 ▸ inside.1))
      (List.Subset.trans pushed.denies.2 (whole.2 ▸ inside.2))
  · rw [shape]
    exact deniesWithin_restriction here
  · rw [shape]
    exact deniesWithin_matrix there

end Bilateral
end WeakKleene
