import WeakKleene.Proofs.FlatQuantifiers

namespace WeakKleene
namespace Formula

/-!
# What a constant put for a variable leaves as it is

Whether a formula has instances depends on its quantifiers only, and so does the
fault if it has none.  An instance has the connectives of the formula, and its
constants are those of the formula and the ones that were put.  That the
constant really occurs in the instance needs the variable to occur in the
formula: a quantifier may bind a variable that the formula does not mention.
-/

open Tableau (exists_of_bind_eq_ok)

/-! ## What is gathered from parts -/

theorem subset_gathered {α : Type} {collect : Formula -> List α} {gather : List Formula -> List α}
    {part : Formula} {parts : List Formula}
    (cons : forall part rest, gather (part :: rest) = collect part ++ gather rest)
    (listed : part ∈ parts) : collect part ⊆ gather parts := by
  induction parts with
  | nil => cases listed
  | cons first rest ih =>
    rw [cons]
    rcases List.mem_cons.mp listed with rfl | later
    · exact List.subset_append_left _ _
    · exact List.subset_append_of_subset_right _ (ih later)

/-! ## Faults -/

/-- The fault of rebuilding a quantifier, if it has rules. -/
def quantifierFault? : Quantifier -> Option Fault
  | .all => some (.quantifierInScope false)
  | .exist => some (.quantifierInScope true)
  | .other _ => none

mutual

/-- Why terms cannot be put into a formula, if so: the first quantifier with rules, where inner
ones come before outer ones. -/
def scopeFault? : Formula -> Option Fault
  | atom _ | pred .. | bilateral .. => none
  | neg body => body.scopeFault?
  | join _ left right => left.scopeFault?.or right.scopeFault?
  | quant quantifier _ restriction matrix =>
    (restriction.scopeFault?.or matrix.scopeFault?).or (quantifierFault? quantifier)
  | irregular _ parts => scopeFaultAmong? parts

def scopeFaultAmong? : List Formula -> Option Fault
  | [] => none
  | part :: rest => part.scopeFault?.or (scopeFaultAmong? rest)

end

/-- A computation that fails just with the given fault, if any. -/
def FailsBy {α : Type} (fault? : Option Fault) (result : Except Fault α) : Prop :=
  match fault? with
  | some fault => result = .error fault
  | none => ∃ value, result = .ok value

section FailsBy

variable {α β : Type} {first second : Option Fault} {result : Except Fault α}

theorem FailsBy.error {fault : Fault} (fails : FailsBy (some fault) result) :
    result = .error fault :=
  fails

/-- Two computations in a row fail as the first one does, or else as the second one does. -/
theorem FailsBy.bind {next : α -> Except Fault β} (here : FailsBy first result)
    (there : forall value, result = .ok value -> FailsBy second (next value)) :
    FailsBy (first.or second) (result >>= next) := by
  cases first with
  | some fault =>
    rw [here.error]
    rfl
  | none =>
    rcases here with ⟨value, done⟩
    rw [Option.none_or, done]
    exact there value done

theorem FailsBy.map (here : FailsBy first result) (change : α -> β) :
    FailsBy first (do return change (<- result)) := by
  have succeeds : forall value, result = .ok value ->
      FailsBy none (Except.ok (change value) : Except Fault β) := fun _ _ => ⟨_, rfl⟩
  have both := here.bind succeeds
  rwa [Option.or_none] at both

end FailsBy

theorem requantify_failsBy (quantifier : Quantifier) (var : String) (restriction matrix : Formula) :
    FailsBy (quantifierFault? quantifier) (requantify quantifier var restriction matrix) := by
  cases quantifier with
  | all | exist => rfl
  | other symbol => exact ⟨_, rfl⟩

mutual

/-- Which terms are put makes no difference to the fault. -/
theorem instantiate_failsBy (mapping : List (String × Term)) (formula : Formula) :
    FailsBy formula.scopeFault? (formula.instantiate mapping) := by
  match formula with
  | .atom name => exact ⟨_, rfl⟩
  | .pred name args => exact ⟨_, rfl⟩
  | .bilateral name args star starred => exact ⟨_, rfl⟩
  | .neg body => exact (instantiate_failsBy mapping body).map neg
  | .join connective left right =>
    exact (instantiate_failsBy mapping left).bind fun first _ =>
      (instantiate_failsBy mapping right).map (join connective first)
  | .quant quantifier var restriction matrix =>
    rw [scopeFault?, Option.or_assoc]
    exact (instantiate_failsBy _ restriction).bind fun first _ =>
      (instantiate_failsBy _ matrix).bind fun second _ =>
        requantify_failsBy quantifier var first second
  | .irregular symbol parts => exact (instantiateAll_failsBy mapping parts).map (irregular symbol)

theorem instantiateAll_failsBy (mapping : List (String × Term)) (parts : List Formula) :
    FailsBy (scopeFaultAmong? parts) (instantiateAll mapping parts) := by
  match parts with
  | [] => exact ⟨_, rfl⟩
  | part :: rest =>
    exact (instantiate_failsBy mapping part).bind fun first _ =>
      (instantiateAll_failsBy mapping rest).map (first :: ·)

end

theorem withConstant_failsBy (formula : Formula) (var name : String) :
    FailsBy formula.scopeFault? (formula.withConstant var name) :=
  instantiate_failsBy _ formula

/-! ## Instances -/

/-- A relation between formulas and what a substitution makes of them that holds of a formula if
it holds of its parts. -/
structure Respects (related : List (String × Term) -> Formula -> Formula -> Prop) : Prop where
  atom : forall {mapping name}, related mapping (atom name) (atom name)
  pred : forall {mapping name args},
    related mapping (pred name args) (pred name (args.map (Term.replace mapping)))
  bilateral : forall {mapping name args star starred},
    related mapping (bilateral name args star starred)
      (bilateral name (args.map (Term.replace mapping)) star starred)
  neg : forall {mapping body made}, related mapping body made ->
    related mapping (neg body) (neg made)
  join : forall {mapping connective left right first second}, related mapping left first ->
    related mapping right second ->
    related mapping (join connective left right) (join connective first second)
  quant : forall {mapping symbol var restriction matrix first second},
    related (mapping.filter fun entry => entry.1 != var) restriction first ->
    related (mapping.filter fun entry => entry.1 != var) matrix second ->
    related mapping (quant (.other symbol) var restriction matrix)
      (quant (.other symbol) var first second)
  irregular : forall {mapping symbol parts made}, List.Forall₂ (related mapping) parts made ->
    related mapping (irregular symbol parts) (irregular symbol made)

section Respects

variable {related : List (String × Term) -> Formula -> Formula -> Prop}

mutual

theorem Respects.instantiate (respects : Respects related) {mapping : List (String × Term)}
    (formula : Formula) {made : Formula}
    (done : formula.instantiate mapping = .ok made) : related mapping formula made := by
  match formula with
  | .atom name =>
    cases done
    exact respects.atom
  | .pred name args =>
    cases done
    exact respects.pred
  | .bilateral name args star starred =>
    cases done
    exact respects.bilateral
  | .neg body =>
    rcases exists_of_bind_eq_ok done with ⟨inner, atBody, same⟩
    cases same
    exact respects.neg (respects.instantiate body atBody)
  | .join connective left right =>
    rcases exists_of_bind_eq_ok done with ⟨first, atLeft, done⟩
    rcases exists_of_bind_eq_ok done with ⟨second, atRight, same⟩
    cases same
    exact respects.join (respects.instantiate left atLeft) (respects.instantiate right atRight)
  | .quant quantifier var restriction matrix =>
    rcases exists_of_bind_eq_ok done with ⟨first, atRestriction, done⟩
    rcases exists_of_bind_eq_ok done with ⟨second, atMatrix, done⟩
    cases quantifier with
    | all => cases done
    | exist => cases done
    | other symbol =>
      cases done
      exact respects.quant (respects.instantiate restriction atRestriction)
        (respects.instantiate matrix atMatrix)
  | .irregular symbol parts =>
    rcases exists_of_bind_eq_ok done with ⟨inner, atParts, same⟩
    cases same
    exact respects.irregular (respects.instantiateAll parts atParts)

theorem Respects.instantiateAll (respects : Respects related) {mapping : List (String × Term)}
    (parts : List Formula) {made : List Formula}
    (done : instantiateAll mapping parts = .ok made) :
    List.Forall₂ (related mapping) parts made := by
  match parts with
  | [] =>
    cases done
    exact .nil
  | part :: rest =>
    rcases exists_of_bind_eq_ok done with ⟨first, atFirst, done⟩
    rcases exists_of_bind_eq_ok done with ⟨others, atRest, same⟩
    cases same
    exact .cons (respects.instantiate part atFirst) (respects.instantiateAll rest atRest)

end

end Respects

def putNames (mapping : List (String × Term)) : List String := mapping.map fun entry => entry.2.name

theorem putNames_filter_subset (mapping : List (String × Term)) (keep : String × Term -> Bool) :
    putNames (mapping.filter keep) ⊆ putNames mapping :=
  List.map_subset _ (List.filter_subset_self mapping)

/-- What a substitution keeps: the complexity, and the constants except for those it puts. -/
structure Kept (mapping : List (String × Term)) (formula made : Formula) : Prop where
  complexity : made.complexity = formula.complexity
  constants : made.constants ⊆ formula.constants ++ putNames mapping

theorem constants_arguments_subset (mapping : List (String × Term)) (args : List Term) :
    ((args.map (Term.replace mapping)).filter Term.isConst).map Term.name ⊆
      (args.filter Term.isConst).map Term.name ++ putNames mapping := by
  intro name member
  rcases List.mem_map.mp member with ⟨term, listed, rfl⟩
  rcases List.mem_filter.mp listed with ⟨replaced, constant⟩
  rcases List.mem_map.mp replaced with ⟨original, given, rfl⟩
  cases found : mapping.lookup original.name with
  | none =>
    rw [Term.replace, found, Option.getD_none] at constant ⊢
    exact List.mem_append_left _
      (List.mem_map.mpr ⟨original, List.mem_filter.mpr ⟨given, constant⟩, rfl⟩)
  | some value =>
    rcases List.lookup_eq_some_iff.mp found with ⟨front, back, whole, _⟩
    have entry : (original.name, value) ∈ mapping :=
      whole ▸ List.mem_append_right front List.mem_cons_self
    rw [Term.replace, found, Option.getD_some]
    exact List.mem_append_right _ (List.mem_map.mpr ⟨_, entry, rfl⟩)

/-- Constants of two parts come from the two parts. -/
theorem append_subset_of_parts {first second original original' put : List String}
    (left : first ⊆ original ++ put) (right : second ⊆ original' ++ put) :
    first ++ second ⊆ (original ++ original') ++ put := by
  intro name member
  have either := List.mem_append.mp member |>.imp (@left name) (@right name)
  simp only [List.mem_append] at either ⊢
  rcases either with (original | put) | original | put
  · exact .inl (.inl original)
  · exact .inr put
  · exact .inl (.inr original)
  · exact .inr put

theorem respects_kept : Respects Kept where
  atom := ⟨rfl, List.subset_append_left _ _⟩
  pred := ⟨rfl, constants_arguments_subset _ _⟩
  bilateral := ⟨rfl, constants_arguments_subset _ _⟩
  neg := fun kept => ⟨congrArg (1 + ·) kept.complexity, kept.constants⟩
  join := by
    intro mapping connective left right first second atLeft atRight
    refine ⟨?_, append_subset_of_parts atLeft.constants atRight.constants⟩
    rw [complexity, complexity, atLeft.complexity, atRight.complexity]
  quant := by
    intro mapping symbol var restriction matrix first second atRestriction atMatrix
    have fewer (constants : List String) :
        constants ++ putNames (mapping.filter fun entry => entry.1 != var) ⊆
          constants ++ putNames mapping :=
      List.append_subset.mpr ⟨List.subset_append_left _ _,
        List.subset_append_of_subset_right _ (putNames_filter_subset _ _)⟩
    refine ⟨?_, append_subset_of_parts (List.Subset.trans atRestriction.constants (fewer _))
      (List.Subset.trans atMatrix.constants (fewer _))⟩
    rw [complexity, complexity, atRestriction.complexity, atMatrix.complexity]
  irregular := by
    intro mapping symbol parts made each
    have whole : complexities made = complexities parts ∧
        constantsOf made ⊆ constantsOf parts ++ putNames mapping := by
      induction each with
      | nil => exact ⟨rfl, List.subset_append_left _ _⟩
      | cons first _ ih =>
        refine ⟨?_, append_subset_of_parts first.constants ih.2⟩
        rw [complexities, complexities, first.complexity, ih.1]
    exact ⟨congrArg (1 + ·) whole.1, whole.2⟩

variable {formula made : Formula} {name var : String}

theorem complexity_withConstant
    (done : formula.withConstant var name = .ok made) : made.complexity = formula.complexity :=
  (respects_kept.instantiate formula done).complexity

theorem mem_constants_withConstant {other : String}
    (done : formula.withConstant var name = .ok made) (occurs : other ∈ made.constants) :
    other ∈ formula.constants ∨ other = name :=
  (List.mem_append.mp ((respects_kept.instantiate formula done).constants occurs)).imp_right
    List.mem_singleton.mp

/-! ## Formulas that mention a variable -/

mutual

def termNames : Formula -> List String
  | atom _ => []
  | pred _ args | bilateral _ args _ _ => args.map Term.name
  | neg body => body.termNames
  | join _ left right => left.termNames ++ right.termNames
  | quant _ _ restriction matrix => restriction.termNames ++ matrix.termNames
  | irregular _ parts => termNamesOf parts

def termNamesOf : List Formula -> List String
  | [] => []
  | part :: rest => part.termNames ++ termNamesOf rest

end

theorem mem_constants_arguments {args : List Term} (name : String)
    (mentioned : var ∈ args.map Term.name) :
    name ∈ ((args.map (Term.replace [(var, .const name)])).filter Term.isConst).map Term.name := by
  rcases List.mem_map.mp mentioned with ⟨term, given, rfl⟩
  refine List.mem_map.mpr ⟨.const name, List.mem_filter.mpr ⟨?_, rfl⟩, rfl⟩
  exact List.mem_map.mpr ⟨term, given, by rw [Term.replace_singleton, if_pos rfl]⟩

theorem mem_constants_of_mentioned (free : formula.QuantifierFree)
    (mentioned : var ∈ formula.termNames)
    (done : formula.withConstant var name = .ok made) : name ∈ made.constants := by
  induction free generalizing made with
  | @basic formula given =>
    cases formula with
    | atom => cases mentioned
    | pred | bilateral =>
      cases done
      exact mem_constants_arguments name mentioned
    | _ => cases given
  | neg inner ih =>
    rcases exists_of_bind_eq_ok done with ⟨body, atBody, same⟩
    cases same
    show name ∈ body.constants
    exact ih mentioned atBody
  | join connective first second atFirst atSecond =>
    rcases exists_of_bind_eq_ok done with ⟨left, atLeft, done⟩
    rcases exists_of_bind_eq_ok done with ⟨right, atRight, same⟩
    cases same
    rcases List.mem_append.mp mentioned with here | there
    · exact List.mem_append_left _ (atFirst here atLeft)
    · exact List.mem_append_right _ (atSecond there atRight)

end Formula
end WeakKleene
