import Mathlib.Data.List.Induction
import WeakKleene.Proofs.Attribution
import WeakKleene.Proofs.BranchRecords

namespace WeakKleene
namespace Theory

open Tableau

/-!
# Where information states come from

A branch classifies each predicate by the signs under which the predicate and its
denial stand on it.  A check reports these classifications once each, for every
branch that is not closed.  That is more than the open ones: a branch that was
split is neither closed nor open any more, and what it said before it was split
is reported too, whatever became of the branches it was split into.
-/

variable {tableau : Tableau} {found : Branch} {predicate : String} {knowledge : Knowledge}

/-- A formula of a branch affirms or denies a predicate under a sign. -/
def Told (tableau : Tableau) (found : Branch) (name : String) (args : List String) (sign : Sign)
    (denied : Bool) : Prop :=
  ∃ signed text, signed ∈ tableau.formulasOn found ∧
    testimony? signed = some ⟨name, args, denied, sign, text⟩

/-- What the signs of a predicate and of its denial amount to. -/
def Amounts (told : Sign -> Bool -> Prop) : Knowledge -> Prop
  | .glut => told .t false ∧ told .t true
  | .true => told .t false ∧ ¬ told .t true
  | .false => told .t true ∧ ¬ told .t false
  | .gap => ¬ told .t false ∧ ¬ told .t true ∧
      (told .f false ∧ told .f true ∨ told .e false ∨ told .e true)

/-- A branch classifies a predicate, which is given as it is written. -/
def Classifies (tableau : Tableau) (found : Branch) (predicate : String)
    (knowledge : Knowledge) : Prop :=
  ∃ name args, name ++ "(" ++ String.intercalate "," args ++ ")" = predicate ∧
    Amounts (Told tableau found name args) knowledge

def Reports (states : List InformationState) (predicate : String) (knowledge : Knowledge) : Prop :=
  ∃ state, state ∈ states ∧ state.predicate = predicate ∧ state.knowledge = knowledge

theorem Amounts.exists_told {told : Sign -> Bool -> Prop} (amounts : Amounts told knowledge) :
    ∃ sign denied, told sign denied := by
  cases knowledge with
  | glut | true | false => exact ⟨_, _, amounts.1⟩
  | gap =>
    rcases amounts.2.2 with ⟨affirmed, _⟩ | affirmed | denied
    · exact ⟨_, _, affirmed⟩
    · exact ⟨_, _, affirmed⟩
    · exact ⟨_, _, denied⟩

theorem knowledge?_eq_some_iff {testimonies : List Testimony} :
    knowledge? testimonies = some knowledge ↔ Amounts (fun sign denied => ∃ testimony,
      testimony ∈ testimonies ∧ testimony.sign = sign ∧ testimony.denied = denied) knowledge := by
  unfold knowledge?
  extract_lets told
  have spoken : (fun sign denied => ∃ testimony, testimony ∈ testimonies ∧
      testimony.sign = sign ∧ testimony.denied = denied) =
        fun sign denied => told sign denied = true := by
    funext sign denied
    simp only [told, List.any_eq_true, Bool.and_eq_true, beq_iff_eq]
  rw [spoken]
  clear_value told
  cases knowledge <;> simp only [Amounts] <;> grind

/-- The states that are read off a branch are its classifications. -/
theorem reports_statesOn [Memory] :
    Reports (statesOn tableau found) predicate knowledge ↔
      Classifies tableau found predicate knowledge := by
  have told : forall name args, (fun sign denied => ∃ testimony,
      testimony ∈ ((tableau.listed found).filterMap fun node => testimony? node.signed).filter
        (fun testimony => testimony.name == name && testimony.args == args) ∧
      testimony.sign = sign ∧ testimony.denied = denied) = Told tableau found name args := by
    intro name args
    funext sign denied
    simp only [Told, formulasOn_eq_map, List.mem_filter, List.mem_filterMap, mem_listed_iff,
      List.mem_map, Bool.and_eq_true, beq_iff_eq, eq_iff_iff]
    constructor
    · rintro ⟨testimony, ⟨⟨node, onBranch, given⟩, rfl, rfl⟩, rfl, rfl⟩
      exact ⟨node.signed, testimony.text, ⟨node, onBranch, rfl⟩, given⟩
    · rintro ⟨_, text, ⟨node, onBranch, rfl⟩, given⟩
      exact ⟨_, ⟨⟨node, onBranch, given⟩, rfl, rfl⟩, rfl, rfl⟩
  simp only [Reports, statesOn, Classifies, List.mem_filterMap, Option.map_eq_some_iff,
    knowledge?_eq_some_iff, told]
  constructor
  · rintro ⟨_, ⟨⟨name, args⟩, _, _, amounts, rfl⟩, rfl, rfl⟩
    exact ⟨name, args, rfl, amounts⟩
  · rintro ⟨name, args, rfl, amounts⟩
    refine ⟨_, ⟨(name, args), ?_, knowledge, amounts, rfl⟩, rfl, rfl⟩
    -- What amounts to something was told, so the predicate is among those that are asked about.
    rcases amounts.exists_told with ⟨sign, denied, spoken⟩
    rw [<- told] at spoken
    rcases spoken with ⟨testimony, listed, _⟩
    rcases List.mem_filter.mp listed with ⟨listed, about⟩
    simp only [Bool.and_eq_true, beq_iff_eq] at about
    exact List.mem_eraseDups.mpr (List.mem_map.mpr ⟨testimony, listed, Prod.ext about.1 about.2⟩)

/-- What is left out of the distinct states was said before. -/
theorem reports_distinctStates (states : List InformationState) :
    Reports (distinctStates states) predicate knowledge ↔ Reports states predicate knowledge := by
  induction states using List.reverseRecOn with
  | nil => exact Iff.rfl
  | append_singleton states state ih =>
    rw [distinctStates, List.foldl_append, <- distinctStates, List.foldl_cons, List.foldl_nil]
    split
    · rename_i repeated
      simp only [List.any_eq_true, Bool.and_eq_true, beq_iff_eq] at repeated
      grind [Reports]
    · grind [Reports]

theorem reports_informationStates [Memory] :
    Reports (informationStates tableau) predicate knowledge ↔ ∃ id found,
      tableau.branch? id = some found ∧ found.isClosed = false ∧
      Classifies tableau found predicate knowledge := by
  rw [informationStates, reports_distinctStates]
  simp only [<- reports_statesOn, Reports, List.mem_flatMap, List.mem_filter, Array.mem_toList_iff,
    Array.mem_iff_getElem?, branch?]
  grind

def OpenClassifies [Memory] (theory : Theory) (predicate : String) (knowledge : Knowledge) : Prop :=
  ∃ tableau id found, theory.tableau? none = .ok (some tableau) ∧ id ∈ tableau.opened ∧
    tableau.branch? id = some found ∧ Classifies tableau found predicate knowledge

/-- A branch that was given up for those it was split into, and never closed, classifies the
predicate. -/
def SplitClassifies [Memory] (theory : Theory) (predicate : String) (knowledge : Knowledge) :
    Prop :=
  ∃ formulas tableau id found, theory.signedFormulas = .ok formulas ∧
    theory.tableau? none = .ok (some tableau) ∧ id ∉ tableau.opened ∧
    tableau.branch? id = some found ∧ found.isClosed = false ∧
    WasSplit (.bilateral none) formulas tableau id found ∧
    Classifies tableau found predicate knowledge

/-- Without an adviser a check reports the classifications on open branches and on branches that
were split, and no others.  So all of them come from open branches if and only if what a branch
says that was split is said on an open one too. -/
theorem reported_iff_open_or_split [Memory] (theory : Theory) (now : String) (result : CheckResult)
    (checked : (theory.check now none).2 = .ok result) :
    (forall predicate knowledge, Reports result.states predicate knowledge ↔
      theory.OpenClassifies predicate knowledge ∨ theory.SplitClassifies predicate knowledge) ∧
    ((forall predicate knowledge, Reports result.states predicate knowledge ↔
        theory.OpenClassifies predicate knowledge) ↔
      forall predicate knowledge, theory.SplitClassifies predicate knowledge ->
        theory.OpenClassifies predicate knowledge) := by
  have reported : forall predicate knowledge, Reports result.states predicate knowledge ↔
      theory.OpenClassifies predicate knowledge ∨ theory.SplitClassifies predicate knowledge := by
    intro predicate knowledge
    rcases result_of_check checked with ⟨nothing, rfl⟩ |
      ⟨formulas, tableau, read, finished, constructed, rfl⟩
    · simp [Reports, OpenClassifies, SplitClassifies, nothing]
    have reachable := reachable_of_ofFormulas constructed
    rw [reports_informationStates]
    constructor
    · rintro ⟨id, found, known, unclosed, classifies⟩
      by_cases worked : id ∈ tableau.opened
      · exact .inl ⟨tableau, id, found, finished, worked, known, classifies⟩
      · exact .inr ⟨formulas, tableau, id, found, read, finished, worked, known, unclosed,
          reachable.wasSplit known worked unclosed, classifies⟩
    · rintro (⟨other, id, found, same, worked, known, classifies⟩ |
        ⟨_, other, id, found, _, same, _, known, unclosed, _, classifies⟩)
      · cases finished.symm.trans same
        exact ⟨id, found, known,
          isClosed_eq_false_iff.mpr (reachable.regular.unclosed worked known), classifies⟩
      · cases finished.symm.trans same
        exact ⟨id, found, known, unclosed, classifies⟩
  refine ⟨reported, ?_⟩
  simp only [reported, or_iff_left_iff_imp]

theorem check_of_tableau? [Memory] {theory : Theory}
    (finished : theory.tableau? none = .ok (some tableau)) :
    (theory.check "" none).2 = .ok ⟨tableau.satisfiable, informationStates tableau⟩ := by
  rw [check, finished]
  rfl

open scoped Memory

/-- Nothing is split where a denial stands beside a predicate. -/
theorem halfDenied_reported_open : ∃ result, (halfDenied.check "" none).2 = .ok result ∧
    Reports result.states "P(a)" .false ∧ halfDenied.OpenClassifies "P(a)" .false := by
  have constructed : ∃ tableau, halfDenied.tableau? none = .ok (some tableau) ∧
      tableau.branches.size = 1 ∧ tableau.opened = [0] ∧
      Reports (informationStates tableau) "P(a)" .false := by
    rw [tableau?, halfDenied, signedFormulas_literal _ _ content?_halfDenied rfl]
    exact ⟨_, rfl, rfl, rfl, _, List.mem_cons_self, rfl, rfl⟩
  rcases constructed with ⟨tableau, finished, single, opened, reported⟩
  have checked := check_of_tableau? finished
  refine ⟨_, checked, reported, ?_⟩
  rcases ((reported_iff_open_or_split _ _ _ checked).1 _ _).mp reported with
    classified | ⟨_, other, id, found, _, same, idle, known, _⟩
  · exact classified
  · cases finished.symm.trans same
    have bound := lt_of_branch? known
    rw [single, Nat.lt_one_iff] at bound
    rw [opened, bound] at idle
    exact absurd List.mem_cons_self idle

/-- A rule that fails for an individual. -/
def overruled : Theory where
  statements := [literal "S0001" "P(a)" "t", literal "S0002" "Q(a)" "f",
    literal "S0003" "[forall X P(X)]Q(X)" "t"]
  nextId := .int 4
  timings := ⟨none, none, none⟩

/-- Every branch closes, and yet what the first one said before it was split is reported. -/
theorem counterexample_reported_when_all_closed : ∃ result,
    (overruled.check "" none).2 = .ok result ∧ result.satisfiable = false ∧
    Reports result.states "P(a)" .true ∧
    forall predicate knowledge, ¬ overruled.OpenClassifies predicate knowledge := by
  have read : overruled.signedFormulas = .ok [⟨.t, .sided "P" [.const "a"] false⟩,
      ⟨.f, .sided "Q" [.const "a"] false⟩,
      ⟨.t, .quant .all "X" (.sided "P" [.var "X"] false) (.sided "Q" [.var "X"] false)⟩] := by
    rw [signedFormulas, overruled]
    simp only [List.mapM_cons, List.mapM_nil,
      signedFormula?_literal _ (content?_literal "S0001" "t" readFormula_P_a) rfl,
      signedFormula?_literal _ (content?_literal "S0002" "f" readFormula_Q_a) rfl,
      signedFormula?_literal _ (content?_literal "S0003" "t" readFormula_unary_rules.1) rfl]
    rfl
  have constructed : ∃ tableau, overruled.tableau? none = .ok (some tableau) ∧
      tableau.satisfiable = false ∧ tableau.opened = [] ∧
      Reports (informationStates tableau) "P(a)" .true := by
    rw [tableau?, read]
    exact ⟨_, rfl, rfl, rfl, _, List.mem_cons_self, rfl, rfl⟩
  rcases constructed with ⟨tableau, finished, unsatisfiable, opened, reported⟩
  refine ⟨_, check_of_tableau? finished, unsatisfiable, reported, ?_⟩
  rintro predicate knowledge ⟨other, id, found, same, worked, _⟩
  cases finished.symm.trans same
  rw [opened] at worked
  exact List.not_mem_nil worked

end Theory
end WeakKleene
