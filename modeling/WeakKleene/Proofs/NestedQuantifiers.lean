import WeakKleene.Proofs.SidedReading

namespace WeakKleene

/-!
# What can go wrong with formulas that were read

A formula that was read is proper, so it is not refused at the start, in either
calculus.  Rules keep formulas proper, and the one thing that a rule cannot do
with a proper formula is to put a constant into the scope of another
quantifier.  So this is the only fault that a construction can meet, and it
meets none if no quantifier stands inside another.
-/

namespace Formula

mutual

def quantified : Formula -> Bool
  | atom _ | pred .. | bilateral .. => false
  | neg body => body.quantified
  | join _ left right => left.quantified || right.quantified
  | quant .. => true
  | irregular _ parts => quantifiedAmong parts

def quantifiedAmong : List Formula -> Bool
  | [] => false
  | part :: rest => part.quantified || quantifiedAmong rest

end

mutual

/-- Whether a quantifier occurs in the restriction or the matrix of another one. -/
def nested : Formula -> Bool
  | atom _ | pred .. | bilateral .. => false
  | neg body => body.nested
  | join _ left right => left.nested || right.nested
  | quant _ _ restriction matrix => restriction.quantified || matrix.quantified
  | irregular _ parts => nestedAmong parts

def nestedAmong : List Formula -> Bool
  | [] => false
  | part :: rest => part.nested || nestedAmong rest

end

namespace Proper

variable {formula : Formula}

theorem quantifierFree (proper : formula.Proper) (unquantified : formula.quantified = false) :
    formula.QuantifierFree := by
  induction proper with
  | atomic given => exact .basic given
  | neg inner ih => exact .neg (ih unquantified)
  | join connective first second atFirst atSecond =>
    rcases Bool.or_eq_false_iff.mp unquantified with ⟨left, right⟩
    exact .join connective (atFirst left) (atSecond right)
  | all | exist => cases unquantified

theorem flat (proper : formula.Proper) (unnested : formula.nested = false) : formula.Flat := by
  induction proper with
  | atomic given => exact .atomic given
  | neg inner ih => exact .neg (ih unnested)
  | join connective first second atFirst atSecond =>
    rcases Bool.or_eq_false_iff.mp unnested with ⟨left, right⟩
    exact .join connective (atFirst left) (atSecond right)
  | all first second =>
    rcases Bool.or_eq_false_iff.mp unnested with ⟨inRestriction, inMatrix⟩
    exact .all (first.quantifierFree inRestriction) (second.quantifierFree inMatrix)
  | exist first second =>
    rcases Bool.or_eq_false_iff.mp unnested with ⟨inRestriction, inMatrix⟩
    exact .exist (first.quantifierFree inRestriction) (second.quantifierFree inMatrix)

/-- An instance of a proper formula is proper.  The only reason why there is none is a
quantifier in the formula. -/
theorem instantiate_makes (proper : formula.Proper) (mapping : List (String × Term)) :
    Makes Proper (fun fault => ∃ existential, fault = .quantifierInScope existential)
      (formula.instantiate mapping) := by
  induction proper generalizing mapping with
  | @atomic formula given =>
    cases formula with
    | atom | pred | bilateral => exact .atomic rfl
    | _ => cases given
  | neg inner ih => exact (ih mapping).bind fun _ made => .neg made
  | join connective first second atFirst atSecond =>
    refine (atFirst mapping).bind fun _ left => ?_
    exact (atSecond mapping).bind fun _ right => .join connective left right
  | all first second atFirst atSecond | exist first second atFirst atSecond =>
    refine (atFirst _).bind fun _ _ => ?_
    exact (atSecond _).bind fun _ _ => ⟨_, rfl⟩

end Proper

/-- Rules do not lead out of the proper formulas, and fail at nested quantifiers only. -/
theorem hereditary_proper :
    Hereditary Proper fun fault => ∃ existential, fault = .quantifierInScope existential where
  atomic := .atomic
  neg_iff := by
    refine ⟨fun proper => ?_, .neg⟩
    cases proper with
    | atomic given => cases given
    | neg inner => exact inner
  join_iff := by
    refine ⟨fun proper => ?_, fun ⟨first, second⟩ => .join _ first second⟩
    cases proper with
    | atomic given => cases given
    | join _ first second => exact ⟨first, second⟩
  denied_all := by
    intro var restriction matrix proper
    cases proper with
    | atomic given => cases given
    | all first second => exact .exist first (.neg second)
  denied_exist := by
    intro var restriction matrix proper
    cases proper with
    | atomic given => cases given
    | exist first second => exact .all first (.neg second)
  instances := by
    intro quantifier var restriction matrix proper name
    cases proper with
    | atomic given => cases given
    | all first second | exist first second =>
      exact ⟨first.instantiate_makes _, second.instantiate_makes _⟩
  ruled := by
    intro symbol var restriction matrix proper
    cases proper with
    | atomic given => cases given
  regular := by
    intro symbol parts proper
    cases proper with
    | atomic given => cases given

end Formula

namespace Tableau

variable {tableau : Tableau} {fault : Fault}

/-! ## Where a fault comes from -/

section Search

variable {α β ε : Type} {error : ε}

theorem error_of_return {computation : Except ε α} {change : α -> β}
    (failed : (do return change (<- computation)) = Except.error error) :
    computation = .error error := by
  cases computation with
  | error other =>
    cases failed
    rfl
  | ok value => cases failed

end Search

/-- The expansion of a pending node has a fault. -/
def FailsAt [Memory] (tableau : Tableau) (fault : Fault) : Prop :=
  ∃ id found node, id ∈ tableau.opened ∧ tableau.branch? id = some found ∧
    node ∈ tableau.pending found ∧ tableau.expansion? node found = .error fault

theorem failsAt_of_complete [Memory] (failed : tableau.complete = .error fault) :
    tableau.FailsAt fault := by
  rcases exists_of_anyM (error_of_return failed) nofun with ⟨found, member, failed⟩
  rcases List.mem_filterMap.mp member with ⟨id, worked, known⟩
  rcases exists_of_anyM failed nofun with ⟨node, waiting, failed⟩
  exact ⟨id, found, node, worked, known, waiting, error_of_return failed⟩

theorem failsAt_of_step? [Memory] (failed : tableau.step? = .error fault) :
    tableau.FailsAt fault := by
  have undetermined := error_of_return failed
  unfold next? at undetermined
  cases completed : tableau.complete with
  | error other =>
    rw [completed] at undetermined
    cases undetermined
    exact failsAt_of_complete completed
  | ok complete =>
    rw [completed] at undetermined
    cases complete with
    | true => cases undetermined
    | false =>
      cases first : tableau.opened.head?.bind tableau.branch? with
      | none =>
        simp only [first] at undetermined
        cases undetermined
      | some found =>
        simp only [first] at undetermined
        rcases Option.bind_eq_some_iff.mp first with ⟨id, head, known⟩
        have unlisted := error_of_return (error_of_return undetermined)
        rcases exists_of_mapM_eq_error unlisted with ⟨node, waiting, failed⟩
        exact ⟨id, found, node, List.mem_of_head? head, known, waiting, error_of_return failed⟩

/-- A fault of a run comes from the expansion of some node on the way. -/
theorem failsAt_of_run [Memory] (regular : Regular tableau) {bound : Nat}
    (failed : (tableau.run bound).2 = some fault) :
    ∃ later, Advances tableau later ∧ later.FailsAt fault := by
  induction bound generalizing tableau with
  | zero =>
    rw [run] at failed
    split at failed
    · cases failed
    · next other incomplete =>
      cases failed
      exact ⟨tableau, .refl, failsAt_of_complete incomplete⟩
  | succ bound ih =>
    rw [run] at failed
    split at failed
    · next after stepped =>
      have advance := advance_of_step? regular stepped
      rcases ih (regular.updates (advance.updates regular)) failed with ⟨later, advances, fails⟩
      exact ⟨later, advances.head advance, fails⟩
    · cases failed
    · next other stepped =>
      cases failed
      exact ⟨tableau, .refl, failsAt_of_step? stepped⟩

/-- A fault of a construction that could start comes from the expansion of some node. -/
theorem failsAt_of_ofFormulas [Memory] {logic : Logic} {formulas : List Signed} {traced : Bool}
    {initial : Tableau} (begun : start logic formulas traced = .ok initial)
    (failed : ofFormulas logic formulas traced = .error fault) :
    ∃ later, Reachable logic formulas later ∧ later.FailsAt fault := by
  have regular := (Reachable.regular ⟨traced, initial, begun, .refl⟩ : Regular initial)
  rw [ofFormulas, begun] at failed
  have constructed : initial.construct = .error fault := failed
  rw [construct] at constructed
  split at constructed
  · cases constructed
  · next finished other ran =>
    cases constructed
    have stopped : (initial.run stepBound).2 = some fault := by rw [ran]
    rcases failsAt_of_run regular stopped with ⟨later, advances, fails⟩
    exact ⟨later, ⟨traced, initial, begun, advances⟩, fails⟩

/-! ## Formulas that were read -/

/-- Whatever is read can be put into a tableau of either calculus, with any evaluator.  The
tableau is constructed if no quantifier stands inside another, and if it is not, then because a
constant had to be put into the scope of a quantifier. -/
theorem exists_ofFormulas_of_written [Memory] (logic : Logic) (formulas : List Signed)
    (traced : Bool)
    (some_formula : formulas ≠ [])
    (written : forall signed, signed ∈ formulas -> signed.formula.Written) :
    ((forall signed, signed ∈ formulas -> signed.formula.nested = false) ->
      ∃ tableau, ofFormulas logic formulas traced = .ok tableau) ∧
    forall fault, ofFormulas logic formulas traced = .error fault ->
      ∃ existential, fault = .quantifierInScope existential := by
  have proper : forall signed, signed ∈ formulas -> signed.formula.Proper :=
    fun signed member => (written signed member).proper
  constructor
  · intro unnested
    rcases exists_ofFormulas_flat logic traced some_formula fun signed member =>
      (proper signed member).flat (unnested signed member) with ⟨tableau, constructed, _⟩
    exact ⟨tableau, constructed⟩
  · intro fault failed
    rcases exists_start_proper logic traced some_formula proper with ⟨initial, begun⟩
    rcases failsAt_of_ofFormulas begun failed with
      ⟨later, reachable, id, found, node, worked, known, waiting, outcome⟩
    rcases reachable.within (closed_of_hereditary Formula.hereditary_proper logic) proper with
      ⟨within, regular, _⟩
    have made := @expansion?_makes later _ _ Formula.hereditary_proper _ node
      (good_of_pending within regular worked known waiting) found
    rwa [outcome] at made

theorem exists_of_any_toOption {result : Except Fault Formula} {test : Formula -> Bool}
    (holds : result.toOption.any test = true) :
    ∃ formula, result = .ok formula ∧ test formula = true := by
  cases result with
  | error fault => cases holds
  | ok formula => exact ⟨formula, rfl, holds⟩

open scoped Memory

/-- Quantifiers side by side give a tableau under any signs, and quantifiers inside each other a
fault. -/
theorem ofFormulas_side_by_side_and_nested : (∃ first second,
      Formula.parse "~[forall X P(X)](Q(X) & ~R(X, a)) | [exists Y S(Y)]T(Y)" = .ok first ∧
      Formula.parseSided .mixed "~P*(a) -> ~[exists X Q(X)]P(X)" = .ok second ∧
      ∃ tableau, ofFormulas (.bilateral (some fun _ => .evidence ⟨.t, .t⟩))
        [⟨.n, first⟩, ⟨.m, second⟩, ⟨.e, first⟩, ⟨.f, second⟩, ⟨.t, second⟩] false = .ok tableau) ∧
    ∃ formula, Formula.parse "[forall X P(X)][exists Y Q(Y)]R(X, Y)" = .ok formula ∧
      ∃ existential, ofFormulas .standard [⟨.t, formula⟩] false =
        .error (.quantifierInScope existential) := by
  have readFirst : ((Formula.parse "~[forall X P(X)](Q(X) & ~R(X, a)) | [exists Y S(Y)]T(Y)")
      |>.toOption.any fun formula => !formula.nested) = true := by decide +kernel
  have readSecond : ((Formula.parseSided .mixed "~P*(a) -> ~[exists X Q(X)]P(X)")
      |>.toOption.any fun formula => !formula.nested) = true := by decide +kernel
  have readNested : ((Formula.parse "[forall X P(X)][exists Y Q(Y)]R(X, Y)")
      |>.toOption.any fun formula =>
        (ofFormulas .standard [⟨.t, formula⟩] false).toOption.isNone) = true := by
    decide +kernel
  constructor
  · rcases exists_of_any_toOption readFirst with ⟨first, parsed, unnested⟩
    rcases exists_of_any_toOption readSecond with ⟨second, parsed', unnested'⟩
    rw [Bool.not_eq_true'] at unnested unnested'
    refine ⟨first, second, parsed, parsed', ?_⟩
    apply (exists_ofFormulas_of_written _ _ _ (List.cons_ne_nil _ _) ?_).1
    · simp [unnested, unnested']
    · have written : first.Written := ⟨_, .inl parsed⟩
      have written' : second.Written := ⟨_, .inr ⟨_, .inl parsed'⟩⟩
      simp [written, written']
  · rcases exists_of_any_toOption readNested with ⟨formula, parsed, failed⟩
    refine ⟨formula, parsed, ?_⟩
    have written : formula.Written := ⟨_, .inl parsed⟩
    have only := (exists_ofFormulas_of_written .standard [⟨.t, formula⟩] false
      (List.cons_ne_nil _ _) (by simp [written])).2
    cases outcome : ofFormulas .standard [⟨.t, formula⟩] false with
    | error fault =>
      rcases only fault outcome with ⟨existential, rfl⟩
      exact ⟨existential, rfl⟩
    | ok tableau =>
      rw [outcome] at failed
      cases failed

end Tableau
end WeakKleene
