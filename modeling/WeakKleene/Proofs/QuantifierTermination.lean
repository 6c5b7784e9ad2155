import WeakKleene.Formula.Equality
import WeakKleene.Proofs.InstanceBudget
import WeakKleene.Proofs.NestedQuantifiers

namespace WeakKleene

/-!
# When tableaux with quantifiers come to an end

A run over flat formulas can go on forever in one way only: a universal formula
is instantiated anew and anew on a branch without constants.  Every other
expansion lowers what is left to do.

Where an initial formula has a constant there are no such branches.  Otherwise
the first instantiation brings a constant, if the instances mention the bound
variable, since the constant that is put for it is new on the branch.  A
universal formula that does not mention its variable gives the same instance
each time, and the run does not stop.
-/

namespace Tableau

variable [Memory] {tableau after : Tableau} {formulas : List Signed}

/-! ## Runs without a bound -/

/-- A run ends by itself. -/
def Stops (tableau : Tableau) : Prop := ∃ steps, (tableau.run steps).1.step? = .ok none

/-- The next expansion instantiates a universal formula that was instantiated before, on a branch
without constants. -/
def Renews (tableau : Tableau) : Prop :=
  ∃ branch found node expansion, tableau.next? = .ok (some (branch, node.id, expansion)) ∧
    branch ∈ tableau.opened ∧ tableau.branch? branch = some found ∧
    node ∈ tableau.pending found ∧ node.signed.formula.isUniversal = true ∧
    tableau.namesOn found = [] ∧ found.usedFor node.id ≠ []

theorem run_zero (tableau : Tableau) : (tableau.run 0).1 = tableau := by
  rw [run]
  split <;> rfl

theorem run_succ (stepped : tableau.step? = .ok (some after)) (steps : Nat) :
    tableau.run (steps + 1) = after.run steps := by
  rw [run, stepped]

/-- What has stopped does not change any more. -/
theorem run_stays {steps : Nat} (stopped : (tableau.run steps).1.step? = .ok none) (more : Nat) :
    (tableau.run (steps + more)).1 = (tableau.run steps).1 := by
  induction steps generalizing tableau with
  | zero =>
    rw [run_zero] at stopped ⊢
    cases more with
    | zero => exact run_zero tableau
    | succ more => rw [Nat.zero_add, run, stopped]
  | succ steps ih =>
    rw [Nat.add_right_comm]
    cases stepped : tableau.step? with
    | error fault => rw [run, run, stepped]
    | ok next =>
      cases next with
      | none => rw [run, run, stepped]
      | some after =>
        rw [run_succ stepped] at stopped ⊢
        rw [run_succ stepped]
        exact ih stopped

theorem Stops.of_step? (stepped : tableau.step? = .ok (some after)) (stops : after.Stops) :
    tableau.Stops := by
  rcases stops with ⟨steps, stopped⟩
  exact ⟨steps + 1, by rwa [run_succ stepped]⟩

theorem not_renews_of_stopped (stopped : tableau.step? = .ok none) : ¬ tableau.Renews := by
  rintro ⟨branch, found, node, expansion, determined, _⟩
  rw [step?, determined] at stopped
  cases stopped

/-! ## The only way to go on forever -/

omit [Memory] in
/-- What is left on a branch depends on its contents and records only. -/
theorem expense_congr {other : Branch} (same : after.contents other = tableau.contents other) :
    after.expense other = tableau.expense other := by
  have names : after.namesOn other = tableau.namesOn other := by
    rw [namesOn, formulasOn, same, namesOn, formulasOn]
  have demands : after.demands other = tableau.demands other := by
    rw [Tableau.demands, same, Tableau.demands]
  have price : after.price other = tableau.price other := by
    funext entry
    rw [Tableau.price, room, names, demands, Tableau.price, room]
  rw [expense, same, price, expense]

section

variable (reachable : Reachable .standard formulas tableau)
variable (flat : forall signed, signed ∈ formulas -> signed.formula.Flat)
include reachable flat

/-- A step of a run lowers what is left to do, unless it renews an instantiation. -/
theorem Reachable.potential_lt (stepped : tableau.step? = .ok (some after))
    (progress : ¬ tableau.Renews) : after.potential 7 expense < tableau.potential 7 expense := by
  have regular := reachable.regular
  rcases reachable.within (closed_of_hereditary hereditary_flat .standard) flat with
    ⟨within, _, standard⟩
  rcases return_eq_ok.mp stepped with ⟨next, determined, equal⟩
  rcases next?_cases regular determined with
    ⟨nothing, _⟩ | ⟨branch, found, node, expansion, chosen, worked, known, waiting, proposed⟩
  · rw [nothing] at equal
    cases equal
  · have flatNode : node.signed.formula.Flat := good_of_pending within regular worked known waiting
    rcases mem_contents_of_pending regular waiting with ⟨_, unprocessed⟩
    have expanded := apply_expanded expansion regular known worked
      ((mem_pending_iff regular.nodeNumbers).mp waiting).2.1
    rw [chosen] at equal determined
    rw [<- Option.some.inj equal]
    refine expanded.potential_lt regular worked known ?_ (fun _ => expense_congr) ?_
    · rcases exists_rule_of_expansion? standard unprocessed proposed with ⟨rule, ruled, rfl⟩
      exact Nat.lt_succ_of_le (Standard.flatRule_of_rule flatNode ruled).few
    · intro conclusion new listed prolonged
      refine expense_prolonged_lt standard regular (reachable.listed known) flatNode waiting
        proposed ?_ listed prolonged
      intro universal silent
      by_contra used
      exact progress ⟨branch, found, node, expansion, determined, worked, known, waiting,
        universal, silent, used⟩

/-- A step of a run over flat formulas leads to another tableau, or the run has stopped. -/
theorem Reachable.step_cases :
    tableau.step? = .ok none ∨
      ∃ after, tableau.step? = .ok (some after) ∧ Reachable .standard formulas after := by
  rcases (reachable.faultless_of_flat flat).step? with ⟨_ | after, stepped⟩
  · exact .inl stepped
  · rcases reachable with ⟨traced, initial, begun, advances⟩
    have regular := (Reachable.regular ⟨traced, initial, begun, advances⟩ : Regular tableau)
    exact .inr ⟨after, stepped, traced, initial, begun,
      advances.tail (advance_of_step? regular stepped)⟩

/-- Without renewals a run stops, as the work that is left falls. -/
theorem Reachable.stops_of_not_renews (progress : forall steps, ¬ (tableau.run steps).1.Renews) :
    tableau.Stops := by
  induction left : tableau.potential 7 expense using Nat.strong_induction_on
    generalizing tableau with
  | _ left ih =>
    rcases reachable.step_cases flat with stopped | ⟨after, stepped, reachable'⟩
    · exact ⟨0, by rwa [run_zero]⟩
    · have here := progress 0
      rw [run_zero] at here
      have falls := reachable.potential_lt flat stepped here
      rw [left] at falls
      refine .of_step? stepped (ih _ falls reachable' ?_ rfl)
      intro steps
      rw [<- run_succ stepped]
      exact progress (steps + 1)

/-- A run over flat formulas stops just when it does not renew instantiations forever. -/
theorem Reachable.stops_iff :
    tableau.Stops ↔ ∃ bound, forall steps, bound ≤ steps -> ¬ (tableau.run steps).1.Renews := by
  constructor
  · rintro ⟨bound, stopped⟩
    refine ⟨bound, fun steps later => ?_⟩
    rcases Nat.exists_eq_add_of_le later with ⟨more, rfl⟩
    rw [run_stays stopped]
    exact not_renews_of_stopped stopped
  · rintro ⟨bound, settled⟩
    induction bound generalizing tableau with
    | zero => exact reachable.stops_of_not_renews flat fun steps => settled steps (Nat.zero_le _)
    | succ bound ih =>
      rcases reachable.step_cases flat with stopped | ⟨after, stepped, reachable'⟩
      · exact ⟨0, by rwa [run_zero]⟩
      · refine .of_step? stepped (ih reachable' ?_)
        intro steps later
        rw [<- run_succ stepped]
        exact settled (steps + 1) (Nat.succ_le_succ later)

end

end Tableau

/-! ## Instances that show a new constant -/

variable {var : String} {expansion : Expansion}

namespace Formula

open Tableau (exists_of_bind_eq_ok)

/-- Whether every universal formula inside mentions its variable, in both of its parts. -/
def mentionsBound : Formula -> Bool
  | neg body => body.mentionsBound
  | join _ left right => left.mentionsBound && right.mentionsBound
  | quant quantifier var restriction matrix =>
    (quantifier != .all || (restriction.termNames.contains var && matrix.termNames.contains var)) &&
      (restriction.mentionsBound && matrix.mentionsBound)
  | _ => true

/-- Instances of the universal formulas inside show the constants that rules make up, and nothing
that is written there can be mistaken for one of these. -/
structure Discernible (formula : Formula) : Prop where
  mentions : formula.mentionsBound = true
  avoids : forall count : Nat, ¬ ("c_" ++ toString count).toList <:+: formula.text.toList

/-- Parts are written as they are, or in parentheses. -/
theorem infix_partChars (formula : Formula) : formula.text.toList <:+: formula.partChars := by
  unfold partChars enclose
  split
  · exact ⟨['('], [')'], by simp⟩
  · exact List.infix_rfl

theorem infix_neg (body : Formula) : body.text.toList <:+: (neg body).text.toList := by
  rw [text_neg_toList]
  exact (infix_partChars body).trans (List.suffix_cons _ _).isInfix

theorem infix_join (connective : Connective) (left right : Formula) :
    left.text.toList <:+: (join connective left right).text.toList ∧
      right.text.toList <:+: (join connective left right).text.toList := by
  rw [text_join_toList]
  constructor
  · exact (infix_partChars left).trans (List.prefix_append _ _).isInfix
  · refine (infix_partChars right).trans (List.IsSuffix.isInfix ?_)
    exact ⟨left.partChars ++ ' ' :: (connective.symbol.toList ++ [' ']), by simp⟩

theorem infix_quant (quantifier : Quantifier) (var : String) (restriction matrix : Formula) :
    restriction.text.toList <:+: (quant quantifier var restriction matrix).text.toList ∧
      matrix.text.toList <:+: (quant quantifier var restriction matrix).text.toList := by
  have written : (quant quantifier var restriction matrix).text.toList =
      ('[' :: (quantifier.symbol.toList ++ (var.toList ++ [' ']))) ++
        (restriction.text.toList ++ (']' :: matrix.text.toList)) := by
    simp [text]
  rw [written]
  constructor
  · exact (List.prefix_append _ _).isInfix.trans (List.suffix_append _ _).isInfix
  · exact ((List.suffix_cons _ _).trans (List.suffix_append _ _)).isInfix.trans
      (List.suffix_append _ _).isInfix

namespace Discernible

theorem of_neg {body : Formula} (discernible : (neg body).Discernible) : body.Discernible :=
  ⟨discernible.mentions,
    fun count within => discernible.avoids count (within.trans (infix_neg body))⟩

theorem of_join {connective : Connective} {left right : Formula}
    (discernible : (join connective left right).Discernible) :
    left.Discernible ∧ right.Discernible := by
  rcases Bool.and_eq_true_iff.mp discernible.mentions with ⟨first, second⟩
  rcases infix_join connective left right with ⟨atLeft, atRight⟩
  exact ⟨⟨first, fun count within => discernible.avoids count (within.trans atLeft)⟩,
    ⟨second, fun count within => discernible.avoids count (within.trans atRight)⟩⟩

theorem of_quant {quantifier : Quantifier} {restriction matrix : Formula}
    (discernible : (quant quantifier var restriction matrix).Discernible) :
    restriction.Discernible ∧ matrix.Discernible := by
  rcases Bool.and_eq_true_iff.mp discernible.mentions with ⟨_, parts⟩
  rcases Bool.and_eq_true_iff.mp parts with ⟨first, second⟩
  rcases infix_quant quantifier var restriction matrix with ⟨inRestriction, inMatrix⟩
  exact ⟨⟨first, fun count within => discernible.avoids count (within.trans inRestriction)⟩,
    ⟨second, fun count within => discernible.avoids count (within.trans inMatrix)⟩⟩

theorem mentioned {restriction matrix : Formula}
    (discernible : (quant .all var restriction matrix).Discernible) :
    var ∈ restriction.termNames ∧ var ∈ matrix.termNames := by
  rcases Bool.and_eq_true_iff.mp discernible.mentions with ⟨mentions, _⟩
  simpa using mentions

/-- It is enough that no new constant can begin. -/
theorem of_absent {formula : Formula} (mentions : formula.mentionsBound = true)
    (absent : ¬ ['c', '_'] <:+: formula.text.toList) : formula.Discernible := by
  refine ⟨mentions, fun count within => absent (List.IsInfix.trans ?_ within)⟩
  exact ⟨[], (toString count).toList, by rw [String.toList_append]; rfl⟩

/-- What a formula is taken apart into is discernible if the formula is. -/
theorem of_components {formula part : Formula} (discernible : formula.Discernible)
    (component : part ∈ Standard.components formula) : part.Discernible := by
  cases formula with
  | neg body => exact List.mem_singleton.mp component ▸ discernible.of_neg
  | join connective left right =>
    rcases List.mem_cons.mp component with rfl | later
    · exact discernible.of_join.1
    · exact List.mem_singleton.mp later ▸ discernible.of_join.2
  | _ => exact List.mem_singleton.mp component ▸ discernible

end Discernible

variable {formula : Formula}

theorem withConstant_of_not_mentioned (free : formula.QuantifierFree)
    (unmentioned : var ∉ formula.termNames) (name : String) :
    formula.withConstant var name = .ok formula := by
  have arguments {args : List Term} (unmentioned : var ∉ args.map Term.name) :
      args.map (Term.replace [(var, .const name)]) = args := by
    refine (List.map_congr_left fun term given => ?_).trans (List.map_id args)
    rw [Term.replace_singleton, if_neg, id]
    exact fun same => unmentioned (List.mem_map.mpr ⟨term, given, same⟩)
  induction free with
  | @basic formula given =>
    cases formula with
    | atom => rfl
    | pred predicate args | bilateral predicate args =>
      simp only [withConstant, instantiate, arguments unmentioned]
    | _ => cases given
  | neg inner ih =>
    have same := ih unmentioned
    rw [withConstant] at same
    rw [withConstant, instantiate, same]
    rfl
  | join connective first second atFirst atSecond =>
    have apart := List.mem_append.not.mp unmentioned
    have sameLeft := atFirst fun mentioned => apart (.inl mentioned)
    have sameRight := atSecond fun mentioned => apart (.inr mentioned)
    rw [withConstant] at sameLeft sameRight
    rw [withConstant, instantiate, sameLeft, sameRight]
    rfl

/-- An instance without constants is the formula itself. -/
theorem eq_of_withConstant {made : Formula} {name : String} (free : formula.QuantifierFree)
    (done : formula.withConstant var name = .ok made)
    (silent : made.constants = []) : made = formula := by
  have unmentioned : var ∉ formula.termNames := by
    intro mentioned
    have occurs := mem_constants_of_mentioned free mentioned done
    rw [silent] at occurs
    cases occurs
  rw [withConstant_of_not_mentioned free unmentioned] at done
  exact (Except.ok.inj done).symm

/-- Constants can be found in the written form. -/
theorem infix_of_mem_constants {name : String} (free : formula.QuantifierFree)
    (occurs : name ∈ formula.constants) :
    name.toList <:+: formula.text.toList := by
  have applied {predicate : String} {args : List Term}
      (occurs : name ∈ (args.filter Term.isConst).map Term.name) :
      name.toList <:+: (application predicate args).toList := by
    rcases List.mem_map.mp occurs with ⟨term, listed, rfl⟩
    have given := List.mem_of_mem_filter listed
    have inside : term.name.toList <:+: argumentChars args := by
      rw [argumentChars, String.toList_intercalate]
      refine infix_intercalate ?_
      exact List.mem_map_of_mem (List.mem_map_of_mem given)
    rw [application_toList, if_neg (List.ne_nil_of_mem given)]
    exact inside.trans ⟨predicate.toList ++ ['('], [')'], by simp⟩
  induction free with
  | @basic formula given =>
    cases formula with
    | atom => cases occurs
    | pred | bilateral => exact applied occurs
    | _ => cases given
  | @neg body inner ih => exact (ih occurs).trans (infix_neg body)
  | @join left right connective first second atFirst atSecond =>
    rcases infix_join connective left right with ⟨inLeft, inRight⟩
    rcases List.mem_append.mp occurs with here | there
    · exact (atFirst here).trans inLeft
    · exact (atSecond there).trans inRight

end Formula

namespace Standard

open Formula

variable {signed part : Signed} {situation : Situation} {rule : Rule} {conclusion : List Signed}

/-- What a rule for a discernible formula concludes without constants is discernible. -/
theorem FlatRule.discernible (derived : FlatRule signed situation rule)
    (discernible : signed.formula.Discernible) (chosen : conclusion ∈ rule.conclusions)
    (member : part ∈ conclusion) (silent : part.formula.constants = []) :
    part.formula.Discernible := by
  have unchanged {quantifier : Quantifier} {var : String} {restriction matrix : Formula}
      {names : List String} (quantified : signed.formula = .quant quantifier var restriction matrix)
      (first : restriction.QuantifierFree) (second : matrix.QuantifierFree)
      (instantiates : Instantiates var restriction matrix names rule.conclusions) :
      part.formula.Discernible := by
    rw [quantified] at discernible
    rcases instantiates.parts conclusion chosen part member with ⟨name, _, here | there⟩
    · exact eq_of_withConstant first here silent ▸ discernible.of_quant.1
    · exact eq_of_withConstant second there silent ▸ discernible.of_quant.2
  cases derived with
  | apart particular nothing unrecorded analysis =>
    exact discernible.of_components (analysis.parts conclusion chosen part member)
  | witness existential first second unrecorded instantiates =>
    exact unchanged existential first second instantiates
  | instantiation universal first second recorded drawn instantiates =>
    exact unchanged universal first second instantiates

/-- Where there are no constants, an instantiation of a discernible formula shows the new one. -/
theorem FlatRule.infix_fresh (derived : FlatRule signed situation rule)
    (discernible : signed.formula.Discernible) (recorded : rule.constant ≠ none)
    (nothing : situation.existing = []) (chosen : conclusion ∈ rule.conclusions) :
    ∃ part, part ∈ conclusion ∧ situation.fresh.toList <:+: part.formula.text.toList := by
  cases derived with
  | apart particular nothing unrecorded | witness existential first second unrecorded =>
    exact absurd unrecorded recorded
  | instantiation universal first second _ drawn instantiates =>
    rw [universal] at discernible
    rcases discernible.mentioned with ⟨inRestriction, inMatrix⟩
    rcases List.exists_mem_of_ne_nil _ (instantiates.short conclusion chosen).1 with ⟨part, member⟩
    refine ⟨part, member, ?_⟩
    have shows' {formula : Formula} {var : String} (free : formula.QuantifierFree)
        (mentioned : var ∈ formula.termNames)
        (done : formula.withConstant var situation.fresh = .ok part.formula) :
        situation.fresh.toList <:+: part.formula.text.toList := by
      rcases exists_withConstant free var situation.fresh with ⟨made, done', free'⟩
      rw [done] at done'
      rw [<- Except.ok.inj done'] at free'
      exact infix_of_mem_constants free' (mem_constants_of_mentioned free mentioned done)
    rcases drawn with ⟨_, occurs, _⟩ | ⟨one, _⟩
    · rw [nothing] at occurs
      cases occurs
    · rcases instantiates.parts conclusion chosen part member with ⟨name, given, made⟩
      rw [nothing, one, List.nil_append, List.mem_singleton] at given
      rw [given] at made
      exact made.elim (shows' first inRestriction) (shows' second inMatrix)

end Standard

/-! ## Branches without constants -/

namespace Tableau

variable {tableau after : Tableau} {formulas : List Signed}

/-- A branch on which nothing was instantiated, with discernible formulas. -/
structure Untouched (tableau : Tableau) (found : Branch) : Prop where
  discernible : forall signed, signed ∈ tableau.formulasOn found -> signed.formula.Discernible
  unused : found.instantiated = []

variable {found : Branch} {signed : Signed} {conclusion : List Signed}

/-- A prolonged branch without constants is untouched: it had no constants before, and an
instantiation would have brought one. -/
theorem Succession.untouched [Memory] {new : Branch} {node : Node}
    (succession : Succession .standard formulas tableau after found new node expansion conclusion)
    (flat : node.signed.formula.Flat)
    (before : tableau.namesOn found = [] -> Untouched tableau found)
    (silent : after.namesOn new = []) : Untouched after new := by
  have prolonged := succession.prolonged
  have constants := namesOn_eq_nil_iff.mp silent
  have silent' : tableau.namesOn found = [] := namesOn_eq_nil_iff.mpr fun signed member =>
    constants signed (prolonged.mem_old (by rwa [formulasOn_mark]))
  rcases before silent' with ⟨discernible, unused⟩
  rcases mem_contents_of_pending succession.reachable.regular succession.waiting with
    ⟨present, unprocessed⟩
  rcases exists_rule_of_expansion? succession.reachable.logic_eq unprocessed
    succession.proposed with ⟨rule, ruled, rfl⟩
  have derived := Standard.flatRule_of_rule flat ruled
  have premise := discernible node.signed (mem_formulasOn_iff.mpr ⟨node.id, present⟩)
  have all (signed : Signed) (member : signed ∈ after.formulasOn new) :
      signed.formula.Discernible := by
    rcases prolonged.mem_new member with old | part
    · rw [formulasOn_mark] at old
      exact discernible signed old
    · exact derived.discernible premise succession.chosen part (constants signed member)
  refine ⟨all, ?_⟩
  rw [prolonged.instantiated]
  cases recorded : rule.constant with
  | none =>
    rw [show (Expansion.ofRule rule).constant = none from recorded]
    exact unused
  | some name =>
    rcases succession.worked with ⟨branch, _, known⟩
    rcases succession.regular with ⟨id, regular⟩
    rcases derived.infix_fresh premise (by rw [recorded]; exact Option.some_ne_none name)
      (((succession.reachable.listed known).existing_eq_nil_iff node).mpr silent')
      succession.chosen with ⟨part, member, shown⟩
    rcases (regular.holds_iff part).mp (prolonged.holds part member) with
      ⟨other, there, sameText, _⟩
    rw [<- sameText] at shown
    exact absurd shown ((all other there).avoids tableau.nodes.size)

theorem Reachable.untouched [Memory] (reachable : Reachable .standard formulas tableau)
    (flat : forall signed, signed ∈ formulas -> signed.formula.Flat)
    (discernible : forall signed, signed ∈ formulas -> signed.formula.Discernible) :
    forall id, id ∈ tableau.opened -> forall found, tableau.branch? id = some found ->
      tableau.namesOn found = [] -> Untouched tableau found := by
  apply reachable.of_branches fun tableau found =>
    tableau.namesOn found = [] -> Untouched tableau found
  · intro traced initial begun id worked found known _
    rcases start_prolonged begun worked known with ⟨trace, prolonged⟩
    refine ⟨?_, prolonged.instantiated⟩
    rw [start_formulasOn begun worked known]
    exact discernible
  · intro before after found _ unchanged untouched silent
    rw [namesOn, formulasOn, unchanged] at silent
    rcases untouched silent with ⟨everything, unused⟩
    refine ⟨?_, unused⟩
    rwa [formulasOn, unchanged]
  · intro before after old new node expansion conclusion succession untouched silent
    rcases succession.worked with ⟨branch, worked, known⟩
    rcases succession.reachable.within (closed_of_hereditary hereditary_flat .standard) flat with
      ⟨within, regular, _⟩
    have flatNode : node.signed.formula.Flat :=
      good_of_pending within regular worked known succession.waiting
    exact succession.untouched flatNode untouched silent

/-- Formulas whose instances show the new constants do not lead to renewals. -/
theorem Reachable.not_renews_of_discernible [Memory]
    (reachable : Reachable .standard formulas tableau)
    (flat : forall signed, signed ∈ formulas -> signed.formula.Flat)
    (discernible : forall signed, signed ∈ formulas -> signed.formula.Discernible) :
    ¬ tableau.Renews := by
  rintro ⟨branch, found, node, _, _, worked, known, _, _, silent, used⟩
  apply used
  rw [Branch.usedFor,
    (reachable.untouched flat discernible branch worked found known silent).unused]
  rfl

/-- Where an initial formula has a constant, every branch has it. -/
theorem Reachable.not_renews_of_constant [Memory] (reachable : Reachable .standard formulas tableau)
    (given : signed ∈ formulas) (named : signed.formula.constants ≠ []) :
    ¬ tableau.Renews := by
  rintro ⟨branch, found, node, _, _, worked, known, _, _, silent, _⟩
  have there := reachable.carries branch worked found known signed given
  rcases List.exists_mem_of_ne_nil _ named with ⟨name, occurs⟩
  have listed := mem_namesOn_iff.mpr ⟨signed, there, occurs⟩
  rw [silent] at listed
  cases listed

/-- The run over formulas that were read, without quantifiers inside each other, stops just when it
does not renew instantiations forever.  That is so if there is a constant in one of the formulas,
or if all universal formulas mention their variables and no formula looks as if it spoke of a
constant that rules make up. -/
theorem stops_iff_not_renewing_forever [Memory] (formulas : List Signed) (traced : Bool)
    (some_formula : formulas ≠ [])
    (read : forall signed, signed ∈ formulas -> ∃ text, Formula.parse text = .ok signed.formula)
    (unnested : forall signed, signed ∈ formulas -> signed.formula.nested = false) :
    ∃ initial, start .standard formulas traced = .ok initial ∧ (initial.Stops ↔
        ∃ bound, forall steps, bound ≤ steps -> ¬ (initial.run steps).1.Renews) ∧
      ((∃ signed, signed ∈ formulas ∧ signed.formula.constants ≠ []) -> initial.Stops) ∧
      ((forall signed, signed ∈ formulas -> signed.formula.Discernible) -> initial.Stops) := by
  have proper : forall signed, signed ∈ formulas -> signed.formula.Proper := by
    intro signed member
    rcases read signed member with ⟨text, parsed⟩
    exact Formula.parse_proper parsed
  have flat : forall signed, signed ∈ formulas -> signed.formula.Flat :=
    fun signed member => (proper signed member).flat (unnested signed member)
  rcases exists_start_proper .standard traced some_formula proper with ⟨initial, begun⟩
  have reachable : Reachable .standard formulas initial := ⟨traced, initial, begun, .refl⟩
  have along (steps : Nat) : Reachable .standard formulas (initial.run steps).1 :=
    ⟨traced, initial, begun, advances_run reachable.regular steps⟩
  refine ⟨initial, begun, reachable.stops_iff flat, ?_, ?_⟩
  · rintro ⟨signed, given, named⟩
    exact reachable.stops_of_not_renews flat fun steps =>
      (along steps).not_renews_of_constant given named
  · intro discernible
    exact reachable.stops_of_not_renews flat fun steps =>
      (along steps).not_renews_of_discernible flat discernible

open scoped Memory

/-- A formula without constants comes to an end if it mentions the bound variables, and one that
does not mention them comes to an end beside a constant. -/
theorem stops_by_mention_and_by_constant :
    (∃ first second, Formula.parse "[forall X P(X)]Q(X)" = .ok first ∧
      Formula.parse "[exists X P(X)](~Q(X)) | [forall Y Q(Y)]has_part(Y, Y)" = .ok second ∧
      ∃ initial, start .standard [⟨.t, first⟩, ⟨.m, second⟩, ⟨.n, second⟩] false = .ok initial ∧
        initial.Stops) ∧
    ∃ first second, Formula.parse "[forall X p]q" = .ok first ∧ Formula.parse "R(a)" = .ok second ∧
      ∃ initial, start .standard [⟨.t, first⟩, ⟨.e, second⟩] false = .ok initial ∧
        initial.Stops := by
  have tested (text : String) (passes : ((Formula.parse text).toOption.any fun formula =>
      !formula.nested && formula.mentionsBound &&
        decide (¬ ['c', '_'] <:+: formula.text.toList)) = true) :
      ∃ formula, Formula.parse text = .ok formula ∧ formula.nested = false ∧
        formula.Discernible := by
    rcases exists_of_any_toOption passes with ⟨formula, parsed, test⟩
    rw [Bool.and_eq_true, Bool.and_eq_true, Bool.not_eq_true', decide_eq_true_eq] at test
    exact ⟨formula, parsed, test.1.1, .of_absent test.1.2 test.2⟩
  constructor
  · rcases tested "[forall X P(X)]Q(X)" (by decide +kernel) with
      ⟨first, parsed, unnested, discernible⟩
    rcases tested "[exists X P(X)](~Q(X)) | [forall Y Q(Y)]has_part(Y, Y)" (by decide +kernel) with
      ⟨second, parsed', unnested', discernible'⟩
    refine ⟨first, second, parsed, parsed', ?_⟩
    rcases stops_iff_not_renewing_forever [⟨.t, first⟩, ⟨.m, second⟩, ⟨.n, second⟩] false
      (List.cons_ne_nil _ _) (by simpa using ⟨⟨_, parsed⟩, ⟨_, parsed'⟩⟩)
      (by simp [unnested, unnested']) with ⟨initial, begun, _, _, stops⟩
    exact ⟨initial, begun, stops (by simp [discernible, discernible'])⟩
  · have passes : ((Formula.parse "[forall X p]q").toOption.any fun formula =>
        !formula.nested) = true := by decide +kernel
    have passes' : ((Formula.parse "R(a)").toOption.any fun formula =>
        !formula.nested && !formula.constants.isEmpty) = true := by decide +kernel
    rcases exists_of_any_toOption passes with ⟨first, parsed, unnested⟩
    rcases exists_of_any_toOption passes' with ⟨second, parsed', test⟩
    rw [Bool.and_eq_true, Bool.not_eq_true', Bool.not_eq_true', List.isEmpty_eq_false_iff] at test
    rw [Bool.not_eq_true'] at unnested
    refine ⟨first, second, parsed, parsed', ?_⟩
    rcases stops_iff_not_renewing_forever [⟨.t, first⟩, ⟨.e, second⟩] false
      (List.cons_ne_nil _ _) (by simpa using ⟨⟨_, parsed⟩, ⟨_, parsed'⟩⟩)
      (by simp [unnested, test.1]) with ⟨initial, begun, _, stops, _⟩
    exact ⟨initial, begun, stops ⟨⟨.e, second⟩, by simp, test.2⟩⟩

/-! ## A universal formula that does not mention its variable -/

def vacuous : Formula := .quant .all "X" (.atom "p") (.atom "q")

def vacuousParts : List Signed := [⟨.t, vacuous⟩, ⟨.f, .atom "p"⟩, ⟨.t, .atom "q"⟩]

theorem rule_vacuous {situation : Situation} {rule : Rule} (member : signed ∈ vacuousParts)
    (ruled : Standard.rule signed situation = .ok (some rule)) :
    rule.conclusions = [[⟨.f, .atom "p"⟩], [⟨.t, .atom "q"⟩]] ∧
      rule.constant = situation.universalConstant? := by
  simp only [vacuousParts, List.mem_cons, List.not_mem_nil, or_false] at member
  rcases member with rfl | rfl | rfl
  · cases chosen : situation.universalConstant? with
    | none =>
      simp only [vacuous, Standard.rule, Standard.universalChoice, chosen] at ruled
      cases ruled
    | some name =>
      simp only [vacuous, Standard.rule, Standard.universalChoice, chosen] at ruled
      cases ruled
      exact ⟨rfl, rfl⟩
  · cases ruled
  · cases ruled

/-- Without constants a universal formula is instantiated with a new one. -/
theorem universalConstant?_situationOf [Memory] (node : Node) (listed : Listed tableau found)
    (nothing : tableau.namesOn found = []) :
    (tableau.situationOf node found).universalConstant? =
      some ("c_" ++ toString tableau.nodes.size) := by
  rw [Situation.universalConstant?, (listed.existing_eq_nil_iff node).mpr nothing]
  rfl

theorem constants_vacuousParts (member : signed ∈ vacuousParts) :
    signed.formula.constants = [] := by
  simp only [vacuousParts, List.mem_cons, List.not_mem_nil, or_false] at member
  rcases member with rfl | rfl | rfl <;> rfl

/-- A branch of nothing but these, on which no node is done with. -/
structure Idle (tableau : Tableau) (found : Branch) : Prop where
  parts : forall signed, signed ∈ tableau.formulasOn found -> signed ∈ vacuousParts
  undone : found.processed = []

theorem Idle.namesOn_eq_nil (idle : Idle tableau found) : tableau.namesOn found = [] :=
  namesOn_eq_nil_iff.mpr fun signed member => constants_vacuousParts (idle.parts signed member)

/-- Such a branch stays as it is, except that the formula is instantiated with a new constant. -/
theorem Succession.idle [Memory] {new : Branch} {node : Node}
    (succession : Succession .standard formulas tableau after found new node expansion conclusion)
    (idle : Idle tableau found) : Idle after new := by
  have prolonged := succession.prolonged
  rcases succession.worked with ⟨branch, _, known⟩
  rcases mem_contents_of_pending succession.reachable.regular succession.waiting with
    ⟨present, unprocessed⟩
  rcases exists_rule_of_expansion? succession.reachable.logic_eq unprocessed
    succession.proposed with ⟨rule, ruled, rfl⟩
  rcases rule_vacuous (idle.parts _ (mem_formulasOn_iff.mpr ⟨_, present⟩)) ruled with
    ⟨conclusions, constant⟩
  constructor
  · intro signed member
    rcases prolonged.mem_new member with old | part
    · rw [formulasOn_mark] at old
      exact idle.parts signed old
    · have chosen := succession.chosen
      rw [show (Expansion.ofRule rule).conclusions = _ from conclusions] at chosen
      simp only [List.mem_cons, List.not_mem_nil, or_false] at chosen
      rcases chosen with rfl | rfl
      · rw [List.mem_singleton.mp part]
        exact List.mem_cons_of_mem _ List.mem_cons_self
      · rw [List.mem_singleton.mp part]
        exact List.mem_cons_of_mem _ (List.mem_cons_of_mem _ List.mem_cons_self)
  · rw [prolonged.processed, show (Expansion.ofRule rule).constant = _ from constant,
      universalConstant?_situationOf node (succession.reachable.listed known)
        idle.namesOn_eq_nil, Branch.mark, if_neg]
    · exact idle.undone
    · rw [String.isEmpty_iff, <- String.toList_inj, String.toList_append]
      exact List.cons_ne_nil _ _

theorem Reachable.idle [Memory] (reachable : Reachable .standard [⟨.t, vacuous⟩] tableau) :
    forall id, id ∈ tableau.opened -> forall found, tableau.branch? id = some found ->
      Idle tableau found := by
  apply reachable.of_branches Idle
  · intro traced initial begun id worked found known
    rcases start_prolonged begun worked known with ⟨trace, prolonged⟩
    refine ⟨?_, prolonged.processed⟩
    rw [start_formulasOn begun worked known]
    exact fun signed given => List.mem_singleton.mp given ▸ List.mem_cons_self
  · intro before after found _ unchanged idle
    refine ⟨?_, idle.undone⟩
    rw [formulasOn, unchanged]
    exact idle.parts
  · intro before after old new node expansion conclusion succession
    exact succession.idle

/-- Every expansion of these formulas can be answered by one of them. -/
theorem guides_vacuousParts [Memory] : Guides .standard fun signed => signed ∈ vacuousParts := by
  intro tableau node found expansion standard member unprocessed proposed
  rcases exists_rule_of_expansion? standard unprocessed proposed with ⟨rule, ruled, rfl⟩
  rcases rule_vacuous member ruled with ⟨conclusions, _⟩
  refine ⟨[⟨.f, .atom "p"⟩], ?_, ?_⟩
  · rw [show (Expansion.ofRule rule).conclusions = _ from conclusions]
    exact List.mem_cons_self
  · intro part listed
    rw [List.mem_singleton.mp listed]
    refine ⟨List.mem_cons_of_mem _ List.mem_cons_self, ?_⟩
    rintro other among ⟨sameText, _, differs⟩
    simp only [vacuousParts, List.mem_cons, List.not_mem_nil, or_false] at among
    rcases among with rfl | rfl | rfl
    · exact absurd sameText (by decide)
    · exact differs rfl
    · exact absurd sameText (by decide)

theorem not_stops_vacuous [Memory] {initial : Tableau} {traced : Bool}
    (begun : start .standard [⟨.t, vacuous⟩] traced = .ok initial) : ¬ initial.Stops := by
  rintro ⟨steps, stopped⟩
  have regular := (Reachable.regular ⟨traced, initial, begun, .refl⟩ : Regular initial)
  have reachable : Reachable .standard [⟨.t, vacuous⟩] (initial.run steps).1 :=
    ⟨traced, initial, begun, advances_run regular steps⟩
  generalize (initial.run steps).1 = last at stopped reachable
  have compatible : forall signed other, signed ∈ [(⟨.t, vacuous⟩ : Signed)] ->
      other ∈ [(⟨.t, vacuous⟩ : Signed)] -> ¬ Conflict .standard signed other := by
    intro signed other given given' conflict
    rw [List.mem_singleton.mp given, List.mem_singleton.mp given'] at conflict
    exact conflict.2.2 rfl
  have contained : forall signed, signed ∈ [(⟨.t, vacuous⟩ : Signed)] -> signed ∈ vacuousParts :=
    fun signed given => List.mem_singleton.mp given ▸ List.mem_cons_self
  rcases reachable.follows guides_vacuousParts contained compatible with ⟨_, open', _⟩
  rcases halted_of_step? reachable.regular stopped with
    nothing | ⟨first, others, found, worked, known, saturated⟩
  · rw [nothing] at open'
    cases open'
  · have worked' : first ∈ last.opened := by
      rw [worked]
      exact List.mem_cons_self
    have idle := reachable.idle first worked' found known
    rcases mem_formulasOn_iff.mp
      (reachable.carries first worked' found known _ List.mem_cons_self) with ⟨id, present⟩
    have unprocessed : id ∉ found.processed := by
      rw [idle.undone]
      exact List.not_mem_nil
    rcases exists_pending_of_mem_contents reachable.regular present unprocessed with
      ⟨node, waiting, rfl, same⟩
    have settled := saturated node waiting
    have instantiated :=
      universalConstant?_situationOf node (reachable.listed known) idle.namesOn_eq_nil
    rw [expansion?_of_rule reachable.logic_eq unprocessed, same] at settled
    simp only [vacuous, Standard.rule, Standard.universalChoice, instantiated] at settled
    cases settled

theorem eq_vacuous_of_same {formula : Formula} (proper : formula.Proper)
    (alike : formula.same vacuous = true) : formula = vacuous := by
  have atom_of_same {formula : Formula} {name : String}
      (alike : formula.same (.atom name) = true) : formula = .atom name := by
    cases formula <;> simp [Formula.same] at alike
    rw [alike]
  cases proper with
  | @atomic formula given =>
    cases formula with
    | atom | pred | bilateral => cases alike
    | _ => cases given
  | neg | join => cases alike
  | exist => simp [Formula.same, vacuous, Quantifier.symbol] at alike
  | all =>
    simp only [Formula.same, vacuous, Bool.and_eq_true, beq_iff_eq] at alike
    rcases alike with ⟨⟨⟨_, rfl⟩, first⟩, second⟩
    rw [atom_of_same first, atom_of_same second, vacuous]

/-- A formula that is read, without quantifiers inside each other, and on which the run never
stops. -/
theorem counterexample_vacuous_universal :
    ∃ formula, Formula.parse "[forall X p]q" = .ok formula ∧ formula.nested = false ∧
      ∃ initial, start .standard [⟨.t, formula⟩] false = .ok initial ∧ ¬ initial.Stops := by
  have read : ((Formula.parse "[forall X p]q").toOption.any fun formula =>
      formula.same vacuous) = true := by decide +kernel
  rcases exists_of_any_toOption read with ⟨formula, parsed, alike⟩
  have proper := Formula.parse_proper parsed
  have shape := eq_vacuous_of_same proper alike
  rcases exists_start_proper .standard false (List.cons_ne_nil ⟨.t, formula⟩ [])
    (by simpa using proper) with ⟨initial, begun⟩
  refine ⟨formula, parsed, by rw [shape]; rfl, initial, begun, ?_⟩
  rw [shape] at begun
  exact not_stops_vacuous begun

end Tableau
end WeakKleene
