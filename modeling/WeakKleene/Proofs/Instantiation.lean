import WeakKleene.Proofs.InstanceBudget
import WeakKleene.Proofs.Saturation
import WeakKleene.Proofs.SharedRules

namespace WeakKleene

/-!
# Universal formulas on saturated branches

A branch records for each universal formula the constants that it was
instantiated with.  The record is made on the branch before it splits and is
handed on to the branches that prolong it, and the constants of the branch grow
while other nodes are expanded.  So the record is right about a branch that is
worked on, whatever has happened to it: for each constant in it an instance
stands there.  And since a formula with a constant left is pending, the record
is full when the branch is saturated.

A constant without a name is the exception.  With it the formula counts as
processed and is not instantiated again.
-/

namespace Standard

variable {var : String} {restriction matrix : Formula} {situation : Situation}

/-- The rule for a true universal formula instantiates it with one constant. -/
theorem rule_true_universal {rule : Rule}
    (ruled : Standard.rule ⟨.t, .quant .all var restriction matrix⟩ situation = .ok (some rule)) :
    ∃ name restriction' matrix', situation.universalConstant? = some name ∧
      restriction.withConstant var name = .ok restriction' ∧
      matrix.withConstant var name = .ok matrix' ∧ rule.constant = some name ∧
      rule.conclusions = [[⟨.f, restriction'⟩], [⟨.t, matrix'⟩]] := by
  simp only [Standard.rule, universalChoice] at ruled
  split at ruled
  · next name chosen =>
    rcases Tableau.exists_of_bind_eq_ok ruled with ⟨restriction', atRestriction, ruled⟩
    rcases Tableau.exists_of_bind_eq_ok ruled with ⟨matrix', atMatrix, ruled⟩
    cases ruled
    exact ⟨name, restriction', matrix', chosen, atRestriction, atMatrix, rfl, rfl⟩
  · cases ruled

theorem universalConstant?_of_no_rule
    (ruled : Standard.rule ⟨.t, .quant .all var restriction matrix⟩ situation = .ok none) :
    situation.universalConstant? = none := by
  simp only [Standard.rule, universalChoice] at ruled
  split at ruled
  · rcases Tableau.exists_of_bind_eq_ok ruled with ⟨_, _, ruled⟩
    rcases Tableau.exists_of_bind_eq_ok ruled with ⟨_, _, ruled⟩
    cases ruled
  · assumption

end Standard

namespace Tableau

variable {tableau after : Tableau} {formulas : List Signed} {found new : Branch}
variable {var : String} {restriction matrix : Formula}

/-! ## Constants with names -/

variable {name : String} {id : Nat} {constant : Option String}

theorem ne_empty_of_mem_newNames {count : Nat} (made : name ∈ newNames count) :
    name ≠ "" := by
  have begins (rest : String) : "c_" ++ rest ≠ "" := by
    rw [Ne, <- String.toList_inj, String.toList_append]
    exact List.cons_ne_nil _ _
  rcases List.mem_cons.mp made with rfl | later
  · exact begins _
  · rw [List.mem_singleton.mp later, Standard.arbitrary, String.append_assoc]
    exact begins _

/-- Constants have names on every branch, if they have in the initial formulas. -/
theorem Reachable.ne_empty_of_mem_namesOn [Memory]
    (reachable : Reachable .standard formulas tableau)
    (named : forall signed, signed ∈ formulas -> "" ∉ signed.formula.constants)
    (worked : id ∈ tableau.opened) (known : tableau.branch? id = some found)
    (occurs : name ∈ tableau.namesOn found) : name ≠ "" := by
  rcases reachable.dated id worked found known name occurs with given | ⟨count, _, made⟩
  · rcases List.mem_flatMap.mp given with ⟨signed, initial, occurs⟩
    rintro rfl
    exact named signed initial occurs
  · exact ne_empty_of_mem_newNames made

/-! ## Marking a node -/

/-- A node that counts as processed after one was marked did so before, or is that one and was not
instantiated with a constant that has a name. -/
theorem mem_processed_mark {node : Nat} (processed : id ∈ (found.mark node constant).processed) :
    id ∈ found.processed ∨ id = node ∧ forall name, constant = some name -> name = "" := by
  by_cases same : id = node
  · cases constant with
    | none => exact .inr ⟨same, nofun⟩
    | some name =>
      simp only [Branch.mark] at processed
      split at processed
      · next empty =>
        refine .inr ⟨same, fun other equal => ?_⟩
        rw [<- Option.some.inj equal]
        exact String.isEmpty_iff.mp empty
      · exact .inl processed
  · exact .inl ((found.mark_of_ne same constant).1.mp processed)

/-- A constant on record after a node was marked was there before, or belongs to that node. -/
theorem mem_usedFor_mark {node : Nat} (used : name ∈ (found.mark node constant).usedFor id) :
    name ∈ found.usedFor id ∨ id = node ∧ constant = some name := by
  by_cases same : id = node
  · subst same
    cases constant with
    | none => exact .inl used
    | some other =>
      simp only [Branch.mark] at used
      split at used
      · exact .inl used
      · rw [found.usedFor_instantiate_self, Sorted.mem_insert_iff] at used
        rcases used with rfl | earlier
        · exact .inr ⟨rfl, rfl⟩
        · exact .inl earlier
  · rw [(found.mark_of_ne same constant).2] at used
    exact .inl used

/-! ## Instances on a branch -/

def Shows (tableau : Tableau) (found : Branch) (signed : Signed) : Prop :=
  ∃ other, other ∈ tableau.formulasOn found ∧ other.formula.text = signed.formula.text ∧
    other.sign = signed.sign

/-- An instance of a true universal formula stands on the branch: the restriction is false of the
constant, or the matrix is true of it. -/
def Met (tableau : Tableau) (found : Branch) (var : String) (restriction matrix : Formula)
    (name : String) : Prop :=
  ∃ restriction' matrix', restriction.withConstant var name = .ok restriction' ∧
    matrix.withConstant var name = .ok matrix' ∧
    (tableau.Shows found ⟨.f, restriction'⟩ ∨ tableau.Shows found ⟨.t, matrix'⟩)

/-- The record of instantiations is right.  It concerns nodes of the branch, the true universal
formulas among them remain to be instantiated, and with the constants on record they were. -/
structure Instantiated (tableau : Tableau) (found : Branch) : Prop where
  recorded : forall id name, name ∈ found.usedFor id ->
    ∃ signed, (id, signed) ∈ tableau.contents found
  unprocessed : forall id var restriction matrix,
    (id, ⟨.t, .quant .all var restriction matrix⟩) ∈ tableau.contents found -> id ∉ found.processed
  met : forall id var restriction matrix,
    (id, ⟨.t, .quant .all var restriction matrix⟩) ∈ tableau.contents found ->
      forall name, name ∈ found.usedFor id -> tableau.Met found var restriction matrix name

section Prolonged

variable {old : Branch} {conclusion : List Signed}

theorem Prolonged.shows (prolonged : Prolonged tableau after old new conclusion) {signed : Signed}
    (shows : tableau.Shows old signed) : after.Shows new signed := by
  rcases shows with ⟨other, member, same⟩
  exact ⟨other, prolonged.mem_old member, same⟩

theorem Prolonged.met (prolonged : Prolonged tableau after old new conclusion)
    (met : tableau.Met old var restriction matrix name) :
    after.Met new var restriction matrix name := by
  rcases met with ⟨restriction', matrix', atRestriction, atMatrix, instanced⟩
  exact ⟨restriction', matrix', atRestriction, atMatrix,
    instanced.imp prolonged.shows prolonged.shows⟩

/-- The record stays right when a node is expanded, if a true universal formula was instantiated
with a constant that has a name and the instance has come on the branch. -/
theorem Instantiated.prolonged {node : Nat} {signed : Signed}
    (instantiated : Instantiated tableau old) (regular : RegularBranch tableau id old)
    (present : (node, signed) ∈ tableau.contents old)
    (prolonged : Prolonged tableau after (old.mark node constant) new conclusion)
    (expanded : forall var restriction matrix, signed = ⟨.t, .quant .all var restriction matrix⟩ ->
        ∃ name, constant = some name ∧ name ≠ "" ∧ after.Met new var restriction matrix name) :
    Instantiated after new := by
  have used (id : Nat) : new.usedFor id = (old.mark node constant).usedFor id := by
    rw [Branch.usedFor, prolonged.instantiated, Branch.usedFor]
  have earlier {id : Nat} {signed : Signed} (member : id ∈ old.members)
      (listed : (id, signed) ∈ after.contents new) : (id, signed) ∈ tableau.contents old := by
    have there := prolonged.mem_old_contents (regular.membersExist id member) listed
    rwa [contents_mark] at there
  have place := (mem_contents_iff.mp present).1
  have instanced {var : String} {restriction matrix : Formula}
      (listed : (node, ⟨.t, .quant .all var restriction matrix⟩) ∈ tableau.contents old) :
      ∃ name, constant = some name ∧ name ≠ "" ∧ after.Met new var restriction matrix name :=
    expanded var restriction matrix (Option.some.inj
      ((mem_contents_iff.mp present).2.symm.trans (mem_contents_iff.mp listed).2))
  have stays {name : String} {var : String} {restriction matrix : Formula}
      (met : tableau.Met old var restriction matrix name) :
      after.Met new var restriction matrix name := by
    apply prolonged.met
    simpa only [Met, Shows, formulasOn_mark] using met
  constructor
  · intro id name member
    rw [used] at member
    have kept {entry : Nat × Signed} (listed : entry ∈ tableau.contents old) :
        entry ∈ after.contents new :=
      prolonged.mem_contents (by rwa [contents_mark])
    rcases mem_usedFor_mark member with before | ⟨rfl, _⟩
    · rcases instantiated.recorded id name before with ⟨other, listed⟩
      exact ⟨other, kept listed⟩
    · exact ⟨signed, kept present⟩
  · intro id var restriction matrix listed processed
    rw [prolonged.processed] at processed
    rcases mem_processed_mark processed with before | ⟨rfl, nameless⟩
    · have there := earlier (regular.processedMembers id before) listed
      exact instantiated.unprocessed id var restriction matrix there before
    · rcases instanced (earlier place listed) with ⟨name, taken, named, _⟩
      exact named (nameless name taken)
  · intro id var restriction matrix listed name member
    rw [used] at member
    rcases mem_usedFor_mark member with before | ⟨rfl, taken⟩
    · rcases instantiated.recorded id name before with ⟨other, recorded⟩
      have there := earlier (mem_contents_iff.mp recorded).1 listed
      exact stays (instantiated.met id var restriction matrix there name before)
    · rcases instanced (earlier place listed) with ⟨other, taken', _, met⟩
      rw [Option.some.inj (taken.symm.trans taken')]
      exact met

end Prolonged

/-- An expansion of a true universal formula takes a constant that has a name, and puts the
instance on each branch that comes of it. -/
theorem Succession.met [Memory] {old : Branch} {node : Node} {expansion : Expansion}
    {conclusion : List Signed}
    (succession : Succession .standard formulas tableau after old new node expansion conclusion)
    (named : forall signed, signed ∈ formulas -> "" ∉ signed.formula.constants)
    (carried : node.signed = ⟨.t, .quant .all var restriction matrix⟩) :
    ∃ name, expansion.constant = some name ∧ name ≠ "" ∧
      after.Met new var restriction matrix name := by
  rcases succession.worked with ⟨branch, worked, known⟩
  rcases succession.regular with ⟨id, regular⟩
  have unprocessed := (mem_contents_of_pending succession.reachable.regular succession.waiting).2
  rcases exists_rule_of_expansion? succession.reachable.logic_eq unprocessed
    succession.proposed with ⟨rule, ruled, rfl⟩
  rw [carried] at ruled
  rcases Standard.rule_true_universal ruled with
    ⟨name, restriction', matrix', chosen, atRestriction, atMatrix, constant, conclusions⟩
  have reached {part : Signed} (member : part ∈ conclusion) : after.Shows new part :=
    (regular.holds_iff part).mp (succession.prolonged.holds part member)
  refine ⟨name, constant, ?_, restriction', matrix', atRestriction, atMatrix, ?_⟩
  · rcases Situation.universalConstant?_eq_some chosen with ⟨_, rfl⟩ | ⟨occurs, _⟩
    · exact ne_empty_of_mem_newNames List.mem_cons_self
    · exact succession.reachable.ne_empty_of_mem_namesOn named worked known
        (((succession.reachable.listed known).mem_existing_iff node).mp occurs)
  · have chosen := succession.chosen
    rw [show (Expansion.ofRule rule).conclusions = _ from conclusions] at chosen
    rcases List.mem_cons.mp chosen with rfl | later
    · exact .inl (reached List.mem_cons_self)
    · rw [List.mem_singleton.mp later] at reached
      exact .inr (reached List.mem_cons_self)

theorem Reachable.instantiated [Memory] (reachable : Reachable .standard formulas tableau)
    (named : forall signed, signed ∈ formulas -> "" ∉ signed.formula.constants) :
    forall id, id ∈ tableau.opened -> forall found, tableau.branch? id = some found ->
      Instantiated tableau found := by
  apply reachable.of_branches Instantiated
  · intro traced initial begun id worked found known
    rcases start_prolonged begun worked known with ⟨trace, prolonged⟩
    have unused (node : Nat) : found.usedFor node = [] := by
      rw [Branch.usedFor, prolonged.instantiated]
      rfl
    refine ⟨?_, ?_, ?_⟩
    · intro node name used
      rw [unused] at used
      cases used
    · intro node var restriction matrix _ processed
      rw [prolonged.processed] at processed
      cases processed
    · intro node var restriction matrix _ name used
      rw [unused] at used
      cases used
  · intro before after found _ unchanged instantiated
    have same : after.formulasOn found = before.formulasOn found := by
      rw [formulasOn, unchanged, formulasOn]
    refine ⟨?_, ?_, ?_⟩
    · rw [unchanged]
      exact instantiated.recorded
    · rw [unchanged]
      exact instantiated.unprocessed
    · simp only [unchanged, Met, Shows, same]
      exact instantiated.met
  · intro before after old new node expansion conclusion succession instantiated
    rcases succession.worked with ⟨branch, _, known⟩
    have regular := succession.reachable.regular
    exact instantiated.prolonged (regular.branches branch old known)
      (mem_contents_of_pending regular succession.waiting).1 succession.prolonged
      fun _ _ _ carried => succession.met named carried

theorem Halted.saturated [Memory] (halted : tableau.Halted) {first : Nat} {others : List Nat}
    (opened : tableau.opened = first :: others) (known : tableau.branch? first = some found) :
    tableau.Saturated found := by
  rcases halted with closed | ⟨_, _, _, opened', known', saturated⟩
  · rw [opened] at closed
    cases closed
  · rw [opened] at opened'
    cases opened'
    rw [known] at known'
    rw [Option.some.inj known']
    exact saturated

theorem Reachable.not_shows_false [Memory] (reachable : Reachable .standard formulas tableau)
    (worked : id ∈ tableau.opened) (known : tableau.branch? id = some found) {formula : Formula}
    (affirmed : tableau.Shows found ⟨.t, formula⟩) : ¬ tableau.Shows found ⟨.f, formula⟩ := by
  rcases affirmed with ⟨⟨_, one⟩, member, text, rfl⟩
  rintro ⟨⟨_, other⟩, member', text', rfl⟩
  have same := (reachable.explained known).unanimous (reachable.regular.unclosed worked known)
    member member' (text.trans text'.symm) rfl rfl
  cases same

/-- On a saturated branch there is a constant, and every true universal formula was instantiated
with all of them.  Of each constant the restriction is false or the matrix true there, so that the
matrix is true where the restriction is. -/
theorem universal_met_by_all_constants [Memory] (formulas : List Signed)
    (named : forall signed, signed ∈ formulas -> "" ∉ signed.formula.constants)
    (tableau : Tableau) (reachable : Reachable .standard formulas tableau) (branch : Nat)
    (found : Branch) (worked : branch ∈ tableau.opened)
    (known : tableau.branch? branch = some found) (saturated : tableau.Saturated found)
    (node : Nat) (var : String) (restriction matrix : Formula)
    (present : (node, ⟨.t, .quant .all var restriction matrix⟩) ∈ tableau.contents found) :
    tableau.namesOn found ≠ [] ∧
      forall name, name ∈ tableau.namesOn found -> name ∈ found.usedFor node ∧
        ∃ restriction' matrix', restriction.withConstant var name = .ok restriction' ∧
          matrix.withConstant var name = .ok matrix' ∧
          (tableau.Shows found ⟨.f, restriction'⟩ ∨ tableau.Shows found ⟨.t, matrix'⟩) ∧
          (tableau.Shows found ⟨.t, restriction'⟩ -> tableau.Shows found ⟨.t, matrix'⟩) := by
  have instantiated := reachable.instantiated named branch worked found known
  have listed := reachable.listed known
  rcases exists_pending_of_mem_contents reachable.regular present
    (instantiated.unprocessed node var restriction matrix present) with
      ⟨waiting, pending, rfl, carried⟩
  -- Nothing applies to the formula, so the rule found no constant that was not used.
  have proposed := saturated waiting pending
  rw [expansion?_of_rule reachable.logic_eq
    (mem_contents_of_pending reachable.regular pending).2, carried] at proposed
  have unruled : Standard.rule ⟨.t, .quant .all var restriction matrix⟩
      (tableau.situationOf waiting found) = .ok none := by
    generalize Standard.rule _ _ = choice at proposed
    rcases choice with fault | (_ | rule)
    · cases proposed
    · rfl
    · cases proposed
  rcases Situation.universalConstant?_eq_none_iff.mp
    (Standard.universalConstant?_of_no_rule unruled) with ⟨some_constant, _, all_used⟩
  refine ⟨fun nothing => some_constant ((listed.existing_eq_nil_iff waiting).mpr nothing), ?_⟩
  intro name occurs
  have used : name ∈ found.usedFor waiting.id := by
    have used := all_used name ((listed.mem_existing_iff waiting).mpr occurs)
    rwa [situationOf, carried] at used
  rcases instantiated.met _ var restriction matrix present name used with
    ⟨restriction', matrix', atRestriction, atMatrix, instanced⟩
  refine ⟨used, restriction', matrix', atRestriction, atMatrix, instanced, fun affirmed => ?_⟩
  exact instanced.resolve_left (reachable.not_shows_false worked known affirmed)

open scoped Memory

/-- Two individuals are of one kind, and whatever is of that kind is of another one: on the branch
that is left both are of the other kind. -/
theorem universal_met_by_two_constants : ∃ tableau found,
      ofFormulas .standard [⟨.t, .quant .all "X" (.pred "P" [.var "X"]) (.pred "Q" [.var "X"])⟩,
        ⟨.t, .pred "P" [.const "a"]⟩, ⟨.t, .pred "P" [.const "b"]⟩] false = .ok tableau ∧
      tableau.opened = [4] ∧ tableau.branch? 4 = some found ∧ tableau.Saturated found ∧
      "a" ∈ found.usedFor 0 ∧ "b" ∈ found.usedFor 0 ∧
      tableau.Shows found ⟨.t, .pred "Q" [.const "a"]⟩ ∧
      tableau.Shows found ⟨.t, .pred "Q" [.const "b"]⟩ := by
  have finished : ∃ tableau found,
      ofFormulas .standard [⟨.t, .quant .all "X" (.pred "P" [.var "X"]) (.pred "Q" [.var "X"])⟩,
        ⟨.t, .pred "P" [.const "a"]⟩, ⟨.t, .pred "P" [.const "b"]⟩] false = .ok tableau ∧
      tableau.opened = [4] ∧ tableau.branch? 4 = some found ∧ tableau.step? = .ok none ∧
      tableau.contents found =
        [(0, ⟨.t, .quant .all "X" (.pred "P" [.var "X"]) (.pred "Q" [.var "X"])⟩),
          (1, ⟨.t, .pred "P" [.const "a"]⟩), (2, ⟨.t, .pred "P" [.const "b"]⟩),
          (4, ⟨.t, .pred "Q" [.const "a"]⟩), (6, ⟨.t, .pred "Q" [.const "b"]⟩)] :=
    ⟨_, _, rfl, rfl, rfl, rfl, rfl⟩
  rcases finished with ⟨tableau, found, finished, opened, known, stopped, contents⟩
  have reachable := reachable_of_ofFormulas finished
  have saturated := (halted_of_step? reachable.regular stopped).saturated opened known
  have met := (universal_met_by_all_constants _ (by decide) tableau reachable 4 found
    (by rw [opened]; exact List.mem_singleton_self 4) known saturated 0 "X" _ _
    (by rw [contents]; exact List.mem_cons_self)).2
  have first : ⟨.t, .pred "P" [.const "a"]⟩ ∈ tableau.formulasOn found :=
    mem_formulasOn_iff.mpr ⟨1, by rw [contents]; exact .tail _ (.head _)⟩
  have second : ⟨.t, .pred "P" [.const "b"]⟩ ∈ tableau.formulasOn found :=
    mem_formulasOn_iff.mpr ⟨2, by rw [contents]; exact .tail _ (.tail _ (.head _))⟩
  rcases met "a" (mem_namesOn_iff.mpr ⟨_, first, by decide⟩) with
    ⟨usedFirst, _, _, ⟨⟩, ⟨⟩, _, firstMet⟩
  rcases met "b" (mem_namesOn_iff.mpr ⟨_, second, by decide⟩) with
    ⟨usedSecond, _, _, ⟨⟩, ⟨⟩, _, secondMet⟩
  exact ⟨tableau, found, finished, opened, known, saturated, usedFirst, usedSecond,
    firstMet ⟨_, first, rfl, rfl⟩, secondMet ⟨_, second, rfl, rfl⟩⟩

end Tableau
end WeakKleene
