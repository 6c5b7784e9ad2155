import WeakKleene.Proofs.ChosenRules
import WeakKleene.Proofs.Closure
import WeakKleene.Proofs.Guidance
import WeakKleene.Proofs.Substitution

namespace WeakKleene

/-!
# New constants

Whatever a rule concludes, its constants are those of the premise, those of the
branch, and the ones that the rule makes up.

Constants that a rule makes up are named after the number of nodes that the
tableau has.  Nodes are never removed, and a conclusion about a new constant
adds nodes, so a constant that was made up before has a smaller number.  This
keeps new constants apart from each other, on one branch and on all.  It does
not keep them apart from the constants of the initial formulas, which nothing
looks at: a formula may bring a constant that is named as a new one will be.
-/

/-! ## The constants that rules conclude about -/

namespace Standard

open Formula

variable {situation : Situation} {signed : Signed} {parts : List Formula}

theorem IsInstance.constants {quantifier : Quantifier} {var : String}
    {restriction matrix made : Formula} {names : List String}
    (isInstance : IsInstance var restriction matrix names made) :
    made.constants ⊆ (Formula.quant quantifier var restriction matrix).constants ++ names := by
  rcases isInstance with ⟨name, given, fromFirst | fromSecond⟩
  · intro other occurs
    rcases mem_constants_withConstant fromFirst occurs with old | rfl
    · exact List.mem_append_left _ (List.mem_append_left _ old)
    · exact List.mem_append_right _ given
  · intro other occurs
    rcases mem_constants_withConstant fromSecond occurs with old | rfl
    · exact List.mem_append_left _ (List.mem_append_right _ old)
    · exact List.mem_append_right _ given

theorem constantsOf_parts {formula : Formula} {symbol : String}
    (shape : formula.symbolAndParts? = some (symbol, parts)) :
    constantsOf parts = formula.constants := by
  cases formula with
  | atom | pred | bilateral | quant => cases shape
  | neg body =>
    cases shape
    exact List.append_nil body.constants
  | join connective left right =>
    cases shape
    exact congrArg (left.constants ++ ·) (List.append_nil right.constants)
  | irregular symbol parts =>
    cases shape
    rfl

/-- The constants in the conclusions of a rule are among the given ones. -/
def Keeps (names : List String) (rule : Rule) : Prop :=
  forall conclusion, conclusion ∈ rule.conclusions -> forall part, part ∈ conclusion ->
    part.formula.constants ⊆ names

/-- A rule concludes about the constants of its premise, about those that occur on the branch, and
about those that it makes up. -/
theorem rule_keeps {rule : Rule} (ruled : Standard.rule signed situation = .ok (some rule)) :
    Keeps (signed.formula.constants ++ (situation.existing ++ coined signed situation)) rule := by
  intro conclusion listed part member
  rcases (rule_chosen ruled).source listed member with same |
    ⟨symbol, parts, shape, within, _⟩ | ⟨_, _, impossible, _⟩ | ⟨_, _, _, _, shape, isInstance⟩
  · rw [same]
    exact List.subset_append_left _ _
  · rw [<- constantsOf_parts shape]
    exact List.subset_append_of_subset_left _ (subset_gathered (fun _ _ => rfl) within)
  · cases impossible
  · rw [shape]
    exact isInstance.constants

end Standard

theorem Branch.mark_terms (branch : Branch) (node : Nat) (constant : Option String) :
    (branch.mark node constant).terms = branch.terms := by
  rcases branch.mark_eq node constant with ⟨processed, instantiated, equal, _⟩
  rw [equal]

/-- Whether the constants that a formula was instantiated with are recorded. -/
def Formula.isUniversal : Formula -> Bool
  | .quant .all .. => true
  | _ => false

def Signed.namesIn (formulas : List Signed) : List String :=
  formulas.flatMap fun signed => signed.formula.constants

namespace Tableau

open Signed (namesIn)

variable {tableau after : Tableau} {formulas : List Signed}

/-! ## The constants on a branch -/

def namesOn (tableau : Tableau) (found : Branch) : List String := namesIn (tableau.formulasOn found)

variable {found : Branch} {name : String} {id : Nat} {logic : Logic} {node : Node}
variable {expansion : Expansion} {conclusion : List Signed}

theorem mem_namesOn_iff : name ∈ tableau.namesOn found ↔
      ∃ signed, signed ∈ tableau.formulasOn found ∧ name ∈ signed.formula.constants :=
  List.mem_flatMap

theorem namesOn_mark (found : Branch) (node : Nat) (constant : Option String) :
    tableau.namesOn (found.mark node constant) = tableau.namesOn found := by
  rw [namesOn, formulasOn_mark, namesOn]

theorem namesOn_eq_nil_iff : tableau.namesOn found = [] ↔
    forall signed, signed ∈ tableau.formulasOn found -> signed.formula.constants = [] :=
  List.flatMap_eq_nil_iff

/-- The list of constants that a branch keeps is that of its formulas. -/
def Listed (tableau : Tableau) (found : Branch) : Prop :=
  forall name, name ∈ found.terms ↔ name ∈ tableau.namesOn found

theorem Listed.grows (listed : Listed tableau found)
    (regular : RegularBranch tableau id found) (grows : Grows tableau after) :
    Listed after found := by
  rw [Listed, namesOn, grows.formulasOn regular.membersExist]
  exact listed

theorem Listed.register {signed : Signed}
    (listed : Listed tableau found) (carried : tableau.signedAt? id = some signed) :
    Listed tableau (found.register id signed) := by
  intro name
  rw [namesOn, formulasOn_register carried, namesIn, List.flatMap_append, List.flatMap_singleton,
    List.mem_append, or_comm]
  exact Sorted.mem_insertAll_iff.trans (or_congr_right (listed name))

section Constants

variable [Memory]

theorem Reachable.listed (reachable : Reachable logic formulas tableau)
    (known : tableau.branch? id = some found) : Listed tableau found := by
  refine reachable.of_descent Listed (fun _ _ => Iff.rfl) ?_ known
  intro before after new regular _ grows listed descent
  have later {id : Nat} {found : Branch} (known : before.branch? id = some found) :
      Listed after found :=
    (listed id found known).grows (regular.branches id found known) grows
  cases descent with
  | same known => exact later known
  | @closed id found _ _ _ _ known _ _ _ _ equal =>
    have same : Listed after found := later known
    rw [equal]
    exact same
  | registered known _ carried _ equal =>
    rw [equal]
    exact (later known).register carried
  | marked known _ _ equal =>
    rw [equal, Listed, Branch.mark_terms, namesOn_mark]
    exact later known
  | @copied id fresh found known _ equal =>
    have same : Listed after found := later known
    rw [equal]
    exact same

/-! ## Initial formulas stay on every branch -/

/-- Initial formulas are put on the first branch one behind the other, whether they are there
already or not, as long as the branch does not close. -/
theorem plant_formulasOn {previous : Option Nat} (regular : Regular tableau)
    (known : tableau.branch? 0 = some found) (unclosed : found.closure = none)
    (planted : tableau.plant previous formulas = .ok after) :
    ∃ new, after.branch? 0 = some new ∧
      (new.closure = none -> after.formulasOn new = tableau.formulasOn found ++ formulas) := by
  induction formulas generalizing tableau found previous with
  | nil =>
    rw [<- Except.ok.inj planted]
    exact ⟨found, known, fun _ => (List.append_nil _).symm⟩
  | cons signed rest ih =>
    have added := @add_added tableau _ previous none 0 signed found known
    have regular' := @Regular.add tableau _ previous none 0 signed found regular known unclosed
    rcases add_of_plant planted with outcome | ⟨settled, outcome, planted⟩
    · rcases add_closes regular known (by rw [outcome]) with ⟨_, _, _, _, _, _, shut⟩
      rw [outcome] at shut
      exact ⟨_, shut, nofun⟩
    · have registered := (add_stays regular known (by rw [outcome])).2.1
      rw [outcome] at added regular' registered
      rcases ih regular' registered unclosed planted with ⟨new, known', carried⟩
      refine ⟨new, known', fun open' => ?_⟩
      rw [carried open', formulasOn_register added.new, List.append_assoc,
        added.grows.formulasOn (regular.branches 0 found known).membersExist]
      rfl

/-- At the start exactly the initial formulas stand on the branch that is worked on. -/
theorem start_formulasOn {traced : Bool} (begun : start logic formulas traced = .ok tableau)
    (worked : id ∈ tableau.opened) (known : tableau.branch? id = some found) :
    tableau.formulasOn found = formulas := by
  have first : id = 0 := by
    rcases start_extension begun with ⟨_, trace, closed, extension⟩
    cases closed with
    | true =>
      rw [(extension.closes rfl).1] at worked
      cases worked
    | false =>
      rw [(extension.stays rfl).1] at worked
      exact List.mem_singleton.mp worked
  subst first
  have regular := (Reachable.regular ⟨traced, tableau, begun, .refl⟩ : Regular tableau)
  rw [start_eq (start_extension begun).1] at begun
  rcases plant_formulasOn (blank_regular _ _) (blank_branch _ _) rfl begun with
    ⟨new, known', carried⟩
  rw [known] at known'
  rw [<- Option.some.inj known'] at carried
  exact carried (regular.unclosed worked known)

theorem Reachable.carries (reachable : Reachable logic formulas tableau) :
    forall id, id ∈ tableau.opened -> forall found, tableau.branch? id = some found ->
      forall signed, signed ∈ formulas -> signed ∈ tableau.formulasOn found := by
  apply reachable.of_branches fun tableau found =>
    forall signed, signed ∈ formulas -> signed ∈ tableau.formulasOn found
  · intro traced initial begun id worked found known signed given
    rwa [start_formulasOn begun worked known]
  · intro before after found _ unchanged carried
    rwa [formulasOn, unchanged]
  · intro before after old new node expansion conclusion succession carried signed given
    apply succession.prolonged.mem_old
    rw [formulasOn_mark]
    exact carried signed given

/-! ## Where constants come from -/

/-- What the rules may use of a branch for one of its nodes. -/
def situationOf (tableau : Tableau) (node : Node) (found : Branch) : Situation where
  existing := Memory.constants tableau.nodes found
  used := if node.signed.formula.isUniversal then some (found.usedFor node.id) else none
  fresh := "c_" ++ toString tableau.nodes.size

/-- A rule is offered the constants of the formulas on the branch, in whichever order. -/
theorem Listed.mem_existing_iff (listed : Listed tableau found) (node : Node) :
    name ∈ (tableau.situationOf node found).existing ↔ name ∈ tableau.namesOn found :=
  (Memory.constants_perm tableau.nodes found).mem_iff.trans (listed name)

theorem Listed.existing_eq_nil_iff (listed : Listed tableau found) (node : Node) :
    (tableau.situationOf node found).existing = [] ↔ tableau.namesOn found = [] := by
  rw [List.eq_nil_iff_forall_not_mem, List.eq_nil_iff_forall_not_mem]
  exact forall_congr' fun name => not_congr (listed.mem_existing_iff node)

def coinedOn (tableau : Tableau) (node : Node) (found : Branch) : List String :=
  Standard.coined node.signed (tableau.situationOf node found)

theorem expansion?_of_rule (standard : tableau.logic = .standard)
    (unprocessed : node.id ∉ found.processed) :
    tableau.expansion? node found = (Standard.rule node.signed (tableau.situationOf node found)).map
        (Option.map Expansion.ofRule) := by
  have unfinished : found.processed.contains node.id = false := by
    rwa [List.contains_eq_mem, decide_eq_false_iff_not]
  unfold expansion?
  simp only [standard, unfinished, Bool.false_and, Bool.false_eq_true, if_false]
  rcases node with ⟨id, ⟨sign, formula⟩, parent, children, reason, depth, branches, clash⟩
  cases formula with
  | quant quantifier => cases quantifier <;> rfl
  | _ => rfl

theorem exists_rule_of_expansion? (standard : tableau.logic = .standard)
    (unprocessed : node.id ∉ found.processed)
    (proposed : tableau.expansion? node found = .ok (some expansion)) :
    ∃ rule, Standard.rule node.signed (tableau.situationOf node found) = .ok (some rule) ∧
      expansion = Expansion.ofRule rule := by
  rw [expansion?_of_rule standard unprocessed] at proposed
  generalize Standard.rule node.signed (tableau.situationOf node found) = choice at proposed ⊢
  rcases choice with fault | (_ | rule)
  · cases proposed
  · cases proposed
  · cases proposed
    exact ⟨rule, rfl, rfl⟩

/-- Whatever an expansion concludes is about constants of the branch and those that it makes up. -/
theorem mem_names_of_expansion? (standard : tableau.logic = .standard) (regular : Regular tableau)
    (listed : Listed tableau found)
    (waiting : node ∈ tableau.pending found)
    (proposed : tableau.expansion? node found = .ok (some expansion))
    (chosen : conclusion ∈ expansion.conclusions) {part : Signed} (member : part ∈ conclusion) :
    part.formula.constants ⊆ tableau.namesOn found ++ tableau.coinedOn node found := by
  rcases mem_contents_of_pending regular waiting with ⟨present, unprocessed⟩
  rcases exists_rule_of_expansion? standard unprocessed proposed with ⟨rule, ruled, rfl⟩
  refine List.Subset.trans (Standard.rule_keeps ruled conclusion chosen part member) ?_
  intro name occurs
  rcases List.mem_append.mp occurs with own | occurs
  · exact List.mem_append_left _ (mem_namesOn_iff.mpr ⟨_, mem_formulasOn_iff.mpr ⟨_, present⟩, own⟩)
  · rcases List.mem_append.mp occurs with existing | made
    · exact List.mem_append_left _ ((listed.mem_existing_iff node).mp existing)
    · exact List.mem_append_right _ made

/-! ## The numbers of new constants -/

def newNames (count : Nat) : List String :=
  ["c_" ++ toString count, Standard.arbitrary ("c_" ++ toString count)]

theorem coinedOn_subset (tableau : Tableau) (node : Node) (found : Branch) :
    tableau.coinedOn node found ⊆ newNames tableau.nodes.size := by
  intro name made
  rcases Standard.mem_coined made with equal | equal
  · rw [equal]
    exact List.mem_cons_self
  · rw [equal]
    exact List.mem_cons_of_mem _ List.mem_cons_self

end Constants

def numberIn (name : String) : Nat :=
  Nat.ofDigitChars 10 ((name.toList.drop 2).takeWhile Char.isDigit) 0

theorem numberIn_of_mem_newNames {count : Nat} (made : name ∈ newNames count) :
    numberIn name = count := by
  have digits : forall c, c ∈ Nat.toDigits 10 count -> c.isDigit = true :=
    fun c member => Nat.isDigit_of_mem_toDigits (by decide) (by decide) member
  have shape {rest : List Char} (nondigit : rest.takeWhile Char.isDigit = [])
      (written : name.toList = ['c', '_'] ++ Nat.toDigits 10 count ++ rest) :
      numberIn name = count := by
    rw [numberIn, written, List.append_assoc]
    show Nat.ofDigitChars 10 ((Nat.toDigits 10 count ++ rest).takeWhile Char.isDigit) 0 = count
    rw [List.takeWhile_append_of_pos digits, nondigit, List.append_nil,
      Nat.ofDigitChars_ten_toDigits]
  have number : (toString count).toList = Nat.toDigits 10 count := by
    rw [Nat.toString_eq_repr, Nat.repr_eq_ofList_toDigits, String.toList_ofList]
  have plain : ("c_" ++ toString count).toList = ['c', '_'] ++ Nat.toDigits 10 count := by
    rw [String.toList_append, number]
    rfl
  rcases List.mem_cons.mp made with equal | later
  · refine shape List.takeWhile_nil ?_
    rw [equal, plain, List.append_nil]
  · have marked : "_arb".toList.takeWhile Char.isDigit = [] := by decide
    refine shape marked ?_
    rw [List.mem_singleton.mp later, Standard.arbitrary, String.toList_append, plain]

/-- What stands on a prolonged branch stood there before, or is part of the conclusion and then
the tree has grown. -/
theorem Prolonged.mem_cases {old new : Branch}
    (prolonged : Prolonged tableau after old new conclusion)
    (regular : RegularBranch after id new) {signed : Signed}
    (member : signed ∈ after.formulasOn new) :
    signed ∈ tableau.formulasOn old ∨
      signed ∈ conclusion ∧ tableau.nodes.size < after.nodes.size := by
  rcases prolonged.contents with ⟨added, equal, sublist, later⟩
  rcases mem_formulasOn_iff.mp member with ⟨number, listed⟩
  have bound := regular.membersExist number (mem_contents_iff.mp listed).1
  rw [equal] at listed
  rcases List.mem_append.mp listed with there | new
  · exact .inl (mem_formulasOn_iff.mpr ⟨number, there⟩)
  · refine .inr ⟨sublist.subset (List.mem_map.mpr ⟨_, new, rfl⟩), ?_⟩
    exact Nat.lt_of_le_of_lt (later _ new) bound

/-- Every constant on a branch is one of the initial formulas, or was made up when there were fewer
nodes. -/
def Dated (formulas : List Signed) (tableau : Tableau) (found : Branch) : Prop :=
  forall name, name ∈ tableau.namesOn found ->
    name ∈ namesIn formulas ∨ ∃ count, count < tableau.nodes.size ∧ name ∈ newNames count

theorem Dated.later (dated : Dated formulas tableau found)
    (grows : Grows tableau after) (occurs : name ∈ tableau.namesOn found) :
    name ∈ namesIn formulas ∨ ∃ count, count < after.nodes.size ∧ name ∈ newNames count :=
  (dated name occurs).imp_right fun ⟨count, below, made⟩ =>
    ⟨count, Nat.lt_of_lt_of_le below grows.size, made⟩

theorem Succession.dated [Memory] {old new : Branch}
    (succession : Succession .standard formulas tableau after old new node expansion conclusion)
    (dated : Dated formulas tableau old) : Dated formulas after new := by
  have reachable := succession.reachable
  rcases succession.worked with ⟨branch, worked, known⟩
  rcases succession.regular with ⟨id, regular⟩
  intro name occurs
  rcases mem_namesOn_iff.mp occurs with ⟨signed, member, within⟩
  rcases succession.prolonged.mem_cases regular member with there | ⟨part, grown⟩
  · rw [formulasOn_mark] at there
    exact dated.later succession.grows (mem_namesOn_iff.mpr ⟨signed, there, within⟩)
  · rcases List.mem_append.mp (mem_names_of_expansion? reachable.logic_eq reachable.regular
      (reachable.listed known) succession.waiting succession.proposed succession.chosen part
      within) with there | made
    · exact dated.later succession.grows there
    · exact .inr ⟨_, grown, coinedOn_subset tableau node old made⟩

theorem Reachable.dated [Memory] (reachable : Reachable .standard formulas tableau) :
    forall id, id ∈ tableau.opened -> forall found, tableau.branch? id = some found ->
      Dated formulas tableau found := by
  apply reachable.of_branches (Dated formulas)
  · intro traced initial begun id worked found known name occurs
    rw [namesOn, start_formulasOn begun worked known] at occurs
    exact .inl occurs
  · intro before after found grows unchanged dated name occurs
    rw [namesOn, formulasOn, unchanged] at occurs
    exact dated.later grows occurs
  · intro before after old new node expansion conclusion succession
    exact succession.dated

/-- In every reachable tableau, an expansion of a pending node concludes about constants of the
branch and about those that it makes up.  One that it makes up is on the branch already just when
it occurs in an initial formula. -/
theorem coined_on_branch_iff [Memory] (formulas : List Signed) (tableau : Tableau)
    (reachable : Reachable .standard formulas tableau) (branch : Nat) (found : Branch)
    (worked : branch ∈ tableau.opened) (known : tableau.branch? branch = some found)
    (node : Node) (waiting : node ∈ tableau.pending found) (expansion : Expansion)
    (proposed : tableau.expansion? node found = .ok (some expansion)) :
    (forall conclusion, conclusion ∈ expansion.conclusions -> forall part, part ∈ conclusion ->
      forall name, name ∈ part.formula.constants ->
        name ∈ tableau.namesOn found ∨ name ∈ tableau.coinedOn node found) ∧
      forall name, name ∈ tableau.coinedOn node found ->
        (name ∈ tableau.namesOn found ↔ name ∈ namesIn formulas) := by
  refine ⟨?_, ?_⟩
  · intro conclusion chosen part member name occurs
    exact List.mem_append.mp (mem_names_of_expansion? reachable.logic_eq reachable.regular
      (reachable.listed known) waiting proposed chosen member occurs)
  · intro name made
    constructor
    · intro occurs
      rcases reachable.dated branch worked found known name occurs with
        given | ⟨count, below, made'⟩
      · exact given
      · have number := numberIn_of_mem_newNames (coinedOn_subset tableau node found made)
        rw [numberIn_of_mem_newNames made'] at number
        exact absurd number (Nat.ne_of_lt below)
    · intro given
      rcases List.mem_flatMap.mp given with ⟨signed, initial, occurs⟩
      exact mem_namesOn_iff.mpr
        ⟨signed, reachable.carries branch worked found known signed initial, occurs⟩

open scoped Memory

/-- Beside another constant the witness of an existential formula is new. -/
theorem coined_beside_given : ∃ tableau found node expansion,
      Reachable .standard [⟨.t, .quant .exist "X" (.pred "P" [.var "X"]) (.pred "Q" [.var "X"])⟩,
        ⟨.n, .pred "Q" [.const "a"]⟩] tableau ∧
      0 ∈ tableau.opened ∧ tableau.branch? 0 = some found ∧ node ∈ tableau.pending found ∧
      tableau.expansion? node found = .ok (some expansion) ∧
      expansion.conclusions = [[⟨.t, .pred "P" [.const "c_2"]⟩, ⟨.t, .pred "Q" [.const "c_2"]⟩]] ∧
      tableau.coinedOn node found = ["c_2"] ∧ "c_2" ∉ tableau.namesOn found := by
  have reachable : Reachable .standard [⟨.t, .quant .exist "X" (.pred "P" [.var "X"])
      (.pred "Q" [.var "X"])⟩, ⟨.n, .pred "Q" [.const "a"]⟩] _ := ⟨false, _, rfl, .refl⟩
  refine ⟨_, _, _, _, reachable, List.mem_cons_self, rfl, List.mem_cons_self, rfl, rfl, rfl, ?_⟩
  have exactly := (coined_on_branch_iff _ _ reachable 0 _ List.mem_cons_self rfl _
    List.mem_cons_self _ rfl).2 "c_2" List.mem_cons_self
  rw [exactly]
  decide

/-- The witness of an existential formula is a constant that an initial formula speaks about, and
a formula follows that should not. -/
theorem counterexample_given_constant : (∃ tableau found node expansion,
      Reachable .standard [⟨.t, .quant .exist "X" (.pred "P" [.var "X"]) (.pred "Q" [.var "X"])⟩,
        ⟨.n, .pred "Q" [.const "c_2"]⟩] tableau ∧
      0 ∈ tableau.opened ∧ tableau.branch? 0 = some found ∧ node ∈ tableau.pending found ∧
      tableau.expansion? node found = .ok (some expansion) ∧
      expansion.conclusions = [[⟨.t, .pred "P" [.const "c_2"]⟩, ⟨.t, .pred "Q" [.const "c_2"]⟩]] ∧
      "c_2" ∈ tableau.coinedOn node found ∧ "c_2" ∈ tableau.namesOn found) ∧
    entails [.quant .exist "X" (.pred "P" [.var "X"]) (.pred "Q" [.var "X"])]
      (.pred "Q" [.const "c_2"]) = .ok true :=
  ⟨⟨_, _, _, _, ⟨false, _, rfl, .refl⟩, List.mem_cons_self, rfl, List.mem_cons_self, rfl, rfl,
    List.mem_cons_self, List.mem_cons_self⟩, rfl⟩

end Tableau
end WeakKleene
