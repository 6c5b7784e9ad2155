import WeakKleene.Proofs.DeniedAtoms
import WeakKleene.Proofs.FreshConstants
import WeakKleene.Proofs.Saturation

namespace WeakKleene

/-!
# Sentences and the models of branches

A formula without free variables is a sentence.  From sentences the standard
calculus concludes sentences only: compounds and formulas without structure pass
their variables on, and what a quantifier binds a constant takes the place of.
So every atomic formula in such a tableau is ground.

The model of a branch is read off the index by the written forms of ground
atoms.  On a branch that is not closed no written formula has two definite
signs, and therefore the model gives to each atomic formula under a definite
sign the value of that sign and no other.
-/

namespace Formula

open Tableau (exists_of_bind_eq_ok)

mutual

/-- The variables that occur outside the scope of a quantifier for them. -/
def freeVariables : Formula -> List String
  | atom _ => []
  | pred _ args | bilateral _ args _ _ => (args.filter fun term => !term.isConst).map Term.name
  | neg body => body.freeVariables
  | join _ left right => left.freeVariables ++ right.freeVariables
  | quant _ var restriction matrix =>
    (restriction.freeVariables ++ matrix.freeVariables).filter (· != var)
  | irregular _ parts => freeVariablesOf parts

def freeVariablesOf : List Formula -> List String
  | [] => []
  | part :: rest => part.freeVariables ++ freeVariablesOf rest

end

/-- A formula without free variables. -/
def Sentence (formula : Formula) : Prop := formula.freeVariables = []

instance (formula : Formula) : Decidable formula.Sentence :=
  inferInstanceAs (Decidable (formula.freeVariables = []))

/-! ## Instances of quantified sentences -/

/-- The variables that remain are among the original ones, and nothing was to be put for them. -/
def Remain (mapping : List (String × Term)) (originals remaining : List String) : Prop :=
  forall var, var ∈ remaining -> var ∈ originals ∧ forall entry, entry ∈ mapping -> entry.1 ≠ var

variable {mapping : List (String × Term)} {names : List String} {formula : Formula}
variable {parts : List Formula}

theorem Remain.append {originals originals' remaining remaining' :
    List String} (first : Remain mapping originals remaining)
    (second : Remain mapping originals' remaining') :
    Remain mapping (originals ++ originals') (remaining ++ remaining') := by
  intro var member
  rcases List.mem_append.mp member with left | right
  · exact (first var left).imp_left (List.mem_append_left _)
  · exact (second var right).imp_left (List.mem_append_right _)

/-- What a quantifier binds is not replaced, and is not free either. -/
theorem Remain.bind {originals remaining : List String} {bound : String}
    (remain : Remain (mapping.filter fun entry => entry.1 != bound) originals remaining) :
    Remain mapping (originals.filter (· != bound)) (remaining.filter (· != bound)) := by
  intro var member
  rcases List.mem_filter.mp member with ⟨listed, other⟩
  rcases remain var listed with ⟨original, spared⟩
  refine ⟨List.mem_filter.mpr ⟨original, other⟩, ?_⟩
  rintro entry given rfl
  exact spared entry (List.mem_filter.mpr ⟨given, other⟩) rfl

theorem remain_arguments (puts : PutsConstants names mapping) (args : List Term) :
    Remain mapping ((args.filter fun term => !term.isConst).map Term.name)
      (((args.map (Term.replace mapping)).filter fun term => !term.isConst).map Term.name) := by
  intro var member
  rcases List.mem_map.mp member with ⟨term, listed, rfl⟩
  rcases List.mem_filter.mp listed with ⟨replaced, variable'⟩
  rcases List.mem_map.mp replaced with ⟨original, given, rfl⟩
  cases found : mapping.lookup original.name with
  | none =>
    rw [Term.replace, found, Option.getD_none] at variable' ⊢
    refine ⟨List.mem_map_of_mem (List.mem_filter.mpr ⟨given, variable'⟩), ?_⟩
    intro entry put same
    have different := List.lookup_eq_none_iff.mp found entry put
    exact bne_iff_ne.mp different same.symm
  | some value =>
    rcases List.lookup_eq_some_iff.mp found with ⟨front, back, whole, _⟩
    have put : (original.name, value) ∈ mapping :=
      whole ▸ List.mem_append_right front List.mem_cons_self
    rw [Term.replace, found, Option.getD_some, (puts _ put).2] at variable'
    cases variable'

theorem respects_remain : Respects fun mapping formula made =>
    PutsConstants names mapping -> Remain mapping formula.freeVariables made.freeVariables where
  atom := nofun
  pred := fun puts => remain_arguments puts _
  bilateral := fun puts => remain_arguments puts _
  neg := id
  join := fun atLeft atRight puts => (atLeft puts).append (atRight puts)
  quant := fun atRestriction atMatrix puts =>
    ((atRestriction (puts.filter _)).append (atMatrix (puts.filter _))).bind
  irregular := by
    intro mapping symbol parts made each puts
    induction each with
    | nil => exact nofun
    | cons first _ ih => exact (first puts).append ih

/-- Where only one variable is free, putting a constant for it makes a sentence. -/
theorem sentence_of_withConstant {made : Formula} {var name : String}
    (alone : forall other, other ∈ formula.freeVariables -> other = var)
    (done : formula.withConstant var name = .ok made) : made.Sentence := by
  have puts : PutsConstants [var] [(var, .const name)] := by
    intro entry member
    rw [List.mem_singleton.mp member]
    exact ⟨List.mem_cons_self, rfl⟩
  apply List.eq_nil_iff_forall_not_mem.mpr
  intro other remaining
  rcases respects_remain.instantiate formula done puts other remaining with ⟨original, spared⟩
  exact spared _ List.mem_cons_self (alone other original).symm

theorem Sentence.of_isInstance {quantifier : Quantifier} {var : String}
    {restriction matrix made : Formula}
    (sentence : (quant quantifier var restriction matrix).Sentence)
    (isInstance : Standard.IsInstance var restriction matrix names made) : made.Sentence := by
  have bound : forall other, other ∈ restriction.freeVariables ++ matrix.freeVariables ->
      other = var := by
    intro other member
    have unbound := List.filter_eq_nil_iff.mp sentence other member
    rwa [bne_iff_ne, not_not] at unbound
  rcases isInstance with ⟨name, _, atRestriction | atMatrix⟩
  · exact sentence_of_withConstant (fun other member => bound other (List.mem_append_left _ member))
      atRestriction
  · exact sentence_of_withConstant
      (fun other member => bound other (List.mem_append_right _ member)) atMatrix

/-! ## Parts of sentences -/

theorem freeVariablesOf_parts {symbol : String}
    (shape : formula.symbolAndParts? = some (symbol, parts)) :
    freeVariablesOf parts = formula.freeVariables := by
  cases formula with
  | atom | pred | bilateral | quant => cases shape
  | neg body =>
    cases shape
    exact List.append_nil body.freeVariables
  | join connective left right =>
    cases shape
    exact congrArg (left.freeVariables ++ ·) (List.append_nil right.freeVariables)
  | irregular symbol parts =>
    cases shape
    rfl

theorem Sentence.part {part : Formula} {symbol : String} (sentence : formula.Sentence)
    (shape : formula.symbolAndParts? = some (symbol, parts))
    (listed : part ∈ parts) : part.Sentence := by
  apply List.subset_nil.mp
  rw [<- sentence, <- freeVariablesOf_parts shape]
  exact subset_gathered (fun _ _ => rfl) listed

theorem all_isConst_of_sentence {args : List Term}
    (none : (args.filter fun term => !term.isConst).map Term.name = []) :
    args.all Term.isConst = true := by
  apply List.all_eq_true.mpr
  intro term listed
  have constant := List.filter_eq_nil_iff.mp (List.map_eq_nil_iff.mp none) term listed
  rwa [Bool.not_eq_true', Bool.not_eq_false] at constant

/-- An atomic sentence is ground, so it is its own only ground atom. -/
theorem Sentence.groundAtoms_eq (sentence : formula.Sentence)
    (atomic : formula.isAtomic = true) : formula.groundAtoms = [formula.text] := by
  cases formula with
  | atom name => rfl
  | pred name args | bilateral name args star starred =>
    exact if_pos (all_isConst_of_sentence sentence)
  | _ => cases atomic

end Formula

namespace Tableau

variable {tableau : Tableau} {formulas : List Signed} {found : Branch}

theorem closed_sentences [Memory] : Closed .standard fun signed => signed.formula.Sentence := by
  intro tableau node found expansion standard sentence proposed conclusion chosen part listed
  rcases standard_rule_of_proposed standard proposed with ⟨situation, rule, ruled, rfl⟩
  rcases (Standard.rule_chosen ruled).source chosen listed with same |
    ⟨symbol, parts, shape, within, _⟩ | ⟨_, _, impossible, _⟩ | ⟨_, _, _, _, shape, isInstance⟩
  · exact same ▸ sentence
  · exact sentence.part shape within
  · cases impossible
  · rw [shape] at sentence
    exact sentence.of_isInstance isInstance

/-! ## Models -/

variable {id : Nat} {signed : Signed}

/-- On a branch that is not closed, a written formula that has a definite sign is found under no
other one. -/
theorem find?_isSome_iff (regular : RegularBranch tableau id found)
    (explained : Explained tableau found) (unclosed : found.closure = none)
    (member : signed ∈ tableau.formulasOn found) (definite : signed.sign.definite = true)
    {sign : Sign} (definite' : sign.definite = true) :
    (found.find? signed.formula.text sign).isSome = true ↔ sign = signed.sign := by
  have lookedUp := regular.holds_iff ⟨sign, signed.formula⟩
  rw [Branch.holds] at lookedUp
  rw [lookedUp]
  constructor
  · rintro ⟨other, member', text, rfl⟩
    exact explained.unanimous unclosed member' member text definite' definite
  · rintro rfl
    exact ⟨signed, member, rfl, rfl⟩

/-- The value that such a branch gives to a formula under a definite sign. -/
theorem ofTruth_valueOn (regular : RegularBranch tableau id found)
    (explained : Explained tableau found) (unclosed : found.closure = none)
    (member : signed ∈ tableau.formulasOn found) (definite : signed.sign.definite = true) :
    Sign.ofTruth (valueOn found signed.formula.text) = signed.sign := by
  have lookedUp (sign : Sign) (definite' : sign.definite = true) :
      (found.find? signed.formula.text sign).isSome = decide (sign = signed.sign) := by
    rw [Bool.eq_iff_iff, decide_eq_true_iff]
    exact find?_isSome_iff regular explained unclosed member definite definite'
  simp only [valueOn, lookedUp .t rfl, lookedUp .f rfl, lookedUp .e rfl]
  cases same : signed.sign with
  | t | f | e => rfl
  | m | n | v =>
    rw [same] at definite
    cases definite

theorem mem_valuations_iff {atom : String} {value : Truth} :
    (atom, value) ∈ (tableau.modelOf found).valuations ↔
      (∃ signed, signed ∈ tableau.formulasOn found ∧ atom ∈ signed.formula.groundAtoms) ∧
        value = valueOn found atom := by
  have atoms : atom ∈ Sorted.ofList ((tableau.nodesOn found).flatMap fun node =>
      node.signed.formula.groundAtoms) ↔
        ∃ signed, signed ∈ tableau.formulasOn found ∧ atom ∈ signed.formula.groundAtoms := by
    rw [Sorted.ofList, Sorted.mem_insertAll_iff, List.mem_flatMap]
    constructor
    · rintro (⟨node, listed, occurs⟩ | impossible)
      · exact ⟨node.signed, signed_mem_formulasOn listed, occurs⟩
      · cases impossible
    · rintro ⟨signed, listed, occurs⟩
      rw [formulasOn_eq_map] at listed
      rcases List.mem_map.mp listed with ⟨node, onBranch, rfl⟩
      exact .inl ⟨node, onBranch, occurs⟩
  rw [modelOf, List.mem_map, <- atoms]
  constructor
  · rintro ⟨other, listed, same⟩
    cases same
    exact ⟨listed, rfl⟩
  · rintro ⟨listed, rfl⟩
    exact ⟨atom, listed, rfl⟩

theorem ofTruth_injective {value other : Truth} (same : Sign.ofTruth value = Sign.ofTruth other) :
    value = other := by
  cases value <;> cases other <;> first | rfl | cases same

/-- The model of a branch that is not closed gives to an atomic sentence under a definite sign the
value of that sign alone. -/
theorem mem_valuations_iff_ofTruth (regular : RegularBranch tableau id found)
    (explained : Explained tableau found) (unclosed : found.closure = none)
    (member : signed ∈ tableau.formulasOn found) (definite : signed.sign.definite = true)
    (atomic : signed.formula.isAtomic = true) (sentence : signed.formula.Sentence) (value : Truth) :
    (signed.formula.text, value) ∈ (tableau.modelOf found).valuations ↔
      Sign.ofTruth value = signed.sign := by
  have read := ofTruth_valueOn regular explained unclosed member definite
  rw [mem_valuations_iff, <- read]
  constructor
  · rintro ⟨_, rfl⟩
    rfl
  · intro same
    refine ⟨⟨signed, member, ?_⟩, ofTruth_injective same⟩
    rw [sentence.groundAtoms_eq atomic]
    exact List.mem_cons_self

/-- From sentences only sentences are reached.  A branch that is worked on is not closed, and on a
branch that is not closed no written formula has two definite signs, and its model gives to every
atomic formula under a definite sign just the value of that sign. -/
theorem branches_realized [Memory] (formulas : List Signed) (tableau : Tableau)
    (sentences : forall signed, signed ∈ formulas -> signed.formula.Sentence)
    (reachable : Reachable .standard formulas tableau) :
    (forall id node, tableau.node? id = some node -> node.signed.formula.Sentence) ∧
    (forall id, id ∈ tableau.opened ->
      ∃ found, tableau.branch? id = some found ∧ found.isClosed = false) ∧
    forall id found, tableau.branch? id = some found -> found.isClosed = false ->
      (forall node other, node ∈ tableau.nodesOn found -> other ∈ tableau.nodesOn found ->
        node.signed.formula.text = other.signed.formula.text ->
        node.signed.sign.definite = true -> other.signed.sign.definite = true ->
          node.signed.sign = other.signed.sign) ∧
      forall node, node ∈ tableau.nodesOn found -> node.signed.formula.isAtomic = true ->
        node.signed.sign.definite = true -> forall value,
          (node.signed.formula.text, value) ∈ (tableau.modelOf found).valuations ↔
            Sign.ofTruth value = node.signed.sign := by
  have regular := reachable.regular
  have onNodes : forall id node, tableau.node? id = some node -> node.signed.formula.Sentence :=
    fun id node given => reachable.bears closed_sentences sentences id node.signed
      (congrArg (Option.map Node.signed) given)
  refine ⟨onNodes, ?_, ?_⟩
  · intro id worked
    rcases regular.openedFound id worked with ⟨found, known, unclosed⟩
    exact ⟨found, known, isClosed_eq_false_iff.mpr unclosed⟩
  · intro id found known open'
    have unclosed := isClosed_eq_false_iff.mp open'
    have explained := reachable.explained known
    constructor
    · intro node other listed listed'
      exact explained.unanimous unclosed (signed_mem_formulasOn listed)
        (signed_mem_formulasOn listed')
    · intro node listed atomic definite
      rcases List.mem_filterMap.mp listed with ⟨member, _, given⟩
      exact mem_valuations_iff_ofTruth (regular.branches id found known) explained unclosed
        (signed_mem_formulasOn listed) definite atomic (onNodes member node given)

open scoped Memory

/-- If some individual of one kind is not of another, the model of the branch denies the other
kind of the new constant. -/
theorem counterinstance_realized : ∃ tableau found,
      solve (.quant .exist "X" (.pred "P" [.var "X"]) (.neg (.pred "Q" [.var "X"]))) .t false =
        .ok tableau ∧
      tableau.opened = [0] ∧ tableau.branch? 0 = some found ∧
      forall value, ("Q(c_1)", value) ∈ (tableau.modelOf found).valuations ↔
        Sign.ofTruth value = .f := by
  have solved : ∃ tableau, ofFormulas .standard
      [⟨.t, .quant .exist "X" (.pred "P" [.var "X"]) (.neg (.pred "Q" [.var "X"]))⟩] false =
        .ok tableau := ⟨_, rfl⟩
  rcases solved with ⟨tableau, solved⟩
  have realized := branches_realized _ tableau (List.forall_mem_singleton.mpr (by decide))
    (reachable_of_ofFormulas solved)
  cases solved
  exact ⟨_, _, rfl, rfl, rfl, (realized.2.2 0 _ rfl rfl).2 _
    (.tail _ (.tail _ (.tail _ (.head _)))) rfl rfl⟩

end Tableau
end WeakKleene
