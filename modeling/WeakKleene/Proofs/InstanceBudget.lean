import Mathlib.Data.Finset.Dedup
import Mathlib.Data.Finset.Card
import WeakKleene.Proofs.FreshConstants
import WeakKleene.Proofs.Termination

namespace WeakKleene

/-!
# What is left to do on a branch with quantifiers

A universal formula stays on its branch and is instantiated again for every
constant that it was not instantiated with.  How often that can happen depends
on the constants that occur and on those that may still be made up.  Each node
that can make up constants does so once, at most two, and then asks for none.
So the constants that a universal formula has not met, together with those that
may still come, are a budget that only falls, and every instantiation takes
something out of it.

There is one exception.  On a branch without any constant a universal formula is
instantiated with a new one.  If that constant does not reach the branch, the
branch is still without a constant, and the formula is instantiated anew.
-/

variable {formula : Formula}

namespace Formula

/-! ## What a formula costs -/

def quantifiers : Formula -> Nat
  | neg body => body.quantifiers
  | join _ left right => left.quantifiers + right.quantifiers
  | quant .. => 1
  | _ => 0

/-- A bound for the work on one conclusion about instances. -/
def outlay (restriction matrix : Formula) : Nat :=
  3 * (restriction.complexity + matrix.complexity + 1) + 1

/-- A bound for the work on a formula, where each universal formula in it meets at most one more
constant than there is room for. -/
def cost (room : Nat) : Formula -> Nat
  | neg body => 1 + body.cost room
  | join _ left right => 1 + left.cost room + right.cost room
  | quant .all _ restriction matrix => (room + 1) * outlay restriction matrix
  | quant .exist _ restriction matrix => outlay restriction matrix
  | _ => 0

theorem cost_mono {room room' : Nat} (less : room ≤ room') (formula : Formula) :
    formula.cost room ≤ formula.cost room' := by
  induction formula using cost.induct with
  | case1 body ih => exact Nat.add_le_add_left ih 1
  | case2 connective left right atLeft atRight =>
    exact Nat.add_le_add (Nat.add_le_add_left atLeft 1) atRight
  | case3 var restriction matrix => exact Nat.mul_le_mul_right _ (Nat.succ_le_succ less)
  | case4 var restriction matrix => exact Nat.le_refl _
  | case5 formula notNeg notJoin notAll notExist =>
    rw [cost]
    · exact Nat.zero_le _
    · exact notNeg
    · exact notJoin
    · exact notAll
    · exact notExist

/-- Without quantifiers only the connectives have to be taken apart. -/
theorem cost_of_quantifierFree (free : formula.QuantifierFree) (room : Nat) :
    formula.cost room = formula.complexity ∧ formula.quantifiers = 0 := by
  induction free with
  | @basic formula given =>
    cases formula with
    | atom | pred | bilateral => exact ⟨rfl, rfl⟩
    | _ => cases given
  | neg inner ih => exact ⟨congrArg (1 + ·) ih.1, ih.2⟩
  | join connective first second atFirst atSecond =>
    rw [cost, complexity, quantifiers, atFirst.1, atFirst.2, atSecond.1, atSecond.2]
    exact ⟨rfl, rfl⟩

end Formula

namespace Branch

variable (branch : Branch) {node other : Nat}

theorem usedFor_instantiate_self (node : Nat) (name : String) :
    (branch.instantiate node name).usedFor node = Sorted.insert name (branch.usedFor node) := by
  rw [usedFor, instantiate, List.lookup_cons, beq_self_eq_true]
  rfl

theorem lookup_filter_ne {records : List (Nat × List String)} (different : other ≠ node) :
    (records.filter fun entry => entry.1 != node).lookup other = records.lookup other := by
  induction records with
  | nil => rfl
  | cons first rest ih =>
    rw [List.filter_cons, List.lookup_cons]
    by_cases same : first.1 = node
    · have apart : (other == first.1) = false := by
        rw [same]
        exact beq_eq_false_iff_ne.mpr different
      simp only [same, bne_self_eq_false, Bool.false_eq_true, if_false, ih]
      rw [<- same, apart]
    · rw [if_pos (bne_iff_ne.mpr same), List.lookup_cons, ih]

theorem usedFor_instantiate_of_ne (different : other ≠ node) (name : String) :
    (branch.instantiate node name).usedFor other = branch.usedFor other := by
  rw [usedFor, instantiate, List.lookup_cons, beq_eq_false_iff_ne.mpr different]
  show (List.lookup other (branch.instantiated.filter fun entry => entry.1 != node)).getD [] = _
  rw [lookup_filter_ne different, usedFor]

/-- What marking a node records about it: it is processed, or it was instantiated with one more
constant. -/
theorem mark_self (node : Nat) (constant : Option String) :
    node ∈ (branch.mark node constant).processed ∨ ∃ name, constant = some name ∧
      (branch.mark node constant).usedFor node = Sorted.insert name (branch.usedFor node) := by
  have done : node ∈ Sorted.insert node branch.processed := Sorted.mem_insert_iff.mpr (.inl rfl)
  cases constant with
  | none => exact .inl done
  | some name =>
    simp only [mark]
    split
    · exact .inl done
    · exact .inr ⟨name, rfl, branch.usedFor_instantiate_self node name⟩

theorem mark_of_ne (different : other ≠ node) (constant : Option String) :
    (other ∈ (branch.mark node constant).processed ↔ other ∈ branch.processed) ∧
      (branch.mark node constant).usedFor other = branch.usedFor other := by
  have apart : other ∈ Sorted.insert node branch.processed ↔ other ∈ branch.processed := by
    rw [Sorted.mem_insert_iff, or_iff_right different]
  cases constant with
  | none => exact ⟨apart, rfl⟩
  | some name =>
    simp only [mark]
    split
    · exact ⟨apart, rfl⟩
    · exact ⟨Iff.rfl, branch.usedFor_instantiate_of_ne different name⟩

end Branch

variable {used : List String} {name : String}

namespace Tableau

open Formula

variable {tableau after : Tableau} {found new : Branch} {entry : Nat × Signed} {made : List String}

/-! ## What a branch costs -/

def usedOn (found : Branch) (entry : Nat × Signed) : List String :=
  if entry.2.formula.isUniversal then found.usedFor entry.1 else []

/-- The constants that an entry may still make up: at most two for each of its quantifiers, and
none for a universal formula that was instantiated before. -/
def demand (found : Branch) (entry : Nat × Signed) : Nat :=
  if entry.1 ∈ found.processed ∨ usedOn found entry ≠ [] then 0
  else 2 * entry.2.formula.quantifiers

def demands (tableau : Tableau) (found : Branch) : Nat :=
  ((tableau.contents found).map (demand found)).sum

/-- The constants beside the given ones that occur on a branch or may still be made up there. -/
def room (tableau : Tableau) (found : Branch) (used : List String) : Nat :=
  ((tableau.namesOn found).toFinset \ used.toFinset).card + tableau.demands found

/-- A bound for the work on a signed formula.  Signs that stand for several values need one more
step, unless a rule for a quantifier takes them apart. -/
def bill (room : Nat) (signed : Signed) : Nat :=
  signed.formula.cost room + if signed.sign.definite || signed.formula.isUniversal then 0 else 1

def price (tableau : Tableau) (found : Branch) (entry : Nat × Signed) : Nat :=
  if entry.1 ∈ found.processed then 0
  else bill (tableau.room found (usedOn found entry)) entry.2

def expense (tableau : Tableau) (found : Branch) : Nat :=
  ((tableau.contents found).map (tableau.price found)).sum

theorem bill_mono {room room' : Nat} (less : room ≤ room') (signed : Signed) :
    bill room signed ≤ bill room' signed :=
  Nat.add_le_add_right (cost_mono less signed.formula) _

theorem demand_le (found : Branch) (entry : Nat × Signed) :
    demand found entry ≤ 2 * entry.2.formula.quantifiers := by
  unfold demand
  split
  · exact Nat.zero_le _
  · exact Nat.le_refl _

theorem room_le_unused (tableau : Tableau) (found : Branch) (used : List String) :
    tableau.room found used ≤ tableau.room found [] := by
  refine Nat.add_le_add_right (Finset.card_le_card ?_) _
  intro name member
  rw [Finset.mem_sdiff] at member ⊢
  exact ⟨member.1, by simp⟩

/-- The constants on a branch grow by the new ones at most. -/
theorem card_namesOn_le (names : after.namesOn new ⊆ tableau.namesOn found ++ made)
    (used : List String) :
    ((after.namesOn new).toFinset \ used.toFinset).card ≤
      ((tableau.namesOn found).toFinset \ used.toFinset).card + made.length := by
  have covered : (after.namesOn new).toFinset \ used.toFinset ⊆
      ((tableau.namesOn found).toFinset \ used.toFinset) ∪ made.toFinset := by
    intro name member
    simp only [Finset.mem_sdiff, List.mem_toFinset, Finset.mem_union] at member ⊢
    rcases List.mem_append.mp (names member.1) with old | come
    · exact .inl ⟨old, member.2⟩
    · exact .inr come
  calc ((after.namesOn new).toFinset \ used.toFinset).card
      ≤ (((tableau.namesOn found).toFinset \ used.toFinset) ∪ made.toFinset).card :=
        Finset.card_le_card covered
    _ ≤ ((tableau.namesOn found).toFinset \ used.toFinset).card + made.toFinset.card :=
        Finset.card_union_le _ _
    _ ≤ ((tableau.namesOn found).toFinset \ used.toFinset).card + made.length :=
        Nat.add_le_add_left (List.toFinset_card_le made) _

/-- The constants and what may come do not grow, if as many constants as come are no longer
asked for. -/
theorem room_le (names : after.namesOn new ⊆ tableau.namesOn found ++ made)
    (paid : made.length + after.demands new ≤ tableau.demands found) (used : List String) :
    after.room new used ≤ tableau.room found used := by
  have few := card_namesOn_le names used
  unfold room
  omega

/-- A constant that occurs and was not used leaves less room when it is used. -/
theorem room_insert_lt (names : after.namesOn new ⊆ tableau.namesOn found)
    (demands : after.demands new ≤ tableau.demands found) (occurs : name ∈ tableau.namesOn found)
    (unused : name ∉ used) :
    after.room new (Sorted.insert name used) < tableau.room found used := by
  have fewer : (after.namesOn new).toFinset \ (Sorted.insert name used).toFinset ⊂
      (tableau.namesOn found).toFinset \ used.toFinset := by
    apply Finset.ssubset_iff_subset_ne.mpr
    constructor
    · intro other member
      simp only [Finset.mem_sdiff, List.mem_toFinset, Sorted.mem_insert_iff, not_or] at member ⊢
      exact ⟨names member.1, member.2.2⟩
    · intro same
      have there : name ∈ (tableau.namesOn found).toFinset \ used.toFinset := by
        simp only [Finset.mem_sdiff, List.mem_toFinset]
        exact ⟨occurs, unused⟩
      rw [<- same] at there
      simp only [Finset.mem_sdiff, List.mem_toFinset, Sorted.mem_insert_iff, true_or,
        not_true_eq_false, and_false] at there
  exact Nat.add_lt_add_of_lt_of_le (Finset.card_lt_card fewer) demands

/-! ## One expansion -/

section Prolonged

variable {id : Nat} {signed : Signed} {constant : Option String} {conclusion : List Signed}

theorem usedOn_prolonged {old : Branch} (prolonged : Prolonged tableau after old new conclusion)
    (entry : Nat × Signed) : usedOn new entry = usedOn old entry := by
  rw [usedOn, Branch.usedFor, prolonged.instantiated, usedOn, Branch.usedFor]

section

variable (prolonged : Prolonged tableau after (found.mark id constant) new conclusion)
include prolonged

theorem record_of_ne (different : entry.1 ≠ id) :
    (entry.1 ∈ new.processed ↔ entry.1 ∈ found.processed) ∧
      usedOn new entry = usedOn found entry := by
  rcases found.mark_of_ne different constant with ⟨processed, used⟩
  rw [usedOn_prolonged prolonged, prolonged.processed, processed, usedOn, used, usedOn]
  exact ⟨Iff.rfl, rfl⟩

/-- What the expanded node asked for is not asked for any more, except by the conclusion. -/
theorem demands_prolonged (present : (id, signed) ∈ tableau.contents found)
    (spent : id ∈ new.processed ∨ usedOn new (id, signed) ≠ []) :
    after.demands new + demand found (id, signed) ≤ tableau.demands found +
      (conclusion.map fun part => 2 * part.formula.quantifiers).sum := by
  refine prolonged.sum_add_le present ?_ ?_ fun entry _ => demand_le new entry
  · intro entry different
    rcases record_of_ne prolonged different with ⟨processed, used⟩
    simp only [demand, processed, used, Nat.le_refl]
  · rw [demand, if_pos spent, Nat.zero_add]

theorem namesOn_prolonged (within : forall part, part ∈ conclusion ->
      part.formula.constants ⊆ tableau.namesOn found ++ made) :
    after.namesOn new ⊆ tableau.namesOn found ++ made := by
  intro name occurs
  rcases mem_namesOn_iff.mp occurs with ⟨part, member, inside⟩
  rcases prolonged.mem_new member with old | added
  · rw [formulasOn_mark] at old
    exact List.mem_append_left _ (mem_namesOn_iff.mpr ⟨part, old, inside⟩)
  · exact within part added inside

/-- A branch gets cheaper if its expanded node does, by more than the conclusion costs. -/
theorem expense_lt_of_price (present : (id, signed) ∈ tableau.contents found)
    (narrower : forall used, after.room new used ≤ tableau.room found used) {fall : Nat}
    (own : after.price new (id, signed) + fall ≤ tableau.price found (id, signed))
    (cheap : (conclusion.map (bill (tableau.room found []))).sum < fall) :
    after.expense new < tableau.expense found := by
  have balance : after.expense new + fall ≤
      tableau.expense found + (conclusion.map (bill (tableau.room found []))).sum := by
    refine prolonged.sum_add_le present ?_ own ?_
    · intro entry different
      rcases record_of_ne prolonged different with ⟨processed, used⟩
      simp only [price, processed, used]
      split
      · exact Nat.le_refl _
      · exact bill_mono (narrower _) _
    · intro entry _
      unfold price
      split
      · exact Nat.zero_le _
      · exact bill_mono (Nat.le_trans (room_le_unused after new _) (narrower [])) _
  omega

end

end Prolonged

end Tableau

/-! ## What conclusions cost -/

variable {situation : Situation}

namespace Standard

open Formula Tableau

variable {sign : Sign} {cases : List (List Signed)} {conclusion : List Signed} {signed : Signed}

theorem sum_formulas_le {parts : List Formula} (weigh : Formula -> Nat)
    (sublist : (conclusion.map Signed.formula).Sublist parts) :
    (conclusion.map fun part => weigh part.formula).sum ≤ (parts.map weigh).sum := by
  have mapped : (conclusion.map fun part => weigh part.formula) =
      (conclusion.map Signed.formula).map weigh := by
    rw [List.map_map]
    rfl
  rw [mapped]
  exact (sublist.map weigh).sum_le_sum fun _ _ => Nat.zero_le _

/-- A conclusion costs less than its premise, and has no more quantifiers. -/
structure Cheaper (signed : Signed) (conclusion : List Signed) : Prop where
  bill : forall room, (conclusion.map (Tableau.bill room)).sum < Tableau.bill room signed
  quantifiers : (conclusion.map fun part => 2 * part.formula.quantifiers).sum ≤
    2 * signed.formula.quantifiers

theorem Analysis.cheaper (analysis : Analysis signed cases)
    (costs : forall room, ((components signed.formula).map (cost room)).sum <
      Tableau.bill room signed)
    (fewer : ((components signed.formula).map fun part => 2 * part.quantifiers).sum ≤
      2 * signed.formula.quantifiers) (chosen : conclusion ∈ cases) :
    Cheaper signed conclusion where
  bill := by
    intro room
    have bills : conclusion.map (Tableau.bill room) =
        conclusion.map fun part => part.formula.cost room := by
      apply List.map_congr_left
      intro part member
      rw [Tableau.bill, analysis.definite conclusion chosen part member, Bool.true_or, if_pos rfl,
        Nat.add_zero]
    rw [bills]
    exact Nat.lt_of_le_of_lt (sum_formulas_le (cost room) (analysis.sublist conclusion chosen))
      (costs room)
  quantifiers := Nat.le_trans (sum_formulas_le (fun part => 2 * part.quantifiers)
    (analysis.sublist conclusion chosen)) fewer

theorem Analysis.cheaper_compound (analysis : Analysis ⟨sign, formula⟩ cases)
    (compound : (∃ body, formula = .neg body) ∨
      ∃ connective left right, formula = .join connective left right) :
    forall conclusion, conclusion ∈ cases -> Cheaper ⟨sign, formula⟩ conclusion := by
  rcases compound with ⟨body, rfl⟩ | ⟨connective, left, right, rfl⟩ <;>
  · refine fun conclusion chosen => analysis.cheaper (fun room => ?_) ?_ chosen
    · simp only [components, List.map_cons, List.map_nil, List.sum_cons, List.sum_nil,
        Tableau.bill, cost]
      omega
    · simp only [components, List.map_cons, List.map_nil, List.sum_cons, List.sum_nil,
        Formula.quantifiers]
      omega

/-- Atomic formulas cost nothing but the step that spells out m and n. -/
theorem spelledOut_cheaper (atomic : formula.isAtomic = true)
    (found : spelledOut formula sign = some cases) (chosen : conclusion ∈ cases) :
    Cheaper ⟨sign, formula⟩ conclusion := by
  have spread : sign.definite = false := by
    cases sign with
    | m | n => rfl
    | _ => cases found
  have basic := components_of_isAtomic atomic
  refine (spelledOut_analysis found basic).cheaper (fun room => ?_) (by simp [basic]) chosen
  cases formula with
  | atom | pred | bilateral => simp [components, Tableau.bill, cost, spread, isUniversal]
  | _ => cases atomic

theorem length_coinedFor_le (quantifier : Quantifier) (sign : Sign) (situation : Situation) :
    (coinedFor quantifier sign situation).length ≤ 2 := by
  unfold coinedFor
  split <;> try split
  all_goals simp

/-- Instances cost no more than their outlay, and have no quantifiers. -/
theorem Instantiates.bill_lt {var : String} {restriction matrix : Formula} {names : List String}
    {conclusions : List (List Signed)}
    (instantiates : Instantiates var restriction matrix names conclusions)
    (first : restriction.QuantifierFree) (second : matrix.QuantifierFree)
    (chosen : conclusion ∈ conclusions) (room : Nat) :
    (conclusion.map (Tableau.bill room)).sum < outlay restriction matrix ∧
      (conclusion.map fun part => 2 * part.formula.quantifiers).sum = 0 := by
  have each {part : Signed} (member : part ∈ conclusion) :
      part.formula.cost room ≤ restriction.complexity + matrix.complexity ∧
        part.formula.quantifiers = 0 := by
    have drawn {formula : Formula} (free : formula.QuantifierFree) {name : String}
        (done : formula.withConstant var name = .ok part.formula) :
        part.formula.cost room = formula.complexity ∧ part.formula.quantifiers = 0 := by
      rcases exists_withConstant free var name with ⟨made, done', free'⟩
      rw [done] at done'
      rw [<- Except.ok.inj done'] at free'
      rw [<- complexity_withConstant done]
      exact cost_of_quantifierFree free' room
    rcases instantiates.parts conclusion chosen part member with ⟨name, _, here | there⟩
    · exact ⟨(drawn first here).1.trans_le (Nat.le_add_right _ _), (drawn first here).2⟩
    · exact ⟨(drawn second there).1.trans_le (Nat.le_add_left _ _), (drawn second there).2⟩
  constructor
  · have short := (instantiates.short conclusion chosen).2
    have bounded : (conclusion.map (Tableau.bill room)).sum ≤
        conclusion.length * (restriction.complexity + matrix.complexity + 1) := by
      rw [<- List.length_map (Tableau.bill room)]
      refine List.sum_le_card_nsmul _ _ ?_
      intro cost listed
      rcases List.mem_map.mp listed with ⟨part, member, rfl⟩
      have cheap := (each member).1
      unfold Tableau.bill
      split <;> omega
    calc (conclusion.map (Tableau.bill room)).sum
        ≤ conclusion.length * (restriction.complexity + matrix.complexity + 1) := bounded
      _ ≤ 3 * (restriction.complexity + matrix.complexity + 1) := Nat.mul_le_mul_right _ short
      _ < outlay restriction matrix := Nat.lt_succ_self _
  · apply List.sum_eq_zero
    intro count listed
    rcases List.mem_map.mp listed with ⟨part, member, rfl⟩
    rw [(each member).2, Nat.mul_zero]

/-- What the rule for a flat formula does.  It takes the formula apart, or gives a witness for an
existential formula, or instantiates a universal one and records the constant. -/
inductive FlatRule (signed : Signed) (situation : Situation) (rule : Rule) : Prop where
  | apart (particular : signed.formula.isUniversal = false)
      (nothing : coined signed situation = []) (unrecorded : rule.constant = none)
      (analysis : Analysis signed rule.conclusions)
      (cheaper : forall conclusion, conclusion ∈ rule.conclusions -> Cheaper signed conclusion) :
      FlatRule signed situation rule
  | witness {var : String} {restriction matrix : Formula}
      (existential : signed.formula = .quant .exist var restriction matrix)
      (first : restriction.QuantifierFree) (second : matrix.QuantifierFree)
      (unrecorded : rule.constant = none)
      (instantiates : Instantiates var restriction matrix
        (situation.existing ++ coined signed situation) rule.conclusions) :
      FlatRule signed situation rule
  | instantiation {var name : String} {restriction matrix : Formula}
      (universal : signed.formula = .quant .all var restriction matrix)
      (first : restriction.QuantifierFree) (second : matrix.QuantifierFree)
      (recorded : rule.constant = some name)
      (drawn : Draws situation (coined signed situation) name)
      (instantiates : Instantiates var restriction matrix
        (situation.existing ++ coined signed situation) rule.conclusions) :
      FlatRule signed situation rule

theorem flatRule_of_rule {rule : Rule} (flat : signed.formula.Flat)
    (ruled : Standard.rule signed situation = .ok (some rule)) :
    FlatRule signed situation rule := by
  rcases signed with ⟨sign, formula⟩
  cases flat with
  | @atomic formula given =>
    have spelled (ruled : atomicRule ⟨sign, formula⟩ = some rule)
        (particular : formula.isUniversal = false)
        (nothing : coined ⟨sign, formula⟩ situation = []) :
        FlatRule ⟨sign, formula⟩ situation rule := by
      rcases Option.map_eq_some_iff.mp ruled with ⟨cases, decided, rfl⟩
      exact .apart particular nothing rfl
        (spelledOut_analysis decided (components_of_isAtomic given))
        fun _ => spelledOut_cheaper given decided
    cases formula with
    | atom | pred | bilateral => exact spelled (Except.ok.inj ruled) rfl rfl
    | _ => cases given
  | neg inner =>
    rcases Option.map_eq_some_iff.mp (Except.ok.inj ruled) with ⟨cases, decided, rfl⟩
    have analysis := negationCases_analysis decided
    exact .apart rfl rfl rfl analysis (analysis.cheaper_compound (.inl ⟨_, rfl⟩))
  | join connective first second =>
    rcases Option.map_eq_some_iff.mp (Except.ok.inj ruled) with ⟨cases, decided, rfl⟩
    have analysis := joinCases_analysis decided
    exact .apart rfl rfl rfl analysis (analysis.cheaper_compound (.inr ⟨_, _, _, rfl⟩))
  | exist first second =>
    rcases existentialRule_instantiates ruled with ⟨unrecorded, _, instantiates⟩
    exact .witness rfl first second unrecorded instantiates
  | all first second =>
    rcases universalChoice_instantiates ruled with ⟨name, recorded, drawn, _, instantiates⟩
    exact .instantiation rfl first second recorded drawn instantiates

theorem FlatRule.few {rule : Rule}
    (derived : FlatRule signed situation rule) : rule.conclusions.length ≤ 6 := by
  cases derived with
  | apart particular nothing unrecorded analysis => exact Nat.le_trans analysis.few (by decide)
  | witness existential first second unrecorded instantiates => exact instantiates.few
  | instantiation universal first second recorded drawn instantiates => exact instantiates.few

end Standard

/-! ## Every expansion but one kind lowers the expense -/

namespace Tableau

open Formula

section Prolonged

variable {tableau after : Tableau} {found new : Branch} {id : Nat} {signed : Signed}
variable {constant : Option String} {conclusion : List Signed} {made : List String}

/-- An entry asks for as many constants as its quantifiers may, before it was expanded. -/
theorem demand_of_unused (unprocessed : id ∉ found.processed)
    (unused : usedOn found (id, signed) = []) :
    demand found (id, signed) = 2 * signed.formula.quantifiers := by
  rw [demand, if_neg]
  exact fun spent => spent.elim unprocessed fun used => used unused

theorem expense_lt_of_processed
    (prolonged : Prolonged tableau after (found.mark id none) new conclusion)
    (present : (id, signed) ∈ tableau.contents found) (unprocessed : id ∉ found.processed)
    (particular : signed.formula.isUniversal = false)
    (names : after.namesOn new ⊆ tableau.namesOn found ++ made)
    (paid : made.length + (conclusion.map fun part => 2 * part.formula.quantifiers).sum ≤
      2 * signed.formula.quantifiers)
    (cheap : (conclusion.map (bill (tableau.room found []))).sum <
      bill (tableau.room found []) signed) : after.expense new < tableau.expense found := by
  have unused : usedOn found (id, signed) = [] := by
    rw [usedOn, particular]
    rfl
  have processed : id ∈ new.processed := by
    rw [prolonged.processed]
    exact Sorted.mem_insert_iff.mpr (.inl rfl)
  have spent := demands_prolonged prolonged present (.inl processed)
  rw [demand_of_unused unprocessed unused] at spent
  refine expense_lt_of_price prolonged present (room_le names (by omega)) ?_ cheap
  rw [price, if_pos processed, price, if_neg unprocessed, unused, Nat.zero_add]

/-- The price of a universal formula is its outlay for every constant that it may still meet. -/
theorem price_universal (tableau : Tableau) (found : Branch) (id : Nat) (sign : Sign)
    (var : String) (restriction matrix : Formula) :
    tableau.price found (id, ⟨sign, .quant .all var restriction matrix⟩) =
      if id ∈ found.processed then 0
      else (tableau.room found (found.usedFor id) + 1) * outlay restriction matrix := by
  simp only [price, bill, usedOn, isUniversal, cost, Bool.or_true, if_true, Nat.add_zero]

/-- How an instantiation takes something out of the room: the constant occurred and was not used,
or it was the first one, and the formula asks for no others. -/
def Taken (tableau after : Tableau) (found new : Branch) (made used : List String)
    (name : String) : Prop :=
  (made = [] ∧ name ∈ tableau.namesOn found ∧ name ∉ used ∧
      after.demands new ≤ tableau.demands found) ∨
    (made.length ≤ 1 ∧ used = [] ∧ after.demands new + 2 ≤ tableau.demands found)

theorem room_lt_of_taken (names : after.namesOn new ⊆ tableau.namesOn found ++ made)
    (taken : Taken tableau after found new made used name) :
    after.room new (Sorted.insert name used) < tableau.room found used := by
  rcases taken with ⟨nothing, occurs, unused, demands⟩ | ⟨one, first, demands⟩
  · rw [nothing, List.append_nil] at names
    exact room_insert_lt names demands occurs unused
  · have few := card_namesOn_le names []
    have most := room_le_unused after new (Sorted.insert name used)
    rw [first] at most ⊢
    unfold room at most ⊢
    omega

theorem paid_of_taken (taken : Taken tableau after found new made used name) :
    made.length + after.demands new ≤ tableau.demands found := by
  rcases taken with ⟨nothing, _, _, demands⟩ | ⟨one, _, demands⟩
  · rwa [nothing, List.length_nil, Nat.zero_add]
  · omega

/-- An instantiation of a universal formula takes one constant out of its room, or all of them. -/
theorem expense_lt_of_instantiated {var : String} {sign : Sign} {restriction matrix : Formula}
    (prolonged : Prolonged tableau after (found.mark id (some name)) new conclusion)
    (present : (id, ⟨sign, .quant .all var restriction matrix⟩) ∈ tableau.contents found)
    (unprocessed : id ∉ found.processed) (names : after.namesOn new ⊆ tableau.namesOn found ++ made)
    (free : (conclusion.map fun part => 2 * part.formula.quantifiers).sum = 0)
    (cheap : (conclusion.map (bill (tableau.room found []))).sum < outlay restriction matrix)
    (drawn : (made = [] ∧ name ∈ tableau.namesOn found ∧ name ∉ found.usedFor id) ∨
      (made.length ≤ 1 ∧ found.usedFor id = [])) :
    after.expense new < tableau.expense found := by
  let entry : Nat × Signed := (id, ⟨sign, .quant .all var restriction matrix⟩)
  have recorded : id ∈ new.processed ∨
      usedOn new entry = Sorted.insert name (found.usedFor id) := by
    rw [prolonged.processed, usedOn_prolonged prolonged]
    exact (found.mark_self id (some name)).imp_right fun ⟨_, same, used⟩ => by
      cases same; exact used
  have inserted : Sorted.insert name (found.usedFor id) ≠ [] :=
    List.ne_nil_of_mem (Sorted.mem_insert_iff.mpr (.inl rfl))
  have spent := demands_prolonged prolonged present
    (recorded.imp_right fun used => by rw [used]; exact inserted)
  rw [free, Nat.add_zero] at spent
  have taken : Taken tableau after found new made (found.usedFor id) name := by
    rcases drawn with ⟨nothing, occurs, unused⟩ | ⟨one, unused⟩
    · exact .inl ⟨nothing, occurs, unused, Nat.le_trans (Nat.le_add_right _ _) spent⟩
    · have asked : demand found entry = 2 := demand_of_unused unprocessed unused
      rw [asked] at spent
      exact .inr ⟨one, unused, spent⟩
  refine expense_lt_of_price prolonged present (room_le names (paid_of_taken taken)) ?_ cheap
  rw [price_universal, price_universal, if_neg unprocessed]
  split
  · rw [Nat.zero_add]
    exact Nat.le_mul_of_pos_left _ (Nat.succ_pos _)
  · next open' =>
    have used : new.usedFor id = Sorted.insert name (found.usedFor id) :=
      recorded.resolve_left open'
    rw [used, <- Nat.succ_mul]
    exact Nat.mul_le_mul_right _ (Nat.succ_le_succ (room_lt_of_taken names taken))

/-- Every rule for a flat formula lowers the expense of the branch, unless a universal formula is
instantiated once more where there are no constants. -/
theorem expense_lt_of_rule {rule : Rule} (derived : Standard.FlatRule signed situation rule)
    (chosen : conclusion ∈ rule.conclusions)
    (prolonged : Prolonged tableau after (found.mark id rule.constant) new conclusion)
    (present : (id, signed) ∈ tableau.contents found) (unprocessed : id ∉ found.processed)
    (names : after.namesOn new ⊆ tableau.namesOn found ++ Standard.coined signed situation)
    (existing : situation.existing ⊆ tableau.namesOn found)
    (used : signed.formula.isUniversal = true -> situation.used = some (found.usedFor id))
    (novel : signed.formula.isUniversal = true -> situation.existing = [] ->
      found.usedFor id = []) : after.expense new < tableau.expense found := by
  rcases signed with ⟨sign, formula⟩
  cases derived with
  | apart particular nothing unrecorded analysis cheaper =>
    rw [unrecorded] at prolonged
    rw [nothing] at names
    have cheap := cheaper conclusion chosen
    refine expense_lt_of_processed prolonged present unprocessed particular names ?_ (cheap.bill _)
    rw [List.length_nil, Nat.zero_add]
    exact cheap.quantifiers
  | witness existential first second unrecorded instantiates =>
    subst existential
    rw [unrecorded] at prolonged
    rcases instantiates.bill_lt first second chosen (tableau.room found []) with ⟨cheap, free⟩
    refine expense_lt_of_processed prolonged present unprocessed rfl names ?_ ?_
    · rw [free, Nat.add_zero]
      exact Standard.length_coinedFor_le .exist sign situation
    · exact Nat.lt_of_lt_of_le cheap (Nat.le_add_right _ _)
  | @instantiation var name restriction matrix universal first second recorded drawn instantiates =>
    subst universal
    rw [recorded] at prolonged
    rcases instantiates.bill_lt first second chosen (tableau.room found []) with ⟨cheap, free⟩
    refine expense_lt_of_instantiated prolonged present unprocessed names free cheap ?_
    rcases drawn with ⟨nothing, occurs, unused⟩ | ⟨one, nothing | unused⟩
    · exact .inl ⟨nothing, existing occurs, unused _ (used rfl)⟩
    · exact .inr ⟨(congrArg List.length one).le, novel rfl nothing⟩
    · refine .inr ⟨(congrArg List.length one).le, ?_⟩
      rw [Situation.anyUsed, used rfl] at unused
      cases record : found.usedFor id with
      | nil => rfl
      | cons =>
        rw [record] at unused
        cases unused

end Prolonged

/-- Every expansion of a flat formula lowers the expense of its branch, unless a universal formula
is instantiated once more on a branch without constants. -/
theorem expense_prolonged_lt [Memory] {tableau after : Tableau} {found new : Branch} {node : Node}
    {expansion : Expansion} {conclusion : List Signed} (standard : tableau.logic = .standard)
    (regular : Regular tableau) (listed : Listed tableau found)
    (flat : node.signed.formula.Flat) (waiting : node ∈ tableau.pending found)
    (proposed : tableau.expansion? node found = .ok (some expansion))
    (novel : node.signed.formula.isUniversal = true -> tableau.namesOn found = [] ->
      found.usedFor node.id = [])
    (chosen : conclusion ∈ expansion.conclusions)
    (prolonged : Prolonged tableau after (found.mark node.id expansion.constant) new conclusion) :
    after.expense new < tableau.expense found := by
  rcases mem_contents_of_pending regular waiting with ⟨present, unprocessed⟩
  rcases exists_rule_of_expansion? standard unprocessed proposed with ⟨rule, ruled, rfl⟩
  have names := namesOn_prolonged prolonged fun part member =>
    mem_names_of_expansion? standard regular listed waiting proposed chosen member
  refine expense_lt_of_rule (Standard.flatRule_of_rule flat ruled) chosen prolonged present
    unprocessed names ?_ ?_ ?_
  · exact fun name occurs => (listed.mem_existing_iff node).mp occurs
  · exact fun universal => if_pos universal
  · exact fun universal nothing => novel universal ((listed.existing_eq_nil_iff node).mp nothing)

end Tableau
end WeakKleene
