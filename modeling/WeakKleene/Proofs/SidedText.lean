import WeakKleene.Proofs.FactTexts

namespace WeakKleene

/-!
# Formulas with stars as they are written and read back

Behind a star the arguments of a predicate are read without the parentheses at
both ends, and a negation sign takes the predicate behind it into its star.  A
formula is read back from its text nevertheless, if its atoms start with lower-case
letters, its predicates with upper-case ones, and no negation stands directly
on a predicate.  No letter counts as both, so that atoms and predicates do not
get mixed up.
-/

/-! ## Letters -/

namespace Text

def keepsParity (stride : Nat × Nat × Nat) : Bool := stride.2.2 % 2 == 0 || stride.1 == stride.2.1

/-- Whether two strides have no member in common since one ends before the other starts, or since
the members of one are even and those of the other odd. -/
def apart (one other : Nat × Nat × Nat) : Bool :=
  Nat.blt one.2.1 other.1 || Nat.blt other.2.1 one.1 ||
    (keepsParity one && keepsParity other && one.1 % 2 != other.1 % 2)

theorem parity_of_keepsParity {first last step code : Nat}
    (keeps : keepsParity (first, last, step) = true) (above : first ≤ code) (below : code ≤ last)
    (reached : (code - first) % step = 0) : code % 2 = first % 2 := by
  simp only [keepsParity, Bool.or_eq_true, beq_iff_eq] at keeps
  rcases keeps with even | single
  · have halves : (code - first) % 2 = 0 :=
      Nat.mod_eq_zero_of_dvd ((Nat.dvd_of_mod_eq_zero even).trans (Nat.dvd_of_mod_eq_zero reached))
    omega
  · omega

theorem inStrides_eq_false_of_apart {table others : List (Nat × Nat × Nat)}
    (separate : (table.all fun stride => others.all (apart stride)) = true) {code : Nat}
    (inside : inStrides table code = true) : inStrides others code = false := by
  rw [inStrides, List.any_eq_true] at inside
  rcases inside with ⟨⟨first, last, step⟩, listed, within⟩
  rw [inStrides, List.any_eq_false]
  rintro ⟨first', last', step'⟩ listed' within'
  have distinct := List.all_eq_true.mp (List.all_eq_true.mp separate _ listed) _ listed'
  simp only [Bool.and_eq_true, decide_eq_true_eq, beq_iff_eq] at within within'
  simp only [apart, Bool.or_eq_true, Bool.and_eq_true, Nat.blt_eq, bne_iff_ne] at distinct
  rcases distinct with (before | behind) | ⟨⟨keeps, keeps'⟩, parity⟩
  · omega
  · omega
  · have here := parity_of_keepsParity keeps within.1.1 within.1.2 within.2
    have there := parity_of_keepsParity keeps' within'.1.1 within'.1.2 within'.2
    omega

theorem isUpperChar_of_isLowerChar {c : Char} (lower : isLowerChar c = true) :
    isUpperChar c = false := by
  unfold isLowerChar at lower
  unfold isUpperChar
  split at lower
  · next ascii =>
    rw [if_pos ascii]
    delta Char.isLower at lower
    delta Char.isUpper
    simp only [ge_iff_le, Bool.and_eq_true, decide_eq_true_eq,
      UInt32.le_iff_toNat_le] at lower
    simp only [ge_iff_le, decide_eq_false_iff_not, UInt32.le_iff_toNat_le]
    have bounds : ('Z' : Char).val.toNat < ('a' : Char).val.toNat := by decide
    omega
  · next other =>
    rw [if_neg other, inStrides_eq_false_of_apart (by decide +kernel :
      (lowerStrides.all fun stride => capitalStrides.all (apart stride)) = true) lower,
      Bool.false_and]

theorem startsUpper_of_startsLower {name : List Char} (lower : startsLower name = true) :
    startsUpper name = false := by
  cases name with
  | nil => rfl
  | cons c rest => exact isUpperChar_of_isLowerChar lower

end Text

/-! ## Formulas that can be read back -/

/-- A term that is named by a word, and is a variable if its first letter is an upper-case one. -/
def Term.Lettered (term : Term) : Prop :=
  Grammar.IsWord term.name.toList ∧ Text.startsUpper term.name.toList = !term.isConst

namespace Formula

open Grammar

/-- An atom with a lower-case name, or a predicate with an upper-case one whose denial has the
default name. -/
def Lettered : Formula -> Prop
  | atom name => IsWord name.toList ∧ Text.startsLower name.toList = true
  | bilateral name args starName _ =>
    IsWord name.toList ∧ Text.startsUpper name.toList = true ∧ starName = starOf name ∧
      forall term, term ∈ args -> term.Lettered
  | _ => False

/-- Built from lettered parts by the joining connectives, and by negations that do not stand
directly on a predicate. -/
inductive Undenied : Formula -> Prop where
  | basic {formula : Formula} (given : formula.Lettered) : Undenied formula
  | neg {body : Formula} (inner : Undenied body) (bare : body.predicateName? = none) :
      Undenied (.neg body)
  | join {left right : Formula} (connective : Connective) (first : Undenied left)
      (second : Undenied right) : Undenied (.join connective left right)

variable {formula : Formula}

theorem Undenied.built (undenied : formula.Undenied) : formula.BuiltFrom Lettered := by
  induction undenied with
  | basic given => exact .basic given
  | neg inner bare ih => exact .neg ih
  | join connective first second atFirst atSecond => exact .join connective atFirst atSecond

/-! ## Scanning -/

theorem text_sided_toList (name : String) (args : List Term) (starred : Bool) :
    (sided name args starred).text.toList = name.toList ++ (if starred then ['*'] else []) ++
        if args = [] then [] else '(' :: (argumentChars args ++ [')']) := by
  rw [sided, text, application_toList]
  cases starred with
  | true => simp [starOf]
  | false => simp

theorem scansTo_lettered (lettered : formula.Lettered) {rest : List Char}
    {tokens : List Token} (ends : Boundary rest) (behind : ScansTo .starred rest tokens) :
    ScansTo .starred (formula.text.toList ++ rest) (formula.tokens ++ tokens) := by
  cases formula with
  | atom name => exact .word lettered.1 ends behind
  | bilateral name args starName starred =>
    rcases lettered with ⟨isWord, _, rfl, regular⟩
    have unclosed : ')' ∉ argumentChars args :=
      not_mem_argumentChars (fun term listed => (regular term listed).1) (by decide) (by decide)
        (by decide)
    change ScansTo .starred ((sided name args starred).text.toList ++ rest)
      (sidedToken name args starred :: tokens)
    rw [text_sided_toList]
    cases args with
    | nil =>
      cases starred with
      | true => simpa [sidedToken] using ScansTo.starredWord isWord ends behind
      | false => simpa [sidedToken] using ScansTo.word isWord ends behind
    | cons first others =>
      cases starred with
      | true => simpa [sidedToken] using ScansTo.starred isWord unclosed behind
      | false => simpa [sidedToken] using ScansTo.applied isWord unclosed behind
  | _ => cases lettered

theorem scan_starred_text (undenied : formula.Undenied) :
    scan .starred formula.text.toList = .ok formula.tokens := by
  have scanned := scansTo_built (fun _ lettered {_ _} ends behind =>
    scansTo_lettered lettered ends behind) undenied.built boundary_nil scansTo_nil 0
  rw [List.append_nil, List.append_nil] at scanned
  exact scanned

/-! ## Reading -/

theorem Lettered.atomic (formula : Formula) (lettered : formula.Lettered) :
    formula.isAtomic = true := by
  cases formula with
  | atom | bilateral => rfl
  | _ => cases lettered

section Predicates

variable {name : String} {args : List Term}

theorem sidedArguments_argumentChars (lettered : forall term, term ∈ args -> term.Lettered) :
    sidedArguments (argumentChars args) = .ok args := by
  cases args with
  | nil => rfl
  | cons first others =>
    have nonempty := List.cons_ne_nil first others
    have named := fun term listed => (lettered term listed).1
    have written := List.isEmpty_eq_false_iff.mpr (argumentChars_ne_nil nonempty named)
    have names := map_trim_argumentChars nonempty named
    rw [sidedArguments_eq_ok_iff, hasBlank, listedTerms, written]
    constructor
    · rw [Bool.not_false, Bool.true_and, List.any_eq_false]
      intro piece listed blank
      have trimmed : Text.trim piece ∈ (commaPieces (argumentChars (first :: others))).map
          Text.trim := List.mem_map_of_mem listed
      rw [names, List.isEmpty_iff.mp blank] at trimmed
      rcases List.mem_map.mp trimmed with ⟨term, inArgs, nameless⟩
      exact (named term inArgs).nonempty nameless
    · rw [if_neg Bool.false_ne_true, <- Function.comp_def, <- List.map_map, names]
      exact map_termNamed_names fun term listed => (lettered term listed).2

/-- The token of a predicate is read as that predicate, on either side. -/
theorem derives_sidedToken (isWord : IsWord name.toList)
    (upper : Text.startsUpper name.toList = true)
    (lettered : forall term, term ∈ args -> term.Lettered) (starred : Bool) :
    DerivesSided .mixed .atomic [sidedToken name args starred] (sided name args starred) := by
  have read := sidedArguments_argumentChars lettered
  have absent {c : Char} (other : Text.isWordChar c = false) (noComma : c ≠ ',')
      (noBlank : c ≠ ' ') : c ∉ argumentChars args :=
    not_mem_argumentChars (fun term listed => (lettered term listed).1) other noComma noBlank
  cases starred with
  | true =>
    have found : starredParts? (sidedToken name args true) =
        some (name.toList, argumentChars args) := by
      have trimmed : trimParens (argumentChars args) = argumentChars args :=
        trimParens_eq_self (absent (by decide) (by decide) (by decide))
          (absent (by decide) (by decide) (by decide))
      cases args with
      | nil => rfl
      | cons => exact congrArg (fun inside => some (name.toList, inside)) trimmed
    have derived : DerivesSided .mixed .atomic _ _ := .starred found rfl read
    rwa [String.ofList_toList] at derived
  | false =>
    have unstarred : starredParts? (sidedToken name args false) = none := by
      cases args with
      | nil => rfl
      | cons =>
        have noStar := absent (by decide : Text.isWordChar '*' = false) (by decide) (by decide)
        exact if_neg (by simpa using noStar)
    have found : predicateToken? (sidedToken name args false) =
        some (name.toList, argumentChars args) := by
      cases args with
      | nil => exact if_pos upper
      | cons => exact if_pos ((startsUpper_append _ _ isWord.nonempty).trans upper)
    have derived : DerivesSided .mixed .atomic _ _ := .plain unstarred found read
    rwa [String.ofList_toList] at derived

end Predicates

/-- A formula is read off its own tokens, as a whole and as a part. -/
structure SidedReadBack (formula : Formula) : Prop where
  whole : DerivesSided .mixed .implication formula.tokens formula
  part : DerivesSided .mixed .atomic formula.partTokens formula

theorem SidedReadBack.atomic (simple : formula.isAtomic = true)
    (derived : DerivesSided .mixed .atomic formula.tokens formula) : SidedReadBack formula := by
  have same : formula.partTokens = formula.tokens := by
    cases formula with
    | atom | pred | bilateral => rfl
    | _ => cases simple
  have unsigned := partTokens_unsigned (.basic simple)
  rw [same] at unsigned
  exact ⟨derived.whole unsigned, by rwa [same]⟩

theorem SidedReadBack.compound (compound : formula.isCompound = true)
    (derived : DerivesSided .mixed .implication formula.tokens formula) :
    SidedReadBack formula := by
  refine ⟨derived, ?_⟩
  rw [partTokens, encloseTokens, if_pos compound]
  exact .parens false false derived

/-- Only a predicate starts with the token of a predicate. -/
theorem Undenied.head_free (undenied : formula.Undenied) (bare : formula.predicateName? = none) :
    formula.partTokens.head?.bind predicateToken? = none := by
  have parenthesis : predicateToken? (.mark .openParen false) = none := by decide
  cases undenied with
  | @basic formula given =>
    cases formula with
    | atom name =>
      have small := Text.startsUpper_of_startsLower given.2
      exact if_neg (Bool.eq_false_iff.mp small)
    | bilateral => cases bare
    | _ => cases given
  | neg | join => exact parenthesis

/-- By induction on the formula.  A negation does not absorb what follows it, since that is no
predicate. -/
theorem Undenied.readBack (undenied : formula.Undenied) : SidedReadBack formula := by
  have unsigned {formula : Formula} (undenied : formula.Undenied) :=
    partTokens_unsigned (undenied.built.mono Lettered.atomic)
  induction undenied with
  | @basic formula given =>
    cases formula with
    | atom name =>
      have small := Text.startsUpper_of_startsLower given.2
      have derived := @DerivesSided.atom .mixed (.word name.toList) rfl rfl
        (if_neg (Bool.eq_false_iff.mp small)) given.2
      rw [Token.text, Token.source, String.ofList_toList] at derived
      exact .atomic rfl derived
    | bilateral name args starName starred =>
      rcases given with ⟨isWord, upper, rfl, lettered⟩
      exact .atomic rfl (derives_sidedToken isWord upper lettered starred)
    | _ => cases given
  | @neg body inner bare ih =>
    refine .compound rfl (.disjunction (.conjunction (.negation ?_)))
    exact .not false (inner.head_free bare) (.atomic ih.part (unsigned inner))
  | @join left right connective first second atFirst atSecond =>
    have front : DerivesSided .mixed .negation left.partTokens left :=
      .atomic atFirst.part (unsigned first)
    have back : DerivesSided .mixed .negation right.partTokens right :=
      .atomic atSecond.part (unsigned second)
    refine .compound rfl ?_
    cases connective with
    | conj => exact .disjunction (.conjunction (.and false (.negation front) back))
    | disj => exact .disjunction (.or false (.conjunction (.negation front)) (.negation back))
    | imp =>
      exact .arrow false (.conjunction (.negation front))
        (.disjunction (.conjunction (.negation back)))

end Formula

/-! ## Texts that are stored -/

open Grammar

namespace Formula

/-- A formula with stars is read back from its text, and so it is where that is stored. -/
theorem parseSided_text_eq {formula : Formula} (undenied : formula.Undenied) :
    Formula.parseSided .mixed formula.text = .ok formula ∧
      forall statement : Statement, statement.formula = .string formula.text ->
        statement.content? = .ok (some formula) := by
  have read : Formula.parseSided .mixed formula.text = .ok formula :=
    readSided_eq_ok_iff.mpr ⟨_, scan_starred_text undenied, undenied.readBack.whole⟩
  exact ⟨read, fun statement written => Theory.content?_of_readFormula written read⟩

/-- A denial and an atom behind a negation, and a predicate without arguments. -/
def deniedConjunction : Formula :=
  .join .imp (.neg (.join .conj (.sided "P" [.const "a", .var "X"] true) (.neg (.atom "q"))))
    (.sided "R" [] false)

theorem deniedConjunction_undenied : deniedConjunction.Undenied := by
  have lettered (term : Term) (listed : term ∈ [Term.const "a", .var "X"]) : term.Lettered := by
    rcases List.mem_pair.mp listed with rfl | rfl
    · exact ⟨(by decide : IsWord "a".toList), by decide⟩
    · exact ⟨(by decide : IsWord "X".toList), by decide⟩
  refine .join .imp (.neg (.join .conj (.basic ?_) (.neg (.basic ?_) rfl)) rfl) (.basic ?_)
  · exact ⟨(by decide : IsWord "P".toList), by decide, rfl, lettered⟩
  · exact ⟨(by decide : IsWord "q".toList), by decide⟩
  · exact ⟨(by decide : IsWord "R".toList), by decide, rfl, by simp⟩

theorem parseSided_deniedConjunction : deniedConjunction.Undenied ∧
      deniedConjunction.text = "(~(P*(a, X) & (~q))) -> R" ∧
      Formula.parseSided .mixed deniedConjunction.text = .ok deniedConjunction ∧
      (Theory.literal "A0001" deniedConjunction.text "t").content? = .ok (some deniedConjunction) :=
  ⟨deniedConjunction_undenied, rfl, (parseSided_text_eq deniedConjunction_undenied).1,
    (parseSided_text_eq deniedConjunction_undenied).2 _ rfl⟩

end Formula
end WeakKleene
