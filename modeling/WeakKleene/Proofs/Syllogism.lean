import WeakKleene.Proofs.InferredStatements

namespace WeakKleene

/-!
# What follows from two sentences

A sentence about all of a kind gives a rule, and a sentence about an individual
gives a fact.  The kind is in the plural in one sentence and in the singular in
the other.  Each loses an ending in its own way, but both come to the same
predicate, so that the rule applies to the fact.
-/

namespace Language

open Grammar

def isSmallWord (word : List Char) : Bool := !word.isEmpty && word.all isSmall

def capital : List Char -> List Char
  | [] => []
  | first :: rest => first.toUpper :: rest

/-- The predicate that a noun stands for: its singular with a capital letter. -/
def predicateOf (noun : String) : String := String.ofList (capital (singular noun.toList))

/-! ## Letters -/

/-- What the scanners see in a small letter and in its capital. -/
structure SmallLetter (c : Char) : Prop where
  word : Text.isWordChar c = true
  small : Text.isUpperChar c = false
  lower : Text.lowerChar c = [c]
  notSigma : (c.toNat == 0x3a3) = false
  capitalWord : Text.isWordChar c.toUpper = true
  capital : Text.isUpperChar c.toUpper = true

theorem smallLetter_of_isSmall {c : Char} (small : isSmall c = true) : SmallLetter c := by
  have listed : c ∈ (List.range 26).map fun n => Char.ofNat (97 + n) := by
    rw [isSmall, Bool.and_eq_true, decide_eq_true_eq, decide_eq_true_eq] at small
    have low : 97 ≤ c.toNat := small.1
    have high : c.toNat ≤ 122 := small.2
    refine List.mem_map.mpr ⟨c.toNat - 97, List.mem_range.mpr (by omega), ?_⟩
    rw [Nat.add_sub_cancel' low, Char.ofNat_toNat]
  have tested : (((List.range 26).map fun n => Char.ofNat (97 + n)).all fun c =>
      Text.isWordChar c && !Text.isUpperChar c && Text.lowerChar c == [c] &&
      !(c.toNat == 0x3a3) && Text.isWordChar c.toUpper && Text.isUpperChar c.toUpper) = true := by
    decide +kernel
  have passes := List.all_eq_true.mp tested c listed
  simp only [Bool.and_eq_true, Bool.not_eq_true', beq_iff_eq] at passes
  rcases passes with ⟨⟨⟨⟨⟨word, small⟩, lower⟩, notSigma⟩, capitalWord⟩, capital⟩
  exact ⟨word, small, lower, notSigma, capitalWord, capital⟩

section Words

variable {word : List Char}

theorem small_of_mem (small : isSmallWord word = true) :
    forall c, c ∈ word -> isSmall c = true :=
  List.all_eq_true.mp (Bool.and_eq_true_iff.mp small).2

theorem isWord_of_isSmallWord (small : isSmallWord word = true) : IsWord word where
  nonempty := by
    rintro rfl
    cases small
  word := fun c member => (smallLetter_of_isSmall (small_of_mem small c member)).word

theorem singular_small (small : isSmallWord word = true) : isSmallWord (singular word) = true := by
  have reversed {word : List Char} : isSmallWord word.reverse = isSmallWord word := by
    simp [isSmallWord]
  have ended {word : List Char} (small : isSmallWord word = true) :
      isSmallWord (singularReversed word) = true := by
    fun_cases singularReversed word <;> simp_all [isSmallWord]
    all_goals decide
  rw [singular]
  split
  · next noun found =>
    unfold irregular? at found
    split at found <;> cases found <;> decide
  · rw [reversed]
    exact ended (reversed.trans small)

/-- The case of a word in small letters and of the predicate that it gives. -/
theorem startsUpper_small (small : isSmallWord word = true) :
    Text.startsUpper word = false ∧ IsWord (capital word) ∧
      Text.startsUpper (capital word) = true := by
  rcases List.exists_cons_of_ne_nil (isWord_of_isSmallWord small).nonempty with ⟨c, rest, rfl⟩
  have inside := (isWord_of_isSmallWord small).word
  have letter := smallLetter_of_isSmall (small_of_mem small c List.mem_cons_self)
  refine ⟨letter.small, ⟨List.cons_ne_nil _ _, fun d member => ?_⟩, letter.capital⟩
  rcases List.mem_cons.mp member with rfl | later
  · exact letter.capitalWord
  · exact inside d (List.mem_cons_of_mem _ later)

end Words

theorem isWord_predicateOf {noun : String} (small : isSmallWord noun.toList = true) :
    IsWord (predicateOf noun).toList ∧ Text.startsUpper (predicateOf noun).toList = true := by
  rw [predicateOf, String.toList_ofList]
  exact (startsUpper_small (singular_small small)).2

theorem predicateWord_small {noun : String} (small : isSmallWord noun.toList = true) :
    predicateWord noun.toList (some '(') = (predicateOf noun).toList := by
  rcases List.exists_cons_of_ne_nil (isWord_of_isSmallWord small).nonempty with ⟨c, rest, same⟩
  have first : isSmall c = true := small_of_mem small c (same ▸ List.mem_cons_self)
  rw [predicateOf, String.toList_ofList, predicateWord, same, List.head?_cons, Option.map_some,
    first]
  cases singular (c :: rest) <;> rfl

/-! ## Words of a text -/

theorem mapWords_other (change : List Char -> Option Char -> List Char) {c : Char}
    (other : Text.isWordChar c = false) (rest : List Char) :
    Text.mapWords change (c :: rest) = c :: Text.mapWords change rest := by
  rw [Text.mapWords, Text.mapWords.scan, if_neg (Bool.eq_false_iff.mp other)]
  rfl

theorem mapWords_word (change : List Char -> Option Char -> List Char) {word : List Char}
    (isWord : IsWord word) {c : Char} (other : Text.isWordChar c = false) (rest : List Char) :
    Text.mapWords change (word ++ c :: rest) =
      change word (some c) ++ c :: Text.mapWords change rest := by
  have passed (front : List Char) {word : List Char}
      (inside : forall c, c ∈ word -> Text.isWordChar c = true) :
      Text.mapWords.scan change front (word ++ c :: rest) =
        Text.mapWords.changed change (front ++ word) (some c) ++
          c :: Text.mapWords.scan change [] rest := by
    induction word generalizing front with
    | nil =>
      rw [List.nil_append, Text.mapWords.scan, if_neg (Bool.eq_false_iff.mp other),
        List.append_nil]
    | cons d word ih =>
      rw [List.cons_append, Text.mapWords.scan, if_pos (inside d List.mem_cons_self),
        ih _ fun c member => inside c (List.mem_cons_of_mem _ member), <- List.append_cons]
  have nonempty : ¬ word.isEmpty = true := fun empty =>
    isWord.nonempty (List.isEmpty_iff.mp empty)
  rw [Text.mapWords, passed [] isWord.word, List.nil_append, Text.mapWords.changed,
    if_neg nonempty]
  rfl

section Replaced

variable {c d : Char} {what text : List Char}

theorem replaceAll_absent (first : what.head? = some c) (absent : c ∉ text)
    (replacement : List Char) : Text.replaceAll what replacement text = text := by
  rcases List.head?_eq_some_iff.mp first with ⟨rest, rfl⟩
  rw [Text.replaceAll]
  induction text with
  | nil => rfl
  | cons d text ih =>
    rw [List.mem_cons, not_or] at absent
    rw [Text.replaceAll.scan, List.isPrefixOf, beq_eq_false_iff_ne.mpr absent.1, Bool.false_and,
      if_neg Bool.false_ne_true, ih absent.2]

theorem replaceAll_behind (unlike : what.isPrefixOf (d :: text) = false)
    (first : what.head? = some c) (absent : c ∉ text) (replacement : List Char) :
    Text.replaceAll what replacement (d :: text) = d :: text := by
  rw [Text.replaceAll, Text.replaceAll.scan, if_neg (Bool.eq_false_iff.mp unlike),
    <- Text.replaceAll, replaceAll_absent first absent]

end Replaced

/-! ## Sentences -/

/-- Small letters and blanks are kept where a text is lowered. -/
theorem lowerAfter_small (before : List Char) {text : List Char}
    (plain : forall c, c ∈ text -> c = ' ' ∨ isSmall c = true) :
    Text.lowerAfter before text = text := by
  induction text generalizing before with
  | nil => rfl
  | cons c text ih =>
    have rest := ih (c :: before) fun d member => plain d (List.mem_cons_of_mem _ member)
    rw [Text.lowerAfter, rest]
    rcases plain c List.mem_cons_self with rfl | small
    · rfl
    · have letter := smallLetter_of_isSmall small
      rw [letter.notSigma, letter.lower]
      rfl

theorem tight_words {words : List (List Char)} (some : words ≠ [])
    (isWord : forall word, word ∈ words -> IsWord word) : Tight ([' '].intercalate words) := by
  induction words with
  | nil => exact absurd rfl some
  | cons word words ih =>
    have first := (isWord word List.mem_cons_self).tight
    cases words with
    | nil => rwa [List.intercalate_singleton]
    | cons next others =>
      rw [List.intercalate_cons_cons, List.append_assoc]
      exact first.append [' '] (ih (List.cons_ne_nil _ _)
        fun word member => isWord word (List.mem_cons_of_mem _ member))

section Sentences

variable {sentence : String}

variable {words : List String}
variable (written : sentence.toList = [' '].intercalate (words.map String.toList))
variable (small : forall word, word ∈ words -> isSmallWord word.toList = true)

include small in
theorem isWord_of_mem_words : forall word, word ∈ words.map String.toList -> IsWord word := by
  rw [List.forall_mem_map]
  exact fun word member => isWord_of_isSmallWord (small word member)

include written small in
/-- Words with single blanks between them are in small letters already, and are found again. -/
theorem formula?_words (some : words ≠ []) :
    formula? sentence = (form? words).map capitalized := by
  have isWord := isWord_of_mem_words small
  have lowered : Text.lower sentence.toList = sentence.toList := by
    refine lowerAfter_small [] fun c member => ?_
    rw [written] at member
    rcases Formula.mem_intercalate member with between | ⟨chars, listed, inside⟩
    · exact .inl (List.mem_singleton.mp between)
    · rcases List.mem_map.mp listed with ⟨word, stated, rfl⟩
      exact .inr (small_of_mem (small word stated) c inside)
  have several : words.map String.toList ≠ [] := by simpa using some
  have split : sentence.toList.splitOn ' ' = words.map String.toList := by
    rw [written]
    exact List.splitOn_intercalate ' '
      (fun word member => (isWord word member).not_mem (by decide)) several
  have whole : ((words.map String.toList).all fun word =>
      !word.isEmpty && word.all Text.isWordChar) = true := by
    rw [List.all_eq_true]
    intro word member
    have isWord := isWord word member
    simpa [isWord.nonempty] using isWord.word
  have trimmed : Text.trim sentence.toList = sentence.toList :=
    Tight.trim_eq (written ▸ tight_words several isWord)
  have found : wordsOf? sentence.toList = .some words := by
    rw [wordsOf?, split, if_pos whole, List.map_map]
    simp
  rw [formula?, lowered, trimmed, found, Option.bind_eq_bind, Option.bind_some]
  cases form? words <;> rfl

theorem scansTo_words {style : Style} {words : List (List Char)}
    (isWord : forall word, word ∈ words -> IsWord word) :
    ScansTo style ([' '].intercalate words) (words.map Token.word) := by
  induction words with
  | nil => exact scansTo_nil
  | cons word words ih =>
    have first := isWord word List.mem_cons_self
    have behind := ih fun word member => isWord word (List.mem_cons_of_mem _ member)
    cases words with
    | nil =>
      have whole : ScansTo style (word ++ []) [.word word] :=
        .word first Formula.boundary_nil scansTo_nil
      rw [List.append_nil] at whole
      rwa [List.intercalate_singleton]
    | cons next words =>
      rw [List.intercalate_cons_cons, List.append_assoc]
      exact .word first (.inl rfl) behind.blank

/-- Names without a sign between them are no formula, unless there is only one. -/
theorem length_of_names {mode : Mode} {level : Level} {tokens : List Token}
    {formula : Formula} (derived : DerivesSided mode level tokens formula)
    (names : forall token, token ∈ tokens -> token.isName = true) : tokens.length = 1 := by
  induction derived with
  | disjunction _ ih | conjunction _ ih | negation _ ih | atomic _ _ ih => exact ih names
  | starred | plain | atom => rfl
  | arrow | or | and => cases names _ (List.mem_append_right _ List.mem_cons_self)
  | not | denied | parens | quantified => cases names _ List.mem_cons_self

include written small in
/-- A sentence of several words stands for the formula of its form. -/
theorem formulaOfSentence_words {formula : String} (several : 1 < words.length)
    (found : form? words = some formula) :
    Statement.formulaOfSentence sentence = capitalized formula := by
  have nonempty : words ≠ [] := List.ne_nil_of_length_pos (Nat.zero_lt_of_lt several)
  rw [Statement.formulaOfSentence]
  split
  · next read =>
    rcases readSided_eq_ok_iff.mp read with ⟨tokens, scanned, derived⟩
    rw [written] at scanned
    cases (scansTo_words (isWord_of_mem_words small) 0).symm.trans scanned
    have single := length_of_names derived (by simp [Token.isName])
    rw [List.length_map, List.length_map] at single
    omega
  · rw [formula?_words written small nonempty, found]
    rfl

end Sentences

/-! ## Predicates in the singular -/

theorem mapWords_unary (change : List Char -> Option Char -> List Char)
    {name argument : List Char} (isName : IsWord name) (isWord : IsWord argument)
    (rest : List Char) :
    Text.mapWords change (name ++ '(' :: (argument ++ ')' :: rest)) =
      change name (some '(') ++
        '(' :: (change argument (some ')') ++ ')' :: Text.mapWords change rest) := by
  rw [mapWords_word change isName (by decide), mapWords_word change isWord (by decide)]

theorem predicateWord_argument (word : List Char) : predicateWord word (some ')') = word := rfl

theorem toList_unary (predicate subject : String) :
    (unary predicate subject).toList = predicate.toList ++ '(' :: (subject.toList ++ [')']) := by
  simp [unary]

section Capitals

variable {kind other individual : String}
variable (isKind : isSmallWord kind.toList = true) (isOther : isSmallWord other.toList = true)
variable (isIndividual : isSmallWord individual.toList = true)

include isKind in
/-- Predicates change in front of their arguments, and these are kept. -/
theorem mapWords_predicate {argument : List Char} (isWord : IsWord argument)
    (kept : variableWord argument (some ')') = argument) (rest : List Char) :
    Text.mapWords variableWord
        (Text.mapWords predicateWord (kind.toList ++ '(' :: (argument ++ ')' :: rest))) =
      (predicateOf kind).toList ++ '(' :: (argument ++
        ')' :: Text.mapWords variableWord (Text.mapWords predicateWord rest)) := by
  have isPredicate := isWord_predicateOf isKind
  have unvaried : variableWord (predicateOf kind).toList (some '(') =
      (predicateOf kind).toList := by
    refine if_neg fun same => ?_
    rw [eq_of_beq same] at isPredicate
    cases isPredicate.2
  rw [mapWords_unary _ (isWord_of_isSmallWord isKind) isWord, predicateWord_small isKind,
    predicateWord_argument, mapWords_unary _ isPredicate.1 isWord, kept, unvaried]

include isKind in
theorem capitalized_unary (isWord : IsWord individual.toList) (named : individual ≠ "x") :
    capitalized (unary kind individual) = unary (predicateOf kind) individual := by
  have kept : variableWord individual.toList (some ')') = individual.toList :=
    if_neg fun same => named (String.toList_inj.mp (eq_of_beq same))
  have absent : '[' ∉ (unary (predicateOf kind) individual).toList := by
    have bracket : Text.isWordChar '[' = false := by decide
    simp [toList_unary, (isWord_predicateOf isKind).1.not_mem bracket, isWord.not_mem bracket]
  have nothing : Text.mapWords variableWord (Text.mapWords predicateWord []) = [] := rfl
  rw [capitalized, toList_unary, mapWords_predicate isKind isWord kept, nothing, <- toList_unary,
    replaceAll_absent rfl absent, replaceAll_absent rfl absent, String.ofList_toList]

include isKind isOther in
theorem capitalized_universal :
    capitalized (universal kind other) = universal (predicateOf kind) (predicateOf other) := by
  let behind (kind other : String) : List Char :=
    "forall".toList ++ ' ' :: (['X'] ++ ' ' :: (kind.toList ++ '(' :: (['X'] ++
      ')' :: ']' :: (other.toList ++ '(' :: (['X'] ++ [')'])))))
  have chars (kind other : String) : (universal kind other).toList = '[' :: behind kind other := by
    simp only [universal, String.toList_append, toList_unary, List.append_assoc]
    rfl
  have isX : IsWord ['X'] := by decide
  have opened {change : List Char -> Option Char -> List Char} (rest : List Char)
      (quantifier : change "forall".toList (some ' ') = "forall".toList)
      (bound : change ['X'] (some ' ') = ['X']) :
      Text.mapWords change ('[' :: ("forall".toList ++ ' ' :: (['X'] ++ ' ' :: rest))) =
        '[' :: ("forall".toList ++ ' ' :: (['X'] ++ ' ' :: Text.mapWords change rest)) := by
    have isForall : IsWord "forall".toList := by decide
    rw [mapWords_other _ (by decide), mapWords_word _ isForall (by decide),
      mapWords_word _ isX (by decide), quantifier, bound]
  have changed : Text.mapWords variableWord (Text.mapWords predicateWord
      ('[' :: behind kind other)) = '[' :: behind (predicateOf kind) (predicateOf other) := by
    rw [opened _ rfl rfl, opened _ rfl rfl, mapWords_predicate isKind isX rfl,
      mapWords_other _ (by decide), mapWords_other _ (by decide),
      mapWords_predicate isOther isX rfl]
    rfl
  have absent : '[' ∉ behind (predicateOf kind) (predicateOf other) := by
    have bracket : Text.isWordChar '[' = false := by decide
    simp [behind, (isWord_predicateOf isKind).1.not_mem bracket,
      (isWord_predicateOf isOther).1.not_mem bracket]
  rw [capitalized, chars, changed, replaceAll_behind rfl rfl absent,
    replaceAll_behind rfl rfl absent, <- chars, String.ofList_toList]

/-! ## Two forms -/

include isKind isOther in
theorem form?_all :
    form? ["all", kind ++ "s", "are", other ++ "s"] = some (universal kind other) := by
  have copular (kinds others : String) : copular? ["all", kinds, "are", others] = none := by
    rw [copular?.eq_def]
    split <;> simp_all
  have general (kinds others : String) :
      general? ["all", kinds, "are", others] = plural? universal kinds others := rfl
  have stem {noun : String} (small : isSmallWord noun.toList = true) :
      stem? (noun ++ "s") = some noun := by
    rw [stem?, String.toList_append, List.reverse_append]
    rcases List.eq_nil_or_concat noun.toList with none | ⟨front, last, same⟩
    · exact absurd none (isWord_of_isSmallWord small).nonempty
    · simp [same, <- String.toList_inj]
  rw [form?, copular, general, plural?, stem isKind, stem isOther]
  rfl

include isKind isOther in
theorem formulaOfSentence_all :
    Statement.formulaOfSentence ("all " ++ kind ++ "s are " ++ other ++ "s") =
      universal (predicateOf kind) (predicateOf other) := by
  have plural {noun : String} (small : isSmallWord noun.toList = true) :
      isSmallWord (noun ++ "s").toList = true := by
    have last : isSmall 's' = true := by decide
    have inside := (Bool.and_eq_true_iff.mp small).2
    simpa [isSmallWord, last] using inside
  rw [<- capitalized_universal isKind isOther]
  refine formulaOfSentence_words ?_ ?_ (by simp) (form?_all isKind isOther)
  · simp [List.intercalate]
  · intro word member
    simp only [List.mem_cons, List.not_mem_nil, or_false] at member
    rcases member with rfl | rfl | rfl | rfl
    · decide
    · exact plural isKind
    · decide
    · exact plural isOther

include isKind isIndividual in
theorem formulaOfSentence_is_a (named : individual ≠ "x") :
    Statement.formulaOfSentence (individual ++ " is a " ++ kind) =
      unary (predicateOf kind) individual := by
  rw [<- capitalized_unary isKind (isWord_of_isSmallWord isIndividual) named]
  have form : form? [individual, "is", "a", kind] = some (unary kind individual) := rfl
  refine formulaOfSentence_words ?_ ?_ (by simp) form
  · simp [List.intercalate]
  · simp [isKind, isIndividual]
    decide

include isKind isOther in
theorem readFormula_universal :
    Statement.readFormula (universal (predicateOf kind) (predicateOf other)) =
      .ok (.quant .all "X" (.sided (predicateOf kind) [.var "X"] false)
        (.sided (predicateOf other) [.var "X"] false)) := by
  have isPredicate := isWord_predicateOf isOther
  have read : readSided .mixed _ = _ := readSided_rule (predicateOf kind).toList ['X']
    (predicateOf other).toList (isWord_predicateOf isKind).1 (by decide) (by decide) rfl
    isPredicate.1 isPredicate.2
  have chars : (universal (predicateOf kind) (predicateOf other)).toList = "[forall X ".toList ++
      (((predicateOf kind).toList ++ '(' :: (['X'] ++ [')'])) ++
        ']' :: ((predicateOf other).toList ++ "(X)".toList)) := by
    simp [universal, unary]
  rw [<- chars, String.ofList_toList, String.ofList_toList] at read
  exact read

include isKind isIndividual in
theorem readFormula_unary :
    Statement.readFormula (unary (predicateOf kind) individual) =
      .ok (.sided (predicateOf kind) [.const individual] false) := by
  have isPredicate := isWord_predicateOf isKind
  have read : readSided .mixed _ = _ := readSided_upper isPredicate.1 isPredicate.2
    (isWord_of_isSmallWord isIndividual) (startsUpper_small isIndividual).1
  rw [String.ofList_toList, String.ofList_toList, <- toList_unary] at read
  exact read

end Capitals

end Language

namespace Theory

open WeakKleene.Grammar WeakKleene.Language

/-! ## Assertions -/

/-- What is stored for a sentence that stands for a formula. -/
def assertion (now : String) (number : Int) (sentence formula : String) : Statement :=
  Draft.statement
    ⟨.asserted, .string sentence, formula, "t", [("source", .string "user_assertion")]⟩
    (Statement.idOf 'S' number) now

theorem assert_sentence {theory : Theory} {number : Int} {sentence formula : String}
    {content : Formula} (counted : theory.nextNumber = .ok number)
    (means : Statement.formulaOfSentence sentence = formula)
    (read : Statement.readFormula formula = .ok content) (now : String) :
    theory.assert now (.string sentence) .null (.string "t") =
      (({ theory with nextId := .int (number + 1) } : Theory).put
        (assertion now number sentence formula), .ok (assertion now number sentence formula)) := by
  have kept : Statement.keptFormula (.string formula) = formula := by
    simp [Statement.keptFormula, Statement.startOf, Json.text?,
      isComment_of_readFormula read, read]
  have formed : assertedFormula (.string sentence) .null = .ok formula := by
    change Except.ok (Statement.keptFormula (.string (Statement.formulaOfSentence sentence))) = _
    rw [means, kept]
  have known : Statement.signs.find? (fun known => (Json.string "t").isText known) = some "t" := rfl
  have taken : theory.takeId Origin.asserted.letter =
      .ok (Statement.idOf 'S' number, { theory with nextId := .int (number + 1) }) := by
    rw [takeId, counted]
    rfl
  rw [assert, known]
  dsimp only
  rw [taken]
  dsimp only
  rw [formed]
  rfl

/-! ## A rule and a fact -/

theorem eq_of_isText {value : Json} {text : String} (same : value.isText text = true) :
    value = .string text := by
  cases value with
  | string found => rw [eq_of_beq same]
  | _ => cases same

/-- After chaining, all that follows is stated under the sign t, if all was stated so before. -/
theorem Adds.exists_statement {theory after : Theory} {number : Int} {stored : List Statement}
    {contents : List (Statement × Formula)} {fact : Fact}
    (adds : theory.Adds number ((theory.unstated (consequences contents)).map Derivation.fact) after
      stored) (few : (rules contents).length ≤ ChainState.roundBound)
    (signs : forall statement, statement ∈ theory.statements -> statement.sign = .string "t")
    (texts : fact ∈ facts contents -> theory.hasFormula (factText fact) = true)
    (entailed : Entailed (rules contents) (facts contents) fact) :
    ∃ statement, statement ∈ after.statements ∧ statement.formula = .string (factText fact) ∧
      statement.sign = .string "t" := by
  have stated : after.hasFormula (factText fact) = true := by
    by_cases given : fact ∈ facts contents
    · exact adds.stated (.inl (texts given))
    · exact adds.hasFormula_of_entailed few entailed given
  rcases hasFormula_iff.mp stated with ⟨statement, member, same⟩
  refine ⟨statement, member, eq_of_isText same, ?_⟩
  rw [adds.statements] at member
  rcases List.mem_append.mp member with before | new
  · exact signs statement before
  · exact adds.signs statement new

section Conclusion

variable {kind other individual : String}

def ruleAndFact (now later general particular : String) (kind other individual : String) :
    Theory where
  statements := [assertion now 1 general (universal kind other),
    assertion later 2 particular (unary kind individual)]
  nextId := .int 3
  timings := ⟨none, none, none⟩

section Read

variable (now later general particular : String)
variable (rule : Statement.readFormula (universal kind other) =
  .ok (.quant .all "X" (.sided kind [.var "X"] false) (.sided other [.var "X"] false)))
variable (fact : Statement.readFormula (unary kind individual) =
  .ok (.sided kind [.const individual] false))
variable (isKind : kind ≠ "") (isOther : other ≠ "") (isWord : IsWord individual.toList)

include rule fact isKind isOther isWord

theorem trueContents_ruleAndFact :
    ∃ contents, (ruleAndFact now later general particular kind other individual).trueContents =
        .ok contents ∧
      rules contents = [⟨.string (Statement.idOf 'S' 1), kind, other⟩] ∧
      facts contents = [(kind, individual)] := by
  have predicate {name : String} (args : List Term) (named : name ≠ "") :
      predicate? (.sided name args false) = some name := by
    simp [predicate?, Formula.sided, Formula.predicateName?, Option.filter, named]
  have nonempty : individual ≠ "" := by
    rintro rfl
    exact isWord.nonempty rfl
  have read := @trueContents_of_contents
    (ruleAndFact now later general particular kind other individual) _
    (.cons (content?_of_readFormula rfl rule) (.cons (content?_of_readFormula rfl fact) .nil))
  refine ⟨_, read, ?_, ?_⟩
  · have led (source : Json) : rule? source (.quant .all "X" (.sided kind [.var "X"] false)
        (.sided other [.var "X"] false)) = some ⟨source, kind, other⟩ := by
      rw [rule?, predicate _ isKind, predicate _ isOther]
      rfl
    have unled (source : Json) : rule? source (.sided kind [.const individual] false) = none := rfl
    simp [rules, ruleAndFact, assertion, Draft.statement, Json.isText, led, unled]
  · have unfounded : fact? (.quant .all "X" (.sided kind [.var "X"] false)
        (.sided other [.var "X"] false)) = none := rfl
    simp [facts, ruleAndFact, assertion, Draft.statement, Json.isText, unfounded,
      fact?_sided false isKind nonempty]
    rfl

theorem infer_ruleAndFact (last : String) :
    ∃ after stored,
      (ruleAndFact now later general particular kind other individual).infer last none =
        .ok (after, stored) ∧
      ∃ conclusion, conclusion ∈ after.statements ∧
        conclusion.formula = .string (factText (other, individual)) ∧
        conclusion.sign = .string "t" := by
  rcases trueContents_ruleAndFact now later general particular rule fact isKind isOther isWord
    with ⟨contents, read, rulesOf, factsOf⟩
  have words : forall fact, fact ∈ facts contents -> IsWord fact.2.toList := by
    intro fact member
    rw [factsOf] at member
    rwa [List.mem_singleton.mp member]
  have few : (rules contents).length ≤ ChainState.roundBound := by
    rw [rulesOf, List.length_singleton]
    decide
  have entailed : Entailed (rules contents) (facts contents) (other, individual) := by
    rw [rulesOf, factsOf]
    exact .step (List.mem_singleton.mpr rfl) (.given (List.mem_singleton.mpr rfl))
  have asserted : forall id,
      id ∈ (ruleAndFact now later general particular kind other individual).statements.map
        Statement.id -> firstLetter id = .ok 'S' := by
    intro id listed
    rcases List.mem_pair.mp listed with rfl | rfl <;> exact firstLetter_idOf _ _
  rcases exists_infer_adds read rfl words (fun k _ => inferredId_unused asserted _) last with
    ⟨after, stored, done, adds⟩
  refine ⟨after.timed, stored, done, adds.exists_statement few ?_ ?_ entailed⟩
  · intro statement member
    rcases List.mem_pair.mp member with rfl | rfl <;> rfl
  · rw [factsOf, List.mem_singleton, Prod.mk.injEq]
    rintro ⟨rfl, -⟩
    exact hasFormula_iff.mpr ⟨_, List.mem_cons_of_mem _ List.mem_cons_self, beq_self_eq_true _⟩

end Read

/-- A sentence about all of a kind is stored as a rule, and one about an individual of this kind as
a fact of the predicate that the rule starts from.  After chaining, the individual is stated to be
of the other kind. -/
theorem infer_from_sentences (isKind : isSmallWord kind.toList = true)
    (isOther : isSmallWord other.toList = true)
    (isIndividual : isSmallWord individual.toList = true) (named : individual ≠ "x")
    (now later last : String) :
    ∃ first second third rule fact stored,
      empty.assert now (.string ("all " ++ kind ++ "s are " ++ other ++ "s")) .null
        (.string "t") = (first, .ok rule) ∧
      first.assert later (.string (individual ++ " is a " ++ kind)) .null (.string "t") =
        (second, .ok fact) ∧
      second.statements = [rule, fact] ∧
      rule.formula = .string (universal (predicateOf kind) (predicateOf other)) ∧
      rule.content? = .ok (some (.quant .all "X" (.sided (predicateOf kind) [.var "X"] false)
        (.sided (predicateOf other) [.var "X"] false))) ∧
      fact.formula = .string (unary (predicateOf kind) individual) ∧
      fact.content? = .ok (some (.sided (predicateOf kind) [.const individual] false)) ∧
      second.infer last none = .ok (third, stored) ∧
      ∃ conclusion, conclusion ∈ third.statements ∧
        conclusion.formula = .string (unary (predicateOf other) individual) ∧
        conclusion.sign = .string "t" := by
  have means := formulaOfSentence_all isKind isOther
  have means' := formulaOfSentence_is_a isKind isIndividual named
  have read := readFormula_universal isKind isOther
  have read' := readFormula_unary isKind isIndividual
  have nonempty {noun : String} (small : isSmallWord noun.toList = true) :
      predicateOf noun ≠ "" := by
    intro same
    have isWord := (isWord_predicateOf small).1
    rw [same] at isWord
    exact isWord.nonempty rfl
  let general := "all " ++ kind ++ "s are " ++ other ++ "s"
  let particular := individual ++ " is a " ++ kind
  let rule := assertion now 1 general (universal (predicateOf kind) (predicateOf other))
  let fact := assertion later 2 particular (unary (predicateOf kind) individual)
  let first : Theory := ⟨[rule], .int 2, ⟨none, none, none⟩⟩
  have one : empty.assert now _ .null (.string "t") = (first, .ok rule) :=
    assert_sentence rfl means read now
  have two : first.assert later _ .null (.string "t") =
      (({ first with nextId := .int 3 } : Theory).put fact, .ok fact) :=
    assert_sentence rfl means' read' later
  have placed : ({ first with nextId := .int 3 } : Theory).put fact =
      ruleAndFact now later general particular (predicateOf kind) (predicateOf other)
        individual := by
    have apart : rule.id.sameName fact.id = false := rfl
    rw [put, putStatement, apart]
    rfl
  rcases infer_ruleAndFact now later general particular read read' (nonempty isKind)
    (nonempty isOther) (isWord_of_isSmallWord isIndividual) last with
    ⟨third, stored, done, found⟩
  rw [placed] at two
  exact ⟨first, _, third, rule, fact, stored, one, two, rfl, rfl,
    content?_of_readFormula rfl read, rfl, content?_of_readFormula rfl read', done, found⟩

/-- The ending of the kind is taken off in both sentences, though it is no plural. -/
theorem infer_from_sentences_bus : isSmallWord "bus".toList = true ∧
    isSmallWord "vehicle".toList = true ∧ isSmallWord "rex".toList = true ∧ "rex" ≠ "x" ∧
    ∃ first second third rule fact stored,
      empty.assert "" (.string "all buss are vehicles") .null (.string "t") = (first, .ok rule) ∧
      first.assert "" (.string "rex is a bus") .null (.string "t") = (second, .ok fact) ∧
      second.statements = [rule, fact] ∧
      rule.formula = .string "[forall X Bu(X)]Vehicle(X)" ∧ fact.formula = .string "Bu(rex)" ∧
      second.infer "" none = .ok (third, stored) ∧
      ∃ conclusion, conclusion ∈ third.statements ∧
        conclusion.formula = .string "Vehicle(rex)" ∧ conclusion.sign = .string "t" := by
  have isKind : isSmallWord "bus".toList = true := by decide
  have isOther : isSmallWord "vehicle".toList = true := by decide
  have isIndividual : isSmallWord "rex".toList = true := by decide
  rcases infer_from_sentences isKind isOther isIndividual (by decide) "" "" "" with
    ⟨first, second, third, rule, fact, stored, one, two, stated, ruled, _, given, _, done, found⟩
  exact ⟨isKind, isOther, isIndividual, by decide, first, second, third, rule, fact, stored, one,
    two, stated, ruled, given, done, found⟩

end Conclusion

end Theory
end WeakKleene
