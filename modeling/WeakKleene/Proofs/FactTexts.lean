import WeakKleene.Proofs.Instances
import WeakKleene.Proofs.TextTokens

namespace WeakKleene

/-!
# Facts as they are written and read back

A fact that was derived is stored as a text, its predicate's name followed by
the individual in parentheses.  The name comes from what a universal statement
governs, and that is read with stars: it may end in several of them, and it may
even hold an opening parenthesis.  So the text need not be read as the fact that
it was written for.  It is either not read at all, or read as that fact, or read
as a fact of a predicate whose name holds an opening parenthesis.  No universal
statement starts from such a predicate, since restrictions are read without
stars.
-/

/-! ## Names of predicates -/

namespace Formula

/-- The name of a predicate is good, also where the predicate stands behind negation signs. -/
def NamedBy (good : String -> Prop) : Formula -> Prop
  | pred name _ => good name
  | bilateral name _ starName starred => good (if starred then starName else name)
  | neg body => body.NamedBy good
  | _ => True

end Formula

namespace Grammar

open Tableau (exists_of_bind_eq_ok)
open Formula (starOf)

variable {mode : Mode} {formula : Formula} {name text : List Char} {level : Level}
variable {tokens : List Token}

/-- Predicates that are made bilateral have good names, if a star behind a good name is good. -/
theorem MadeBilateral.good {good : String -> Prop} {made : Formula} {name : String}
    (sides : MadeBilateral mode formula made) (named : formula.NamedBy good)
    (stars : forall name, good name -> good (starOf name))
    (found : made.predicateName? = some name) : good name := by
  cases sides with
  | pred | bilateral =>
    cases found
    exact named
  | @denial body _ _ isNamed =>
    cases found
    cases body with
    | pred | bilateral =>
      cases isNamed
      exact stars _ named
    | _ => cases isNamed
  | _ => cases found

/-- The names that predicates have in starred text: an upper-case word, or stars behind a word or
behind a word whose parentheses are left open. -/
inductive SidedName : List Char -> Prop where
  | upper {name : List Char} (isWord : IsWord name) (first : Text.startsUpper name = true) :
      SidedName name
  | starred {name : List Char} (isWord : IsWord name) (count : Nat) :
      SidedName (name ++ List.replicate (count + 1) '*')
  | opened {name inside : List Char} (isWord : IsWord name) (unstarred : '*' ∉ inside)
      (unclosed : ')' ∉ inside) (count : Nat) :
      SidedName (name ++ '(' :: (inside ++ List.replicate (count + 1) '*'))

theorem SidedName.star (named : SidedName name) : SidedName (name ++ ['*']) := by
  cases named with
  | upper isWord first => exact .starred isWord 0
  | @starred name isWord count =>
    have longer := SidedName.starred isWord (count + 1)
    rwa [List.replicate_succ', <- List.append_assoc] at longer
  | @opened name inside isWord unstarred unclosed count =>
    have longer := SidedName.opened isWord unstarred unclosed (count + 1)
    rw [List.replicate_succ'] at longer
    simpa only [List.append_assoc, List.cons_append] using longer

theorem sidedName_starOf {name : String} (named : SidedName name.toList) :
    SidedName (starOf name).toList := by
  rw [starOf, String.toList_append]
  exact named.star

section Tokens

variable {token : Token} {name args : List Char}

theorem startsUpper_append (front back : List Char) (nonempty : front ≠ []) :
    Text.startsUpper (front ++ back) = Text.startsUpper front := by
  cases front with
  | nil => exact absurd rfl nonempty
  | cons c front => rfl

/-- The name of a token with a star in it. -/
theorem sidedName_starredParts (formed : token.Formed)
    (found : starredParts? token = some (name, args)) : SidedName (name ++ ['*']) := by
  cases token with
  | starred word inside =>
    cases found
    exact .starred formed.1 0
  | applied word inside =>
    simp only [starredParts?, List.span_eq_takeWhile_dropWhile] at found
    split at found
    · cases found
      rw [List.append_assoc, List.cons_append]
      refine .opened formed.1 ?_ ?_ 0
      · intro member
        exact absurd (List.mem_takeWhile_imp member) (by decide)
      · exact fun member => formed.2 (List.takeWhile_subset _ member)
    · cases found
  | word | mark | quantifier => cases found

theorem sidedName_predicateToken (formed : token.Formed)
    (found : predicateToken? token = some (name, args)) : SidedName name := by
  rw [predicateToken?] at found
  split at found
  · next upper =>
    cases token with
    | word word =>
      cases found
      exact .upper formed upper
    | applied word inside =>
      cases found
      refine .upper formed.1 ?_
      rwa [Token.source, startsUpper_append _ _ formed.1.nonempty] at upper
    | starred word inside =>
      cases found
      exact .starred formed.1 0
    | mark | quantifier => cases found
  · cases found

end Tokens

/-- By induction on the derivation: predicates are named by words. -/
theorem Derives.namedBy {restriction : List Char -> Vocabulary -> Except ParseError Formula}
    {before after : Vocabulary}
    (derived : Derives restriction level before tokens formula after)
    (formed : forall token, token ∈ tokens -> token.Formed) :
    formula.NamedBy fun name => '(' ∉ name.toList := by
  induction derived with
  | disjunction _ ih | conjunction _ ih
  | negation _ ih | atomic _ _ ih => exact ih formed
  | not _ _ ih => exact ih (formed_tail formed)
  | parens _ _ _ ih => exact ih (each_split (formed_tail formed)).1
  | applied =>
    have isWord := (formed _ List.mem_cons_self).1
    rw [Formula.NamedBy, String.toList_ofList]
    exact isWord.not_mem (by decide)
  | arrow | or | and | quantified | operand => trivial

/-- By induction on the derivation: predicates have the names that starred text gives them. -/
theorem DerivesSided.namedBy (derived : DerivesSided mode level tokens formula)
    (formed : forall token, token ∈ tokens -> token.Formed) :
    formula.NamedBy fun name => SidedName name.toList := by
  induction derived with
  | disjunction _ ih | conjunction _ ih
  | negation _ ih | atomic _ _ ih => exact ih formed
  | not _ _ _ ih => exact ih (formed_tail formed)
  | parens _ _ _ ih => exact ih (each_split (formed_tail formed)).1
  | denied _ found =>
    have named := sidedName_predicateToken (formed_tail formed _ List.mem_cons_self) found
    exact sidedName_starOf (by rwa [String.toList_ofList])
  | @starred _ name _ _ found =>
    have named := sidedName_starredParts (formed _ List.mem_cons_self) found
    change SidedName (starOf (String.ofList name)).toList
    rwa [starOf, String.toList_append, String.toList_ofList]
  | @plain _ name _ _ _ found =>
    have named := sidedName_predicateToken (formed _ List.mem_cons_self) found
    change SidedName (String.ofList name).toList
    rwa [String.toList_ofList]
  | arrow | or | and | quantified | atom => trivial

/-- A universal statement starts from a predicate whose name holds no parenthesis, and leads to
one with a name of starred text. -/
theorem DerivesSided.names_of_quantified (derived : DerivesSided mode level tokens formula)
    (formed : forall token, token ∈ tokens -> token.Formed) {quantifier : Quantifier}
    {var : String} {restriction matrix : Formula}
    (same : formula = .quant quantifier var restriction matrix) :
    (forall name, restriction.predicateName? = some name -> '(' ∉ name.toList) ∧
      forall name, matrix.predicateName? = some name -> SidedName name.toList := by
  induction derived with
  | disjunction _ ih | conjunction _ ih
  | negation _ ih | atomic _ _ ih => exact ih formed same
  | parens _ _ _ ih => exact ih (each_split (formed_tail formed)).1 same
  | quantified restricted governed sidedCondition sidedBody =>
    cases same
    rcases readRestriction_eq_ok_iff.mp restricted with ⟨_, _, scanned, derived⟩
    refine ⟨fun name found => ?_, fun name found => ?_⟩
    · refine (madeBilateral _ sidedCondition).good (derived.namedBy (scanFrom_formed scanned)) ?_
        found
      intro name absent
      simp [starOf, absent]
    · exact (madeBilateral _ sidedBody).good (governed.namedBy (formed_tail formed))
        (fun _ => sidedName_starOf) found
  | arrow | or | and | not | denied | starred | plain | atom => cases same

/-! ## Reading back -/

theorem sidedArguments_const (tight : Tight text) (separated : ',' ∉ text)
    (unclosed : ')' ∉ text) (small : Text.startsUpper text = false) :
    sidedArguments text = .ok [.const (String.ofList text)] := by
  have pieces : (commaPieces text).map Text.trim = [text] := by
    have listed : forall name, name ∈ [text] -> Listed name := by
      intro name member
      rw [List.mem_singleton.mp member]
      exact ⟨separated, unclosed, tight.trim_eq⟩
    have found := map_trim_commaPieces_listing (List.cons_ne_nil text []) listed
    rwa [listing, List.intercalate_singleton] at found
  rcases List.map_eq_singleton_iff.mp pieces with ⟨piece, single, trimmed⟩
  rcases List.exists_cons_of_ne_nil tight.nonempty with ⟨c, rest, rfl⟩
  have lower : ¬ Text.isUpperChar c = true := Bool.eq_false_iff.mp small
  rw [sidedArguments, if_neg (by simp), single, List.mapM_cons, trimmed, sidedArgument,
    if_neg lower]
  rfl

theorem sidedArguments_word (isWord : IsWord name) (small : Text.startsUpper name = false) :
    sidedArguments name = .ok [.const (String.ofList name)] :=
  sidedArguments_const isWord.tight isWord.listed.noComma isWord.listed.noParen small

/-- Where no parentheses are, none stand at the ends. -/
theorem ends_of_not_mem (noOpening : '(' ∉ text) (noClosing : ')' ∉ text) :
    text.head?.any (fun c => c == '(' || c == ')') = false ∧
      text.getLast?.any (fun c => c == '(' || c == ')') = false := by
  have solid (found : Option Char) (inside : forall c, found = some c -> c ∈ text) :
      found.any (fun c => c == '(' || c == ')') = false := by
    cases found with
    | none => rfl
    | some c =>
      have unopened : c ≠ '(' := fun same => noOpening (same ▸ inside c rfl)
      have unclosed : c ≠ ')' := fun same => noClosing (same ▸ inside c rfl)
      simp [unopened, unclosed]
  exact ⟨solid _ fun _ found => List.mem_of_mem_head? found,
    solid _ fun _ found => List.mem_of_mem_getLast? found⟩

theorem IsWord.ends (isWord : IsWord name) :
    name.head?.any (fun c => c == '(' || c == ')') = false ∧
      name.getLast?.any (fun c => c == '(' || c == ')') = false :=
  ends_of_not_mem (isWord.not_mem (by decide)) (isWord.not_mem (by decide))

theorem trimParens_eq_self (noOpening : '(' ∉ text) (noClosing : ')' ∉ text) :
    trimParens text = text :=
  Text.dropWhile_both_eq_self (ends_of_not_mem noOpening noClosing).1
    (ends_of_not_mem noOpening noClosing).2

theorem trimParens_word (isWord : IsWord name) : trimParens name = name :=
  trimParens_eq_self (isWord.not_mem (by decide)) (isWord.not_mem (by decide))

/-- What follows a star in parentheses that are left open is a single argument. -/
theorem sidedArguments_opened (isWord : IsWord name)
    (small : Text.startsUpper name = false) (count : Nat) :
    ∃ individual, individual ≠ "" ∧
      sidedArguments (trimParens (List.replicate count '*' ++ '(' :: name)) =
        .ok [.const individual] := by
  have some {text : List Char} (nonempty : text ≠ []) : String.ofList text ≠ "" := by
    simpa using nonempty
  cases count with
  | zero =>
    have trimmed : trimParens ('(' :: name) = name := trimParens_word isWord
    refine ⟨_, some isWord.nonempty, ?_⟩
    rw [List.replicate_zero, List.nil_append, trimmed]
    exact sidedArguments_word isWord small
  | succ count =>
    have whole : List.replicate (count + 1) '*' ++ '(' :: name =
        ['*'] ++ ((List.replicate count '*' ++ ['(']) ++ name) := by
      simp [List.replicate_succ]
    have tight : Tight (List.replicate (count + 1) '*' ++ '(' :: name) :=
      whole ▸ (tight_singleton (by decide)).append _ isWord.tight
    have trimmed : trimParens (List.replicate (count + 1) '*' ++ '(' :: name) =
        List.replicate (count + 1) '*' ++ '(' :: name := by
      refine Text.dropWhile_both_eq_self rfl ?_
      rw [whole, <- List.append_assoc, List.getLast?_append_of_ne_nil _ isWord.nonempty]
      exact isWord.ends.2
    have absent {c : Char} (other : Text.isWordChar c = false) (noStar : c ≠ '*')
        (noParen : c ≠ '(') : c ∉ List.replicate (count + 1) '*' ++ '(' :: name := by
      simp [noStar, noParen, isWord.not_mem other]
    refine ⟨_, some tight.nonempty, ?_⟩
    rw [trimmed]
    exact sidedArguments_const tight (absent (by decide) (by decide) (by decide))
      (absent (by decide) (by decide) (by decide)) (by decide : Text.isUpperChar '*' = false)

/-- A star behind a starred name starts no token. -/
theorem scan_stars {rest : List Char} (isWord : IsWord name) :
    scan .starred (name ++ '*' :: '*' :: rest) ≠ .ok tokens := by
  have stops : ('*' :: '*' :: rest).head?.any Text.isWordChar = false :=
    (by decide : Text.isWordChar '*' = false)
  have found : nameToken .starred (name ++ '*' :: '*' :: rest) =
      (.starred name none, name.length + 1) := by
    unfold nameToken
    rw [spanWord_append isWord stops]
    rfl
  rcases List.exists_cons_of_ne_nil isWord.nonempty with ⟨c, others, rfl⟩
  have behind : others ++ '*' :: '*' :: rest = (others ++ ['*']) ++ '*' :: rest := by simp
  have length : (c :: others).length + 1 - 1 = (others ++ ['*']).length := by simp
  intro scanned
  rw [scan, List.cons_append, scanFrom, lexeme?_name (isWord.word c List.mem_cons_self),
    <- List.cons_append, found] at scanned
  dsimp only at scanned
  rw [length, behind, scanFrom_skip] at scanned
  cases scanned

section Texts

variable {mode : Mode} {name inside individual : List Char}

theorem readSided_single {token : Token} (scanned : ScansTo .starred text [token])
    (named : token.isName = true)
    (derived : DerivesSided mode .atomic [token] formula) : readSided mode text = .ok formula :=
  readSided_eq_ok_iff.mpr ⟨[token], scanned 0, derived.whole (isNegation_of_isName named)⟩

theorem readSided_upper (isName : IsWord name) (first : Text.startsUpper name = true)
    (isWord : IsWord individual) (small : Text.startsUpper individual = false) :
    readSided mode (name ++ '(' :: (individual ++ [')'])) =
      .ok (.sided (String.ofList name) [.const (String.ofList individual)] false) := by
  have unstarred : starredParts? (.applied name individual) = none :=
    if_neg (by simpa using isWord.not_mem (by decide))
  have found : predicateToken? (.applied name individual) = some (name, individual) := by
    rw [predicateToken?, Token.source, startsUpper_append _ _ isName.nonempty, if_pos first]
    rfl
  exact readSided_single (.applied isName isWord.listed.noParen scansTo_nil) rfl
    (.plain unstarred found (sidedArguments_word isWord small))

theorem readSided_starred (allowed : mode.allowsStar = true) (isName : IsWord name)
    (isWord : IsWord individual) (small : Text.startsUpper individual = false) :
    readSided mode (name ++ '*' :: '(' :: (individual ++ [')'])) =
      .ok (.sided (String.ofList name) [.const (String.ofList individual)] true) := by
  have found : starredParts? (.starred name (some individual)) = some (name, individual) :=
    congrArg (fun args => some (name, args)) (trimParens_word isWord)
  exact readSided_single (.starred isName isWord.listed.noParen scansTo_nil) rfl
    (.starred found allowed (sidedArguments_word isWord small))

/-- All that stands before the first star is the name, up to a parenthesis that is left open. -/
theorem readSided_opened (allowed : mode.allowsStar = true) (isName : IsWord name)
    (unstarred : '*' ∉ inside) (unclosed : ')' ∉ inside) (isWord : IsWord individual)
    (small : Text.startsUpper individual = false) (count : Nat) :
    ∃ other, other ≠ "" ∧
      readSided mode (name ++ '(' :: (inside ++ List.replicate (count + 1) '*') ++
          '(' :: (individual ++ [')'])) =
        .ok (.sided (String.ofList (name ++ '(' :: inside)) [.const other] true) := by
  let args := inside ++ '*' :: (List.replicate count '*' ++ '(' :: individual)
  have whole : name ++ '(' :: (inside ++ List.replicate (count + 1) '*') ++
      '(' :: (individual ++ [')']) = name ++ '(' :: (args ++ [')']) := by
    simp [args, List.replicate_succ]
  have open_end : ')' ∉ args := by simp [args, unclosed, isWord.listed.noParen]
  have passes : forall c, c ∈ inside -> (c != '*') = true := fun c member =>
    bne_iff_ne.mpr fun same => unstarred (same ▸ member)
  have found : starredParts? (.applied name args) = some (name ++ '(' :: inside,
      trimParens (List.replicate count '*' ++ '(' :: individual)) := by
    simp only [starredParts?, List.span_eq_takeWhile_dropWhile]
    rw [if_pos (by simp [args]), List.takeWhile_append_of_pos passes,
      List.dropWhile_append_of_pos passes]
    simp
  rcases sidedArguments_opened isWord small count with ⟨other, some, made⟩
  refine ⟨other, some, ?_⟩
  rw [whole]
  exact readSided_single (.applied isName open_end scansTo_nil) rfl (.starred found allowed made)

end Texts

end Grammar

namespace Theory

open Grammar

variable {theory : Theory} {contents : List (Statement × Formula)}

/-! ## Facts and rules that are read -/

theorem toList_factText (fact : Fact) :
    (factText fact).toList = fact.1.toList ++ '(' :: (fact.2.toList ++ [')']) := by
  simp [factText]

/-- Facts about words are written differently: the last opening parenthesis stands in front of the
individual. -/
theorem factText_inj {first second : Fact} (isWord : IsWord first.2.toList)
    (isOther : IsWord second.2.toList) (same : factText first = factText second) :
    first = second := by
  have last {front back : List Char} (isWord : IsWord back) :
      (front ++ '(' :: back).reverse.takeWhile (· != '(') = back.reverse := by
    have passes : forall c, c ∈ back.reverse -> (c != '(') = true := fun c member =>
      bne_iff_ne.mpr fun same =>
        isWord.not_mem (by decide : Text.isWordChar '(' = false) (same ▸ List.mem_reverse.mp member)
    rw [List.reverse_append, List.reverse_cons, List.append_assoc,
      List.takeWhile_append_of_pos passes, List.singleton_append,
      List.takeWhile_cons_of_neg (by decide), List.append_nil]
  have chars := congrArg String.toList same
  rw [toList_factText, toList_factText, <- List.cons_append, <- List.cons_append,
    <- List.append_assoc, <- List.append_assoc, List.append_cancel_right_eq] at chars
  have individuals : first.2.toList = second.2.toList := by
    rw [<- List.reverse_inj, <- last isWord, chars, last isOther]
  rw [individuals, List.append_cancel_right_eq] at chars
  exact Prod.ext (String.toList_inj.mp chars) (String.toList_inj.mp individuals)

theorem fact?_sided {name individual : String} (starred : Bool) (named : name ≠ "")
    (nonempty : individual ≠ "") :
    fact? (.sided name [.const individual] starred) =
      some (if starred then Formula.starOf name else name, individual) := by
  have stars : Formula.starOf name ≠ "" := by simp [Formula.starOf]
  cases starred with
  | false => simp [fact?, predicate?, Formula.sided, Formula.predicateName?,
      Formula.arguments?, Option.filter, named, nonempty]
  | true => simp [fact?, predicate?, Formula.sided, Formula.predicateName?,
      Formula.arguments?, Option.filter, stars, nonempty]

/-- What the text of a fact is read as, if it is read at all. -/
theorem fact_of_readFormula {fact : Fact} (named : SidedName fact.1.toList)
    (isWord : IsWord fact.2.toList) (small : Text.startsUpper fact.2.toList = false)
    {formula : Formula} (read : Statement.readFormula (factText fact) = .ok formula) :
    ∃ other, fact? formula = some other ∧ (other = fact ∨ '(' ∈ other.1.toList) := by
  have nonempty {text : List Char} (some : text ≠ []) : String.ofList text ≠ "" := by
    simpa using some
  rw [Statement.readFormula, Formula.parseSided, toList_factText] at read
  generalize written : fact.1.toList = chars at named read
  cases named with
  | upper isName first =>
    cases (readSided_upper isName first isWord small).symm.trans read
    refine ⟨_, fact?_sided false (nonempty isName.nonempty) (nonempty isWord.nonempty),
      .inl (Prod.ext ?_ String.ofList_toList)⟩
    rw [<- String.toList_inj, written]
    exact String.toList_ofList
  | starred isName count =>
    rw [List.append_assoc] at read
    cases count with
    | zero =>
      cases (readSided_starred rfl isName isWord small).symm.trans read
      refine ⟨_, fact?_sided true (nonempty isName.nonempty) (nonempty isWord.nonempty),
        .inl (Prod.ext ?_ String.ofList_toList)⟩
      rw [<- String.toList_inj, written]
      simp [Formula.starOf]
    | succ count =>
      rcases readSided_eq_ok_iff.mp read with ⟨tokens, scanned, _⟩
      exact absurd scanned (scan_stars isName)
  | opened isName unstarred unclosed count =>
    have allowed : Mode.mixed.allowsStar = true := rfl
    rcases readSided_opened allowed isName unstarred unclosed isWord small count with
      ⟨other, some, made⟩
    cases made.symm.trans read
    refine ⟨_, fact?_sided true (nonempty (by simp)) some, .inr ?_⟩
    simp [Formula.starOf]

theorem small_of_mem_facts (read : theory.trueContents = .ok contents) {fact : Fact}
    (member : fact ∈ facts contents) : Text.startsUpper fact.2.toList = false := by
  rcases statement_of_mem_facts read member with ⟨statement, formula, _, _, content, found⟩
  rcases readFormula_of_content? content with ⟨text, _, parsed⟩
  have lettered := readSided_lettered parsed (fact?_eq_some found).2 List.mem_cons_self
  exact lettered

theorem names_of_mem_rules (read : theory.trueContents = .ok contents) {rule : ChainRule}
    (listed : rule ∈ rules contents) :
    '(' ∉ rule.restriction.toList ∧ SidedName rule.matrix.toList := by
  rcases List.mem_filterMap.mp listed with ⟨⟨statement, formula⟩, content, ruled⟩
  rcases rule?_eq_some ruled with ⟨_, var, restriction, matrix, same, first, second⟩
  rcases readFormula_of_content? (mem_of_trueContents read content).2.2 with ⟨text, _, parsed⟩
  rcases readSided_eq_ok_iff.mp parsed with ⟨tokens, scanned, derived⟩
  have names := derived.names_of_quantified (scanFrom_formed scanned) same
  exact ⟨names.1 _ first, names.2 _ second⟩

end Theory
end WeakKleene
