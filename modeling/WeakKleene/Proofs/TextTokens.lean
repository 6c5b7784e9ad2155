import WeakKleene.Proofs.Arguments

namespace WeakKleene

/-!
# Written formulas as tokens

A formula without quantifiers whose names are words is written so that it can
be read back.  The scanner finds the tokens that were meant, since a word is
followed by its arguments, by a blank, by a closing parenthesis or by nothing.
The parentheses around compound parts then leave the readers no choice.  Which
arguments are variables is told by their case alone, so that it does not matter
what was read before.
-/

/-- A term that is named by a word, and whose case tells what it is. -/
def Term.Regular (term : Term) : Prop :=
  Grammar.IsWord term.name.toList ∧ Text.isUpper term.name.toList = !term.isConst

namespace Formula

open Grammar

/-- An atom that is named by a word, or such a predicate with regular arguments. -/
def Regular : Formula -> Prop
  | atom name => IsWord name.toList
  | pred name args => IsWord name.toList ∧ args ≠ [] ∧ forall term, term ∈ args -> term.Regular
  | _ => False

/-! ## Tokens -/

def encloseTokens (inParentheses : Bool) (tokens : List Token) : List Token :=
  if inParentheses then .mark .openParen false :: (tokens ++ [.mark .closeParen false]) else tokens

def linkMark : Connective -> Mark
  | .conj => .and
  | .disj => .or
  | .imp => .implies

/-- The token of a predicate that is starred or not, and stands with its arguments if it has
any. -/
def sidedToken (name : String) (args : List Term) (starred : Bool) : Token :=
  match starred, args.isEmpty with
  | true, true => .starred name.toList none
  | true, false => .starred name.toList (some (argumentChars args))
  | false, true => .word name.toList
  | false, false => .applied name.toList (argumentChars args)

def tokens : Formula -> List Token
  | atom name => [.word name.toList]
  | pred name args => [.applied name.toList (argumentChars args)]
  | bilateral name args _ starred => [sidedToken name args starred]
  | neg body => .mark .not false :: encloseTokens body.isCompound body.tokens
  | join connective left right =>
    encloseTokens left.isCompound left.tokens ++
      .mark (linkMark connective) false :: encloseTokens right.isCompound right.tokens
  | _ => []

def partTokens (formula : Formula) : List Token := encloseTokens formula.isCompound formula.tokens

end Formula

namespace Grammar

open Formula (Boundary argumentChars)

/-! ## Scanning -/

/-- From any position on, a text falls into tokens. -/
def ScansTo (style : Style) (text : List Char) (tokens : List Token) : Prop :=
  forall position, scanFrom style position 0 text = .ok tokens

theorem scanFrom_skip (style : Style) (position : Nat) (front rest : List Char) :
    scanFrom style position front.length (front ++ rest) =
      scanFrom style (position + front.length) 0 rest := by
  induction front generalizing position with
  | nil => rfl
  | cons c front ih =>
    rw [List.length_cons, List.cons_append, scanFrom, ih, Nat.add_right_comm, Nat.add_assoc]

variable {style : Style}

theorem scansTo_nil : ScansTo style [] [] := fun _ => rfl

variable {rest : List Char} {tokens : List Token}

/-- A lexeme at the front is the first token. -/
theorem ScansTo.lexeme {front : List Char} {token : Option Token}
    (found : lexeme? style (front ++ rest) = some (token, front.length)) (nonempty : front ≠ [])
    (behind : ScansTo style rest tokens) :
    ScansTo style (front ++ rest) (token.toList ++ tokens) := by
  intro position
  cases front with
  | nil => exact absurd rfl nonempty
  | cons c front =>
    rw [List.cons_append] at found ⊢
    rw [scanFrom, found]
    dsimp only
    rw [List.length_cons, Nat.add_sub_cancel, scanFrom_skip, behind]
    rfl

theorem boundary_stops (ends : Boundary rest) : rest.head?.any Text.isWordChar = false := by
  cases rest with
  | nil => rfl
  | cons c rest =>
    rcases ends with rfl | rfl
    · exact (by decide : Text.isWordChar ' ' = false)
    · exact (by decide : Text.isWordChar ')' = false)

theorem spanWord_append {name : List Char} (isWord : IsWord name)
    (stops : rest.head?.any Text.isWordChar = false) :
    Text.spanWord (name ++ rest) = (name, rest) := by
  rw [Text.spanWord, List.span_eq_takeWhile_dropWhile, List.takeWhile_append_of_pos isWord.word,
    List.dropWhile_append_of_pos isWord.word]
  cases rest with
  | nil => simp
  | cons c rest =>
    have stop : ¬ Text.isWordChar c = true := Bool.eq_false_iff.mp stops
    rw [List.takeWhile_cons_of_neg stop, List.dropWhile_cons_of_neg stop, List.append_nil]

theorem lexeme?_name {c : Char} (starts : Text.isWordChar c = true) (rest : List Char) :
    lexeme? style (c :: rest) =
      some (some (nameToken style (c :: rest)).1, (nameToken style (c :: rest)).2) := by
  unfold lexeme?
  split
  case h_1 same => cases same
  case h_14 same =>
    cases same
    rw [if_pos starts]
  all_goals next same =>
      rw [(List.cons.inj same).1] at starts
      exact absurd starts (by decide +kernel)

theorem ScansTo.name {front : List Char} {token : Token}
    (starts : front.head?.any Text.isWordChar = true)
    (found : nameToken style (front ++ rest) = (token, front.length))
    (behind : ScansTo style rest tokens) : ScansTo style (front ++ rest) (token :: tokens) := by
  cases front with
  | nil => cases starts
  | cons c front =>
    show ScansTo style (c :: front ++ rest) ((some token).toList ++ tokens)
    refine ScansTo.lexeme ?_ (List.cons_ne_nil _ _) behind
    rw [List.cons_append, lexeme?_name starts, <- List.cons_append, found]

theorem IsWord.head {name : List Char} (isWord : IsWord name) (rest : List Char) :
    (name ++ rest).head?.any Text.isWordChar = true := by
  cases name with
  | nil => exact absurd rfl isWord.nonempty
  | cons c name => exact isWord.word c List.mem_cons_self

theorem ScansTo.word {name : List Char} (isWord : IsWord name) (ends : Boundary rest)
    (behind : ScansTo style rest tokens) :
    ScansTo style (name ++ rest) (.word name :: tokens) := by
  refine ScansTo.name (List.append_nil name ▸ isWord.head []) ?_ behind
  unfold nameToken
  rw [spanWord_append isWord (boundary_stops ends)]
  cases rest with
  | nil => cases style <;> rfl
  | cons c rest => rcases ends with rfl | rfl <;> cases style <;> rfl

theorem enclosed?_append {inside : List Char} (unclosed : ')' ∉ inside) (rest : List Char) :
    enclosed? (inside ++ ')' :: rest) = some inside := by
  have passes : forall c, c ∈ inside -> (c != ')') = true := fun c member =>
    bne_iff_ne.mpr fun same => unclosed (same ▸ member)
  simp only [enclosed?, List.span_eq_takeWhile_dropWhile]
  rw [List.takeWhile_append_of_pos passes, List.dropWhile_append_of_pos passes,
    List.takeWhile_cons_of_neg (by decide), List.dropWhile_cons_of_neg (by decide),
    List.append_nil]

theorem ScansTo.applied {name args : List Char} (isWord : IsWord name) (unclosed : ')' ∉ args)
    (behind : ScansTo style rest tokens) :
    ScansTo style (name ++ '(' :: (args ++ ')' :: rest)) (.applied name args :: tokens) := by
  have whole : name ++ '(' :: (args ++ ')' :: rest) =
      (name ++ '(' :: (args ++ [')'])) ++ rest := by simp
  rw [whole]
  refine ScansTo.name (isWord.head _) ?_ behind
  have stops : ('(' :: (args ++ ')' :: rest)).head?.any Text.isWordChar = false :=
    (by decide : Text.isWordChar '(' = false)
  have length : (name ++ '(' :: (args ++ [')'])).length = name.length + args.length + 2 := by
    simp only [List.length_append, List.length_cons, List.length_nil]
    omega
  rw [<- whole, length]
  unfold nameToken
  rw [spanWord_append isWord stops]
  dsimp only
  split
  · next impossible => cases impossible
  · next impossible => cases impossible
  · next same =>
    cases same
    rw [enclosed?_append unclosed]
  · next unopened _ _ => exact absurd rfl (unopened _)

/-- A universal quantifier over X and its restriction are one token. -/
theorem ScansTo.universal {scope : List Char} (tight : Tight scope) (unclosed : ']' ∉ scope)
    (behind : ScansTo style rest tokens) :
    ∃ source, ScansTo style ("[forall X ".toList ++ (scope ++ ']' :: rest))
      (.quantifier .all ['X'] scope source :: tokens) := by
  let text := 'X' :: ' ' :: (scope ++ ']' :: rest)
  have bound : binder? text = some (['X'], scope, scope.length + 3) := by
    have passes : forall c, c ∈ scope -> (c != ']') = true := fun c member =>
      bne_iff_ne.mpr fun same => unclosed (same ▸ member)
    rcases List.exists_cons_of_ne_nil tight.nonempty with ⟨c, others, rfl⟩
    have kept : Text.dropBlanks (c :: others) = c :: others :=
      List.dropWhile_cons_of_neg (Bool.eq_false_iff.mp tight.starts)
    have named : Text.spanWord text = (['X'], text.drop 1) := rfl
    have blank : Text.isBlank ' ' = true := rfl
    simp only [binder?, named, text, List.drop_succ_cons, List.drop_zero,
      List.span_eq_takeWhile_dropWhile, List.takeWhile_append_of_pos passes,
      List.dropWhile_append_of_pos passes]
    simp [kept, blank, Nat.add_comm 1]
  have sign : quantifierSign? ("forall ".toList ++ text) = some (.all, 7, text) := rfl
  have found : lexeme? style ('[' :: ("forall ".toList ++ text)) = some (some (.quantifier .all
      ['X'] scope ('[' :: ("forall ".toList ++ text).take (7 + (scope.length + 3)))),
      7 + (scope.length + 3) + 1) := by
    simp only [lexeme?, quantifierToken?, sign, bound, bind, Option.bind]
    rfl
  have length : 7 + (scope.length + 3) + 1 = ("[forall X ".toList ++ (scope ++ [']'])).length := by
    simp
    omega
  have whole : '[' :: ("forall ".toList ++ text) =
    ("[forall X ".toList ++ (scope ++ [']'])) ++ rest := by simp [text]
  rw [length, whole] at found
  have scanned := ScansTo.lexeme found (by simp) behind
  rw [<- whole] at scanned
  exact ⟨_, scanned⟩

theorem ScansTo.starred {name args : List Char} (isWord : IsWord name) (unclosed : ')' ∉ args)
    (behind : ScansTo .starred rest tokens) :
    ScansTo .starred (name ++ '*' :: '(' :: (args ++ ')' :: rest))
      (.starred name (some args) :: tokens) := by
  have whole : name ++ '*' :: '(' :: (args ++ ')' :: rest) =
      (name ++ '*' :: '(' :: (args ++ [')'])) ++ rest := by simp
  rw [whole]
  refine ScansTo.name (isWord.head _) ?_ behind
  have stops : ('*' :: '(' :: (args ++ ')' :: rest)).head?.any Text.isWordChar = false :=
    (by decide : Text.isWordChar '*' = false)
  have length : (name ++ '*' :: '(' :: (args ++ [')'])).length = name.length + args.length + 3 := by
    simp only [List.length_append, List.length_cons, List.length_nil]
    omega
  rw [<- whole, length]
  unfold nameToken
  rw [spanWord_append isWord stops]
  simp only [enclosed?_append unclosed]

theorem ScansTo.starredWord {name : List Char} (isWord : IsWord name)
    (ends : Boundary rest) (behind : ScansTo .starred rest tokens) :
    ScansTo .starred (name ++ '*' :: rest) (.starred name none :: tokens) := by
  have whole : name ++ '*' :: rest = (name ++ ['*']) ++ rest := by simp
  rw [whole]
  refine ScansTo.name (isWord.head _) ?_ behind
  have stops : ('*' :: rest).head?.any Text.isWordChar = false :=
    (by decide : Text.isWordChar '*' = false)
  rw [<- whole, List.length_append]
  unfold nameToken
  rw [spanWord_append isWord stops]
  cases rest with
  | nil => rfl
  | cons c rest => rcases ends with rfl | rfl <;> rfl

theorem ScansTo.blank (behind : ScansTo style rest tokens) : ScansTo style (' ' :: rest) tokens :=
  ScansTo.lexeme (rfl : lexeme? style ([' '] ++ rest) = some (none, 1)) (List.cons_ne_nil _ _)
    behind

theorem ScansTo.link (connective : Connective) (behind : ScansTo style rest tokens) :
    ScansTo style (' ' :: (connective.symbol.toList ++ ' ' :: rest))
      (.mark (Formula.linkMark connective) false :: tokens) := by
  have sign {rest : List Char} {tokens : List Token} (behind : ScansTo style rest tokens) :
      ScansTo style (connective.symbol.toList ++ rest)
        ((some (.mark (Formula.linkMark connective) false) : Option Token).toList ++ tokens) := by
    cases connective <;> exact .lexeme rfl (by decide) behind
  exact (sign behind.blank).blank

end Grammar

namespace Formula

open Grammar

variable {formula : Formula} {rest : List Char} {tokens : List Token} {before : Vocabulary}
variable {isVariable : List Char -> Bool}

theorem scansTo_part {style : Style}
    (scans : forall {rest tokens}, Boundary rest -> ScansTo style rest tokens ->
      ScansTo style (formula.text.toList ++ rest) (formula.tokens ++ tokens))
    (ends : Boundary rest)
    (behind : ScansTo style rest tokens) :
    ScansTo style (formula.partChars ++ rest) (formula.partTokens ++ tokens) := by
  have opening {rest : List Char} {tokens : List Token} (behind : ScansTo style rest tokens) :
      ScansTo style (['('] ++ rest)
        ((some (.mark .openParen false) : Option Token).toList ++ tokens) :=
    .lexeme rfl (List.cons_ne_nil _ _) behind
  have closing {rest : List Char} {tokens : List Token} (behind : ScansTo style rest tokens) :
      ScansTo style ([')'] ++ rest)
        ((some (.mark .closeParen false) : Option Token).toList ++ tokens) :=
    .lexeme rfl (List.cons_ne_nil _ _) behind
  unfold partTokens encloseTokens
  cases compound : formula.isCompound with
  | false =>
    rw [partChars, enclose, compound]
    exact scans ends behind
  | true =>
    rw [partChars_compound compound, if_pos rfl, List.cons_append, List.cons_append,
      List.append_assoc, List.append_assoc]
    exact opening (scans (boundary_paren _) (closing behind))

/-- Between parentheses stand words, commas and blanks alone. -/
theorem not_mem_argumentChars {args : List Term} {c : Char}
    (named : forall term, term ∈ args -> IsWord term.name.toList)
    (other : Text.isWordChar c = false) (noComma : c ≠ ',') (noBlank : c ≠ ' ') :
    c ∉ argumentChars args := by
  intro member
  rw [argumentChars, String.toList_intercalate] at member
  rcases mem_intercalate member with between | ⟨piece, listed, inside⟩
  · have separator : c = ',' ∨ c = ' ' := by simpa using between
    exact separator.elim noComma noBlank
  · rw [List.map_map, List.mem_map] at listed
    rcases listed with ⟨term, argument, rfl⟩
    exact (named term argument).not_mem other inside

/-- The scanner finds the tokens of a formula if it finds those of its basic parts. -/
theorem scansTo_built {style : Style} {basic : Formula -> Prop}
    (scans : forall formula, basic formula -> forall {rest tokens}, Boundary rest ->
      ScansTo style rest tokens ->
      ScansTo style (formula.text.toList ++ rest) (formula.tokens ++ tokens))
    (built : formula.BuiltFrom basic)
    (ends : Boundary rest) (behind : ScansTo style rest tokens) :
    ScansTo style (formula.text.toList ++ rest) (formula.tokens ++ tokens) := by
  induction built generalizing rest tokens with
  | basic given => exact scans _ given ends behind
  | @neg body inner ih =>
    have sign : ScansTo style (['~'] ++ (body.partChars ++ rest))
        ((some (.mark .not false) : Option Token).toList ++ (body.partTokens ++ tokens)) :=
      .lexeme rfl (List.cons_ne_nil _ _) (scansTo_part ih ends behind)
    rw [text_neg_toList]
    exact sign
  | @join left right connective first second atFirst atSecond =>
    have linked := ScansTo.link connective (scansTo_part atSecond ends behind)
    have whole := scansTo_part atFirst (boundary_blank _) linked
    rw [text_join_toList, List.append_assoc, List.cons_append, List.append_assoc,
      List.cons_append, Formula.tokens, List.append_assoc]
    exact whole

theorem scansTo_text (regular : formula.BuiltFrom Regular)
    (ends : Boundary rest) (behind : ScansTo .plain rest tokens) :
    ScansTo .plain (formula.text.toList ++ rest) (formula.tokens ++ tokens) := by
  refine scansTo_built ?_ regular ends behind
  intro formula given rest tokens ends behind
  cases formula with
  | atom name => exact .word given ends behind
  | pred name args =>
    rcases given with ⟨isWord, nonempty, regular⟩
    rw [text, application_toList, if_neg nonempty, List.append_assoc, List.cons_append,
      List.append_assoc]
    refine .applied isWord (not_mem_argumentChars ?_ (by decide) (by decide) (by decide)) behind
    exact fun term listed => (regular term listed).1
  | _ => cases given

/-! ## Reading -/

theorem termNamed_of_told {term : Term} (told : isVariable term.name.toList = !term.isConst) :
    termNamed isVariable term.name.toList = term := by
  rw [termNamed, told]
  cases term with
  | const name => exact congrArg Term.const String.ofList_toList
  | var name => exact congrArg Term.var String.ofList_toList

section Arguments

variable {args : List Term}

theorem argumentChars_ne_nil (nonempty : args ≠ [])
    (named : forall term, term ∈ args -> IsWord term.name.toList) : argumentChars args ≠ [] := by
  rcases List.exists_cons_of_ne_nil nonempty with ⟨first, others, rfl⟩
  have isWord := named first List.mem_cons_self
  intro nothing
  rw [argumentChars_eq_listing] at nothing
  have inside : first.name.toList ⊆ [] := by
    rw [<- nothing, List.map_cons]
    exact (infix_intercalate List.mem_cons_self).subset
  exact isWord.nonempty (List.subset_nil.mp inside)

theorem map_trim_argumentChars (nonempty : args ≠ [])
    (named : forall term, term ∈ args -> IsWord term.name.toList) :
    (commaPieces (argumentChars args)).map Text.trim = args.map fun term => term.name.toList := by
  rw [argumentChars_eq_listing]
  refine map_trim_commaPieces_listing (by rwa [ne_eq, List.map_eq_nil_iff]) ?_
  intro name member
  rcases List.mem_map.mp member with ⟨term, inArgs, rfl⟩
  exact (named term inArgs).listed

theorem map_termNamed_names
    (told : forall term, term ∈ args -> isVariable term.name.toList = !term.isConst) :
    (args.map fun term => term.name.toList).map (termNamed isVariable) = args := by
  rw [List.map_map]
  exact (List.map_congr_left fun term member => termNamed_of_told (told term member)).trans
    (List.map_id _)

/-- Regular arguments are read back, whatever was read before. -/
theorem gives_regular_arguments (nonempty : args ≠ [])
    (regular : forall term, term ∈ args -> term.Regular)
    (byCase : before.isVariable = Text.isUpper) :
    ∃ after, after.isVariable = Text.isUpper ∧
      Gives (readArguments (argumentChars args)) before args after := by
  have named : forall term, term ∈ args -> IsWord term.name.toList :=
    fun term member => (regular term member).1
  refine ⟨_, ?_, (gives_readArguments (argumentChars_ne_nil nonempty named)).mpr ⟨?_, rfl⟩⟩
  · rw [Vocabulary.isVariable_foldl_add, byCase]
  · rw [map_trim_argumentChars nonempty named, byCase,
      map_termNamed_names fun term member => (regular term member).2]

end Arguments

theorem sidedToken_unsigned (name : String) (args : List Term) (starred : Bool) :
    (sidedToken name args starred).isNegation = false := by
  unfold sidedToken
  split <;> rfl

theorem partTokens_unsigned (free : formula.QuantifierFree) :
    formula.partTokens.head?.any Token.isNegation = false := by
  cases free with
  | @basic formula given =>
    cases formula with
    | atom | pred => rfl
    | bilateral name args starName starred => exact sidedToken_unsigned name args starred
    | _ => cases given
  | neg | join => rfl

theorem Regular.atomic (formula : Formula) (regular : formula.Regular) :
    formula.isAtomic = true := by
  cases formula with
  | atom | pred => rfl
  | _ => cases regular

section Reading

variable {restriction : List Char -> Vocabulary -> Except ParseError Formula}

/-- A formula is read off its own tokens, as a whole and as a part. -/
structure ReadBack (restriction : List Char -> Vocabulary -> Except ParseError Formula)
    (formula : Formula) (before after : Vocabulary) : Prop where
  byCase : after.isVariable = Text.isUpper
  whole : Derives restriction .implication before formula.tokens formula after
  part : Derives restriction .atomic before formula.partTokens formula after

theorem ReadBack.atomic {after : Vocabulary} (byCase : after.isVariable = Text.isUpper)
    (derived : Derives restriction .atomic before formula.tokens formula after)
    (simple : formula.isCompound = false) (regular : formula.BuiltFrom Regular) :
    ReadBack restriction formula before after := by
  have unsigned := partTokens_unsigned (regular.mono Regular.atomic)
  have same : formula.partTokens = formula.tokens := by
    rw [partTokens, encloseTokens, if_neg (Bool.eq_false_iff.mp simple)]
  rw [same] at unsigned
  exact ⟨byCase, .disjunction (.conjunction (.negation (.atomic derived unsigned))), by rwa [same]⟩

theorem ReadBack.compound {after : Vocabulary} (byCase : after.isVariable = Text.isUpper)
    (derived : Derives restriction .implication before formula.tokens formula after)
    (compound : formula.isCompound = true) : ReadBack restriction formula before after := by
  refine ⟨byCase, derived, ?_⟩
  rw [partTokens, encloseTokens, if_pos compound]
  exact .parens false false derived

/-- By induction on the formula.  The vocabulary stays one where case alone tells variables. -/
theorem exists_readBack (regular : formula.BuiltFrom Regular)
    (byCase : before.isVariable = Text.isUpper) :
    ∃ after, ReadBack restriction formula before after := by
  induction regular generalizing before with
  | @basic formula given =>
    cases formula with
    | atom name =>
      have derived := @Derives.operand restriction before (.word name.toList) rfl
      rw [Token.text, Token.source, String.ofList_toList] at derived
      exact ⟨before, .atomic byCase derived rfl (.basic given)⟩
    | pred name args =>
      rcases gives_regular_arguments given.2.1 given.2.2 byCase with ⟨after, kept, read⟩
      have derived := @Derives.applied restriction _ _ name.toList _ _ read
      rw [String.ofList_toList] at derived
      exact ⟨after, .atomic kept derived rfl (.basic given)⟩
    | _ => cases given
  | @neg body inner ih =>
    rcases ih byCase with ⟨after, read⟩
    refine ⟨after, .compound read.byCase ?_ rfl⟩
    exact .disjunction (.conjunction (.negation
      (.not false (.atomic read.part (partTokens_unsigned (inner.mono Regular.atomic))))))
  | @join left right connective first second atFirst atSecond =>
    rcases atFirst byCase with ⟨between, read⟩
    rcases atSecond read.byCase with ⟨after, read'⟩
    have front : Derives restriction .negation before left.partTokens left between :=
      .atomic read.part (partTokens_unsigned (first.mono Regular.atomic))
    have back : Derives restriction .negation between right.partTokens right after :=
      .atomic read'.part (partTokens_unsigned (second.mono Regular.atomic))
    refine ⟨after, .compound read'.byCase ?_ rfl⟩
    cases connective with
    | conj => exact .disjunction (.conjunction (.and (.negation front) rfl back))
    | disj => exact .disjunction (.or (.conjunction (.negation front)) rfl (.negation back))
    | imp =>
      exact .arrow (.conjunction (.negation front)) rfl
        (.disjunction (.conjunction (.negation back)))

end Reading

theorem scan_text (regular : formula.BuiltFrom Regular) :
    scan .plain formula.text.toList = .ok formula.tokens := by
  have scanned := scansTo_text regular boundary_nil scansTo_nil 0
  rw [List.append_nil, List.append_nil] at scanned
  exact scanned

/-- A regular formula is read back from its text, and leaves a vocabulary where case alone tells
variables. -/
theorem gives_readFormula_text (regular : formula.BuiltFrom Regular)
    (byCase : before.isVariable = Text.isUpper) :
    ∃ after, after.isVariable = Text.isUpper ∧
      Gives (readFormula formula.text.toList) before formula after := by
  rcases exists_readBack regular byCase with ⟨after, read⟩
  exact ⟨after, read.byCase, gives_readWhole.mpr ⟨_, scan_text regular, read.whole⟩⟩

end Formula
end WeakKleene
