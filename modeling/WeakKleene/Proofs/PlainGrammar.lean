import WeakKleene.Proofs.PlainReading

namespace WeakKleene

/-!
# The language of plain formulas without quantifiers

The connectives are written in the grammar

    implication ::= disjunction | disjunction '->' implication
    disjunction ::= conjunction | disjunction '|' conjunction
    conjunction ::= negation    | conjunction '&' negation
    negation    ::= '~' negation | atomic
    atomic      ::= '(' implication ')' | predicate | word

with either spelling of each connective.  What is read goes beyond it in two
ways.  An opening parenthesis may stand for a disjunction sign, and every sign
but a negation or an opening parenthesis may stand for a word.  A text of the
larger language belongs to the grammar exactly when its parentheses balance in
number and no sign has become an atom.
-/

namespace Grammar

/-! ## The two grammars -/

namespace Token

def isWord : Token -> Bool
  | word _ => true
  | _ => false

/-- Whether a token is a sign with which no formula starts. -/
def isStray : Token -> Bool
  | mark .not _ | mark .openParen _ => false
  | mark _ _ => true
  | _ => false

def opens : Token -> Bool
  | mark .openParen _ => true
  | _ => false

def closes : Token -> Bool
  | mark .closeParen _ => true
  | _ => false

def isFlat : Token -> Bool
  | quantifier .. | starred .. => false
  | _ => true

end Token

/-- The grammar of the connectives, given which tokens join a disjunction and which are
atoms. -/
inductive Spells (joins names : Token -> Bool) : Level -> List Token -> Prop where
  | disjunction {tokens : List Token} (whole : Spells joins names .disjunction tokens) :
      Spells joins names .implication tokens
  | arrow {front back : List Token} {token : Token}
      (first : Spells joins names .disjunction front) (sign : token.isArrow = true)
      (second : Spells joins names .implication back) :
      Spells joins names .implication (front ++ token :: back)
  | conjunction {tokens : List Token} (whole : Spells joins names .conjunction tokens) :
      Spells joins names .disjunction tokens
  | or {front back : List Token} {token : Token}
      (first : Spells joins names .disjunction front) (sign : joins token = true)
      (second : Spells joins names .conjunction back) :
      Spells joins names .disjunction (front ++ token :: back)
  | negation {tokens : List Token} (whole : Spells joins names .negation tokens) :
      Spells joins names .conjunction tokens
  | and {front back : List Token} {token : Token}
      (first : Spells joins names .conjunction front) (sign : token.addsConjunct = true)
      (second : Spells joins names .negation back) :
      Spells joins names .conjunction (front ++ token :: back)
  | atomic {tokens : List Token} (whole : Spells joins names .atomic tokens) :
      Spells joins names .negation tokens
  | not {tokens : List Token} (mathematical : Bool) (inner : Spells joins names .negation tokens) :
      Spells joins names .negation (.mark .not mathematical :: tokens)
  | parens {tokens : List Token} (opening closing : Bool)
      (inside : Spells joins names .implication tokens) :
      Spells joins names .atomic
        (.mark .openParen opening :: (tokens ++ [.mark .closeParen closing]))
  | predicate (name args : List Char) : Spells joins names .atomic [.applied name args]
  | name {token : Token} (named : names token = true) : Spells joins names .atomic [token]

/-- The grammar as one would write it down. -/
abbrev Grammatical : Level -> List Token -> Prop := Spells Token.isOr Token.isWord

/-- The grammar of what is read: an opening parenthesis may stand for a disjunction sign, and a
stray sign for a word. -/
abbrev Acceptable : Level -> List Token -> Prop :=
  Spells Token.addsDisjunct fun token => token.isWord || token.isStray

/-! ## Tokens of a text without brackets -/

/-- Quantifiers start with a bracket. -/
theorem scan_isFlat {text : List Char} (free : '[' ∉ text) {tokens : List Token}
    (scanned : scan .plain text = .ok tokens) :
    forall token, token ∈ tokens -> token.isFlat = true := by
  intro token member
  rcases scan_plain scanned token member with ⟨plain, formed⟩
  cases token with
  | quantifier kind var scope source =>
    exact absurd (scan_source scanned _ member (List.mem_of_mem_head? formed.2)) free
  | starred => exact plain.elim
  | _ => rfl

/-! ## What is read is acceptable, and the other way round -/

section Derivations

variable {restriction : List Char -> Vocabulary -> Except ParseError Formula}
variable {level : Level} {before after : Vocabulary} {tokens : List Token} {formula : Formula}

/-- By induction on the derivation.  A negation sign is an atom only behind a quantifier. -/
theorem Derives.acceptable (derived : Derives restriction level before tokens formula after)
    (flat : forall token, token ∈ tokens -> token.isFlat = true)
    (unsigned : level = .atomic -> tokens.head?.any Token.isNegation = false) :
    Acceptable level tokens := by
  induction derived with
  | disjunction _ ih => exact .disjunction (ih flat nofun)
  | arrow _ sign _ atFirst atSecond =>
    exact .arrow (atFirst (each_split flat).1 nofun) sign
      (atSecond (each_split flat).2 nofun)
  | conjunction _ ih => exact .conjunction (ih flat nofun)
  | or _ sign _ atFirst atSecond =>
    exact .or (atFirst (each_split flat).1 nofun) sign
      (atSecond (each_split flat).2 nofun)
  | negation _ ih => exact .negation (ih flat nofun)
  | and _ sign _ atFirst atSecond =>
    exact .and (atFirst (each_split flat).1 nofun) sign
      (atSecond (each_split flat).2 nofun)
  | atomic _ noSign ih => exact .atomic (ih flat fun _ => noSign)
  | not mathematical _ ih =>
    exact .not mathematical (ih (List.forall_mem_cons.mp flat).2
      nofun)
  | parens opening closing _ ih =>
    exact .parens opening closing (ih (each_split (List.forall_mem_cons.mp flat).2).1
        nofun)
  | quantified => cases (List.forall_mem_cons.mp flat).1
  | @applied _ _ name args => exact .predicate name args
  | @operand _ token plain =>
    refine .name ?_
    cases token with
    | mark which mathematical =>
      cases which with
      | not => cases unsigned rfl
      | openParen => cases plain
      | _ => rfl
    | word => rfl
    | applied => cases plain
    | quantifier | starred => cases (List.forall_mem_cons.mp flat).1

theorem Spells.unsigned {joins names : Token -> Bool}
    (atoms : forall token, names token = true -> token.isNegation = false)
    (spelled : Spells joins names .atomic tokens) :
    tokens.head?.any Token.isNegation = false := by
  cases spelled with
  | parens => rfl
  | predicate => rfl
  | name named => exact atoms _ named

/-- Tokens of either grammar are read, as a formula of basic ones. -/
theorem Spells.derives {joins names : Token -> Bool} {good : Token -> Prop}
    {basic : Formula -> Prop}
    (joined : forall token, joins token = true -> token.addsDisjunct = true)
    (atoms : forall token, names token = true -> token.isNegation = false)
    (named : forall token, good token -> names token = true ->
      token.isOperand = true ∧ basic (.atom token.text))
    (predicates : forall name args terms, good (.applied name args) ->
      basic (.pred (String.ofList name) terms))
    (spelled : Spells joins names level tokens)
    (each : forall token, token ∈ tokens -> good token) (before : Vocabulary) :
    ∃ formula after, Derives restriction level before tokens formula after ∧
      formula.BuiltFrom basic := by
  induction spelled generalizing before with
  | disjunction _ ih =>
    rcases ih each before with ⟨formula, after, derived, built⟩
    exact ⟨formula, after, .disjunction derived, built⟩
  | conjunction _ ih =>
    rcases ih each before with ⟨formula, after, derived, built⟩
    exact ⟨formula, after, .conjunction derived, built⟩
  | negation _ ih =>
    rcases ih each before with ⟨formula, after, derived, built⟩
    exact ⟨formula, after, .negation derived, built⟩
  | atomic whole ih =>
    rcases ih each before with ⟨formula, after, derived, built⟩
    exact ⟨formula, after, .atomic derived (whole.unsigned atoms), built⟩
  | arrow _ sign _ atFirst atSecond =>
    rcases atFirst (each_split each).1 before with ⟨left, between, first, built⟩
    rcases atSecond (each_split each).2 between with ⟨right, after, second, built'⟩
    exact ⟨_, after, .arrow first sign second, .join .imp built built'⟩
  | or _ sign _ atFirst atSecond =>
    rcases atFirst (each_split each).1 before with ⟨left, between, first, built⟩
    rcases atSecond (each_split each).2 between with ⟨right, after, second, built'⟩
    exact ⟨_, after, .or first (joined _ sign) second, .join .disj built built'⟩
  | and _ sign _ atFirst atSecond =>
    rcases atFirst (each_split each).1 before with ⟨left, between, first, built⟩
    rcases atSecond (each_split each).2 between with ⟨right, after, second, built'⟩
    exact ⟨_, after, .and first sign second, .join .conj built built'⟩
  | not mathematical _ ih =>
    rcases ih (List.forall_mem_cons.mp each).2 before with ⟨formula, after, derived, built⟩
    exact ⟨_, after, .not mathematical derived, .neg built⟩
  | parens opening closing _ ih =>
    rcases ih (each_split (List.forall_mem_cons.mp each).2).1 before with
      ⟨formula, after, derived, built⟩
    exact ⟨formula, after, .parens opening closing derived, built⟩
  | predicate name args =>
    rcases exists_gives_readArguments args before with ⟨terms, after, read⟩
    exact ⟨_, after, .applied read,
      .basic (predicates name args terms (List.forall_mem_cons.mp each).1)⟩
  | @name token isName =>
    rcases named token (List.forall_mem_cons.mp each).1 isName with ⟨plain, isBasic⟩
    exact ⟨_, before, .operand plain, .basic isBasic⟩

theorem Acceptable.derives (acceptable : Acceptable level tokens) (before : Vocabulary) :
    ∃ formula after, Derives restriction level before tokens formula after := by
  have atoms (token : Token) (named : (token.isWord || token.isStray) = true) :
      token.isNegation = false ∧ token.isOperand = true := by
    cases token with
    | mark which mathematical =>
      cases which with
      | not | openParen => cases named
      | _ => exact ⟨rfl, rfl⟩
    | word => exact ⟨rfl, rfl⟩
    | applied | starred | quantifier => cases named
  have found : ∃ formula after, Derives restriction level before tokens formula after ∧
      formula.BuiltFrom fun basic => basic.isAtomic = true :=
    Spells.derives (fun _ sign => sign) (fun token named => (atoms token named).1)
      (fun token _ named => ⟨(atoms token named).2, rfl⟩) (fun _ _ _ _ => rfl) acceptable
      (fun _ _ => trivial) before
  rcases found with ⟨formula, after, derived, _⟩
  exact ⟨formula, after, derived⟩

end Derivations

end Grammar

/-! ## Belonging to the grammar -/

/-- An atom or a predicate whose name is a word. -/
def Formula.Named : Formula -> Prop
  | .atom name | .pred name _ => Grammar.IsWord name.toList
  | _ => False

theorem Formula.Named.isAtomic (formula : Formula) (named : formula.Named) :
    formula.isAtomic = true := by
  cases formula with
  | atom | pred => rfl
  | _ => cases named

namespace Grammar

section Derivations

variable {restriction : List Char -> Vocabulary -> Except ParseError Formula}
variable {level : Level} {before after : Vocabulary} {tokens : List Token} {formula : Formula}

theorem Grammatical.derives (grammatical : Grammatical level tokens)
    (formed : forall token, token ∈ tokens -> token.Formed) (before : Vocabulary) :
    ∃ formula after, Derives restriction level before tokens formula after ∧
      formula.BuiltFrom Formula.Named := by
  refine Spells.derives ?_ ?_ ?_ ?_ grammatical formed before
  · intro token sign
    cases token with
    | mark which mathematical =>
      cases which with
      | or => rfl
      | _ => cases sign
    | _ => cases sign
  · intro token isWord
    cases token with
    | word => rfl
    | _ => cases isWord
  · intro token formed isWord
    cases token with
    | word name => exact ⟨rfl, by rwa [Formula.Named, Token.text, String.toList_ofList]⟩
    | _ => cases isWord
  · intro name args terms formed
    rw [Formula.Named, String.toList_ofList]
    exact formed.1

theorem not_isWord_spelling (which : Mark) (mathematical : Bool) :
    ¬ IsWord (Token.spelling which mathematical) := by
  intro isWord
  have first := isWord.word
  cases which <;> cases mathematical <;>
    exact absurd (first _ List.mem_cons_self) (by decide +kernel)

variable {token : Token}

theorem Token.opens_eq_false
    (sign : token.isArrow = true ∨ token.addsConjunct = true ∨ token.isOr = true) :
    token.opens = false ∧ token.closes = false := by
  cases token with
  | mark which mathematical =>
    cases which with
    | openParen | closeParen => rcases sign with sign | sign | sign <;> cases sign
    | _ => exact ⟨rfl, rfl⟩
  | _ => exact ⟨rfl, rfl⟩

theorem countP_sides {test : Token -> Bool} (other : test token = false) (front back : List Token) :
    (front ++ token :: back).countP test = front.countP test + back.countP test := by
  rw [List.countP_append, List.countP_cons_of_neg (by rw [other]; exact Bool.false_ne_true)]

theorem countP_opens_parens (opening closing : Bool) (tokens : List Token) :
    (Token.mark .openParen opening :: (tokens ++ [.mark .closeParen closing])).countP Token.opens =
      tokens.countP Token.opens + 1 := by
  rw [List.countP_cons_of_pos rfl, countP_sides rfl]
  rfl

theorem countP_closes_parens (opening closing : Bool) (tokens : List Token) :
    (Token.mark .openParen opening :: (tokens ++ [.mark .closeParen closing])).countP
      Token.closes = tokens.countP Token.closes + 1 := by
  rw [List.countP_cons_of_neg Bool.false_ne_true, List.countP_append]
  rfl

theorem Grammatical.balanced (grammatical : Grammatical level tokens) :
    tokens.countP Token.opens = tokens.countP Token.closes := by
  have sides {token : Token} {front back : List Token}
      (sign : token.isArrow = true ∨ token.addsConjunct = true ∨ token.isOr = true)
      (atFirst : front.countP Token.opens = front.countP Token.closes)
      (atSecond : back.countP Token.opens = back.countP Token.closes) :
      (front ++ token :: back).countP Token.opens =
        (front ++ token :: back).countP Token.closes := by
    rcases Token.opens_eq_false sign with ⟨noOpening, noClosing⟩
    rw [countP_sides noOpening, countP_sides noClosing, atFirst, atSecond]
  induction grammatical with
  | disjunction _ ih | conjunction _ ih
  | negation _ ih | atomic _ ih => exact ih
  | arrow _ sign _ atFirst atSecond => exact sides (.inl sign) atFirst atSecond
  | or _ sign _ atFirst atSecond => exact sides (.inr (.inr sign)) atFirst atSecond
  | and _ sign _ atFirst atSecond => exact sides (.inr (.inl sign)) atFirst atSecond
  | not _ _ ih => exact ih
  | parens opening closing _ ih => rw [countP_opens_parens, countP_closes_parens, ih]
  | predicate => rfl
  | @name token isWord =>
    cases token with
    | word => rfl
    | _ => cases isWord

/-- No parenthesis is closed that was not opened, and if all are closed the tokens belong to the
grammar. -/
structure Balances (level : Level) (tokens : List Token) : Prop where
  opened : tokens.countP Token.closes <= tokens.countP Token.opens
  grammatical : tokens.countP Token.opens = tokens.countP Token.closes -> Grammatical level tokens

theorem Balances.sides {first second whole : Level} {front back : List Token}
    (sign : token.isArrow = true ∨ token.addsConjunct = true ∨ token.isOr = true)
    (atFirst : Balances first front) (atSecond : Balances second back)
    (joined : Grammatical first front -> Grammatical second back ->
      Grammatical whole (front ++ token :: back)) :
    Balances whole (front ++ token :: back) := by
  have opened := atFirst.opened
  have opened' := atSecond.opened
  rcases Token.opens_eq_false sign with ⟨noOpening, noClosing⟩
  refine ⟨?_, fun same => joined (atFirst.grammatical ?_) (atSecond.grammatical ?_)⟩
  · rw [countP_sides noOpening, countP_sides noClosing]
    exact Nat.add_le_add opened opened'
  · rw [countP_sides noOpening, countP_sides noClosing] at same
    omega
  · rw [countP_sides noOpening, countP_sides noClosing] at same
    omega

/-- A parenthesis that stands for a disjunction sign is opened and never closed. -/
theorem Balances.or {front back : List Token} (sign : token.addsDisjunct = true)
    (atFirst : Balances .disjunction front) (atSecond : Balances .conjunction back) :
    Balances .disjunction (front ++ token :: back) := by
  cases token with
  | mark which mathematical =>
    cases which with
    | or => exact .sides (.inr (.inr rfl)) atFirst atSecond fun first second => .or first rfl second
    | openParen =>
      have opened := atFirst.opened
      have opened' := atSecond.opened
      have opens : (front ++ .mark .openParen mathematical :: back).countP Token.opens =
          front.countP Token.opens + (back.countP Token.opens + 1) := by
        rw [List.countP_append, List.countP_cons_of_pos rfl]
      have closes : (front ++ .mark .openParen mathematical :: back).countP Token.closes =
          front.countP Token.closes + back.countP Token.closes := countP_sides rfl _ _
      constructor
      · omega
      · intro same
        omega
    | _ => cases sign
  | _ => cases sign

theorem balances_parens (opening closing : Bool) (inside : Balances .implication tokens) :
    Balances .atomic (.mark .openParen opening :: (tokens ++ [.mark .closeParen closing])) := by
  refine ⟨?_, fun same => .parens opening closing (inside.grammatical ?_)⟩
  · rw [countP_opens_parens, countP_closes_parens]
    exact Nat.succ_le_succ inside.opened
  · rw [countP_opens_parens, countP_closes_parens] at same
    exact Nat.succ.inj same

theorem balances_operand (flat : token.isFlat = true) (plain : token.isOperand = true)
    (named : (Formula.atom token.text).Named) :
    Balances .atomic [token] := by
  rw [Formula.Named, Token.text, String.toList_ofList] at named
  cases token with
  | word => exact ⟨Nat.le_refl _, fun _ => .name rfl⟩
  | mark which mathematical => exact absurd named (not_isWord_spelling which mathematical)
  | applied => cases plain
  | quantifier | starred => cases flat

/-- By induction on the derivation.  Only stray signs could close what was not opened. -/
theorem Derives.balances (derived : Derives restriction level before tokens formula after)
    (flat : forall token, token ∈ tokens -> token.isFlat = true)
    (named : formula.BuiltFrom Formula.Named) : Balances level tokens := by
  induction derived with
  | disjunction _ ih =>
    have balances := ih flat named
    exact ⟨balances.opened, fun same => .disjunction (balances.grammatical same)⟩
  | conjunction _ ih =>
    have balances := ih flat named
    exact ⟨balances.opened, fun same => .conjunction (balances.grammatical same)⟩
  | negation _ ih =>
    have balances := ih flat named
    exact ⟨balances.opened, fun same => .negation (balances.grammatical same)⟩
  | atomic _ _ ih =>
    have balances := ih flat named
    exact ⟨balances.opened, fun same => .atomic (balances.grammatical same)⟩
  | arrow _ sign _ atFirst atSecond =>
    rcases named.of_join Formula.Named.isAtomic with ⟨left, right⟩
    exact .sides (.inl sign) (atFirst (each_split flat).1 left)
      (atSecond (each_split flat).2 right) fun first second => .arrow first sign second
  | or _ sign _ atFirst atSecond =>
    rcases named.of_join Formula.Named.isAtomic with ⟨left, right⟩
    exact .or sign (atFirst (each_split flat).1 left) (atSecond (each_split flat).2 right)
  | and _ sign _ atFirst atSecond =>
    rcases named.of_join Formula.Named.isAtomic with ⟨left, right⟩
    exact .sides (.inr (.inl sign)) (atFirst (each_split flat).1 left)
      (atSecond (each_split flat).2 right) fun first second => .and first sign second
  | not mathematical _ ih =>
    have balances := ih (List.forall_mem_cons.mp flat).2 (named.of_neg Formula.Named.isAtomic)
    exact ⟨balances.opened, fun same => .not mathematical (balances.grammatical same)⟩
  | parens opening closing _ ih =>
    exact balances_parens opening closing (ih (each_split (List.forall_mem_cons.mp flat).2).1 named)
  | quantified => cases (List.forall_mem_cons.mp flat).1
  | @applied _ _ name args => exact ⟨Nat.le_refl _, fun _ => .predicate name args⟩
  | operand plain =>
    cases named with
    | basic named => exact balances_operand (List.forall_mem_cons.mp flat).1 plain named

end Derivations

end Grammar

open Grammar

/-- A text without quantifiers is read exactly if it has no turnstile and is acceptable.  It
belongs to the grammar exactly if its parentheses balance in number and no sign has become an
atom. -/
theorem Formula.parse_grammatical (text : String) (free : '[' ∉ text.toList) :
    ((∃ formula, Formula.parse text = .ok formula) ↔ hasTurnstile text.toList = false ∧
        ∃ tokens, scan .plain text.toList = .ok tokens ∧ Acceptable .implication tokens) ∧
    forall formula tokens, Formula.parse text = .ok formula ->
      scan .plain text.toList = .ok tokens ->
      (Grammatical .implication tokens ↔ tokens.countP Token.opens = tokens.countP Token.closes ∧
          formula.BuiltFrom Formula.Named) := by
  refine ⟨⟨?_, ?_⟩, ?_⟩
  · rintro ⟨formula, parsed⟩
    rcases Formula.parse_eq_ok_iff.mp parsed with ⟨plain, tokens, after, scanned, derived⟩
    exact ⟨plain, tokens, scanned,
      derived.acceptable (scan_isFlat free scanned) nofun⟩
  · rintro ⟨plain, tokens, scanned, acceptable⟩
    rcases acceptable.derives {} with ⟨formula, after, derived⟩
    exact ⟨formula, Formula.parse_eq_ok_iff.mpr ⟨plain, tokens, after, scanned, derived⟩⟩
  · intro formula tokens parsed scanned
    rcases Formula.parse_eq_ok_iff.mp parsed with ⟨_, others, after, scanned', derived⟩
    cases scanned.symm.trans scanned'
    constructor
    · intro grammatical
      rcases grammatical.derives (scanFrom_formed scanned) {} with ⟨other, _, derived', named⟩
      refine ⟨grammatical.balanced, ?_⟩
      rwa [(derived.unique derived').1]
    · rintro ⟨balanced, named⟩
      exact (derived.balances (scan_isFlat free scanned) named).grammatical balanced

/-- A text with nested parentheses is read, and belongs to the grammar. -/
theorem Formula.nested_grammatical : '[' ∉ "~(p -> (q & R(a, X)))".toList ∧
      (∃ formula, Formula.parse "~(p -> (q & R(a, X)))" = .ok formula) ∧
        ∃ tokens, scan .plain "~(p -> (q & R(a, X)))".toList = .ok tokens ∧
          Grammatical .implication tokens := by
  have free : '[' ∉ "~(p -> (q & R(a, X)))".toList := by decide +kernel
  have scanned : scan .plain "~(p -> (q & R(a, X)))".toList = .ok [.mark .not false,
      .mark .openParen false, .word ['p'], .mark .implies false, .mark .openParen false,
      .word ['q'], .mark .and false, .applied ['R'] ['a', ',', ' ', 'X'],
      .mark .closeParen false, .mark .closeParen false] := rfl
  have inner : Derives readRestriction .implication {} [.word ['q'], .mark .and false,
      .applied ['R'] ['a', ',', ' ', 'X']]
      (.join .conj (.atom "q") (.pred "R" [.const "a", .var "X"])) ⟨["X"], ["a"]⟩ :=
    .disjunction (.conjunction (.and (.negation (.atomic (.operand rfl) rfl)) rfl
      (.atomic (.applied rfl) rfl)))
  have outer : Derives readRestriction .implication {} [.word ['p'], .mark .implies false,
      .mark .openParen false, .word ['q'], .mark .and false,
      .applied ['R'] ['a', ',', ' ', 'X'], .mark .closeParen false]
      (.join .imp (.atom "p") (.join .conj (.atom "q") (.pred "R" [.const "a", .var "X"])))
      ⟨["X"], ["a"]⟩ :=
    .arrow (.conjunction (.negation (.atomic (.operand rfl) rfl))) rfl
      (.disjunction (.conjunction (.negation (.atomic (.parens false false inner) rfl))))
  have derived : Derives readRestriction .implication {} _ _ _ :=
    .disjunction (.conjunction (.negation (.not false (.atomic (.parens false false outer) rfl))))
  have parsed := derived.parse_eq scanned rfl
  have spells := Formula.parse_grammatical _ free
  refine ⟨free, ⟨_, parsed⟩, _, scanned, (spells.2 _ _ parsed scanned).mpr ⟨rfl, ?_⟩⟩
  exact .neg (.join .imp (.basic (by decide : IsWord "p".toList))
    (.join .conj (.basic (by decide : IsWord "q".toList)) (.basic (by decide : IsWord "R".toList))))

/-- A parenthesis that is never closed is read as a disjunction sign, and a connective on its own
as an atom.  Neither text belongs to the grammar. -/
theorem Formula.parse_ungrammatical :
    (Formula.parse "p (q" = .ok (.join .disj (.atom "p") (.atom "q")) ∧
      forall tokens, scan .plain "p (q".toList = .ok tokens -> ¬ Grammatical .implication tokens) ∧
    Formula.parse "&" = .ok (.atom "&") ∧
      forall tokens, scan .plain "&".toList = .ok tokens -> ¬ Grammatical .implication tokens := by
  have unclosed : scan .plain "p (q".toList =
      .ok [.word ['p'], .mark .openParen false, .word ['q']] := rfl
  have disjunction : Derives readRestriction .implication {}
      [.word ['p'], .mark .openParen false, .word ['q']]
      (.join .disj (.atom "p") (.atom "q")) {} :=
    .disjunction (.or (.conjunction (.negation (.atomic (.operand rfl) rfl))) rfl
      (.negation (.atomic (.operand rfl) rfl)))
  have sign : scan .plain "&".toList = .ok [.mark .and false] := rfl
  have atom : Derives readRestriction .implication {} [.mark .and false] (.atom "&") {} :=
    .disjunction (.conjunction (.negation (.atomic (.operand rfl) rfl)))
  refine ⟨⟨disjunction.parse_eq unclosed rfl, ?_⟩, atom.parse_eq sign rfl, ?_⟩
  · intro tokens scanned grammatical
    cases unclosed.symm.trans scanned
    exact absurd grammatical.balanced (by decide)
  · intro tokens scanned grammatical
    cases sign.symm.trans scanned
    rcases grammatical.derives (scanFrom_formed sign) {} with ⟨other, _, derived, named⟩
    cases (atom.unique derived).1
    cases named with
    | basic isWord => exact absurd isWord (not_isWord_spelling .and false)

end WeakKleene
