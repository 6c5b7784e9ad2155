import WeakKleene.Proofs.PlainGrammar
import WeakKleene.Proofs.SidedFaults

namespace WeakKleene

/-!
# The language of starred formulas without quantifiers

The connectives are written in the grammar

    implication ::= disjunction | disjunction '->' implication
    disjunction ::= conjunction | disjunction '|' conjunction
    conjunction ::= negation    | conjunction '&' negation
    negation    ::= '~' negation | atomic
    atomic      ::= '(' implication ')' | token

where a token counts that has a star in it or starts with a letter.  A text has
at most one derivation, since every connective can be found again from the
parentheses around it, and the formula that is read is the one that the
derivation builds.

Belonging to the grammar is not enough to be read.  The arguments of a starred
token are taken without any parentheses at their two ends, and what is left may
have a blank argument where none was written.
-/

namespace Grammar

/-! ## Derivations -/

namespace Token

/-- Whether a token is an atomic formula: it has a star in it, or it starts with a letter of
either case. -/
def isBasic (token : Token) : Bool :=
  token.source.contains '*' || Text.startsUpper token.source || Text.startsLower token.source

/-- What a token is read as where no negation sign belongs to it. -/
def affirmed (token : Token) : Formula :=
  match starredParts? token, predicateToken? token with
  | some parts, _ => .sided (String.ofList parts.1) (listedTerms parts.2) true
  | none, some parts => .sided (String.ofList parts.1) (listedTerms parts.2) false
  | none, none => .atom token.text

/-- What an upper-case token is read as behind a negation sign. -/
def denied? (token : Token) : Option Formula :=
  (predicateToken? token).map fun parts =>
    .sided (String.ofList parts.1) (listedTerms parts.2) true

def arguments : Token -> List Char
  | applied _ args => args
  | starred _ args => args.getD []
  | _ => []

/-- Whether no argument is blank or has a star in it. -/
def isTidy (token : Token) : Bool := !hasBlank token.arguments && !token.arguments.contains '*'

/-- Whether a starred token has a blank argument once the parentheses at both ends of its
arguments are dropped. -/
def isClipped : Token -> Bool
  | starred _ args => hasBlank (trimParens (args.getD []))
  | _ => false

end Token

/-- Derivations in the grammar of starred text, by category. -/
inductive Derivation : Level -> Type where
  | disjunction (whole : Derivation .disjunction) : Derivation .implication
  | arrow (mathematical : Bool) (left : Derivation .disjunction)
      (right : Derivation .implication) : Derivation .implication
  | conjunction (whole : Derivation .conjunction) : Derivation .disjunction
  | or (mathematical : Bool) (left : Derivation .disjunction)
      (right : Derivation .conjunction) : Derivation .disjunction
  | negation (whole : Derivation .negation) : Derivation .conjunction
  | and (mathematical : Bool) (left : Derivation .conjunction)
      (right : Derivation .negation) : Derivation .conjunction
  | atomic (whole : Derivation .atomic) : Derivation .negation
  | not (mathematical : Bool) (inner : Derivation .negation) : Derivation .negation
  | parens (opening closing : Bool) (inside : Derivation .implication) : Derivation .atomic
  | basic (token : Token) (isBasic : token.isBasic = true) : Derivation .atomic

namespace Derivation

def tokens : {level : Level} -> Derivation level -> List Token
  | _, disjunction whole => whole.tokens
  | _, arrow mathematical left right => left.tokens ++ .mark .implies mathematical :: right.tokens
  | _, conjunction whole => whole.tokens
  | _, or mathematical left right => left.tokens ++ .mark .or mathematical :: right.tokens
  | _, negation whole => whole.tokens
  | _, and mathematical left right => left.tokens ++ .mark .and mathematical :: right.tokens
  | _, atomic whole => whole.tokens
  | _, not mathematical inner => .mark .not mathematical :: inner.tokens
  | _, parens opening closing inside =>
    .mark .openParen opening :: (inside.tokens ++ [.mark .closeParen closing])
  | _, basic token _ => [token]

/-- The denial that a negation sign makes of an upper-case token right behind it. -/
def denied? : Derivation .negation -> Option Formula
  | atomic (basic token _) => token.denied?
  | _ => none

def formula : {level : Level} -> Derivation level -> Formula
  | _, disjunction whole => whole.formula
  | _, arrow _ left right => .join .imp left.formula right.formula
  | _, conjunction whole => whole.formula
  | _, or _ left right => .join .disj left.formula right.formula
  | _, negation whole => whole.formula
  | _, and _ left right => .join .conj left.formula right.formula
  | _, atomic whole => whole.formula
  | _, not _ inner => inner.denied?.getD (.neg inner.formula)
  | _, parens _ _ inside => inside.formula
  | _, basic token _ => token.affirmed

/-- The starred tokens that are left with a blank argument.  A token that is denied keeps its
arguments. -/
def clipped : {level : Level} -> Derivation level -> List Token
  | _, disjunction whole => whole.clipped
  | _, arrow _ left right => left.clipped ++ right.clipped
  | _, conjunction whole => whole.clipped
  | _, or _ left right => left.clipped ++ right.clipped
  | _, negation whole => whole.clipped
  | _, and _ left right => left.clipped ++ right.clipped
  | _, atomic whole => whole.clipped
  | _, not _ inner => if inner.denied?.isSome then [] else inner.clipped
  | _, parens _ _ inside => inside.clipped
  | _, basic token _ => if token.isClipped then [token] else []

end Derivation

/-! ## What stands outside all parentheses -/

/-- How far inside parentheses a token leads. -/
def Token.deepens : Token -> Int
  | mark .openParen _ => 1
  | mark .closeParen _ => -1
  | _ => 0

def depth : List Token -> Int
  | [] => 0
  | token :: rest => token.deepens + depth rest

/-- The tokens outside all parentheses, starting so far inside. -/
def surface : Int -> List Token -> List Token
  | _, [] => []
  | inside, token :: rest =>
    if inside = 0 then token :: surface (inside + token.deepens) rest
    else surface (inside + token.deepens) rest

theorem depth_append (front back : List Token) :
    depth (front ++ back) = depth front + depth back := by
  induction front with
  | nil => rw [List.nil_append, depth, Int.zero_add]
  | cons token front ih => rw [List.cons_append, depth, depth, ih, Int.add_assoc]

theorem surface_append (inside : Int) (front back : List Token) : surface inside (front ++ back) =
      surface inside front ++ surface (inside + depth front) back := by
  induction front generalizing inside with
  | nil => rw [List.nil_append, depth, Int.add_zero, surface, List.nil_append]
  | cons token front ih =>
    rw [List.cons_append, surface, surface, ih, depth, Int.add_assoc]
    split <;> rfl

section Sides

variable {front front' back back' middle : List Token} {sign sign' : Token}

/-- A sign behind a closed part stands where that part starts. -/
theorem surface_sides (closed : depth front = 0) (flat : sign.deepens = 0) (inside : Int) :
    surface inside (front ++ sign :: back) =
      surface inside front ++ (if inside = 0 then [sign] else []) ++ surface inside back := by
  rw [surface_append, closed, Int.add_zero, surface, flat, Int.add_zero]
  split
  · rw [List.append_assoc, List.singleton_append]
  · rw [List.append_nil]

theorem mem_surface_sides (closed : depth front = 0) (flat : sign.deepens = 0) :
    sign ∈ surface 0 (front ++ sign :: back) := by
  rw [surface_sides closed flat, if_pos rfl]
  simp

variable {joins : Token -> Bool}

/-- No such sign stands outside all parentheses. -/
def Bare (joins : Token -> Bool) (tokens : List Token) : Prop :=
  forall token, token ∈ surface 0 tokens -> joins token = false

/-- If one of two signs stands further to the right, then the first sign shows in front of the
second one, and the second one shows behind the first. -/
theorem not_bare_of_longer (flat : forall token, joins token = true -> token.deepens = 0)
    (isSign : joins sign = true) (isSign' : joins sign' = true) (closed : depth front = 0)
    (closed' : depth (front ++ sign :: middle) = 0) :
    ¬ Bare joins (front ++ sign :: middle) ∧ ¬ Bare joins (middle ++ sign' :: back') := by
  have level : depth middle = 0 := by
    rw [depth_append, closed, depth, flat sign isSign] at closed'
    omega
  constructor
  · intro bare
    rw [bare sign (mem_surface_sides closed (flat sign isSign))] at isSign
    cases isSign
  · intro bare
    rw [bare sign' (mem_surface_sides level (flat sign' isSign'))] at isSign'
    cases isSign'

/-- The sign of a production is found again, where the parts in front of it show no such sign or
the parts behind it do not. -/
theorem sides_unique (flat : forall token, joins token = true -> token.deepens = 0)
    (isSign : joins sign = true) (isSign' : joins sign' = true)
    (closed : depth front = 0) (closed' : depth front' = 0)
    (bare : Bare joins front ∧ Bare joins front' ∨ Bare joins back ∧ Bare joins back')
    (same : front ++ sign :: back = front' ++ sign' :: back') :
    front = front' ∧ sign = sign' ∧ back = back' := by
  rcases List.append_eq_append_iff.mp same with ⟨middle, rfl, rest⟩ | ⟨middle, rfl, rest⟩
  · cases middle with
    | nil =>
      cases rest
      exact ⟨(List.append_nil _).symm, rfl, rfl⟩
    | cons token middle =>
      cases rest
      have longer := @not_bare_of_longer _ back' _ _ sign' _ flat isSign isSign' closed closed'
      exact (bare.elim (fun fronts => longer.1 fronts.2) fun backs => longer.2 backs.1).elim
  · cases middle with
    | nil =>
      cases rest
      exact ⟨List.append_nil _, rfl, rfl⟩
    | cons token middle =>
      cases rest
      have longer := @not_bare_of_longer _ back _ _ sign _ flat isSign' isSign closed' closed
      exact (bare.elim (fun fronts => longer.1 fronts.1) fun backs => longer.2 backs.2).elim

end Sides

/-- Tokens that close what they open, show nothing from inside parentheses, and outside show none
of the given signs. -/
structure Compact (hides : Token -> Bool) (tokens : List Token) : Prop where
  closed : depth tokens = 0
  covered : forall inside, 0 < inside -> surface inside tokens = []
  bare : Bare hides tokens

section Compact

variable {hides other : Token -> Bool} {front back tokens : List Token} {sign : Token}

theorem Compact.mono (compact : Compact hides tokens)
    (weaker : forall token, hides token = false -> other token = false) :
    Compact other tokens :=
  ⟨compact.closed, compact.covered, fun token shown => weaker token (compact.bare token shown)⟩

theorem compact_nil : Compact hides [] :=
  ⟨rfl, fun _ _ => rfl, nofun⟩

theorem Compact.sides (first : Compact hides front) (second : Compact hides back)
    (flat : sign.deepens = 0) (shown : hides sign = false) :
    Compact hides (front ++ sign :: back) := by
  refine ⟨?_, fun inside within => ?_, fun token member => ?_⟩
  · rw [depth_append, depth, first.closed, second.closed, flat]
    rfl
  · rw [surface_sides first.closed flat, first.covered inside within,
      second.covered inside within, if_neg (Int.ne_of_gt within)]
    rfl
  · rw [surface_sides first.closed flat, if_pos rfl] at member
    simp only [List.mem_append, List.mem_singleton] at member
    rcases member with (inFront | rfl) | inBack
    · exact first.bare token inFront
    · exact shown
    · exact second.bare token inBack

theorem Compact.parens (inside : Compact hides tokens) (opening closing : Bool)
    (shown : other (.mark .openParen opening) = false) :
    Compact other (.mark .openParen opening :: (tokens ++ [.mark .closeParen closing])) := by
  have hidden (level : Int) (within : 0 <= level) :
      surface (level + 1) (tokens ++ [.mark .closeParen closing]) = [] := by
    rw [surface_append, inside.covered _ (by omega), inside.closed, surface,
      if_neg (by omega), surface]
    rfl
  refine ⟨?_, fun level within => ?_, fun token member => ?_⟩
  · rw [depth, depth_append, inside.closed]
    rfl
  · rw [surface, if_neg (Int.ne_of_gt within)]
    exact hidden level (Int.le_of_lt within)
  · have only := hidden 0 (Int.le_refl 0)
    rw [surface, if_pos rfl, Token.deepens, only, List.mem_singleton] at member
    exact member ▸ shown

end Compact

/-! ## One derivation -/

/-- The connectives that a category does not show outside all parentheses. -/
def Level.hides : Level -> Token -> Bool
  | implication, _ => false
  | disjunction, token => token.isArrow
  | conjunction, token => token.isArrow || token.isOr
  | negation, token | atomic, token => token.isArrow || token.isOr || token.addsConjunct

theorem Level.flat_of_hides {level : Level} (token : Token) (hidden : level.hides token = true) :
    token.deepens = 0 := by
  cases token with
  | mark which mathematical =>
    cases which with
    | openParen | closeParen => cases level <;> cases hidden
    | _ => rfl
  | _ => rfl

theorem Token.isBasic_mark (which : Mark) (mathematical : Bool) :
    (Token.mark which mathematical).isBasic = false := by
  cases which <;> cases mathematical <;> decide +kernel

theorem Token.flat_of_isBasic {token : Token} (isBasic : token.isBasic = true) :
    token.deepens = 0 ∧ Level.atomic.hides token = false := by
  cases token with
  | mark which mathematical =>
    rw [isBasic_mark] at isBasic
    cases isBasic
  | _ => exact ⟨rfl, rfl⟩

namespace Derivation

/-- By induction on the derivation: a category hides the connectives that bind weaker than it
does. -/
theorem compact {level : Level} (derivation : Derivation level) :
    Compact level.hides derivation.tokens := by
  have shows (token : Token) (_ : Level.disjunction.hides token = false) :
      Level.implication.hides token = false := rfl
  have arrowless (token : Token) (hidden : Level.conjunction.hides token = false) :
      Level.disjunction.hides token = false :=
    (Bool.or_eq_false_iff.mp hidden).1
  have orless (token : Token) (hidden : Level.negation.hides token = false) :
      Level.conjunction.hides token = false :=
    (Bool.or_eq_false_iff.mp hidden).1
  induction derivation with
  | disjunction whole ih => exact ih.mono shows
  | arrow mathematical left right atLeft atRight => exact (atLeft.mono shows).sides atRight rfl rfl
  | conjunction whole ih => exact ih.mono arrowless
  | or mathematical left right atLeft atRight => exact atLeft.sides (atRight.mono arrowless) rfl rfl
  | negation whole ih => exact ih.mono orless
  | and mathematical left right atLeft atRight => exact atLeft.sides (atRight.mono orless) rfl rfl
  | atomic whole ih => exact ih
  | not mathematical inner ih => exact compact_nil.sides ih rfl rfl
  | parens opening closing inside ih => exact ih.parens opening closing rfl
  | basic token isBasic =>
    rcases Token.flat_of_isBasic isBasic with ⟨flat, shown⟩
    exact compact_nil.sides compact_nil flat shown

section Tokens

variable {level : Level} {front back : List Token} {sign : Token}

/-- A sign that a category hides does not stand between closed parts of its tokens. -/
theorem tokens_ne_sides (derivation : Derivation level) (closed : depth front = 0)
    (hidden : level.hides sign = true) : derivation.tokens ≠ front ++ sign :: back := by
  intro same
  have shown : sign ∈ surface 0 derivation.tokens :=
    same ▸ mem_surface_sides closed (Level.flat_of_hides sign hidden)
  rw [derivation.compact.bare sign shown] at hidden
  cases hidden

theorem unsigned (derivation : Derivation .atomic) :
    derivation.tokens.head?.any Token.isNegation = false := by
  cases derivation with
  | parens => rfl
  | basic token isBasic =>
    cases token with
    | mark which mathematical =>
      rw [Token.isBasic_mark] at isBasic
      cases isBasic
    | _ => rfl

end Tokens

/-- By induction on the first derivation.  The connectives that group to the left are found from
the right part, which hides them, and the arrow from the left part. -/
theorem eq_of_tokens_eq {level : Level} {first second : Derivation level}
    (same : first.tokens = second.tokens) : first = second := by
  induction first with
  | disjunction whole ih =>
    cases second with
    | disjunction other => rw [ih same]
    | arrow _ left => exact absurd same (whole.tokens_ne_sides left.compact.closed rfl)
  | arrow mathematical left right atLeft atRight =>
    cases second with
    | disjunction other => exact absurd same.symm (other.tokens_ne_sides left.compact.closed rfl)
    | arrow mathematical' left' right' =>
      rcases sides_unique Level.flat_of_hides rfl rfl left.compact.closed left'.compact.closed
        (.inl ⟨left.compact.bare, left'.compact.bare⟩) same with ⟨atFront, sign, atBack⟩
      cases sign
      rw [atLeft atFront, atRight atBack]
  | conjunction whole ih =>
    cases second with
    | conjunction other => rw [ih same]
    | or _ left => exact absurd same (whole.tokens_ne_sides left.compact.closed rfl)
  | or mathematical left right atLeft atRight =>
    cases second with
    | conjunction other => exact absurd same.symm (other.tokens_ne_sides left.compact.closed rfl)
    | or mathematical' left' right' =>
      rcases sides_unique Level.flat_of_hides rfl rfl left.compact.closed left'.compact.closed
        (.inr ⟨right.compact.bare, right'.compact.bare⟩) same with ⟨atFront, sign, atBack⟩
      cases sign
      rw [atLeft atFront, atRight atBack]
  | negation whole ih =>
    cases second with
    | negation other => rw [ih same]
    | and _ left => exact absurd same (whole.tokens_ne_sides left.compact.closed rfl)
  | and mathematical left right atLeft atRight =>
    cases second with
    | negation other => exact absurd same.symm (other.tokens_ne_sides left.compact.closed rfl)
    | and mathematical' left' right' =>
      rcases sides_unique Level.flat_of_hides rfl rfl left.compact.closed left'.compact.closed
        (.inr ⟨right.compact.bare, right'.compact.bare⟩) same with ⟨atFront, sign, atBack⟩
      cases sign
      rw [atLeft atFront, atRight atBack]
  | atomic whole ih =>
    cases second with
    | atomic other => rw [ih same]
    | not mathematical inner =>
      have unsigned := whole.unsigned
      rw [show whole.tokens = _ from same] at unsigned
      cases unsigned
  | not mathematical inner ih =>
    cases second with
    | atomic other =>
      have unsigned := other.unsigned
      rw [<- show _ = other.tokens from same] at unsigned
      cases unsigned
    | not mathematical' inner' =>
      rcases List.cons.inj same with ⟨sign, behind⟩
      cases sign
      rw [ih behind]
  | parens opening closing inside ih =>
    cases second with
    | parens opening' closing' inside' =>
      rcases List.cons.inj same with ⟨sign, behind⟩
      rcases List.append_inj' behind rfl with ⟨inner, sign'⟩
      cases sign
      cases sign'
      rw [ih inner]
    | basic token isBasic =>
      cases (List.cons.inj same).1
      rw [Token.isBasic_mark] at isBasic
      cases isBasic
  | basic token isBasic =>
    cases second with
    | parens =>
      cases (List.cons.inj same).1
      rw [Token.isBasic_mark] at isBasic
      cases isBasic
    | basic token' isBasic' =>
      cases (List.cons.inj same).1
      rfl

end Derivation

/-! ## What is read is what is derived -/

def Token.isQuantifier : Token -> Bool
  | quantifier .. => true
  | _ => false

/-- What holds of the tokens of a text without brackets whose arguments are tidy. -/
structure Token.Ordinary (token : Token) : Prop where
  formed : token.Formed
  free : token.isQuantifier = false
  tidy : token.isTidy = true

section Tokens

variable {token : Token} {parts : List Char × List Char}

theorem predicateToken?_mark (which : Mark) (mathematical : Bool) :
    predicateToken? (.mark which mathematical) = none := by
  rw [predicateToken?]
  split <;> rfl

theorem isBasic_of_predicateToken? (found : predicateToken? token = some parts) :
    token.isBasic = true := by
  rw [predicateToken?] at found
  split at found
  · next upper => rw [Token.isBasic, upper, Bool.or_true, Bool.true_or]
  · cases found

/-- Only a starred token has a star in it, where arguments have none. -/
theorem Token.Ordinary.starredParts?_eq (ordinary : token.Ordinary)
    (found : starredParts? token = some parts) :
    ∃ name args, token = .starred name args ∧ parts = (name, trimParens (args.getD [])) := by
  cases token with
  | starred name args =>
    cases found
    exact ⟨name, args, rfl, rfl⟩
  | applied name args =>
    have tidy := (Bool.and_eq_true_iff.mp ordinary.tidy).2
    rw [Token.arguments] at tidy
    rw [starredParts?, if_neg (by simpa using tidy)] at found
    cases found
  | word | mark | quantifier => cases found

theorem Token.Ordinary.hasBlank_eq_false (ordinary : token.Ordinary)
    (found : predicateToken? token = some parts) : hasBlank parts.2 = false := by
  have filled : hasBlank token.arguments = false := by
    simpa using (Bool.and_eq_true_iff.mp ordinary.tidy).1
  rw [predicateToken?] at found
  split at found
  · cases token with
    | mark | quantifier => cases found
    | word | applied | starred =>
      cases found
      exact filled
  · cases found

end Tokens

section Reading

variable {token : Token} {level : Level} {tokens : List Token} {formula : Formula}

/-- A basic token that is neither starred nor a predicate is a lower-case name. -/
theorem Token.Ordinary.lower (ordinary : token.Ordinary) (isBasic : token.isBasic = true)
    (unstarred : starredParts? token = none) (unread : predicateToken? token = none) :
    token.isName = true ∧ Text.startsLower token.source = true := by
  have letter (starless : '*' ∉ token.source)
      (parts : (predicateParts? token).isSome = true) : Text.startsLower token.source = true := by
    have small : Text.startsUpper token.source = false := by
      by_contra upper
      rw [predicateToken?, if_pos (Bool.not_eq_false _ ▸ upper)] at unread
      rw [unread] at parts
      cases parts
    simpa [Token.isBasic, starless, small] using isBasic
  cases token with
  | mark which mathematical =>
    rw [isBasic_mark] at isBasic
    cases isBasic
  | word name => exact ⟨rfl, letter (IsWord.not_mem ordinary.formed (by decide)) rfl⟩
  | applied name args =>
    have starless : '*' ∉ args := by
      simpa [isTidy, arguments] using (Bool.and_eq_true_iff.mp ordinary.tidy).2
    have outside : '*' ∉ name := ordinary.formed.1.not_mem (by decide)
    exact ⟨rfl, letter (by simp [source, outside, starless]) rfl⟩
  | starred => cases unstarred
  | quantifier => cases ordinary.free

/-- A basic token is read on its own, unless it is left with a blank argument. -/
theorem Token.Ordinary.derives_affirmed (ordinary : token.Ordinary)
    (isBasic : token.isBasic = true) (kept : token.isClipped = false) :
    DerivesSided .mixed .atomic [token] token.affirmed := by
  unfold affirmed
  cases unstarred : starredParts? token with
  | some parts =>
    rcases ordinary.starredParts?_eq unstarred with ⟨name, args, rfl, rfl⟩
    exact .starred unstarred rfl (sidedArguments_eq_ok_iff.mpr ⟨kept, rfl⟩)
  | none =>
    cases found : predicateToken? token with
    | some parts =>
      have filled := ordinary.hasBlank_eq_false found
      exact .plain unstarred found (sidedArguments_eq_ok_iff.mpr ⟨filled, rfl⟩)
    | none =>
      rcases ordinary.lower isBasic unstarred found with ⟨named, lower⟩
      exact .atom named unstarred found lower

namespace Derivation

/-- A negation sign belongs to the token right behind it if that token is a predicate. -/
theorem denied?_eq (derivation : Derivation .negation) :
    derivation.denied? = (derivation.tokens.head?.bind predicateToken?).map fun parts =>
      .sided (String.ofList parts.1) (listedTerms parts.2) true := by
  cases derivation with
  | not mathematical inner =>
    rw [tokens, List.head?_cons, Option.bind_some, predicateToken?_mark]
    rfl
  | atomic whole =>
    cases whole with
    | parens opening closing inside =>
      rw [tokens, tokens, List.head?_cons, Option.bind_some, predicateToken?_mark]
      rfl
    | basic token isBasic => rfl

theorem derives (derivation : Derivation level)
    (each : forall token, token ∈ derivation.tokens -> token.Ordinary)
    (kept : derivation.clipped = []) :
    DerivesSided .mixed level derivation.tokens derivation.formula := by
  induction derivation with
  | disjunction whole ih => exact .disjunction (ih each kept)
  | conjunction whole ih => exact .conjunction (ih each kept)
  | negation whole ih => exact .negation (ih each kept)
  | atomic whole ih => exact .atomic (ih each kept) whole.unsigned
  | arrow mathematical left right atLeft atRight =>
    rcases List.append_eq_nil_iff.mp kept with ⟨first, second⟩
    exact .arrow mathematical (atLeft (each_split each).1 first)
      (atRight (each_split each).2 second)
  | or mathematical left right atLeft atRight =>
    rcases List.append_eq_nil_iff.mp kept with ⟨first, second⟩
    exact .or mathematical (atLeft (each_split each).1 first) (atRight (each_split each).2 second)
  | and mathematical left right atLeft atRight =>
    rcases List.append_eq_nil_iff.mp kept with ⟨first, second⟩
    exact .and mathematical (atLeft (each_split each).1 first) (atRight (each_split each).2 second)
  | not mathematical inner ih =>
    have behind := (List.forall_mem_cons.mp each).2
    have found := inner.denied?_eq
    rw [formula, tokens]
    rw [clipped] at kept
    cases denied : inner.denied? with
    | none =>
      rw [denied] at kept found
      have free := Option.map_eq_none_iff.mp found.symm
      exact .not mathematical free (ih behind kept)
    | some denial =>
      -- Only a single token can be denied.
      unfold denied? at denied
      split at denied
      · next token isBasic =>
        rcases Option.map_eq_some_iff.mp denied with ⟨parts, isPredicate, rfl⟩
        have ordinary := behind token List.mem_cons_self
        exact .denied mathematical isPredicate (sidedArguments_eq_ok_iff.mpr
          ⟨ordinary.hasBlank_eq_false isPredicate, rfl⟩) rfl
      · cases denied
  | parens opening closing inside ih =>
    exact .parens opening closing (ih (each_split (List.forall_mem_cons.mp each).2).1 kept)
  | basic token isBasic =>
    have whole : token.isClipped = false := by
      cases clips : token.isClipped with
      | false => rfl
      | true =>
        rw [clipped, clips] at kept
        cases kept
    exact (each token List.mem_cons_self).derives_affirmed isBasic whole

/-- A derivation that builds a formula from tokens and loses no argument. -/
structure Builds (derivation : Derivation level) (tokens : List Token) (formula : Formula) :
    Prop where
  tokens_eq : derivation.tokens = tokens
  formula_eq : derivation.formula = formula
  kept : derivation.clipped = []

end Derivation

open WeakKleene.Grammar.Derivation (Builds)

theorem builds_basic (isBasic : token.isBasic = true) (affirmed : token.affirmed = formula)
    (kept : token.isClipped = false) : Builds (.basic token isBasic) [token] formula :=
  ⟨rfl, affirmed, if_neg (Bool.eq_false_iff.mp kept)⟩

/-- By induction on what the readers found. -/
theorem DerivesSided.exists_derivation (derived : DerivesSided .mixed level tokens formula)
    (each : forall token, token ∈ tokens -> token.Ordinary) :
    ∃ derivation : Derivation level, Builds derivation tokens formula := by
  have clips {token : Token} (unstarred : starredParts? token = none) :
      token.isClipped = false := by
    cases token with
    | starred => cases unstarred
    | _ => rfl
  induction derived with
  | disjunction _ ih =>
    rcases ih each with ⟨whole, builds⟩
    exact ⟨.disjunction whole, builds.1, builds.2, builds.3⟩
  | conjunction _ ih =>
    rcases ih each with ⟨whole, builds⟩
    exact ⟨.conjunction whole, builds.1, builds.2, builds.3⟩
  | negation _ ih =>
    rcases ih each with ⟨whole, builds⟩
    exact ⟨.negation whole, builds.1, builds.2, builds.3⟩
  | atomic _ _ ih =>
    rcases ih each with ⟨whole, builds⟩
    exact ⟨.atomic whole, builds.1, builds.2, builds.3⟩
  | arrow mathematical _ _ atFirst atSecond =>
    rcases atFirst (each_split each).1 with ⟨left, rfl, rfl, kept⟩
    rcases atSecond (each_split each).2 with ⟨right, rfl, rfl, kept'⟩
    exact ⟨.arrow mathematical left right, rfl, rfl, List.append_eq_nil_iff.mpr ⟨kept, kept'⟩⟩
  | or mathematical _ _ atFirst atSecond =>
    rcases atFirst (each_split each).1 with ⟨left, rfl, rfl, kept⟩
    rcases atSecond (each_split each).2 with ⟨right, rfl, rfl, kept'⟩
    exact ⟨.or mathematical left right, rfl, rfl, List.append_eq_nil_iff.mpr ⟨kept, kept'⟩⟩
  | and mathematical _ _ atFirst atSecond =>
    rcases atFirst (each_split each).1 with ⟨left, rfl, rfl, kept⟩
    rcases atSecond (each_split each).2 with ⟨right, rfl, rfl, kept'⟩
    exact ⟨.and mathematical left right, rfl, rfl, List.append_eq_nil_iff.mpr ⟨kept, kept'⟩⟩
  | not mathematical free _ ih =>
    rcases ih (List.forall_mem_cons.mp each).2 with ⟨inner, rfl, rfl, kept⟩
    have undenied : inner.denied? = none := by rw [inner.denied?_eq, free]; rfl
    refine ⟨.not mathematical inner, rfl, ?_, ?_⟩
    · rw [Derivation.formula, undenied]
      rfl
    · rw [Derivation.clipped, undenied]
      exact kept
  | @denied token _ _ _ mathematical found read =>
    have isBasic := isBasic_of_predicateToken? found
    rcases sidedArguments_eq_ok_iff.mp read with ⟨_, rfl⟩
    have denial : token.denied? = some _ := congrArg (Option.map _) found
    refine ⟨.not mathematical (.atomic (.basic token isBasic)), rfl, ?_, ?_⟩
    · rw [Derivation.formula, Derivation.denied?, denial]
      rfl
    · rw [Derivation.clipped, Derivation.denied?, denial]
      rfl
  | parens opening closing _ ih =>
    rcases ih (each_split (List.forall_mem_cons.mp each).2).1 with ⟨inside, rfl, rfl, kept⟩
    exact ⟨.parens opening closing inside, rfl, rfl, kept⟩
  | quantified => cases (each _ List.mem_cons_self).free
  | starred found _ read =>
    rcases sidedArguments_eq_ok_iff.mp read with ⟨filled, rfl⟩
    rcases (each _ List.mem_cons_self).starredParts?_eq found with ⟨word, inside, rfl, same⟩
    have isBasic : (Token.starred word inside).isBasic = true := by
      cases inside <;> simp [Token.isBasic, Token.source]
    cases same
    exact ⟨_, builds_basic isBasic (by rw [Token.affirmed, found]) filled⟩
  | plain unstarred found read =>
    refine ⟨_, builds_basic (isBasic_of_predicateToken? found) ?_ (clips unstarred)⟩
    rw [Token.affirmed, unstarred, found, <- (sidedArguments_eq_ok_iff.mp read).2]
  | @atom token _ unstarred unread lower =>
    have isBasic : token.isBasic = true := by rw [Token.isBasic, lower, Bool.or_true]
    refine ⟨_, builds_basic isBasic ?_ (clips unstarred)⟩
    rw [Token.affirmed, unstarred, unread]

end Reading

/-! ## Texts without brackets -/

/-- Quantifiers start with a bracket. -/
theorem scan_free {style : Style} {text : List Char} (free : '[' ∉ text) {tokens : List Token}
    (scanned : scan style text = .ok tokens) :
    forall token, token ∈ tokens -> token.isQuantifier = false := by
  intro token member
  cases token with
  | quantifier kind var scope source =>
    have formed := scanFrom_formed scanned _ member
    exact absurd (scan_source scanned _ member (List.mem_of_mem_head? formed.2)) free
  | _ => rfl

theorem scan_ordinary {text : List Char} (free : '[' ∉ text) {tokens : List Token}
    (scanned : scan .starred text = .ok tokens) (tidy : tokens.all Token.isTidy = true) :
    forall token, token ∈ tokens -> token.Ordinary :=
  fun token member => ⟨scanFrom_formed scanned token member, scan_free free scanned token member,
    List.all_eq_true.mp tidy token member⟩

theorem Token.Ordinary.filled {token : Token} (ordinary : token.Ordinary)
    (kept : token.isClipped = false) : token.Filled := by
  rintro parts (starred | predicate)
  · rcases ordinary.starredParts?_eq starred with ⟨name, args, rfl, rfl⟩
    exact kept
  · exact ordinary.hasBlank_eq_false predicate

end Grammar

open Grammar

/-- A text without brackets whose arguments are tidy is read exactly if its tokens have a
derivation that leaves no starred token with a blank argument.  Then the derivation builds the
formula, and there is no other.  Where no token is left with a blank argument, all failures are
parse errors. -/
theorem Formula.parseSided_grammatical (text : String) (free : '[' ∉ text.toList)
    (tidy : forall tokens, scan .starred text.toList = .ok tokens ->
      tokens.all Token.isTidy = true) :
    (forall formula, Formula.parseSided .mixed text = .ok formula ↔
      ∃ derivation : Derivation .implication,
        scan .starred text.toList = .ok derivation.tokens ∧ derivation.formula = formula ∧
          derivation.clipped = []) ∧
    (forall derivation other : Derivation .implication,
      scan .starred text.toList = .ok derivation.tokens ->
      scan .starred text.toList = .ok other.tokens -> derivation = other) ∧
    ((forall tokens, scan .starred text.toList = .ok tokens ->
        tokens.any Token.isClipped = false) ->
      forall fault, Formula.parseSided .mixed text = .error fault ->
        ∃ error, fault = .parse error) := by
  refine ⟨fun formula => ⟨?_, ?_⟩, ?_, ?_⟩
  · intro parsed
    rcases readSided_eq_ok_iff.mp parsed with ⟨tokens, scanned, derived⟩
    rcases derived.exists_derivation (scan_ordinary free scanned (tidy tokens scanned)) with
      ⟨derivation, rfl, built, kept⟩
    exact ⟨derivation, scanned, built, kept⟩
  · rintro ⟨derivation, scanned, rfl, kept⟩
    have ordinary := scan_ordinary free scanned (tidy _ scanned)
    exact readSided_eq_ok_iff.mpr ⟨_, scanned, derivation.derives ordinary kept⟩
  · intro derivation other scanned scanned'
    exact Derivation.eq_of_tokens_eq (Except.ok.inj (scanned.symm.trans scanned'))
  · intro whole
    refine onlyParse_readSided fun tokens scanned token member => ?_
    have ordinary := scan_ordinary free scanned (tidy tokens scanned) token member
    have kept := List.any_eq_false.mp (whole tokens scanned) token member
    exact ordinary.filled (Bool.eq_false_iff.mpr kept)

/-- A negation sign goes into the predicate right behind it, and the arrow binds weakest. -/
theorem Formula.denial_grammatical : '[' ∉ "~P(a) & q -> R*(X, b)".toList ∧
      Formula.parseSided .mixed "~P(a) & q -> R*(X, b)" = .ok (.join .imp
        (.join .conj (.sided "P" [.const "a"] true) (.atom "q"))
        (.sided "R" [.var "X", .const "b"] true)) := by
  let derivation : Derivation .implication :=
    .arrow false (.conjunction (.and false
        (.negation (.not false (.atomic (.basic (.applied ['P'] ['a']) (by decide)))))
        (.atomic (.basic (.word ['q']) (by decide)))))
      (.disjunction (.conjunction (.negation (.atomic
        (.basic (.starred ['R'] (some ['X', ',', ' ', 'b'])) (by decide))))))
  have free : '[' ∉ "~P(a) & q -> R*(X, b)".toList := by decide +kernel
  have scanned : scan .starred "~P(a) & q -> R*(X, b)".toList = .ok derivation.tokens := rfl
  have tidy (tokens : List Token)
      (found : scan .starred "~P(a) & q -> R*(X, b)".toList = .ok tokens) :
      tokens.all Token.isTidy = true := by
    cases scanned.symm.trans found
    decide +kernel
  exact ⟨free, ((Formula.parseSided_grammatical _ free tidy).1 _).mpr
    ⟨derivation, scanned, rfl, rfl⟩⟩

/-- The parenthesis that opens the arguments is written twice.  Both are dropped, and the first
argument is blank. -/
theorem Formula.parseSided_clipped : (∃ derivation : Derivation .implication,
      scan .starred "P*((,a)".toList = .ok derivation.tokens ∧
        derivation.tokens.all Token.isTidy = true) ∧
    '[' ∉ "P*((,a)".toList ∧ Formula.parseSided .mixed "P*((,a)" = .error .blankArgument := by
  let token : Token := .starred ['P'] (some ['(', ',', 'a'])
  let derivation : Derivation .implication :=
    .disjunction (.conjunction (.negation (.atomic (.basic token (by decide)))))
  have scanned : scan .starred "P*((,a)".toList = .ok derivation.tokens := rfl
  have atomic : sidedAtomic .mixed [token] = .error .blankArgument := by
    unfold sidedAtomic
    rfl
  refine ⟨⟨derivation, scanned, by decide +kernel⟩, by decide +kernel, ?_⟩
  rw [Formula.parseSided, readSided, scanned]
  change (sidedImplication .mixed [token] >>= _) = _
  rw [sidedImplication_error rfl atomic]
  rfl

end WeakKleene
