import WeakKleene.Grammar.Starred
import WeakKleene.Proofs.Derivations
import WeakKleene.Proofs.Reachability

namespace WeakKleene
namespace Grammar

/-!
# Derivations of formulas over bilateral predicates

The readers of starred text descend as those of plain text do, but they keep no
vocabulary.  A term is a variable or a constant by its first letter, and a
predicate is one by its star or by its own first letter.  A negation sign in
front of an upper-case token belongs to the predicate, and a quantifier governs
a negation, not only an atomic formula.

Again there is one category for each reader, and the readers find exactly the
derivations.
-/

open Tableau (exists_of_bind_eq_ok)

theorem asFault_eq_ok {α : Type} {result : Except ParseError α} {value : α}
    (done : asFault result = .ok value) : result = .ok value := by
  cases result with
  | error error => cases done
  | ok other => exact congrArg Except.ok (Except.ok.inj done)

theorem asFault_of_ok {α : Type} {result : Except ParseError α} {value : α}
    (done : result = .ok value) : asFault result = .ok value := by
  rw [done]
  rfl

theorem bind_of_eq_ok {ε α β : Type} {first : Except ε α} {next : α -> Except ε β} {value : α}
    {result : β} (done : first = .ok value) (further : next value = .ok result) :
    (first >>= next) = .ok result := by
  rw [done]
  exact further

instance : Observed (Except Fault) Unit where
  Yields outcome _ value _ := outcome = .ok value
  yields_bind := by
    intro α β first next _ _ result
    constructor
    · intro done
      rcases exists_of_bind_eq_ok done with ⟨value, atFirst, further⟩
      exact ⟨value, (), atFirst, further⟩
    · rintro ⟨value, _, atFirst, further⟩
      exact bind_of_eq_ok atFirst further
  yields_pure := by
    intro α other value _ _
    exact ⟨fun same => ⟨Except.ok.inj same, rfl⟩, fun same => congrArg Except.ok same.1⟩

/-! ## Predicates that get two sides -/

section Bilateral

variable (mode : Mode)

/-- What a formula is made bilateral as.  A predicate gets its other side, and a negation right on
a predicate becomes the denial of that. -/
inductive MadeBilateral : Formula -> Formula -> Prop where
  | atom (name : String) : MadeBilateral (.atom name) (.atom name)
  | pred (name : String) (args : List Term) :
      MadeBilateral (.pred name args) (.sided name args false)
  | bilateral (name : String) (args : List Term) (starName : String) (starred : Bool) :
      MadeBilateral (.bilateral name args starName starred) (.bilateral name args starName starred)
  | denial {body : Formula} {name : String} {args : List Term}
      (named : body.predicateName? = some name) (applied : body.arguments? = some args) :
      MadeBilateral (.neg body) (.sided name args true)
  | neg {body made : Formula} (unnamed : body.predicateName? = none)
      (inner : MadeBilateral body made) : MadeBilateral (.neg body) (.neg made)
  | join {left right left' right' : Formula} (connective : Connective)
      (first : MadeBilateral left left') (second : MadeBilateral right right') :
      MadeBilateral (.join connective left right) (.join connective left' right')
  | quant {quantifier : Quantifier} {restriction matrix restriction' matrix' : Formula}
      (var : String) (ruled : quantifier = .all ∨ quantifier = .exist)
      (first : MadeBilateral restriction restriction') (second : MadeBilateral matrix matrix') :
      MadeBilateral (.quant quantifier var restriction matrix)
        (.quant quantifier var restriction' matrix')
  | other (symbol var : String) (restriction matrix : Formula) :
      MadeBilateral (.quant (.other symbol) var restriction matrix)
        (.quant (.other symbol) var restriction matrix)
  | irregular {parts parts' : List Formula} (symbol : String)
      (each : makeAllBilateral mode parts = .ok parts') :
      MadeBilateral (.irregular symbol parts) (.irregular symbol parts')

variable {mode}

theorem negatedPredicate_eq_ok {name : String} {args : List Term} {made : Formula}
    (done : makeBilateral.negatedPredicate mode name args = .ok made) :
    made = .sided name args true := by
  cases mode <;> cases done <;> rfl

theorem madeBilateral (formula : Formula) {made : Formula}
    (done : makeBilateral mode formula = .ok made) : MadeBilateral mode formula made := by
  match formula with
  | .atom name =>
    cases done
    exact .atom name
  | .pred name args =>
    cases done
    exact .pred name args
  | .bilateral name args starName starred =>
    cases done
    exact .bilateral name args starName starred
  | .neg body =>
    have inside (unnamed : body.predicateName? = none)
        (done : (do return Formula.neg (<- makeBilateral mode body)) = .ok made) :
        MadeBilateral mode (.neg body) made := by
      rcases exists_of_bind_eq_ok done with ⟨part, atBody, same⟩
      cases same
      exact .neg unnamed (madeBilateral body atBody)
    cases body with
    | pred | bilateral =>
      rw [negatedPredicate_eq_ok done]
      exact .denial rfl rfl
    | _ => exact inside rfl done
  | .join connective left right =>
    rcases exists_of_bind_eq_ok done with ⟨left', atLeft, done⟩
    rcases exists_of_bind_eq_ok done with ⟨right', atRight, same⟩
    cases same
    exact .join connective (madeBilateral left atLeft) (madeBilateral right atRight)
  | .quant .all var restriction matrix | .quant .exist var restriction matrix =>
    rcases exists_of_bind_eq_ok done with ⟨left, atLeft, done⟩
    rcases exists_of_bind_eq_ok done with ⟨right, atRight, same⟩
    cases same
    exact .quant var (by simp) (madeBilateral restriction atLeft) (madeBilateral matrix atRight)
  | .quant (.other symbol) var restriction matrix =>
    cases done
    exact .other symbol var restriction matrix
  | .irregular symbol parts =>
    rcases exists_of_bind_eq_ok done with ⟨parts', each, same⟩
    cases same
    exact .irregular symbol each

end Bilateral

/-! ## The grammar -/

/-- Whether a token is a name, whatever stands behind it. -/
def Token.isName : Token -> Bool
  | word .. | applied .. | starred .. => true
  | _ => false

section Derivations

variable (mode : Mode)

/-- Tokens are a formula of a category over bilateral predicates. -/
inductive DerivesSided : Level -> List Token -> Formula -> Prop where
  | disjunction {tokens : List Token} {formula : Formula}
      (whole : DerivesSided .disjunction tokens formula) :
      DerivesSided .implication tokens formula
  | arrow {front back : List Token} {left right : Formula} (mathematical : Bool)
      (first : DerivesSided .disjunction front left)
      (second : DerivesSided .implication back right) :
      DerivesSided .implication (front ++ .mark .implies mathematical :: back)
        (.join .imp left right)
  | conjunction {tokens : List Token} {formula : Formula}
      (whole : DerivesSided .conjunction tokens formula) :
      DerivesSided .disjunction tokens formula
  | or {front back : List Token} {left right : Formula} (mathematical : Bool)
      (first : DerivesSided .disjunction front left)
      (second : DerivesSided .conjunction back right) :
      DerivesSided .disjunction (front ++ .mark .or mathematical :: back) (.join .disj left right)
  | negation {tokens : List Token} {formula : Formula}
      (whole : DerivesSided .negation tokens formula) :
      DerivesSided .conjunction tokens formula
  | and {front back : List Token} {left right : Formula} (mathematical : Bool)
      (first : DerivesSided .conjunction front left)
      (second : DerivesSided .negation back right) :
      DerivesSided .conjunction (front ++ .mark .and mathematical :: back) (.join .conj left right)
  | atomic {tokens : List Token} {formula : Formula} (whole : DerivesSided .atomic tokens formula)
      (unsigned : tokens.head?.any Token.isNegation = false) :
      DerivesSided .negation tokens formula
  | not {tokens : List Token} {body : Formula} (mathematical : Bool)
      (free : tokens.head?.bind predicateToken? = none)
      (inner : DerivesSided .negation tokens body) :
      DerivesSided .negation (.mark .not mathematical :: tokens) (.neg body)
  | denied {token : Token} {name args : List Char} {terms : List Term} (mathematical : Bool)
      (found : predicateToken? token = some (name, args))
      (read : sidedArguments args = .ok terms) (allowed : mode.allowsNegatedPredicate = true) :
      DerivesSided .negation [.mark .not mathematical, token]
        (.sided (String.ofList name) terms true)
  | parens {tokens : List Token} {formula : Formula} (opening closing : Bool)
      (inside : DerivesSided .implication tokens formula) :
      DerivesSided .atomic (.mark .openParen opening :: (tokens ++ [.mark .closeParen closing]))
        formula
  | quantified {quantifier : Quantifier} {var scope source : List Char} {tokens : List Token}
      {condition body restriction matrix : Formula}
      (restricted : readRestriction scope {} = .ok condition)
      (governed : DerivesSided .negation tokens body)
      (sidedCondition : makeBilateral mode condition = .ok restriction)
      (sidedBody : makeBilateral mode body = .ok matrix) :
      DerivesSided .atomic (.quantifier quantifier var scope source :: tokens)
        (.quant quantifier (String.ofList var) restriction matrix)
  | starred {token : Token} {name args : List Char} {terms : List Term}
      (found : starredParts? token = some (name, args)) (allowed : mode.allowsStar = true)
      (read : sidedArguments args = .ok terms) :
      DerivesSided .atomic [token] (.sided (String.ofList name) terms true)
  | plain {token : Token} {name args : List Char} {terms : List Term}
      (unstarred : starredParts? token = none)
      (found : predicateToken? token = some (name, args))
      (read : sidedArguments args = .ok terms) :
      DerivesSided .atomic [token] (.sided (String.ofList name) terms false)
  | atom {token : Token} (named : token.isName = true) (unstarred : starredParts? token = none)
      (unread : predicateToken? token = none) (lower : Text.startsLower token.source = true) :
      DerivesSided .atomic [token] (.atom token.text)

variable {mode}
variable {formula : Formula}

theorem DerivesSided.nonempty {level : Level} {tokens : List Token}
    (derived : DerivesSided mode level tokens formula) : tokens ≠ [] := by
  induction derived with
  | disjunction _ ih | conjunction _ ih
  | negation _ ih | atomic _ _ ih => exact ih
  | arrow | or | and => exact List.append_ne_nil_of_right_ne_nil _ (List.cons_ne_nil _ _)
  | not | denied | parens | quantified | starred | plain | atom => exact List.cons_ne_nil _ _

/-- An atomic formula that does not start with a negation sign stands on its own. -/
theorem DerivesSided.whole {tokens : List Token}
    (derived : DerivesSided mode .atomic tokens formula)
    (unsigned : tokens.head?.any Token.isNegation = false) :
    DerivesSided mode .implication tokens formula :=
  .disjunction (.conjunction (.negation (.atomic derived unsigned)))

theorem isName_of_predicateToken? {token : Token} {parts : List Char × List Char}
    (found : predicateToken? token = some parts) : token.isName = true := by
  rw [predicateToken?] at found
  split at found
  · cases token with
    | mark | quantifier => cases found
    | _ => rfl
  · cases found

theorem Token.eq_and_of_addsConjunct {token : Token} (sign : token.addsConjunct = true) :
    ∃ mathematical, token = .mark .and mathematical := by
  cases token with
  | mark which mathematical =>
    cases which with
    | and => exact ⟨mathematical, rfl⟩
    | _ => cases sign
  | _ => cases sign

theorem Token.eq_or_of_isOr {token : Token} (sign : token.isOr = true) :
    ∃ mathematical, token = .mark .or mathematical := by
  cases token with
  | mark which mathematical =>
    cases which with
    | or => exact ⟨mathematical, rfl⟩
    | _ => cases sign
  | _ => cases sign

theorem isOr_eq_false {rest : List Token} (stops : rest.head?.any Token.addsDisjunct = false) :
    rest.head?.any Token.isOr = false := by
  rcases rest with _ | ⟨token, rest⟩
  · rfl
  · refine Bool.eq_false_iff.mpr fun sign => ?_
    rcases Token.eq_or_of_isOr sign with ⟨mathematical, rfl⟩
    cases stops

theorem isNegation_of_isName {token : Token} (named : token.isName = true) :
    token.isNegation = false := by
  cases token with
  | mark => cases named
  | _ => rfl

/-! ## What readers find is derived -/

/-- Whatever a reader of starred text takes off the front is derived. -/
def FindsSided (mode : Mode) (level : Level) {tokens : List Token}
    (outcome : Except Fault (Taken tokens)) : Prop :=
  forall ⦃taken⦄, outcome = .ok taken ->
    ∃ front, tokens = front ++ taken.rest ∧ DerivesSided mode level front taken.formula

theorem findsSided_iff {level : Level} {tokens : List Token}
    {outcome : Except Fault (Taken tokens)} : FindsSided mode level outcome ↔
      Finds (fun _ tokens formula _ => DerivesSided mode level tokens formula) outcome :=
  ⟨fun found _ _ _ given => found given, fun found _ given => @found () _ () given⟩

structure SoundSided (mode : Mode) (tokens : List Token) : Prop where
  negation : FindsSided mode .negation (sidedNegation mode tokens)
  implication : FindsSided mode .implication (sidedImplication mode tokens)

def SoundSidedBelow (mode : Mode) (tokens : List Token) : Prop :=
  forall other : List Token, other.length < tokens.length -> SoundSided mode other

variable (mode) in
theorem chain_sidedConjunction : Chain Token.addsConjunct .conj (sidedNegation mode)
    (extendSidedConjunction mode) (sidedConjunction mode) where
  whole_eq tokens := by
    unfold sidedConjunction
    rfl
  loop_sign left token tokens follows := by
    rcases Token.eq_and_of_addsConjunct follows with ⟨mathematical, rfl⟩
    rw [extendSidedConjunction.eq_def]
  loop_end left tokens ends := by
    unfold extendSidedConjunction
    split
    · cases ends
    · rfl

variable (mode) in
theorem chain_sidedDisjunction : Chain Token.isOr .disj (sidedConjunction mode)
    (extendSidedDisjunction mode) (sidedDisjunction mode) where
  whole_eq tokens := by
    unfold sidedDisjunction
    rfl
  loop_sign left token tokens follows := by
    rcases Token.eq_or_of_isOr follows with ⟨mathematical, rfl⟩
    rw [extendSidedDisjunction.eq_def]
  loop_end left tokens ends := by
    unfold extendSidedDisjunction
    split
    · cases ends
    · rfl

variable {tokens : List Token}

theorem sidedConjunction_finds (parts : forall other : List Token, other.length ≤ tokens.length ->
      FindsSided mode .negation (sidedNegation mode other)) :
    FindsSided mode .conjunction (sidedConjunction mode tokens) := by
  refine findsSided_iff.mpr ((chain_sidedConjunction mode).whole_finds ?_
    (fun other bound => findsSided_iff.mp (parts other bound)) .negation)
  intro _ _ _ front back token left right first sign second
  rcases Token.eq_and_of_addsConjunct sign with ⟨mathematical, rfl⟩
  exact .and mathematical first second

theorem sidedDisjunction_finds (parts : forall other : List Token, other.length ≤ tokens.length ->
      FindsSided mode .conjunction (sidedConjunction mode other)) :
    FindsSided mode .disjunction (sidedDisjunction mode tokens) := by
  refine findsSided_iff.mpr ((chain_sidedDisjunction mode).whole_finds ?_
    (fun other bound => findsSided_iff.mp (parts other bound)) .conjunction)
  intro _ _ _ front back token left right first sign second
  rcases Token.eq_or_of_isOr sign with ⟨mathematical, rfl⟩
  exact .or mathematical first second

section

variable (below : SoundSidedBelow mode tokens)
include below

theorem sidedAtomic_sound : FindsSided mode .atomic (sidedAtomic mode tokens) := by
  intro taken parsed
  unfold sidedAtomic at parsed
  split at parsed
  · cases parsed
  · next opening rest =>
    rcases exists_of_bind_eq_ok parsed with ⟨inside, inner, closing⟩
    rcases (below rest (Nat.lt_succ_self _)).implication inner with ⟨front, same, derived⟩
    split at closing
    · next mathematical behind found =>
      cases closing
      refine ⟨_, ?_, .parens opening mathematical derived⟩
      rw [found] at same
      simp only [List.cons_append, List.append_assoc]
      exact congrArg _ same
    · cases closing
  · next quantifier var scope source rest =>
    rcases exists_of_bind_eq_ok parsed with ⟨_, restricted, parsed⟩
    rcases exists_of_bind_eq_ok parsed with ⟨matrix, inner, parsed⟩
    rcases exists_of_bind_eq_ok parsed with ⟨_, sidedCondition, parsed⟩
    rcases exists_of_bind_eq_ok parsed with ⟨_, sidedBody, parsed⟩
    cases parsed
    rcases (below rest (Nat.lt_succ_self _)).negation inner with ⟨front, same, derived⟩
    exact ⟨_, congrArg _ same, .quantified (asFault_eq_ok restricted) derived
      (asFault_eq_ok sidedCondition) (asFault_eq_ok sidedBody)⟩
  · next token rest _ noQuantifier =>
    split at parsed
    · next name args found =>
      split at parsed
      · cases parsed
      · next allowed =>
        rcases exists_of_bind_eq_ok parsed with ⟨terms, read, done⟩
        cases done
        exact ⟨[token], rfl, .starred found (by simpa using allowed) read⟩
    · next name args unstarred found =>
      rcases exists_of_bind_eq_ok parsed with ⟨terms, read, done⟩
      cases done
      exact ⟨[token], rfl, .plain unstarred found read⟩
    · next unstarred unread =>
      split at parsed
      · next lower =>
        cases parsed
        refine ⟨[token], rfl, .atom ?_ unstarred unread lower⟩
        cases token with
        | mark which mathematical =>
          exact absurd lower (by cases which <;> cases mathematical <;> decide +kernel)
        | quantifier kind var scope source => exact absurd rfl (noQuantifier kind var scope source)
        | _ => rfl
      · cases parsed

theorem sidedNegation_sound : FindsSided mode .negation (sidedNegation mode tokens) := by
  intro taken parsed
  unfold sidedNegation at parsed
  split at parsed
  · next mathematical rest =>
    have negated (free : rest.head?.bind predicateToken? = none) {body : Taken rest}
        (inner : sidedNegation mode rest = .ok body) :
        ∃ front, .mark .not mathematical :: rest = front ++ body.rest ∧
          DerivesSided mode .negation front (.neg body.formula) := by
      rcases (below rest (Nat.lt_succ_self _)).negation inner with ⟨front, same, derived⟩
      refine ⟨_, congrArg _ same, .not mathematical ?_ derived⟩
      rcases List.exists_cons_of_ne_nil derived.nonempty with ⟨token, others, rfl⟩
      rwa [same] at free
    cases rest with
    | nil =>
      rcases exists_of_bind_eq_ok parsed with ⟨body, inner, done⟩
      cases done
      exact negated rfl inner
    | cons token rest =>
      cases found : predicateToken? token with
      | none =>
        simp only [List.head?_cons, Option.bind_some, found] at parsed
        rcases exists_of_bind_eq_ok parsed with ⟨body, inner, done⟩
        cases done
        exact negated found inner
      | some parts =>
        simp only [List.head?_cons, Option.bind_some, found] at parsed
        rcases exists_of_bind_eq_ok parsed with ⟨terms, read, parsed⟩
        rcases exists_of_bind_eq_ok parsed with ⟨denied, outcome, done⟩
        cases done
        have outcome := asFault_eq_ok outcome
        refine ⟨[.mark .not mathematical, token], rfl, ?_⟩
        cases mode with
        | bilateral => cases outcome
        | transparent | mixed =>
          cases outcome
          exact .denied mathematical found read rfl
  · next unsigned =>
    rcases sidedAtomic_sound below parsed with ⟨front, same, derived⟩
    exact ⟨front, same, .atomic derived (unsigned_front same unsigned)⟩

theorem sidedDisjunction_sound : FindsSided mode .disjunction (sidedDisjunction mode tokens) := by
  have negations (other : List Token) (bound : other.length ≤ tokens.length) :
      FindsSided mode .negation (sidedNegation mode other) :=
    sidedNegation_sound fun inner shorter => below inner (Nat.lt_of_lt_of_le shorter bound)
  exact sidedDisjunction_finds fun other bound =>
    sidedConjunction_finds fun inner within => negations inner (Nat.le_trans within bound)

theorem sidedImplication_sound : FindsSided mode .implication (sidedImplication mode tokens) := by
  intro taken parsed
  unfold sidedImplication at parsed
  rcases exists_of_bind_eq_ok parsed with ⟨left, atLeft, parsed⟩
  rcases sidedDisjunction_sound below atLeft with ⟨front, same, derived⟩
  have shorter := left.shorter
  split at parsed
  · next mathematical rest found =>
    rcases exists_of_bind_eq_ok parsed with ⟨right, atRight, done⟩
    cases done
    rw [found] at shorter same
    rcases (below rest (Nat.lt_of_succ_lt shorter)).implication atRight with ⟨back, rest_eq, second⟩
    refine ⟨front ++ .mark .implies mathematical :: back, ?_, .arrow mathematical derived second⟩
    rw [List.append_assoc, List.cons_append]
    exact same.trans (congrArg (fun rest => front ++ .mark .implies mathematical :: rest) rest_eq)
  · cases parsed
    exact ⟨front, same, .disjunction derived⟩

end

/-- By induction on the number of tokens, as for plain text. -/
theorem soundSided (tokens : List Token) : SoundSided mode tokens := by
  induction size : tokens.length using Nat.strongRecOn generalizing tokens with
  | ind size ih =>
    have below : SoundSidedBelow mode tokens := fun other shorter =>
      ih other.length (by omega) other rfl
    exact {
      negation := sidedNegation_sound below
      implication := sidedImplication_sound below }

/-! ## What is derived readers find -/

abbrev TakesSided (outcome : Except Fault (Taken tokens)) (formula : Formula)
    (rest : List Token) : Prop :=
  Takes outcome () formula rest ()

abbrev ReachesSided (outcome : Except Fault (Extended tokens)) (formula : Formula)
    (rest : List Token) : Prop :=
  Reaches outcome () formula rest ()

section Readers

variable {left right whole : Formula} {middle rest : List Token} {token : Token}
variable {name args : List Char} {terms : List Term}

theorem sidedImplication_stop (stops : rest.head?.any Token.isArrow = false)
    (whole_taken : TakesSided (sidedDisjunction mode tokens) whole rest) :
    TakesSided (sidedImplication mode tokens) whole rest := by
  rcases whole_taken with ⟨shorter, taken⟩
  refine ⟨shorter, ?_⟩
  unfold sidedImplication
  refine bind_of_eq_ok taken ?_
  dsimp only
  split
  · cases stops
  · rfl

theorem sidedImplication_step {mathematical : Bool}
    (first : TakesSided (sidedDisjunction mode tokens) left (.mark .implies mathematical :: middle))
    (second : TakesSided (sidedImplication mode middle) right rest) :
    TakesSided (sidedImplication mode tokens) (.join .imp left right) rest := by
  rcases first with ⟨_, first⟩
  rcases second with ⟨_, second⟩
  unfold sidedImplication
  exact ⟨_, bind_of_eq_ok first (bind_of_eq_ok second rfl)⟩

theorem sidedNegation_atomic (unsigned : tokens.head?.any Token.isNegation = false)
    (taken : TakesSided (sidedAtomic mode tokens) whole rest) :
    TakesSided (sidedNegation mode tokens) whole rest := by
  rcases taken with ⟨shorter, taken⟩
  refine ⟨shorter, ?_⟩
  unfold sidedNegation
  split
  · cases unsigned
  · exact taken

theorem sidedNegation_not (mathematical : Bool) (free : tokens.head?.bind predicateToken? = none)
    (taken : TakesSided (sidedNegation mode tokens) whole rest) :
    TakesSided (sidedNegation mode (.mark .not mathematical :: tokens)) (.neg whole) rest := by
  rcases taken with ⟨shorter, taken⟩
  refine ⟨Nat.lt_succ_of_lt shorter, ?_⟩
  rw [sidedNegation.eq_def]
  cases tokens with
  | nil => exact bind_of_eq_ok taken rfl
  | cons token tokens =>
    rw [List.head?_cons, Option.bind_some] at free
    simp only [List.head?_cons, Option.bind_some, free]
    exact bind_of_eq_ok taken rfl

theorem sidedNegation_denied (mathematical : Bool)
    (found : predicateToken? token = some (name, args))
    (read : sidedArguments args = .ok terms) (allowed : mode.allowsNegatedPredicate = true) :
    TakesSided (sidedNegation mode (.mark .not mathematical :: token :: rest))
      (.sided (String.ofList name) terms true) rest := by
  refine ⟨Nat.lt_succ_of_lt (Nat.lt_succ_self _), ?_⟩
  rw [sidedNegation.eq_def]
  simp only [List.head?_cons, Option.bind_some, found]
  refine bind_of_eq_ok read (bind_of_eq_ok ?_ rfl)
  cases mode with
  | bilateral => cases allowed
  | transparent | mixed => rfl

theorem sidedAtomic_parens (opening closing : Bool)
    (taken : TakesSided (sidedImplication mode tokens) whole (.mark .closeParen closing :: rest)) :
    TakesSided (sidedAtomic mode (.mark .openParen opening :: tokens)) whole rest := by
  rcases taken with ⟨_, taken⟩
  unfold sidedAtomic
  exact ⟨_, bind_of_eq_ok taken rfl⟩

theorem sidedAtomic_quantified {quantifier : Quantifier} {var scope source : List Char}
    {restriction matrix : Formula} (restricted : readRestriction scope {} = .ok left)
    (taken : TakesSided (sidedNegation mode tokens) right rest)
    (sidedCondition : makeBilateral mode left = .ok restriction)
    (sidedBody : makeBilateral mode right = .ok matrix) :
    TakesSided (sidedAtomic mode (.quantifier quantifier var scope source :: tokens))
      (.quant quantifier (String.ofList var) restriction matrix) rest := by
  rcases taken with ⟨_, taken⟩
  unfold sidedAtomic
  exact ⟨_, bind_of_eq_ok (asFault_of_ok restricted) (bind_of_eq_ok taken
    (bind_of_eq_ok (asFault_of_ok sidedCondition) (bind_of_eq_ok (asFault_of_ok sidedBody) rfl)))⟩

theorem sidedAtomic_starred (found : starredParts? token = some (name, args))
    (allowed : mode.allowsStar = true) (read : sidedArguments args = .ok terms) :
    TakesSided (sidedAtomic mode (token :: rest)) (.sided (String.ofList name) terms true)
      rest := by
  refine ⟨Nat.lt_succ_self _, ?_⟩
  unfold sidedAtomic
  cases token with
  | mark | quantifier => cases found
  | word | applied | starred =>
    simp only [found, allowed]
    exact bind_of_eq_ok read rfl

theorem sidedAtomic_plain (unstarred : starredParts? token = none)
    (found : predicateToken? token = some (name, args)) (read : sidedArguments args = .ok terms) :
    TakesSided (sidedAtomic mode (token :: rest)) (.sided (String.ofList name) terms false)
      rest := by
  refine ⟨Nat.lt_succ_self _, ?_⟩
  have named := isName_of_predicateToken? found
  unfold sidedAtomic
  cases token with
  | mark | quantifier => cases named
  | word | applied | starred =>
    simp only [unstarred, found]
    exact bind_of_eq_ok read rfl

theorem sidedAtomic_atom (named : token.isName = true) (unstarred : starredParts? token = none)
    (unread : predicateToken? token = none) (lower : Text.startsLower token.source = true) :
    TakesSided (sidedAtomic mode (token :: rest)) (.atom token.text) rest := by
  refine ⟨Nat.lt_succ_self _, ?_⟩
  unfold sidedAtomic
  cases token with
  | mark | quantifier => cases named
  | word | applied | starred =>
    simp only [unstarred, unread]
    exact if_pos lower

end Readers

/-- What the reader of a category does where tokens of that category stand at the front. -/
def CompleteSided (mode : Mode) : Level -> List Token -> Formula -> Prop
  | .atomic, tokens, formula => forall rest,
      TakesSided (sidedAtomic mode (tokens ++ rest)) formula rest
  | .negation, tokens, formula => forall rest,
      TakesSided (sidedNegation mode (tokens ++ rest)) formula rest
  | .conjunction, tokens, formula => forall rest whole left,
      ReachesSided (extendSidedConjunction mode formula rest) whole left ->
      TakesSided (sidedConjunction mode (tokens ++ rest)) whole left
  | .disjunction, tokens, formula => forall rest whole left,
      rest.head?.any Token.addsConjunct = false ->
      ReachesSided (extendSidedDisjunction mode formula rest) whole left ->
      TakesSided (sidedDisjunction mode (tokens ++ rest)) whole left
  | .implication, tokens, formula => forall rest, rest.head?.any Token.continues = false ->
      TakesSided (sidedImplication mode (tokens ++ rest)) formula rest

/-- By induction on the derivation, as for plain text. -/
theorem DerivesSided.complete {level : Level} (derived : DerivesSided mode level tokens formula) :
    CompleteSided mode level tokens formula := by
  induction derived with
  | disjunction _ ih =>
    intro rest stops
    rcases stops_of_continues stops with ⟨noConjunct, noDisjunct, noArrow⟩
    exact sidedImplication_stop noArrow (ih rest _ _ noConjunct
      ((chain_sidedDisjunction mode).reaches_end (isOr_eq_false noDisjunct)))
  | arrow _ _ _ atFirst atSecond =>
    intro rest stops
    rw [List.append_assoc, List.cons_append]
    exact sidedImplication_step (atFirst _ _ _ rfl ((chain_sidedDisjunction mode).reaches_end rfl))
      (atSecond rest stops)
  | conjunction _ ih =>
    intro rest whole left stops further
    exact (chain_sidedDisjunction mode).takes
      (ih rest _ _ ((chain_sidedConjunction mode).reaches_end stops)) further
  | or mathematical _ _ atFirst atSecond =>
    intro rest whole left stops further
    rw [List.append_assoc, List.cons_append]
    exact atFirst _ whole left rfl ((chain_sidedDisjunction mode).reaches_sign rfl
      (atSecond rest _ _ ((chain_sidedConjunction mode).reaches_end stops)) further)
  | negation _ ih =>
    intro rest whole left further
    exact (chain_sidedConjunction mode).takes (ih rest) further
  | and mathematical _ _ atFirst atSecond =>
    intro rest whole left further
    rw [List.append_assoc, List.cons_append]
    exact atFirst _ whole left
      ((chain_sidedConjunction mode).reaches_sign rfl (atSecond rest) further)
  | atomic derived unsigned ih =>
    intro rest
    refine sidedNegation_atomic ?_ (ih rest)
    rcases List.exists_cons_of_ne_nil derived.nonempty with ⟨token, others, rfl⟩
    exact unsigned
  | not mathematical free derived ih =>
    intro rest
    refine sidedNegation_not mathematical ?_ (ih rest)
    rcases List.exists_cons_of_ne_nil derived.nonempty with ⟨token, others, rfl⟩
    exact free
  | denied mathematical found read allowed =>
    exact fun rest => sidedNegation_denied mathematical found read allowed
  | parens opening closing _ ih =>
    intro rest
    rw [List.cons_append, List.append_assoc]
    exact sidedAtomic_parens opening closing (ih _ rfl)
  | quantified restricted _ sidedCondition sidedBody ih =>
    intro rest
    exact sidedAtomic_quantified restricted (ih rest) sidedCondition sidedBody
  | starred found allowed read => exact fun rest => sidedAtomic_starred found allowed read
  | plain unstarred found read => exact fun rest => sidedAtomic_plain unstarred found read
  | atom named unstarred unread lower =>
    exact fun rest => sidedAtomic_atom named unstarred unread lower

theorem readSided_eq_ok_iff {text : List Char} :
    readSided mode text = .ok formula ↔ ∃ tokens, scan .starred text = .ok tokens ∧
      DerivesSided mode .implication tokens formula := by
  unfold readSided
  constructor
  · intro read
    rcases exists_of_bind_eq_ok read with ⟨tokens, scanned, parsed⟩
    refine ⟨tokens, asFault_eq_ok scanned, ?_⟩
    split at parsed
    · cases parsed
    · rcases exists_of_bind_eq_ok parsed with ⟨whole, descended, ended⟩
      rcases (soundSided tokens).implication descended with ⟨front, same, derived⟩
      split at ended
      · next nothing =>
        cases ended
        rw [nothing, List.append_nil] at same
        exact same ▸ derived
      · cases ended
  · rintro ⟨tokens, scanned, derived⟩
    refine bind_of_eq_ok (asFault_of_ok scanned) ?_
    have taken := derived.complete [] rfl
    rw [List.append_nil] at taken
    rcases taken with ⟨_, taken⟩
    rcases List.exists_cons_of_ne_nil derived.nonempty with ⟨token, others, rfl⟩
    exact bind_of_eq_ok taken rfl

end Derivations

end Grammar
end WeakKleene
