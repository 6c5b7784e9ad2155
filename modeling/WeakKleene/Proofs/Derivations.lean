import WeakKleene.Grammar.Inference

namespace WeakKleene
namespace Grammar

/-!
# Derivations of plain formulas

The readers descend from arrows to atomic formulas, and loop where a connective
groups to the left.  What they accept is a grammar with one category for each
reader, given here with the formula that a derivation builds and the vocabulary
that it passes on.  The readers find exactly the derivations: what they take off
the front of a list of tokens is derived, and what is derived they take, up to a
token that would continue it.

Two productions go beyond what one would write down.  An opening parenthesis
behind a disjunct continues the disjunction, and a token that has no meaning
where an atomic formula should start is an atom.  So is even a negation sign,
right behind a quantifier.
-/

/-! ## Readings -/

section Readings

variable {α β : Type} {before after : Vocabulary} {value : α} {result : β}

/-- A reading that starts with one vocabulary gives a value and leaves another vocabulary. -/
def Gives (reading : Reading α) (before : Vocabulary) (value : α) (after : Vocabulary) : Prop :=
  reading.run before = (.ok value, after)

theorem gives_bind {first : Reading α} {next : α -> Reading β} :
    Gives (first >>= next) before result after ↔ ∃ value between, Gives first before value between ∧
        Gives (next value) between result after := by
  have both : (first >>= next).run before =
      ExceptT.bindCont next (first.run before).1 (first.run before).2 := rfl
  simp only [Gives, both]
  cases outcome : first.run before with
  | mk read later =>
    cases read with
    | error error =>
      constructor
      · intro impossible
        cases impossible
      · rintro ⟨value, between, impossible, _⟩
        cases impossible
    | ok value =>
      constructor
      · intro done
        exact ⟨value, later, rfl, done⟩
      · rintro ⟨other, between, same, done⟩
        cases same
        exact done

variable {other : α}

/-- A reading that runs through gives what it ends with. -/
theorem gives_iff_of_run {reading : Reading α} {later : Vocabulary}
    (runs : reading.run before = (.ok other, later)) :
    Gives reading before value after ↔ other = value ∧ later = after := by
  rw [Gives, runs, Prod.mk.injEq, Except.ok.injEq]

theorem gives_pure :
    Gives (pure other) before value after ↔ other = value ∧ before = after :=
  gives_iff_of_run rfl

theorem gives_map {read : Reading α} {change : α -> β} :
    Gives (do return change (<- read)) before result after ↔
      ∃ value, Gives read before value after ∧ change value = result := by
  constructor
  · intro given
    rcases gives_bind.mp given with ⟨value, between, found, done⟩
    rcases gives_pure.mp done with ⟨same, rfl⟩
    exact ⟨value, found, same⟩
  · rintro ⟨value, given, same⟩
    exact gives_bind.mpr ⟨value, after, given, gives_pure.mpr ⟨same, rfl⟩⟩

theorem not_gives_throw {error : ParseError} :
    ¬ Gives (throw error : Reading α) before value after := by
  intro impossible
  cases impossible

theorem gives_liftExcept {computation : Except ParseError α} :
    Gives (liftExcept computation : Reading α) before value after ↔
      computation = .ok value ∧ before = after := by
  cases computation with
  | error error => exact ⟨fun impossible => absurd impossible not_gives_throw, nofun⟩
  | ok other =>
    rw [Except.ok.injEq]
    exact gives_iff_of_run rfl

theorem gives_get {found : Vocabulary} :
    Gives (get : Reading Vocabulary) before found after ↔ before = found ∧ before = after :=
  gives_iff_of_run rfl

theorem gives_set {later : Vocabulary} {done : PUnit} :
    Gives (set later : Reading PUnit) before done after ↔ later = after :=
  (gives_iff_of_run rfl).trans (and_iff_right rfl)

theorem gives_modify {change : Vocabulary -> Vocabulary} {done : PUnit} :
    Gives (modify change : Reading PUnit) before done after ↔ change before = after :=
  (gives_iff_of_run rfl).trans (and_iff_right rfl)

theorem gives_mapM_nil {read : β -> Reading α} {values : List α} :
    Gives ([].mapM read) before values after ↔ [] = values ∧ before = after := by
  rw [List.mapM_nil, gives_pure]

theorem gives_mapM_cons {read : β -> Reading α} {item : β} {items : List β} {values : List α} :
    Gives ((item :: items).mapM read) before values after ↔
      ∃ value others between, values = value :: others ∧
        Gives (read item) before value between ∧ Gives (items.mapM read) between others after := by
  rw [List.mapM_cons, gives_bind]
  constructor
  · rintro ⟨value, between, first, given⟩
    rcases gives_map.mp given with ⟨others, further, rfl⟩
    exact ⟨value, others, between, rfl, first, further⟩
  · rintro ⟨value, others, between, rfl, first, further⟩
    exact ⟨value, between, first,
      gives_map.mpr ⟨others, further, rfl⟩⟩

theorem Gives.unique {reading : Reading α} {after' : Vocabulary}
    (given : Gives reading before value after) (given' : Gives reading before other after') :
    value = other ∧ after = after' := by
  rw [Gives] at given given'
  rw [given, Prod.mk.injEq, Except.ok.injEq] at given'
  exact given'

end Readings

/-! ## Chains of formulas -/

/-- Computations of which it is known what they give, from one state to another. -/
class Observed (m : Type -> Type) [Monad m] (σ : outParam Type) where
  Yields {α : Type} (computation : m α) (before : σ) (value : α) (after : σ) : Prop
  yields_bind {α β : Type} {first : m α} {next : α -> m β} {before after : σ} {result : β} :
    Yields (first >>= next) before result after ↔ ∃ value between,
      Yields first before value between ∧ Yields (next value) between result after
  yields_pure {α : Type} {other value : α} {before after : σ} :
    Yields (pure other) before value after ↔ other = value ∧ before = after

instance : Observed Reading Vocabulary := ⟨Gives, gives_bind, gives_pure⟩

/-- Readers of a chain that groups to the left: a part is read first, and a loop goes on with
another one as long as a sign follows. -/
structure Chain {m : Type -> Type} [Monad m] (sign : Token -> Bool) (connective : Connective)
    (part : (tokens : List Token) -> m (Taken tokens))
    (loop : Formula -> (tokens : List Token) -> m (Extended tokens))
    (whole : (tokens : List Token) -> m (Taken tokens)) : Prop where
  whole_eq (tokens : List Token) : whole tokens = do
    let first <- part tokens
    let all <- loop first.formula first.rest
    return ⟨all.formula, all.rest, Nat.lt_of_le_of_lt all.notLonger first.shorter⟩
  loop_sign (left : Formula) (token : Token) (tokens : List Token) (follows : sign token = true) :
    loop left (token :: tokens) = do
      let next <- part tokens
      let all <- loop (.join connective left next.formula) next.rest
      return ⟨all.formula, all.rest,
        Nat.le_succ_of_le (Nat.le_trans all.notLonger (Nat.le_of_lt next.shorter))⟩
  loop_end (left : Formula) (tokens : List Token) (ends : tokens.head?.any sign = false) :
    loop left tokens = return ⟨left, tokens, Nat.le_refl _⟩

section Chains

variable {m : Type -> Type} [Monad m] {σ : Type} [Observed m σ]
variable {tokens middle rest : List Token} {before between after : σ}
variable {left right formula : Formula}

/-- A reader takes a formula off the front and leaves the rest. -/
def Takes (reading : m (Taken tokens)) (before : σ) (formula : Formula) (rest : List Token)
    (after : σ) : Prop :=
  ∃ shorter, Observed.Yields reading before ⟨formula, rest, shorter⟩ after

/-- A loop ends with a formula and leaves the rest. -/
def Reaches (reading : m (Extended tokens)) (before : σ) (formula : Formula) (rest : List Token)
    (after : σ) : Prop :=
  ∃ notLonger, Observed.Yields reading before ⟨formula, rest, notLonger⟩ after

def Consumes (derives : σ -> List Token -> Formula -> σ -> Prop) (before : σ)
    (tokens : List Token) (formula : Formula) (rest : List Token) (after : σ) : Prop :=
  ∃ front, tokens = front ++ rest ∧ derives before front formula after

/-- Whatever a reader takes off the front is derived. -/
def Finds (derives : σ -> List Token -> Formula -> σ -> Prop) (reading : m (Taken tokens)) : Prop :=
  forall ⦃before taken after⦄, Observed.Yields reading before taken after ->
    Consumes derives before tokens taken.formula taken.rest after

namespace Chain

open Observed

variable {sign : Token -> Bool} {connective : Connective}
variable {part : (tokens : List Token) -> m (Taken tokens)}
variable {loop : Formula -> (tokens : List Token) -> m (Extended tokens)}
variable {whole : (tokens : List Token) -> m (Taken tokens)}
variable (chain : Chain sign connective part loop whole)
include chain

theorem takes (first : Takes (part tokens) before left middle between)
    (further : Reaches (loop left middle) between formula rest after) :
    Takes (whole tokens) before formula rest after := by
  rcases first with ⟨_, first⟩
  rcases further with ⟨_, further⟩
  rw [Takes, chain.whole_eq]
  exact ⟨_, yields_bind.mpr ⟨_, _, first, yields_bind.mpr ⟨_, _, further,
    yields_pure.mpr ⟨rfl, rfl⟩⟩⟩⟩

theorem reaches_end (ends : rest.head?.any sign = false) :
    Reaches (loop left rest) before left rest before := by
  rw [Reaches, chain.loop_end left rest ends]
  exact ⟨_, yields_pure.mpr ⟨rfl, rfl⟩⟩

theorem reaches_sign {token : Token} (follows : sign token = true)
    (next : Takes (part tokens) before right middle between)
    (further : Reaches (loop (.join connective left right) middle) between formula rest
      after) :
    Reaches (loop left (token :: tokens)) before formula rest after := by
  rcases next with ⟨_, next⟩
  rcases further with ⟨_, further⟩
  rw [Reaches, chain.loop_sign left token tokens follows]
  exact ⟨_, yields_bind.mpr ⟨_, _, next, yields_bind.mpr ⟨_, _, further,
    yields_pure.mpr ⟨rfl, rfl⟩⟩⟩⟩

variable {derives lower : σ -> List Token -> Formula -> σ -> Prop}
variable (joins : forall {start between after : σ} {front back : List Token} {token : Token}
  {left right : Formula}, derives start front left between -> sign token = true ->
    lower between back right after ->
    derives start (front ++ token :: back) (.join connective left right) after)
variable (parts : forall other : List Token, other.length ≤ tokens.length ->
  Finds lower (part other))
include joins parts

/-- By induction on the number of tokens, as every part takes some of them. -/
theorem loop_finds {start : σ} {front : List Token} {extended : Extended tokens}
    (derived : derives start front left before)
    (given : Yields (loop left tokens) before extended after) :
    Consumes derives start (front ++ tokens) extended.formula extended.rest after := by
  induction size : tokens.length using Nat.strongRecOn generalizing tokens front left before with
  | ind size ih =>
    cases ends : tokens.head?.any sign with
    | false =>
      rw [chain.loop_end left tokens ends] at given
      rcases yields_pure.mp given with ⟨rfl, rfl⟩
      exact ⟨front, rfl, derived⟩
    | true =>
      rcases tokens with _ | ⟨token, tokens⟩
      · cases ends
      · rw [chain.loop_sign left token tokens ends] at given
        rcases yields_bind.mp given with ⟨next, between, atNext, given⟩
        rcases yields_bind.mp given with ⟨all, _, further, done⟩
        rcases yields_pure.mp done with ⟨rfl, rfl⟩
        rcases parts tokens (Nat.le_succ _) atNext with ⟨back, same, second⟩
        have shorter := next.shorter
        rw [List.length_cons] at size
        have extended := ih next.rest.length (by omega)
          (fun other bound => parts other (by rw [List.length_cons]; omega))
          (joins derived ends second) further rfl
        rw [List.append_assoc, List.cons_append, <- same] at extended
        exact extended

theorem whole_finds (single : forall {before after : σ} {tokens : List Token} {formula : Formula},
      lower before tokens formula after -> derives before tokens formula after) :
    Finds derives (whole tokens) := by
  intro before taken after given
  rw [chain.whole_eq] at given
  rcases yields_bind.mp given with ⟨first, between, atFirst, given⟩
  rcases yields_bind.mp given with ⟨all, _, further, done⟩
  rcases yields_pure.mp done with ⟨rfl, rfl⟩
  rcases parts tokens (Nat.le_refl _) atFirst with ⟨front, same, derived⟩
  have extended := chain.loop_finds joins (fun other bound =>
    parts other (Nat.le_trans bound (Nat.le_of_lt first.shorter))) (single derived) further
  rwa [<- same] at extended

end Chain

end Chains

/-! ## Arguments -/

/-- The term that a name stands for, given which names are variables. -/
def termNamed (isVariable : List Char -> Bool) (name : List Char) : Term :=
  if isVariable name then .var (String.ofList name) else .const (String.ofList name)

def Vocabulary.add (vocabulary : Vocabulary) (name : List Char) : Vocabulary :=
  if vocabulary.isVariable name then vocabulary.addVariable (String.ofList name)
  else vocabulary.addConstant (String.ofList name)

theorem gives_readArgument {name : List Char} {term : Term} {before after : Vocabulary} :
    Gives (readArgument name) before term after ↔
      termNamed before.isVariable name = term ∧ before.add name = after := by
  have whole : Gives (readArgument name) before (termNamed before.isVariable name)
      (before.add name) := by
    unfold readArgument
    refine gives_bind.mpr ⟨before, before, gives_get.mpr ⟨rfl, rfl⟩, ?_⟩
    unfold termNamed Vocabulary.add
    split
    · exact gives_bind.mpr ⟨⟨⟩, _, gives_set.mpr rfl, gives_pure.mpr ⟨rfl, rfl⟩⟩
    · exact gives_bind.mpr ⟨⟨⟩, _, gives_set.mpr rfl, gives_pure.mpr ⟨rfl, rfl⟩⟩
  constructor
  · exact fun given => whole.unique given
  · rintro ⟨rfl, rfl⟩
    exact whole

theorem exists_gives_mapM {β : Type} {read : β -> Reading Term}
    (total : forall item before, ∃ term after, Gives (read item) before term after)
    (items : List β) (before : Vocabulary) :
    ∃ terms after, Gives (items.mapM read) before terms after := by
  induction items generalizing before with
  | nil => exact ⟨[], before, gives_mapM_nil.mpr ⟨rfl, rfl⟩⟩
  | cons item items ih =>
    rcases total item before with ⟨term, between, first⟩
    rcases ih between with ⟨terms, after, further⟩
    exact ⟨term :: terms, after, gives_mapM_cons.mpr ⟨term, terms, between, rfl, first, further⟩⟩

/-- Every text is a list of arguments. -/
theorem exists_gives_readArguments (args : List Char) (before : Vocabulary) :
    ∃ terms after, Gives (readArguments args) before terms after := by
  unfold readArguments
  split
  · exact ⟨[], before, gives_pure.mpr ⟨rfl, rfl⟩⟩
  · exact exists_gives_mapM (fun _ _ => ⟨_, _, gives_readArgument.mpr ⟨rfl, rfl⟩⟩) _ before

/-! ## The grammar -/

/-- The categories, from the one that binds weakest to the one that binds strongest. -/
inductive Level where
  | implication
  | disjunction
  | conjunction
  | negation
  | atomic

namespace Token

/-- Whether a token behind a disjunct continues the disjunction. -/
def addsDisjunct : Token -> Bool
  | mark .or _ | mark .openParen _ => true
  | _ => false

def isOr : Token -> Bool
  | mark .or _ => true
  | _ => false

/-- Whether a token behind a conjunct continues the conjunction. -/
def addsConjunct : Token -> Bool
  | mark .and _ => true
  | _ => false

def isArrow : Token -> Bool
  | mark .implies _ => true
  | _ => false

def isNegation : Token -> Bool
  | mark .not _ => true
  | _ => false

/-- Whether a token that stands where an atomic formula should start is an atom. -/
def isOperand : Token -> Bool
  | mark .openParen _ | quantifier .. | applied .. => false
  | _ => true

end Token

section Derivations

/- How a quantifier's restriction is read, given the vocabulary at its place. -/
variable (restriction : List Char -> Vocabulary -> Except ParseError Formula)

/-- Tokens are a formula of a category, read with one vocabulary and leaving another. -/
inductive Derives : Level -> Vocabulary -> List Token -> Formula -> Vocabulary -> Prop where
  | disjunction {before after : Vocabulary} {tokens : List Token} {formula : Formula}
      (whole : Derives .disjunction before tokens formula after) :
      Derives .implication before tokens formula after
  | arrow {before between after : Vocabulary} {front back : List Token} {token : Token}
      {left right : Formula} (first : Derives .disjunction before front left between)
      (sign : token.isArrow = true) (second : Derives .implication between back right after) :
      Derives .implication before (front ++ token :: back) (.join .imp left right) after
  | conjunction {before after : Vocabulary} {tokens : List Token} {formula : Formula}
      (whole : Derives .conjunction before tokens formula after) :
      Derives .disjunction before tokens formula after
  | or {before between after : Vocabulary} {front back : List Token} {token : Token}
      {left right : Formula} (first : Derives .disjunction before front left between)
      (sign : token.addsDisjunct = true) (second : Derives .conjunction between back right after) :
      Derives .disjunction before (front ++ token :: back) (.join .disj left right) after
  | negation {before after : Vocabulary} {tokens : List Token} {formula : Formula}
      (whole : Derives .negation before tokens formula after) :
      Derives .conjunction before tokens formula after
  | and {before between after : Vocabulary} {front back : List Token} {token : Token}
      {left right : Formula} (first : Derives .conjunction before front left between)
      (sign : token.addsConjunct = true) (second : Derives .negation between back right after) :
      Derives .conjunction before (front ++ token :: back) (.join .conj left right) after
  | atomic {before after : Vocabulary} {tokens : List Token} {formula : Formula}
      (whole : Derives .atomic before tokens formula after)
      (unsigned : tokens.head?.any Token.isNegation = false) :
      Derives .negation before tokens formula after
  | not {before after : Vocabulary} {tokens : List Token} {body : Formula} (mathematical : Bool)
      (inner : Derives .negation before tokens body after) :
      Derives .negation before (.mark .not mathematical :: tokens) (.neg body) after
  | parens {before after : Vocabulary} {tokens : List Token} {formula : Formula}
      (opening closing : Bool) (inside : Derives .implication before tokens formula after) :
      Derives .atomic before
        (.mark .openParen opening :: (tokens ++ [.mark .closeParen closing])) formula after
  | quantified {before after : Vocabulary} {quantifier : Quantifier}
      {var scope source : List Char} {tokens : List Token} {condition matrix : Formula}
      (restricted : restriction scope (before.addVariable (String.ofList var)) = .ok condition)
      (governed : Derives .atomic (before.addVariable (String.ofList var)) tokens matrix after) :
      Derives .atomic before (.quantifier quantifier var scope source :: tokens)
        (.quant quantifier (String.ofList var) condition matrix) after
  | applied {before after : Vocabulary} {name args : List Char} {terms : List Term}
      (read : Gives (readArguments args) before terms after) :
      Derives .atomic before [.applied name args] (.pred (String.ofList name) terms) after
  | operand {vocabulary : Vocabulary} {token : Token} (plain : token.isOperand = true) :
      Derives .atomic vocabulary [token] (.atom token.text) vocabulary

variable {restriction}
variable {formula : Formula}

theorem Derives.nonempty {level : Level} {before after : Vocabulary} {tokens : List Token}
    (derived : Derives restriction level before tokens formula after) :
    tokens ≠ [] := by
  induction derived with
  | disjunction _ ih | conjunction _ ih
  | negation _ ih | atomic _ _ ih => exact ih
  | arrow | or | and => exact List.append_ne_nil_of_right_ne_nil _ (List.cons_ne_nil _ _)
  | not | parens | quantified | applied | operand => exact List.cons_ne_nil _ _

/-! ## What readers find is derived -/

/-- Whatever the readers without a loop find on a list of tokens is derived. -/
structure Sound (restriction : List Char -> Vocabulary -> Except ParseError Formula)
    (tokens : List Token) : Prop where
  atomic : Finds (Derives restriction .atomic) (readAtomic restriction tokens)
  negation : Finds (Derives restriction .negation) (readNegation restriction tokens)
  implication : Finds (Derives restriction .implication) (readImplication restriction tokens)

def SoundBelow (restriction : List Char -> Vocabulary -> Except ParseError Formula)
    (tokens : List Token) : Prop :=
  forall other : List Token, other.length < tokens.length -> Sound restriction other

variable (restriction) in
theorem chain_conjunction : Chain Token.addsConjunct .conj (readNegation restriction)
    (extendConjunction restriction) (readConjunction restriction) where
  whole_eq tokens := by
    unfold readConjunction
    rfl
  loop_sign left token tokens follows := by
    cases token with
    | mark which mathematical =>
      cases which with
      | and =>
        rw [extendConjunction.eq_def]
      | _ => cases follows
    | _ => cases follows
  loop_end left tokens ends := by
    unfold extendConjunction
    split
    · cases ends
    · rfl

variable (restriction) in
theorem chain_disjunction : Chain Token.addsDisjunct .disj (readConjunction restriction)
    (extendDisjunction restriction) (readDisjunction restriction) where
  whole_eq tokens := by
    unfold readDisjunction
    rfl
  loop_sign left token tokens follows := by
    cases token with
    | mark which mathematical =>
      cases which with
      | or | openParen =>
        rw [extendDisjunction.eq_def]
      | _ => cases follows
    | _ => cases follows
  loop_end left tokens ends := by
    unfold extendDisjunction
    split
    · cases ends
    · cases ends
    · rfl

variable {tokens : List Token} {before after : Vocabulary}

theorem unsigned_front {front rest : List Token} (same : tokens = front ++ rest)
    (unsigned : forall mathematical behind, tokens = .mark .not mathematical :: behind -> False) :
    front.head?.any Token.isNegation = false := by
  cases front with
  | nil => rfl
  | cons token front =>
    cases token with
    | mark which mathematical =>
      cases which with
      | not => exact absurd same (unsigned mathematical _)
      | _ => rfl
    | _ => rfl

section

variable (below : SoundBelow restriction tokens)
include below

theorem readAtomic_sound :
    Finds (Derives restriction .atomic) (readAtomic restriction tokens) := by
  intro before taken after given
  unfold readAtomic at given
  split at given
  · exact absurd given not_gives_throw
  · next opening rest =>
    rcases gives_bind.mp given with ⟨inside, between, inner, closing⟩
    rcases (below rest (Nat.lt_succ_self _)).implication inner with ⟨front, same, derived⟩
    split at closing
    · exact absurd closing not_gives_throw
    · next mathematical behind found =>
      rcases gives_pure.mp closing with ⟨rfl, rfl⟩
      refine ⟨_, ?_, .parens opening mathematical derived⟩
      rw [found] at same
      simp only [List.cons_append, List.append_assoc]
      exact congrArg _ same
    · exact absurd closing not_gives_throw
  · next quantifier var scope source rest =>
    rcases gives_bind.mp given with ⟨_, first, noted, given⟩
    rcases gives_bind.mp given with ⟨_, second, asked, given⟩
    rcases gives_bind.mp given with ⟨condition, third, conditioned, given⟩
    rcases gives_map.mp given with ⟨matrix, governed, rfl⟩
    rcases (below rest (Nat.lt_succ_self _)).atomic governed with ⟨front, same, derived⟩
    cases gives_modify.mp noted
    rcases gives_get.mp asked with ⟨rfl, rfl⟩
    rcases gives_liftExcept.mp conditioned with ⟨restricted, rfl⟩
    exact ⟨_, congrArg _ same, .quantified restricted derived⟩
  · rcases gives_map.mp given with ⟨terms, read, rfl⟩
    exact ⟨_, rfl, .applied read⟩
  · next token rest noParen noQuantifier noPredicate =>
    rcases gives_pure.mp given with ⟨rfl, rfl⟩
    refine ⟨[token], rfl, .operand ?_⟩
    cases token with
    | mark which mathematical =>
      cases which with
      | openParen => exact absurd rfl (noParen mathematical)
      | _ => rfl
    | quantifier kind var scope source => exact absurd rfl (noQuantifier kind var scope source)
    | applied name args => exact absurd rfl (noPredicate name args)
    | word | starred => rfl

theorem readNegation_sound :
    Finds (Derives restriction .negation) (readNegation restriction tokens) := by
  intro before taken after given
  unfold readNegation at given
  split at given
  · next mathematical rest =>
    rcases gives_map.mp given with ⟨body, inner, rfl⟩
    rcases (below rest (Nat.lt_succ_self _)).negation inner with ⟨front, same, derived⟩
    exact ⟨_, congrArg _ same, .not mathematical derived⟩
  · next unsigned =>
    rcases readAtomic_sound below given with ⟨front, same, derived⟩
    exact ⟨front, same, .atomic derived (unsigned_front same unsigned)⟩

theorem readDisjunction_sound :
    Finds (Derives restriction .disjunction) (readDisjunction restriction tokens) := by
  have negations (other : List Token) (bound : other.length ≤ tokens.length) :
      Finds (Derives restriction .negation) (readNegation restriction other) :=
    readNegation_sound fun inner shorter => below inner (Nat.lt_of_lt_of_le shorter bound)
  exact (chain_disjunction restriction).whole_finds .or (fun other bound =>
    (chain_conjunction restriction).whole_finds .and (fun inner within =>
      negations inner (Nat.le_trans within bound)) .negation) .conjunction

theorem readImplication_sound :
    Finds (Derives restriction .implication) (readImplication restriction tokens) := by
  intro before taken after given
  unfold readImplication at given
  rcases gives_bind.mp given with ⟨left, between, atLeft, given⟩
  rcases readDisjunction_sound below atLeft with ⟨front, same, derived⟩
  have shorter := left.shorter
  split at given
  · next mathematical rest found =>
    rcases gives_map.mp given with ⟨right, atRight, rfl⟩
    rw [found] at shorter same
    rcases (below rest (Nat.lt_of_succ_lt shorter)).implication atRight with ⟨back, rest_eq, second⟩
    refine ⟨front ++ .mark .implies mathematical :: back, ?_, .arrow derived rfl second⟩
    rw [List.append_assoc, List.cons_append]
    exact same.trans (congrArg (fun rest => front ++ .mark .implies mathematical :: rest) rest_eq)
  · rcases gives_pure.mp given with ⟨rfl, rfl⟩
    exact ⟨front, same, .disjunction derived⟩

end

/-- By induction on the number of tokens: each reader calls readers of shorter lists, or readers
that bind stronger on the same list. -/
theorem sound (tokens : List Token) : Sound restriction tokens := by
  induction size : tokens.length using Nat.strongRecOn generalizing tokens with
  | ind size ih =>
    have below : SoundBelow restriction tokens := fun other shorter =>
      ih other.length (by omega) other rfl
    exact {
      atomic := readAtomic_sound below
      negation := readNegation_sound below
      implication := readImplication_sound below }

/-! ## What is derived readers find -/

section Readers

variable {between : Vocabulary} {left right whole : Formula} {middle rest : List Token}
variable {token : Token}

theorem readImplication_stop (stops : rest.head?.any Token.isArrow = false)
    (whole_taken : Takes (readDisjunction restriction tokens) before whole rest after) :
    Takes (readImplication restriction tokens) before whole rest after := by
  rcases whole_taken with ⟨shorter, taken⟩
  refine ⟨shorter, ?_⟩
  unfold readImplication
  refine gives_bind.mpr ⟨_, _, taken, ?_⟩
  dsimp only
  split
  · cases stops
  · exact gives_pure.mpr ⟨rfl, rfl⟩

theorem readImplication_step (sign : token.isArrow = true)
    (first : Takes (readDisjunction restriction tokens) before left (token :: middle) between)
    (second : Takes (readImplication restriction middle) between right rest after) :
    Takes (readImplication restriction tokens) before (.join .imp left right) rest after := by
  rcases first with ⟨_, first⟩
  rcases second with ⟨_, second⟩
  cases token with
  | mark which mathematical =>
    cases which with
    | implies =>
      unfold readImplication
      exact ⟨_, gives_bind.mpr ⟨_, _, first, gives_map.mpr ⟨_, second, rfl⟩⟩⟩
    | _ => cases sign
  | _ => cases sign

theorem readNegation_atomic (unsigned : tokens.head?.any Token.isNegation = false)
    (taken : Takes (readAtomic restriction tokens) before whole rest after) :
    Takes (readNegation restriction tokens) before whole rest after := by
  rcases taken with ⟨shorter, taken⟩
  refine ⟨shorter, ?_⟩
  unfold readNegation
  split
  · cases unsigned
  · exact taken

theorem readNegation_not (mathematical : Bool)
    (taken : Takes (readNegation restriction tokens) before whole rest after) :
    Takes (readNegation restriction (.mark .not mathematical :: tokens)) before (.neg whole) rest
      after := by
  rcases taken with ⟨_, taken⟩
  unfold readNegation
  exact ⟨_, gives_map.mpr ⟨_, taken, rfl⟩⟩

theorem readAtomic_parens (opening closing : Bool)
    (taken : Takes (readImplication restriction tokens) before whole
      (.mark .closeParen closing :: rest) after) :
    Takes (readAtomic restriction (.mark .openParen opening :: tokens)) before whole rest
      after := by
  rcases taken with ⟨_, taken⟩
  unfold readAtomic
  exact ⟨_, gives_bind.mpr ⟨_, _, taken, gives_pure.mpr ⟨rfl, rfl⟩⟩⟩

theorem readAtomic_quantified {quantifier : Quantifier} {var scope source : List Char}
    (restricted : restriction scope (before.addVariable (String.ofList var)) = .ok left)
    (taken : Takes (readAtomic restriction tokens) (before.addVariable (String.ofList var)) right
      rest after) :
    Takes (readAtomic restriction (.quantifier quantifier var scope source :: tokens)) before
      (.quant quantifier (String.ofList var) left right) rest after := by
  rcases taken with ⟨_, taken⟩
  unfold readAtomic
  exact ⟨_, gives_bind.mpr ⟨(), _, gives_modify.mpr rfl, gives_bind.mpr ⟨_, _,
    gives_get.mpr ⟨rfl, rfl⟩, gives_bind.mpr ⟨_, _, gives_liftExcept.mpr ⟨restricted, rfl⟩,
      gives_map.mpr ⟨_, taken, rfl⟩⟩⟩⟩⟩

theorem readAtomic_applied {name args : List Char} {terms : List Term}
    (read : Gives (readArguments args) before terms after) :
    Takes (readAtomic restriction (.applied name args :: rest)) before
      (.pred (String.ofList name) terms) rest after := by
  unfold readAtomic
  exact ⟨_, gives_map.mpr ⟨_, read, rfl⟩⟩

theorem readAtomic_operand (plain : token.isOperand = true) :
    Takes (readAtomic restriction (token :: rest)) before (.atom token.text) rest before := by
  refine ⟨Nat.lt_succ_self _, ?_⟩
  unfold readAtomic
  cases token with
  | mark which mathematical =>
    cases which with
    | openParen => cases plain
    | _ => exact gives_pure.mpr ⟨rfl, rfl⟩
  | quantifier | applied => cases plain
  | word | starred => exact gives_pure.mpr ⟨rfl, rfl⟩

end Readers

/-- Whether a token behind a formula continues it. -/
def Token.continues (token : Token) : Bool :=
  token.addsConjunct || token.addsDisjunct || token.isArrow

theorem stops_of_continues {rest : List Token} (stops : rest.head?.any Token.continues = false) :
    rest.head?.any Token.addsConjunct = false ∧ rest.head?.any Token.addsDisjunct = false ∧
      rest.head?.any Token.isArrow = false := by
  cases rest with
  | nil => exact ⟨rfl, rfl, rfl⟩
  | cons token rest =>
    simp only [List.head?_cons, Option.any_some, Token.continues, Bool.or_eq_false_iff] at stops
    exact ⟨stops.1.1, stops.1.2, stops.2⟩

/-- The signs that continue a formula are told apart. -/
theorem Token.addsConjunct_eq_false {token : Token}
    (other : token.addsDisjunct = true ∨ token.isArrow = true) :
    token.addsConjunct = false := by
  cases token with
  | mark which mathematical =>
    cases which with
    | and => cases other with
      | inl impossible => cases impossible
      | inr impossible => cases impossible
    | _ => rfl
  | _ => rfl

theorem Token.addsDisjunct_eq_false {token : Token} (arrow : token.isArrow = true) :
    token.addsDisjunct = false := by
  cases token with
  | mark which mathematical =>
    cases which with
    | or | openParen => cases arrow
    | _ => rfl
  | _ => rfl

/-- What the reader of a category does where tokens of that category stand at the front.  The
readers with a loop go on as the loop does from there. -/
def Complete (restriction : List Char -> Vocabulary -> Except ParseError Formula) :
    Level -> Vocabulary -> List Token -> Formula -> Vocabulary -> Prop
  | .atomic, before, tokens, formula, after => forall rest,
      Takes (readAtomic restriction (tokens ++ rest)) before formula rest after
  | .negation, before, tokens, formula, after => forall rest,
      Takes (readNegation restriction (tokens ++ rest)) before formula rest after
  | .conjunction, before, tokens, formula, after => forall rest whole left last,
      Reaches (extendConjunction restriction formula rest) after whole left last ->
      Takes (readConjunction restriction (tokens ++ rest)) before whole left last
  | .disjunction, before, tokens, formula, after => forall rest whole left last,
      rest.head?.any Token.addsConjunct = false ->
      Reaches (extendDisjunction restriction formula rest) after whole left last ->
      Takes (readDisjunction restriction (tokens ++ rest)) before whole left last
  | .implication, before, tokens, formula, after => forall rest,
      rest.head?.any Token.continues = false ->
      Takes (readImplication restriction (tokens ++ rest)) before formula rest after

/-- By induction on the derivation.  Where a connective groups to the left, the reader comes to
the front part first, and its loop meets the connective. -/
theorem Derives.complete {level : Level}
    (derived : Derives restriction level before tokens formula after) :
    Complete restriction level before tokens formula after := by
  induction derived with
  | disjunction _ ih =>
    intro rest stops
    rcases stops_of_continues stops with ⟨noConjunct, noDisjunct, noArrow⟩
    exact readImplication_stop noArrow
      (ih rest _ _ _ noConjunct ((chain_disjunction restriction).reaches_end noDisjunct))
  | @arrow _ _ _ front back token _ _ _ sign _ atFirst atSecond =>
    intro rest stops
    rw [List.append_assoc, List.cons_append]
    refine readImplication_step sign (atFirst (token :: (back ++ rest)) _ _ _ ?_ ?_)
      (atSecond rest stops)
    · exact Token.addsConjunct_eq_false (.inr sign)
    · exact (chain_disjunction restriction).reaches_end (Token.addsDisjunct_eq_false sign)
  | conjunction _ ih =>
    intro rest whole left last stops further
    exact (chain_disjunction restriction).takes
      (ih rest _ _ _ ((chain_conjunction restriction).reaches_end stops)) further
  | @or _ _ _ front back token _ _ _ sign _ atFirst atSecond =>
    intro rest whole left last stops further
    rw [List.append_assoc, List.cons_append]
    refine atFirst (token :: (back ++ rest)) whole left last ?_ ?_
    · exact Token.addsConjunct_eq_false (.inl sign)
    · exact (chain_disjunction restriction).reaches_sign sign
        (atSecond rest _ _ _ ((chain_conjunction restriction).reaches_end stops)) further
  | negation _ ih =>
    intro rest whole left last further
    exact (chain_conjunction restriction).takes (ih rest) further
  | @and _ _ _ front back token _ _ _ sign _ atFirst atSecond =>
    intro rest whole left last further
    rw [List.append_assoc, List.cons_append]
    exact atFirst (token :: (back ++ rest)) whole left last
      ((chain_conjunction restriction).reaches_sign sign (atSecond rest) further)
  | atomic derived unsigned ih =>
    intro rest
    refine readNegation_atomic ?_ (ih rest)
    rcases List.exists_cons_of_ne_nil derived.nonempty with ⟨token, others, rfl⟩
    exact unsigned
  | not mathematical _ ih =>
    intro rest
    exact readNegation_not mathematical (ih rest)
  | parens opening closing _ ih =>
    intro rest
    rw [List.cons_append, List.append_assoc]
    exact readAtomic_parens opening closing (ih _ rfl)
  | quantified restricted _ ih =>
    intro rest
    exact readAtomic_quantified restricted (ih rest)
  | applied read => exact fun rest => readAtomic_applied read
  | operand plain => exact fun rest => readAtomic_operand plain

theorem Derives.takes (derived : Derives restriction .implication before tokens formula after) :
    Takes (readImplication restriction tokens) before formula [] after := by
  have taken := derived.complete [] rfl
  rwa [List.append_nil] at taken

theorem Derives.unique {other : Formula} {after' : Vocabulary}
    (derived : Derives restriction .implication before tokens formula after)
    (derived' : Derives restriction .implication before tokens other after') :
    formula = other ∧ after = after' := by
  rcases derived.takes with ⟨_, given⟩
  rcases derived'.takes with ⟨_, given'⟩
  rcases given.unique given' with ⟨same, later⟩
  exact ⟨congrArg Taken.formula same, later⟩

/-- A whole text is read as the formula that its tokens derive. -/
theorem gives_readWhole {text : List Char} :
    Gives (readWhole restriction text) before formula after ↔
      ∃ tokens, scan .plain text = .ok tokens ∧
        Derives restriction .implication before tokens formula after := by
  unfold readWhole
  constructor
  · intro given
    rcases gives_bind.mp given with ⟨tokens, between, scanned, given⟩
    rcases gives_liftExcept.mp scanned with ⟨found, rfl⟩
    refine ⟨tokens, found, ?_⟩
    split at given
    · rcases gives_bind.mp given with ⟨_, _, impossible, _⟩
      exact absurd impossible not_gives_throw
    · rcases gives_bind.mp given with ⟨whole, later, read, ended⟩
      rcases (sound tokens).implication read with ⟨front, same, derived⟩
      split at ended
      · next nothing =>
        rcases gives_pure.mp ended with ⟨rfl, rfl⟩
        rw [nothing, List.append_nil] at same
        exact same ▸ derived
      · exact absurd ended not_gives_throw
  · rintro ⟨tokens, scanned, derived⟩
    refine gives_bind.mpr ⟨tokens, before, gives_liftExcept.mpr ⟨scanned, rfl⟩, ?_⟩
    rcases derived.takes with ⟨_, given⟩
    rcases List.exists_cons_of_ne_nil derived.nonempty with ⟨token, others, rfl⟩
    exact gives_bind.mpr ⟨_, after, given, gives_pure.mpr ⟨rfl, rfl⟩⟩

end Derivations

def noRestriction : List Char -> Vocabulary -> Except ParseError Formula :=
  fun _ _ => .error .expectedFormula

theorem readRestriction_eq_ok_iff {text : List Char} {vocabulary : Vocabulary}
    {formula : Formula} : readRestriction text vocabulary = .ok formula ↔
      ∃ tokens after, scan .plain text = .ok tokens ∧
        Derives noRestriction .implication vocabulary tokens formula after := by
  constructor
  · intro read
    have given : Gives (readWhole noRestriction text) vocabulary formula
        ((readWhole noRestriction text).run vocabulary).2 := Prod.ext read rfl
    rcases gives_readWhole.mp given with ⟨tokens, scanned, derived⟩
    exact ⟨tokens, _, scanned, derived⟩
  · rintro ⟨tokens, after, scanned, derived⟩
    exact congrArg Prod.fst (gives_readWhole.mpr ⟨tokens, scanned, derived⟩)

end Grammar

open Grammar

/-- What is read from a text depends on whether there is a turnstile. -/
theorem gives_readSentence {text : List Char} {sentence : Sentence} {after : Vocabulary} :
    Gives (readSentence text) {} sentence after ↔
      (hasTurnstile text = true ∧ ∃ inference, Gives (readInference text) {} inference after ∧
        .inference inference = sentence) ∨
      (hasTurnstile text = false ∧ ∃ formula, Gives (readFormula text) {} formula after ∧
        .formula formula = sentence) := by
  unfold readSentence
  cases hasTurnstile text <;> simp [-bind_pure_comp, gives_map]

/-- A text without a turnstile is read as the formula that its tokens derive. -/
theorem Formula.parse_eq_ok_iff {text : String} {formula : Formula} :
    Formula.parse text = .ok formula ↔ hasTurnstile text.toList = false ∧
      ∃ tokens after, scan .plain text.toList = .ok tokens ∧
        Derives readRestriction .implication {} tokens formula after := by
  rw [Formula.parse]
  constructor
  · intro read
    split at read
    · next outcome =>
      cases read
      rcases gives_readSentence.mp (Prod.ext outcome rfl) with
        ⟨_, _, _, impossible⟩ | ⟨unturned, _, given, same⟩
      · cases impossible
      · cases same
        rcases gives_readWhole.mp given with ⟨tokens, scanned, derived⟩
        exact ⟨unturned, tokens, _, scanned, derived⟩
    · cases read
    · cases read
  · rintro ⟨unturned, tokens, after, scanned, derived⟩
    have given := gives_readWhole.mpr ⟨tokens, scanned, derived⟩
    rw [gives_readSentence.mpr (.inr ⟨unturned, formula, given, rfl⟩)]

theorem Grammar.Derives.parse_eq {tokens : List Token} {formula : Formula} {after : Vocabulary}
    (derived : Derives readRestriction .implication {} tokens formula after) {text : String}
    (scanned : scan .plain text.toList = .ok tokens)
    (noTurnstile : hasTurnstile text.toList = false) : Formula.parse text = .ok formula :=
  Formula.parse_eq_ok_iff.mpr ⟨noTurnstile, tokens, after, scanned, derived⟩

end WeakKleene
