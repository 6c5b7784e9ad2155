import WeakKleene.Proofs.SidedReading

namespace WeakKleene
namespace Grammar

/-!
# Why a text with stars is not read

Of all that can go wrong while a text with stars is read, only a blank argument
is not told as a parse error.  So the readers fail with parse errors alone on
tokens without blank arguments.  That is shown for all of them together, by
induction on the number of tokens.
-/

variable {α β : Type} {mode : Mode} {tokens : List Token}

def OnlyParse (outcome : Except Fault α) : Prop :=
  forall fault, outcome = .error fault -> ∃ error, fault = .parse error

theorem onlyParse_ok {value : α} : OnlyParse (.ok value : Except Fault α) := by
  intro fault impossible
  cases impossible

theorem onlyParse_error {error : ParseError} :
    OnlyParse (.error (.parse error) : Except Fault α) := by
  intro fault same
  cases same
  exact ⟨error, rfl⟩

theorem onlyParse_asFault (result : Except ParseError α) : OnlyParse (asFault result) := by
  cases result with
  | error error => exact onlyParse_error
  | ok value => exact onlyParse_ok

theorem OnlyParse.bind {first : Except Fault α} {next : α -> Except Fault β}
    (atFirst : OnlyParse first)
    (further : forall value, first = .ok value -> OnlyParse (next value)) :
    OnlyParse (first >>= next) := by
  cases first with
  | error fault =>
    intro fault' same
    cases same
    exact atFirst fault rfl
  | ok value => exact further value rfl

/-- A token whose arguments are not blank, however they are read. -/
def Token.Filled (token : Token) : Prop :=
  forall parts, starredParts? token = some parts ∨ predicateToken? token = some parts ->
    hasBlank parts.2 = false

theorem onlyParse_sidedArguments {args : List Char} (filled : hasBlank args = false) :
    OnlyParse (sidedArguments args) := by
  rw [sidedArguments_eq, if_neg (Bool.eq_false_iff.mp filled)]
  exact onlyParse_ok

structure OnlyParses (mode : Mode) (tokens : List Token) : Prop where
  negation : OnlyParse (sidedNegation mode tokens)
  implication : OnlyParse (sidedImplication mode tokens)

/-- The readers of starred text fail with parse errors only on shorter lists of these tokens. -/
def OnlyParsesBelow (mode : Mode) (tokens : List Token) : Prop :=
  forall other : List Token, other.length < tokens.length -> other ⊆ tokens -> OnlyParses mode other

theorem FindsSided.subset {level : Level} {outcome : Except Fault (Taken tokens)}
    (found : FindsSided mode level outcome) {taken : Taken tokens} (given : outcome = .ok taken) :
    taken.rest ⊆ tokens := by
  rcases found given with ⟨front, same, _⟩
  exact fun token member => same ▸ List.mem_append_right front member

section Chains

variable {sign : Token -> Bool} {connective : Connective}
variable {part : (tokens : List Token) -> Except Fault (Taken tokens)}
variable {loop : Formula -> (tokens : List Token) -> Except Fault (Extended tokens)}
variable {whole : (tokens : List Token) -> Except Fault (Taken tokens)}
variable (chain : Chain sign connective part loop whole)
variable (leaves : forall {other : List Token} {taken : Taken other},
  part other = .ok taken -> taken.rest ⊆ other)
variable (parts : forall other : List Token, other.length ≤ tokens.length -> other ⊆ tokens ->
  OnlyParse (part other))
include chain leaves parts

/-- By induction on the number of tokens. -/
theorem Chain.onlyParse_loop (left : Formula) : OnlyParse (loop left tokens) := by
  induction size : tokens.length using Nat.strongRecOn generalizing tokens left with
  | ind size ih =>
    cases ends : tokens.head?.any sign with
    | false =>
      rw [chain.loop_end left tokens ends]
      exact onlyParse_ok
    | true =>
      rcases tokens with _ | ⟨token, tokens⟩
      · cases ends
      · rw [chain.loop_sign left token tokens ends]
        refine (parts tokens (Nat.le_succ _) (List.subset_cons_self _ _)).bind
          fun next atNext => ?_
        have shorter := next.shorter
        rw [List.length_cons] at size
        refine (ih next.rest.length (by omega) (fun other bound within => ?_) _ rfl).bind
          fun _ _ => onlyParse_ok
        exact parts other (by rw [List.length_cons]; omega)
          (List.subset_cons_of_subset _ (List.Subset.trans within (leaves atNext)))

theorem Chain.onlyParse_whole : OnlyParse (whole tokens) := by
  rw [chain.whole_eq]
  refine (parts tokens (Nat.le_refl _) (List.Subset.refl _)).bind fun first atFirst => ?_
  refine (chain.onlyParse_loop leaves (fun other bound within => ?_) first.formula).bind
    fun _ _ => onlyParse_ok
  exact parts other (Nat.le_trans bound (Nat.le_of_lt first.shorter))
    (List.Subset.trans within (leaves atFirst))

end Chains

section

variable (below : OnlyParsesBelow mode tokens)
variable (filled : forall token, token ∈ tokens -> token.Filled)
include below filled

theorem sidedAtomic_onlyParse : OnlyParse (sidedAtomic mode tokens) := by
  unfold sidedAtomic
  split
  · exact onlyParse_error
  · next opening rest =>
    have inner := below rest (Nat.lt_succ_self _) (List.subset_cons_self _ _)
    refine inner.implication.bind fun inside _ => ?_
    split
    · exact onlyParse_ok
    · exact onlyParse_error
  · next rest =>
    have inner := below rest (Nat.lt_succ_self _) (List.subset_cons_self _ _)
    exact (onlyParse_asFault _).bind fun _ _ => inner.negation.bind fun _ _ =>
      (onlyParse_asFault _).bind fun _ _ => (onlyParse_asFault _).bind fun _ _ => onlyParse_ok
  · next token rest _ _ =>
    have here := filled token List.mem_cons_self
    split
    · next found =>
      split
      · exact onlyParse_error
      · exact (onlyParse_sidedArguments (here _ (.inl found))).bind fun _ _ => onlyParse_ok
    · next found =>
      exact (onlyParse_sidedArguments (here _ (.inr found))).bind fun _ _ => onlyParse_ok
    · split
      · exact onlyParse_ok
      · exact onlyParse_error

theorem sidedNegation_onlyParse : OnlyParse (sidedNegation mode tokens) := by
  unfold sidedNegation
  split
  · next mathematical rest =>
    have inner := below rest (Nat.lt_succ_self _) (List.subset_cons_self _ _)
    cases rest with
    | nil => exact inner.negation.bind fun _ _ => onlyParse_ok
    | cons token rest =>
      have here := filled token (List.mem_cons_of_mem _ List.mem_cons_self)
      cases found : predicateToken? token with
      | none =>
        simp only [List.head?_cons, Option.bind_some, found]
        exact inner.negation.bind fun _ _ => onlyParse_ok
      | some parts =>
        simp only [List.head?_cons, Option.bind_some, found]
        exact (onlyParse_sidedArguments (here _ (.inr found))).bind fun _ _ =>
          (onlyParse_asFault _).bind fun _ _ => onlyParse_ok
  · exact sidedAtomic_onlyParse below filled

theorem sidedDisjunction_onlyParse : OnlyParse (sidedDisjunction mode tokens) := by
  have negations (other : List Token) (bound : other.length ≤ tokens.length)
      (within : other ⊆ tokens) : OnlyParse (sidedNegation mode other) :=
    sidedNegation_onlyParse
      (fun inner shorter inside => below inner (Nat.lt_of_lt_of_le shorter bound)
        (List.Subset.trans inside within))
      fun token member => filled token (within member)
  exact (chain_sidedDisjunction mode).onlyParse_whole
    (fun given => (sidedConjunction_finds fun other _ => (soundSided other).negation).subset given)
    fun other bound within => (chain_sidedConjunction mode).onlyParse_whole
      (fun given => (soundSided _).negation.subset given)
      fun inner bound' within' => negations inner (Nat.le_trans bound' bound)
        (List.Subset.trans within' within)

theorem sidedImplication_onlyParse : OnlyParse (sidedImplication mode tokens) := by
  unfold sidedImplication
  refine (sidedDisjunction_onlyParse below filled).bind fun left atLeft => ?_
  have within := (sidedDisjunction_sound fun other _ => soundSided other).subset atLeft
  have shorter := left.shorter
  split
  · next mathematical rest found =>
    rw [found] at within shorter
    have behind := below rest (Nat.lt_of_succ_lt shorter)
      fun token member => within (List.mem_cons_of_mem _ member)
    exact behind.implication.bind fun _ _ => onlyParse_ok
  · exact onlyParse_ok

end

/-- A fault in the first atomic formula is the fault of the whole. -/
theorem sidedImplication_error {fault : Fault}
    (unsigned : tokens.head?.any Token.isNegation = false)
    (failed : sidedAtomic mode tokens = .error fault) :
    sidedImplication mode tokens = .error fault := by
  have negation : sidedNegation mode tokens = .error fault := by
    unfold sidedNegation
    split
    · cases unsigned
    · exact failed
  rw [sidedImplication, sidedDisjunction, sidedConjunction, negation]
  rfl

/-- By induction on the number of tokens, as for what the readers find. -/
theorem onlyParses (tokens : List Token) (filled : forall token, token ∈ tokens -> token.Filled) :
    OnlyParses mode tokens := by
  induction size : tokens.length using Nat.strongRecOn generalizing tokens with
  | ind size ih =>
    have below : OnlyParsesBelow mode tokens := fun other shorter within =>
      ih other.length (by omega) other (fun token member => filled token (within member)) rfl
    exact {
      negation := sidedNegation_onlyParse below filled
      implication := sidedImplication_onlyParse below filled }

theorem onlyParse_readSided {text : List Char}
    (filled : forall tokens, scan .starred text = .ok tokens ->
      forall token, token ∈ tokens -> token.Filled) : OnlyParse (readSided mode text) := by
  unfold readSided
  refine (onlyParse_asFault _).bind fun tokens scanned => ?_
  split
  · exact onlyParse_error
  · refine (onlyParses tokens (filled tokens (asFault_eq_ok scanned))).implication.bind
      fun whole _ => ?_
    split
    · exact onlyParse_ok
    · exact onlyParse_error

end Grammar
end WeakKleene
