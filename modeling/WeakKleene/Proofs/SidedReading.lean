import Mathlib.Data.List.TakeDrop
import WeakKleene.Proofs.SidedDerivations
import WeakKleene.Proofs.TextTokens

namespace WeakKleene
variable {term : Term}

namespace Grammar

/-!
# Formulas over bilateral predicates, as they are read

What stands in parentheses behind a name ends at the first closing one, and the
scanner promises no more about it.  Arguments may hold stars, blanks and opening
parentheses, and a star among them makes everything in front of it the name of
a starred predicate.

It is enough to tell the atomic parts of a formula from their written form,
and their denials as well.  So every formula without quantifiers that is read
can be compared by the text of its bilateral form.
-/

open Tableau (exists_of_bind_eq_ok)

/-! ## Arguments -/

/-- A term has the name that was read, and its first letter tells whether it is a variable. -/
theorem sidedArgument_eq_ok {name : List Char} (made : sidedArgument name = .ok term) :
    term.name.toList = name ∧ Text.startsUpper name = !term.isConst := by
  cases name with
  | nil => cases made
  | cons c rest =>
    rw [sidedArgument] at made
    split at made
    · next upper =>
      cases made
      exact ⟨String.toList_ofList, upper⟩
    · next lower =>
      cases made
      exact ⟨String.toList_ofList, Bool.eq_false_iff.mpr lower⟩

def hasBlank (args : List Char) : Bool :=
  !args.isEmpty && (commaPieces args).any fun piece => (Text.trim piece).isEmpty

def listedTerms (args : List Char) : List Term :=
  if args.isEmpty then []
  else (commaPieces args).map fun piece => termNamed Text.startsUpper (Text.trim piece)

theorem sidedArgument_eq (name : List Char) :
    sidedArgument name = if name.isEmpty then .error .blankArgument
      else .ok (termNamed Text.startsUpper name) := by
  cases name with
  | nil => rfl
  | cons c rest =>
    rw [sidedArgument, termNamed, Text.startsUpper]
    split <;> rfl

theorem sidedArguments_eq (args : List Char) :
    sidedArguments args = if hasBlank args then .error .blankArgument
      else .ok (listedTerms args) := by
  have each (pieces : List (List Char)) :
      (pieces.mapM fun piece => sidedArgument (Text.trim piece)) =
        if pieces.any fun piece => (Text.trim piece).isEmpty then .error .blankArgument
        else .ok (pieces.map fun piece => termNamed Text.startsUpper (Text.trim piece)) := by
    induction pieces with
    | nil => rfl
    | cons piece pieces ih =>
      rw [List.mapM_cons, ih, sidedArgument_eq, List.any_cons, List.map_cons]
      cases (Text.trim piece).isEmpty with
      | true => rfl
      | false => cases pieces.any fun piece => (Text.trim piece).isEmpty <;> rfl
  unfold sidedArguments hasBlank listedTerms
  cases args.isEmpty with
  | true => rfl
  | false => exact each (commaPieces args)

variable {args : List Char} {terms : List Term} {formula : Formula}

theorem sidedArguments_eq_ok_iff :
    sidedArguments args = .ok terms ↔ hasBlank args = false ∧ listedTerms args = terms := by
  rw [sidedArguments_eq]
  cases hasBlank args with
  | true =>
    constructor
    · intro impossible
      cases impossible
    · rintro ⟨impossible, _⟩
      cases impossible
  | false => exact ⟨fun done => ⟨rfl, Except.ok.inj done⟩, fun done => congrArg Except.ok done.2⟩

/-- Each term is a piece of the arguments. -/
theorem piece_of_sidedArguments (read : sidedArguments args = .ok terms) (listed : term ∈ terms) :
    ∃ piece, piece ∈ commaPieces args ∧ sidedArgument (Text.trim piece) = .ok term := by
  rw [sidedArguments] at read
  split at read
  · cases read
    cases listed
  · exact (Tableau.mem_of_mapM read).1 term listed

theorem sidedArguments_subset (read : sidedArguments args = .ok terms) :
    forall term, term ∈ terms -> term.name.toList ⊆ args := by
  intro term listed
  rcases piece_of_sidedArguments read listed with ⟨piece, inPieces, made⟩
  rw [(sidedArgument_eq_ok made).1]
  have within : piece ⊆ [','].intercalate (commaPieces args) :=
    (Formula.infix_intercalate inPieces).subset
  rw [commaPieces, List.intercalate_splitOn] at within
  exact List.Subset.trans (dropWhile_both_subset _ _) within

theorem sidedArguments_separated (read : sidedArguments args = .ok terms) :
    forall term, term ∈ terms -> ',' ∉ term.name.toList := by
  intro term listed
  rcases piece_of_sidedArguments read listed with ⟨piece, inPieces, made⟩
  rw [(sidedArgument_eq_ok made).1]
  exact fun member =>
    separated_of_mem_commaPieces inPieces (dropWhile_both_subset _ _ member)

/-! ## Atomic parts -/

section Tokens

variable {token : Token} {name args : List Char} {terms : List Term}

theorem not_mem_of_subset {text inner : List Char} {c : Char} (absent : c ∉ text)
    (within : inner ⊆ text) : c ∉ inner :=
  fun member => absent (within member)

theorem telling_starredParts (formed : token.Formed)
    (found : starredParts? token = some (name, args)) (read : sidedArguments args = .ok terms) :
    Formula.Telling (.sided (String.ofList name) terms true) := by
  have taken := sidedArguments_subset read
  cases token with
  | starred word inside =>
    cases found
    rcases formed with ⟨isWord, open_end⟩
    refine Formula.telling_denial 0 (Formula.starrable_name isWord.plain) (by simp) ?_
    intro term listed
    exact not_mem_of_subset open_end
      (List.Subset.trans (taken term listed) (dropWhile_both_subset _ _))
  | applied word inside =>
    rcases formed with ⟨isWord, open_end⟩
    simp only [starredParts?, List.span_eq_takeWhile_dropWhile] at found
    split at found
    · cases found
      have kept : forall c, c ∈ inside.takeWhile (· != '*') ->
          Formula.Zone.opened.keeps c = true := by
        intro c member
        have unstarred : c ≠ '*' := by simpa using List.mem_takeWhile_imp member
        have inner : c ≠ ')' := by
          rintro rfl
          exact open_end (List.takeWhile_subset _ member)
        simp [Formula.Zone.keeps, unstarred, inner]
      refine Formula.telling_denial 0
        (Formula.starrable_opened isWord.nonempty isWord.plain kept) (by simp) ?_
      intro term listed
      have within : trimParens ((inside.dropWhile (· != '*')).drop 1) ⊆ inside :=
        List.Subset.trans (dropWhile_both_subset _ _)
          (List.Subset.trans (List.drop_subset 1 _) (List.dropWhile_subset _))
      exact not_mem_of_subset open_end (List.Subset.trans (taken term listed) within)
    · cases found
  | word | mark | quantifier => cases found

theorem telling_denied_token (formed : token.Formed)
    (found : predicateToken? token = some (name, args)) (read : sidedArguments args = .ok terms) :
    Formula.Telling (.sided (String.ofList name) terms true) := by
  have taken := sidedArguments_subset read
  rw [predicateToken?] at found
  split at found
  · cases token with
    | word word =>
      cases found
      refine Formula.telling_denial 0 (Formula.starrable_name formed.plain) (by simp) ?_
      intro term listed
      exact not_mem_of_subset List.not_mem_nil (taken term listed)
    | applied word inside =>
      cases found
      refine Formula.telling_denial 0 (Formula.starrable_name formed.1.plain) (by simp) ?_
      intro term listed
      exact not_mem_of_subset formed.2 (taken term listed)
    | starred word inside =>
      cases found
      refine Formula.telling_denial 1 (Formula.starrable_name formed.1.plain) (by simp) ?_
      intro term listed
      exact not_mem_of_subset formed.2 (taken term listed)
    | mark | quantifier => cases found
  · cases found

theorem telling_plain_token (formed : token.Formed) (unstarred : starredParts? token = none)
    (found : predicateToken? token = some (name, args)) (read : sidedArguments args = .ok terms) :
    Formula.Telling (.sided (String.ofList name) terms false) := by
  have taken := sidedArguments_subset read
  rw [predicateToken?] at found
  split at found
  · cases token with
    | word word =>
      cases found
      refine (Formula.telling_predicate formed.identifier ?_).2
      intro term listed c member
      exact absurd (taken term listed member) List.not_mem_nil
    | applied word inside =>
      cases found
      refine (Formula.telling_predicate formed.1.identifier ?_).2
      intro term listed c member
      have inside := taken term listed member
      simp only [starredParts?, ite_eq_right_iff, reduceCtorEq, imp_false,
        List.contains_eq_mem, decide_eq_true_eq] at unstarred
      exact ⟨fun equal => formed.2 (equal ▸ inside), fun equal => unstarred (equal ▸ inside)⟩
    | starred word inside => cases unstarred
    | mark | quantifier => cases found
  · cases found

theorem telling_atom_token (formed : token.Formed) (unstarred : starredParts? token = none)
    (lower : Text.startsLower token.source = true) : Formula.Telling (.atom token.text) := by
  apply Formula.telling_atom
  rw [Token.text, String.toList_ofList]
  cases token with
  | mark which mathematical =>
    exact absurd lower (by cases which <;> cases mathematical <;> decide +kernel)
  | word word =>
    refine Formula.legible_name fun c member => ?_
    have excluded := IsWord.plain formed c member
    simp only [List.mem_cons, List.not_mem_nil, or_false, not_or] at excluded
    simp [excluded]
  | applied word inside =>
    simp only [starredParts?, ite_eq_right_iff, reduceCtorEq, imp_false,
      List.contains_eq_mem, decide_eq_true_eq] at unstarred
    refine Formula.legible_parens formed.1.nonempty formed.1.plain ?_
    intro c member
    have kept : c ≠ ')' ∧ c ≠ '*' :=
      ⟨fun equal => formed.2 (equal ▸ member), fun equal => unstarred (equal ▸ member)⟩
    simp [Formula.Zone.keeps, kept]
  | starred word inside => cases unstarred
  | quantifier quantifier var restriction source =>
    cases source with
    | nil => cases lower
    | cons c rest =>
      cases formed.2
      have bracket : Text.isLowerChar '[' = true := lower
      exact absurd bracket (by decide)

end Tokens

/-! ## Formulas -/

/-- The arguments of a predicate are read from a text. -/
def Sourced (formula : Formula) : Prop :=
  forall args, formula.arguments? = some args -> ∃ text, sidedArguments text = .ok args

theorem sourced_of_no_arguments (none : formula.arguments? = none) : Sourced formula := by
  intro args found
  rw [none] at found
  cases found

theorem sourced_sided {name : List Char} (starred : Bool) (read : sidedArguments args = .ok terms) :
    Sourced (.sided (String.ofList name) terms starred) := by
  rintro _ ⟨⟩
  exact ⟨args, read⟩

/-- Making predicates bilateral keeps the structure of a formula. -/
theorem MadeBilateral.proper {mode : Mode} {made : Formula}
    (sides : MadeBilateral mode formula made) (proper : formula.Proper) : made.Proper := by
  induction proper generalizing made with
  | atomic given =>
    cases sides with
    | atom | pred | bilateral => exact .atomic rfl
    | _ => cases given
  | neg inner ih =>
    cases sides with
    | denial => exact .atomic rfl
    | neg _ within => exact .neg (ih within)
  | join connective first second atFirst atSecond =>
    cases sides with
    | join _ left right => exact .join connective (atFirst left) (atSecond right)
  | all first second atFirst atSecond =>
    cases sides with
    | quant _ _ left right => exact .all (atFirst left) (atSecond right)
  | exist first second atFirst atSecond =>
    cases sides with
    | quant _ _ left right => exact .exist (atFirst left) (atSecond right)

theorem sideOutside_proper (proper : formula.Proper) : (sideOutside formula).Proper := by
  induction proper with
  | @atomic formula given =>
    cases formula with
    | atom | pred | bilateral => exact .atomic rfl
    | _ => cases given
  | @neg body inner ih =>
    cases body with
    | pred | bilateral => exact .atomic rfl
    | _ => exact .neg ih
  | join connective first second atFirst atSecond => exact .join connective atFirst atSecond
  | all first second => exact .all first second
  | exist first second => exact .exist first second

/-- A formula that is read is readable if it has no quantifiers, and its arguments are read as
well. -/
structure Read (formula : Formula) : Prop where
  proper : formula.Proper
  readable : formula.QuantifierFree -> formula.Readable
  sourced : Sourced formula

theorem Read.neg {body : Formula} (read : Read body) : Read (.neg body) where
  proper := .neg read.proper
  readable := fun free => .neg (read.readable (free.of_neg fun _ atomic => atomic))
  sourced := sourced_of_no_arguments rfl

theorem Read.join {left right : Formula} (connective : Connective) (first : Read left)
    (second : Read right) : Read (.join connective left right) where
  proper := .join connective first.proper second.proper
  readable := by
    intro free
    rcases free.of_join fun _ atomic => atomic with ⟨freeLeft, freeRight⟩
    exact .join connective (first.readable freeLeft) (second.readable freeRight)
  sourced := sourced_of_no_arguments rfl

theorem Read.basic (telling : formula.Telling) (sourced : Sourced formula) : Read formula :=
  ⟨.atomic telling.atomic, fun _ => .basic telling, sourced⟩

section Derived

variable {mode : Mode}

variable {formula : Formula} {text : List Char}

/-- By induction on the derivation: each production puts such formulas together. -/
theorem DerivesSided.read {level : Level} {tokens : List Token}
    (derived : DerivesSided mode level tokens formula)
    (formed : forall token, token ∈ tokens -> token.Formed) : Read formula := by
  induction derived with
  | disjunction _ ih | conjunction _ ih
  | negation _ ih | atomic _ _ ih => exact ih formed
  | arrow _ _ _ atFirst atSecond | or _ _ _ atFirst atSecond | and _ _ _ atFirst atSecond =>
    exact .join _ (atFirst (each_split formed).1) (atSecond (each_split formed).2)
  | not _ _ _ ih => exact .neg (ih (formed_tail formed))
  | denied _ found read =>
    have here := formed_tail formed _ List.mem_cons_self
    exact .basic (telling_denied_token here found read) (sourced_sided _ read)
  | parens _ _ _ ih => exact ih (each_split (formed_tail formed)).1
  | quantified restricted _ sidedCondition sidedBody ih =>
    have first := (madeBilateral _ sidedCondition).proper (readRestriction_proper restricted)
    have second := (madeBilateral _ sidedBody).proper (ih (formed_tail formed)).proper
    refine ⟨?_, fun free => ?_, sourced_of_no_arguments rfl⟩
    · rcases (formed _ List.mem_cons_self).1 with rfl | rfl
      · exact .all first second
      · exact .exist first second
    · cases free with
      | basic given => cases given
  | starred found _ read =>
    have here := formed _ List.mem_cons_self
    exact .basic (telling_starredParts here found read) (sourced_sided _ read)
  | plain unstarred found read =>
    have here := formed _ List.mem_cons_self
    exact .basic (telling_plain_token here unstarred found read) (sourced_sided _ read)
  | atom _ unstarred _ lower =>
    have here := formed _ List.mem_cons_self
    exact .basic (telling_atom_token here unstarred lower) (sourced_of_no_arguments rfl)

section

variable (read : readSided mode text = .ok formula)
include read

theorem readSided_read : Read formula := by
  rcases readSided_eq_ok_iff.mp read with ⟨tokens, scanned, derived⟩
  exact derived.read (scanFrom_formed scanned)

/-- A formula that is read over bilateral predicates can be told from the text of its bilateral
form, unless it has quantifiers. -/
theorem readSided_readable (free : formula.QuantifierFree) : formula.Readable :=
  (readSided_read read).readable free

theorem readSided_separated {args : List Term} (arguments : formula.arguments? = some args)
    (listed : term ∈ args) : ',' ∉ term.name.toList := by
  rcases (readSided_read read).sourced args arguments with ⟨_, made⟩
  exact sidedArguments_separated made term listed

/-- Variables start with an upper-case letter, and no constants do. -/
theorem readSided_lettered {args : List Term} (arguments : formula.arguments? = some args)
    (listed : term ∈ args) :
    Text.startsUpper term.name.toList = !term.isConst := by
  rcases (readSided_read read).sourced args arguments with ⟨_, made⟩
  rcases piece_of_sidedArguments made listed with ⟨_, _, made⟩
  rcases sidedArgument_eq_ok made with ⟨same, lettered⟩
  rwa [same]

end

/-- A rule from one predicate to another, as it is written. -/
theorem readSided_rule (kind args other : List Char) {after : Vocabulary} (isKind : IsWord kind)
    (unclosed : ')' ∉ args) (unclosed' : ']' ∉ args)
    (read : Gives (readArguments args) {} terms after) (isOther : IsWord other)
    (upper : Text.startsUpper other = true) :
    readSided mode ("[forall X ".toList ++ ((kind ++ '(' :: (args ++ [')'])) ++
        ']' :: (other ++ "(X)".toList))) =
      .ok (.quant .all "X" (.sided (String.ofList kind) terms false)
        (.sided (String.ofList other) [.var "X"] false)) := by
  have tight : Tight (kind ++ '(' :: (args ++ [')'])) :=
    isKind.tight.append ('(' :: args) (tight_singleton (by decide))
  have bracketless : ']' ∉ kind ++ '(' :: (args ++ [')']) := by
    simp [isKind.not_mem (by decide : Text.isWordChar ']' = false), unclosed']
  have restricted : readRestriction (kind ++ '(' :: (args ++ [')'])) {} =
      .ok (.pred (String.ofList kind) terms) :=
    readRestriction_eq_ok_iff.mpr ⟨_, after, ScansTo.applied isKind unclosed scansTo_nil 0,
      .disjunction (.conjunction (.negation (.atomic (.applied read) rfl)))⟩
  have found : predicateToken? (.applied other ['X']) = some (other, ['X']) := by
    rcases List.exists_cons_of_ne_nil isOther.nonempty with ⟨c, others, rfl⟩
    exact if_pos upper
  have governed : DerivesSided mode .negation [.applied other ['X']]
      (.sided (String.ofList other) [.var "X"] false) := .atomic (.plain rfl found rfl) rfl
  have behind : ScansTo .starred (other ++ "(X)".toList) [.applied other ['X']] :=
    .applied isOther (by decide : ')' ∉ ['X']) scansTo_nil
  rcases behind.universal tight bracketless with ⟨source, scanned⟩
  exact readSided_eq_ok_iff.mpr ⟨_, scanned 0,
    (DerivesSided.quantified restricted governed rfl rfl).whole rfl⟩

end Derived

end Grammar

open Grammar

/-- A formula that is read from a text, in one of the ways that there are. -/
def Formula.Written (formula : Formula) : Prop :=
  ∃ text, Formula.parse text = .ok formula ∨ ∃ mode, Formula.parseSided mode text = .ok formula ∨
      Formula.parseThenSide mode text = .ok formula

theorem Formula.Written.proper {formula : Formula} (written : formula.Written) :
    formula.Proper := by
  rcases written with ⟨text, plain | ⟨mode, sided | outside⟩⟩
  · exact Formula.parse_proper plain
  · exact (readSided_read sided).proper
  · rcases Tableau.exists_of_bind_eq_ok outside with ⟨plain, read, made⟩
    have proper := Formula.parse_proper read
    cases mode <;> cases made
    · exact sideOutside_proper proper
    · exact proper
    · exact proper

end WeakKleene
