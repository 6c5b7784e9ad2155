import Mathlib.Data.List.Forall2
import WeakKleene.Proofs.Arguments

namespace WeakKleene

/-!
# The formulas of an inference, read together and alone

The formulas of an inference share one vocabulary, from left to right.  Whether a
text is read at all does not depend on the vocabulary, but which terms are
variables does: a name that a quantifier has bound stays a variable in all that
follows.  So each formula of an inference is the one that its piece of the
text gives alone, except that constants become variables if their names are bound
further in front.
-/

/-! ## Bound names -/

def Term.vary (names : List String) : Term -> Term
  | .const name => if names.contains name then .var name else .const name
  | .var name => .var name

variable {formulas : List Formula}

namespace Formula

mutual

/-- The names that quantifiers bind, those inside restrictions apart. -/
def binders : Formula -> List String
  | atom _ | pred .. | bilateral .. => []
  | neg body => body.binders
  | join _ left right => left.binders ++ right.binders
  | quant _ var _ matrix => var :: matrix.binders
  | irregular _ parts => bindersAmong parts

def bindersAmong : List Formula -> List String
  | [] => []
  | part :: rest => part.binders ++ bindersAmong rest

end

mutual

def vary (names : List String) : Formula -> Formula
  | atom name => atom name
  | pred name args => pred name (args.map (Term.vary names))
  | bilateral name args starName starred =>
    bilateral name (args.map (Term.vary names)) starName starred
  | neg body => neg (body.vary names)
  | join connective left right => join connective (left.vary names) (right.vary names)
  | quant quantifier var restriction matrix =>
    quant quantifier var (restriction.vary names) (matrix.vary names)
  | irregular symbol parts => irregular symbol (varyAll names parts)

def varyAll (names : List String) : List Formula -> List Formula
  | [] => []
  | part :: rest => part.vary names :: varyAll names rest

end

/-- Formulas in a row, where each one captures its bound names in those behind it. -/
def captured (names : List String) : List Formula -> List Formula
  | [] => []
  | formula :: rest => formula.vary names :: captured (names ++ formula.binders) rest

/-- No quantifier of the first formula binds a name that is a constant in the second. -/
def Spares (first second : Formula) : Prop :=
  forall name, name ∈ first.binders -> name ∉ second.constants

section Names

variable {names : List String} {formula : Formula}

theorem binders_vary (proper : formula.Proper) :
    (formula.vary names).binders = formula.binders := by
  induction proper with
  | @atomic formula atomic =>
    cases formula with
    | atom | pred | bilateral => rfl
    | _ => cases atomic
  | neg inner ih => exact ih
  | join connective first second atFirst atSecond => rw [vary, binders, binders, atFirst, atSecond]
  | all first second atFirst atSecond | exist first second atFirst atSecond =>
    rw [vary, binders, binders, atSecond]

theorem vary_const_eq_self_iff {name : String} :
    (Term.const name).vary names = .const name ↔ name ∉ names := by
  rw [Term.vary, List.contains_eq_mem]
  by_cases member : name ∈ names <;> simp [member]

theorem map_vary_eq_self_iff {args : List Term} : args.map (Term.vary names) = args ↔
      forall name, name ∈ names -> name ∉ (args.filter Term.isConst).map Term.name := by
  induction args with
  | nil => simp
  | cons term args ih =>
    rw [List.map_cons, List.cons.injEq, ih]
    cases term with
    | var name =>
      have kept : (Term.var name).vary names = .var name := rfl
      have skipped : (Term.var name).isConst = false := rfl
      rw [List.filter_cons_of_neg (Bool.eq_false_iff.mp skipped)]
      exact and_iff_right kept
    | const name =>
      have listed : (Term.const name).isConst = true := rfl
      rw [vary_const_eq_self_iff, List.filter_cons_of_pos listed, List.map_cons]
      constructor
      · rintro ⟨fresh, others⟩ other bound member
        rcases List.mem_cons.mp member with same | inside
        · have renamed : other = name := same
          exact fresh (renamed ▸ bound)
        · exact others other bound inside
      · intro apart
        exact ⟨fun bound => apart name bound List.mem_cons_self,
          fun other bound inside => apart other bound (List.mem_cons_of_mem _ inside)⟩

/-- A formula stays as it is exactly if none of the names is a constant in it. -/
theorem vary_eq_self_iff (proper : formula.Proper) :
    formula.vary names = formula ↔ forall name, name ∈ names -> name ∉ formula.constants := by
  have both {left right : Formula}
      (atLeft : left.vary names = left ↔ forall name, name ∈ names -> name ∉ left.constants)
      (atRight : right.vary names = right ↔ forall name, name ∈ names -> name ∉ right.constants) :
      left.vary names = left ∧ right.vary names = right ↔
        forall name, name ∈ names -> name ∉ left.constants ++ right.constants := by
    simp only [atLeft, atRight, List.mem_append, not_or, forall_and]
  induction proper with
  | @atomic formula atomic =>
    cases formula with
    | atom => simp [vary, constants]
    | pred name args =>
      rw [vary, pred.injEq, constants, <- map_vary_eq_self_iff]
      exact and_iff_right rfl
    | bilateral name args starName starred =>
      rw [vary, bilateral.injEq, constants, <- map_vary_eq_self_iff]
      simp
    | _ => cases atomic
  | neg inner ih =>
    rw [vary, neg.injEq]
    exact ih
  | join connective first second atFirst atSecond =>
    rw [vary, join.injEq, constants, <- both atFirst atSecond]
    exact and_iff_right rfl
  | all first second atFirst atSecond | exist first second atFirst atSecond =>
    rw [vary, quant.injEq, constants, <- both atFirst atSecond]
    simp

theorem captured_append (names : List String) (formulas others : List Formula) :
    captured names (formulas ++ others) =
      captured names formulas ++ captured (names ++ formulas.flatMap binders) others := by
  induction formulas generalizing names with
  | nil => rw [List.nil_append, captured, List.nil_append, List.flatMap_nil, List.append_nil]
  | cons formula formulas ih =>
    rw [List.cons_append, captured, captured, ih, List.cons_append,
      List.flatMap_cons, List.append_assoc]

/-- Formulas in a row stay as they are exactly if none of the names is a constant in them, and
each one spares those behind it. -/
theorem captured_eq_self_iff (proper : forall formula, formula ∈ formulas -> formula.Proper) :
    captured names formulas = formulas ↔
      (forall formula, formula ∈ formulas -> forall name, name ∈ names ->
        name ∉ formula.constants) ∧ formulas.Pairwise Spares := by
  induction formulas generalizing names with
  | nil => simp [captured]
  | cons formula formulas ih =>
    have here := proper formula List.mem_cons_self
    have behind := fun other listed => proper other (List.mem_cons_of_mem _ listed)
    rw [captured, List.cons.injEq, vary_eq_self_iff here, ih behind,
      List.pairwise_cons, List.forall_mem_cons]
    simp only [List.mem_append, or_imp, forall_and, Spares]
    tauto

end Names

end Formula

namespace Grammar

/-! ## Vocabularies -/

/-- The second vocabulary knows the given names as variables, and apart from them it agrees with
the first one. -/
def Vocabulary.Widens (names : List String) (narrow wide : Vocabulary) : Prop :=
  forall name, wide.isVariable name =
    (narrow.isVariable name || names.contains (String.ofList name))

section Widening

variable {names others : List String} {narrow between wide : Vocabulary}

theorem widens_nil (same : wide.isVariable = narrow.isVariable) : narrow.Widens [] wide := by
  intro name
  rw [same]
  exact (Bool.or_false _).symm

theorem Vocabulary.Widens.trans (first : narrow.Widens names between)
    (second : between.Widens others wide) : narrow.Widens (names ++ others) wide := by
  intro name
  rw [second, first, List.contains_append, Bool.or_assoc]

/-- Both vocabularies may get the same names besides. -/
theorem Vocabulary.Widens.addVariable (widens : narrow.Widens names wide) (var : List Char) :
    (narrow.addVariable (String.ofList var)).Widens names
      (wide.addVariable (String.ofList var)) := by
  intro name
  rw [isVariable_addVariable, isVariable_addVariable, widens, Bool.or_right_comm]

theorem widens_addVariable (vocabulary : Vocabulary) (var : List Char) :
    vocabulary.Widens [String.ofList var] (vocabulary.addVariable (String.ofList var)) := by
  intro name
  rw [Vocabulary.isVariable_addVariable, List.contains_cons, List.contains_nil, Bool.or_false]
  congr 1
  rw [Bool.eq_iff_iff, decide_eq_true_eq, beq_iff_eq, String.ofList_inj]

theorem termNamed_widens (widens : narrow.Widens names wide) (name : List Char) :
    termNamed wide.isVariable name = (termNamed narrow.isVariable name).vary names := by
  rw [termNamed, termNamed, widens]
  cases narrow.isVariable name with
  | true => rfl
  | false => rfl

def argumentNames (args : List Char) : List (List Char) :=
  if args.isEmpty then [] else (commaPieces args).map Text.trim

theorem gives_argumentNames {args : List Char} {before after : Vocabulary} {terms : List Term} :
    Gives (readArguments args) before terms after ↔
      terms = (argumentNames args).map (termNamed before.isVariable) ∧
        after = (argumentNames args).foldl Vocabulary.add before := by
  cases args with
  | nil =>
    rw [show readArguments [] = pure [] from rfl, gives_pure]
    exact and_congr eq_comm eq_comm
  | cons c rest => exact gives_readArguments (List.cons_ne_nil c rest)

end Widening

/-! ## Formulas in another vocabulary -/

section Derivations

variable {restriction : List Char -> Vocabulary -> Except ParseError Formula}
variable {level : Level} {before after : Vocabulary} {tokens : List Token} {formula : Formula}

theorem Derives.widens (derived : Derives restriction level before tokens formula after) :
    before.Widens formula.binders after := by
  induction derived with
  | disjunction _ ih | conjunction _ ih
  | negation _ ih | atomic _ _ ih
  | not _ _ ih | parens _ _ _ ih => exact ih
  | arrow _ _ _ atFirst atSecond | or _ _ _ atFirst atSecond | and _ _ _ atFirst atSecond =>
    exact atFirst.trans atSecond
  | @quantified before _ _ var _ _ _ _ _ _ _ ih => exact (widens_addVariable before var).trans ih
  | applied read =>
    rcases gives_argumentNames.mp read with ⟨_, rfl⟩
    exact widens_nil (Vocabulary.isVariable_foldl_add _ _)
  | operand => exact widens_nil rfl

/-- Restrictions that are read in one vocabulary are read in all others.  Where more names are
variables, the formula is the same except for these names. -/
def Movable (restriction : List Char -> Vocabulary -> Except ParseError Formula) : Prop :=
  forall scope before condition other, restriction scope before = .ok condition ->
    ∃ condition', restriction scope other = .ok condition' ∧
      forall names, before.Widens names other -> condition' = condition.vary names

/-- By induction on the derivation: the vocabulary does not matter for being read, and where it
gets wider, so do all vocabularies that follow. -/
theorem Derives.exists_at (movable : Movable restriction)
    (derived : Derives restriction level before tokens formula after) (other : Vocabulary) :
    ∃ formula' after', Derives restriction level other tokens formula' after' ∧
      forall names, before.Widens names other ->
        formula' = formula.vary names ∧ after.Widens names after' := by
  induction derived generalizing other with
  | disjunction _ ih =>
    rcases ih other with ⟨_, _, derived, same⟩
    exact ⟨_, _, .disjunction derived, same⟩
  | conjunction _ ih =>
    rcases ih other with ⟨_, _, derived, same⟩
    exact ⟨_, _, .conjunction derived, same⟩
  | negation _ ih =>
    rcases ih other with ⟨_, _, derived, same⟩
    exact ⟨_, _, .negation derived, same⟩
  | atomic _ unsigned ih =>
    rcases ih other with ⟨_, _, derived, same⟩
    exact ⟨_, _, .atomic derived unsigned, same⟩
  | parens opening closing _ ih =>
    rcases ih other with ⟨_, _, derived, same⟩
    exact ⟨_, _, .parens opening closing derived, same⟩
  | arrow _ sign _ atFirst atSecond =>
    rcases atFirst other with ⟨_, between, first, sameFirst⟩
    rcases atSecond between with ⟨_, _, second, sameSecond⟩
    refine ⟨_, _, .arrow first sign second, fun names widens => ?_⟩
    rcases sameFirst names widens with ⟨rfl, widens⟩
    rcases sameSecond names widens with ⟨rfl, widens⟩
    exact ⟨rfl, widens⟩
  | or _ sign _ atFirst atSecond =>
    rcases atFirst other with ⟨_, between, first, sameFirst⟩
    rcases atSecond between with ⟨_, _, second, sameSecond⟩
    refine ⟨_, _, .or first sign second, fun names widens => ?_⟩
    rcases sameFirst names widens with ⟨rfl, widens⟩
    rcases sameSecond names widens with ⟨rfl, widens⟩
    exact ⟨rfl, widens⟩
  | and _ sign _ atFirst atSecond =>
    rcases atFirst other with ⟨_, between, first, sameFirst⟩
    rcases atSecond between with ⟨_, _, second, sameSecond⟩
    refine ⟨_, _, .and first sign second, fun names widens => ?_⟩
    rcases sameFirst names widens with ⟨rfl, widens⟩
    rcases sameSecond names widens with ⟨rfl, widens⟩
    exact ⟨rfl, widens⟩
  | not mathematical _ ih =>
    rcases ih other with ⟨_, _, derived, same⟩
    refine ⟨_, _, .not mathematical derived, fun names widens => ?_⟩
    rcases same names widens with ⟨rfl, widens⟩
    exact ⟨rfl, widens⟩
  | @quantified _ _ _ var _ _ _ _ _ condition _ ih =>
    rcases movable _ _ _ (other.addVariable (String.ofList var)) condition with
      ⟨_, condition', sameCondition⟩
    rcases ih (other.addVariable (String.ofList var)) with ⟨_, _, governed, sameMatrix⟩
    refine ⟨_, _, .quantified condition' governed, fun names widens => ?_⟩
    have bound := widens.addVariable var
    rcases sameMatrix names bound with ⟨rfl, widens⟩
    rw [sameCondition names bound]
    exact ⟨rfl, widens⟩
  | @applied before _ _ args _ read =>
    rcases gives_argumentNames.mp read with ⟨rfl, rfl⟩
    refine ⟨_, _, .applied (gives_argumentNames.mpr ⟨rfl, rfl⟩), fun names widens => ⟨?_, ?_⟩⟩
    · rw [Formula.vary, List.map_map]
      exact congrArg _ (List.map_congr_left fun name _ => termNamed_widens widens name)
    · intro name
      rw [Vocabulary.isVariable_foldl_add, Vocabulary.isVariable_foldl_add, widens]
  | operand plain => exact ⟨_, _, .operand plain, fun names widens => ⟨rfl, widens⟩⟩

end Derivations

theorem readRestriction_movable : Movable readRestriction := by
  have refused : Movable noRestriction := nofun
  intro scope before condition other read
  rcases readRestriction_eq_ok_iff.mp read with ⟨tokens, after, scanned, derived⟩
  rcases derived.exists_at refused other with ⟨condition', after', derived', same⟩
  exact ⟨condition', readRestriction_eq_ok_iff.mpr ⟨tokens, after', scanned, derived'⟩,
    fun names widens => (same names widens).1⟩

/-! ## One formula after the other -/

/-- A text is read as a formula by itself. -/
def ReadsAlone (text : List Char) (formula : Formula) : Prop :=
  ∃ after, Gives (readFormula text) {} formula after

section Sequence

variable {text : List Char} {formula : Formula} {before after : Vocabulary} {bound : List String}

theorem ReadsAlone.proper (alone : ReadsAlone text formula) : formula.Proper := by
  rcases alone with ⟨after, given⟩
  rcases gives_readWhole.mp given with ⟨tokens, scanned, derived⟩
  exact derived.proper (fun _ _ _ => readRestriction_proper) (scanFrom_formed scanned)

/-- Behind bound names the formula is read with them as variables. -/
theorem ReadsAlone.gives (alone : ReadsAlone text formula)
    (widens : ({} : Vocabulary).Widens bound before) :
    ∃ after, Gives (readFormula text) before (formula.vary bound) after ∧
      ({} : Vocabulary).Widens (bound ++ formula.binders) after := by
  have proper := alone.proper
  rcases alone with ⟨_, given⟩
  rcases gives_readWhole.mp given with ⟨tokens, scanned, derived⟩
  rcases derived.exists_at readRestriction_movable before with ⟨_, after, derived', same⟩
  rcases same bound widens with ⟨rfl, _⟩
  have further := derived'.widens
  rw [Formula.binders_vary proper] at further
  exact ⟨after, gives_readWhole.mpr ⟨tokens, scanned, derived'⟩, widens.trans further⟩

/-- What is read behind bound names is read alone as well. -/
theorem exists_readsAlone (given : Gives (readFormula text) before formula after)
    (widens : ({} : Vocabulary).Widens bound before) :
    ∃ single, ReadsAlone text single ∧ formula = single.vary bound ∧
      ({} : Vocabulary).Widens (bound ++ single.binders) after := by
  rcases gives_readWhole.mp given with ⟨tokens, scanned, derived⟩
  rcases derived.exists_at readRestriction_movable {} with ⟨single, after', derived', _⟩
  have alone : ReadsAlone text single := ⟨after', gives_readWhole.mpr ⟨tokens, scanned, derived'⟩⟩
  rcases alone.gives widens with ⟨_, given', widens'⟩
  rcases given.unique given' with ⟨same, rfl⟩
  exact ⟨single, alone, same, widens'⟩

def AllReadAlone (pieces : List (List Char)) (formulas : List Formula) : Prop :=
  List.Forall₂ (fun piece formula => ReadsAlone (Text.trim piece) formula) pieces formulas

variable {pieces : List (List Char)}

theorem AllReadAlone.proper {singles : List Formula}
    (alone : AllReadAlone pieces singles) : forall single, single ∈ singles -> single.Proper := by
  induction alone with
  | nil =>
    intro single listed
    cases listed
  | cons here _ ih => exact List.forall_mem_cons.mpr ⟨here.proper, ih⟩

/-- By induction on the pieces: each formula widens the vocabulary for those behind it. -/
theorem AllReadAlone.gives {singles : List Formula}
    (alone : AllReadAlone pieces singles) (widens : ({} : Vocabulary).Widens bound before) :
    ∃ after, Gives (pieces.mapM fun piece => readFormula (Text.trim piece)) before
        (Formula.captured bound singles) after ∧
      ({} : Vocabulary).Widens (bound ++ singles.flatMap Formula.binders) after := by
  induction alone generalizing bound before with
  | nil => exact ⟨before, gives_mapM_nil.mpr ⟨rfl, rfl⟩, by simpa using widens⟩
  | cons here _ ih =>
    rcases here.gives widens with ⟨between, first, widens⟩
    rcases ih widens with ⟨after, others, widens⟩
    refine ⟨after, gives_mapM_cons.mpr ⟨_, _, between, rfl, first, others⟩, ?_⟩
    rwa [List.append_assoc] at widens

theorem exists_allReadAlone
    (given : Gives (pieces.mapM fun piece => readFormula (Text.trim piece)) before formulas after)
    (widens : ({} : Vocabulary).Widens bound before) :
    ∃ singles, AllReadAlone pieces singles ∧ formulas = Formula.captured bound singles ∧
      ({} : Vocabulary).Widens (bound ++ singles.flatMap Formula.binders) after := by
  induction pieces generalizing bound before formulas with
  | nil =>
    rcases gives_mapM_nil.mp given with ⟨rfl, rfl⟩
    exact ⟨[], .nil, rfl, by simpa using widens⟩
  | cons piece pieces ih =>
    rcases gives_mapM_cons.mp given with ⟨formula, others, between, rfl, first, further⟩
    rcases exists_readsAlone first widens with ⟨single, alone, rfl, widens⟩
    rcases ih further widens with ⟨singles, aloneToo, rfl, widens⟩
    refine ⟨single :: singles, .cons alone aloneToo, rfl, ?_⟩
    rwa [List.append_assoc] at widens

end Sequence

/-! ## Pieces of a text -/

def TurnstileFree (text : List Char) : Prop := ¬ ['|', '-'] <:+: text

variable {text found : List Char}

theorem turnstilePiecesFrom_free (free : TurnstileFree text)
    (piece : List Char) : turnstilePiecesFrom piece text = [piece.reverse ++ text] := by
  fun_induction turnstilePiecesFrom piece text with
  | case1 => rw [List.append_nil]
  | case2 _ rest => exact absurd ⟨[], rest, rfl⟩ free
  | case3 piece c rest _ ih =>
    have behind : TurnstileFree rest := fun inside => free (List.infix_cons inside)
    rw [ih behind, List.reverse_cons, List.append_assoc]
    rfl

theorem hasTurnstile_of_free (free : TurnstileFree text) : hasTurnstile text = false := by
  rw [hasTurnstile, turnstilePieces, turnstilePiecesFrom_free free]
  rfl

/-- The pieces between turnstiles hold none.  A bar at the end of the current piece is not
followed by a dash. -/
theorem free_of_mem_turnstilePiecesFrom {piece : List Char} (free : TurnstileFree piece.reverse)
    (apart : piece.head? = some '|' -> text.head? ≠ some '-')
    (listed : found ∈ turnstilePiecesFrom piece text) : TurnstileFree found := by
  fun_induction turnstilePiecesFrom piece text with
  | case1 =>
    rw [List.mem_singleton.mp listed]
    exact free
  | case2 piece rest ih =>
    rcases List.mem_cons.mp listed with rfl | behind
    · exact free
    · refine ih ?_ ?_ behind
      · rintro ⟨front, back, impossible⟩
        simp at impossible
      · intro impossible
        cases impossible
  | case3 piece c rest uncut ih =>
    refine ih ?_ ?_ listed
    · rw [TurnstileFree, List.reverse_cons, List.infix_concat_iff]
      rintro (ending | inside)
      · rcases List.suffix_concat_iff.mp ending with impossible | ⟨front, same, behind⟩
        · cases impossible
        · have bar : front = ['|'] ∧ c = '-' := by
            have split : ['|'] ++ ['-'] = front ++ [c] := same
            rcases List.append_inj' split rfl with ⟨rfl, last⟩
            exact ⟨rfl, (List.cons.inj last).1.symm⟩
          rcases bar with ⟨rfl, rfl⟩
          have starts : ['|'] <+: piece := by
            have turned : ['|'].reverse <:+ piece.reverse := behind
            exact List.reverse_suffix.mp turned
          rcases starts with ⟨others, rfl⟩
          exact apart rfl rfl
      · exact free inside
    · intro bar dash
      cases bar
      cases rest with
      | nil => cases dash
      | cons d rest =>
        cases dash
        exact uncut rest rfl rfl

theorem free_of_mem_turnstilePieces
    (listed : found ∈ turnstilePieces text) : TurnstileFree found := by
  refine free_of_mem_turnstilePiecesFrom ?_ ?_ listed
  · rintro ⟨front, back, impossible⟩
    simp at impossible
  · intro impossible
    cases impossible

theorem infix_of_mem_topLevelPieces (listed : found ∈ topLevelPieces text) : found <:+: text := by
  have within {depth : Int} {piece text : List Char}
      (listed : found ∈ topLevelPiecesFrom depth piece text) :
      found <:+: piece.reverse ++ text := by
    fun_induction topLevelPiecesFrom depth piece text with
    | case1 => cases listed
    | case2 =>
      rw [List.append_nil]
      exact List.mem_singleton.mp listed ▸ List.infix_rfl
    | case3 depth piece c rest _ ih =>
      rcases List.mem_cons.mp listed with rfl | behind
      · exact (List.prefix_append _ _).isInfix
      · exact (ih behind).trans ((List.suffix_cons c rest).trans (List.suffix_append _ _)).isInfix
    | case4 depth piece c rest _ ih =>
      have inside := ih listed
      rwa [List.reverse_cons, List.append_assoc] at inside
  exact within listed

theorem trim_within (text : List Char) : Text.trim text <:+: text := by
  have front : Text.dropBlanks text <:+ text := List.dropWhile_suffix _
  have back : Text.trim text <+: Text.dropBlanks text := by
    have turned (chars : List Char) : Text.dropBlanks chars.reverse <:+ chars.reverse :=
      List.dropWhile_suffix _
    have reversed := List.reverse_prefix.mpr (turned (Text.dropBlanks text))
    rwa [List.reverse_reverse] at reversed
  exact back.isInfix.trans front.isInfix

theorem TurnstileFree.within {inside : List Char} (free : TurnstileFree text)
    (within : inside <:+: text) : TurnstileFree inside :=
  fun found => free (found.trans within)

/-- Without turnstiles, a text is read as a formula if it is read as one by itself. -/
theorem parse_eq_ok_iff_readsAlone {formula : Formula} (free : TurnstileFree text) :
    Formula.parse (String.ofList text) = .ok formula ↔ ReadsAlone text formula := by
  rw [Formula.parse_eq_ok_iff, String.toList_ofList, hasTurnstile_of_free free]
  constructor
  · rintro ⟨_, tokens, after, scanned, derived⟩
    exact ⟨after, gives_readWhole.mpr ⟨tokens, scanned, derived⟩⟩
  · rintro ⟨after, given⟩
    rcases gives_readWhole.mp given with ⟨tokens, scanned, derived⟩
    exact ⟨rfl, tokens, after, scanned, derived⟩

/-- Pieces that hold no turnstiles are read alone if each one is read as a formula. -/
theorem forall_parse_iff_allReadAlone {pieces : List (List Char)}
    (free : forall piece, piece ∈ pieces -> TurnstileFree (Text.trim piece)) :
    List.Forall₂ (fun piece formula =>
      Formula.parse (String.ofList (Text.trim piece)) = .ok formula) pieces formulas ↔
      AllReadAlone pieces formulas := by
  unfold AllReadAlone
  induction pieces generalizing formulas with
  | nil => rw [List.forall₂_nil_left_iff, List.forall₂_nil_left_iff]
  | cons piece pieces ih =>
    rcases List.forall_mem_cons.mp free with ⟨here, behind⟩
    simp only [List.forall₂_cons_left_iff, parse_eq_ok_iff_readsAlone here, ih behind]

/-! ## Inferences -/

section Inferences

variable {text : List Char} {inference : Inference}

theorem pieces_free {front back : List Char} (cut : turnstilePieces text = [front, back]) :
    (forall piece, piece ∈ topLevelPieces (Text.trim front) -> TurnstileFree (Text.trim piece)) ∧
      TurnstileFree (Text.trim back) := by
  have free {piece : List Char} (listed : piece ∈ [front, back]) : TurnstileFree piece :=
    free_of_mem_turnstilePieces (cut ▸ listed)
  constructor
  · intro piece listed
    have within : Text.trim piece <:+: front :=
      (trim_within piece).trans ((infix_of_mem_topLevelPieces listed).trans (trim_within front))
    exact (free List.mem_cons_self).within within
  · exact (free (List.mem_cons_of_mem _ List.mem_cons_self)).within (trim_within back)

/-- An inference is read by its pieces, with one vocabulary for all of them. -/
theorem gives_readInference_iff {before after : Vocabulary} :
    Gives (readInference text) before inference after ↔
      ∃ front back between, turnstilePieces text = [front, back] ∧
        Gives ((topLevelPieces (Text.trim front)).mapM fun piece => readFormula (Text.trim piece))
          before inference.premises between ∧
        Gives (readFormula (Text.trim back)) between inference.conclusion after := by
  unfold readInference
  constructor
  · intro given
    split at given
    · next front back cut =>
      rcases gives_bind.mp given with ⟨premises, between, first, given⟩
      rcases gives_bind.mp given with ⟨conclusion, later, second, done⟩
      rcases gives_pure.mp done with ⟨rfl, rfl⟩
      exact ⟨front, back, between, cut, first, second⟩
    · exact absurd given not_gives_throw
  · rintro ⟨front, back, between, cut, first, second⟩
    rw [cut]
    exact gives_bind.mpr ⟨_, between, first,
      gives_map.mpr ⟨_, second, rfl⟩⟩

/-- The pieces of an inference are read alone, and each captures its bound names. -/
theorem gives_inference_iff : (∃ after, Gives (readInference text) {} inference after) ↔
      ∃ front back premises conclusion, turnstilePieces text = [front, back] ∧
        AllReadAlone (topLevelPieces (Text.trim front)) premises ∧
        ReadsAlone (Text.trim back) conclusion ∧
        inference.premises ++ [inference.conclusion] =
          Formula.captured [] (premises ++ [conclusion]) := by
  have start : ({} : Vocabulary).Widens [] {} := widens_nil rfl
  constructor
  · rintro ⟨after, given⟩
    rcases gives_readInference_iff.mp given with ⟨front, back, between, cut, first, second⟩
    rcases exists_allReadAlone first start with ⟨premises, alone, captures, widens⟩
    rcases exists_readsAlone second widens with ⟨conclusion, aloneToo, varies, _⟩
    refine ⟨front, back, premises, conclusion, cut, alone, aloneToo, ?_⟩
    rw [Formula.captured_append, <- captures, varies]
    rfl
  · rintro ⟨front, back, premises, conclusion, cut, alone, aloneToo, same⟩
    rcases alone.gives start with ⟨between, first, widens⟩
    rcases aloneToo.gives widens with ⟨after, second, _⟩
    rw [Formula.captured_append] at same
    rcases List.append_inj' same rfl with ⟨captures, last⟩
    have varies := (List.cons.inj last).1
    refine ⟨after, gives_readInference_iff.mpr ⟨front, back, between, cut, ?_, ?_⟩⟩
    · rwa [captures]
    · rwa [varies]

end Inferences

end Grammar

open Grammar

theorem Inference.parse_eq_ok_iff {text : String} {inference : Inference} :
    Inference.parse text = .ok inference ↔
      ∃ after, Gives (readInference text.toList) {} inference after := by
  rw [Inference.parse]
  constructor
  · intro read
    split at read
    · next outcome =>
      cases read
      rcases gives_readSentence.mp (Prod.ext outcome rfl) with
        ⟨_, _, given, same⟩ | ⟨_, _, _, impossible⟩
      · cases same
        exact ⟨_, given⟩
      · cases impossible
    · cases read
    · cases read
  · rintro ⟨after, given⟩
    rcases gives_readInference_iff.mp given with ⟨front, back, _, cut, _⟩
    have turned : hasTurnstile text.toList = true := by
      rw [hasTurnstile, cut]
      rfl
    rw [gives_readSentence.mpr (.inl ⟨turned, inference, given, rfl⟩)]

theorem Inference.eq_iff_append_eq {inference other : Inference} : inference = other ↔
      inference.premises ++ [inference.conclusion] = other.premises ++ [other.conclusion] := by
  rcases inference with ⟨premises, conclusion⟩
  rcases other with ⟨premises', conclusion'⟩
  rw [Inference.mk.injEq, <- List.concat_eq_append, <- List.concat_eq_append, List.concat_inj]

/-- An inference is read exactly if all its pieces are read as formulas by themselves.  Its
formulas are these ones with the names captured that are bound further in front, and nothing is
captured exactly if no bound name is a constant further behind. -/
theorem Inference.parse_pieces_iff {text : String} {inference : Inference} :
    Inference.parse text = .ok inference ↔
      ∃ front back premises conclusion, turnstilePieces text.toList = [front, back] ∧
        List.Forall₂ (fun piece premise =>
          Formula.parse (String.ofList (Text.trim piece)) = .ok premise)
          (topLevelPieces (Text.trim front)) premises ∧
        Formula.parse (String.ofList (Text.trim back)) = .ok conclusion ∧
        inference.premises ++ [inference.conclusion] =
          Formula.captured [] (premises ++ [conclusion]) ∧
        (inference = ⟨premises, conclusion⟩ ↔
          (premises ++ [conclusion]).Pairwise Formula.Spares) := by
  rw [Inference.parse_eq_ok_iff, gives_inference_iff]
  refine exists_congr fun front => exists_congr fun back => exists_congr fun premises =>
    exists_congr fun conclusion => and_congr_right fun cut => ?_
  rcases pieces_free cut with ⟨inFront, behind⟩
  rw [forall_parse_iff_allReadAlone inFront, parse_eq_ok_iff_readsAlone behind]
  refine and_congr_right fun alone => and_congr_right fun aloneToo => ?_
  refine (and_iff_left_of_imp fun captures => ?_).symm
  have proper : forall formula, formula ∈ premises ++ [conclusion] -> formula.Proper :=
    List.forall_mem_append.mpr ⟨alone.proper, List.forall_mem_singleton.mpr aloneToo.proper⟩
  rw [Inference.eq_iff_append_eq, captures, Formula.captured_eq_self_iff proper]
  exact and_iff_right nofun

/-- A bound name reaches into the other formulas of the inference.  Read alone, they hold a constant
of this name. -/
theorem Inference.parse_captured : Inference.parse "[forall x P(x)]Q(x), P(x) |- Q(x)" =
        .ok ⟨[.quant .all "x" (.pred "P" [.var "x"]) (.pred "Q" [.var "x"]),
          .pred "P" [.var "x"]], .pred "Q" [.var "x"]⟩ ∧
      Formula.parse "P(x)" = .ok (.pred "P" [.const "x"]) ∧
      Formula.parse "Q(x)" = .ok (.pred "Q" [.const "x"]) := by
  have applied {name : List Char} {term : Term} {before after : Vocabulary}
      (read : Gives (readArguments ['x']) before [term] after) :
      Derives readRestriction .implication before [.applied name ['x']]
        (.pred (String.ofList name) [term]) after :=
    .disjunction (.conjunction (.negation (.atomic (.applied read) rfl)))
  have condition : readRestriction "P(x)".toList ⟨["x"], []⟩ = .ok (.pred "P" [.var "x"]) :=
    readRestriction_eq_ok_iff.mpr ⟨[.applied ['P'] ['x']], ⟨["x"], []⟩, rfl,
      .disjunction (.conjunction (.negation (.atomic (.applied rfl) rfl)))⟩
  have quantified : Derives readRestriction .implication {}
      [.quantifier .all ['x'] "P(x)".toList "[forall x P(x)]".toList, .applied ['Q'] ['x']]
      (.quant .all "x" (.pred "P" [.var "x"]) (.pred "Q" [.var "x"])) ⟨["x"], []⟩ :=
    .disjunction (.conjunction (.negation (.atomic (.quantified condition (.applied rfl)) rfl)))
  have behind (name : List Char) := @applied name (.var "x") ⟨["x"], []⟩ ⟨["x"], []⟩ rfl
  have alone (name : List Char) := @applied name (.const "x") {} ⟨[], ["x"]⟩ rfl
  refine ⟨Inference.parse_eq_ok_iff.mpr ⟨⟨["x"], []⟩, gives_readInference_iff.mpr
    ⟨"[forall x P(x)]Q(x), P(x) ".toList, " Q(x)".toList, ⟨["x"], []⟩, rfl, ?_, ?_⟩⟩,
    (alone ['P']).parse_eq rfl rfl, (alone ['Q']).parse_eq rfl rfl⟩
  · exact gives_mapM_cons.mpr ⟨_, _, _, rfl, gives_readWhole.mpr ⟨_, rfl, quantified⟩,
      gives_mapM_cons.mpr ⟨_, _, _, rfl, gives_readWhole.mpr ⟨_, rfl, behind ['P']⟩,
        gives_mapM_nil.mpr ⟨rfl, rfl⟩⟩⟩
  · exact gives_readWhole.mpr ⟨_, rfl, behind ['Q']⟩

end WeakKleene
