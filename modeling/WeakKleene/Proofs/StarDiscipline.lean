import WeakKleene.Proofs.SidedReading

namespace WeakKleene

/-!
# Where stars end up

A star tells the denial of a predicate, so the name before it should be a word.
There are three ways for a star to get into the name instead.  A negation sign
takes the starred predicate right behind it, star and all, and adds another one.  A star
among the arguments makes all that stands before it the name.  And what a
quantifier governs is made bilateral once more, so that a negation on a starred
predicate becomes a star on top of the first, even where the text has none.
-/

namespace Formula

open Grammar

/-! ## Names -/

mutual

def baseNames : Formula -> List String
  | atom _ | pred .. => []
  | bilateral name .. => [name]
  | neg body => body.baseNames
  | join _ left right => left.baseNames ++ right.baseNames
  | quant _ _ restriction matrix => restriction.baseNames ++ matrix.baseNames
  | irregular _ parts => baseNamesAmong parts

def baseNamesAmong : List Formula -> List String
  | [] => []
  | part :: rest => part.baseNames ++ baseNamesAmong rest

end

mutual

def deniesStar : Formula -> Bool
  | atom _ | pred .. | bilateral .. => false
  | neg (bilateral _ _ _ starred) => starred
  | neg body => body.deniesStar
  | join _ left right => left.deniesStar || right.deniesStar
  | quant _ _ restriction matrix => restriction.deniesStar || matrix.deniesStar
  | irregular _ parts => someDeniesStar parts

def someDeniesStar : List Formula -> Bool
  | [] => false
  | part :: rest => part.deniesStar || someDeniesStar rest

end

/-- Every bilateral predicate is named by a word on its positive side. -/
def Disciplined (formula : Formula) : Prop :=
  forall name, name ∈ formula.baseNames -> IsWord name.toList

section Disciplined

variable {left right : Formula}

theorem disciplined_sided {name : String} {args : List Term} {starred : Bool} :
    (sided name args starred).Disciplined ↔ IsWord name.toList := by
  simp [Disciplined, sided, baseNames]

theorem disciplined_join {connective : Connective} :
    (join connective left right).Disciplined ↔ left.Disciplined ∧ right.Disciplined := by
  simp only [Disciplined, baseNames, List.mem_append, or_imp, forall_and]

theorem disciplined_quant {quantifier : Quantifier} {var : String} :
    (quant quantifier var left right).Disciplined ↔ left.Disciplined ∧ right.Disciplined := by
  simp only [Disciplined, baseNames, List.mem_append, or_imp, forall_and]

end Disciplined

/-! ## Making predicates bilateral -/

/-- Built from atoms and from bilateral predicates whose denials have the default names. -/
inductive Sided : Formula -> Prop where
  | atom (name : String) : Sided (.atom name)
  | predicate (name : String) (args : List Term) (starred : Bool) : Sided (.sided name args starred)
  | neg {body : Formula} (inner : Sided body) : Sided (.neg body)
  | join {left right : Formula} (connective : Connective) (first : Sided left)
      (second : Sided right) : Sided (.join connective left right)
  | quant {quantifier : Quantifier} {restriction matrix : Formula} (var : String)
      (ruled : quantifier = .all ∨ quantifier = .exist) (first : Sided restriction)
      (second : Sided matrix) : Sided (.quant quantifier var restriction matrix)

/-- An atom, or a plain predicate that is named by a word. -/
def Worded : Formula -> Prop
  | atom _ => True
  | pred name _ => IsWord name.toList
  | _ => False

end Formula

namespace Grammar

open Tableau (exists_of_bind_eq_ok)

theorem not_isWord_starOf (name : String) : ¬ IsWord (Formula.starOf name).toList := by
  intro isWord
  have star : '*' ∈ (Formula.starOf name).toList := by simp [Formula.starOf]
  exact isWord.not_mem (by decide) star

section Bilateral

variable {mode : Mode} {formula made : Formula}

/-- A restriction has no bilateral predicates before, so that all names stay words. -/
theorem MadeBilateral.worded (sides : MadeBilateral mode formula made)
    (worded : formula.BuiltFrom Formula.Worded) : made.Sided ∧ made.Disciplined := by
  induction worded generalizing made with
  | basic given =>
    cases sides with
    | atom name => exact ⟨.atom name, nofun⟩
    | pred name args =>
      exact ⟨.predicate name args false, Formula.disciplined_sided.mpr given⟩
    | _ => cases given
  | @neg body inner ih =>
    cases sides with
    | denial named applied =>
      cases inner with
      | basic given =>
        cases body with
        | atom => cases named
        | pred =>
          cases named
          cases applied
          exact ⟨.predicate _ _ true, Formula.disciplined_sided.mpr given⟩
        | _ => cases given
      | neg | join => cases named
    | neg _ within =>
      rcases ih within with ⟨sided, disciplined⟩
      exact ⟨.neg sided, disciplined⟩
  | join connective first second atFirst atSecond =>
    cases sides with
    | join _ left right =>
      rcases atFirst left with ⟨sidedLeft, disciplinedLeft⟩
      rcases atSecond right with ⟨sidedRight, disciplinedRight⟩
      exact ⟨.join connective sidedLeft sidedRight,
        Formula.disciplined_join.mpr ⟨disciplinedLeft, disciplinedRight⟩⟩

/-- By induction on the formula.  A name gets a star only where a negation stands on a starred
predicate. -/
theorem MadeBilateral.sided (sides : MadeBilateral mode formula made) (sided : formula.Sided) :
    made.Sided ∧ (made.Disciplined ↔ formula.Disciplined ∧ formula.deniesStar = false) := by
  induction sided generalizing made with
  | atom name =>
    cases sides
    exact ⟨.atom name, by simp [Formula.deniesStar]⟩
  | predicate name args starred =>
    cases sides
    exact ⟨.predicate name args starred, by simp [Formula.sided, Formula.deniesStar]⟩
  | neg inner ih =>
    cases sides with
    | denial named applied =>
      cases inner with
      | predicate name args starred =>
        cases named
        cases applied
        refine ⟨.predicate _ _ _, ?_⟩
        cases starred with
        | false => exact ⟨fun kept => ⟨kept, rfl⟩, fun kept => kept.1⟩
        | true =>
          constructor
          · intro kept
            exact absurd (Formula.disciplined_sided.mp kept) (not_isWord_starOf name)
          · rintro ⟨_, impossible⟩
            cases impossible
      | atom | neg | join | quant => cases named
    | neg unnamed within =>
      rcases ih within with ⟨sided, kept⟩
      refine ⟨.neg sided, ?_⟩
      cases inner with
      | predicate => cases unnamed
      | atom | neg | join | quant => exact kept
  | join connective first second atFirst atSecond =>
    cases sides with
    | join _ left right =>
      rcases atFirst left with ⟨sidedLeft, keptLeft⟩
      rcases atSecond right with ⟨sidedRight, keptRight⟩
      refine ⟨.join connective sidedLeft sidedRight, ?_⟩
      rw [Formula.disciplined_join, Formula.disciplined_join, keptLeft, keptRight,
        Formula.deniesStar, Bool.or_eq_false_iff, and_and_and_comm]
  | quant var ruled first second atFirst atSecond =>
    cases sides with
    | quant _ _ left right =>
      rcases atFirst left with ⟨sidedLeft, keptLeft⟩
      rcases atSecond right with ⟨sidedRight, keptRight⟩
      refine ⟨.quant var ruled sidedLeft sidedRight, ?_⟩
      rw [Formula.disciplined_quant, Formula.disciplined_quant, keptLeft, keptRight,
        Formula.deniesStar, Bool.or_eq_false_iff, and_and_and_comm]
    | other => rcases ruled with impossible | impossible <;> cases impossible

end Bilateral

/-! ## Formulas that are read -/

/-- Restrictions are built from atoms and from predicates that are named by words. -/
theorem Derives.worded {level : Level} {before after : Vocabulary} {tokens : List Token}
    {formula : Formula} (derived : Derives noRestriction level before tokens formula after)
    (formed : forall token, token ∈ tokens -> token.Formed) :
    formula.BuiltFrom Formula.Worded := by
  induction derived with
  | disjunction _ ih | conjunction _ ih
  | negation _ ih | atomic _ _ ih => exact ih formed
  | arrow _ _ _ atFirst atSecond | or _ _ _ atFirst atSecond | and _ _ _ atFirst atSecond =>
    exact .join _ (atFirst (each_split formed).1) (atSecond (each_split formed).2)
  | not _ _ ih => exact .neg (ih (formed_tail formed))
  | parens _ _ _ ih => exact ih (each_split (formed_tail formed)).1
  | quantified restricted => cases restricted
  | @applied _ _ name _ _ read =>
    refine .basic ?_
    rw [Formula.Worded, String.toList_ofList]
    exact (formed _ List.mem_cons_self).1
  | operand => exact .basic True.intro

theorem readRestriction_worded {scope : List Char} {vocabulary : Vocabulary} {condition : Formula}
    (read : readRestriction scope vocabulary = .ok condition) :
    condition.BuiltFrom Formula.Worded := by
  rcases readRestriction_eq_ok_iff.mp read with ⟨_, _, scanned, derived⟩
  exact derived.worded (scanFrom_formed scanned)

section Derived

variable {mode : Mode} {level : Level} {tokens : List Token} {formula : Formula} {which : Mark}

theorem DerivesSided.sided (derived : DerivesSided mode level tokens formula)
    (formed : forall token, token ∈ tokens -> token.Formed) : formula.Sided := by
  induction derived with
  | disjunction _ ih | conjunction _ ih
  | negation _ ih | atomic _ _ ih => exact ih formed
  | arrow _ _ _ atFirst atSecond | or _ _ _ atFirst atSecond | and _ _ _ atFirst atSecond =>
    exact .join _ (atFirst (each_split formed).1) (atSecond (each_split formed).2)
  | not _ _ _ ih => exact .neg (ih (formed_tail formed))
  | denied | starred | plain => exact .predicate _ _ _
  | parens _ _ _ ih => exact ih (each_split (formed_tail formed)).1
  | quantified restricted _ sidedCondition sidedBody ih =>
    have governed := ih (formed_tail formed)
    exact .quant _ (formed _ List.mem_cons_self).1
      ((madeBilateral _ sidedCondition).worded (readRestriction_worded restricted)).1
      ((madeBilateral _ sidedBody).sided governed).1
  | atom => exact .atom _

/-! ## Tokens behind negation signs -/

/-- Every token passes a check that may depend on whether it stands right behind a negation
sign. -/
def standing (check : Bool -> Token -> Bool) : Bool -> List Token -> Bool
  | _, [] => true
  | denied, token :: rest => check denied token && standing check token.isNegation rest

/-- A check that all marks pass, and where a negation sign only matters for predicates. -/
structure Fair (check : Bool -> Token -> Bool) : Prop where
  marks : forall denied which mathematical, check denied (.mark which mathematical) = true
  others : forall token, predicateToken? token = none -> check true token = check false token

section Standing

variable {check : Bool -> Token -> Bool}

@[simp] theorem standing_nil (denied : Bool) : standing check denied [] = true := rfl

@[simp] theorem standing_cons (denied : Bool) (token : Token) (rest : List Token) :
    standing check denied (token :: rest) =
      (check denied token && standing check token.isNegation rest) :=
  rfl

theorem Fair.sides (fair : Fair check) (denied : Bool) (front back : List Token)
    (mathematical : Bool) (unsigned : which ≠ .not) :
    standing check denied (front ++ .mark which mathematical :: back) =
      (standing check denied front && standing check false back) := by
  have plain : (Token.mark which mathematical).isNegation = false := by
    cases which with
    | not => exact absurd rfl unsigned
    | _ => rfl
  induction front generalizing denied with
  | nil => rw [List.nil_append, standing_cons, fair.marks, plain, standing_nil]
  | cons token front ih => rw [List.cons_append, standing_cons, ih, standing_cons, Bool.and_assoc]

theorem Fair.parens (fair : Fair check) (opening closing : Bool) (tokens : List Token) :
    standing check false (.mark .openParen opening :: (tokens ++ [.mark .closeParen closing])) =
      standing check false tokens := by
  have inside := fair.sides false tokens [] closing (by decide : Mark.closeParen ≠ .not)
  have whole := fair.sides false [] (tokens ++ [.mark .closeParen closing]) opening
    (by decide : Mark.openParen ≠ .not)
  rw [List.nil_append] at whole
  rw [whole, inside, standing_nil, Bool.true_and, Bool.and_true]

theorem Fair.not (fair : Fair check) (mathematical : Bool)
    (free : tokens.head?.bind predicateToken? = none) :
    standing check false (.mark .not mathematical :: tokens) = standing check false tokens := by
  cases tokens with
  | nil => rw [standing_cons, fair.marks, Bool.true_and, standing_nil, standing_nil]
  | cons token rest =>
    have alike : check true token = check false token := fair.others token free
    rw [standing_cons, fair.marks, Bool.true_and, standing_cons, standing_cons, <- alike]
    rfl

end Standing

/-- Whether a token brings no star into a name.  A starred predicate does behind a negation sign,
and a star among the arguments does unless the predicate is denied and taken as it stands. -/
def Token.keepsStar (denied : Bool) (token : Token) : Bool :=
  match token with
  | .starred .. => !(denied && Text.startsUpper token.source)
  | .applied _ args => !args.contains '*' || (denied && Text.startsUpper token.source)
  | _ => true

/-- Whether a token has no star, or has it inside a restriction or a denied predicate. -/
def Token.hidesStar (denied : Bool) (token : Token) : Bool :=
  match token with
  | .quantifier .. => true
  | _ => !token.source.contains '*' || (denied && Text.startsUpper token.source)

theorem startsUpper_of_unread {token : Token} (named : token.isName = true)
    (unread : predicateToken? token = none) : Text.startsUpper token.source = false := by
  rw [predicateToken?] at unread
  split at unread
  · cases token with
    | mark | quantifier => cases named
    | word | applied | starred => cases unread
  · next lower => exact Bool.eq_false_iff.mpr lower

theorem fair_keepsStar : Fair Token.keepsStar where
  marks _ _ _ := rfl
  others := by
    intro token unread
    cases token with
    | mark | word | quantifier => rfl
    | applied | starred =>
      have lower := startsUpper_of_unread rfl unread
      simp only [Token.keepsStar, lower, Bool.and_false]

theorem fair_hidesStar : Fair Token.hidesStar where
  marks denied which mathematical := by
    have bare : (Token.mark which mathematical).source.contains '*' = false := by
      cases which <;> cases mathematical <;> rfl
    simp only [Token.hidesStar, bare, Bool.not_false, Bool.true_or]
  others := by
    intro token unread
    cases token with
    | quantifier => rfl
    | mark which mathematical =>
      have lower : Text.startsUpper (Token.mark which mathematical).source = false := by
        cases which <;> cases mathematical <;> decide +kernel
      simp only [Token.hidesStar, lower, Bool.and_false]
    | word | applied | starred =>
      have lower := startsUpper_of_unread rfl unread
      simp only [Token.hidesStar, lower, Bool.and_false]

/-! ## What quantifiers govern -/

/-- A quantifier among the tokens governs a formula, which is read right behind it. -/
inductive Governs (mode : Mode) : List Token -> Formula -> Prop where
  | here {quantifier : Quantifier} {var scope source : List Char} {inner back : List Token}
      {body : Formula} (read : DerivesSided mode .negation inner body) :
      Governs mode (.quantifier quantifier var scope source :: (inner ++ back)) body
  | later {token : Token} {tokens : List Token} {body : Formula}
      (behind : Governs mode tokens body) : Governs mode (token :: tokens) body

section Governs

variable {body : Formula} {front back : List Token}

theorem Governs.append_right (governs : Governs mode tokens body) (rest : List Token) :
    Governs mode (tokens ++ rest) body := by
  induction governs with
  | here read =>
    rw [List.cons_append, List.append_assoc]
    exact .here read
  | later _ ih => exact .later ih

theorem Governs.append_left (governs : Governs mode tokens body) (front : List Token) :
    Governs mode (front ++ tokens) body := by
  induction front with
  | nil => exact governs
  | cons token front ih => exact .later ih

theorem governs_mark {mathematical : Bool} :
    Governs mode (.mark which mathematical :: tokens) body ↔ Governs mode tokens body := by
  constructor
  · rintro ⟨⟩
    assumption
  · exact .later

theorem Governs.of_name {token : Token} (named : token.isName = true)
    (governs : Governs mode (token :: tokens) body) : Governs mode tokens body := by
  cases governs with
  | here => cases named
  | later behind => exact behind

theorem not_governs_single (token : Token) : ¬ Governs mode [token] body := by
  intro governs
  generalize whole : [token] = tokens at governs
  cases governs with
  | here read =>
    have nothing := (List.append_eq_nil_iff.mp (List.cons.inj whole).2.symm).1
    exact read.nonempty nothing
  | later behind =>
    rw [<- (List.cons.inj whole).2] at behind
    cases behind

/-- What stands at the front does not depend on what follows. -/
theorem DerivesSided.negation_unique {other rest rest' : List Token} {formula' : Formula}
    (derived : DerivesSided mode .negation tokens formula)
    (derived' : DerivesSided mode .negation other formula')
    (same : tokens ++ rest = other ++ rest') : tokens = other ∧ formula = formula' := by
  have first := derived.complete rest
  rw [same] at first
  rcases first with ⟨_, taken⟩
  rcases derived'.complete rest' with ⟨_, taken'⟩
  cases taken.symm.trans taken'
  exact ⟨List.append_cancel_right same, rfl⟩

/-- By induction on the derivation: what a quantifier governs ends before the formula does. -/
theorem DerivesSided.governs_append (derived : DerivesSided mode level tokens formula)
    (rest : List Token) (governs : Governs mode (tokens ++ rest) body) :
    Governs mode tokens body ∨ Governs mode rest body := by
  have sides {front back rest : List Token} {which : Mark} {mathematical : Bool}
      (atFront : forall rest, Governs mode (front ++ rest) body ->
        Governs mode front body ∨ Governs mode rest body)
      (atBack : forall rest, Governs mode (back ++ rest) body ->
        Governs mode back body ∨ Governs mode rest body)
      (governs : Governs mode ((front ++ .mark which mathematical :: back) ++ rest) body) :
      Governs mode (front ++ .mark which mathematical :: back) body ∨ Governs mode rest body := by
    rw [List.append_assoc, List.cons_append] at governs
    rcases atFront _ governs with inFront | behind
    · exact .inl (inFront.append_right _)
    · rcases atBack _ (governs_mark.mp behind) with inBack | inRest
      · exact .inl (.append_left (.later inBack) _)
      · exact .inr inRest
  induction derived generalizing rest with
  | disjunction _ ih | conjunction _ ih
  | negation _ ih | atomic _ _ ih => exact ih rest governs
  | arrow _ _ _ atFirst atSecond | or _ _ _ atFirst atSecond | and _ _ _ atFirst atSecond =>
    exact sides atFirst atSecond governs
  | not _ _ _ ih => exact (ih rest (governs_mark.mp governs)).imp_left .later
  | denied _ found =>
    exact .inr ((governs_mark.mp governs).of_name (isName_of_predicateToken? found))
  | parens opening closing _ ih =>
    rw [List.cons_append, governs_mark, List.append_assoc] at governs
    rcases ih _ governs with inside | behind
    · exact .inl (.later (inside.append_right _))
    · exact .inr (governs_mark.mp behind)
  | @quantified quantifier var scope source tokens _ _ _ _ _ governed _ _ ih =>
    generalize whole : .quantifier quantifier var scope source :: tokens ++ rest = all at governs
    cases governs with
    | here read =>
      rcases governed.negation_unique read (List.cons.inj whole).2 with ⟨rfl, rfl⟩
      exact .inl (List.append_nil tokens ▸ .here governed)
    | later behind =>
      rw [<- (List.cons.inj whole).2] at behind
      exact (ih rest behind).imp_left .later
  | @starred token _ _ _ found =>
    refine .inr (governs.of_name ?_)
    cases token with
    | mark | quantifier => cases found
    | _ => rfl
  | plain _ found => exact .inr (governs.of_name (isName_of_predicateToken? found))
  | atom named => exact .inr (governs.of_name named)

end Governs

/-! ## Names and tokens -/

/-- Tokens that bring no star into a name, neither by themselves nor behind a quantifier. -/
structure Tame (mode : Mode) (tokens : List Token) : Prop where
  kept : standing Token.keepsStar false tokens = true
  bare : forall body, Governs mode tokens body -> body.deniesStar = false

theorem tame_iff : Tame mode tokens ↔ standing Token.keepsStar false tokens = true ∧
    forall body, Governs mode tokens body -> body.deniesStar = false :=
  ⟨fun tame => ⟨tame.kept, tame.bare⟩, fun both => ⟨both.1, both.2⟩⟩

section Tame

variable {front back : List Token} {body : Formula}

theorem DerivesSided.tame_sides (derived : DerivesSided mode level front formula)
    (mathematical : Bool) (unsigned : which ≠ .not) :
    Tame mode (front ++ .mark which mathematical :: back) ↔ Tame mode front ∧ Tame mode back := by
  have governs (body : Formula) : Governs mode (front ++ .mark which mathematical :: back) body ↔
      Governs mode front body ∨ Governs mode back body := by
    constructor
    · intro governs
      exact (derived.governs_append _ governs).imp_right governs_mark.mp
    · rintro (inFront | inBack)
      · exact inFront.append_right _
      · exact .append_left (.later inBack) _
  simp only [tame_iff, fair_keepsStar.sides false front back mathematical unsigned,
    Bool.and_eq_true, governs, or_imp, forall_and]
  exact and_and_and_comm

theorem DerivesSided.tame_parens (derived : DerivesSided mode level tokens formula)
    (opening closing : Bool) :
    Tame mode (.mark .openParen opening :: (tokens ++ [.mark .closeParen closing])) ↔
      Tame mode tokens := by
  have governs (body : Formula) :
      Governs mode (.mark .openParen opening :: (tokens ++ [.mark .closeParen closing])) body ↔
        Governs mode tokens body := by
    rw [governs_mark]
    constructor
    · intro governs
      exact (derived.governs_append _ governs).resolve_right (not_governs_single _)
    · exact fun inside => inside.append_right _
  simp only [tame_iff, fair_keepsStar.parens opening closing tokens, governs]

theorem tame_not (mathematical : Bool) (free : tokens.head?.bind predicateToken? = none) :
    Tame mode (.mark .not mathematical :: tokens) ↔ Tame mode tokens := by
  simp only [tame_iff, fair_keepsStar.not mathematical free, governs_mark]

theorem DerivesSided.tame_quantified (derived : DerivesSided mode .negation tokens body)
    {quantifier : Quantifier} {var scope source : List Char} :
    Tame mode (.quantifier quantifier var scope source :: tokens) ↔
      Tame mode tokens ∧ body.deniesStar = false := by
  have governs (other : Formula) :
      Governs mode (.quantifier quantifier var scope source :: tokens) other ↔
        other = body ∨ Governs mode tokens other := by
    constructor
    · intro governs
      generalize whole : .quantifier quantifier var scope source :: tokens = all at governs
      cases governs with
      | here read =>
        have same := (List.append_nil tokens).trans (List.cons.inj whole).2
        exact .inl (derived.negation_unique read same).2.symm
      | later behind => exact .inr ((List.cons.inj whole).2 ▸ behind)
    · rintro (rfl | behind)
      · exact List.append_nil tokens ▸ .here derived
      · exact .later behind
  simp only [tame_iff, governs, or_imp, forall_and, forall_eq]
  constructor
  · rintro ⟨kept, bare, others⟩
    exact ⟨⟨kept, others⟩, bare⟩
  · rintro ⟨⟨kept, others⟩, bare⟩
    exact ⟨kept, bare, others⟩

theorem tame_single {token : Token} : Tame mode [token] ↔ token.keepsStar false = true := by
  simp [tame_iff, not_governs_single]

theorem tame_denied {token : Token} (mathematical : Bool) :
    Tame mode [.mark .not mathematical, token] ↔ token.keepsStar true = true := by
  have marked : (Token.mark .not mathematical).isNegation = true := rfl
  simp [tame_iff, governs_mark, not_governs_single, marked, Token.keepsStar]

end Tame

section Leaves

variable {token : Token} {name args : List Char}

theorem predicateToken?_eq_some {parts : List Char × List Char}
    (found : predicateToken? token = some parts) :
    Text.startsUpper token.source = true ∧ predicateParts? token = some parts := by
  rw [predicateToken?] at found
  split at found
  · next upper => exact ⟨upper, found⟩
  · cases found

/-- A denied predicate keeps its name, unless that ends in a star. -/
theorem isWord_iff_keepsStar_denied (formed : token.Formed)
    (found : predicateToken? token = some (name, args)) :
    IsWord name ↔ token.keepsStar true = true := by
  rcases predicateToken?_eq_some found with ⟨upper, parts⟩
  cases token with
  | mark | quantifier => cases parts
  | word =>
    cases parts
    exact ⟨fun _ => rfl, fun _ => formed⟩
  | applied =>
    cases parts
    simp only [Token.keepsStar, upper, Bool.and_true, Bool.or_true, iff_true]
    exact formed.1
  | starred =>
    cases parts
    simp only [Token.keepsStar, upper, Bool.and_true, Bool.not_true, Bool.false_eq_true, iff_false]
    exact fun isWord => isWord.not_mem (by decide : Text.isWordChar '*' = false) (by simp)

/-- A name that ends at a star is a word, unless it holds the opening parenthesis. -/
theorem isWord_iff_keepsStar_starred (formed : token.Formed)
    (found : starredParts? token = some (name, args)) :
    IsWord name ↔ token.keepsStar false = true := by
  cases token with
  | mark | quantifier | word => cases found
  | applied =>
    simp only [starredParts?] at found
    split at found
    · next star =>
      cases found
      simp only [Token.keepsStar, star, Bool.not_true, Bool.false_and, Bool.or_self,
        Bool.false_eq_true, iff_false]
      exact fun isWord => isWord.not_mem (by decide : Text.isWordChar '(' = false) (by simp)
    · cases found
  | starred =>
    cases found
    exact ⟨fun _ => rfl, fun _ => formed.1⟩

theorem keepsStar_of_unstarred (unstarred : starredParts? token = none) :
    token.keepsStar false = true := by
  cases token with
  | mark | quantifier | word => rfl
  | applied =>
    simp only [starredParts?, ite_eq_right_iff, reduceCtorEq, imp_false] at unstarred
    simp only [Token.keepsStar, Bool.eq_false_iff.mpr unstarred, Bool.not_false, Bool.true_or]
  | starred => cases unstarred

theorem isWord_of_unstarred (formed : token.Formed) (unstarred : starredParts? token = none)
    (found : predicateToken? token = some (name, args)) : IsWord name := by
  have parts := (predicateToken?_eq_some found).2
  cases token with
  | mark | quantifier => cases parts
  | word =>
    cases parts
    exact formed
  | applied =>
    cases parts
    exact formed.1
  | starred => cases unstarred

end Leaves

/-- By induction on the derivation: all names stay words exactly if the tokens are tame. -/
theorem DerivesSided.disciplined_iff (derived : DerivesSided mode level tokens formula)
    (formed : forall token, token ∈ tokens -> token.Formed) :
    formula.Disciplined ↔ Tame mode tokens := by
  have named {name : List Char} {terms : List Term} {starred : Bool} :
      (Formula.sided (String.ofList name) terms starred).Disciplined ↔ IsWord name := by
    rw [Formula.disciplined_sided, String.toList_ofList]
  induction derived with
  | disjunction _ ih | conjunction _ ih
  | negation _ ih | atomic _ _ ih => exact ih formed
  | arrow mathematical first _ atFirst atSecond | or mathematical first _ atFirst atSecond
  | and mathematical first _ atFirst atSecond =>
    rw [Formula.disciplined_join, first.tame_sides mathematical (by decide)]
    exact and_congr (atFirst (each_split formed).1) (atSecond (each_split formed).2)
  | not mathematical free _ ih =>
    rw [tame_not mathematical free]
    exact ih (formed_tail formed)
  | denied mathematical found =>
    have here := formed_tail formed _ List.mem_cons_self
    rw [named, tame_denied, isWord_iff_keepsStar_denied here found]
  | parens opening closing inside ih =>
    rw [inside.tame_parens opening closing]
    exact ih (each_split (formed_tail formed)).1
  | quantified restricted governed sidedCondition sidedBody ih =>
    have worded := (madeBilateral _ sidedCondition).worded (readRestriction_worded restricted)
    have sided := (madeBilateral _ sidedBody).sided (governed.sided (formed_tail formed))
    rw [Formula.disciplined_quant, governed.tame_quantified, and_iff_right worded.2, sided.2]
    exact and_congr_left' (ih (formed_tail formed))
  | starred found =>
    rw [named, tame_single, isWord_iff_keepsStar_starred (formed _ List.mem_cons_self) found]
  | plain unstarred found =>
    have isWord := isWord_of_unstarred (formed _ List.mem_cons_self) unstarred found
    rw [named, tame_single]
    exact iff_of_true isWord (keepsStar_of_unstarred unstarred)
  | atom _ unstarred =>
    rw [tame_single]
    exact iff_of_true nofun
      (keepsStar_of_unstarred unstarred)

/-- Where stars are not allowed they stand inside restrictions or denied predicates. -/
theorem DerivesSided.hidesStars (derived : DerivesSided .transparent level tokens formula)
    (formed : forall token, token ∈ tokens -> token.Formed) :
    standing Token.hidesStar false tokens = true := by
  have unstarred {token : Token} (here : token.Formed) (named : token.isName = true)
      (unstarred : starredParts? token = none) : token.hidesStar false = true := by
    have bare : '*' ∉ token.source := by
      cases token with
      | mark | quantifier => cases named
      | word => exact IsWord.not_mem here (by decide)
      | applied =>
        simp only [starredParts?, ite_eq_right_iff, reduceCtorEq, imp_false,
          List.contains_eq_mem, decide_eq_true_eq] at unstarred
        have name := here.1.not_mem (by decide : Text.isWordChar '*' = false)
        simp [Token.source, name, unstarred]
      | starred => cases unstarred
    cases token with
    | mark | quantifier => cases named
    | word | applied | starred => simp [Token.hidesStar, bare]
  induction derived with
  | disjunction _ ih | conjunction _ ih
  | negation _ ih | atomic _ _ ih => exact ih formed
  | arrow mathematical _ _ atFirst atSecond | or mathematical _ _ atFirst atSecond
  | and mathematical _ _ atFirst atSecond =>
    rw [fair_hidesStar.sides false _ _ mathematical (by decide),
      atFirst (each_split formed).1, atSecond (each_split formed).2]
    rfl
  | not mathematical free _ ih =>
    rw [fair_hidesStar.not mathematical free]
    exact ih (formed_tail formed)
  | @denied token _ _ _ mathematical found =>
    have upper := (predicateToken?_eq_some found).1
    have hidden : token.hidesStar true = true := by
      cases token with
      | quantifier => rfl
      | mark | word | applied | starred => simp [Token.hidesStar, upper]
    have marked : (Token.mark .not mathematical).isNegation = true := rfl
    rw [standing_cons, fair_hidesStar.marks, standing_cons, marked, hidden, standing_nil]
    rfl
  | parens opening closing _ ih =>
    rw [fair_hidesStar.parens opening closing]
    exact ih (each_split (formed_tail formed)).1
  | quantified _ _ _ _ ih => exact ih (formed_tail formed)
  | starred _ allowed => cases allowed
  | plain free found =>
    rw [standing_cons, standing_nil, Bool.and_true]
    exact unstarred (formed _ List.mem_cons_self) (isName_of_predicateToken? found) free
  | atom named free =>
    rw [standing_cons, standing_nil, Bool.and_true]
    exact unstarred (formed _ List.mem_cons_self) named free

end Derived

end Grammar

open Grammar

/-- The predicates of a text that is read are named by words exactly if its tokens bring no star
into a name.  All stars belong to tokens.  Where they are not allowed, they stand inside
restrictions or denied predicates nevertheless. -/
theorem Formula.parseSided_disciplined_iff {mode : Mode} {text : String} {formula : Formula}
    (read : Formula.parseSided mode text = .ok formula) :
    ∃ tokens, scan .starred text.toList = .ok tokens ∧ (formula.Disciplined ↔ Tame mode tokens) ∧
      ('*' ∈ text.toList ↔ ∃ token, token ∈ tokens ∧ '*' ∈ token.source) ∧
      (mode = .transparent -> standing Token.hidesStar false tokens = true) := by
  rcases readSided_eq_ok_iff.mp read with ⟨tokens, scanned, derived⟩
  have formed := scanFrom_formed scanned
  refine ⟨tokens, scanned, derived.disciplined_iff formed, ⟨?_, ?_⟩, ?_⟩
  · intro star
    have blank : Text.isBlank '*' = false := by decide
    rcases scanFrom_covers scanned '*' star with impossible | found
    · rw [blank] at impossible
      cases impossible
    · exact found
  · rintro ⟨token, listed, inside⟩
    exact scan_source scanned token listed inside
  · rintro rfl
    exact derived.hidesStars formed

/-- A star among the arguments of a denied predicate does not get into its name. -/
theorem Formula.parseSided_denied_arguments : ∃ formula tokens,
      Formula.parseSided .mixed "~P(a*b) & [forall X R(X)]Q*(X)" = .ok formula ∧
      scan .starred "~P(a*b) & [forall X R(X)]Q*(X)".toList = .ok tokens ∧
      formula.baseNames = ["P", "R", "Q"] ∧ Tame .mixed tokens := by
  have condition : readRestriction "R(X)".toList {} = .ok (.pred "R" [.var "X"]) :=
    readRestriction_eq_ok_iff.mpr ⟨[.applied ['R'] ['X']], ⟨["X"], []⟩, rfl,
      .disjunction (.conjunction (.negation (.atomic (.applied rfl) rfl)))⟩
  have governed : DerivesSided .mixed .negation [.starred ['Q'] (some ['X'])]
      (.sided "Q" [.var "X"] true) :=
    .atomic (.starred rfl rfl rfl) rfl
  have derived : DerivesSided .mixed .implication
      [.mark .not false, .applied ['P'] ['a', '*', 'b'], .mark .and false,
        .quantifier .all ['X'] "R(X)".toList "[forall X R(X)]".toList,
        .starred ['Q'] (some ['X'])]
      (.join .conj (.sided "P" [.const "a*b"] true)
        (.quant .all "X" (.sided "R" [.var "X"] false) (.sided "Q" [.var "X"] true))) :=
    .disjunction (.conjunction (.and false (.negation (.denied false rfl rfl rfl))
      (.atomic (.quantified condition governed rfl rfl) rfl)))
  have read : Formula.parseSided .mixed "~P(a*b) & [forall X R(X)]Q*(X)" = .ok _ :=
    readSided_eq_ok_iff.mpr ⟨_, rfl, derived⟩
  rcases Formula.parseSided_disciplined_iff read with ⟨tokens, scanned, disciplined, _⟩
  refine ⟨_, tokens, read, scanned, rfl, disciplined.mp fun name listed => ?_⟩
  have words : forall name, name ∈ ["P", "R", "Q"] -> IsWord name.toList := by decide
  exact words name listed

/-- A star is read where none is allowed, and it gets into the name.  Behind a quantifier the name
gets a star even from a text without one. -/
theorem Formula.parseSided_undisciplined :
    ('*' ∈ "~P*".toList ∧ Formula.parseSided .transparent "~P*" = .ok (.sided "P*" [] true)) ∧
    ('*' ∉ "[forall X P(X)]~(~Q(X))".toList ∧
      Formula.parseSided .transparent "[forall X P(X)]~(~Q(X))" =
        .ok (.quant .all "X" (.sided "P" [.var "X"] false) (.sided "Q*" [.var "X"] true))) ∧
    ¬ IsWord "P*".toList ∧ ¬ IsWord "Q*".toList := by
  have condition : readRestriction "P(X)".toList {} = .ok (.pred "P" [.var "X"]) :=
    readRestriction_eq_ok_iff.mpr ⟨[.applied ['P'] ['X']], ⟨["X"], []⟩, rfl,
      .disjunction (.conjunction (.negation (.atomic (.applied rfl) rfl)))⟩
  have denied : DerivesSided .transparent .implication [.mark .not false, .starred ['P'] none]
      (.sided "P*" [] true) :=
    .disjunction (.conjunction (.negation (.denied false rfl rfl rfl)))
  have inside : DerivesSided .transparent .implication
      [.mark .not false, .applied ['Q'] ['X']] (.sided "Q" [.var "X"] true) :=
    .disjunction (.conjunction (.negation (.denied false rfl rfl rfl)))
  have governed : DerivesSided .transparent .negation
      [.mark .not false, .mark .openParen false, .mark .not false, .applied ['Q'] ['X'],
        .mark .closeParen false] (.neg (.sided "Q" [.var "X"] true)) :=
    .not false (by decide) (.atomic (.parens false false inside) rfl)
  refine ⟨⟨by decide, readSided_eq_ok_iff.mpr ⟨_, rfl, denied⟩⟩, ⟨by decide +kernel, ?_⟩,
    by decide, by decide⟩
  exact readSided_eq_ok_iff.mpr ⟨_, rfl,
    (DerivesSided.quantified condition governed rfl rfl).whole rfl⟩

end WeakKleene
