import Mathlib.Data.List.TakeDrop
import Mathlib.Data.List.TakeWhile
import WeakKleene.Proofs.Derivations
import WeakKleene.Proofs.Denial

namespace WeakKleene
variable {formula : Formula} {name : List Char}

namespace Grammar

/-!
# Formulas as they are read

Names are words, and what stands in parentheses behind a name ends at the first
closing one; a quantifier is one of the two that have rules.  That is all the
scanner promises.  Every formula that is read from such tokens is proper, since
each connective is read together with all of its parts.  Quantifiers may stand
inside each other all the same: what a quantifier governs may be a quantified
formula, or anything in parentheses.
-/

open Tableau (exists_of_bind_eq_ok)

/-! ## Tokens -/

structure IsWord (name : List Char) : Prop where
  nonempty : name ≠ []
  word : forall c, c ∈ name -> Text.isWordChar c = true

theorem isWord_iff :
    IsWord name ↔ name.isEmpty = false ∧ name.all Text.isWordChar = true := by
  rw [List.isEmpty_eq_false_iff, List.all_eq_true]
  exact ⟨fun isWord => ⟨isWord.nonempty, isWord.word⟩, fun both => ⟨both.1, both.2⟩⟩

instance (name : List Char) : Decidable (IsWord name) := decidable_of_iff _ isWord_iff.symm

theorem IsWord.plain (isWord : IsWord name) :
    forall c, c ∈ name -> c ∉ [' ', ')', '(', '*', '~'] := by
  intro c member separator
  have word := isWord.word c member
  simp only [List.mem_cons, List.not_mem_nil, or_false] at separator
  rcases separator with rfl | rfl | rfl | rfl | rfl <;> exact absurd word (by decide)

theorem IsWord.identifier (isWord : IsWord name) :
    Formula.Identifier (String.ofList name) := by
  refine ⟨?_, ?_⟩
  · rw [ne_eq, String.ofList_eq_empty_iff]
    exact isWord.nonempty
  · rw [String.toList_ofList]
    exact isWord.plain

/-- What every token from the scanner satisfies. -/
def Token.Formed : Token -> Prop
  | .word name => IsWord name
  | .applied name args => IsWord name ∧ ')' ∉ args
  | .starred name args => IsWord name ∧ ')' ∉ args.getD []
  | .quantifier kind _ _ source => (kind = .all ∨ kind = .exist) ∧ source.head? = some '['
  | .mark .. => True

variable {text : List Char} {length position skip : Nat} {token : Token} {style : Style}
variable {tokens : List Token}

theorem enclosed?_eq_some {inside : List Char} (found : enclosed? text = some inside) :
    ')' ∉ inside := by
  simp only [enclosed?, List.span_eq_takeWhile_dropWhile] at found
  intro member
  split at found
  · cases found
  · rw [<- Option.some.inj found] at member
    exact absurd (List.mem_takeWhile_imp member) (by decide)

theorem nameToken_formed (style : Style) {c : Char} (starts : Text.isWordChar c = true)
    (rest : List Char) : (nameToken style (c :: rest)).1.Formed := by
  have isWord : IsWord (Text.spanWord (c :: rest)).1 := by
    rw [Text.spanWord, List.span_eq_takeWhile_dropWhile]
    refine ⟨?_, fun _ member => List.mem_takeWhile_imp member⟩
    rw [List.takeWhile_cons_of_pos starts]
    exact List.cons_ne_nil _ _
  rcases spanned : Text.spanWord (c :: rest) with ⟨name, behind⟩
  rw [spanned] at isWord
  simp only [nameToken, spanned]
  split
  · split
    · next args found => exact ⟨isWord, enclosed?_eq_some found⟩
    · exact ⟨isWord, List.not_mem_nil⟩
  · exact ⟨isWord, List.not_mem_nil⟩
  · split
    · next args found => exact ⟨isWord, enclosed?_eq_some found⟩
    · exact isWord
  · exact isWord

theorem quantifierSign?_ruled {rest : List Char} {quantifier : Quantifier}
    (found : quantifierSign? text = some (quantifier, length, rest)) :
    quantifier = .all ∨ quantifier = .exist := by
  unfold quantifierSign? at found
  split at found
  · cases found
    exact .inl rfl
  · cases found
    exact .inr rfl
  · unfold quantifierSign?.spelledOut at found
    split at found <;> cases found
    exact .inl rfl
  · unfold quantifierSign?.spelledOut at found
    split at found <;> cases found
    exact .inr rfl
  · cases found

theorem quantifierToken?_formed
    (found : quantifierToken? text = some (token, length)) : token.Formed := by
  simp only [quantifierToken?, Option.bind_eq_bind, Option.bind_eq_some_iff, Option.pure_def,
    Option.some.injEq, Prod.mk.injEq] at found
  rcases found with ⟨_, sign, _, _, rfl, _⟩
  exact ⟨quantifierSign?_ruled sign, rfl⟩

/-- What the token at the front of a text can be. -/
inductive Lexeme (style : Style) (text : List Char) : Token -> Prop where
  | mark (which : Mark) (mathematical : Bool) (front : Token.spelling which mathematical <+: text) :
      Lexeme style text (.mark which mathematical)
  | quantifier {rest : List Char} {token : Token} {length : Nat} (opened : text = '[' :: rest)
      (recognised : quantifierToken? rest = some (token, length)) : Lexeme style text token
  | name {c : Char} {rest : List Char} (split : text = c :: rest)
      (starts : Text.isWordChar c = true) : Lexeme style text (nameToken style text).1

theorem lexeme?_eq_some
    (found : lexeme? style text = some (some token, length)) : Lexeme style text token := by
  unfold lexeme? at found
  split at found
  case h_1 => cases found
  case h_12 rest =>
    split at found
    · next recognised =>
      cases found
      exact .quantifier rfl recognised
    · cases found
      exact .mark .openBracket false ⟨_, rfl⟩
    · cases found
  case h_13 =>
    split at found
    · cases found
      exact .mark .closeBracket false ⟨_, rfl⟩
    · cases found
  case h_14 c rest _ _ _ _ _ _ _ _ _ _ _ _ =>
    split at found
    · next starts =>
      cases found
      exact .name rfl starts
    · split at found <;> cases found
  all_goals
    cases found
    exact .mark _ _ ⟨_, rfl⟩

theorem Lexeme.formed (lexeme : Lexeme style text token) : token.Formed := by
  cases lexeme with
  | mark => exact True.intro
  | quantifier _ recognised => exact quantifierToken?_formed recognised
  | name split starts =>
    rw [split]
    exact nameToken_formed style starts _

/-- What holds of every lexeme in a text holds of all tokens of the text. -/
theorem scanFrom_each {good : Token -> Prop}
    (lexemes : forall back token, back <:+ text -> Lexeme style back token -> good token)
    (scanned : scanFrom style position skip text = .ok tokens) :
    forall token, token ∈ tokens -> good token := by
  fun_induction scanFrom style position skip text generalizing tokens with
  | case1 =>
    cases scanned
    exact nofun
  | case2 position skip c rest ih =>
    exact ih (fun back token behind => lexemes back token (behind.trans (List.suffix_cons c rest)))
      scanned
  | case3 => cases scanned
  | case4 position c rest here length found ih =>
    rcases exists_of_bind_eq_ok scanned with ⟨more, later, joined⟩
    cases joined
    intro token member
    rcases List.mem_append.mp member with front | member
    · rw [Option.mem_toList] at front
      rw [front] at found
      exact lexemes (c :: rest) token List.suffix_rfl (lexeme?_eq_some found)
    · exact ih
        (fun back token behind => lexemes back token (behind.trans (List.suffix_cons c rest)))
        later token member

theorem scanFrom_formed (scanned : scanFrom style position skip text = .ok tokens) :
    forall token, token ∈ tokens -> token.Formed :=
  scanFrom_each (fun _ _ _ lexeme => lexeme.formed) scanned

/-! ## Tokens of plain text -/

/-- What every token of plain text satisfies. -/
def Token.Plain : Token -> Prop
  | .quantifier _ var scope _ => IsWord var ∧ ']' ∉ scope
  | .starred .. => False
  | _ => True

theorem binder?_plain {var scope : List Char}
    (found : binder? text = some (var, scope, length)) : IsWord var ∧ ']' ∉ scope := by
  unfold binder? at found
  rcases spanned : Text.spanWord text with ⟨name, behind⟩
  rw [spanned] at found
  rw [Text.spanWord, List.span_eq_takeWhile_dropWhile] at spanned
  cases name with
  | nil => cases found
  | cons c name =>
    cases behind with
    | nil => cases found
    | cons blank behind =>
      dsimp only at found
      split at found
      · cases found
        refine ⟨⟨List.cons_ne_nil _ _, fun d member => ?_⟩, fun member => ?_⟩
        · rw [<- (Prod.mk.inj spanned).1] at member
          exact List.mem_takeWhile_imp member
        · have inside := List.dropWhile_subset _ member
          rw [List.span_eq_takeWhile_dropWhile] at inside
          exact absurd (List.mem_takeWhile_imp inside) (by decide)
      · cases found

theorem enclosed?_split {inside : List Char} (found : enclosed? text = some inside) :
    ∃ rest, text = inside ++ ')' :: rest := by
  simp only [enclosed?, List.span_eq_takeWhile_dropWhile] at found
  split at found
  · cases found
  · next rest nonempty =>
    cases found
    rcases List.exists_cons_of_ne_nil nonempty with ⟨c, others, split⟩
    have stopped := List.head?_dropWhile_not (· != ')') text
    rw [split, List.head?_cons] at stopped
    have closing : c = ')' := by simpa using stopped
    subst closing
    exact ⟨others, by rw [<- split, List.takeWhile_append_dropWhile]⟩

/-- A name with what belongs to it is a piece of text. -/
theorem nameToken_source (style : Style) (text : List Char) :
    text.take (nameToken style text).2 = (nameToken style text).1.source := by
  unfold nameToken
  rcases spanned : Text.spanWord text with ⟨name, rest⟩
  rw [Text.spanWord, List.span_eq_takeWhile_dropWhile] at spanned
  have whole : text = name ++ rest := by
    rw [<- (Prod.mk.inj spanned).1, <- (Prod.mk.inj spanned).2, List.takeWhile_append_dropWhile]
  have front {token : Token} {length : Nat} {others : List Char}
      (split : name ++ rest = token.source ++ others) (long : length = token.source.length) :
      (name ++ rest).take length = token.source := by
    rw [split, long]
    exact List.take_left
  rw [whole]
  dsimp only
  split
  · split
    · next args found =>
      rcases enclosed?_split found with ⟨others, rfl⟩
      refine @front (.starred name (some args)) _ others (by simp [Token.source]) ?_
      simp only [Token.source, List.length_append, List.length_cons, List.length_nil]
      omega
    · exact @front (.starred name none) _ _ (List.append_cons name '*' _) (by simp [Token.source])
  · exact @front (.starred name none) _ _ (List.append_cons name '*' _) (by simp [Token.source])
  · split
    · next args found =>
      rcases enclosed?_split found with ⟨others, rfl⟩
      refine @front (.applied name args) _ others (by simp [Token.source]) ?_
      simp only [Token.source, List.length_append, List.length_cons, List.length_nil]
      omega
    · exact @front (.word name) _ _ rfl rfl
  · exact @front (.word name) _ _ rfl rfl

theorem nameToken_plain (text : List Char) : (nameToken .plain text).1.Plain := by
  unfold nameToken
  rcases Text.spanWord text with ⟨name, rest⟩
  dsimp only
  split
  · next impossible => cases impossible
  · next impossible => cases impossible
  · split <;> exact True.intro
  · exact True.intro

theorem Lexeme.plain (lexeme : Lexeme .plain text token) :
    token.Plain := by
  cases lexeme with
  | mark => exact True.intro
  | quantifier opened recognised =>
    simp only [quantifierToken?, Option.bind_eq_bind, Option.bind_eq_some_iff,
      Option.pure_def, Option.some.injEq, Prod.mk.injEq] at recognised
    rcases recognised with ⟨_, _, _, binder, rfl, _⟩
    exact binder?_plain binder
  | name => exact nameToken_plain text

theorem Lexeme.source (lexeme : Lexeme style text token) : token.source <+: text := by
  cases lexeme with
  | mark which mathematical front => exact front
  | quantifier opened recognised =>
    simp only [quantifierToken?, Option.bind_eq_bind, Option.bind_eq_some_iff,
      Option.pure_def, Option.some.injEq, Prod.mk.injEq] at recognised
    rcases recognised with ⟨_, _, _, _, rfl, _⟩
    rw [opened]
    exact List.cons_prefix_cons.mpr ⟨rfl, List.take_prefix _ _⟩
  | name => exact nameToken_source style text ▸ List.take_prefix _ _

theorem scan_plain (scanned : scan .plain text = .ok tokens) :
    forall token, token ∈ tokens -> token.Plain ∧ token.Formed :=
  scanFrom_each (fun _ _ _ lexeme => ⟨lexeme.plain, lexeme.formed⟩) scanned

theorem scan_source (scanned : scan style text = .ok tokens) :
    forall token, token ∈ tokens -> token.source ⊆ text :=
  scanFrom_each (fun _ _ behind lexeme _ member =>
    behind.subset (lexeme.source.subset member)) scanned

theorem nameToken_pos (style : Style) {c : Char} (starts : Text.isWordChar c = true)
    (rest : List Char) : 0 < (nameToken style (c :: rest)).2 := by
  have nonempty : 0 < (Text.spanWord (c :: rest)).1.length := by
    rw [Text.spanWord, List.span_eq_takeWhile_dropWhile, List.takeWhile_cons_of_pos starts]
    exact Nat.zero_lt_succ _
  unfold nameToken
  rcases spanned : Text.spanWord (c :: rest) with ⟨name, behind⟩
  rw [spanned] at nonempty
  dsimp only at nonempty ⊢
  split
  · split <;> dsimp only <;> omega
  · exact Nat.zero_lt_succ _
  · split <;> dsimp only <;> omega
  · exact nonempty

/-- What is taken off a text is a blank or a token. -/
theorem lexeme?_covers {here : Option Token} (found : lexeme? style text = some (here, length)) :
    0 < length ∧ forall d, d ∈ text.take length ->
      Text.isBlank d = true ∨ ∃ token, here = some token ∧ d ∈ token.source := by
  unfold lexeme? at found
  split at found
  case h_1 => cases found
  case h_12 =>
    split at found
    · next recognised =>
      cases found
      simp only [quantifierToken?, Option.bind_eq_bind, Option.bind_eq_some_iff,
        Option.pure_def, Option.some.injEq, Prod.mk.injEq] at recognised
      rcases recognised with ⟨_, _, _, _, rfl, rfl⟩
      exact ⟨Nat.zero_lt_succ _, fun d member => .inr ⟨_, rfl, member⟩⟩
    · cases found
      exact ⟨Nat.one_pos, fun d member => .inr ⟨_, rfl, member⟩⟩
    · cases found
  case h_13 =>
    split at found
    · cases found
      exact ⟨Nat.one_pos, fun d member => .inr ⟨_, rfl, member⟩⟩
    · cases found
  case h_14 =>
    split at found
    · next starts =>
      simp only [Option.some.injEq, Prod.mk.injEq] at found
      rcases found with ⟨rfl, rfl⟩
      refine ⟨nameToken_pos style starts _, fun d member => .inr ⟨_, rfl, ?_⟩⟩
      rwa [nameToken_source] at member
    · split at found
      · next blank =>
        cases found
        refine ⟨Nat.one_pos, fun d member => .inl ?_⟩
        rwa [List.mem_singleton.mp member]
      · cases found
  all_goals
    cases found
    exact ⟨Nat.succ_pos _, fun d member => .inr ⟨_, rfl, member⟩⟩

/-- Every character that is not blank belongs to a token. -/
theorem scanFrom_covers (scanned : scanFrom style position skip text = .ok tokens) :
    forall d, d ∈ text.drop skip ->
      Text.isBlank d = true ∨ ∃ token, token ∈ tokens ∧ d ∈ token.source := by
  fun_induction scanFrom style position skip text generalizing tokens with
  | case1 => exact fun d member => absurd member (by simp)
  | case2 position skip c rest ih => exact ih scanned
  | case3 => cases scanned
  | case4 position c rest here length found ih =>
    rcases exists_of_bind_eq_ok scanned with ⟨more, later, joined⟩
    cases joined
    rcases lexeme?_covers found with ⟨positive, front⟩
    have behind : (c :: rest).drop length = rest.drop (length - 1) := by
      rcases Nat.exists_eq_succ_of_ne_zero (Nat.pos_iff_ne_zero.mp positive) with ⟨less, rfl⟩
      rfl
    intro d member
    rw [List.drop_zero, <- List.take_append_drop length (c :: rest), behind,
      List.mem_append] at member
    rcases member with first | second
    · rcases front d first with blank | ⟨token, same, inside⟩
      · exact .inl blank
      · exact .inr ⟨token, List.mem_append_left _ (Option.mem_toList.mpr same), inside⟩
    · rcases ih later d second with blank | ⟨token, listed, inside⟩
      · exact .inl blank
      · exact .inr ⟨token, List.mem_append_right _ listed, inside⟩

/-! ## Formulas -/

theorem formed_tail {rest : List Token}
    (formed : forall other, other ∈ token :: rest -> other.Formed) :
    forall other, other ∈ rest -> other.Formed :=
  fun other member => formed other (List.mem_cons_of_mem _ member)

/-- What holds of all tokens of a production holds of those on both sides of its sign. -/
theorem each_split {good : Token -> Prop} {front back : List Token}
    (each : forall other, other ∈ front ++ token :: back -> good other) :
    (forall other, other ∈ front -> good other) ∧ forall other, other ∈ back -> good other :=
  ⟨fun other member => each other (List.mem_append_left _ member),
    fun other member => each other (List.mem_append_right _ (List.mem_cons_of_mem _ member))⟩

def ReadsProper (restriction : List Char -> Vocabulary -> Except ParseError Formula) : Prop :=
  forall text vocabulary formula, restriction text vocabulary = .ok formula -> formula.Proper

/-- By induction on the derivation: each production puts proper formulas together. -/
theorem Derives.proper {restriction : List Char -> Vocabulary -> Except ParseError Formula}
    (restricted : ReadsProper restriction) {level : Level} {before after : Vocabulary}
    (derived : Derives restriction level before tokens formula after)
    (formed : forall token, token ∈ tokens -> token.Formed) : formula.Proper := by
  induction derived with
  | disjunction _ ih | conjunction _ ih
  | negation _ ih | atomic _ _ ih => exact ih formed
  | arrow _ _ _ atFirst atSecond | or _ _ _ atFirst atSecond | and _ _ _ atFirst atSecond =>
    exact .join _ (atFirst (each_split formed).1) (atSecond (each_split formed).2)
  | not _ _ ih => exact .neg (ih (formed_tail formed))
  | parens _ _ _ ih => exact ih (each_split (formed_tail formed)).1
  | quantified conditioned _ ih =>
    have first := restricted _ _ _ conditioned
    have second := ih (formed_tail formed)
    rcases (formed _ List.mem_cons_self).1 with rfl | rfl
    · exact .all first second
    · exact .exist first second
  | applied => exact .atomic rfl
  | operand => exact .atomic rfl

theorem readRestriction_proper {vocabulary : Vocabulary}
    (read : readRestriction text vocabulary = .ok formula) : formula.Proper := by
  have refused : ReadsProper noRestriction := nofun
  rcases readRestriction_eq_ok_iff.mp read with ⟨tokens, after, scanned, derived⟩
  exact derived.proper refused (scanFrom_formed scanned)

end Grammar

open Grammar

theorem Formula.parse_proper {text : String}
    (read : Formula.parse text = .ok formula) : formula.Proper := by
  rcases Formula.parse_eq_ok_iff.mp read with ⟨_, tokens, after, scanned, derived⟩
  exact derived.proper (fun _ _ _ => readRestriction_proper) (scanFrom_formed scanned)

end WeakKleene
