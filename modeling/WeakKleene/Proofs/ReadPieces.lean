import WeakKleene.Proofs.Pieces

namespace WeakKleene
namespace Grammar

/-!
# The pieces of formulas that were read

A formula that was read has its pieces in order.  The vocabulary that a reader
is handed agrees with the variables that the pieces in front bind, and so does
the vocabulary that it leaves, whatever the restrictions of quantifiers entered
and forgot.
-/

/-! ## Arguments -/

/-- Arguments that are read have names from their text, and leave the variables as they were. -/
theorem readArguments_names {args : List Char} {terms : List Term} {before after : Vocabulary}
    (read : Gives (readArguments args) before terms after) (unclosed : ')' ∉ args) :
    ∃ names : List (List Char), (forall name, name ∈ names -> Listed name ∧ name ⊆ args) ∧
      terms = names.map (termNamed before.isVariable) ∧ after.isVariable = before.isVariable := by
  by_cases none : args = []
  · subst none
    rcases gives_pure.mp read with ⟨rfl, rfl⟩
    exact ⟨[], nofun, rfl, rfl⟩
  · rcases (gives_readArguments none).mp read with ⟨rfl, rfl⟩
    refine ⟨_, fun name member => ?_, rfl, Vocabulary.isVariable_foldl_add _ _⟩
    rcases List.mem_map.mp member with ⟨piece, inPieces, rfl⟩
    have within : Text.trim piece ⊆ piece := dropWhile_both_subset _ _
    have inside : piece ⊆ args := by
      have listed : piece ⊆ [','].intercalate (commaPieces args) :=
        (Formula.infix_intercalate inPieces).subset
      rwa [commaPieces, List.intercalate_splitOn] at listed
    exact ⟨⟨fun comma => separated_of_mem_commaPieces inPieces (within comma),
      fun paren => unclosed (inside (within paren)), Text.trim_trim piece⟩,
      List.Subset.trans within inside⟩

/-! ## Restrictions -/

section Restrictions

variable {level : Level} {before after : Vocabulary} {tokens : List Token} {formula : Formula}

theorem Derives.isVariable_eq (derived : Derives noRestriction level before tokens formula after)
    (formed : forall token, token ∈ tokens -> token.Formed) :
    after.isVariable = before.isVariable := by
  induction derived with
  | disjunction _ ih | conjunction _ ih
  | negation _ ih | atomic _ _ ih => exact ih formed
  | arrow _ _ _ atFirst atSecond | or _ _ _ atFirst atSecond | and _ _ _ atFirst atSecond =>
    exact (atSecond (each_split formed).2).trans (atFirst (each_split formed).1)
  | not _ _ ih => exact ih (formed_tail formed)
  | parens _ _ _ ih => exact ih (each_split (formed_tail formed)).1
  | quantified restricted => cases restricted
  | applied read =>
    rcases readArguments_names read (formed _ List.mem_cons_self).2 with ⟨_, _, _, same⟩
    exact same
  | operand => rfl

theorem not_mem_charsOf_part (absent : ']' ∉ Piece.charsOf formula.pieces) :
    ']' ∉ Piece.charsOf formula.part := by
  unfold Formula.part Piece.enclosed
  split
  · intro member
    rw [Piece.charsOf, Piece.charsOf_append] at member
    rcases List.mem_append.mp member with opening | member
    · exact absurd opening (by decide)
    · rcases List.mem_append.mp member with inside | closing
      · exact absent inside
      · exact absurd closing (by decide)
  · exact absent

theorem not_mem_charsOf_join {left right : Formula} (connective : Connective)
    (absent : ']' ∉ Piece.charsOf left.pieces) (absent' : ']' ∉ Piece.charsOf right.pieces) :
    ']' ∉ Piece.charsOf (Formula.join connective left right).pieces := by
  intro member
  rw [Formula.pieces, Piece.charsOf_append, Piece.charsOf] at member
  rcases List.mem_append.mp member with front | member
  · exact not_mem_charsOf_part absent front
  · rcases List.mem_append.mp member with between | back
    · cases connective <;> exact absurd between (by decide)
    · exact not_mem_charsOf_part absent' back

theorem mem_argsChars {isVariable : List Char -> Bool} {names : List (List Char)} {c : Char}
    (member : c ∈ Piece.argsChars (names.map (termNamed isVariable))) :
    c ∈ ['(', ')', ',', ' '] ∨ ∃ name, name ∈ names ∧ c ∈ name := by
  unfold Piece.argsChars at member
  split at member
  · cases member
  · rw [argumentChars_map_termNamed, List.mem_cons, List.mem_append] at member
    rcases member with rfl | inside | closing
    · exact .inl List.mem_cons_self
    · rcases Formula.mem_intercalate inside with between | found
      · exact .inl (List.mem_cons_of_mem _ (List.mem_cons_of_mem _ between))
      · exact .inr found
    · exact .inl (List.mem_cons_of_mem _ (List.mem_singleton.mp closing ▸ List.mem_cons_self))

/-- A formula that was read from text without closing brackets is written without them. -/
theorem Derives.unclosed (derived : Derives noRestriction level before tokens formula after)
    (each : forall token, token ∈ tokens -> token.Formed ∧ ']' ∉ token.source) :
    ']' ∉ Piece.charsOf formula.pieces := by
  induction derived with
  | disjunction _ ih | conjunction _ ih
  | negation _ ih | atomic _ _ ih => exact ih each
  | arrow _ _ _ atFirst atSecond | or _ _ _ atFirst atSecond | and _ _ _ atFirst atSecond =>
    exact not_mem_charsOf_join _ (atFirst (each_split each).1) (atSecond (each_split each).2)
  | not _ _ ih =>
    intro member
    rcases List.mem_append.mp member with sign | body
    · exact absurd sign (by decide)
    · exact not_mem_charsOf_part (ih (List.forall_mem_cons.mp each).2) body
  | parens _ _ _ ih => exact ih (each_split (List.forall_mem_cons.mp each).2).1
  | quantified restricted => cases restricted
  | @applied _ _ name args terms read =>
    rcases each _ List.mem_cons_self with ⟨formed, absent⟩
    rcases readArguments_names read formed.2 with ⟨names, listed, rfl, _⟩
    rw [Token.source, List.mem_append, List.mem_cons, List.mem_append, not_or, not_or,
      not_or] at absent
    intro member
    rw [Formula.pieces, Piece.charsOf, Piece.charsOf, Piece.chars, List.append_nil,
      String.toList_ofList] at member
    rcases List.mem_append.mp member with inName | inArgs
    · exact absent.1 inName
    · rcases mem_argsChars inArgs with bracket | ⟨piece, inNames, inside⟩
      · exact absurd bracket (by decide)
      · exact absent.2.2.1 ((listed piece inNames).2 inside)
  | @operand _ token =>
    rw [Formula.pieces, Piece.charsOf, Piece.chars_atom, Token.text, String.toList_ofList,
      Piece.charsOf, List.append_nil]
    exact (each token List.mem_cons_self).2

end Restrictions

/-! ## Whole formulas -/

/-- Pieces, put in front of others in order, are in order themselves. -/
def Lays (before : List Char -> Bool) (pieces : List Piece) (after : List Char -> Bool) : Prop :=
  forall rest, Ends rest -> Orderly after rest -> Orderly before (pieces ++ rest)

section Lays

variable {before between after : List Char -> Bool} {left right : Formula}

theorem Lays.part (laid : Lays before left.pieces after) : Lays before left.part after := by
  unfold Formula.part Piece.enclosed
  split
  · intro rest ends behind
    rw [List.cons_append, List.append_assoc]
    refine .sign .openParen false nofun (laid _ rfl ?_)
    exact .sign .closeParen false nofun behind
  · exact laid

theorem Lays.neg (laid : Lays before left.pieces after) :
    Lays before (Formula.neg left).pieces after :=
  fun rest ends behind =>
    .sign .not false nofun (laid.part rest ends behind)

theorem Lays.join (connective : Connective) (laid : Lays before left.pieces between)
    (laid' : Lays between right.pieces after) :
    Lays before (Formula.join connective left right).pieces after := by
  intro rest ends behind
  rw [Formula.pieces, List.append_assoc, List.cons_append]
  exact laid.part _ trivial (.link connective (laid'.part rest ends behind))

end Lays

theorem isVariable_addVariable_eq_binding (vocabulary : Vocabulary) (var : List Char) :
    (vocabulary.addVariable (String.ofList var)).isVariable =
      binding vocabulary.isVariable var := by
  funext name
  exact vocabulary.isVariable_addVariable var name

theorem atom_word {name : List Char} (isWord : IsWord name) : Piece.atom name = .word name [] := by
  rw [Piece.atom, if_pos (List.all_eq_true.mpr isWord.word)]

theorem atom_sign (which : Mark) (mathematical : Bool) :
    Piece.atom (Token.spelling which mathematical) = .sign (Token.spelling which mathematical) := by
  rcases spelling_eq_cons which mathematical with ⟨c, spelled, noWord, _⟩
  rw [Piece.atom, if_neg]
  rw [spelled, List.all_cons, noWord, Bool.false_and]
  exact Bool.false_ne_true

/-- By induction on the derivation: vocabularies pass from left to right, as pieces do. -/
theorem Derives.lays {restriction : List Char -> Vocabulary -> Except ParseError Formula}
    (restricted : forall {scope vocabulary condition}, ']' ∉ scope ->
      restriction scope vocabulary = .ok condition ->
      Orderly vocabulary.isVariable condition.pieces ∧ ']' ∉ Piece.charsOf condition.pieces)
    {level : Level} {before after : Vocabulary} {tokens : List Token} {formula : Formula}
    (derived : Derives restriction level before tokens formula after)
    (each : forall token, token ∈ tokens -> token.Plain ∧ token.Formed) :
    Lays before.isVariable formula.pieces after.isVariable := by
  induction derived with
  | disjunction _ ih | conjunction _ ih
  | negation _ ih | atomic _ _ ih => exact ih each
  | arrow _ _ _ atFirst atSecond | or _ _ _ atFirst atSecond | and _ _ _ atFirst atSecond =>
    exact .join _ (atFirst (each_split each).1) (atSecond (each_split each).2)
  | not _ _ ih => exact .neg (ih (List.forall_mem_cons.mp each).2)
  | parens _ _ _ ih => exact ih (each_split (List.forall_mem_cons.mp each).2).1
  | @quantified before _ quantifier var scope _ _ _ _ conditioned _ ih =>
    rcases List.forall_mem_cons.mp each with ⟨⟨⟨isWord, unclosed⟩, ruled, _⟩, others⟩
    rcases restricted unclosed conditioned with ⟨inside, absent⟩
    have governed := ih others
    rw [isVariable_addVariable_eq_binding] at inside governed
    intro rest ends behind
    rw [Formula.pieces, String.toList_ofList]
    exact .binder ruled isWord absent inside (governed rest ends behind)
  | @applied _ _ name args terms read =>
    rcases each _ List.mem_cons_self with ⟨_, isWord, unclosed⟩
    rcases readArguments_names read unclosed with ⟨names, listed, rfl, same⟩
    intro rest ends behind
    rw [Formula.pieces, String.toList_ofList]
    rw [same] at behind
    exact .word isWord (fun name member => (listed name member).1) ends behind
  | @operand vocabulary token plain =>
    intro rest ends behind
    rcases each token List.mem_cons_self with ⟨isPlain, formed⟩
    rw [Formula.pieces, Token.text, String.toList_ofList]
    cases token with
    | word name =>
      rw [Token.source, atom_word formed]
      exact @Orderly.word _ _ [] _ formed
        (fun _ member => absurd member List.not_mem_nil) ends behind
    | mark which mathematical =>
      rw [Token.source, atom_sign]
      exact .sign which mathematical (fun _ => ends) behind
    | applied | quantifier => cases plain
    | starred => cases isPlain

theorem readRestriction_orderly {scope : List Char} {vocabulary : Vocabulary}
    {condition : Formula} (unclosed : ']' ∉ scope)
    (read : readRestriction scope vocabulary = .ok condition) :
    Orderly vocabulary.isVariable condition.pieces ∧ ']' ∉ Piece.charsOf condition.pieces := by
  rcases readRestriction_eq_ok_iff.mp read with ⟨tokens, after, scanned, derived⟩
  have each := scan_plain scanned
  constructor
  · have laid := derived.lays (fun _ impossible => by cases impossible) each
    rw [derived.isVariable_eq fun token member => (each token member).2] at laid
    have orderly := laid [] trivial .nil
    rwa [List.append_nil] at orderly
  · exact derived.unclosed fun token member =>
      ⟨(each token member).2, fun bracket => unclosed (scan_source scanned token member bracket)⟩

end Grammar

open Grammar

theorem Formula.parse_orderly {text : String} {formula : Formula}
    (read : Formula.parse text = .ok formula) : Orderly Text.isUpper formula.pieces := by
  rcases Formula.parse_eq_ok_iff.mp read with ⟨_, tokens, after, scanned, derived⟩
  have orderly := derived.lays readRestriction_orderly (scan_plain scanned) [] trivial .nil
  rwa [List.append_nil, Vocabulary.isVariable_empty] at orderly

/-- Formulas that were read have the same text exactly if they consist of the same pieces. -/
theorem Formula.text_eq_iff_pieces_eq {text other : String} {formula formula' : Formula}
    (read : Formula.parse text = .ok formula) (read' : Formula.parse other = .ok formula') :
    formula.text = formula'.text ↔ formula.pieces = formula'.pieces := by
  rw [<- String.toList_inj, <- charsOf_pieces (Formula.parse_proper read),
    <- charsOf_pieces (Formula.parse_proper read')]
  constructor
  · exact (Formula.parse_orderly read).unique (Formula.parse_orderly read')
  · exact fun same => congrArg Piece.charsOf same

end WeakKleene
