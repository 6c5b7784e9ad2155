import WeakKleene.Proofs.TextTokens

namespace WeakKleene

/-!
# Reading back formulas and inferences

An inference is cut at its turnstile, the front part is cut at the commas
outside all brackets, and the pieces are trimmed.  Written formulas survive
this.  The bar of a disjunction has a blank behind it, so that it starts no
turnstile.  The commas inside a formula stand between arguments, inside
parentheses that are closed again.  And a formula starts and ends with
something other than a blank.
-/

namespace Grammar

/-! ## Turnstiles -/

/-- No turnstile starts inside the text, whatever follows it. -/
def Passed (text : List Char) : Prop :=
  forall piece rest, turnstilePiecesFrom piece (text ++ rest) =
    turnstilePiecesFrom (text.reverse ++ piece) rest

theorem Passed.append {front back : List Char} (first : Passed front) (second : Passed back) :
    Passed (front ++ back) := by
  intro piece rest
  rw [List.append_assoc, first, second, List.reverse_append, List.append_assoc]

theorem turnstilePiecesFrom_cons {c : Char} (other : c ≠ '|') (piece rest : List Char) :
    turnstilePiecesFrom piece (c :: rest) = turnstilePiecesFrom (c :: piece) rest := by
  rw [turnstilePiecesFrom]
  intro _ same
  exact absurd same other

variable {text : List Char}

theorem passed_of_not_mem (barless : '|' ∉ text) : Passed text := by
  induction text with
  | nil => exact fun _ _ => rfl
  | cons c text ih =>
    rw [List.mem_cons, not_or] at barless
    intro piece rest
    rw [List.cons_append, turnstilePiecesFrom_cons (Ne.symm barless.1),
      ih barless.2, List.reverse_cons, List.append_assoc]
    rfl

theorem passed_link (connective : Connective) :
    Passed (' ' :: (connective.symbol.toList ++ [' '])) := by
  cases connective with
  | conj => exact passed_of_not_mem (by decide)
  | disj => exact fun _ _ => rfl
  | imp => exact passed_of_not_mem (by decide)

/-! ## Commas outside all brackets -/

/-- The text holds no comma outside all brackets, and closes what it opens. -/
def Sealed (text : List Char) : Prop :=
  forall (depth : Int) piece rest, 0 <= depth -> topLevelPiecesFrom depth piece (text ++ rest) =
      topLevelPiecesFrom depth (text.reverse ++ piece) rest

theorem Sealed.append {front back : List Char} (first : Sealed front) (second : Sealed back) :
    Sealed (front ++ back) := by
  intro depth piece rest inside
  rw [List.append_assoc, first depth piece _ inside, second depth _ rest inside,
    List.reverse_append, List.append_assoc]

def isBracket (c : Char) : Bool := ['(', ')', '[', ']'].contains c

theorem eq_of_isBracket {c : Char} (bracket : isBracket c = true) :
    c = '(' ∨ c = ')' ∨ c = '[' ∨ c = ']' := by
  simpa [isBracket] using bracket

/-- Text without brackets keeps the depth, and commas in it do not count inside brackets. -/
theorem topLevelPiecesFrom_append {depth : Int}
    (flat : text.any isBracket = false) (uncut : ',' ∉ text ∨ depth ≠ 0)
    (piece rest : List Char) :
    topLevelPiecesFrom depth piece (text ++ rest) =
      topLevelPiecesFrom depth (text.reverse ++ piece) rest := by
  induction text generalizing piece with
  | nil => rfl
  | cons c text ih =>
    rw [List.any_cons, Bool.or_eq_false_iff] at flat
    have kept : depthAfter depth c = depth := by
      have plain := flat.1
      simp only [isBracket, List.contains_cons, List.contains_nil, Bool.or_false,
        Bool.or_eq_false_iff] at plain
      rw [depthAfter, plain.1, plain.2.1, plain.2.2.1, plain.2.2.2]
      rfl
    have stays : (c == ',' && depth == 0) = false := by
      rcases uncut with absent | inside
      · have other : c ≠ ',' := fun same => absent (same ▸ List.mem_cons_self)
        rw [beq_eq_false_iff_ne.mpr other, Bool.false_and]
      · rw [beq_eq_false_iff_ne.mpr inside, Bool.and_false]
    rw [List.cons_append, topLevelPiecesFrom, stays, kept]
    rw [if_neg Bool.false_ne_true, ih flat.2
      (uncut.imp_left fun absent member => absent (List.mem_cons_of_mem _ member)),
      List.reverse_cons, List.append_assoc]
    rfl

theorem sealed_of_flat (flat : text.any isBracket = false) (noComma : ',' ∉ text) : Sealed text :=
  fun _ piece rest _ => topLevelPiecesFrom_append flat (.inl noComma) piece rest

/-- Whatever keeps the depth inside brackets may stand in parentheses. -/
theorem sealed_parens (inner : forall (depth : Int) piece rest, 0 < depth ->
      topLevelPiecesFrom depth piece (text ++ rest) =
        topLevelPiecesFrom depth (text.reverse ++ piece) rest) :
    Sealed ('(' :: (text ++ [')'])) := by
  intro depth piece rest inside
  have opened : topLevelPiecesFrom depth piece ('(' :: (text ++ ')' :: rest)) =
      topLevelPiecesFrom (depth + 1) ('(' :: piece) (text ++ ')' :: rest) := rfl
  have closed (piece : List Char) : topLevelPiecesFrom (depth + 1) piece (')' :: rest) =
      topLevelPiecesFrom (depth + 1 - 1) (')' :: piece) rest := rfl
  rw [List.cons_append, List.append_assoc, List.singleton_append, opened,
    inner (depth + 1) _ _ (by omega), closed, Int.add_sub_cancel]
  simp

/-! ## Written formulas -/

/-- A text that is found again between commas and turnstiles. -/
structure Portable (text : List Char) : Prop where
  passed : Passed text
  sealed : Sealed text
  tight : Tight text

theorem IsWord.portable {name : List Char} (isWord : IsWord name) : Portable name := by
  refine ⟨passed_of_not_mem (isWord.not_mem (by decide)), sealed_of_flat ?_ ?_, isWord.tight⟩
  · refine List.any_eq_false.mpr fun c member bracket => ?_
    have word := isWord.word c member
    rcases eq_of_isBracket bracket with rfl | rfl | rfl | rfl <;> exact absurd word (by decide)
  · exact isWord.not_mem (by decide)

theorem Portable.parens (portable : Portable text) : Portable ('(' :: (text ++ [')'])) := by
  have opening : Passed ['('] := passed_of_not_mem (by decide)
  have closing : Passed [')'] := passed_of_not_mem (by decide)
  have around : Tight (['('] ++ (text ++ [')'])) :=
    (tight_singleton (by decide)).append text (tight_singleton (by decide))
  exact ⟨opening.append (portable.passed.append closing),
    sealed_parens fun depth piece rest inside =>
      portable.sealed depth piece rest (Int.le_of_lt inside), around⟩

end Grammar

variable {formula : Formula} {texts others : List (List Char)}
variable {before : Vocabulary} {first : List Char}

namespace Formula

open Grammar

theorem portable_part (portable : Portable formula.text.toList) :
    Portable formula.partChars := by
  cases compound : formula.isCompound with
  | true =>
    rw [partChars_compound compound]
    exact portable.parens
  | false =>
    rw [partChars, enclose, compound]
    exact portable

theorem portable_pred {name : String} {args : List Term} (isWord : IsWord name.toList)
    (nonempty : args ≠ []) (regular : forall term, term ∈ args -> term.Regular) :
    Portable (pred name args).text.toList := by
  have absent {c : Char} (other : c ≠ ',' ∧ c ≠ ' ' ∧ Text.isWordChar c = false) :
      c ∉ argumentChars args :=
    not_mem_argumentChars (fun term listed => (regular term listed).1) other.2.2 other.1 other.2.1
  have inner : Sealed ('(' :: (argumentChars args ++ [')'])) := by
    apply sealed_parens
    intro depth piece rest inside
    apply topLevelPiecesFrom_append ?_ (.inr (by omega))
    refine List.any_eq_false.mpr fun c member bracket => ?_
    rcases eq_of_isBracket bracket with rfl | rfl | rfl | rfl <;>
      exact absent ⟨by decide, by decide, by decide⟩ member
  have barless : '|' ∉ '(' :: (argumentChars args ++ [')']) := by
    intro member
    rw [List.mem_cons, List.mem_append, List.mem_singleton] at member
    rcases member with impossible | inside | impossible
    · exact absurd impossible (by decide)
    · exact absent ⟨by decide, by decide, by decide⟩ inside
    · exact absurd impossible (by decide)
  rw [text, application_toList, if_neg nonempty]
  exact ⟨isWord.portable.passed.append (passed_of_not_mem barless),
    isWord.portable.sealed.append inner,
    isWord.tight.append ('(' :: argumentChars args) (tight_singleton (by decide))⟩

/-- By induction on the formula. -/
theorem portable_text (regular : formula.BuiltFrom Regular) :
    Portable formula.text.toList := by
  induction regular with
  | @basic formula given =>
    cases formula with
    | atom name => exact IsWord.portable given
    | pred name args => exact portable_pred given.1 given.2.1 given.2.2
    | _ => cases given
  | @neg body _ ih =>
    have part := portable_part ih
    have sign : Passed ['~'] := passed_of_not_mem (by decide)
    have sign' : Sealed ['~'] := sealed_of_flat (by decide) (by decide)
    have around : Tight (['~'] ++ ([] ++ body.partChars)) :=
      (tight_singleton (by decide)).append [] part.tight
    rw [text_neg_toList]
    exact ⟨sign.append part.passed, sign'.append part.sealed, around⟩
  | @join left right connective _ _ atFirst atSecond =>
    have front := portable_part atFirst
    have back := portable_part atSecond
    have sealed : Sealed (' ' :: (connective.symbol.toList ++ [' '])) := by
      cases connective <;> exact sealed_of_flat (by decide) (by decide)
    have whole : (join connective left right).text.toList =
        left.partChars ++ ((' ' :: (connective.symbol.toList ++ [' '])) ++ right.partChars) := by
      rw [text_join_toList]
      simp
    rw [whole]
    exact ⟨front.passed.append ((passed_link connective).append back.passed),
      front.sealed.append (sealed.append back.sealed), front.tight.append _ back.tight⟩

end Formula

namespace Grammar

/-! ## Cutting an inference -/

theorem Tight.trim_piece {text piece : List Char} (tight : Tight text)
    (blank : piece = [] ∨ piece = [' ']) : Text.trim (text.reverse ++ piece).reverse = text := by
  rw [List.reverse_append, List.reverse_reverse]
  rcases blank with rfl | rfl
  · exact tight.trim_eq
  · exact (Text.trim_cons_blank (by decide) text).trans tight.trim_eq

/-- Texts between commas are found again.  Behind a comma the next piece starts with a blank. -/
theorem map_trim_topLevelPieces (portable : forall text, text ∈ first :: others -> Portable text)
    {piece : List Char} (blank : piece = [] ∨ piece = [' ']) :
    (topLevelPiecesFrom 0 piece (listing (first :: others))).map Text.trim = first :: others := by
  induction others generalizing first piece with
  | nil =>
    have isPortable := portable first List.mem_cons_self
    have whole := isPortable.sealed 0 piece [] (Int.le_refl 0)
    have nonempty : ¬ (first.reverse ++ piece).isEmpty = true := by
      simp [isPortable.tight.nonempty]
    rw [List.append_nil, topLevelPiecesFrom, if_neg nonempty] at whole
    rw [listing, List.intercalate_singleton, whole, List.map_singleton,
      isPortable.tight.trim_piece blank]
  | cons second others ih =>
    have isPortable := portable first List.mem_cons_self
    have cut (piece rest : List Char) : topLevelPiecesFrom 0 piece (',' :: ' ' :: rest) =
        piece.reverse :: topLevelPiecesFrom 0 [' '] rest := rfl
    rw [listing_cons_cons, isPortable.sealed 0 piece _ (Int.le_refl 0), cut, List.map_cons,
      isPortable.tight.trim_piece blank, ih
        (fun text member => portable text (List.mem_cons_of_mem _ member)) (.inr rfl)]

theorem Portable.listing (portable : forall text, text ∈ first :: others -> Portable text) :
    Passed (listing (first :: others)) ∧ Tight (listing (first :: others)) := by
  induction others generalizing first with
  | nil =>
    have isPortable := portable first List.mem_cons_self
    rw [Grammar.listing, List.intercalate_singleton]
    exact ⟨isPortable.passed, isPortable.tight⟩
  | cons second others ih =>
    have isPortable := portable first List.mem_cons_self
    rcases ih fun text member => portable text (List.mem_cons_of_mem _ member) with ⟨passed, tight⟩
    have comma : Passed [',', ' '] := passed_of_not_mem (by decide)
    rw [listing_cons_cons]
    exact ⟨isPortable.passed.append (comma.append passed), isPortable.tight.append [',', ' '] tight⟩

theorem premisePieces_eq (portable : forall text, text ∈ texts -> Portable text) :
    (topLevelPieces (Text.trim (listing texts ++ [' ']))).map Text.trim = texts := by
  rw [Text.trim_append_blank (by decide)]
  cases texts with
  | nil => rfl
  | cons first others =>
    rw [(Portable.listing portable).2.trim_eq]
    exact map_trim_topLevelPieces portable (.inl rfl)

theorem turnstilePieces_of_passed {text : List Char} (passed : Passed text) :
    turnstilePieces text = [text] := by
  have whole := passed [] []
  rw [List.append_nil, List.append_nil] at whole
  rw [turnstilePieces, whole, turnstilePiecesFrom, List.reverse_reverse]

/-- An inference is cut at the turnstile that was written between its parts. -/
theorem turnstilePieces_inference {conclusion : List Char}
    (portable : forall text, text ∈ texts -> Portable text) (passed : Passed conclusion) :
    turnstilePieces (listing texts ++ ' ' :: '|' :: '-' :: ' ' :: conclusion) =
      [listing texts ++ [' '], ' ' :: conclusion] := by
  have front : Passed (listing texts) := by
    cases texts with
    | nil => exact passed_of_not_mem List.not_mem_nil
    | cons first others => exact (Portable.listing portable).1
  have cut (piece rest : List Char) : turnstilePiecesFrom piece (' ' :: '|' :: '-' :: ' ' :: rest) =
      (' ' :: piece).reverse :: turnstilePiecesFrom [' '] rest := rfl
  have back := passed [' '] []
  rw [List.append_nil] at back
  rw [turnstilePieces, front, cut, back, turnstilePiecesFrom]
  simp

end Grammar

open Grammar

namespace Inference

/-- An inference between regular formulas. -/
structure Regular (inference : Inference) : Prop where
  premises : forall premise, premise ∈ inference.premises -> premise.BuiltFrom Formula.Regular
  conclusion : inference.conclusion.BuiltFrom Formula.Regular

variable {inference : Inference}

theorem Regular.portable (regular : inference.Regular) :
    forall text, text ∈ inference.premises.map (fun premise => premise.text.toList) ->
      Portable text := by
  intro text member
  rcases List.mem_map.mp member with ⟨premise, listed, rfl⟩
  exact Formula.portable_text (regular.premises premise listed)

theorem text_toList (inference : Inference) :
    inference.text.toList = listing (inference.premises.map fun premise => premise.text.toList) ++
      ' ' :: '|' :: '-' :: ' ' :: inference.conclusion.text.toList := by
  rw [text, String.toList_append, String.toList_append, String.toList_intercalate, List.map_map,
    List.append_assoc]
  rfl

theorem Regular.turnstilePieces_text (regular : inference.Regular) :
    turnstilePieces inference.text.toList =
      [listing (inference.premises.map fun premise => premise.text.toList) ++ [' '],
        ' ' :: inference.conclusion.text.toList] := by
  rw [text_toList]
  exact turnstilePieces_inference regular.portable (Formula.portable_text regular.conclusion).passed

/-! ## Reading back -/

/-- Premises are read back one after the other, each in the vocabulary that the ones before it
left. -/
theorem gives_readPremises {premises : List Formula}
    (regular : forall premise, premise ∈ premises -> premise.BuiltFrom Formula.Regular)
    (byCase : before.isVariable = Text.isUpper) :
    ∃ after, after.isVariable = Text.isUpper ∧
      Gives ((premises.map fun premise => premise.text.toList).mapM readFormula) before premises
        after := by
  induction premises generalizing before with
  | nil => exact ⟨before, byCase, gives_mapM_nil.mpr ⟨rfl, rfl⟩⟩
  | cons first others ih =>
    rcases Formula.gives_readFormula_text (regular first List.mem_cons_self) byCase with
      ⟨between, kept, read⟩
    rcases ih (fun premise member => regular premise (List.mem_cons_of_mem _ member)) kept with
      ⟨after, kept', later⟩
    exact ⟨after, kept', gives_mapM_cons.mpr ⟨first, others, between, rfl, read, later⟩⟩

theorem Regular.gives_readInference (regular : inference.Regular)
    (byCase : before.isVariable = Text.isUpper) :
    ∃ after, Gives (readInference inference.text.toList) before inference after := by
  rcases gives_readPremises regular.premises byCase with ⟨between, kept, premisesRead⟩
  rcases Formula.gives_readFormula_text regular.conclusion kept with ⟨after, _, conclusionRead⟩
  refine ⟨after, ?_⟩
  rw [readInference, regular.turnstilePieces_text]
  refine gives_bind.mpr ⟨inference.premises, between, ?_, ?_⟩
  · rw [<- premisePieces_eq regular.portable, List.mapM_map] at premisesRead
    exact premisesRead
  · refine gives_map.mpr ⟨inference.conclusion, ?_, rfl⟩
    rw [Text.trim_cons_blank (by decide), (Formula.portable_text regular.conclusion).tight.trim_eq]
    exact conclusionRead

end Inference

theorem Formula.parse_text_eq (regular : formula.BuiltFrom Regular) :
    Formula.parse formula.text = .ok formula := by
  rcases exists_readBack regular Vocabulary.isVariable_empty with ⟨after, read⟩
  refine read.whole.parse_eq (scan_text regular) ?_
  rw [hasTurnstile, turnstilePieces_of_passed (portable_text regular).passed]
  rfl

theorem Inference.Regular.parse_text_eq {inference : Inference} (regular : inference.Regular) :
    Inference.parse inference.text = .ok inference := by
  rcases regular.gives_readInference Vocabulary.isVariable_empty with ⟨after, read⟩
  have cut : hasTurnstile inference.text.toList = true := by
    rw [hasTurnstile, regular.turnstilePieces_text]
    rfl
  rw [Inference.parse, gives_readSentence.mpr (.inl ⟨cut, inference, read, rfl⟩)]

/-- Formulas without quantifiers and inferences between them are read back as they were written,
where names are words and case tells variables from constants. -/
theorem read_back_written : (forall formula : Formula, formula.BuiltFrom Formula.Regular ->
      Formula.parse formula.text = .ok formula) ∧
    forall inference : Inference, inference.Regular ->
      Inference.parse inference.text = .ok inference :=
  ⟨fun _ regular => Formula.parse_text_eq regular, fun _ regular => regular.parse_text_eq⟩

/-- The commas between arguments and the bar of a disjunction do not cut an inference. -/
theorem related_read_back :
    Formula.parse "R(X, a) -> (p | (~q))" = .ok (.join .imp (.pred "R" [.var "X", .const "a"])
      (.join .disj (.atom "p") (.neg (.atom "q")))) ∧
    Inference.parse "R(X, a) -> (p | (~q)), q |- p" =
      .ok ⟨[.join .imp (.pred "R" [.var "X", .const "a"])
        (.join .disj (.atom "p") (.neg (.atom "q"))), .atom "q"], .atom "p"⟩ := by
  have first : (Formula.atom "p").BuiltFrom Formula.Regular :=
    .basic (by decide : IsWord "p".toList)
  have second : (Formula.atom "q").BuiltFrom Formula.Regular :=
    .basic (by decide : IsWord "q".toList)
  have args : forall term, term ∈ [Term.var "X", .const "a"] -> term.Regular :=
    List.forall_mem_cons.mpr ⟨⟨by decide, by decide⟩,
      List.forall_mem_singleton.mpr ⟨by decide, by decide⟩⟩
  have related : (Formula.pred "R" [.var "X", .const "a"]).BuiltFrom Formula.Regular :=
    .basic ⟨by decide, List.cons_ne_nil _ _, args⟩
  have premise := Formula.BuiltFrom.join .imp related (.join .disj first (.neg second))
  have inference : Inference.Regular ⟨[_, _], _⟩ :=
    ⟨List.forall_mem_cons.mpr ⟨premise, List.forall_mem_singleton.mpr second⟩, first⟩
  refine ⟨(congrArg Formula.parse ?_).trans (read_back_written.1 _ premise),
    (congrArg Inference.parse ?_).trans (read_back_written.2 _ inference)⟩
  · rfl
  · rfl

end WeakKleene
