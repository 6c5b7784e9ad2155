import WeakKleene.Proofs.Arguments

namespace WeakKleene
namespace Grammar

open Formula (argumentChars)

/-!
# The pieces of a written formula

A written formula falls into words with their arguments, signs, connectives
between blanks, and quantifiers in brackets.  The pieces know more than the
characters: an argument is a variable or a constant, which depends on the
quantifiers in front of it.

For formulas that were read, nothing of this is lost in writing.  Reading
settles each argument by the variables bound so far, from left to right, and
that order is the order of writing.  So the characters determine the pieces.
They do not always determine the formula: the pieces do not say how far a
quantifier reaches.
-/

/-- What a written formula consists of. -/
inductive Piece where
  /-- A word with its arguments. -/
  | word (name : List Char) (args : List Term)
  | sign (text : List Char)
  /-- A connective with a blank on each side. -/
  | link (connective : Connective)
  /-- A quantifier in brackets, with the pieces of its restriction. -/
  | binder (quantifier : Quantifier) (var : List Char) (restriction : List Piece)

namespace Piece

def mark (which : Mark) : Piece := .sign (Token.spelling which false)

/-- An atom is written as a word, or as the sign that it is named by. -/
def atom (name : List Char) : Piece :=
  if name.all Text.isWordChar then .word name [] else .sign name

def argsChars (args : List Term) : List Char :=
  if args = [] then [] else '(' :: (argumentChars args ++ [')'])

mutual

def chars : Piece -> List Char
  | word name args => name ++ argsChars args
  | sign text => text
  | link connective => ' ' :: (connective.symbol.toList ++ [' '])
  | binder quantifier var restriction =>
    '[' :: (quantifier.symbol.toList ++ (var ++ ' ' :: (charsOf restriction ++ [']'])))

def charsOf : List Piece -> List Char
  | [] => []
  | piece :: rest => piece.chars ++ charsOf rest

end

theorem chars_atom (name : List Char) : (atom name).chars = name := by
  unfold atom
  split
  · exact List.append_nil name
  · rfl

theorem charsOf_append (front back : List Piece) :
    charsOf (front ++ back) = charsOf front ++ charsOf back := by
  induction front with
  | nil => rfl
  | cons piece front ih => rw [List.cons_append, charsOf, charsOf, ih, List.append_assoc]

def enclosed (inParentheses : Bool) (pieces : List Piece) : List Piece :=
  if inParentheses then mark .openParen :: (pieces ++ [mark .closeParen]) else pieces

end Piece

end Grammar

namespace Formula

open Grammar (Piece)

/-- The pieces of the written form.  Irregular compounds are never read and have none. -/
def pieces : Formula -> List Piece
  | atom name => [.atom name.toList]
  | pred name args => [.word name.toList args]
  | bilateral name args starName starred => [.word (if starred then starName else name).toList args]
  | neg body => .mark .not :: Piece.enclosed body.isCompound body.pieces
  | join connective left right =>
    Piece.enclosed left.isCompound left.pieces ++
      .link connective :: Piece.enclosed right.isCompound right.pieces
  | quant quantifier var restriction matrix =>
    .binder quantifier var.toList restriction.pieces :: matrix.pieces
  | irregular .. => []

def part (formula : Formula) : List Piece := Piece.enclosed formula.isCompound formula.pieces

theorem charsOf_part {formula : Formula}
    (written : Piece.charsOf formula.pieces = formula.text.toList) :
    Piece.charsOf formula.part = formula.partChars := by
  cases compound : formula.isCompound with
  | false => simp [part, Piece.enclosed, partChars, enclose, compound, written]
  | true =>
    rw [partChars_compound compound, part, Piece.enclosed, if_pos compound, Piece.charsOf,
      Piece.charsOf_append, written]
    rfl

theorem charsOf_pieces {formula : Formula} (proper : formula.Proper) :
    Piece.charsOf formula.pieces = formula.text.toList := by
  have quantified {quantifier : Quantifier} {var : String} {restriction matrix : Formula}
      (atFirst : Piece.charsOf restriction.pieces = restriction.text.toList)
      (atSecond : Piece.charsOf matrix.pieces = matrix.text.toList) :
      Piece.charsOf (quant quantifier var restriction matrix).pieces =
        (quant quantifier var restriction matrix).text.toList := by
    simp [pieces, text, Piece.charsOf, Piece.chars, atFirst, atSecond]
  induction proper with
  | @atomic formula atomic =>
    cases formula with
    | atom name => simp [pieces, text, Piece.charsOf, Piece.chars_atom]
    | pred | bilateral =>
      simp [pieces, text, Piece.charsOf, Piece.chars, Piece.argsChars, application_toList]
    | _ => cases atomic
  | @neg body _ ih =>
    rw [text_neg_toList, <- charsOf_part ih]
    rfl
  | @join left right connective _ _ atFirst atSecond =>
    rw [text_join_toList, <- charsOf_part atFirst, <- charsOf_part atSecond, pieces,
      Piece.charsOf_append, Piece.charsOf, Piece.chars]
    simp [part]
  | all _ _ atFirst atSecond | exist _ _ atFirst atSecond => exact quantified atFirst atSecond

end Formula

namespace Grammar

/-! ## Pieces in order -/

/-- What may follow a word: nothing, a connective, or a closing parenthesis. -/
def Ends : List Piece -> Prop
  | [] | .link _ :: _ => True
  | piece :: _ => piece = .mark .closeParen

theorem Ends.boundary {rest : List Piece} (ends : Ends rest) :
    Formula.Boundary (Piece.charsOf rest) := by
  cases rest with
  | nil => exact Formula.boundary_nil
  | cons piece rest =>
    cases piece with
    | link connective => exact Formula.boundary_blank _
    | sign text =>
      cases ends
      exact Formula.boundary_paren _
    | word | binder => cases ends

/-- The names that are variables where a quantifier binds one more. -/
def binding (isVariable : List Char -> Bool) (var : List Char) : List Char -> Bool :=
  fun name => isVariable name || decide (name = var)

/-- Pieces in a row as they come from reading, given which names are variables. -/
inductive Orderly : (List Char -> Bool) -> List Piece -> Prop where
  | nil {isVariable : List Char -> Bool} : Orderly isVariable []
  | word {isVariable : List Char -> Bool} {name : List Char} {names : List (List Char)}
      {rest : List Piece} (isWord : IsWord name)
      (listed : forall other, other ∈ names -> Listed other) (ends : Ends rest)
      (behind : Orderly isVariable rest) :
      Orderly isVariable (.word name (names.map (termNamed isVariable)) :: rest)
  | sign {isVariable : List Char -> Bool} {rest : List Piece} (which : Mark)
      (mathematical : Bool) (ends : which = .openBracket -> Ends rest)
      (behind : Orderly isVariable rest) :
      Orderly isVariable (.sign (Token.spelling which mathematical) :: rest)
  | link {isVariable : List Char -> Bool} {rest : List Piece} (connective : Connective)
      (behind : Orderly isVariable rest) : Orderly isVariable (.link connective :: rest)
  | binder {isVariable : List Char -> Bool} {quantifier : Quantifier} {var : List Char}
      {restriction rest : List Piece} (ruled : quantifier = .all ∨ quantifier = .exist)
      (isWord : IsWord var) (unclosed : ']' ∉ Piece.charsOf restriction)
      (inside : Orderly (binding isVariable var) restriction)
      (behind : Orderly (binding isVariable var) rest) :
      Orderly isVariable (.binder quantifier var restriction :: rest)

/-! ## The characters determine the pieces -/

variable {rest rest' : List Char} {isVariable : List Char -> Bool} {pieces : List Piece}

/-- A run of characters that pass a test is determined by what follows it failing the test. -/
theorem run_append_inj {test : Char -> Bool} {run other : List Char}
    (passes : forall c, c ∈ run -> test c = true) (passes' : forall c, c ∈ other -> test c = true)
    (stops : rest.head?.any test = false) (stops' : rest'.head?.any test = false)
    (same : run ++ rest = other ++ rest') : run = other ∧ rest = rest' := by
  induction run generalizing other with
  | nil =>
    cases other with
    | nil => exact ⟨rfl, same⟩
    | cons c other =>
      rw [List.nil_append] at same
      rw [same, List.cons_append, List.head?_cons, Option.any_some,
        passes' c List.mem_cons_self] at stops
      cases stops
  | cons c run ih =>
    cases other with
    | nil =>
      rw [List.nil_append] at same
      rw [<- same, List.cons_append, List.head?_cons, Option.any_some,
        passes c List.mem_cons_self] at stops'
      cases stops'
    | cons d other =>
      rcases List.cons.inj same with ⟨rfl, behind⟩
      rcases ih (fun d member => passes d (List.mem_cons_of_mem _ member))
        (fun d member => passes' d (List.mem_cons_of_mem _ member)) behind with ⟨rfl, later⟩
      exact ⟨rfl, later⟩

/-- Text without a certain character is determined by the character behind it. -/
theorem delimited_inj {c : Char} {inside other : List Char} (absent : c ∉ inside)
    (absent' : c ∉ other) (same : inside ++ c :: rest = other ++ c :: rest') :
    inside = other ∧ rest = rest' := by
  have passes {text : List Char} (absent : c ∉ text) : forall d, d ∈ text -> (d != c) = true :=
    fun d member => bne_iff_ne.mpr fun equal => absent (equal ▸ member)
  have stops (text : List Char) : (c :: text).head?.any (· != c) = false := by
    rw [List.head?_cons, Option.any_some, bne_self_eq_false]
  rcases run_append_inj (passes absent) (passes absent') (stops rest) (stops rest') same with
    ⟨found, later⟩
  exact ⟨found, (List.cons.inj later).2⟩

/-- What a text starts with. -/
inductive Kind where
  | nothing
  | word
  | sign
  | link
  | binder

def textKind : List Char -> Kind
  | [] => .nothing
  | '[' :: '∀' :: _ | '[' :: '∃' :: _ => .binder
  | c :: _ => if Text.isWordChar c then .word else if c = ' ' then .link else .sign

def leadKind : List Piece -> Kind
  | [] => .nothing
  | .word .. :: _ => .word
  | .sign _ :: _ => .sign
  | .link _ :: _ => .link
  | .binder .. :: _ => .binder

theorem textKind_cons {c : Char} (ends : c = '[' -> Formula.Boundary rest) :
    textKind (c :: rest) =
      if Text.isWordChar c then .word else if c = ' ' then .link else .sign := by
  unfold textKind
  split
  · next impossible => cases impossible
  · next same =>
    rcases List.cons.inj same with ⟨rfl, rfl⟩
    rcases ends rfl with impossible | impossible <;> cases impossible
  · next same =>
    rcases List.cons.inj same with ⟨rfl, rfl⟩
    rcases ends rfl with impossible | impossible <;> cases impossible
  · next same =>
    cases same
    rfl

theorem textKind_word {name : List Char} (isWord : IsWord name) (rest : List Char) :
    textKind (name ++ rest) = .word := by
  cases name with
  | nil => exact absurd rfl isWord.nonempty
  | cons c name =>
    have starts := isWord.word c List.mem_cons_self
    rw [List.cons_append, textKind_cons, if_pos starts]
    rintro rfl
    exact absurd starts (by decide)

/-- A sign is told by its first character, which is neither a word character nor a blank. -/
theorem spelling_eq_cons (which : Mark) (mathematical : Bool) :
    ∃ c, Token.spelling which mathematical = c :: (if c = '-' then ['>'] else []) ∧
      Text.isWordChar c = false ∧ c ≠ ' ' ∧ (c = '[' -> which = .openBracket) := by
  cases which <;> cases mathematical <;> exact ⟨_, rfl, by decide +kernel, by decide, by decide⟩

theorem textKind_sign {which : Mark}
    (ends : which = .openBracket -> Formula.Boundary rest) (mathematical : Bool) :
    textKind (Token.spelling which mathematical ++ rest) = .sign := by
  rcases spelling_eq_cons which mathematical with ⟨c, spelled, noWord, noBlank, bracket⟩
  rw [spelled, List.cons_append, textKind_cons, if_neg (Bool.eq_false_iff.mp noWord),
    if_neg noBlank]
  rintro rfl
  exact ends (bracket rfl)

/-- The first character tells the first piece. -/
theorem Orderly.textKind_charsOf
    (orderly : Orderly isVariable pieces) : textKind (Piece.charsOf pieces) = leadKind pieces := by
  cases orderly with
  | nil => rfl
  | word isWord =>
    rw [Piece.charsOf, Piece.chars, List.append_assoc]
    exact textKind_word isWord _
  | sign which mathematical ends =>
    exact textKind_sign (fun bracket => (ends bracket).boundary) mathematical
  | link => rfl
  | binder ruled => rcases ruled with rfl | rfl <;> rfl

theorem spelling_append_inj {which which' : Mark} {mathematical mathematical' : Bool}
    (same : Token.spelling which mathematical ++ rest =
      Token.spelling which' mathematical' ++ rest') :
    Token.spelling which mathematical = Token.spelling which' mathematical' ∧ rest = rest' := by
  rcases spelling_eq_cons which mathematical with ⟨c, first, _⟩
  rcases spelling_eq_cons which' mathematical' with ⟨d, second, _⟩
  rw [first, second] at same ⊢
  rcases List.cons.inj same with ⟨rfl, behind⟩
  exact ⟨rfl, List.append_cancel_left behind⟩

theorem symbol_append_inj {quantifier other : Quantifier}
    (ruled : quantifier = .all ∨ quantifier = .exist) (ruled' : other = .all ∨ other = .exist)
    (same : quantifier.symbol.toList ++ rest = other.symbol.toList ++ rest') :
    quantifier = other ∧ rest = rest' := by
  rcases ruled with rfl | rfl <;> rcases ruled' with rfl | rfl
  · exact ⟨rfl, (List.cons.inj same).2⟩
  · exact absurd (List.cons.inj same).1 (by decide)
  · exact absurd (List.cons.inj same).1 (by decide)
  · exact ⟨rfl, (List.cons.inj same).2⟩

theorem argumentChars_map_termNamed (isVariable : List Char -> Bool) (names : List (List Char)) :
    Formula.argumentChars (names.map (termNamed isVariable)) = listing names := by
  have named (name : List Char) : (termNamed isVariable name).name.toList = name := by
    unfold termNamed
    split <;> exact String.toList_ofList
  rw [argumentChars_eq_listing, List.map_map]
  exact congrArg listing ((List.map_congr_left fun name _ => named name).trans (List.map_id _))

/-- Arguments are determined by their characters, given which names are variables. -/
theorem argsChars_append_inj {names others : List (List Char)}
    (listed : forall name, name ∈ names -> Listed name)
    (listed' : forall name, name ∈ others -> Listed name) (ends : Formula.Boundary rest)
    (ends' : Formula.Boundary rest')
    (same : Piece.argsChars (names.map (termNamed isVariable)) ++ rest =
      Piece.argsChars (others.map (termNamed isVariable)) ++ rest') :
    names = others ∧ rest = rest' := by
  have unopened {text tail : List Char} (ends : Formula.Boundary text) : text ≠ '(' :: tail := by
    rintro rfl
    rcases ends with impossible | impossible <;> cases impossible
  have opened {names : List (List Char)} (nonempty : names ≠ []) (rest : List Char) :
      Piece.argsChars (names.map (termNamed isVariable)) ++ rest =
        '(' :: (listing names ++ ')' :: rest) := by
    rw [Piece.argsChars, if_neg (by rwa [List.map_eq_nil_iff]), argumentChars_map_termNamed,
      List.cons_append, List.append_assoc]
    rfl
  by_cases none : names = []
  · by_cases none' : others = []
    · subst none none'
      exact ⟨rfl, same⟩
    · rw [none, opened none'] at same
      exact absurd same (unopened ends)
  · by_cases none' : others = []
    · rw [none', opened none] at same
      exact absurd same.symm (unopened ends')
    · rw [opened none, opened none'] at same
      rcases delimited_inj (noParen_listing listed) (noParen_listing listed')
        (List.cons.inj same).2 with ⟨inside, behind⟩
      refine ⟨?_, behind⟩
      rw [<- map_trim_commaPieces_listing none listed, inside,
        map_trim_commaPieces_listing none' listed']

theorem Orderly.leadKind_eq {others : List Piece}
    (orderly : Orderly isVariable pieces) (orderly' : Orderly isVariable others)
    (same : Piece.charsOf pieces = Piece.charsOf others) : leadKind pieces = leadKind others := by
  rw [<- orderly.textKind_charsOf, same, orderly'.textKind_charsOf]

theorem argsChars_stops (args : List Term) {rest : List Piece} (ends : Ends rest) :
    (Piece.argsChars args ++ Piece.charsOf rest).head?.any Text.isWordChar = false := by
  unfold Piece.argsChars
  split
  · have boundary := ends.boundary
    rw [List.nil_append]
    cases behind : Piece.charsOf rest with
    | nil => rfl
    | cons c others =>
      rw [behind] at boundary
      rcases boundary with rfl | rfl
      · exact (by decide : Text.isWordChar ' ' = false)
      · exact (by decide : Text.isWordChar ')' = false)
  · exact (by decide : Text.isWordChar '(' = false)

/-- The characters of pieces in order determine the pieces. -/
theorem Orderly.unique {others : List Piece}
    (orderly : Orderly isVariable pieces) (orderly' : Orderly isVariable others)
    (same : Piece.charsOf pieces = Piece.charsOf others) : pieces = others := by
  induction orderly generalizing others with
  | nil =>
    have kinds := Orderly.nil.leadKind_eq orderly' same
    cases orderly' with
    | nil => rfl
    | word | sign | link | binder => cases kinds
  | word isWord listed ends behind ih =>
    have kinds := (Orderly.word isWord listed ends behind).leadKind_eq orderly' same
    cases orderly' with
    | word isWord' listed' ends' behind' =>
      simp only [Piece.charsOf, Piece.chars, List.append_assoc] at same
      rcases run_append_inj isWord.word isWord'.word (argsChars_stops _ ends)
        (argsChars_stops _ ends') same with ⟨rfl, afterName⟩
      rcases argsChars_append_inj listed listed' ends.boundary ends'.boundary afterName with
        ⟨rfl, later⟩
      rw [ih behind' later]
    | nil | sign | link | binder => cases kinds
  | sign which mathematical ends behind ih =>
    have kinds := (Orderly.sign which mathematical ends behind).leadKind_eq orderly' same
    cases orderly' with
    | sign which' mathematical' ends' behind' =>
      rcases spelling_append_inj same with ⟨spelled, later⟩
      rw [spelled, ih behind' later]
    | nil | word | link | binder => cases kinds
  | link connective behind ih =>
    have kinds := (Orderly.link connective behind).leadKind_eq orderly' same
    cases orderly' with
    | link connective' behind' =>
      simp only [Piece.charsOf, Piece.chars, List.cons_append, List.append_assoc,
        List.nil_append, List.cons.injEq, true_and] at same
      rcases Formula.symbol_append_inj same with ⟨rfl, later⟩
      rw [ih behind' later]
    | nil | word | sign | binder => cases kinds
  | binder ruled isWord unclosed inside behind atInside atRest =>
    have kinds := (Orderly.binder ruled isWord unclosed inside behind).leadKind_eq orderly' same
    cases orderly' with
    | binder ruled' isWord' unclosed' inside' behind' =>
      simp only [Piece.charsOf, Piece.chars, List.cons_append, List.append_assoc,
        List.nil_append, List.cons.injEq, true_and] at same
      rcases symbol_append_inj ruled ruled' same with ⟨rfl, afterSymbol⟩
      rcases delimited_inj (isWord.not_mem (by decide)) (isWord'.not_mem (by decide))
        afterSymbol with ⟨rfl, afterVar⟩
      rcases delimited_inj unclosed unclosed' afterVar with ⟨inner, later⟩
      rw [atInside inside' inner, atRest behind' later]
    | nil | word | sign | link => cases kinds

end Grammar
end WeakKleene
