import WeakKleene.Consequence
import WeakKleene.Proofs.ReadPieces

namespace WeakKleene

/-!
# What the text of a formula determines

Branches look formulas up by their text.  Two things are not written: the empty
parentheses of a predicate without arguments, and parentheses around what a
quantifier governs.  So a quantifier over a compound that starts with a part
without parentheses reads like a quantifier over that part alone.

All other formulas that were read are told apart by their text.  Given the
pieces of a formula, a parenthesis behind a quantifier can only start a
compound, and elsewhere each piece says what comes next, with one exception.  A
negation sign behind a quantifier may be an atom, and a closing parenthesis
behind it may be the atom that is negated, or close what stands around.  Which of
the two it is shows in the number of parentheses left to close.
-/

namespace Formula

open Grammar (Piece Ends)

def startsBare : Formula -> Bool
  | join _ left _ => !left.isCompound
  | _ => false

/-- No predicate lacks arguments, and no quantifier governs a compound that starts with a part
without parentheses. -/
def Explicit : Formula -> Prop
  | atom _ => True
  | pred _ args => args ≠ []
  | neg body => body.Explicit
  | join _ left right => left.Explicit ∧ right.Explicit
  | quant _ _ restriction matrix =>
    restriction.Explicit ∧ matrix.Explicit ∧ matrix.startsBare = false
  | bilateral .. | irregular .. => False

/-- Explicit formulas as they are read: an opening parenthesis is no atom. -/
inductive Clear : Formula -> Prop where
  | atom {name : String} (unopened : name.toList ≠ ['(']) : Clear (.atom name)
  | pred {name : String} {args : List Term} (nonempty : args ≠ []) : Clear (.pred name args)
  | neg {body : Formula} (inner : Clear body) : Clear (.neg body)
  | join {left right : Formula} (connective : Connective) (first : Clear left)
      (second : Clear right) : Clear (.join connective left right)
  | quant {restriction matrix : Formula} (quantifier : Quantifier) (var : String)
      (first : Clear restriction) (second : Clear matrix) (guarded : matrix.startsBare = false) :
      Clear (.quant quantifier var restriction matrix)

/-! ## First pieces -/

variable {name : List Char} {formula : Formula} {rest : List Piece}

theorem atom_inj {other : List Char} (same : Piece.atom name = Piece.atom other) :
    name = other := by
  rw [<- Piece.chars_atom name, same, Piece.chars_atom]

theorem atom_ne_word {other : List Char} {args : List Term} (nonempty : args ≠ []) :
    Piece.atom name ≠ .word other args := by
  unfold Piece.atom
  split
  · intro same
    cases same
    exact nonempty rfl
  · intro same
    cases same

theorem atom_ne_binder {var : List Char} {quantifier : Quantifier} {inside : List Piece} :
    Piece.atom name ≠ .binder quantifier var inside := by
  unfold Piece.atom
  split <;> intro same <;> cases same

theorem atom_eq_sign {text : List Char} (same : Piece.atom name = .sign text) : name = text := by
  rw [<- Piece.chars_atom name, same]
  rfl

theorem part_compound (compound : formula.isCompound = true) :
    formula.part = .mark .openParen :: (formula.pieces ++ [.mark .closeParen]) := by
  rw [part, Piece.enclosed, if_pos compound]

theorem part_simple (simple : formula.isCompound = false) : formula.part = formula.pieces := by
  rw [part, Piece.enclosed, if_neg (Bool.eq_false_iff.mp simple)]

theorem pieces_join (connective : Connective) (left right : Formula) :
    (join connective left right).pieces = left.part ++ .link connective :: right.part :=
  rfl

/-- A part starts with no connective, and if it starts with a closing parenthesis, it is that
atom. -/
theorem Clear.part_eq_cons (clear : Clear formula) :
    ∃ piece others, formula.part = piece :: others ∧ (forall connective, piece ≠ .link connective) ∧
      (piece = .mark .closeParen -> others = []) := by
  cases clear with
  | @atom name unopened =>
    refine ⟨_, [], rfl, ?_, fun _ => rfl⟩
    intro connective
    unfold Piece.atom
    split <;> intro same <;> cases same
  | pred => exact ⟨_, [], rfl, fun _ same => (by cases same), fun _ => rfl⟩
  | neg | join =>
    exact ⟨_, _, part_compound rfl, fun _ same => (by cases same), fun same => (by cases same)⟩
  | quant => exact ⟨_, _, rfl, fun _ same => (by cases same), fun same => (by cases same)⟩

theorem Clear.part_append_ne_link (clear : Clear formula)
    {connective : Connective} {tail : List Piece} :
    formula.part ++ rest ≠ .link connective :: tail := by
  rcases clear.part_eq_cons with ⟨piece, others, split, noLink, _⟩
  rw [split, List.cons_append]
  intro same
  exact noLink connective (List.cons.inj same).1

theorem Clear.part_of_ends (clear : Clear formula)
    (ends : Ends (formula.part ++ rest)) : formula.part = [.mark .closeParen] := by
  rcases clear.part_eq_cons with ⟨piece, others, split, noLink, closing⟩
  rw [split, List.cons_append] at ends
  have closes : piece = .mark .closeParen := by
    cases piece with
    | link connective => exact absurd rfl (noLink connective)
    | word | sign | binder => exact ends
  rw [split, closes, closing closes]

/-- A formula without parentheses around it starts with an opening one only if it is a compound
that starts with a compound. -/
theorem Clear.simple_ne_open (clear : Clear formula)
    (simple : formula.isCompound = false) {tail : List Piece} :
    formula.pieces ++ rest ≠ .mark .openParen :: tail := by
  intro same
  cases clear with
  | atom unopened => exact unopened (atom_eq_sign (List.cons.inj same).1)
  | pred | quant => cases (List.cons.inj same).1
  | neg | join => cases simple

/-! ## Pieces determine explicit formulas -/

/-- What follows two formulas does not differ by a closing parenthesis. -/
structure Apart (rest rest' : List Piece) : Prop where
  ends : Ends rest
  ends' : Ends rest'
  notMore : rest ≠ .mark .closeParen :: rest'
  notLess : rest' ≠ .mark .closeParen :: rest

theorem Apart.links (connective connective' : Connective) (rest rest' : List Piece) :
    Apart (.link connective :: rest) (.link connective' :: rest') :=
  ⟨trivial, trivial, fun same => (by cases same), fun same => (by cases same)⟩

theorem Apart.close {rest' : List Piece} (apart : Apart rest rest') :
    Apart (.mark .closeParen :: rest) (.mark .closeParen :: rest') :=
  ⟨rfl, rfl, fun same => apart.notMore (List.cons.inj same).2,
    fun same => apart.notLess (List.cons.inj same).2⟩

theorem Apart.nothing : Apart [] [] :=
  ⟨trivial, trivial, fun same => (by cases same), fun same => (by cases same)⟩

theorem Apart.link_nothing (connective : Connective) (rest : List Piece) :
    Apart (.link connective :: rest) [] :=
  ⟨trivial, trivial, fun same => (by cases same), fun same => (by cases same)⟩

theorem Apart.symm {rest' : List Piece} (apart : Apart rest rest') : Apart rest' rest :=
  ⟨apart.ends', apart.ends, apart.notLess, apart.notMore⟩

/-- What a quantifier governs is determined by its pieces. -/
def ToldBody (formula : Formula) : Prop :=
  forall {other rest rest'}, Clear other -> formula.startsBare = false ->
    other.startsBare = false -> Apart rest rest' ->
    formula.pieces ++ rest = other.pieces ++ rest' -> formula = other ∧ rest = rest'

/-- A compound is determined among compounds by its pieces. -/
def ToldCompound (formula : Formula) : Prop :=
  forall {other rest rest'}, Clear other -> formula.isCompound = true ->
    other.isCompound = true -> Apart rest rest' ->
    formula.pieces ++ rest = other.pieces ++ rest' -> formula = other ∧ rest = rest'

/-- A formula is determined by its pieces: as a part of a compound, as what a quantifier governs,
and as a whole. -/
structure Told (formula : Formula) : Prop where
  part : forall {other rest rest'}, Clear other -> Apart rest rest' ->
    formula.part ++ rest = other.part ++ rest' -> formula = other ∧ rest = rest'
  body : ToldBody formula
  whole : forall {other}, Clear other -> formula.pieces = other.pieces -> formula = other

theorem startsBare_of_simple (simple : formula.isCompound = false) :
    formula.startsBare = false := by
  cases formula with
  | join => cases simple
  | _ => rfl

theorem exists_join_of_startsBare (bare : formula.startsBare = true) :
    ∃ connective left right, formula = join connective left right ∧ left.isCompound = false := by
  cases formula with
  | join connective left right =>
    exact ⟨connective, left, right, rfl, by simpa [startsBare] using bare⟩
  | _ => cases bare

theorem exists_open_of_join {connective : Connective} {left right : Formula}
    (enclosed : (join connective left right).startsBare = false) :
    ∃ tail, (join connective left right).pieces = .mark .openParen :: tail := by
  have compound : left.isCompound = true := by simpa [startsBare] using enclosed
  rw [pieces_join, part_compound compound]
  exact ⟨_, rfl⟩

section Compounds

variable {left right body other : Formula} {connective : Connective} {rest rest' : List Piece}

/-- A negation is no compound of another connective, since its sign would be an atom without
anything behind it. -/
theorem Clear.not_ne_join (clear : Clear body) (first : Clear left) :
    (Formula.neg body).pieces ++ rest ≠ (Formula.join connective left right).pieces ++ rest' := by
  intro same
  rw [pieces_join, List.append_assoc, List.cons_append] at same
  cases simple : left.isCompound with
  | true =>
    rw [part_compound simple] at same
    cases (List.cons.inj same).1
  | false =>
    rw [part_simple simple] at same
    cases first with
    | atom => exact clear.part_append_ne_link (List.cons.inj same).2
    | pred | quant => cases (List.cons.inj same).1
    | neg | join => cases simple

theorem Told.neg_neg (told : Told body) (clear : Clear other) (apart : Apart rest rest')
    (same : (neg body).pieces ++ rest = (neg other).pieces ++ rest') :
    neg body = neg other ∧ rest = rest' := by
  rcases told.part clear apart (List.cons.inj same).2 with ⟨rfl, later⟩
  exact ⟨rfl, later⟩

theorem Told.join_join {left' right' : Formula} {connective' : Connective} (atFirst : Told left)
    (atSecond : Told right) (first : Clear left') (second : Clear right')
    (apart : Apart rest rest')
    (same : (join connective left right).pieces ++ rest =
      (join connective' left' right').pieces ++ rest') :
    join connective left right = join connective' left' right' ∧ rest = rest' := by
  rw [pieces_join, pieces_join, List.append_assoc, List.append_assoc, List.cons_append,
    List.cons_append] at same
  rcases atFirst.part first (Apart.links _ _ _ _) same with ⟨rfl, behind⟩
  rcases List.cons.inj behind with ⟨linked, afterLink⟩
  cases linked
  rcases atSecond.part second apart afterLink with ⟨rfl, later⟩
  exact ⟨rfl, later⟩

end Compounds

/-- Parts stand in parentheses or are no compounds.  A whole that starts with a part without
parentheses has a connective where another formula would end. -/
theorem Told.assemble (clear : Clear formula) (body : ToldBody formula)
    (compound : ToldCompound formula)
    (lefts : forall connective left right, formula = join connective left right -> ToldBody left) :
    Told formula := by
  refine ⟨?_, body, ?_⟩
  · intro other rest rest' clear' apart same
    cases kind : formula.isCompound with
    | false =>
      cases kind' : other.isCompound with
      | false =>
        rw [part_simple kind, part_simple kind'] at same
        exact body clear' (startsBare_of_simple kind) (startsBare_of_simple kind') apart same
      | true =>
        rw [part_simple kind, part_compound kind'] at same
        exact absurd same (clear.simple_ne_open kind)
    | true =>
      cases kind' : other.isCompound with
      | false =>
        rw [part_compound kind, part_simple kind'] at same
        exact absurd same.symm (clear'.simple_ne_open kind')
      | true =>
        rw [part_compound kind, part_compound kind', List.cons_append, List.cons_append,
          List.append_assoc, List.append_assoc] at same
        rcases compound clear' kind kind' apart.close (List.cons.inj same).2 with ⟨equal, closed⟩
        exact ⟨equal, (List.cons.inj closed).2⟩
  · intro other clear' same
    have whole : formula.pieces ++ [] = other.pieces ++ [] := by
      rw [List.append_nil, List.append_nil, same]
    cases bare : formula.startsBare with
    | false =>
      cases bare' : other.startsBare with
      | false => exact (body clear' bare bare' .nothing whole).1
      | true =>
        rcases exists_join_of_startsBare bare' with ⟨connective, left, right, rfl, simple⟩
        rw [pieces_join, part_simple simple, List.append_assoc] at whole
        cases clear' with
        | join _ first second =>
          cases (body first bare (startsBare_of_simple simple)
            (Apart.link_nothing connective _).symm whole).2
    | true =>
      rcases exists_join_of_startsBare bare with ⟨connective, left, right, rfl, simple⟩
      cases bare' : other.startsBare with
      | false =>
        rw [pieces_join, part_simple simple, List.append_assoc] at whole
        cases (lefts _ _ _ rfl clear' (startsBare_of_simple simple) bare'
          (Apart.link_nothing connective _) whole).2
      | true =>
        rcases exists_join_of_startsBare bare' with ⟨_, _, _, rfl, _⟩
        exact (compound clear' rfl rfl .nothing whole).1

section Bodies

variable {left right body restriction matrix : Formula} {connective : Connective}
variable {name var : String} {args : List Term} {quantifier : Quantifier}

theorem toldBody_atom (unopened : name.toList ≠ ['(']) : ToldBody (atom name) := by
  intro other rest rest' clear' _ guarded apart same
  cases clear' with
  | @atom name' _ =>
    rcases List.cons.inj same with ⟨heads, later⟩
    rw [String.toList_injective (atom_inj heads)]
    exact ⟨rfl, later⟩
  | pred nonempty => exact absurd (List.cons.inj same).1 (atom_ne_word nonempty)
  | neg inner =>
    -- The sign is an atom here and a negation there, which takes the parenthesis for an atom.
    have later : rest = _ ++ rest' := (List.cons.inj same).2
    have closing := inner.part_of_ends (later ▸ apart.ends)
    rw [Formula.part] at closing
    rw [closing] at later
    exact absurd later apart.notMore
  | join connective first second =>
    rcases exists_open_of_join guarded with ⟨tail, opened⟩
    rw [opened] at same
    exact absurd (atom_eq_sign (List.cons.inj same).1) unopened
  | quant => exact absurd (List.cons.inj same).1 atom_ne_binder

theorem toldBody_pred (nonempty : args ≠ []) : ToldBody (pred name args) := by
  intro other rest rest' clear' _ guarded apart same
  cases clear' with
  | atom => exact absurd (List.cons.inj same).1.symm (atom_ne_word nonempty)
  | pred =>
    rcases List.cons.inj same with ⟨heads, later⟩
    injection heads with named listed
    rw [String.toList_injective named, listed]
    exact ⟨rfl, later⟩
  | neg | quant => cases (List.cons.inj same).1
  | join =>
    rcases exists_open_of_join guarded with ⟨tail, opened⟩
    rw [opened] at same
    cases (List.cons.inj same).1

theorem toldBody_neg (clear : Clear body) (told : Told body) : ToldBody (neg body) := by
  intro other rest rest' clear' _ guarded apart same
  cases clear' with
  | atom =>
    have later : _ ++ rest = rest' := (List.cons.inj same).2
    have closing := clear.part_of_ends (later ▸ apart.ends')
    rw [Formula.part] at closing
    rw [closing] at later
    exact absurd later.symm apart.notLess
  | pred | quant => cases (List.cons.inj same).1
  | neg inner => exact told.neg_neg inner apart same
  | join _ first _ => exact absurd same (clear.not_ne_join first)

theorem toldBody_join (first : Clear left) (atFirst : Told left) (atSecond : Told right) :
    ToldBody (join connective left right) := by
  intro other rest rest' clear' enclosed guarded apart same
  rcases exists_open_of_join enclosed with ⟨tail, opened⟩
  cases clear' with
  | join _ first' second' => exact atFirst.join_join atSecond first' second' apart same
  | neg inner => exact absurd same.symm (inner.not_ne_join first)
  | atom unopened =>
    rw [opened] at same
    exact absurd (atom_eq_sign (List.cons.inj same).1.symm) unopened
  | pred | quant =>
    rw [opened] at same
    cases (List.cons.inj same).1

theorem toldBody_quant (atFirst : Told restriction) (atSecond : Told matrix)
    (bound : matrix.startsBare = false) :
    ToldBody (quant quantifier var restriction matrix) := by
  intro other rest rest' clear' _ guarded apart same
  cases clear' with
  | quant quantifier' var' first second bound' =>
    rcases List.cons.inj same with ⟨heads, behind⟩
    injection heads with sameQuantifier sameVar inside
    rcases atSecond.body second bound bound' apart behind with ⟨rfl, later⟩
    rw [sameQuantifier, String.toList_injective sameVar, atFirst.whole first inside]
    exact ⟨rfl, later⟩
  | atom => exact absurd (List.cons.inj same).1.symm atom_ne_binder
  | pred | neg => cases (List.cons.inj same).1
  | join =>
    rcases exists_open_of_join guarded with ⟨tail, opened⟩
    rw [opened] at same
    cases (List.cons.inj same).1

end Bodies

theorem Clear.told (clear : Clear formula) : Told formula := by
  induction clear with
  | atom unopened =>
    exact .assemble (.atom unopened) (toldBody_atom unopened)
      nofun nofun
  | pred nonempty =>
    exact .assemble (.pred nonempty) (toldBody_pred nonempty)
      nofun nofun
  | neg inner ih =>
    refine .assemble (.neg inner) (toldBody_neg inner ih) ?_
      nofun
    intro other rest rest' clear' _ compound' apart same
    cases clear' with
    | neg inner' => exact ih.neg_neg inner' apart same
    | join _ first _ => exact absurd same (inner.not_ne_join first)
    | atom | pred | quant => cases compound'
  | join connective first second atFirst atSecond =>
    refine .assemble (.join connective first second) (toldBody_join first atFirst atSecond) ?_ ?_
    · intro other rest rest' clear' _ compound' apart same
      cases clear' with
      | neg inner => exact absurd same.symm (inner.not_ne_join first)
      | join _ first' second' => exact atFirst.join_join atSecond first' second' apart same
      | atom | pred | quant => cases compound'
    · intro _ _ _ same
      cases same
      exact atFirst.body
  | quant quantifier var first second guarded atFirst atSecond =>
    exact .assemble (.quant quantifier var first second guarded)
      (toldBody_quant atFirst atSecond guarded) nofun
      nofun

end Formula

/-! ## Formulas that were read -/

namespace Grammar

open Formula (Clear)

/-- No token that is read as an atom is an opening parenthesis. -/
theorem Token.source_ne_open {token : Token} (plain : token.isOperand = true)
    (isPlain : token.Plain) (formed : token.Formed) : token.source ≠ ['('] := by
  cases token with
  | word name =>
    intro same
    have named : name = ['('] := same
    exact absurd (formed.word '(' (named ▸ List.mem_cons_self)) (by decide)
  | mark which mathematical =>
    cases which with
    | openParen => cases plain
    | _ => cases mathematical <;> exact (by decide)
  | applied | quantifier => cases plain
  | starred => cases isPlain

theorem Derives.clear {restriction : List Char -> Vocabulary -> Except ParseError Formula}
    (restricted : forall {scope vocabulary condition},
      restriction scope vocabulary = .ok condition -> condition.Explicit -> Clear condition)
    {level : Level} {before after : Vocabulary} {tokens : List Token} {formula : Formula}
    (derived : Derives restriction level before tokens formula after)
    (each : forall token, token ∈ tokens -> token.Plain ∧ token.Formed)
    (explicit : formula.Explicit) : Clear formula := by
  induction derived with
  | disjunction _ ih | conjunction _ ih
  | negation _ ih | atomic _ _ ih => exact ih each explicit
  | arrow _ _ _ atFirst atSecond | or _ _ _ atFirst atSecond | and _ _ _ atFirst atSecond =>
    exact .join _ (atFirst (each_split each).1 explicit.1)
      (atSecond (each_split each).2 explicit.2)
  | not _ _ ih => exact .neg (ih (List.forall_mem_cons.mp each).2 explicit)
  | parens _ _ _ ih => exact ih (each_split (List.forall_mem_cons.mp each).2).1 explicit
  | quantified conditioned _ ih =>
    rcases explicit with ⟨first, second, guarded⟩
    exact .quant _ _ (restricted conditioned first)
      (ih (List.forall_mem_cons.mp each).2 second) guarded
  | applied => exact .pred explicit
  | @operand _ token plain =>
    rcases each token List.mem_cons_self with ⟨isPlain, formed⟩
    apply Clear.atom
    rw [Token.text, String.toList_ofList]
    exact Token.source_ne_open plain isPlain formed

theorem readRestriction_clear {scope : List Char} {vocabulary : Vocabulary} {condition : Formula}
    (read : readRestriction scope vocabulary = .ok condition) (explicit : condition.Explicit) :
    Clear condition := by
  rcases readRestriction_eq_ok_iff.mp read with ⟨tokens, after, scanned, derived⟩
  exact derived.clear (fun impossible => by cases impossible) (scan_plain scanned) explicit

end Grammar

open Grammar

theorem Formula.parse_clear {text : String} {formula : Formula}
    (read : Formula.parse text = .ok formula) (explicit : formula.Explicit) : formula.Clear := by
  rcases Formula.parse_eq_ok_iff.mp read with ⟨_, tokens, after, scanned, derived⟩
  exact derived.clear readRestriction_clear (scan_plain scanned) explicit

/-- Formulas that were read have the same text exactly if they consist of the same pieces, and
explicit ones only if they are equal. -/
theorem Formula.eq_of_parse_text_eq {text other : String} {formula formula' : Formula}
    (read : Formula.parse text = .ok formula) (read' : Formula.parse other = .ok formula') :
    (formula.text = formula'.text ↔ formula.pieces = formula'.pieces) ∧
      (formula.Explicit -> formula'.Explicit -> formula.text = formula'.text ->
        formula = formula') := by
  have pieces := Formula.text_eq_iff_pieces_eq read read'
  refine ⟨pieces, fun explicit explicit' same => ?_⟩
  exact (Formula.parse_clear read explicit).told.whole (Formula.parse_clear read' explicit')
    (pieces.mp same)

/-- A quantifier over a negation, with blanks and parentheses to spare, is one formula. -/
theorem Formula.spaced_text_eq :
    ∃ formula formula', Formula.parse "[forall X P(X)](~Q(X))" = .ok formula ∧
      Formula.parse "[∀X P(X)]((~ Q(X)))" = .ok formula' ∧ formula.Explicit ∧
      formula'.Explicit ∧ formula.text = formula'.text ∧ formula = formula' := by
  have condition : readRestriction "P(X)".toList ⟨["X"], []⟩ = .ok (.pred "P" [.var "X"]) :=
    readRestriction_eq_ok_iff.mpr ⟨[.applied ['P'] ['X']], ⟨["X"], []⟩, rfl,
      .disjunction (.conjunction (.negation (.atomic (.applied rfl) rfl)))⟩
  have denied : Derives readRestriction .implication ⟨["X"], []⟩
      [.mark .not false, .applied ['Q'] ['X']] (.neg (.pred "Q" [.var "X"])) ⟨["X"], []⟩ :=
    .disjunction (.conjunction (.negation (.not false (.atomic (.applied rfl) rfl))))
  have narrow := Derives.parens false false denied
  have wide := Derives.parens false false (.disjunction (.conjunction (.negation
    (.atomic narrow rfl))))
  have derived (source : List Char) {tokens : List Token}
      (governed : Derives readRestriction .atomic ⟨["X"], []⟩ tokens (.neg (.pred "Q" [.var "X"]))
        ⟨["X"], []⟩) :
      Derives readRestriction .implication {}
        (.quantifier .all ['X'] "P(X)".toList source :: tokens)
        (.quant .all "X" (.pred "P" [.var "X"]) (.neg (.pred "Q" [.var "X"]))) ⟨["X"], []⟩ :=
    .disjunction (.conjunction (.negation (.atomic (.quantified condition governed) rfl)))
  have read : Formula.parse "[forall X P(X)](~Q(X))" = _ :=
    (derived "[forall X P(X)]".toList narrow).parse_eq rfl rfl
  have read' : Formula.parse "[∀X P(X)]((~ Q(X)))" = _ :=
    (derived "[∀X P(X)]".toList wide).parse_eq rfl rfl
  have explicit : (Formula.quant .all "X" (.pred "P" [.var "X"])
      (.neg (.pred "Q" [.var "X"]))).Explicit :=
    ⟨List.cons_ne_nil _ _, List.cons_ne_nil _ _, rfl⟩
  exact ⟨_, _, read, read', explicit, explicit, rfl,
    (Formula.eq_of_parse_text_eq read read').2 explicit explicit rfl⟩

open scoped Memory

/-- Parentheses around what a quantifier governs are not written.  So a quantifier over a
conjunction and a conjunction that starts with a quantifier have the same text, and one of them is
said to follow from the other.  With the conjuncts the other way round it is not. -/
theorem Formula.counterexample_reach :
    ∃ formula formula', Formula.parse "[forall X P(X)](Q(X) & R(a))" = .ok formula ∧
      Formula.parse "[forall X P(X)]Q(X) & R(a)" = .ok formula' ∧ formula ≠ formula' ∧
      formula.text = formula'.text ∧ entails [formula] formula' = .ok true ∧
      ∃ swapped, Formula.parse "R(a) & [forall X P(X)]Q(X)" = .ok swapped ∧
        entails [formula] swapped = .ok false := by
  have condition (constants : List String) :
      readRestriction "P(X)".toList ⟨["X"], constants⟩ = .ok (.pred "P" [.var "X"]) :=
    readRestriction_eq_ok_iff.mpr ⟨[.applied ['P'] ['X']], ⟨["X"], constants⟩, rfl,
      .disjunction (.conjunction (.negation (.atomic (.applied rfl) rfl)))⟩
  have atX (constants : List String) : Derives readRestriction .atomic ⟨["X"], constants⟩
      [.applied ['Q'] ['X']] (.pred "Q" [.var "X"]) ⟨["X"], constants⟩ := .applied rfl
  have atConstant : Derives readRestriction .negation ⟨["X"], []⟩ [.applied ['R'] ['a']]
      (.pred "R" [.const "a"]) ⟨["X"], ["a"]⟩ := .atomic (.applied rfl) rfl
  have atFirst : Derives readRestriction .negation {} [.applied ['R'] ['a']]
      (.pred "R" [.const "a"]) ⟨[], ["a"]⟩ := .atomic (.applied rfl) rfl
  have quantified {tokens : List Token} {matrix : Formula} {after : Vocabulary}
      (constants : List String)
      (governed : Derives readRestriction .atomic ⟨["X"], constants⟩ tokens matrix after) :
      Derives readRestriction .negation ⟨[], constants⟩
        (.quantifier .all ['X'] "P(X)".toList "[forall X P(X)]".toList :: tokens)
        (.quant .all "X" (.pred "P" [.var "X"]) matrix) after :=
    .atomic (.quantified (condition constants) governed) rfl
  have joined {front back : List Token} {left right : Formula} {before between after : Vocabulary}
      (first : Derives readRestriction .negation before front left between)
      (second : Derives readRestriction .negation between back right after) :
      Derives readRestriction .implication before (front ++ .mark .and false :: back)
        (.join .conj left right) after :=
    .disjunction (.conjunction (.and (.negation first) rfl second))
  have wide := quantified [] (.parens false false (joined (.atomic (atX []) rfl) atConstant))
  have narrow := joined (quantified [] (atX [])) atConstant
  have swapped := joined atFirst (quantified ["a"] (atX ["a"]))
  refine ⟨_, _, (Derives.disjunction (.conjunction (.negation wide))).parse_eq rfl rfl,
    narrow.parse_eq rfl rfl, ?_, rfl, rfl, _, swapped.parse_eq rfl rfl, rfl⟩
  intro same
  cases same

end WeakKleene
