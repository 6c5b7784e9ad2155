import WeakKleene.Formula.Text

namespace WeakKleene
namespace Formula

/-!
# Unique readability of written formulas

Branches of a tableau look formulas up by their written form, and the bilateral
calculus compares written forms to find contradictions.  Both are sound only if
what is written determines what is meant.

A compound part stands in parentheses, so the question is where an atomic part
ends.  A reader with four zones tells: it reads a name, the stars behind it, and
one pair of parentheses.  A star that stands inside the parentheses of a name
without stars counts as part of the name, since such a text is written for a predicate
whose name contains the opening parenthesis.  Texts that this reader takes off the
front of any longer text, up to a blank or a closing parenthesis, are *legible*.

Formulas over legible atomic parts that are written alike have the same
structure over atomic parts that are written alike.  The atomic parts themselves
may differ in kind: an atom and a predicate without arguments share their
written form.
-/

/-- Formulas built by negation and the joining connectives from basic ones. -/
inductive BuiltFrom (basic : Formula -> Prop) : Formula -> Prop where
  | basic {formula : Formula} (given : basic formula) : BuiltFrom basic formula
  | neg {body : Formula} (inner : BuiltFrom basic body) : BuiltFrom basic (.neg body)
  | join {left right : Formula} (connective : Connective) (first : BuiltFrom basic left)
      (second : BuiltFrom basic right) : BuiltFrom basic (.join connective left right)

variable {formula : Formula} {chars rest rest' : List Char} {c : Char}

theorem BuiltFrom.mono {basic other : Formula -> Prop}
    (weaker : forall formula, basic formula -> other formula)
    (shape : BuiltFrom basic formula) : BuiltFrom other formula := by
  induction shape with
  | basic given => exact .basic (weaker _ given)
  | neg inner ih => exact .neg ih
  | join connective first second atFirst atSecond => exact .join connective atFirst atSecond

section Inversion

variable {basic : Formula -> Prop}

theorem BuiltFrom.of_neg {body : Formula} (shape : BuiltFrom basic (.neg body))
    (atomic : forall formula, basic formula -> formula.isAtomic = true) :
    BuiltFrom basic body := by
  cases shape with
  | basic given => cases atomic _ given
  | neg inner => exact inner

theorem BuiltFrom.of_join {connective : Connective} {left right : Formula}
    (shape : BuiltFrom basic (.join connective left right))
    (atomic : forall formula, basic formula -> formula.isAtomic = true) :
    BuiltFrom basic left ∧ BuiltFrom basic right := by
  cases shape with
  | basic given => cases atomic _ given
  | join _ first second => exact ⟨first, second⟩

theorem BuiltFrom.misshapen?_eq_none (shape : BuiltFrom basic formula)
    (atomic : forall formula, basic formula -> formula.isAtomic = true) :
    formula.misshapen? = none := by
  induction shape with
  | @basic formula given =>
    have atomic := atomic formula given
    cases formula with
    | atom | pred | bilateral => rfl
    | _ => cases atomic
  | neg inner ih => exact ih
  | join connective first second atFirst atSecond =>
    rw [misshapen?, atFirst, atSecond]
    rfl

end Inversion

/-- Built by negation and the joining connectives from atoms and predicates. -/
abbrev QuantifierFree : Formula -> Prop := BuiltFrom fun formula => formula.isAtomic = true

/-! ## Parts as they stand inside a compound -/

def partChars (formula : Formula) : List Char := (enclose formula.isCompound formula.text).toList

theorem partChars_atomic (atomic : formula.isAtomic = true) :
    formula.partChars = formula.text.toList := by
  cases formula <;> simp [isAtomic, partChars, isCompound, enclose] at atomic ⊢

theorem text_neg_toList (body : Formula) : (neg body).text.toList = '~' :: body.partChars := by
  simp [text, partChars]

theorem text_join_toList (connective : Connective) (left right : Formula) :
    (join connective left right).text.toList =
      left.partChars ++ ' ' :: (connective.symbol.toList ++ ' ' :: right.partChars) := by
  simp [text, partChars]

theorem partChars_compound (compound : formula.isCompound = true) :
    formula.partChars = '(' :: (formula.text.toList ++ [')']) := by
  simp [partChars, compound, enclose]

/-! ## Where a part ends -/

/-- What may follow a part: nothing, a blank, or a closing parenthesis. -/
def Boundary : List Char -> Prop
  | [] => True
  | c :: _ => c = ' ' ∨ c = ')'

theorem boundary_nil : Boundary [] := True.intro

theorem boundary_blank (rest : List Char) : Boundary (' ' :: rest) := Or.inl rfl

theorem boundary_paren (rest : List Char) : Boundary (')' :: rest) := Or.inr rfl

/-- Where the reader of an atomic part is: in a name without stars, behind a star, inside the
parentheses of a name without stars, or inside those of a starred one. -/
inductive Zone where
  | name
  | starred
  | opened
  | enclosed

/-- Read an atomic part off the front of a text. -/
def takeAtomic : Zone -> List Char -> List Char × List Char
  | _, [] => ([], [])
  | .name, c :: rest =>
    if c = ' ' ∨ c = ')' then ([], c :: rest)
    else
      let next := if c = '*' then Zone.starred else if c = '(' then .opened else .name
      Prod.map (c :: ·) id (takeAtomic next rest)
  | .starred, c :: rest =>
    if c = ' ' ∨ c = ')' then ([], c :: rest)
    else Prod.map (c :: ·) id (takeAtomic (if c = '(' then .enclosed else .starred) rest)
  | .opened, c :: rest =>
    if c = ')' then ([c], rest)
    else Prod.map (c :: ·) id (takeAtomic (if c = '*' then .starred else .opened) rest)
  | .enclosed, c :: rest =>
    if c = ')' then ([c], rest) else Prod.map (c :: ·) id (takeAtomic .enclosed rest)

/-- A text that the reader takes off the front of any longer one, and that cannot be mistaken
for a compound by its first character. -/
structure Legible (chars : List Char) : Prop where
  taken : forall rest, Boundary rest -> takeAtomic .name (chars ++ rest) = (chars, rest)
  noParen : chars.head? ≠ some '('
  noTilde : chars.head? ≠ some '~'

/-- What neither starts a text nor may follow it does not stand at the front. -/
theorem append_ne_cons (absent : chars.head? ≠ some c) (ends : Boundary rest)
    (inner : ¬ Boundary [c]) (tail : List Char) :
    chars ++ rest ≠ c :: tail := by
  intro same
  cases chars with
  | nil =>
    rw [List.nil_append] at same
    rw [same] at ends
    exact inner ends
  | cons first others =>
    apply absent
    rw [List.head?_cons, (List.cons.inj same).1]

/-- The ends of legible texts are determined. -/
theorem Legible.append_inj {other : List Char} (legible : Legible chars)
    (legible' : Legible other) (ends : Boundary rest) (ends' : Boundary rest')
    (same : chars ++ rest = other ++ rest') : chars = other ∧ rest = rest' := by
  have taken := legible.taken rest ends
  rw [same, legible'.taken rest' ends', Prod.mk.injEq] at taken
  exact ⟨taken.1.symm, taken.2.symm⟩

theorem Legible.append_ne_paren (legible : Legible chars)
    (ends : Boundary rest) (tail : List Char) : chars ++ rest ≠ '(' :: tail :=
  append_ne_cons legible.noParen ends (by simp [Boundary]) tail

theorem Legible.append_ne_tilde (legible : Legible chars)
    (ends : Boundary rest) (tail : List Char) : chars ++ rest ≠ '~' :: tail :=
  append_ne_cons legible.noTilde ends (by simp [Boundary]) tail

theorem symbol_append_inj {connective other : Connective}
    (same : connective.symbol.toList ++ ' ' :: rest = other.symbol.toList ++ ' ' :: rest') :
    connective = other ∧ rest = rest' := by
  cases connective <;> cases other <;>
    simp_all [Connective.symbol]

/-! ## Unique readability -/

structure Distinct (formula : Formula) : Prop where
  atomic : formula.isAtomic = true
  legible : Legible formula.text.toList

/-- The same structure over atomic formulas that are written alike. -/
inductive Alike : Formula -> Formula -> Prop where
  | basic {formula other : Formula} (atomic : formula.isAtomic = true)
      (atomic' : other.isAtomic = true) (same : formula.text = other.text) : Alike formula other
  | neg {body body' : Formula} (inner : Alike body body') : Alike (.neg body) (.neg body')
  | join {left left' right right' : Formula} (connective : Connective)
      (first : Alike left left') (second : Alike right right') :
      Alike (.join connective left right) (.join connective left' right')

theorem Distinct.partChars_eq (distinct : Distinct formula) :
    formula.partChars = formula.text.toList :=
  partChars_atomic distinct.atomic

/-- A part, with what follows it, never starts with a negation sign: inside a compound the sign
stands behind a parenthesis. -/
theorem partChars_append_ne_tilde (shape : BuiltFrom Distinct formula)
    (ends : Boundary rest) (tail : List Char) :
    formula.partChars ++ rest ≠ '~' :: tail := by
  cases shape with
  | basic given =>
    rw [given.partChars_eq]
    exact given.legible.append_ne_tilde ends tail
  | neg inner | join connective first second =>
    rw [partChars_compound rfl]
    intro same
    exact absurd (List.cons.inj same).1 (by decide)

/-- A part at the front of a text determines its structure and what follows it. -/
theorem partChars_append_alike {other : Formula} (shape : BuiltFrom Distinct formula)
    (shape' : BuiltFrom Distinct other) (ends : Boundary rest)
    (ends' : Boundary rest') (same : formula.partChars ++ rest = other.partChars ++ rest') :
    Alike formula other ∧ rest = rest' := by
  induction shape generalizing other rest rest' with
  | @basic formula given =>
    rw [given.partChars_eq] at same
    cases shape' with
    | basic given' =>
      rw [given'.partChars_eq] at same
      have split := given.legible.append_inj given'.legible ends ends' same
      exact ⟨.basic given.atomic given'.atomic (String.toList_injective split.1), split.2⟩
    | neg inner | join connective first second =>
      rw [partChars_compound rfl] at same
      exact absurd same (given.legible.append_ne_paren ends _)
  | @neg body inner ih =>
    rw [partChars_compound rfl] at same
    cases shape' with
    | basic given' =>
      rw [given'.partChars_eq] at same
      exact absurd same.symm (given'.legible.append_ne_paren ends' _)
    | @neg body' inner' =>
      rw [partChars_compound rfl, text_neg_toList, text_neg_toList] at same
      simp only [List.cons_append, List.append_assoc, List.cons.injEq, true_and] at same
      have split := ih inner' (boundary_paren _) (boundary_paren _) same
      exact ⟨.neg split.1, (List.cons.inj split.2).2⟩
    | join connective first second =>
      rw [partChars_compound rfl, text_neg_toList, text_join_toList] at same
      simp only [List.cons_append, List.append_assoc, List.cons.injEq, true_and] at same
      exact absurd same.symm (partChars_append_ne_tilde first (boundary_blank _) _)
  | @join left right connective first second leftHypothesis rightHypothesis =>
    rw [partChars_compound rfl] at same
    cases shape' with
    | basic given' =>
      rw [given'.partChars_eq] at same
      exact absurd same.symm (given'.legible.append_ne_paren ends' _)
    | neg inner' =>
      rw [partChars_compound rfl, text_neg_toList, text_join_toList] at same
      simp only [List.cons_append, List.append_assoc, List.cons.injEq, true_and] at same
      exact absurd same (partChars_append_ne_tilde first (boundary_blank _) _)
    | join connective' first' second' =>
      rw [partChars_compound rfl, text_join_toList, text_join_toList] at same
      simp only [List.cons_append, List.append_assoc, List.cons.injEq, true_and] at same
      have leftSplit := leftHypothesis first' (boundary_blank _) (boundary_blank _) same
      have symbols := symbol_append_inj (List.cons.inj leftSplit.2).2
      have rightSplit := rightHypothesis second' (boundary_paren _) (boundary_paren _) symbols.2
      rw [<- symbols.1]
      exact ⟨.join connective leftSplit.1 rightSplit.1, (List.cons.inj rightSplit.2).2⟩

theorem Legible.ne_text_compound (legible : Legible chars) (compound : formula.isCompound = true)
    (shape : BuiltFrom Distinct formula) : chars ≠ formula.text.toList := by
  intro same
  cases shape with
  | @basic formula given =>
    have atomic := given.atomic
    cases formula <;> simp [isCompound, isAtomic] at compound atomic
  | neg inner =>
    rw [text_neg_toList] at same
    exact legible.noTilde (by rw [same]; rfl)
  | @join left right connective first second =>
    rw [text_join_toList] at same
    cases first with
    | basic given =>
      -- Read to its end, the text leaves nothing; read as a compound, it leaves the rest.
      rw [given.partChars_eq] at same
      rw [<- List.append_nil chars] at same
      have split := legible.append_inj given.legible boundary_nil (boundary_blank _) same
      cases split.2
    | neg inner | join connective' first' second' =>
      rw [partChars_compound rfl] at same
      exact legible.noParen (by rw [same]; rfl)

/-- Formulas over legible atomic parts that are written alike have the same structure. -/
theorem alike_of_text_eq {other : Formula} (shape : BuiltFrom Distinct formula)
    (shape' : BuiltFrom Distinct other) (same : formula.text = other.text) :
    Alike formula other := by
  have chars := congrArg String.toList same
  cases kind : formula.isCompound with
  | true =>
    cases kind' : other.isCompound with
    | true =>
      have parts : formula.partChars ++ [] = other.partChars ++ [] := by
        rw [partChars_compound kind, partChars_compound kind', same]
      exact (partChars_append_alike shape shape' boundary_nil boundary_nil parts).1
    | false =>
      cases shape' with
      | basic given' => exact absurd chars.symm (given'.legible.ne_text_compound kind shape)
      | neg inner => cases kind'
      | join connective first second => cases kind'
  | false =>
    cases shape with
    | neg inner => cases kind
    | join connective first second => cases kind
    | basic given =>
      cases shape' with
      | basic given' => exact .basic given.atomic given'.atomic same
      | neg inner => exact absurd chars (given.legible.ne_text_compound rfl (.neg inner))
      | join connective first second =>
        exact absurd chars (given.legible.ne_text_compound rfl (.join connective first second))

/-! ## Legible texts -/

/-- The characters that leave the reader where it is. -/
def Zone.keeps : Zone -> Char -> Bool
  | .name, c => c ∉ [' ', ')', '(', '*']
  | .starred, c => c ∉ [' ', ')', '(']
  | .opened, c => c ∉ [')', '*']
  | .enclosed, c => c ≠ ')'

section Shapes

variable {zone : Zone} {chars more inside rest : List Char}

theorem takeAtomic_boundary (ends : Boundary rest) :
    takeAtomic .name rest = ([], rest) ∧ takeAtomic .starred rest = ([], rest) := by
  cases rest with
  | nil => exact ⟨rfl, rfl⟩
  | cons c rest =>
    have separate : c = ' ' ∨ c = ')' := ends
    simp [takeAtomic, separate]

theorem takeAtomic_cons (kept : zone.keeps c = true) :
    takeAtomic zone (c :: rest) = Prod.map (c :: ·) id (takeAtomic zone rest) := by
  cases zone <;> simp [Zone.keeps] at kept <;> simp [takeAtomic, kept]

theorem takeAtomic_append (kept : forall c, c ∈ chars -> zone.keeps c = true) :
    takeAtomic zone (chars ++ rest) = Prod.map (chars ++ ·) id (takeAtomic zone rest) := by
  induction chars with
  | nil => rfl
  | cons c chars ih =>
    rw [List.cons_append, takeAtomic_cons (kept c List.mem_cons_self),
      ih fun other member => kept other (List.mem_cons_of_mem _ member)]
    rfl

/-- Behind a name or behind a star, parentheses are read up to the first closing one. -/
theorem takeAtomic_parens {within : Zone}
    (entered : (zone, within) ∈ [(Zone.name, Zone.opened), (Zone.starred, Zone.enclosed)])
    (kept : forall c, c ∈ inside -> within.keeps c = true) :
    takeAtomic zone ('(' :: (inside ++ ')' :: rest)) = ('(' :: (inside ++ [')']), rest) := by
  have opening (chars : List Char) : takeAtomic zone ('(' :: chars) =
      Prod.map ('(' :: ·) id (takeAtomic within chars) := by
    simp only [List.mem_cons, Prod.mk.injEq, List.not_mem_nil, or_false] at entered
    rcases entered with ⟨rfl, rfl⟩ | ⟨rfl, rfl⟩ <;> simp [takeAtomic]
  have closing : takeAtomic within (')' :: rest) = ([')'], rest) := by
    cases within <;> simp [takeAtomic] at entered ⊢
  rw [opening, takeAtomic_append kept, closing]
  rfl

theorem infix_intercalate {separator piece : List Char} {pieces : List (List Char)}
    (listed : piece ∈ pieces) : piece <:+: separator.intercalate pieces := by
  induction pieces with
  | nil => cases listed
  | cons first others ih =>
    cases others with
    | nil =>
      rw [List.intercalate_singleton]
      exact List.mem_singleton.mp listed ▸ List.infix_refl piece
    | cons second others =>
      rw [List.intercalate_cons_cons]
      rcases List.mem_cons.mp listed with rfl | later
      · exact ((List.prefix_append _ _).trans (List.prefix_append _ _)).isInfix
      · exact (ih later).trans (List.suffix_append _ _).isInfix

theorem mem_intercalate {separator : List Char} {pieces : List (List Char)}
    (member : c ∈ separator.intercalate pieces) :
    c ∈ separator ∨ ∃ piece, piece ∈ pieces ∧ c ∈ piece := by
  induction pieces with
  | nil => cases member
  | cons first others ih =>
    cases others with
    | nil =>
      rw [List.intercalate_singleton] at member
      exact .inr ⟨first, List.mem_cons_self, member⟩
    | cons second others =>
      rw [List.intercalate_cons_cons, List.mem_append, List.mem_append] at member
      rcases member with (here | between) | later
      · exact .inr ⟨first, List.mem_cons_self, here⟩
      · exact .inl between
      · rcases ih later with between | ⟨piece, listed, inside⟩
        · exact .inl between
        · exact .inr ⟨piece, List.mem_cons_of_mem _ listed, inside⟩

def argumentChars (args : List Term) : List Char :=
  (String.intercalate ", " (args.map Term.name)).toList

theorem application_toList (name : String) (args : List Term) : (application name args).toList =
      name.toList ++ if args = [] then [] else '(' :: (argumentChars args ++ [')']) := by
  cases args <;> simp [application, argumentChars]

variable {args : List Term}

theorem keeps_argumentChars (zone : Zone) (punctuation : zone.keeps ',' = true)
    (blank : zone.keeps ' ' = true)
    (kept : forall term, term ∈ args -> forall c, c ∈ term.name.toList -> zone.keeps c = true) :
    forall c, c ∈ argumentChars args -> zone.keeps c = true := by
  intro c member
  rw [argumentChars, String.toList_intercalate] at member
  rcases mem_intercalate member with between | ⟨piece, listed, inside⟩
  · have separator : c = ',' ∨ c = ' ' := by simpa using between
    rcases separator with rfl | rfl
    · exact punctuation
    · exact blank
  · rw [List.map_map, List.mem_map] at listed
    rcases listed with ⟨term, argument, rfl⟩
    exact kept term argument c inside

/-- A text that starts with a plain name does not look like a compound. -/
theorem head?_append_ne (nonempty : chars ≠ []) (absent : c ∉ chars) :
    (chars ++ rest).head? ≠ some c := by
  cases chars with
  | nil => exact absurd rfl nonempty
  | cons first others =>
    rw [List.cons_append, List.head?_cons, ne_eq, Option.some.injEq]
    rintro rfl
    exact absent List.mem_cons_self

theorem legible_name (plain : forall c, c ∈ chars -> c ∉ [' ', ')', '(', '~']) : Legible chars := by
  have read (zone : Zone) (either : zone = .name ∨ zone = .starred) (rest : List Char)
      (ends : Boundary rest) : takeAtomic zone (chars ++ rest) = (chars, rest) := by
    induction chars generalizing zone with
    | nil =>
      have taken := takeAtomic_boundary ends
      rcases either with rfl | rfl
      · exact taken.1
      · exact taken.2
    | cons c chars ih =>
      have here := plain c List.mem_cons_self
      have later := ih fun other member =>
        plain other (List.mem_cons_of_mem _ member)
      simp only [List.mem_cons, List.not_mem_nil, or_false, not_or] at here
      rw [List.cons_append]
      rcases either with rfl | rfl
      · -- A star in the name moves the reader, which does not matter here.
        by_cases star : c = '*' <;> simp [takeAtomic, here, star, later]
      · simp [takeAtomic, here, later]
  refine ⟨read .name (.inl rfl), ?_, ?_⟩
  all_goals
    intro first
    exact plain _ (List.mem_of_head? first) (by decide)

theorem keeps_of_plain (plain : forall c, c ∈ chars -> c ∉ [' ', ')', '(', '*', '~']) :
    forall c, c ∈ chars -> Zone.name.keeps c = true := by
  intro c member
  have excluded := plain c member
  simp only [List.mem_cons, List.not_mem_nil, or_false, not_or] at excluded
  simp [Zone.keeps, excluded]

/-- A name without stars, with anything in parentheses behind it but closing ones and stars. -/
theorem legible_parens (nonempty : chars ≠ [])
    (plain : forall c, c ∈ chars -> c ∉ [' ', ')', '(', '*', '~'])
    (kept : forall c, c ∈ inside -> Zone.opened.keeps c = true) :
    Legible (chars ++ '(' :: (inside ++ [')'])) := by
  refine ⟨?_, head?_append_ne nonempty fun member => plain _ member (by decide),
    head?_append_ne nonempty fun member => plain _ member (by decide)⟩
  intro rest ends
  rw [List.append_assoc, takeAtomic_append (keeps_of_plain plain), List.cons_append,
    List.append_assoc, List.singleton_append, takeAtomic_parens (by simp) kept]
  rfl

/-- A name without stars, applied to terms without closing parentheses and stars. -/
theorem legible_application {name : String} (nonempty : name ≠ "")
    (plain : forall c, c ∈ name.toList -> c ∉ [' ', ')', '(', '*', '~'])
    (terms : forall term, term ∈ args ->
      forall c, c ∈ term.name.toList -> Zone.opened.keeps c = true) :
    Legible (application name args).toList := by
  rw [application_toList]
  by_cases empty : args = []
  · rw [if_pos empty, List.append_nil]
    refine legible_name fun c member => ?_
    have excluded := plain c member
    simp only [List.mem_cons, List.not_mem_nil, or_false, not_or] at excluded
    simp [excluded]
  · rw [if_neg empty]
    exact legible_parens (by simpa using nonempty) plain
      (keeps_argumentChars .opened (by decide) (by decide) terms)

/-- What may stand in front of a predicate's star. -/
structure Starrable (front : List Char) : Prop where
  read : forall rest, takeAtomic .name (front ++ '*' :: rest) =
    Prod.map (fun taken => front ++ '*' :: taken) id (takeAtomic .starred rest)
  noParen : front.head? ≠ some '('
  noTilde : front.head? ≠ some '~'

theorem takeAtomic_star : takeAtomic .name ('*' :: rest) =
    Prod.map ('*' :: ·) id (takeAtomic .starred rest) := by
  simp [takeAtomic]

theorem starrable_name
    (plain : forall c, c ∈ chars -> c ∉ [' ', ')', '(', '*', '~']) : Starrable chars where
  read := by
    intro rest
    rw [takeAtomic_append (keeps_of_plain plain), takeAtomic_star]
    rfl
  noParen := fun first => plain _ (List.mem_of_head? first) (by decide)
  noTilde := fun first => plain _ (List.mem_of_head? first) (by decide)

/-- A name whose parentheses are left open at the star. -/
theorem starrable_opened (nonempty : chars ≠ [])
    (plain : forall c, c ∈ chars -> c ∉ [' ', ')', '(', '*', '~'])
    (kept : forall c, c ∈ inside -> Zone.opened.keeps c = true) :
    Starrable (chars ++ '(' :: inside) where
  read := by
    intro rest
    have opening : takeAtomic .name ('(' :: (inside ++ '*' :: rest)) =
        Prod.map ('(' :: ·) id (takeAtomic .opened (inside ++ '*' :: rest)) := by
      simp [takeAtomic]
    have star : takeAtomic .opened ('*' :: rest) =
        Prod.map ('*' :: ·) id (takeAtomic .starred rest) := by
      simp [takeAtomic]
    rw [List.append_assoc, List.cons_append, takeAtomic_append (keeps_of_plain plain), opening,
      takeAtomic_append kept, star]
    simp only [List.append_assoc, List.cons_append]
    rfl
  noParen := head?_append_ne nonempty fun member => plain _ member (by decide)
  noTilde := head?_append_ne nonempty fun member => plain _ member (by decide)

/-- A starred name, possibly with more stars, applied to terms without closing parentheses. -/
theorem Starrable.legible {front : List Char} (starrable : Starrable front) {name : String}
    (written : name.toList = front ++ '*' :: more)
    (stars : forall c, c ∈ more -> Zone.starred.keeps c = true)
    (terms : forall term, term ∈ args ->
      forall c, c ∈ term.name.toList -> Zone.enclosed.keeps c = true) :
    Legible (application name args).toList := by
  have heads (c : Char) (absent : front.head? ≠ some c) (tail : List Char) (other : c ≠ '*') :
      (front ++ '*' :: tail).head? ≠ some c := by
    cases front with
    | nil => simpa using other.symm
    | cons first others => simpa using absent
  rw [application_toList, written, List.append_assoc, List.cons_append]
  refine ⟨?_, heads _ starrable.noParen _ (by decide), heads _ starrable.noTilde _ (by decide)⟩
  intro rest ends
  rw [List.append_assoc, List.cons_append, List.append_assoc, starrable.read,
    takeAtomic_append stars]
  by_cases empty : args = []
  · simp [empty, takeAtomic_boundary ends]
  · have inside := keeps_argumentChars .enclosed (by decide) (by decide) terms
    rw [if_neg empty, List.cons_append, List.append_assoc, List.singleton_append,
      takeAtomic_parens (by simp) inside]
    simp

end Shapes
end Formula
end WeakKleene
