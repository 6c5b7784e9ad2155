import Mathlib.Data.List.TakeWhile
import WeakKleene.Proofs.PlainReading

namespace WeakKleene

/-!
# Arguments as they are written and read

Arguments are written between commas, each comma with a blank behind it, and
they are read by cutting at the commas and trimming the pieces.  So a list of
names without commas or outer blanks comes back as it was, and whatever is read
is such a list.  Which names are variables is settled before a predicate is
read: its own arguments add no variable that was not one already.
-/

variable {c : Char} {text : List Char}

namespace Text

/-! ## Trimming -/

theorem trim_cons_blank (blank : isBlank c = true) (text : List Char) :
    trim (c :: text) = trim text := by
  unfold trim dropBlanks
  rw [List.dropWhile_cons_of_pos blank]

theorem trim_append_blank (blank : isBlank c = true) (text : List Char) :
    trim (text ++ [c]) = trim text := by
  unfold trim dropBlanks
  rw [List.dropWhile_append]
  split
  · next nothing =>
    rw [List.isEmpty_iff.mp nothing, List.dropWhile_cons_of_pos blank]
    rfl
  · rw [List.reverse_append, List.reverse_singleton, List.singleton_append,
      List.dropWhile_cons_of_pos blank]

theorem dropWhile_both_eq_self {test : Char -> Bool} (starts : text.head?.any test = false)
    (ends : text.getLast?.any test = false) :
    ((text.dropWhile test).reverse.dropWhile test).reverse = text := by
  have kept {other : List Char} (first : other.head?.any test = false) :
      other.dropWhile test = other := by
    cases other with
    | nil => rfl
    | cons c rest => exact List.dropWhile_cons_of_neg (Bool.eq_false_iff.mp first)
  rw [kept starts, kept (by rwa [List.head?_reverse]), List.reverse_reverse]

theorem trim_eq_self (starts : text.head?.any isBlank = false)
    (ends : text.getLast?.any isBlank = false) : trim text = text :=
  dropWhile_both_eq_self starts ends

theorem head?_dropBlanks (text : List Char) : (dropBlanks text).head?.any isBlank = false := by
  have first := List.head?_dropWhile_not isBlank text
  rw [dropBlanks]
  cases found : (text.dropWhile isBlank).head? with
  | none => rfl
  | some c =>
    rw [found] at first
    exact first

theorem trim_trim (text : List Char) : trim (trim text) = trim text := by
  apply trim_eq_self
  · -- What is left at the end is a front part of what was left at the start.
    have front : trim text <+: dropBlanks text := by
      rw [trim, <- List.reverse_reverse (dropBlanks text), List.reverse_prefix,
        List.reverse_reverse]
      exact List.dropWhile_suffix _
    have starts := head?_dropBlanks text
    rcases front with ⟨rest, same⟩
    rw [<- same] at starts
    cases trimmed : trim text with
    | nil => rfl
    | cons c others =>
      rw [trimmed] at starts
      exact starts
  · rw [trim, List.getLast?_reverse]
    exact head?_dropBlanks _

/-! ## Word characters -/

theorem inRanges_eq_false {table other : List (Nat × Nat)}
    (apart : (table.all fun range => other.all fun range' =>
      decide (range.2 < range'.1) || decide (range'.2 < range.1)) = true)
    {code : Nat} (member : inRanges table code = true) : inRanges other code = false := by
  simp only [inRanges, List.any_eq_true, Bool.and_eq_true, decide_eq_true_eq] at member
  rcases member with ⟨range, listed, low, high⟩
  simp only [inRanges, List.any_eq_false, Bool.and_eq_true, decide_eq_true_eq, not_and]
  intro range' listed' low' high'
  have disjoint := List.all_eq_true.mp (List.all_eq_true.mp apart range listed) range' listed'
  simp only [Bool.or_eq_true, decide_eq_true_eq] at disjoint
  omega

theorem isBlank_of_isWordChar (word : isWordChar c = true) : isBlank c = false := by
  cases blank : isBlank c with
  | false => rfl
  | true =>
    simp only [isBlank] at blank
    rw [isWordChar] at word
    split at blank
    · next ascii =>
      rw [if_pos ascii, <- Char.ofNat_toNat c] at word
      simp only [Bool.or_eq_true, Bool.and_eq_true, beq_iff_eq, decide_eq_true_eq] at blank
      have control : forall code, code < 33 ->
          ((Char.ofNat code).isAlphanum || Char.ofNat code == '_') = false := by decide
      rw [control c.toNat (by omega)] at word
      cases word
    · next beyond =>
      rw [if_neg beyond, inRanges_eq_false (by decide +kernel) blank] at word
      cases word

end Text

variable {names : List (List Char)}

namespace Grammar

open Formula (argumentChars)

/-! ## Outer blanks -/

/-- Something other than a blank stands at either end. -/
structure Tight (text : List Char) : Prop where
  nonempty : text ≠ []
  starts : text.head?.any Text.isBlank = false
  ends : text.getLast?.any Text.isBlank = false

theorem Tight.trim_eq (tight : Tight text) : Text.trim text = text :=
  Text.trim_eq_self tight.starts tight.ends

theorem Tight.append {front back : List Char} (first : Tight front) (middle : List Char)
    (second : Tight back) : Tight (front ++ (middle ++ back)) := by
  refine ⟨List.append_ne_nil_of_left_ne_nil first.nonempty _, ?_, ?_⟩
  · rw [List.head?_append_of_ne_nil _ first.nonempty]
    exact first.starts
  · rw [List.getLast?_append_of_ne_nil _ (List.append_ne_nil_of_right_ne_nil _ second.nonempty),
      List.getLast?_append_of_ne_nil _ second.nonempty]
    exact second.ends

theorem tight_singleton (solid : Text.isBlank c = false) : Tight [c] :=
  ⟨List.cons_ne_nil _ _, solid, solid⟩

/-! ## Names between commas -/

/-- A name as it may stand between the commas of an argument list. -/
structure Listed (name : List Char) : Prop where
  noComma : ',' ∉ name
  noParen : ')' ∉ name
  trimmed : Text.trim name = name

theorem IsWord.not_mem {name : List Char} (isWord : IsWord name)
    (other : Text.isWordChar c = false) : c ∉ name := by
  intro member
  rw [isWord.word c member] at other
  cases other

theorem IsWord.tight {name : List Char} (isWord : IsWord name) : Tight name := by
  have solid (found : Option Char) (inside : forall c, found = some c -> c ∈ name) :
      found.any Text.isBlank = false := by
    cases found with
    | none => rfl
    | some c => exact Text.isBlank_of_isWordChar (isWord.word c (inside c rfl))
  exact ⟨isWord.nonempty, solid _ fun _ found => List.mem_of_mem_head? found,
    solid _ fun _ found => List.mem_of_mem_getLast? found⟩

theorem IsWord.listed {name : List Char} (isWord : IsWord name) : Listed name :=
  ⟨isWord.not_mem (by decide), isWord.not_mem (by decide), isWord.tight.trim_eq⟩

def listing (names : List (List Char)) : List Char := [',', ' '].intercalate names

theorem listing_cons_cons (first second : List Char) (others : List (List Char)) :
    listing (first :: second :: others) = first ++ ',' :: ' ' :: listing (second :: others) := by
  rw [listing, List.intercalate_cons_cons, List.append_assoc]
  rfl

theorem argumentChars_eq_listing (args : List Term) :
    argumentChars args = listing (args.map fun term => term.name.toList) := by
  rw [argumentChars, String.toList_intercalate, List.map_map]
  rfl

theorem noParen_listing
    (listed : forall name, name ∈ names -> Listed name) : ')' ∉ listing names := by
  intro member
  rcases Formula.mem_intercalate member with between | ⟨name, inNames, inside⟩
  · exact absurd between (by decide)
  · exact (listed name inNames).noParen inside

theorem dropWhile_both_subset (test : Char -> Bool) (text : List Char) :
    ((text.dropWhile test).reverse.dropWhile test).reverse ⊆ text := by
  intro c member
  have inner := List.dropWhile_subset test (List.mem_reverse.mp member)
  exact List.dropWhile_subset test (List.mem_reverse.mp inner)

theorem separated_of_mem_commaPieces {piece : List Char} (listed : piece ∈ commaPieces text) :
    ',' ∉ piece := by
  rw [commaPieces, List.splitOn] at listed
  induction text generalizing piece with
  | nil =>
    rw [List.splitOnP_nil, List.mem_singleton] at listed
    exact listed ▸ List.not_mem_nil
  | cons c rest ih =>
    rw [List.splitOnP_cons_eq_if_modifyHead] at listed
    split at listed
    · rcases List.mem_cons.mp listed with rfl | later
      · exact List.not_mem_nil
      · exact ih later
    · next other =>
      cases pieces : rest.splitOnP (· == ',') with
      | nil =>
        rw [pieces] at listed
        cases listed
      | cons first others =>
        rw [pieces] at listed ih
        rcases List.mem_cons.mp listed with rfl | later
        · have separated := ih (List.mem_cons_self)
          simp only [beq_iff_eq] at other
          simp [separated, Ne.symm other]
        · exact ih (List.mem_cons_of_mem _ later)

/-- A blank at the start of a list of pieces is trimmed away. -/
theorem map_trim_commaPieces_blank (text : List Char) :
    (commaPieces (' ' :: text)).map Text.trim = (commaPieces text).map Text.trim := by
  rw [commaPieces, commaPieces, List.splitOn, List.splitOnP_cons_eq_if_modifyHead,
    if_neg (by decide), <- List.splitOn]
  cases text.splitOn ',' with
  | nil => rfl
  | cons first others =>
    rw [List.modifyHead_cons, List.map_cons, List.map_cons, Text.trim_cons_blank (by decide)]

theorem map_trim_commaPieces_listing (nonempty : names ≠ [])
    (listed : forall name, name ∈ names -> Listed name) :
    (commaPieces (listing names)).map Text.trim = names := by
  induction names with
  | nil => exact absurd rfl nonempty
  | cons first others ih =>
    have here := listed first List.mem_cons_self
    have uncut : forall c, c ∈ first -> (c == ',') = false := fun c member =>
      beq_eq_false_iff_ne.mpr fun same => here.noComma (same ▸ member)
    cases others with
    | nil =>
      rw [listing, List.intercalate_singleton, commaPieces, List.splitOn,
        List.splitOnP_eq_singleton uncut, List.map_singleton, here.trimmed]
    | cons second others =>
      have behind := ih (List.cons_ne_nil _ _) fun name member =>
        listed name (List.mem_cons_of_mem _ member)
      rw [listing_cons_cons, commaPieces, List.splitOn,
        List.splitOnP_append_cons_of_forall_mem uncut _ (beq_self_eq_true _), <- List.splitOn,
        List.map_cons, here.trimmed, <- commaPieces, map_trim_commaPieces_blank, behind]

/-! ## Variables -/

namespace Vocabulary

theorem isVariable_empty : ({} : Vocabulary).isVariable = Text.isUpper :=
  funext fun _ => Bool.or_false _

variable (vocabulary : Vocabulary) (name : List Char)

theorem isVariable_addVariable (other : List Char) :
    (vocabulary.addVariable (String.ofList name)).isVariable other =
      (vocabulary.isVariable other || decide (other = name)) := by
  rw [isVariable, isVariable, addVariable, Bool.or_assoc]
  congr 1
  rw [Bool.eq_iff_iff, Bool.or_eq_true, List.contains_iff_mem, List.contains_iff_mem,
    Sorted.mem_insert_iff, decide_eq_true_eq, String.ofList_inj, or_comm]

/-- Reading an argument makes no name a variable that was none. -/
theorem isVariable_add : (vocabulary.add name).isVariable = vocabulary.isVariable := by
  funext other
  unfold add
  split
  · next known =>
    rw [isVariable_addVariable]
    by_cases same : other = name
    · rw [same, known, Bool.true_or]
    · rw [decide_eq_false same, Bool.or_false]
  · rfl

theorem isVariable_foldl_add (names : List (List Char)) :
    (names.foldl add vocabulary).isVariable = vocabulary.isVariable := by
  induction names generalizing vocabulary with
  | nil => rfl
  | cons name names ih => rw [List.foldl_cons, ih, isVariable_add]

end Vocabulary

/-! ## Reading -/

section Reading

variable {before after : Vocabulary} {terms : List Term}

theorem gives_readNames :
    Gives (names.mapM readArgument) before terms after ↔
      terms = names.map (termNamed before.isVariable) ∧
        after = names.foldl Vocabulary.add before := by
  induction names generalizing before terms with
  | nil =>
    rw [gives_mapM_nil]
    exact and_congr eq_comm eq_comm
  | cons name names ih =>
    rw [gives_mapM_cons]
    constructor
    · rintro ⟨term, others, between, rfl, first, further⟩
      rcases gives_readArgument.mp first with ⟨rfl, rfl⟩
      rcases ih.mp further with ⟨rfl, rfl⟩
      rw [Vocabulary.isVariable_add]
      exact ⟨rfl, rfl⟩
    · rintro ⟨rfl, rfl⟩
      refine ⟨_, _, _, rfl, gives_readArgument.mpr ⟨rfl, rfl⟩, ih.mpr ⟨?_, rfl⟩⟩
      rw [Vocabulary.isVariable_add]

/-- Arguments are read by cutting at the commas and trimming the pieces. -/
theorem gives_readArguments {args : List Char} (nonempty : args ≠ []) :
    Gives (readArguments args) before terms after ↔
      terms = ((commaPieces args).map Text.trim).map (termNamed before.isVariable) ∧
        after = ((commaPieces args).map Text.trim).foldl Vocabulary.add before := by
  rw [<- gives_readNames, List.mapM_map, readArguments, if_neg (by rwa [List.isEmpty_iff])]
  rfl

end Reading

end Grammar
end WeakKleene
