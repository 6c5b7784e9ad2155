import Mathlib.Data.List.Forall2
import Mathlib.Data.List.Nodup
import WeakKleene.Json.Print
import WeakKleene.Json.Read

namespace WeakKleene
namespace Json

/-!
# Documents are read back

A value without fractions that is written as a document is what is read from
it.  The scanner takes a document apart into the tokens of the value, whatever
the indentation, and the reader builds the value from them.

Texts are written with characters of ASCII alone, others as one or two units of
UTF-16.  The halves of a pair are joined again, and no other units can be taken
for halves, since no character is one.  Names must differ: of two fields with
one name only the later would be read.
-/

/-- A value of whole numbers and well-formed texts, whose objects name each field once. -/
inductive Plain : Json -> Prop where
  | null : Plain .null
  | bool (value : Bool) : Plain (.bool value)
  | int (value : Int) : Plain (.int value)
  | string (text : String) : Plain (.string text)
  | list {items : List Json} (all : forall item, item ∈ items -> Plain item) : Plain (.list items)
  | object {fields : List (FieldName × Json)} (distinct : (fields.map Prod.fst).Nodup)
      (named : forall field, field ∈ fields -> ∃ name, field.1 = .plain name)
      (all : forall field, field ∈ fields -> Plain field.2) : Plain (.object fields)

theorem Plain.record {fields : List (String × Json)} (distinct : (fields.map Prod.fst).Nodup)
    (all : forall field, field ∈ fields -> Plain field.2) : Plain (.record fields) := by
  have named : ((fields.map Prod.fst).map FieldName.plain).Nodup :=
    distinct.map fun _ _ same => FieldName.plain.inj same
  refine .object ?_ ?_ ?_
  · rw [List.map_map] at named ⊢
    exact named
  · intro field listed
    rcases List.mem_map.mp listed with ⟨⟨name, value⟩, _, rfl⟩
    exact ⟨name, rfl⟩
  · intro field listed
    rcases List.mem_map.mp listed with ⟨original, member, rfl⟩
    exact all original member

/-- Setting a field adds a name at most at the end. -/
theorem map_fst_put (name : FieldName) (value : Json) (fields : List (FieldName × Json)) :
    (put name value fields).map Prod.fst = fields.map Prod.fst ∨ name ∉ fields.map Prod.fst ∧
        (put name value fields).map Prod.fst = fields.map Prod.fst ++ [name] := by
  induction fields with
  | nil => exact .inr ⟨List.not_mem_nil, rfl⟩
  | cons field rest ih =>
    rw [put]
    by_cases same : field.1 = name
    · rw [if_pos (beq_iff_eq.mpr same), List.map_cons, List.map_cons, same]
      exact .inl rfl
    · rw [if_neg (by simpa using same), List.map_cons, List.map_cons]
      rcases ih with kept | ⟨new, added⟩
      · exact .inl (by rw [kept])
      · refine .inr ⟨fun member => ?_, by rw [added, List.cons_append]⟩
        rcases List.mem_cons.mp member with found | old
        · exact same found.symm
        · exact new old

variable {fields known : List (FieldName × Json)} {value json : Json} {unit : Nat} {c : Char}
variable {texts : List String} {parts : List (List Token)} {found rest start : List Token}
variable {values : List Json}

theorem mem_put {name : FieldName}
    {field : FieldName × Json} (member : field ∈ put name value fields) :
    field = (name, value) ∨ field ∈ fields := by
  induction fields with
  | nil => exact .inl (List.mem_singleton.mp member)
  | cons first rest ih =>
    rw [put] at member
    split at member
    · rcases List.mem_cons.mp member with rfl | old
      · exact .inl rfl
      · exact .inr (List.mem_cons_of_mem _ old)
    · rcases List.mem_cons.mp member with rfl | later
      · exact .inr List.mem_cons_self
      · exact (ih later).imp_right (List.mem_cons_of_mem _)

theorem Plain.put (plain : Plain (.object fields)) (name : String) (added : Plain value) :
    Plain (.object (put (.plain name) value fields)) := by
  cases plain with
  | object distinct named all =>
    refine .object ?_ (fun field member => ?_) (fun field member => ?_)
    · rcases map_fst_put (.plain name) value fields with kept | ⟨new, last⟩
      · rwa [kept]
      · rw [last, List.nodup_append]
        refine ⟨distinct, List.nodup_singleton _, fun old member other single same => ?_⟩
        rw [List.mem_singleton] at single
        exact new (single ▸ same ▸ member)
    · rcases mem_put member with rfl | old
      · exact ⟨name, rfl⟩
      · exact named field old
    · rcases mem_put member with rfl | old
      · exact added
      · exact all field old

/-! ## Digits -/

theorem hexValue?_digitChar : forall digit, digit < 16 ->
    hexValue? (Nat.digitChar digit) = some digit := by
  decide

theorem hexDigits_succ (width number : Nat) : Text.hexDigits (width + 2) number =
      Text.hexDigits (width + 1) (number / 16) ++ [Nat.digitChar (number % 16)] := by
  unfold Text.hexDigits
  rcases Nat.lt_or_ge number 16 with small | large
  · rw [Nat.toDigits_of_lt_base small, Nat.div_eq_of_lt small, Nat.toDigits_zero,
      Nat.mod_eq_of_lt small]
    simp only [List.length_singleton, Nat.add_sub_cancel]
    rw [<- List.replicate_succ']
    rfl
  · rw [Nat.toDigits_of_base_le (by decide) large]
    simp only [List.length_append, List.length_singleton, List.append_assoc]
    rw [show width + 2 - ((Nat.toDigits 16 (number / 16)).length + 1) =
      width + 1 - (Nat.toDigits 16 (number / 16)).length by omega]

theorem hexDigits_four (small : unit < 0x10000) :
    Text.hexDigits 4 unit = [Nat.digitChar (unit / 4096), Nat.digitChar (unit / 256 % 16),
      Nat.digitChar (unit / 16 % 16), Nat.digitChar (unit % 16)] := by
  have highest : Text.hexDigits 1 (unit / 4096) = [Nat.digitChar (unit / 4096)] := by
    rw [Text.hexDigits, Nat.toDigits_of_lt_base (by omega)]
    rfl
  rw [hexDigits_succ 2, hexDigits_succ 1, hexDigits_succ 0]
  simp only [Nat.div_div_eq_div_mul, Nat.reduceMul, highest]
  rfl

theorem unitValue?_hexDigits (small : unit < 0x10000) :
    ∃ a b c d, Text.hexDigits 4 unit = [a, b, c, d] ∧ unitValue? a b c d = some unit := by
  refine ⟨_, _, _, _, hexDigits_four small, ?_⟩
  have digit (place : Nat) : hexValue? (Nat.digitChar (place % 16)) = some (place % 16) :=
    hexValue?_digitChar _ (Nat.mod_lt _ (by decide))
  have first : hexValue? (Nat.digitChar (unit / 4096)) = some (unit / 4096) :=
    hexValue?_digitChar _ (by omega)
  simp only [unitValue?, first, digit, Option.bind_eq_bind, Option.bind_some]
  exact congrArg some (by omega)

/-- No zero stands in front of a number that is not zero. -/
theorem head?_toDigits_ne {number : Nat} (positive : number ≠ 0) :
    (Nat.toDigits 10 number).head? ≠ some '0' := by
  induction number using Nat.strongRecOn with
  | ind number ih =>
    rcases Nat.lt_or_ge number 10 with small | large
    · rw [Nat.toDigits_of_lt_base small, List.head?_singleton, ne_eq, Option.some.injEq,
        Nat.digitChar_eq_zero]
      exact positive
    · rw [Nat.toDigits_of_base_le (by decide) large, List.head?_append_of_ne_nil _
        Nat.toDigits_ne_nil]
      exact ih (number / 10) (by omega) (by omega)

theorem scanNatural_toDigits (number : Nat) {rest : List Char}
    (ends : forall c, rest.head? = some c -> c.isDigit = false) :
    scanNatural (Nat.toDigits 10 number ++ rest) = some (number, rest) := by
  have digits : forall c, c ∈ Nat.toDigits 10 number -> c.isDigit = true :=
    fun c member => Nat.isDigit_of_mem_toDigits (by decide) (by decide) member
  have stops : rest.takeWhile Char.isDigit = [] ∧ rest.dropWhile Char.isDigit = rest := by
    cases rest with
    | nil => exact ⟨rfl, rfl⟩
    | cons c rest => simp [ends c rfl]
  by_cases zero : number = 0
  · rw [zero, Nat.toDigits_zero]
    rfl
  · unfold scanNatural
    split
    · next tail equal =>
      have front := congrArg List.head? equal
      rw [List.head?_append_of_ne_nil _ Nat.toDigits_ne_nil] at front
      exact absurd front (head?_toDigits_ne zero)
    · simp only [List.takeWhile_append_of_pos digits, List.dropWhile_append_of_pos digits, stops,
        List.append_nil, List.isEmpty_iff, Nat.toDigits_ne_nil, if_false]
      rw [decimalValue, <- Nat.ofDigitChars_eq_foldl, Nat.ofDigitChars_ten_toDigits]

/-! ## Texts -/

/-- The units that a character is written by inside a text, as they are scanned. -/
def scanned (c : Char) : List (Nat ⊕ Char) :=
  if [8, 9, 10, 12, 13].contains c.toNat || (32 <= c.toNat && c.toNat <= 126) then [.inr c]
  else (Text.unitsOf c.toNat).map .inl

theorem scanText_escaped {letter : Char} (known : escaped? letter = some c)
    (single : letter ≠ 'u') (rest : List Char) :
    scanText ('\\' :: letter :: rest) =
      (scanText rest).map fun (units, after) => (.inr c :: units, after) := by
  rw [scanText]
  · rw [known]
    cases scanText rest <;> rfl
  · rintro a b c d rest ⟨⟩
    exact absurd rfl single

theorem scanText_printed (quote : c ≠ '"') (backslash : c ≠ '\\')
    (visible : 32 <= c.toNat) (rest : List Char) :
    scanText (c :: rest) = (scanText rest).map fun (units, after) => (.inr c :: units, after) := by
  rw [scanText]
  · rw [if_neg (by simp [backslash]; omega)]
  · exact quote
  · exact fun _ _ _ _ _ equal => absurd equal backslash
  · exact fun _ _ equal => absurd equal backslash

theorem scanText_unit (small : unit < 0x10000) (rest : List Char) :
    scanText (unitEscape unit ++ rest) =
      (scanText rest).map fun (units, after) => (.inl unit :: units, after) := by
  rcases unitValue?_hexDigits small with ⟨a, b, c, d, digits, value⟩
  rw [unitEscape, digits]
  simp only [List.cons_append, List.nil_append]
  rw [scanText, value]
  cases scanText rest <;> rfl

/-- The code point of a character is no half of a pair. -/
theorem code_cases (c : Char) : c.toNat < 0xD800 ∨ 0xDFFF < c.toNat ∧ c.toNat < 0x110000 := c.valid

/-- A character is written by units that fit into four digits. -/
theorem scanText_units (c : Char) (rest : List Char) :
    scanText ((Text.unitsOf c.toNat).flatMap unitEscape ++ rest) =
      (scanText rest).map fun (units, after) =>
        ((Text.unitsOf c.toNat).map .inl ++ units, after) := by
  have bound := code_cases c
  unfold Text.unitsOf
  split
  · next small =>
    simp only [List.flatMap_cons, List.flatMap_nil, List.append_nil, List.map_cons, List.map_nil]
    exact scanText_unit small rest
  · simp only [List.flatMap_cons, List.flatMap_nil, List.append_nil, List.append_assoc]
    rw [scanText_unit (by omega), scanText_unit (by omega), Option.map_map]
    rfl

/-- What a character is written as, and what that is scanned as. -/
inductive Escaping (c : Char) : List Char -> List (Nat ⊕ Char) -> Prop
  | marked (known : escaped? letter = some c) (single : letter ≠ 'u') :
    Escaping c ['\\', letter] [.inr c]
  | printed (quote : c ≠ '"') (backslash : c ≠ '\\') (visible : 32 <= c.toNat) :
    Escaping c [c] [.inr c]
  | units :
    Escaping c ((Text.unitsOf c.toNat).flatMap unitEscape) ((Text.unitsOf c.toNat).map .inl)

theorem escaping (c : Char) : Escaping c (escape c.toNat) (scanned c) := by
  have special {letter meant : Char} (known : escaped? letter = some meant) (single : letter ≠ 'u')
      (inside : scanned meant = [.inr meant]) (code : (c.toNat == meant.toNat) = true) :
      Escaping c ['\\', letter] (scanned c) := by
    have same : c = meant := by
      rw [<- Char.ofNat_toNat c, eq_of_beq code, Char.ofNat_toNat]
    rw [same, inside]
    exact .marked known single
  unfold escape
  split
  · next code => exact special rfl (by decide) rfl code
  split
  · next code => exact special rfl (by decide) rfl code
  split
  · next code => exact special rfl (by decide) rfl code
  split
  · next code => exact special rfl (by decide) rfl code
  split
  · next code => exact special rfl (by decide) rfl code
  split
  · next code => exact @special 'b' (Char.ofNat 8) rfl (by decide) rfl code
  split
  · next code => exact @special 'f' (Char.ofNat 12) rfl (by decide) rfl code
  next quote backslash lineFeed carriageReturn tab backspace formFeed =>
    have notQuote : c ≠ '"' := fun same => quote (by rw [same]; rfl)
    have notBackslash : c ≠ '\\' := fun same => backslash (by rw [same]; rfl)
    split
    · next visible =>
      have inside : scanned c = [.inr c] := by
        rw [scanned, visible, Bool.or_true]
        rfl
      rw [Bool.and_eq_true, decide_eq_true_eq] at visible
      rw [inside, Char.ofNat_toNat]
      exact .printed notQuote notBackslash visible.1
    · next invisible =>
      have apart : [8, 9, 10, 12, 13].contains c.toNat = false := by
        simp only [beq_iff_eq] at lineFeed carriageReturn tab backspace formFeed
        have lineFeed : c.toNat ≠ 10 := lineFeed
        have carriageReturn : c.toNat ≠ 13 := carriageReturn
        have tab : c.toNat ≠ 9 := tab
        simp [lineFeed, carriageReturn, tab, backspace, formFeed]
      rw [scanned, apart, Bool.false_or, if_neg invisible]
      exact .units

theorem scanText_escape (c : Char) (rest : List Char) : scanText (escape c.toNat ++ rest) =
      (scanText rest).map fun (units, after) => (scanned c ++ units, after) := by
  have how := escaping c
  generalize escape c.toNat = text, scanned c = units at how ⊢
  cases how with
  | marked known single => exact scanText_escaped known single rest
  | printed quote backslash visible => exact scanText_printed quote backslash visible rest
  | units => exact scanText_units c rest

theorem joinUnits_pair {high low : Nat} (leading : Text.isLeading high = true)
    (trailing : Text.isTrailing low = true) (units : List (Nat ⊕ Char)) :
    joinUnits (.inl high :: .inl low :: units) = Text.pairCode high low :: joinUnits units := by
  rw [joinUnits, leading, trailing]
  rfl

theorem joinUnits_single (single : Text.isLeading unit = false)
    (units : List (Nat ⊕ Char)) : joinUnits (.inl unit :: units) = unit :: joinUnits units := by
  rcases units with _ | ⟨low | other, units⟩
  · rfl
  · rw [joinUnits, single]
    rfl
  · rfl

/-- The two units of a large code point are halves that spell it. -/
theorem pair_of_large {code : Nat} (large : 0x10000 <= code) (bound : code < 0x110000) :
    Text.isLeading (0xD800 + (code - 0x10000) / 0x400) = true ∧
      Text.isTrailing (0xDC00 + (code - 0x10000) % 0x400) = true ∧
      Text.pairCode (0xD800 + (code - 0x10000) / 0x400) (0xDC00 + (code - 0x10000) % 0x400) =
        code := by
  have high : (code - 0x10000) / 0x400 < 0x400 := by omega
  have low : (code - 0x10000) % 0x400 < 0x400 := Nat.mod_lt _ (by decide)
  have split : (code - 0x10000) / 0x400 * 0x400 + (code - 0x10000) % 0x400 + 0x10000 = code := by
    rw [Nat.div_add_mod']
    exact Nat.sub_add_cancel large
  generalize (code - 0x10000) / 0x400 = upper at *
  generalize (code - 0x10000) % 0x400 = lower at *
  unfold Text.isLeading Text.isTrailing Text.pairCode
  refine ⟨?_, ?_, by omega⟩
  · rw [Bool.and_eq_true, decide_eq_true_eq, decide_eq_true_eq]
    exact ⟨Nat.le_add_right _ _, Nat.add_lt_add_left high _⟩
  · rw [Bool.and_eq_true, decide_eq_true_eq, decide_eq_true_eq]
    exact ⟨Nat.le_add_right _ _, Nat.add_lt_add_left low _⟩

theorem joinUnits_scanned (c : Char) (units : List (Nat ⊕ Char)) :
    joinUnits (scanned c ++ units) = c.toNat :: joinUnits units := by
  have code := code_cases c
  unfold scanned
  split
  · simp [joinUnits]
  · unfold Text.unitsOf
    split
    · next small =>
      have single : Text.isLeading c.toNat = false := by
        simp only [Text.isLeading, Bool.and_eq_false_iff, decide_eq_false_iff_not]
        omega
      exact joinUnits_single single units
    · next large =>
      rcases pair_of_large (Nat.le_of_not_lt large) (by omega) with ⟨leading, trailing, spelled⟩
      exact (joinUnits_pair leading trailing units).trans (by rw [spelled])

theorem scanText_quote (text rest : List Char) :
    ∃ units, scanText ((text.map Char.toNat).flatMap escape ++ '"' :: rest) = some (units, rest) ∧
      joinUnits units = text.map Char.toNat := by
  induction text with
  | nil => exact ⟨[], by simp [scanText], rfl⟩
  | cons c text ih =>
    rcases ih with ⟨units, scans, joined⟩
    refine ⟨scanned c ++ units, ?_, ?_⟩
    · rw [List.map_cons, List.flatMap_cons, List.append_assoc, scanText_escape, scans]
      rfl
    · rw [joinUnits_scanned, joined, List.map_cons]

/-! ## Tokens -/

def enclosed (opening closing : Token) : List (List Token) -> List Token
  | [] => [opening, closing]
  | first :: others => opening :: (first ++ (others.flatMap (.comma :: ·) ++ [closing]))

mutual

def tokens : Json -> List Token
  | .null => [.word "null".toList]
  | .bool true => [.word "true".toList]
  | .bool false => [.word "false".toList]
  | .int value => [.number value]
  | .fraction value => [.fraction value]
  | .string text => [.text (Text.codes text)]
  | .ragged codes => [.text codes]
  | .list items => enclosed .openBracket .closeBracket (itemTokens items)
  | .object fields => enclosed .openBrace .closeBrace (fieldTokens fields)

def itemTokens : List Json -> List (List Token)
  | [] => []
  | item :: rest => tokens item :: itemTokens rest

def fieldTokens : List (FieldName × Json) -> List (List Token)
  | [] => []
  | (name, value) :: rest =>
    (.text (Text.codes name.text) :: .colon :: tokens value) :: fieldTokens rest

end

theorem itemTokens_eq_map (items : List Json) : itemTokens items = items.map tokens := by
  induction items with
  | nil => rfl
  | cons item rest ih => rw [itemTokens, ih, List.map_cons]

theorem fieldTokens_eq_map (fields : List (FieldName × Json)) : fieldTokens fields =
      fields.map fun field => .text (Text.codes field.1.text) :: .colon :: tokens field.2 := by
  induction fields with
  | nil => rfl
  | cons field rest ih => rw [fieldTokens, ih, List.map_cons]

theorem itemDocuments_eq_map (depth : Nat) (items : List Json) :
    itemDocuments depth items = items.map (documentAt depth) := by
  induction items with
  | nil => rfl
  | cons item rest ih => rw [itemDocuments, ih, List.map_cons]

theorem fieldDocuments_eq_map (depth : Nat) (fields : List (FieldName × Json)) :
    fieldDocuments depth fields =
      fields.map fun field => quoteName field.1 ++ ": " ++ documentAt depth field.2 := by
  induction fields with
  | nil => rfl
  | cons field rest ih => rw [fieldDocuments, ih, List.map_cons]

theorem scan_gap (gap : isGap c = true) (rest : List Char) : scan (c :: rest) = scan rest := by
  rw [scan, if_pos gap]

theorem scan_punctuation {token : Token} (gap : isGap c = false)
    (known : punctuation? c = some token) (rest : List Char) :
    scan (c :: rest) = (scan rest).map (token :: ·) := by
  rw [scan, gap, known]
  rfl

theorem scan_lexeme {rest after : List Char} {token : Token} (gap : isGap c = false)
    (other : punctuation? c = none) (lexeme : lexeme? c rest = some (token, after)) :
    scan (c :: rest) = (scan after).map (token :: ·) := by
  rw [scan, gap, other]
  simp only [Bool.false_eq_true, if_false]
  split
  · next token' after' scanned =>
    rw [lexeme, Option.some.injEq, Prod.mk.injEq] at scanned
    rw [scanned.1, scanned.2]
  · next scanned => cases scanned.symm.trans lexeme

/-- Indentation holds no token. -/
theorem scan_newline (depth : Nat) (rest : List Char) :
    scan ((newline depth).toList ++ rest) = scan rest := by
  have spaces (count : Nat) : scan (List.replicate count ' ' ++ rest) = scan rest := by
    induction count with
    | zero => rfl
    | succ count ih => rw [List.replicate_succ, List.cons_append, scan_gap rfl, ih]
  have shape : (newline depth).toList = '\n' :: List.replicate (2 * depth) ' ' := by
    simp [newline]
  rw [shape, List.cons_append, scan_gap rfl, spaces]

theorem scan_quote (text : String) (rest : List Char) :
    scan ((quote text).toList ++ rest) = (scan rest).map (.text (Text.codes text) :: ·) := by
  rcases scanText_quote text.toList rest with ⟨units, scans, joined⟩
  have shape : (quote text).toList ++ rest =
      '"' :: ((text.toList.map Char.toNat).flatMap escape ++ '"' :: rest) := by
    simp [quote, quoteCodes, Text.codes]
  rw [shape]
  refine scan_lexeme rfl rfl ?_
  rw [lexeme?, if_pos (beq_self_eq_true _), scans]
  exact congrArg (fun codes => some (Token.text codes, rest)) joined

def Ends (rest : List Char) : Prop := forall c, rest.head? = some c -> c = ',' ∨ c = '\n'

theorem not_isAlpha_of_isDigit (digit : c.isDigit = true) : c.isAlpha = false := by
  delta Char.isAlpha Char.isUpper Char.isLower
  simp only [Char.isDigit, ge_iff_le, Bool.and_eq_true, decide_eq_true_eq, Bool.or_eq_false_iff,
    Bool.and_eq_false_iff, decide_eq_false_iff_not, UInt32.le_iff_toNat_le, Char.reduceVal,
    UInt32.reduceToNat] at digit ⊢
  omega

/-- Letters and digits start no token but words and numbers. -/
theorem starts_of_isAlphanum (alphanum : c.isAlphanum = true) :
    isGap c = false ∧ punctuation? c = none ∧ (c == '"') = false ∧ (c == '-') = false := by
  have apart {other : Char} (never : other.isAlphanum = false) : (c == other) = false := by
    rw [beq_eq_false_iff_ne]
    rintro rfl
    exact absurd alphanum (by rw [never]; decide)
  refine ⟨?_, ?_, apart rfl, apart rfl⟩
  · rw [isGap, apart rfl, apart rfl, apart rfl, apart rfl]
    rfl
  · unfold punctuation?
    split
    all_goals first | rfl | exact absurd alphanum (by decide)

theorem exists_toDigits_eq_cons (number : Nat) :
    ∃ c others, Nat.toDigits 10 number = c :: others ∧ c.isDigit = true := by
  cases digits : Nat.toDigits 10 number with
  | nil => exact absurd digits Nat.toDigits_ne_nil
  | cons c others =>
    exact ⟨c, others, rfl,
      Nat.isDigit_of_mem_toDigits (by decide) (by decide) (digits ▸ List.mem_cons_self)⟩

/-- Where a value ends, no point or exponent makes a whole number a fraction. -/
theorem scanNumber_toDigits (negative : Bool) (number : Nat) {rest : List Char} (ends : Ends rest) :
    scanNumber negative (Nat.toDigits 10 number ++ rest) =
      some (.number (if negative then -number else number), rest) := by
  have natural := @scanNatural_toDigits number rest fun c head => by
    rcases ends c head with rfl | rfl <;> rfl
  have whole : scanDecimals rest = ([], rest) ∧ scanExponent rest = (none, rest) := by
    cases rest with
    | nil => exact ⟨rfl, rfl⟩
    | cons c rest => rcases ends c rfl with rfl | rfl <;> exact ⟨rfl, rfl⟩
  simp only [scanNumber, natural, whole, Option.bind_eq_bind, Option.bind_some]
  rfl

theorem scan_natural (number : Nat) {rest : List Char} (ends : Ends rest) :
    scan (Nat.toDigits 10 number ++ rest) = (scan rest).map (.number number :: ·) := by
  have natural := scanNumber_toDigits false number ends
  rcases exists_toDigits_eq_cons number with ⟨c, others, digits, digit⟩
  rcases starts_of_isAlphanum (c := c) (by rw [Char.isAlphanum, digit, Bool.or_true]) with
    ⟨gap, other, quote, minus⟩
  rw [digits] at natural ⊢
  refine scan_lexeme gap other ?_
  rw [lexeme?, quote, minus, not_isAlpha_of_isDigit digit]
  exact natural

theorem toList_natural (number : Nat) :
    (toString (Int.ofNat number)).toList = Nat.toDigits 10 number := by
  rw [show toString (Int.ofNat number) = Nat.repr number from rfl, Nat.repr_eq_ofList_toDigits,
    String.toList_ofList]

theorem toList_negative (number : Nat) :
    (toString (Int.negSucc number)).toList = '-' :: Nat.toDigits 10 (number + 1) := by
  rw [show toString (Int.negSucc number) = "-" ++ Nat.repr (number + 1) from rfl,
    String.toList_append, Nat.repr_eq_ofList_toDigits]
  exact congrArg ('-' :: ·) String.toList_ofList

theorem scan_int (value : Int) {rest : List Char} (ends : Ends rest) :
    scan ((toString value).toList ++ rest) = (scan rest).map (.number value :: ·) := by
  cases value with
  | ofNat number =>
    rw [toList_natural]
    exact scan_natural number ends
  | negSucc number =>
    have finite : "Infinity".toList.isPrefixOf (Nat.toDigits 10 (number + 1) ++ rest) = false := by
      rcases exists_toDigits_eq_cons (number + 1) with ⟨c, others, digits, digit⟩
      have other : ('I' == c) = false := beq_eq_false_iff_ne.mpr fun same => by
        rw [<- same] at digit
        exact absurd digit (by decide)
      simp [digits, List.isPrefixOf, other]
    rw [toList_negative, List.cons_append]
    refine scan_lexeme rfl rfl ?_
    rw [lexeme?, if_neg (by decide), if_pos (beq_self_eq_true _), finite]
    exact scanNumber_toDigits true (number + 1) ends

theorem scan_word {name rest : List Char}
    (letters : forall d, d ∈ c :: name -> d.isAlpha = true) (ends : Ends rest) :
    scan (c :: name ++ rest) = (scan rest).map (.word (c :: name) :: ·) := by
  have letter : c.isAlpha = true := letters c List.mem_cons_self
  have others : forall d, d ∈ name -> d.isAlpha = true :=
    fun d member => letters d (List.mem_cons_of_mem c member)
  have stops : rest.takeWhile Char.isAlpha = [] ∧ rest.dropWhile Char.isAlpha = rest := by
    cases rest with
    | nil => exact ⟨rfl, rfl⟩
    | cons d rest => rcases ends d rfl with rfl | rfl <;> exact ⟨rfl, rfl⟩
  rcases starts_of_isAlphanum (c := c) (by rw [Char.isAlphanum, letter, Bool.true_or]) with
    ⟨gap, other, quote, minus⟩
  rw [List.cons_append]
  refine scan_lexeme gap other ?_
  rw [lexeme?, quote, minus, letter, List.takeWhile_append_of_pos others,
    List.dropWhile_append_of_pos others, stops.1, stops.2, List.append_nil]
  rfl

/-! ## Scanning -/

/-- A text is scanned as the given tokens wherever a value may end. -/
def Scans (text : String) (found : List Token) : Prop :=
  forall rest, Ends rest -> scan (text.toList ++ rest) = (scan rest).map (found ++ ·)

theorem scans_word (name : String) (nonempty : name.toList ≠ [])
    (letters : name.toList.all Char.isAlpha = true) : Scans name [.word name.toList] := by
  intro rest ends
  cases spelled : name.toList with
  | nil => exact absurd spelled nonempty
  | cons c others => exact scan_word (spelled ▸ List.all_eq_true.mp letters) ends

/-- The parts of a block after the first, with what leads to each. -/
def further (depth : Nat) (texts : List String) : List Char :=
  texts.flatMap fun text => ',' :: ((newline (depth + 1)).toList ++ text.toList)

theorem toList_block (opening closing : String) (depth : Nat) (first : String)
    (others : List String) :
    (block opening closing depth (first :: others)).toList =
      opening.toList ++ ((newline (depth + 1)).toList ++ (first.toList ++
        (further depth others ++ ((newline depth).toList ++ closing.toList)))) := by
  have joined (first : String) : (String.intercalate ("," ++ newline (depth + 1))
      (first :: others)).toList = first.toList ++ further depth others := by
    induction others generalizing first with
    | nil => simp [further]
    | cons next others ih =>
      rw [String.intercalate_cons_cons, String.toList_append, String.toList_append, ih]
      simp [further]
  rw [block, List.isEmpty_cons, if_neg Bool.false_ne_true]
  simp only [String.toList_append, joined, List.append_assoc]

theorem ends_further (depth : Nat) (texts : List String) (rest : List Char) :
    Ends (further depth texts ++ ((newline depth).toList ++ rest)) := by
  intro c head
  cases texts with
  | nil =>
    right
    simpa [further, newline, eq_comm] using head
  | cons text texts =>
    left
    simpa [further, eq_comm] using head

/-- The parts of a block are scanned one after the other. -/
theorem scan_further (each : List.Forall₂ Scans texts parts) (depth : Nat) (rest : List Char) :
    scan (further depth texts ++ ((newline depth).toList ++ rest)) =
      (scan rest).map (parts.flatMap (.comma :: ·) ++ ·) := by
  induction each with
  | nil => simp [further, scan_newline]
  | @cons text part texts parts first others ih =>
    have shape : further depth (text :: texts) = ',' :: ((newline (depth + 1)).toList ++
        (text.toList ++ further depth texts)) := by
      simp [further]
    rw [shape, List.cons_append, scan_punctuation rfl rfl, List.append_assoc, scan_newline,
      List.append_assoc, first _ (ends_further depth texts rest), ih]
    simp [Option.map_map, Function.comp_def]

theorem scans_block (opening closing : Char) {before after : Token} (gaps : isGap opening = false ∧
    isGap closing = false) (opens : punctuation? opening = some before)
    (closes : punctuation? closing = some after)
    (each : List.Forall₂ Scans texts parts) (depth : Nat) :
    Scans (block (String.singleton opening) (String.singleton closing) depth texts)
      (enclosed before after parts) := by
  intro rest ends
  cases each with
  | nil =>
    have shape : (block (String.singleton opening) (String.singleton closing) depth []).toList =
        [opening, closing] := by
      simp [block]
    rw [shape, List.cons_append, List.cons_append, List.nil_append,
      scan_punctuation gaps.1 opens, scan_punctuation gaps.2 closes]
    simp [enclosed, Option.map_map, Function.comp_def]
  | @cons text part texts parts first others =>
    rw [toList_block]
    simp only [String.toList_singleton, List.append_assoc, List.cons_append, List.nil_append]
    rw [scan_punctuation gaps.1 opens, scan_newline, first _ (ends_further depth texts _),
      scan_further others, scan_punctuation gaps.2 closes]
    simp [enclosed, Option.map_map, Function.comp_def]

theorem scans_field (name : String) {text : String} (value : Scans text found) :
    Scans (quote name ++ ": " ++ text) (.text (Text.codes name) :: .colon :: found) := by
  intro rest ends
  have shape : (quote name ++ ": " ++ text).toList ++ rest =
      (quote name).toList ++ ':' :: ' ' :: (text.toList ++ rest) := by
    simp
  rw [shape, scan_quote, scan_punctuation rfl rfl, scan_gap rfl, value rest ends]
  simp [Option.map_map, Function.comp_def]

theorem scans_documentAt (plain : Plain json) (depth : Nat) :
    Scans (documentAt depth json) json.tokens := by
  induction plain generalizing depth with
  | null => exact scans_word "null" (by decide) (by decide)
  | bool value =>
    cases value with
    | true => exact scans_word "true" (by decide) (by decide)
    | false => exact scans_word "false" (by decide) (by decide)
  | int value => exact fun rest ends => scan_int value ends
  | string text => exact fun rest _ => scan_quote text rest
  | @list items _ ih =>
    rw [documentAt, tokens, itemDocuments_eq_map, itemTokens_eq_map]
    refine scans_block '[' ']' ⟨rfl, rfl⟩ rfl rfl ?_ depth
    rw [List.forall₂_map_left_iff, List.forall₂_map_right_iff, List.forall₂_same]
    exact fun item member => ih item member (depth + 1)
  | @object fields _ named _ ih =>
    rw [documentAt, tokens, fieldDocuments_eq_map, fieldTokens_eq_map]
    refine scans_block '\x7b' '\x7d' ⟨rfl, rfl⟩ rfl rfl ?_ depth
    rw [List.forall₂_map_left_iff, List.forall₂_map_right_iff, List.forall₂_same]
    intro field member
    rcases named field member with ⟨name, same⟩
    rw [same]
    exact scans_field name (ih field member (depth + 1))

/-! ## Reading -/

def taken {α : Type} {tokens : List Token} (front : Option (Front α tokens)) :
    Option (α × List Token) :=
  front.map fun front => (front.value, front.rest)

theorem exists_of_taken {α : Type} {tokens : List Token} {front : Option (Front α tokens)}
    {value : α} (reads : taken front = some (value, rest)) :
    ∃ found, front = some found ∧ found.value = value ∧ found.rest = rest := by
  rcases Option.map_eq_some_iff.mp reads with ⟨found, same, pair⟩
  exact ⟨found, same, congrArg Prod.fst pair, congrArg Prod.snd pair⟩

def Reads (found : List Token) (value : Json) : Prop :=
  forall rest, taken (readValue (found ++ rest)) = some (value, rest)

theorem taken_readItems (start : List Token) : taken (readItems start) =
    (taken (readValue start)).bind fun
      | (value, .comma :: others) =>
        (taken (readItems others)).map fun (values, rest) => (value :: values, rest)
      | (value, .closeBracket :: rest) => some ([value], rest)
      | _ => none := by
  rw [readItems]
  rcases readValue start with _ | ⟨value, _ | ⟨token, rest⟩, shorter⟩
  · rfl
  · rfl
  · cases token with
    | comma =>
      simp only [Option.bind_eq_bind, Option.bind_some, taken, Option.map_some]
      cases readItems rest <;> rfl
    | _ => rfl

theorem taken_readFields (name : List Nat) (start : List Token) :
    taken (readFields known (.text name :: .colon :: start)) =
      (taken (readValue start)).bind fun
        | (value, .comma :: others) => taken (readFields (put (.ofCodes name) value known) others)
        | (value, .closeBrace :: rest) => some (put (.ofCodes name) value known, rest)
        | _ => none := by
  rw [readFields]
  rcases readValue start with _ | ⟨value, _ | ⟨token, rest⟩, shorter⟩
  · rfl
  · rfl
  · cases token with
    | comma =>
      simp only [Option.bind_eq_bind, Option.bind_some, taken, Option.map_some]
      cases readFields (put (.ofCodes name) value known) rest <;> rfl
    | _ => rfl

theorem readItems_parts (first : Reads found value) (each : List.Forall₂ Reads parts values)
    (rest : List Token) :
    taken (readItems (found ++ (parts.flatMap (.comma :: ·) ++ .closeBracket :: rest))) =
      some (value :: values, rest) := by
  induction each generalizing found value with
  | nil =>
    rw [taken_readItems, first]
    rfl
  | cons next others ih =>
    rw [taken_readItems, first, List.flatMap_cons, List.cons_append, List.cons_append,
      List.append_assoc]
    simp only [Option.bind_some, ih next, Option.map_some]

def ReadsField (found : List Token) (field : FieldName × Json) : Prop :=
  ∃ name value, field.1 = .ofCodes name ∧ found = .text name :: .colon :: value ∧
    Reads value field.2

theorem put_new {name : FieldName} (value : Json)
    (new : name ∉ fields.map Prod.fst) : put name value fields = fields ++ [(name, value)] := by
  induction fields with
  | nil => rfl
  | cons field fields ih =>
    rw [List.map_cons, List.mem_cons, not_or] at new
    rw [put, if_neg (by simpa using Ne.symm new.1), ih new.2, List.cons_append]

theorem readFields_parts {field : FieldName × Json} (first : ReadsField found field)
    (each : List.Forall₂ ReadsField parts fields)
    (distinct : ((known ++ field :: fields).map Prod.fst).Nodup) (rest : List Token) :
    taken (readFields known (found ++ (parts.flatMap (.comma :: ·) ++ .closeBrace :: rest))) =
      some (known ++ field :: fields, rest) := by
  have added {name : List Nat} {known : List (FieldName × Json)} {field : FieldName × Json}
      {fields : List (FieldName × Json)} (named : field.1 = .ofCodes name)
      (distinct : ((known ++ field :: fields).map Prod.fst).Nodup) :
      put (.ofCodes name) field.2 known = known ++ [field] := by
    rw [List.map_append, List.map_cons, List.nodup_append] at distinct
    rw [<- named, put_new]
    exact fun member => distinct.2.2 _ member _ List.mem_cons_self rfl
  -- The fields that were read so far are known.  Each new one goes behind them.
  induction each generalizing known found field with
  | nil =>
    rcases first with ⟨name, value, named, rfl, reads⟩
    rw [<- added named distinct, List.cons_append, List.cons_append, taken_readFields, reads]
    rfl
  | @cons part next parts fields start others ih =>
    rcases first with ⟨name, value, named, rfl, reads⟩
    rw [List.cons_append, List.cons_append, taken_readFields, reads, List.flatMap_cons,
      List.cons_append, List.cons_append, List.append_assoc]
    simp only [Option.bind_some, added named distinct,
      List.append_cons known field (next :: fields)]
    exact ih start (List.append_cons known field _ ▸ distinct)

theorem any_isHalf_codes (text : String) : (Text.codes text).any Text.isHalf = false := by
  rw [List.any_eq_false]
  intro code member
  rcases List.mem_map.mp member with ⟨c, _, rfl⟩
  have code := code_cases c
  simp only [Text.isHalf, Text.isLeading, Text.isTrailing, Bool.or_eq_true, Bool.and_eq_true,
    decide_eq_true_eq]
  omega

theorem ofCodes_codes (text : String) : Text.ofCodes (Text.codes text) = text := by
  have whole := List.any_eq_false.mp (any_isHalf_codes text)
  have each : forall c, c ∈ text.toList ->
      (if Text.isHalf c.toNat then '\uFFFD' else Char.ofNat c.toNat) = c := by
    intro c member
    rw [if_neg (whole c.toNat (List.mem_map_of_mem member)), Char.ofNat_toNat]
  rw [Text.ofCodes, Text.codes, List.map_map]
  exact (congrArg String.ofList ((List.map_congr_left each).trans (List.map_id' _))).trans
    String.ofList_toList

theorem name_ofCodes_codes (name : String) : FieldName.ofCodes (Text.codes name) = .plain name := by
  rw [FieldName.ofCodes, any_isHalf_codes, if_neg Bool.false_ne_true, ofCodes_codes]

theorem text_ofCodes_codes (text : String) : Json.ofCodes (Text.codes text) = .string text := by
  rw [Json.ofCodes, any_isHalf_codes, if_neg Bool.false_ne_true, ofCodes_codes]

theorem readValue_list (items : taken (readItems start) = some (values, rest)) :
    taken (readValue (.openBracket :: start)) = some (.list values, rest) := by
  rcases exists_of_taken items with ⟨front, same, rfl, rfl⟩
  rw [readValue]
  · rw [same]
    rfl
  · -- A bracket that closes at once is no start of an item.
    rintro others rfl
    have nothing : readValue (.closeBracket :: others) = none := by
      rw [readValue]
      all_goals simp
    rw [readItems, nothing] at same
    cases same

theorem readValue_object (found : taken (readFields [] start) = some (fields, rest)) :
    taken (readValue (.openBrace :: start)) = some (.object fields, rest) := by
  rcases exists_of_taken found with ⟨front, same, rfl, rfl⟩
  rw [readValue]
  · rw [same]
    rfl
  · rintro others rfl
    rw [readFields] at same
    · cases same
    · simp

theorem reads_list (each : List.Forall₂ Reads parts values) :
    Reads (enclosed .openBracket .closeBracket parts) (.list values) := by
  intro rest
  cases each with
  | nil =>
    rw [enclosed, List.cons_append, List.cons_append, readValue]
    rfl
  | cons first others =>
    rw [enclosed, List.cons_append, List.append_assoc, List.append_assoc]
    exact readValue_list (readItems_parts first others rest)

theorem reads_object
    (each : List.Forall₂ ReadsField parts fields) (distinct : (fields.map Prod.fst).Nodup) :
    Reads (enclosed .openBrace .closeBrace parts) (.object fields) := by
  intro rest
  cases each with
  | nil =>
    rw [enclosed, List.cons_append, List.cons_append, readValue]
    rfl
  | cons first others =>
    rw [enclosed, List.cons_append, List.append_assoc, List.append_assoc]
    exact readValue_object (readFields_parts first others distinct rest)

theorem reads_tokens (plain : Plain json) : Reads json.tokens json := by
  induction plain with
  | null =>
    intro rest
    rw [tokens, List.cons_append, readValue]
    rfl
  | bool value =>
    intro rest
    cases value with
    | true | false =>
      rw [tokens, List.cons_append, readValue]
      rfl
  | int value =>
    intro rest
    rw [tokens, List.cons_append, readValue]
    rfl
  | string text =>
    intro rest
    rw [tokens, List.cons_append, readValue, text_ofCodes_codes]
    rfl
  | @list items _ ih =>
    rw [tokens, itemTokens_eq_map]
    refine reads_list ?_
    rw [List.forall₂_map_left_iff, List.forall₂_same]
    exact ih
  | @object fields distinct named _ ih =>
    rw [tokens, fieldTokens_eq_map]
    refine reads_object ?_ distinct
    rw [List.forall₂_map_left_iff, List.forall₂_same]
    intro field member
    rcases named field member with ⟨name, same⟩
    refine ⟨Text.codes name, _, ?_, ?_, ih field member⟩
    · rw [same, name_ofCodes_codes]
    · rw [same]
      rfl

theorem parse?_document (plain : Plain json) : parse? json.document = some json := by
  have scans := scans_documentAt plain 0 [] nofun
  have reads := reads_tokens plain []
  rw [List.append_nil] at scans reads
  rcases exists_of_taken reads with ⟨front, same, value, nothing⟩
  rw [parse?, document, scans, scan]
  simp only [Option.map_some, List.append_nil, Option.bind_eq_bind, Option.bind_some, same, nothing,
    value]
  rfl

/-! ## Line breaks -/

theorem digitChar_ne : forall digit, digit < 16 -> Nat.digitChar digit ≠ '\r' := by
  decide

theorem clean_unitEscape (small : unit < 0x10000) : '\r' ∉ unitEscape unit := by
  have digit (place : Nat) : Nat.digitChar (place % 16) ≠ '\r' :=
    digitChar_ne _ (Nat.mod_lt _ (by decide))
  have first : Nat.digitChar (unit / 4096) ≠ '\r' := digitChar_ne _ (by omega)
  rw [unitEscape, hexDigits_four small]
  simp [first.symm, (digit _).symm]

/-- A carriage return inside a text is escaped. -/
theorem clean_escape (c : Char) : '\r' ∉ escape c.toNat := by
  have bound := code_cases c
  have how := escaping c
  generalize escape c.toNat = text, scanned c = units at how ⊢
  cases how with
  | marked known _ =>
    intro member
    rcases List.mem_pair.mp member with impossible | rfl
    · cases impossible
    · cases known
  | printed _ _ visible =>
    rw [List.mem_singleton]
    rintro rfl
    exact absurd visible (by decide)
  | units =>
    unfold Text.unitsOf
    split
    · next small => simpa using clean_unitEscape small
    · rw [List.flatMap_cons, List.flatMap_cons, List.flatMap_nil, List.append_nil,
        List.mem_append, not_or]
      exact ⟨clean_unitEscape (by omega), clean_unitEscape (by omega)⟩

theorem clean_quote (text : String) : '\r' ∉ (quote text).toList := by
  have inside : '\r' ∉ (Text.codes text).flatMap escape := by
    rw [List.mem_flatMap]
    rintro ⟨code, member, broken⟩
    rcases List.mem_map.mp member with ⟨c, _, rfl⟩
    exact clean_escape c broken
  simpa [quote, quoteCodes] using inside

theorem clean_int (value : Int) : '\r' ∉ (toString value).toList := by
  have digits (number : Nat) : '\r' ∉ Nat.toDigits 10 number := by
    intro member
    exact absurd (Nat.isDigit_of_mem_toDigits (by decide) (by decide) member) (by decide)
  cases value with
  | ofNat number => exact toList_natural number ▸ digits number
  | negSucc number =>
    rw [toList_negative]
    exact List.not_mem_cons_of_ne_of_not_mem (by decide) (digits (number + 1))

theorem clean_newline (depth : Nat) : '\r' ∉ (newline depth).toList := by
  simp [newline]

theorem clean_block {opening closing : String} (opens : '\r' ∉ opening.toList)
    (closes : '\r' ∉ closing.toList)
    (each : forall text, text ∈ texts -> '\r' ∉ text.toList) (depth : Nat) :
    '\r' ∉ (block opening closing depth texts).toList := by
  cases texts with
  | nil => simpa [block] using ⟨opens, closes⟩
  | cons first others =>
    have tail : '\r' ∉ further depth others := by
      simpa [further, clean_newline] using
        fun text member => each text (List.mem_cons_of_mem first member)
    rw [toList_block]
    simp [opens, closes, tail, clean_newline, each first List.mem_cons_self]

theorem clean_documentAt (plain : Plain json) (depth : Nat) :
    '\r' ∉ (documentAt depth json).toList := by
  induction plain generalizing depth with
  | null => exact show '\r' ∉ "null".toList by decide
  | bool value =>
    cases value with
    | true => exact show '\r' ∉ "true".toList by decide
    | false => exact show '\r' ∉ "false".toList by decide
  | int value => exact clean_int value
  | string text => exact clean_quote text
  | @list items _ ih =>
    rw [documentAt, itemDocuments_eq_map]
    refine clean_block (by decide) (by decide) ?_ depth
    intro text listed
    rcases List.mem_map.mp listed with ⟨item, member, rfl⟩
    exact ih item member (depth + 1)
  | @object fields _ named _ ih =>
    rw [documentAt, fieldDocuments_eq_map]
    refine clean_block (by decide) (by decide) ?_ depth
    intro text listed
    rcases List.mem_map.mp listed with ⟨field, member, rfl⟩
    rcases named field member with ⟨name, same⟩
    rw [same, quoteName]
    simp [clean_quote, ih field member (depth + 1)]

end Json
end WeakKleene
