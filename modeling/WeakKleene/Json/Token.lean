import WeakKleene.Json.Fraction
import WeakKleene.Text.Units

namespace WeakKleene
namespace Json

/-!
The tokens of a JSON document.
-/

inductive Token where
  | openBracket
  | closeBracket
  | openBrace
  | closeBrace
  | comma
  | colon
  | word (name : List Char)
  | number (value : Int)
  | fraction (value : Float)
  | text (codes : List Nat)
deriving DecidableEq, Repr

def hexValue? (c : Char) : Option Nat :=
  if '0' <= c && c <= '9' then some (c.toNat - '0'.toNat)
  else if 'a' <= c && c <= 'f' then some (c.toNat - 'a'.toNat + 10)
  else if 'A' <= c && c <= 'F' then some (c.toNat - 'A'.toNat + 10)
  else none

/-- The value of exactly four hexadecimal digits. -/
def unitValue? (a b c d : Char) : Option Nat := do
  return (((<- hexValue? a) * 16 + (<- hexValue? b)) * 16 + (<- hexValue? c)) * 16 +
    (<- hexValue? d)

def escaped? : Char -> Option Char
  | '"' => some '"'
  | '\\' => some '\\'
  | '/' => some '/'
  | 'b' => some (Char.ofNat 8)
  | 'f' => some (Char.ofNat 12)
  | 'n' => some '\n'
  | 'r' => some '\r'
  | 't' => some '\t'
  | _ => none

/-- Units of UTF-16 and characters as they occur in a text, joined to code points. -/
def joinUnits : List (Nat ⊕ Char) -> List Nat
  | .inl high :: .inl low :: rest =>
    if Text.isLeading high && Text.isTrailing low then
      Text.pairCode high low :: joinUnits rest
    else high :: joinUnits (.inl low :: rest)
  | .inl unit :: rest => unit :: joinUnits rest
  | .inr c :: rest => c.toNat :: joinUnits rest
  | [] => []

/-- The units of a text up to the closing quote, and what follows it.  Control characters have to
be escaped. -/
def scanText : List Char -> Option (List (Nat ⊕ Char) × List Char)
  | [] => none
  | '"' :: rest => some ([], rest)
  | '\\' :: 'u' :: a :: b :: c :: d :: rest => do
      let unit <- unitValue? a b c d
      let (units, after) <- scanText rest
      return (.inl unit :: units, after)
  | '\\' :: c :: rest => do
      let found <- escaped? c
      let (units, after) <- scanText rest
      return (.inr found :: units, after)
  | c :: rest =>
    if c == '\\' || c.toNat < 32 then none
    else (scanText rest).map fun (units, after) => (.inr c :: units, after)

/-- What follows a text is shorter than the text and what follows it. -/
theorem scanText_shorter (content : List Char) (units : List (Nat ⊕ Char)) (after : List Char)
    (scanned : scanText content = some (units, after)) : after.length < content.length := by
  fun_induction scanText content generalizing units after with
  | case1 => simp at scanned
  | case2 rest => simp_all
  | case3 a b c d rest ih =>
    cases unit : unitValue? a b c d <;> simp [unit] at scanned
    cases tail : scanText rest <;> simp [tail] at scanned
    have := ih _ _ tail
    simp_all
    omega
  | case4 c rest _ ih =>
    cases found : escaped? c <;> simp [found] at scanned
    cases tail : scanText rest <;> simp [tail] at scanned
    have := ih _ _ tail
    simp_all
    omega
  | case5 => simp at scanned
  | case6 c rest _ _ _ _ ih =>
    simp only [Option.map_eq_some_iff, Prod.exists] at scanned
    obtain ⟨_, _, tail, same⟩ := scanned
    have := ih _ _ tail
    simp_all
    omega

/-- The number that digits give behind those of another one. -/
def decimalValue (front : Nat) (digits : List Char) : Nat :=
  digits.foldl (fun value c => 10 * value + (c.toNat - '0'.toNat)) front

/-- A whole number without superfluous zeros at the front of a text, and what follows it. -/
def scanNatural : List Char -> Option (Nat × List Char)
  | '0' :: rest => some (0, rest)
  | text =>
    let digits := text.takeWhile Char.isDigit
    if digits.isEmpty then none else some (decimalValue 0 digits, text.dropWhile Char.isDigit)

/-- What follows a whole number is shorter than the number and what follows it. -/
theorem scanNatural_shorter (text : List Char) (value : Nat) (after : List Char)
    (scanned : scanNatural text = some (value, after)) : after.length < text.length := by
  unfold scanNatural at scanned
  split at scanned
  · simp_all
  · cases text with
    | nil => simp at scanned
    | cons c rest =>
      have := (List.dropWhile_suffix Char.isDigit (l := rest)).length_le
      by_cases digit : c.isDigit
      · simp only [List.takeWhile_cons, List.dropWhile_cons, digit, if_true, List.isEmpty_cons,
          Bool.false_eq_true, if_false, Option.some.injEq, Prod.mk.injEq] at scanned
        rw [<- scanned.2, List.length_cons]
        omega
      · simp [digit] at scanned

/-- The digits behind a point at the front of a text, and what follows them.  A point without
digits is left where it stands. -/
def scanDecimals (text : List Char) : List Char × List Char :=
  match text with
  | '.' :: rest =>
    let digits := rest.takeWhile Char.isDigit
    if digits.isEmpty then ([], text) else (digits, rest.dropWhile Char.isDigit)
  | _ => ([], text)

def scanSign : List Char -> Bool × List Char
  | '-' :: rest => (true, rest)
  | '+' :: rest => (false, rest)
  | text => (false, text)

/-- The exponent at the front of a text, and what follows it.  One without digits is left where it
stands. -/
def scanExponent : List Char -> Option Int × List Char
  | [] => (none, [])
  | c :: rest =>
    let (negative, unsigned) := scanSign rest
    let digits := unsigned.takeWhile Char.isDigit
    if (c == 'e' || c == 'E') && !digits.isEmpty then
      let size : Int := decimalValue 0 digits
      (some (if negative then -size else size), unsigned.dropWhile Char.isDigit)
    else (none, c :: rest)

/-- A number at the front of a text, behind its sign, and what follows it. -/
def scanNumber (negative : Bool) (text : List Char) : Option (Token × List Char) := do
  let (whole, behind) <- scanNatural text
  let (decimals, behind) := scanDecimals behind
  let (exponent, after) := scanExponent behind
  if decimals.isEmpty && exponent.isNone then
    return (.number (if negative then -whole else whole), after)
  else
    let size := Fraction.ofDecimal (decimalValue whole decimals)
      (exponent.getD 0 - decimals.length)
    return (.fraction (if negative then -size else size), after)

theorem scanDecimals_shorter (text : List Char) :
    (scanDecimals text).2.length <= text.length := by
  fun_cases scanDecimals text with
  | case1 | case3 => exact Nat.le_refl _
  | case2 rest => exact Nat.le_succ_of_le (List.dropWhile_suffix Char.isDigit).length_le

theorem scanExponent_shorter (text : List Char) :
    (scanExponent text).2.length <= text.length := by
  have unsigned (text : List Char) : (scanSign text).2.length <= text.length := by
    unfold scanSign
    split <;> simp
  fun_cases scanExponent text with
  | case1 | case3 => exact Nat.le_refl _
  | case2 c rest negative behind signed =>
    have := unsigned rest
    have := (List.dropWhile_suffix Char.isDigit (l := behind)).length_le
    simp_all
    omega

/-- What follows a number is shorter than the number and what follows it. -/
theorem scanNumber_shorter (negative : Bool) (text : List Char) (token : Token) (after : List Char)
    (scanned : scanNumber negative text = some (token, after)) : after.length < text.length := by
  unfold scanNumber at scanned
  cases found : scanNatural text with
  | none => simp [found] at scanned
  | some parts =>
    have shorter := scanNatural_shorter text _ _ found
    have decimals := scanDecimals_shorter parts.2
    have exponent := scanExponent_shorter (scanDecimals parts.2).2
    have same : (scanExponent (scanDecimals parts.2).2).2 = after := by
      simp only [found, Option.bind_eq_bind, Option.bind_some] at scanned
      split at scanned <;> exact (Prod.mk.inj (Option.some.inj scanned)).2
    rw [<- same]
    omega

/-- The punctuation that a character is. -/
def punctuation? : Char -> Option Token
  | '[' => some .openBracket
  | ']' => some .closeBracket
  | '\x7b' => some .openBrace
  | '\x7d' => some .closeBrace
  | ',' => some .comma
  | ':' => some .colon
  | _ => none

/-- Whether a character may stand between tokens. -/
def isGap (c : Char) : Bool := c == ' ' || c == '\t' || c == '\n' || c == '\r'

/-- A text, number or word that starts with the given character, and what follows it. -/
def lexeme? (c : Char) (rest : List Char) : Option (Token × List Char) :=
  if c == '"' then (scanText rest).map fun (units, after) => (.text (joinUnits units), after)
  else if c == '-' then
    if "Infinity".toList.isPrefixOf rest then some (.fraction (-Fraction.infinite), rest.drop 8)
    else scanNumber true rest
  else if c.isAlpha then
    some (.word (c :: rest.takeWhile Char.isAlpha), rest.dropWhile Char.isAlpha)
  else scanNumber false (c :: rest)

/-- What follows a lexeme is no longer than what follows its first character. -/
theorem lexeme?_shorter (c : Char) (rest : List Char) (token : Token) (after : List Char)
    (scanned : lexeme? c rest = some (token, after)) : after.length <= rest.length := by
  unfold lexeme? at scanned
  split at scanned
  · simp only [Option.map_eq_some_iff, Prod.exists, Prod.mk.injEq] at scanned
    obtain ⟨units, _, tail, _, rfl⟩ := scanned
    exact Nat.le_of_lt (scanText_shorter rest units _ tail)
  · split at scanned
    · split at scanned
      · rw [<- (Prod.mk.inj (Option.some.inj scanned)).2, List.length_drop]
        exact Nat.sub_le _ _
      · exact Nat.le_of_lt (scanNumber_shorter true rest token after scanned)
    · split at scanned
      · simp only [Option.some.injEq, Prod.mk.injEq] at scanned
        exact scanned.2 ▸ (List.dropWhile_suffix Char.isAlpha).length_le
      · exact Nat.le_of_lt_succ (scanNumber_shorter false (c :: rest) token after scanned)

def scan : List Char -> Option (List Token)
  | [] => some []
  | c :: rest =>
    if isGap c then scan rest
    else
      match punctuation? c with
      | some token => (scan rest).map (token :: ·)
      | none =>
        match _scanned : lexeme? c rest with
        | some (token, after) => (scan after).map (token :: ·)
        | none => none
termination_by text => text.length
decreasing_by
  · simp
  · simp
  · have := lexeme?_shorter c rest token after _scanned
    simp
    omega

end Json
end WeakKleene
