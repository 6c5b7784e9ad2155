import WeakKleene.Fault
import WeakKleene.Text.Blank
import WeakKleene.Text.Word

namespace WeakKleene
namespace Grammar

/-!
Tokens of written formulas, and how a text falls into them.

There are two ways of writing.  Plain text has names, applied names and
brackets; starred text has starred names instead of single brackets.  Both have
the same connectives, each with an ASCII and a mathematical spelling, and the
same quantifiers, whose restriction is kept as text and read when its turn
comes.
-/

/-- Connectives and brackets. -/
inductive Mark where
  | implies
  | and
  | or
  | not
  | openParen
  | closeParen
  | openBracket
  | closeBracket
deriving DecidableEq, Repr

/-- A token.  The flag of a mark tells its mathematical spelling from its ASCII one. -/
inductive Token where
  | mark (mark : Mark) (mathematical : Bool)
  | word (name : List Char)
  | applied (name args : List Char)
  | starred (name : List Char) (args : Option (List Char))
  | quantifier (quantifier : Quantifier) (var restriction source : List Char)
deriving DecidableEq, Repr

namespace Token

def spelling : Mark -> Bool -> List Char
  | .implies, mathematical => if mathematical then ['→'] else ['-', '>']
  | .and, mathematical => if mathematical then ['∧'] else ['&']
  | .or, mathematical => if mathematical then ['∨'] else ['|']
  | .not, mathematical => if mathematical then ['¬'] else ['~']
  | .openParen, _ => ['(']
  | .closeParen, _ => [')']
  | .openBracket, _ => ['[']
  | .closeBracket, _ => [']']

def source : Token -> List Char
  | mark which mathematical => spelling which mathematical
  | word name => name
  | applied name args => name ++ '(' :: (args ++ [')'])
  | starred name none => name ++ ['*']
  | starred name (some args) => name ++ '*' :: '(' :: (args ++ [')'])
  | quantifier _ _ _ source => source

def text (token : Token) : String := String.ofList token.source

end Token

/-- Whether names may carry a star, in which case single brackets are no tokens. -/
inductive Style where
  | plain
  | starred
deriving DecidableEq, Repr

/-- What follows an opening parenthesis up to the first closing one, if there is one. -/
def enclosed? (text : List Char) : Option (List Char) :=
  let (inside, rest) := text.span (· != ')')
  match rest with
  | [] => none
  | _ => some inside

/-- A quantifier's variable, restriction, and the length of both together with the closing
bracket.  At least one blank follows the variable, and something stands between that blank and
the bracket. -/
def binder? (text : List Char) : Option (List Char × List Char × Nat) :=
  let (var, rest) := Text.spanWord text
  match var, rest with
  | _ :: _, blank :: rest =>
    let (body, closing) := rest.span (· != ']')
    match Text.isBlank blank, body, closing with
    | true, _ :: _, _ :: _ => some (var, Text.dropBlanks body, var.length + body.length + 2)
    | _, _, _ => none
  | _, _ => none

/-- The quantifier after an opening bracket, by its sign or by its word and a blank. -/
def quantifierSign? : List Char -> Option (Quantifier × Nat × List Char)
  | '∀' :: rest => some (.all, 1, rest)
  | '∃' :: rest => some (.exist, 1, rest)
  | 'f' :: 'o' :: 'r' :: 'a' :: 'l' :: 'l' :: blank :: rest => spelledOut .all blank rest
  | 'e' :: 'x' :: 'i' :: 's' :: 't' :: 's' :: blank :: rest => spelledOut .exist blank rest
  | _ => none
where
  /-- A quantifier written as a word of six letters, with the blanks after it. -/
  spelledOut (quantifier : Quantifier) (blank : Char) (rest : List Char) :
      Option (Quantifier × Nat × List Char) :=
    if Text.isBlank blank then
      let (blanks, rest) := rest.span Text.isBlank
      some (quantifier, 7 + blanks.length, rest)
    else none

/-- A whole quantifier after an opening bracket, and the length of both. -/
def quantifierToken? (text : List Char) : Option (Token × Nat) := do
  let (quantifier, signLength, rest) <- quantifierSign? text
  let (var, restriction, binderLength) <- binder? rest
  let length := signLength + binderLength
  return (.quantifier quantifier var restriction ('[' :: text.take length), length + 1)

def nameToken (style : Style) (text : List Char) : Token × Nat :=
  let (name, rest) := Text.spanWord text
  match style, rest with
  | .starred, '*' :: '(' :: rest =>
    match enclosed? rest with
    | some args => (.starred name (some args), name.length + args.length + 3)
    | none => (.starred name none, name.length + 1)
  | .starred, '*' :: _ => (.starred name none, name.length + 1)
  | _, '(' :: rest =>
    match enclosed? rest with
    | some args => (.applied name args, name.length + args.length + 2)
    | none => (.word name, name.length)
  | _, _ => (.word name, name.length)

/-- The token at the front of a text, if it is more than a blank, and its length.  There is
none when the first character starts no token. -/
def lexeme? (style : Style) : List Char -> Option (Option Token × Nat)
  | [] => none
  | '-' :: '>' :: _ => some (some (.mark .implies false), 2)
  | '→' :: _ => some (some (.mark .implies true), 1)
  | '&' :: _ => some (some (.mark .and false), 1)
  | '∧' :: _ => some (some (.mark .and true), 1)
  | '|' :: _ => some (some (.mark .or false), 1)
  | '∨' :: _ => some (some (.mark .or true), 1)
  | '~' :: _ => some (some (.mark .not false), 1)
  | '¬' :: _ => some (some (.mark .not true), 1)
  | '(' :: _ => some (some (.mark .openParen false), 1)
  | ')' :: _ => some (some (.mark .closeParen false), 1)
  | '[' :: rest =>
    match quantifierToken? rest, style with
    | some (token, length), _ => some (some token, length)
    | none, .plain => some (some (.mark .openBracket false), 1)
    | none, .starred => none
  | ']' :: _ =>
    match style with
    | .plain => some (some (.mark .closeBracket false), 1)
    | .starred => none
  | c :: rest =>
    if Text.isWordChar c then
      let (token, length) := nameToken style (c :: rest)
      some (some token, length)
    else if Text.isBlank c then some (none, 1)
    else none

/-- The tokens of a text that starts at the given position, after skipping so many characters
that belong to the token before. -/
def scanFrom (style : Style) (position : Nat) :
    (skip : Nat) -> List Char -> Except ParseError (List Token)
  | _, [] => .ok []
  | skip + 1, _ :: rest => scanFrom style (position + 1) skip rest
  | 0, c :: rest =>
    match lexeme? style (c :: rest) with
    | none => .error (.invalidCharacter position c)
    | some (token, length) => do
        let more <- scanFrom style (position + 1) (length - 1) rest
        return token.toList ++ more

def scan (style : Style) (text : List Char) : Except ParseError (List Token) :=
  scanFrom style 0 0 text

end Grammar
end WeakKleene
