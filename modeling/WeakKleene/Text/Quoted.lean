import WeakKleene.Text.Printable
import WeakKleene.Text.Units

namespace WeakKleene
namespace Text

/-!
Quoted text: how a string is shown so that it can be told from its surroundings.

Single quotes enclose the text, double quotes when only that saves an escape.
A backslash, the enclosing quote, line breaks, tabs and all unprintable
characters are escaped.
-/

/-- The lower-case hexadecimal digits of a number, filled up with zeros to a width. -/
def hexDigits (width number : Nat) : List Char :=
  let digits := Nat.toDigits 16 number
  List.replicate (width - digits.length) '0' ++ digits

/-- The text without quotes that shows a character inside the given quotes. -/
def quotedChar (quote c : Char) : List Char :=
  if c == quote || c == '\\' then ['\\', c]
  else if c == '\n' then ['\\', 'n']
  else if c == '\r' then ['\\', 'r']
  else if c == '\t' then ['\\', 't']
  else if isPrintable c then [c]
  else if c.toNat < 0x100 then ['\\', 'x'] ++ hexDigits 2 c.toNat
  else if c.toNat < 0x10000 then ['\\', 'u'] ++ hexDigits 4 c.toNat
  else ['\\', 'U'] ++ hexDigits 8 c.toNat

/-- Double quotes only around a text that has a single quote and no double one. -/
def enclosingQuote (text : List Char) : Char :=
  if text.contains '\'' && !text.contains '"' then '"' else '\''

def quoted (text : String) : String :=
  let quote := enclosingQuote text.toList
  String.ofList (quote :: (text.toList.flatMap (quotedChar quote) ++ [quote]))

/-- The quoted form of code points.  A half of a pair is escaped like a character. -/
def quotedCodes (codes : List Nat) : String :=
  let quote := enclosingQuote (ofCodes codes).toList
  let shown := fun code =>
    if isHalf code then ['\\', 'u'] ++ hexDigits 4 code else quotedChar quote (Char.ofNat code)
  String.ofList (quote :: (codes.flatMap shown ++ [quote]))

/-- Quoted texts in parentheses; a single one is followed by a comma. -/
def quotedTuple : List String -> String
  | [] => "()"
  | [text] => "(" ++ quoted text ++ ",)"
  | texts => "(" ++ String.intercalate ", " (texts.map quoted) ++ ")"

end Text
end WeakKleene
