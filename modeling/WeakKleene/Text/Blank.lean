import WeakKleene.Text.Ranges

namespace WeakKleene
namespace Text

/-!
Blank characters, and cutting text at them.
-/

def blankRanges : List (Nat × Nat) := [
  (0x85, 0x85), (0xa0, 0xa0), (0x1680, 0x1680), (0x2000, 0x200a), (0x2028, 0x2029),
  (0x202f, 0x202f), (0x205f, 0x205f), (0x3000, 0x3000)]

/-- White space, together with the four ASCII separators from file to unit. -/
def isBlank (c : Char) : Bool :=
  let code := c.toNat
  if code < 128 then code == 32 || (9 ≤ code && code ≤ 13) || (28 ≤ code && code ≤ 31)
  else inRanges blankRanges code

def dropBlanks (text : List Char) : List Char := text.dropWhile isBlank

/-- The text without its leading and trailing blanks. -/
def trim (text : List Char) : List Char := (dropBlanks (dropBlanks text).reverse).reverse

/-- The maximal blank-free pieces of a text, in order; `piece` collects the current one
backwards. -/
def wordsFrom (piece : List Char) : List Char -> List (List Char)
  | [] => if piece.isEmpty then [] else [piece.reverse]
  | c :: rest =>
    if isBlank c then
      if piece.isEmpty then wordsFrom [] rest else piece.reverse :: wordsFrom [] rest
    else wordsFrom (c :: piece) rest

/-- The maximal blank-free pieces of a text, in order. -/
def words (text : List Char) : List (List Char) := wordsFrom [] text

/-- The first blank-free piece of a text and, if anything but blanks follows it, the rest
without the blanks in between.  Blanks at the far end of the rest stay. -/
def firstWord (text : List Char) : Option (List Char × Option (List Char)) :=
  match dropBlanks text with
  | [] => none
  | start =>
    let (word, rest) := start.span (fun c => !isBlank c)
    match dropBlanks rest with
    | [] => some (word, none)
    | tail => some (word, some tail)

end Text

def trimmed (text : String) : String := String.ofList (Text.trim text.toList)

end WeakKleene
