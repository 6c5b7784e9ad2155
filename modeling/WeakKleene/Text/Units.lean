namespace WeakKleene
namespace Text

/-!
Code points and the units of UTF-16 that spell them.

A code point beyond the first plane is spelled by two units, the halves of a
pair.  A half that stands alone is a code point, but no character.
-/

def isLeading (unit : Nat) : Bool := 0xD800 <= unit && unit < 0xDC00

def isTrailing (unit : Nat) : Bool := 0xDC00 <= unit && unit < 0xE000

/-- Whether a code point is half of a pair, and so no character. -/
def isHalf (code : Nat) : Bool := isLeading code || isTrailing code

def pairCode (high low : Nat) : Nat := 0x10000 + (high - 0xD800) * 0x400 + (low - 0xDC00)

def unitsOf (code : Nat) : List Nat :=
  if code < 0x10000 then [code]
  else
    let offset := code - 0x10000
    [0xD800 + offset / 0x400, 0xDC00 + offset % 0x400]

def codes (text : String) : List Nat := text.toList.map Char.toNat

/-- Whether code points come before others or are the same, where the first difference decides. -/
def codesBefore : List Nat -> List Nat -> Bool
  | [], _ => true
  | _ :: _, [] => false
  | left :: lefts, right :: rights => left < right || (left == right && codesBefore lefts rights)

/-- The text of code points, with the replacement character for every half that stands alone. -/
def ofCodes (codes : List Nat) : String :=
  String.ofList (codes.map fun code => if isHalf code then '\uFFFD' else Char.ofNat code)

end Text
end WeakKleene
