import WeakKleene.Text.CaseIgnorable

namespace WeakKleene
namespace Text

/-!
Upper and lower case in every script.

A text counts as upper case when it has an upper-case letter and neither a
lower-case nor a title-case one.  Lowering is the full mapping: one character
may become two, and a capital sigma at the end of a word becomes the final one.
-/

/-- Characters with their lower-case partner right behind them, as first code point, last one, and
step. -/
def alternating : List (Nat × Nat × Nat) := stridesFrom 0 [
  256, 46, 2, 3, 4, 2, 2, 14, 2, 2, 44, 2, 2, 4, 2, 4, 2, 2, 2, 0, 1, 3, 0, 1, 5, 0, 1, 6, 0, 1, 7,
  4, 2, 2, 0, 1, 4, 0, 1, 2, 0, 1, 3, 2, 2, 2, 0, 1, 3, 0, 1, 8, 0, 1, 2, 0, 1, 2, 16, 2, 2, 16, 2,
  3, 2, 2, 3, 38, 2, 3, 16, 2, 8, 0, 1, 5, 0, 1, 4, 8, 2, 289, 2, 2, 3, 0, 1, 97, 22, 2, 8, 0, 1, 2,
  0, 1, 101, 32, 2, 9, 52, 2, 2, 12, 2, 2, 94, 2, 6353, 148, 2, 11, 94, 2, 644, 0, 1, 2780, 0, 1, 6,
  4, 2, 6, 0, 1, 2, 0, 1, 10, 98, 2, 8, 2, 2, 4, 0, 1, 31053, 44, 2, 19, 26, 2, 135, 12, 2, 3, 60,
  2, 10, 2, 2, 2, 8, 2, 4, 0, 1, 4, 2, 2, 3, 18, 2, 11, 14, 2, 4, 2, 2, 6, 0, 1, 5, 2, 2, 28, 0, 1]

/-- The other characters that have a lower-case partner, with how far it lies from them. -/
def shifted : List ((Nat × Nat) × Int) := List.zip (rangesFrom 0 [
  192, 23, 1, 7, 153, 1, 8, 1, 4, 1, 2, 2, 3, 1, 0, 1, 0, 1, 2, 1, 0, 1, 1, 1, 0, 1, 4, 1, 0, 1, 1,
  1, 6, 1, 2, 1, 4, 1, 2, 2, 4, 1, 12, 1, 2, 1, 2, 1, 38, 1, 4, 1, 0, 1, 40, 1, 25, 1, 2, 1, 0, 1,
  4, 1, 0, 1, 0, 1, 313, 1, 6, 1, 1, 3, 1, 1, 1, 2, 1, 17, 1, 9, 35, 1, 36, 1, 4, 1, 3, 3, 0, 16, 0,
  32, 144, 1, 112, 38, 2889, 38, 1, 1, 5, 1, 722, 80, 0, 6, 2202, 43, 2, 3, 478, 1, 105, 8, 8, 6,
  10, 8, 8, 8, 8, 6, 11, 1, 1, 1, 1, 1, 1, 1, 8, 8, 24, 8, 8, 8, 8, 8, 8, 2, 0, 2, 0, 1, 11, 4, 0,
  1, 11, 2, 0, 2, 12, 2, 0, 2, 0, 1, 11, 2, 0, 2, 0, 1, 297, 1, 3, 1, 0, 1, 6, 1, 45, 16, 838, 26,
  1840, 48, 50, 1, 0, 1, 0, 1, 8, 1, 0, 1, 0, 1, 0, 1, 13, 2, 31485, 1, 15, 1, 28, 1, 0, 1, 0, 1, 0,
  1, 0, 1, 1, 1, 0, 1, 0, 1, 0, 1, 16, 1, 0, 1, 0, 1, 22362, 26, 1221, 40, 136, 36, 156, 11, 1, 15,
  1, 7, 1, 2, 1770, 51, 3053, 32, 21888, 32, 31392, 34]) [
  32, 32, -121, 210, 206, 205, 79, 202, 203, 205, 207, 211, 209, 211, 213, 214, 218, 218, 218, 217,
  219, 2, 2, 2, 2, -97, -56, -130, 10795, -163, 10792, -195, 69, 71, 116, 38, 37, 64, 63, 32, 32, 8,
  -60, -7, -130, 80, 32, 15, 48, 7264, 7264, 7264, 38864, 8, -3008, -3008, -7615, -8, -8, -8, -8,
  -8, -8, -8, -8, -8, -8, -8, -8, -8, -8, -74, -9, -86, -9, -8, -100, -8, -112, -7, -128, -126, -9,
  -7517, -8383, -8262, 28, 16, 26, 48, -10743, -3814, -10727, -10780, -10749, -10783, -10782,
  -10815, -35332, -42280, -42308, -42319, -42315, -42305, -42308, -42258, -42282, -42261, 928, -48,
  -42307, -35384, 32, 40, 40, 39, 39, 39, 39, 64, 32, 32, 34]

def stride (range : Nat × Nat) : Nat × Nat × Nat := (range.1, range.2, 1)

/-- How far a character's lower-case partner lies, over first code point, last one, and step. -/
def lowering : List ((Nat × Nat × Nat) × Int) :=
  alternating.map (fun strided => (strided, 1)) ++
    shifted.map fun (range, distance) => (stride range, distance)

/-- Upper-case and title-case characters outside ASCII: those with a partner, and more. -/
def capitalStrides : List (Nat × Nat × Nat) := lowering.map Prod.fst ++ (rangesFrom 0 [
  304, 1, 673, 3, 7469, 1, 4, 1, 3, 3, 2, 3, 2, 1, 3, 5, 6, 1, 3, 1, 3, 2, 2, 4, 10, 2, 5, 1,
  111290, 26, 26, 26, 26, 26, 26, 1, 1, 2, 2, 1, 2, 2, 2, 4, 1, 8, 26, 26, 26, 2, 1, 4, 2, 8, 1, 7,
  27, 2, 1, 4, 1, 5, 1, 1, 3, 7, 27, 26, 26, 26, 26, 26, 26, 26, 26, 26, 26, 26, 30, 25, 33, 25, 33,
  25, 33, 25, 33, 25, 33, 1, 6501, 26, 6, 26, 6, 26]).map stride

/-- Lower-case characters outside ASCII: the partners, and more. -/
def lowerStrides : List (Nat × Nat × Nat) :=
  lowering.map (fun ((first, last, step), distance) =>
    ((first + distance).toNat, (last + distance).toNat, step)) ++ (rangesFrom 0 [
  170, 1, 10, 1, 4, 1, 118, 1, 6, 1, 16, 1, 53, 1, 13, 1, 13, 1, 14, 2, 14, 1, 3, 1, 49, 1, 48, 1,
  18, 6, 27, 63, 1, 36, 7, 2, 30, 5, 96, 1, 52, 1, 21, 1, 31, 19, 13, 2, 3, 2, 25, 2, 3, 1, 6, 1,
  355, 41, 5879, 9, 119, 192, 214, 8, 1, 1, 176, 7, 91, 3, 1, 2, 6, 1, 3, 3, 1, 2, 10, 2, 2, 2, 10,
  6, 10, 3, 1, 2, 121, 1, 13, 1, 16, 13, 109, 1, 3, 2, 3, 1, 27, 1, 4, 1, 4, 1, 2, 2, 8, 4, 2855, 1,
  2, 1, 2, 7, 102, 1, 31159, 2, 146, 2, 62, 9, 21, 1, 6, 1, 25, 1, 35, 1, 1, 1, 34, 3, 821, 43, 1,
  13, 20375, 7, 12, 5, 3176, 1, 2, 3, 1, 42, 1, 9, 52319, 26, 26, 7, 1, 18, 26, 26, 26, 4, 1, 1, 1,
  7, 1, 11, 26, 26, 26, 26, 26, 26, 26, 26, 26, 26, 26, 26, 26, 26, 26, 26, 26, 28, 28, 25, 1, 6,
  26, 25, 1, 6, 26, 25, 1, 6, 26, 25, 1, 6, 26, 25, 1, 6, 1, 1, 1844, 10, 1, 20]).map stride

/-- Title-case characters, as first code point, last one, and step. -/
def titleStrides : List (Nat × Nat × Nat) := stridesFrom 0 [
  453, 0, 1, 2, 0, 1, 2, 0, 1, 38, 0, 1, 7573, 7, 1, 8, 7, 1, 8, 7, 1, 12, 0, 1, 15, 0, 1, 47, 0, 1]

def isTitleChar (c : Char) : Bool := inStrides titleStrides c.toNat

def isUpperChar (c : Char) : Bool :=
  if c.toNat < 128 then c.isUpper else inStrides capitalStrides c.toNat && !isTitleChar c

def isLowerChar (c : Char) : Bool :=
  if c.toNat < 128 then c.isLower else inStrides lowerStrides c.toNat

def isCased (c : Char) : Bool := isUpperChar c || isLowerChar c || isTitleChar c

def isUpper (text : List Char) : Bool :=
  text.any isUpperChar && !text.any fun c => isLowerChar c || isTitleChar c

def startsUpper : List Char -> Bool
  | [] => false
  | c :: _ => isUpperChar c

def startsLower : List Char -> Bool
  | [] => false
  | c :: _ => isLowerChar c

def lowerChar (c : Char) : List Char :=
  if c.toNat < 128 then [c.toLower]
  else if c.toNat == 0x130 then ['i', Char.ofNat 0x307]
  else match lowering.find? fun (stride, _) => inStrides [stride] c.toNat with
    | some (_, distance) => [Char.ofNat (c.toNat + distance).toNat]
    | none => [c]

/-- Whether the first character that is not case-ignorable has a case. -/
def meetsCased (text : List Char) : Bool :=
  match text.dropWhile isCaseIgnorable with
  | [] => false
  | c :: _ => isCased c

/-- Lower a text whose already read part, backwards, is `before`. -/
def lowerAfter (before : List Char) : List Char -> List Char
  | [] => []
  | c :: rest =>
    let small :=
      if c.toNat == 0x3a3 then
        if meetsCased before && !meetsCased rest then [Char.ofNat 0x3c2] else [Char.ofNat 0x3c3]
      else lowerChar c
    small ++ lowerAfter (c :: before) rest

def lower (text : List Char) : List Char := lowerAfter [] text

end Text

def lowered (text : String) : String := String.ofList (Text.lower text.toList)

end WeakKleene
