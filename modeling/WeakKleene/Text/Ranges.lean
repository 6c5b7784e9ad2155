namespace WeakKleene
namespace Text

/-!
Sets of characters as tables of code points.

Character properties that reach beyond ASCII are data of the Unicode standard.
Each table lists closed ranges of code points from 128 up; a property's own
module says what holds below 128.
-/

/-- The ranges that a row of numbers spells from a code point on: how many code points are passed
over, how many the next range holds, and so on. -/
def rangesFrom (start : Nat) : List Nat -> List (Nat × Nat)
  | skipped :: size :: rest =>
    (start + skipped, start + skipped + size - 1) :: rangesFrom (start + skipped + size) rest
  | _ => []

def inRanges (table : List (Nat × Nat)) (code : Nat) : Bool :=
  table.any fun range => range.1 ≤ code && code ≤ range.2

/-- As `rangesFrom`, with first code point, last one, and step: how many code points are passed
over, how far it is from the first one to the last, and the step. -/
def stridesFrom (start : Nat) : List Nat -> List (Nat × Nat × Nat)
  | skipped :: extent :: step :: rest =>
    (start + skipped, start + skipped + extent, step) ::
      stridesFrom (start + skipped + extent + 1) rest
  | _ => []

/-- Whether a code point is the first, the last, or a whole number of steps from the first one. -/
def inStrides (table : List (Nat × Nat × Nat)) (code : Nat) : Bool :=
  table.any fun (first, last, step) =>
    first ≤ code && code ≤ last && (code - first) % step == 0

end Text
end WeakKleene
