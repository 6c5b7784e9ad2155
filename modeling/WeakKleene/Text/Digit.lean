import WeakKleene.Text.Ranges

namespace WeakKleene
namespace Text

/-!
Decimal digits of all scripts.
-/

/-- Decimal digits outside ASCII.  Each script has a run of ten. -/
def digitRanges : List (Nat × Nat) := rangesFrom 0 [
  1632, 10, 134, 10, 198, 10, 412, 10, 118, 10, 118, 10, 118, 10, 118, 10, 118, 10, 118, 10, 118,
  10, 118, 10, 118, 10, 96, 10, 118, 10, 70, 10, 278, 10, 70, 10, 1862, 10, 38, 10, 300, 10, 128,
  10, 166, 10, 6, 10, 182, 10, 86, 10, 134, 10, 6, 10, 35270, 10, 678, 10, 38, 10, 198, 10, 22, 10,
  86, 10, 406, 10, 21270, 10, 1414, 10, 2182, 10, 812, 10, 128, 10, 60, 10, 144, 10, 278, 10, 342,
  10, 118, 10, 374, 10, 102, 10, 102, 10, 422, 10, 102, 10, 758, 10, 246, 10, 70, 10, 19638, 10, 86,
  10, 134, 10, 27764, 50, 2368, 10, 422, 10, 1622, 10, 4758, 10]

def isDecimal (c : Char) : Bool :=
  let code := c.toNat
  if code < 128 then c.isDigit else inRanges digitRanges code

end Text
end WeakKleene
