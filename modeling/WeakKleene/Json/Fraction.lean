namespace WeakKleene
namespace Fraction

/-!
Numbers with a fraction or an exponent, which are kept in double precision.
-/

def undefined : Float := .ofModel (.pack .notANumber)

def infinite : Float := .ofModel (.pack (.infinity .positive))

/-- The number nearest to what digits say that count a power of ten. -/
def ofDecimal (digits : Nat) (exponent : Int) : Float :=
  .ofScientific digits (exponent < 0) exponent.natAbs

/-- Where a number stands among all: a finite one by how often it holds the least positive number,
the infinite ones before and behind those, and the undefined one at the end. -/
def rank (value : Float) : Int × Int :=
  match value.toModel.unpack with
  | .zero _ => (0, 0)
  | .finite sign mantissa exponent _ => (0, sign.apply (mantissa <<< (exponent + 1074).toNat))
  | .infinity sign => (sign.apply 1, 0)
  | .notANumber => (2, 0)

def rankOf (value : Int) : Int × Int := (0, value <<< (1074 : Nat))

/-- The fewest digits from which a positive number is read, and the power of ten that they count.
Among as many digits those are taken that come nearest, and the even ones of two. -/
def shortest (value : Float) : Nat -> Nat × Int
  | 0 => ((rank value).2.toNat * 5 ^ 1074, -1074)
  | places + 1 =>
    let exponent : Int := places - 1073
    let numerator := (rank value).2.toNat * 10 ^ (-exponent).toNat
    let denominator := 10 ^ exponent.toNat <<< 1074
    let low := numerator / denominator
    let twice := 2 * (numerator % denominator)
    let isLow := twice < denominator || (twice == denominator && low % 2 == 0)
    let candidates := if isLow then [low, low + 1] else [low + 1, low]
    match candidates.find? fun digits => ofDecimal digits exponent == value with
    | some digits => (digits, exponent)
    | none => shortest value places

/-- Digits with a point so far behind their beginning, or with an exponent if that is far off. -/
def layout (digits : List Char) (point : Int) : List Char :=
  if point <= -4 || 16 < point then
    let exponent := Nat.toDigits 10 (point - 1).natAbs
    digits.take 1 ++ (if digits.length == 1 then [] else '.' :: digits.drop 1) ++
      ['e', if point <= 0 then '-' else '+'] ++ List.replicate (2 - exponent.length) '0' ++ exponent
  else if point <= 0 then '0' :: '.' :: (List.replicate point.natAbs '0' ++ digits)
  else
    let whole := digits.take point.toNat
    whole ++ List.replicate (point.toNat - whole.length) '0' ++
      '.' :: (if digits.length <= point.toNat then ['0'] else digits.drop point.toNat)

/-- A number as it is written, given how those are written that are not finite. -/
def written (undefined infinite : String) (value : Float) : String :=
  match value.toModel.unpack with
  | .notANumber => undefined
  | .infinity sign => minus sign ++ infinite
  | .zero sign => minus sign ++ "0.0"
  | .finite sign .. =>
    -- The search starts at 10 ^ 309, which is beyond all finite numbers.
    let (count, exponent) := shortest value.abs 1383
    let digits := Nat.toDigits 10 count
    minus sign ++ String.ofList (layout digits (exponent + digits.length))
where
  minus (sign : Float.Model.UnpackedFloat.Sign) : String := if sign == .negative then "-" else ""

end Fraction
end WeakKleene
