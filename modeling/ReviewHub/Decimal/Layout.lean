import ReviewHub.Decimal.Shortest
/-!
# Layout of decimals

How the digits of a number are written down: positionally within a range of exponents, otherwise
with one digit before the point and a signed exponent.
-/

namespace ReviewHub.Decimal

/-- The decisions of a number format. -/
structure Layout where
  /-- Least exponent of the leading digit that is written positionally. -/
  lowest : Int
  /-- Greatest exponent of the leading digit that is written positionally. -/
  highest : Int
  /-- What follows a whole number that is written positionally. -/
  wholeMark : String
  /-- Sign of an exponent that is not negative. -/
  plus : String
deriving DecidableEq, Repr

/-- The plain format: positional from `0.00001` to below `1e+16`, and a whole number keeps `.0`. -/
def plainLayout : Layout where
  lowest := -5
  highest := 15
  wholeMark := ".0"
  plus := "+"

namespace Layout

def zeros (n : Nat) : String :=
  String.ofList (List.replicate n '0')

/-- Digits around a decimal point that stands after `point` of them. -/
def positional (l : Layout) (digits : List Char) (point : Int) : String :=
  let count := digits.length
  if point ≤ 0 then "0." ++ zeros (-point).toNat ++ String.ofList digits
  else if count ≤ point.toNat then
    String.ofList digits ++ zeros (point.toNat - count) ++ l.wholeMark
  else
    String.ofList (digits.take point.toNat) ++ "." ++ String.ofList (digits.drop point.toNat)

/-- One digit, the fraction if there is one, and the exponent. -/
def scientific (l : Layout) (digits : List Char) (exponent : Int) : String :=
  let sign := if exponent < 0 then "-" else l.plus
  let tail := "e" ++ sign ++ toString exponent.natAbs
  match digits with
  | [d] => d.toString ++ tail
  | d :: ds => d.toString ++ "." ++ String.ofList ds ++ tail
  | [] => tail

def magnitude (l : Layout) (s : Scientific) : String :=
  let digits := Nat.toDigits 10 s.digits
  let exponent := s.exponent + digits.length - 1
  if s.digits = 0 then "0" ++ l.wholeMark
  else if l.lowest ≤ exponent && exponent ≤ l.highest then l.positional digits (exponent + 1)
  else l.scientific digits exponent

def render (l : Layout) (x : Float) : String :=
  let bits := x.toBits
  let sign := if 0x8000000000000000 ≤ bits.toNat then "-" else ""
  sign ++ l.magnitude (Binary.ofBits bits).shortest

end Layout

end ReviewHub.Decimal
