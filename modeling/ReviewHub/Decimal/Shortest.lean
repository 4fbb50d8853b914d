/-!
# Shortest decimals

A finite double is `mantissa * 2 ^ exponent`. The reals that round to it form an interval around it,
whose ends belong to it exactly when the mantissa is even. Among the decimals of fewest digits in
that interval the nearest is chosen, and of two equally near ones the even one. All comparisons are
made in exact arithmetic.
-/

namespace ReviewHub.Decimal

/-- A positive number `mantissa * 2 ^ exponent` as a double holds it. `narrowBelow` says that it is
the least of its binade, so that its neighbour below is only half as far away. -/
structure Binary where
  mantissa : Nat
  exponent : Int
  narrowBelow : Bool
deriving DecidableEq, Repr

structure Scientific where
  digits : Nat
  exponent : Int
deriving DecidableEq, Repr

namespace Binary

/-- The leading bit of the mantissa, `2 ^ 52`, which the bits of a double leave out. -/
def hidden : Nat := 0x10000000000000

/-- The magnitude of a finite double, given by its bits. -/
def ofBits (bits : UInt64) : Binary :=
  let fraction := bits.toNat % hidden
  let biased := bits.toNat / hidden % 0x800
  if biased = 0 then ⟨fraction, -1074, false⟩
  else ⟨hidden + fraction, (biased : Int) - 1075, fraction = 0 && biased > 1⟩

/-- Numerator of the value over `den exponent10`, counted in units of `10 ^ exponent10`. -/
def num (b : Binary) (exponent10 : Int) : Nat :=
  b.mantissa * Nat.pow 2 b.exponent.toNat * Nat.pow 10 (-exponent10).toNat

def den (b : Binary) (exponent10 : Int) : Nat :=
  Nat.pow 2 (-b.exponent).toNat * Nat.pow 10 exponent10.toNat

/-- `d * 10 ^ exponent10` rounds to the value. The interval is measured in quarters of a unit of the
last place: it reaches two of them up, and two or, where the gap below is narrow, one down. -/
def readsBack (b : Binary) (exponent10 : Int) (d : Nat) : Bool :=
  let quarter := Nat.pow 2 b.exponent.toNat * Nat.pow 10 (-exponent10).toNat
  let candidate := 4 * d * b.den exponent10
  let low := (4 * b.mantissa - if b.narrowBelow then 1 else 2) * quarter
  let high := (4 * b.mantissa + 2) * quarter
  if b.mantissa % 2 = 0 then low ≤ candidate && candidate ≤ high
  else low < candidate && candidate < high

/-- The decimal on the grid `10 ^ exponent10` that reads back and is nearest to the value. -/
def nearestOnGrid? (b : Binary) (exponent10 : Int) : Option Nat :=
  let below := b.num exponent10 / b.den exponent10
  let above := below + 1
  match b.readsBack exponent10 below, b.readsBack exponent10 above with
  | true, true =>
    let twice := 2 * b.num exponent10
    let middle := (below + above) * b.den exponent10
    if twice < middle then some below
    else if middle < twice then some above
    else some (if below % 2 = 0 then below else above)
  | true, false => some below
  | false, true => some above
  | false, false => none

/-- The least `k` such that the value is below `10 ^ k`, looked for near the binary logarithm. -/
def scale (b : Binary) : Int :=
  let guess := ((b.mantissa.log2 : Int) + b.exponent) * 1233 / 4096
  let below (k : Int) : Bool := b.num k < b.den k
  if below guess then guess
  else if below (guess + 1) then guess + 1
  else guess + 2

/-- Looks for a decimal that reads back, on grids from `count` digits on. -/
def searchGrids (b : Binary) (scale : Int) (count : Nat) : Nat → Option Scientific
  | 0 => none
  | more + 1 =>
    match b.nearestOnGrid? (scale - count) with
    | some d => some ⟨d, scale - count⟩
    | none => searchGrids b scale (count + 1) more

end Binary

/-- Moves the trailing zeros of the digits into the exponent. -/
def Scientific.normalize (s : Scientific) : Scientific :=
  if h : 0 < s.digits ∧ s.digits % 10 = 0 then
    normalize ⟨s.digits / 10, s.exponent + 1⟩
  else s
termination_by s.digits
decreasing_by
  have := h.1
  exact Nat.div_lt_self h.1 (by decide)

/-- The nearest of the shortest decimals that round to the value. Seventeen digits always do. -/
def Binary.shortest (b : Binary) : Scientific :=
  if b.mantissa = 0 then ⟨0, 0⟩
  else
    match b.searchGrids b.scale 1 17 with
    | some s => s.normalize
    | none =>
      Scientific.normalize
        ⟨b.mantissa * Nat.pow 2 b.exponent.toNat * Nat.pow 5 (-b.exponent).toNat,
          min b.exponent 0⟩

end ReviewHub.Decimal
