import StructuralTypes.Number

/-!
The shortest decimal that reads back as a given number. A number stands for all
reals that round to it; among the decimals with the fewest digits in that
interval the nearest is taken. Everything is exact arithmetic on naturals.
-/

namespace StructuralTypes.Decimal

structure Scientific where
  digits : Nat
  exponent : Int
  deriving DecidableEq

inductive Tie where
  | up
  | toEven
  deriving DecidableEq

/-- The reals that round to a number, in units of `2 ^ unit`: from `low` to `high`
around `middle`, the ends included or not. -/
structure Interval where
  low : Nat
  middle : Nat
  high : Nat
  unit : Int
  closed : Bool

/-- Below a power of two the neighbours are twice as near, except at the least exponent. -/
def Interval.around (n : Number) : Interval :=
  let middle := 4 * n.significand
  let gap := if n.fraction = 0 ∧ 1 < n.exponent then 1 else 2
  { low := middle - gap
    middle := middle
    high := middle + 2
    unit := n.scale - 2
    closed := n.significand % 2 == 0 }

def scaled (whole : Nat) (twos tens : Int) : Nat :=
  (whole <<< twos.toNat) * Nat.pow 10 tens.toNat

/-- A decimal on the grid `10 ^ tens`, in the interval's terms: both sides are
multiplied by the powers that are negative on either. -/
def Interval.gridPoint (i : Interval) (tens : Int) (digits : Nat) : Nat :=
  scaled digits (-i.unit) tens

def Interval.mark (i : Interval) (tens : Int) (bound : Nat) : Nat :=
  scaled bound i.unit (-tens)

def Interval.contains (i : Interval) (tens : Int) (digits : Nat) : Bool :=
  let point := i.gridPoint tens digits
  let low := i.mark tens i.low
  let high := i.mark tens i.high
  if i.closed then low ≤ point && point ≤ high else low < point && point < high

def Interval.nearest? (i : Interval) (tie : Tie) (tens : Int) : Option Nat :=
  let middle := i.mark tens i.middle
  let below := middle / i.gridPoint tens 1
  match i.contains tens below, i.contains tens (below + 1) with
  | false, false => none
  | true, false => some below
  | false, true => some (below + 1)
  | true, true =>
      let down := middle - i.gridPoint tens below
      let up := i.gridPoint tens (below + 1) - middle
      if down < up then some below
      else if up < down then some (below + 1)
      else match tie with
        | .up => some (below + 1)
        | .toEven => if below % 2 = 0 then some below else some (below + 1)

def digitCount (n : Nat) : Nat := (Nat.toDigits 10 n).length

def leadingPower (top bottom : Nat) : Int :=
  if bottom ≤ top then (digitCount (top / bottom) : Int) - 1
  else
    let size := digitCount (bottom / top)
    if bottom ≤ top * Nat.pow 10 (size - 1) then 1 - (size : Int) else -(size : Int)

def search (i : Interval) (tie : Tie) : Nat → Int → Option Scientific
  | 0, _ => none
  | count + 1, tens =>
      match i.nearest? tie tens with
      | some digits => some ⟨digits, tens⟩
      | none => search i tie count (tens - 1)

def Scientific.trim : Nat → Scientific → Scientific
  | 0, decimal => decimal
  | count + 1, decimal =>
      if decimal.digits ≠ 0 ∧ decimal.digits % 10 = 0 then
        trim count ⟨decimal.digits / 10, decimal.exponent + 1⟩
      else decimal

/-- The shortest decimal of a finite number's magnitude. Seventeen digits always
suffice, so the search ends in a hit. -/
def shortest (tie : Tie) (n : Number) : Scientific :=
  if n.isZero then ⟨0, 0⟩
  else
    let i := Interval.around n
    let top := leadingPower (scaled i.middle i.unit 0) (scaled 1 (-i.unit) 0)
    ((search i tie 18 top).getD ⟨0, 0⟩).trim 18

end StructuralTypes.Decimal
