import StructuralTypes.Decimal.Nearest
import StructuralTypes.Json.Basic

/-!
Numerals of a document and the numbers they stand for. An integer that fits in 64
bits is kept as it is; any other numeral stands for the nearest number.
-/

namespace StructuralTypes.Json

structure Numeral where
  negative : Bool
  whole : List Nat
  fraction : Option (List Nat)
  exponent : Option Int

def isDigit (c : Char) : Bool := '0' ≤ c && c ≤ '9'

def digitValue (c : Char) : Nat := c.toNat - '0'.toNat

def digitsOf (cs : List Char) : List Nat × List Char :=
  ((cs.takeWhile isDigit).map digitValue, cs.dropWhile isDigit)

def ofDigits (digits : List Nat) : Nat :=
  digits.foldl (fun value digit => value * 10 + digit) 0

def readFraction : List Char → Option (Option (List Nat) × List Char)
  | '.' :: cs =>
      match digitsOf cs with
      | ([], _) => none
      | (digits, rest) => some (some digits, rest)
  | cs => some (none, cs)

def readExponentDigits (negative : Bool) (cs : List Char) : Option (Option Int × List Char) :=
  match digitsOf cs with
  | ([], _) => none
  | (digits, rest) =>
      let power : Int := ofDigits digits
      some (some (if negative then -power else power), rest)

def readExponent : List Char → Option (Option Int × List Char)
  | c :: cs =>
      if c = 'e' ∨ c = 'E' then
        match cs with
        | '+' :: rest => readExponentDigits false rest
        | '-' :: rest => readExponentDigits true rest
        | rest => readExponentDigits false rest
      else some (none, c :: cs)
  | [] => some (none, [])

/-- The whole part: a single zero, or digits that do not start with one. -/
def readWhole (cs : List Char) : Option (List Nat × List Char) :=
  match digitsOf cs with
  | ([], _) => none
  | ([digit], rest) => some ([digit], rest)
  | (0 :: _, _) => none
  | (digits, rest) => some (digits, rest)

def readNumeral (cs : List Char) : Option (Numeral × List Char) := do
  let (negative, cs) := match cs with
    | '-' :: rest => (true, rest)
    | rest => (false, rest)
  let (whole, cs) ← readWhole cs
  let (fraction, cs) ← readFraction cs
  let (exponent, cs) ← readExponent cs
  some (⟨negative, whole, fraction, exponent⟩, cs)

namespace Numeral

def signed (numeral : Numeral) (value : Number) : Number :=
  if numeral.negative then value.neg else value

def decimal (numeral : Numeral) : Decimal.Scientific :=
  let decimals := numeral.fraction.getD []
  ⟨ofDigits (numeral.whole ++ decimals), numeral.exponent.getD 0 - decimals.length⟩

def rounded (numeral : Numeral) : Json :=
  match numeral.decimal.nearest? with
  | some value => .float (numeral.signed value)
  | none => .unreadable

/-- Minus zero has no integer, and neither has a number outside 64 bits. -/
def toJson (numeral : Numeral) : Json :=
  match numeral.fraction, numeral.exponent with
  | none, none =>
      let size := ofDigits numeral.whole
      if numeral.negative then
        if size = 0 ∨ 0x8000000000000000 < size then numeral.rounded else .integer (-(size : Int))
      else if size < UInt64.size then .integer size
      else numeral.rounded
  | _, _ => numeral.rounded

end Numeral

end StructuralTypes.Json
