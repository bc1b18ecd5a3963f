import StructuralTypes.Decimal.Shortest

/-!
How a number is written. `Layout` records the choices; `Number.text` writes the
plain form used in printed types, `Number.jsonText` the form used in documents.
-/

namespace StructuralTypes

namespace Decimal

/-- The choices of a written form. `positional` holds of the places of the point
that are written without an exponent. -/
structure Layout where
  tie : Tie
  positional : Int → Bool
  keepsPoint : Bool

def Layout.plain : Layout where
  tie := .up
  positional _ := true
  keepsPoint := false

/-- The document form: up to sixteen places before the point and four zeros after it,
and an integer keeps `.0`. -/
def Layout.document : Layout where
  tie := .toEven
  positional point := -5 < point && point ≤ 16
  keepsPoint := true

def zeros (count : Nat) : String := String.ofList (List.replicate count '0')

def pointed (layout : Layout) (digits : List Char) (point : Int) : String :=
  if point ≤ 0 then "0." ++ zeros (-point).toNat ++ String.ofList digits
  else if digits.length ≤ point then
    String.ofList digits ++ zeros (point - digits.length).toNat ++
      (if layout.keepsPoint then ".0" else "")
  else
    String.ofList (digits.take point.toNat) ++ "." ++ String.ofList (digits.drop point.toNat)

def exponential (digits : List Char) (point : Int) : String :=
  let mantissa := match digits with
    | [] => ""
    | [digit] => String.ofList [digit]
    | digit :: rest => String.ofList [digit] ++ "." ++ String.ofList rest
  let power := point - 1
  let sign := if power < 0 then "-" else "+"
  mantissa ++ "e" ++ sign ++ Nat.repr power.natAbs

def Layout.magnitude (layout : Layout) (n : Number) : String :=
  if n.isZero then (if layout.keepsPoint then "0.0" else "0")
  else
    let decimal := shortest layout.tie n
    let digits := Nat.toDigits 10 decimal.digits
    let point := digits.length + decimal.exponent
    if layout.positional point then pointed layout digits point
    else exponential digits point

def Layout.finite (layout : Layout) (n : Number) : String :=
  (if n.isNegative then "-" else "") ++ layout.magnitude n

end Decimal

namespace Number

def text (n : Number) : String :=
  if n.isNaN then "NaN"
  else if n.isFinite then Decimal.Layout.plain.finite n
  else if n.isNegative then "-inf" else "inf"

/-- The document form; documents have no numeral for a number that is not finite. -/
def jsonText (n : Number) : String :=
  if n.isFinite then Decimal.Layout.document.finite n else "null"

end Number

end StructuralTypes
