import StructuralTypes.Binding.Basic
import StructuralTypes.Binding.Error

/-!
Operators on payloads, and the text of a template chunk. Which payloads an operator
takes is decided by the payloads alone; the types are the checks' business.
-/

namespace StructuralTypes

/-- The longest text, in bytes, that a repetition may give. -/
def maxTextLength : Nat := 0x40000000

namespace Operator

def resultType : Operator → Ty → Ty → Option Ty
  | .add, .resolved .number, .resolved .number => some .number
  | .add, .resolved .text, .resolved .text => some .text
  | .multiply, .resolved .number, .resolved .number => some .number
  | .multiply, .resolved .text, .resolved .number => some .text
  | _, _, _ => none

/-- Counts are kept in 64 bits; a larger one counts as the largest. -/
def repeatCount (count : Number) : Nat := min count.integerPart (UInt64.size - 1)

def product? (a b : Nat) : Option Nat := if a * b < UInt64.size then some (a * b) else none

def repeated (text : String) (count : Nat) : String :=
  String.join (List.replicate count text)

/-- A text repeated as often as the integer part of a number says, none if it is not
finite or not positive. -/
def repeatText (text : String) (count : Number) : Except BindError String :=
  match product? text.utf8ByteSize (repeatCount count) with
  | some 0 => .ok ""
  | some length =>
      if length ≤ maxTextLength then .ok (repeated text (repeatCount count))
      else .error (.repeatTooLarge text.utf8ByteSize count)
  | none => .error (.repeatTooLarge text.utf8ByteSize count)

def apply (operator : Operator) (left right : Binding) : Except BindError Binding :=
  match operator, left.payload, right.payload with
  | .add, .number a, .number b => .ok ⟨.number (a.add b), .number⟩
  | .add, .text a, .text b => .ok ⟨.text (a ++ b), .text⟩
  | .multiply, .number a, .number b => .ok ⟨.number (a.mul b), .number⟩
  | .multiply, .text a, .number b => do
      let text ← repeatText a b
      .ok ⟨.text text, .text⟩
  | .add, _, _ => .error (.invalidPayload "Number or Text")
  | .multiply, _, _ => .error (.invalidPayload "Number")

end Operator

namespace Number

/-- A number inside a template: the zeros are one, and the infinities have names. -/
def templateText (n : Number) : String :=
  if n.isZero then "0"
  else if n.isNaN then "NaN"
  else if n.isFinite then n.text
  else if n.isNegative then "-Infinity" else "Infinity"

end Number

def Payload.chunk : Payload → Except BindError String
  | .text value => .ok value
  | .number value => .ok value.templateText
  | _ => .error (.invalidPayload "Text or Number")

end StructuralTypes
