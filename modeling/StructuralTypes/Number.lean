/-!
Binary64 numbers by their bit pattern: a sign bit, eleven bits of exponent and 52 of
fraction. A finite number is `± significand * 2 ^ scale`; two numbers are the same when
their keys agree, which folds the two zeros into one and all not-a-number patterns into
one.
-/

namespace StructuralTypes

structure Number where
  bits : UInt64
  deriving DecidableEq

namespace Number

def fraction (n : Number) : Nat := n.bits.toNat % 0x10000000000000

def exponent (n : Number) : Nat := n.bits.toNat / 0x10000000000000 % 2048

def isNegative (n : Number) : Bool := 0x8000000000000000 ≤ n.bits.toNat

def isFinite (n : Number) : Bool := n.exponent < 2047

def isNaN (n : Number) : Bool := n.exponent == 2047 && n.fraction != 0

def isZero (n : Number) : Bool := n.exponent == 0 && n.fraction == 0

/-- The whole coefficient of a finite number; the leading bit of a normal one is implicit. -/
def significand (n : Number) : Nat :=
  if n.exponent = 0 then n.fraction else n.fraction + 0x10000000000000

def scale (n : Number) : Int := (max n.exponent 1 : Nat) - 1075

def key (n : Number) : UInt64 :=
  if n.isZero then 0 else if n.isNaN then 0x7ff8000000000000 else n.bits

def same (a b : Number) : Bool := a.key == b.key

/-- The integer part of a finite positive number, and zero of every other. -/
def integerPart (n : Number) : Nat :=
  if n.isFinite && !n.isNegative then
    match n.scale with
    | .ofNat up => n.significand <<< up
    | .negSucc down => n.significand >>> (down + 1)
  else 0

def toFloat (n : Number) : Float := Float.ofBits n.bits

def ofFloat (value : Float) : Number := ⟨value.toBits⟩

def neg (n : Number) : Number := ⟨n.bits ^^^ 0x8000000000000000⟩

def add (a b : Number) : Number := ofFloat (a.toFloat + b.toFloat)

def mul (a b : Number) : Number := ofFloat (a.toFloat * b.toFloat)

end Number

end StructuralTypes
