import StructuralTypes.Ty.Basic

/-!
Structural equality of types, and the words that a hash of a type is made from.
Both look at the same data: names, parameters with their defaults, keys, and
payloads up to their own equality. The words are a function of these fields, with a
tag for each form and a length before each list; they are not the byte stream of a
particular hash, and `Ty.pairKey` is only one key that can be made of them.
-/

namespace StructuralTypes

mutual

def Ty.beq : Ty → Ty → Bool
  | .literal a, .literal b => a.beq b
  | .union as, .union bs => Ty.beqAll as bs
  | .resolved a, .resolved b => a.beq b
  | _, _ => false

def Shape.beq : Shape → Shape → Bool
  | .number, .number => true
  | .text, .text => true
  | .logic, .logic => true
  | .void, .void => true
  | .named m ps, .named n qs => m == n && Parameter.beqAll ps qs
  | .function ps a, .function qs b => Parameter.beqAll ps qs && a.beq b
  | .list a, .list b => a.beq b
  | .tuple as, .tuple bs => Ty.beqAll as bs
  | .dictionary as, .dictionary bs => Ty.beqEntries as bs
  | _, _ => false

def Value.beq : Value → Value → Bool
  | ⟨p, s⟩, ⟨q, t⟩ => p == q && s.beq t

def Parameter.beq : Parameter → Parameter → Bool
  | ⟨m, a, d⟩, ⟨n, b, e⟩ => m == n && a.beq b && Value.beqOption d e

def Value.beqOption : Option Value → Option Value → Bool
  | none, none => true
  | some a, some b => a.beq b
  | _, _ => false

def Ty.beqAll : List Ty → List Ty → Bool
  | [], [] => true
  | a :: as, b :: bs => a.beq b && Ty.beqAll as bs
  | _, _ => false

def Parameter.beqAll : List Parameter → List Parameter → Bool
  | [], [] => true
  | p :: ps, q :: qs => p.beq q && Parameter.beqAll ps qs
  | _, _ => false

def Ty.beqEntries : List (String × Ty) → List (String × Ty) → Bool
  | [], [] => true
  | (k, a) :: as, (l, b) :: bs => k == l && a.beq b && Ty.beqEntries as bs
  | _, _ => false

end

instance : BEq Ty := ⟨Ty.beq⟩
instance : BEq Shape := ⟨Shape.beq⟩
instance : BEq Value := ⟨Value.beq⟩
instance : BEq Parameter := ⟨Parameter.beq⟩

mutual

def Ty.feed : Ty → List UInt64 → List UInt64
  | .literal value, rest => 0 :: value.feed rest
  | .union branches, rest => 1 :: branches.length.toUInt64 :: Ty.feedAll branches rest
  | .resolved shape, rest => 2 :: shape.feed rest

def Shape.feed : Shape → List UInt64 → List UInt64
  | .number, rest => 0 :: rest
  | .text, rest => 1 :: rest
  | .logic, rest => 2 :: rest
  | .void, rest => 3 :: rest
  | .named name parameters, rest =>
      4 :: Text.feed name (parameters.length.toUInt64 :: Parameter.feedAll parameters rest)
  | .function parameters result, rest =>
      5 :: parameters.length.toUInt64 :: Parameter.feedAll parameters (result.feed rest)
  | .list element, rest => 6 :: element.feed rest
  | .tuple elements, rest => 7 :: elements.length.toUInt64 :: Ty.feedAll elements rest
  | .dictionary entries, rest => 8 :: entries.length.toUInt64 :: Ty.feedEntries entries rest

def Value.feed : Value → List UInt64 → List UInt64
  | ⟨payload, shape⟩, rest => payload.feed (shape.feed rest)

def Parameter.feed : Parameter → List UInt64 → List UInt64
  | ⟨name, ty, default⟩, rest => Text.feed name (ty.feed (Value.feedOption default rest))

def Value.feedOption : Option Value → List UInt64 → List UInt64
  | none, rest => 0 :: rest
  | some value, rest => 1 :: value.feed rest

def Ty.feedAll : List Ty → List UInt64 → List UInt64
  | [], rest => rest
  | ty :: tys, rest => ty.feed (Ty.feedAll tys rest)

def Parameter.feedAll : List Parameter → List UInt64 → List UInt64
  | [], rest => rest
  | parameter :: parameters, rest => parameter.feed (Parameter.feedAll parameters rest)

def Ty.feedEntries : List (String × Ty) → List UInt64 → List UInt64
  | [], rest => rest
  | (key, ty) :: entries, rest => Text.feed key (ty.feed (Ty.feedEntries entries rest))

end

def mixWord (state word : UInt64) : UInt64 :=
  (state ^^^ word) * 0x100000001b3

/-- A key of an operand pair that equal pairs share. -/
def Ty.pairKey (a b : Ty) : UInt64 :=
  (a.feed (b.feed [])).foldl mixWord 0xcbf29ce484222325

end StructuralTypes
