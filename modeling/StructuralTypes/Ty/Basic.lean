import StructuralTypes.Payload

/-!
Types. A shape can classify a value; a literal is the type of one value and a
union offers alternatives, and neither classifies. So a value carries a shape,
and `Ty` adds literals and unions on top. Branches of a union are kept as given.
Entries of a dictionary shape stand in key order: the constructors allow any order, and
`Ty.wellFormed` says where it is kept.
-/

namespace StructuralTypes

mutual

inductive Ty where
  | literal (value : Value)
  | union (branches : List Ty)
  | resolved (shape : Shape)

inductive Shape where
  | number
  | text
  | logic
  | void
  | named (name : String) (parameters : List Parameter)
  | function (parameters : List Parameter) (result : Ty)
  | list (element : Ty)
  | tuple (elements : List Ty)
  | dictionary (entries : List (String × Ty))

/-- A payload with its classifier; nothing asks the two to agree. -/
structure Value where
  payload : Payload
  shape : Shape

structure Parameter where
  name : String
  ty : Ty
  default : Option Value

end

inductive Kind where
  | number
  | text
  | logic
  | void
  | literal
  | named
  | function
  | union
  | list
  | tuple
  | dictionary
  deriving DecidableEq

namespace Kind

def all : List Kind :=
  [.number, .text, .logic, .void, .literal, .named, .function, .union, .list, .tuple, .dictionary]

def name : Kind → String
  | .number => "Number"
  | .text => "Text"
  | .logic => "Logic"
  | .void => "Void"
  | .literal => "Literal"
  | .named => "NamedType"
  | .function => "FunctionType"
  | .union => "UnionType"
  | .list => "ListType"
  | .tuple => "TupleType"
  | .dictionary => "DictionaryType"

end Kind

namespace Shape

def kind : Shape → Kind
  | .number => .number
  | .text => .text
  | .logic => .logic
  | .void => .void
  | .named _ _ => .named
  | .function _ _ => .function
  | .list _ => .list
  | .tuple _ => .tuple
  | .dictionary _ => .dictionary

def isPrimitive : Shape → Bool
  | .number | .text | .logic | .void => true
  | _ => false

end Shape

namespace Value

def number (value : Number) : Value := ⟨.number value, .number⟩

def text (value : String) : Value := ⟨.text value, .text⟩

def logic (value : Bool) : Value := ⟨.logic value, .logic⟩

def void : Value := ⟨.void, .void⟩

end Value

inductive TypeError where
  | unresolved (kind : Kind)
  deriving DecidableEq

def TypeError.message : TypeError → String
  | .unresolved kind => "A " ++ kind.name ++ " cannot classify a runtime value"

namespace Ty

def number : Ty := .resolved .number

def text : Ty := .resolved .text

def logic : Ty := .resolved .logic

def void : Ty := .resolved .void

def named (name : String) (parameters : List Parameter) : Ty := .resolved (.named name parameters)

def function (parameters : List Parameter) (result : Ty) : Ty :=
  .resolved (.function parameters result)

def list (element : Ty) : Ty := .resolved (.list element)

def tuple (elements : List Ty) : Ty := .resolved (.tuple elements)

/-- A dictionary type from entries in any order; the last of a repeated key counts. -/
def dictionary (entries : List (String × Ty)) : Ty :=
  .resolved (.dictionary (Keyed.ofList entries))

def kind : Ty → Kind
  | .literal _ => .literal
  | .union _ => .union
  | .resolved shape => shape.kind

def isPrimitive : Ty → Bool
  | .resolved shape => shape.isPrimitive
  | _ => false

def isResolved : Ty → Bool
  | .resolved _ => true
  | _ => false

def isUnion : Ty → Bool
  | .union _ => true
  | _ => false

def toShape : Ty → Except TypeError Shape
  | .resolved shape => .ok shape
  | ty => .error (.unresolved ty.kind)

/-- What is left of a type when a literal is taken for its classifier. -/
def carrier : Ty → Ty
  | .literal value => .resolved value.shape
  | ty => ty

end Ty

end StructuralTypes
