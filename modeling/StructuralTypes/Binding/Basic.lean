import StructuralTypes.Ty.Display

/-!
Bindings: a payload with the static type of the expression it came from. The type
may be a literal or a union.
-/

namespace StructuralTypes

structure Binding where
  payload : Payload
  ty : Ty

namespace Binding

def ofValue (value : Value) : Binding := ⟨value.payload, .literal value⟩

def number (value : Number) : Binding := ofValue (.number value)

def text (value : String) : Binding := ofValue (.text value)

def logic (value : Bool) : Binding := ofValue (.logic value)

def void : Binding := ⟨.void, .void⟩

def widen (binding : Binding) (ty : Ty) : Binding := { binding with ty := ty }

def render (binding : Binding) : String :=
  binding.payload.render ++ ": " ++ binding.ty.render

end Binding

end StructuralTypes
