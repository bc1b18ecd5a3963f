import StructuralTypes.Ty.Basic

/-!
Which payloads a type describes. A dictionary type asks for its keys and allows
others; a named or function type says nothing about payloads.
-/

namespace StructuralTypes

mutual

def Ty.admits : Ty → Payload → Bool
  | .literal value, payload => payload == value.payload && value.admits payload
  | .union branches, payload => Ty.someAdmits branches payload
  | .resolved shape, payload => shape.admits payload

def Shape.admits : Shape → Payload → Bool
  | .number, .number _ => true
  | .text, .text _ => true
  | .logic, .logic _ => true
  | .void, .void => true
  | .named _ _, _ => true
  | .function _ _, _ => true
  | .list element, .list items => items.all fun item => element.admits item
  | .tuple elements, .list items => Ty.eachAdmits elements items
  | .dictionary entries, .dictionary fields => Ty.entriesAdmit entries fields
  | _, _ => false

def Value.admits : Value → Payload → Bool
  | ⟨_, shape⟩, payload => shape.admits payload

def Ty.someAdmits : List Ty → Payload → Bool
  | [], _ => false
  | ty :: rest, payload => ty.admits payload || Ty.someAdmits rest payload

def Ty.eachAdmits : List Ty → List Payload → Bool
  | [], [] => true
  | ty :: tys, item :: items => ty.admits item && Ty.eachAdmits tys items
  | _, _ => false

def Ty.entriesAdmit : List (String × Ty) → List (String × Payload) → Bool
  | [], _ => true
  | (key, ty) :: rest, fields =>
      match Keyed.get? key fields with
      | none => false
      | some payload => ty.admits payload && Ty.entriesAdmit rest fields

end

end StructuralTypes
