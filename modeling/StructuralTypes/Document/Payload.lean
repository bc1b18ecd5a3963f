import StructuralTypes.Decimal.Nearest
import StructuralTypes.Json.Basic
import StructuralTypes.Payload

/-!
Payloads as documents. A payload is an object with one member named for its form, or
just the name where there is nothing more to say.
-/

namespace StructuralTypes

namespace Json

def toNumber? : Json → Option Number
  | .integer value =>
      (Decimal.Scientific.nearest? ⟨value.natAbs, 0⟩).map fun size =>
        if value < 0 then size.neg else size
  | .float value => some value
  | _ => none

def toText? : Json → Option String
  | .string value => some value
  | _ => none

def toBool? : Json → Option Bool
  | .bool value => some value
  | _ => none

def tagged (tag : String) (body : Json) : Json := .object [(tag, body)]

def isNull : Json → Bool
  | .null => true
  | _ => false

def items? {α : Type} (read : Json → Option α) : Json → Option (List α)
  | .array items => items.mapM read
  | _ => none

/-- What `read` makes of the members of an object, in key order; the last member of a
repeated key counts, but all have to be readable. -/
def entries? {α : Type} (read : Json → Option α) : Json → Option (List (String × α))
  | .object members =>
      (members.mapM fun member => (read member.2).map fun value => (member.1, value)).map
        Keyed.ofList
  | _ => none

end Json

namespace Payload

mutual

def toJson : Payload → Json
  | .number value => .tagged "Number" (.ofNumber value)
  | .text value => .tagged "Text" (.string value)
  | .logic value => .tagged "Logic" (.bool value)
  | .void => .string "Void"
  | .list items => .tagged "List" (.array (toJsonItems items))
  | .dictionary entries => .tagged "Dictionary" (.object (toJsonEntries entries))
  | .native name => .tagged "Native" (.string name)

def toJsonItems : List Payload → List Json
  | [] => []
  | item :: rest => toJson item :: toJsonItems rest

def toJsonEntries : List (String × Payload) → List (String × Json)
  | [] => []
  | (key, value) :: rest => (key, toJson value) :: toJsonEntries rest

end

def decode? : Nat → Json → Option Payload
  | _, .string tag => if tag = "Void" then some .void else none
  | depth + 1, .object [(tag, body)] =>
      if tag = "Number" then body.toNumber?.map .number
      else if tag = "Text" then body.toText?.map .text
      else if tag = "Logic" then body.toBool?.map .logic
      else if tag = "Void" then (if body.isNull then some .void else none)
      else if tag = "List" then (body.items? (decode? depth)).map .list
      else if tag = "Dictionary" then (body.entries? (decode? depth)).map .dictionary
      else if tag = "Native" then body.toText?.map .native
      else none
  | _, _ => none

def ofJson? (json : Json) : Option Payload := decode? json.nesting json

end Payload

end StructuralTypes
