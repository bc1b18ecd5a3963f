import StructuralTypes.Document.Payload
import StructuralTypes.Ty.Basic

/-!
Types, values and parameters as documents. A type is an object with one member named
for its kind, or just the name of a primitive; the member's value is a record of the
parts. A classifier that is a literal or a union is refused, and a missing or null
default means that there is none.
-/

namespace StructuralTypes

namespace Kind

def tag : Kind → String
  | .number => "Number"
  | .text => "Text"
  | .logic => "Logic"
  | .void => "Void"
  | .literal => "Literal"
  | .named => "Named"
  | .function => "Function"
  | .union => "Union"
  | .list => "List"
  | .tuple => "Tuple"
  | .dictionary => "Dictionary"

def ofTag? (tag : String) : Option Kind := all.find? fun kind => kind.tag == tag

def toJson (kind : Kind) : Json := .string kind.tag

def ofJson? : Json → Option Kind
  | .string tag => ofTag? tag
  | .object [(tag, .null)] => ofTag? tag
  | _ => none

end Kind

mutual

def Ty.toJson : Ty → Json
  | .literal value => .tagged "Literal" (.object [("value", value.toJson)])
  | .union branches => .tagged "Union" (.object [("branches", .array (Ty.toJsonAll branches))])
  | .resolved shape => shape.toJson

def Shape.toJson : Shape → Json
  | .number => .string "Number"
  | .text => .string "Text"
  | .logic => .string "Logic"
  | .void => .string "Void"
  | .named name parameters =>
      .tagged "Named" (.object
        [("name", .string name), ("parameters", .array (Parameter.toJsonAll parameters))])
  | .function parameters result =>
      .tagged "Function" (.object
        [("parameters", .array (Parameter.toJsonAll parameters)), ("return_type", result.toJson)])
  | .list element => .tagged "List" (.object [("element", element.toJson)])
  | .tuple elements => .tagged "Tuple" (.object [("elements", .array (Ty.toJsonAll elements))])
  | .dictionary entries =>
      .tagged "Dictionary" (.object [("entries", .object (Ty.toJsonEntries entries))])

def Value.toJson : Value → Json
  | ⟨payload, shape⟩ => .object [("payload", payload.toJson), ("ty", shape.toJson)]

def Parameter.toJson : Parameter → Json
  | ⟨name, ty, default⟩ =>
      .object ([("name", .string name), ("ty", ty.toJson)] ++ Value.toJsonDefault default)

def Value.toJsonDefault : Option Value → List (String × Json)
  | none => []
  | some value => [("default_value", value.toJson)]

def Ty.toJsonAll : List Ty → List Json
  | [] => []
  | ty :: rest => ty.toJson :: Ty.toJsonAll rest

def Parameter.toJsonAll : List Parameter → List Json
  | [] => []
  | parameter :: rest => parameter.toJson :: Parameter.toJsonAll rest

def Ty.toJsonEntries : List (String × Ty) → List (String × Json)
  | [] => []
  | (key, ty) :: rest => (key, ty.toJson) :: Ty.toJsonEntries rest

end

def Ty.ofTag? (tag : String) : Option Ty :=
  if tag = "Number" then some .number
  else if tag = "Text" then some .text
  else if tag = "Logic" then some .logic
  else if tag = "Void" then some .void
  else none

mutual

/-- The type of a document whose brackets nest no deeper than `depth`. -/
def Ty.decode? : Nat → Json → Option Ty
  | _, .string tag => Ty.ofTag? tag
  | depth + 1, .object [(tag, body)] =>
      if body.isNull then Ty.ofTag? tag else Ty.decodeParts? depth tag body
  | _, _ => none

def Ty.decodeParts? : Nat → String → Json → Option Ty
  | depth + 1, tag, body =>
      if tag = "Literal" then
        match body.record? ["value"] with
        | some [some value] => (Value.decode? depth value).map .literal
        | _ => none
      else if tag = "Named" then
        match body.record? ["name", "parameters"] with
        | some [some (.string name), some parameters] =>
            (parameters.items? (Parameter.decode? depth)).map (Ty.named name)
        | _ => none
      else if tag = "Function" then
        match body.record? ["parameters", "return_type"] with
        | some [some parameters, some result] => do
            let parameters ← parameters.items? (Parameter.decode? depth)
            let result ← Ty.decode? depth result
            some (.function parameters result)
        | _ => none
      else if tag = "Union" then
        match body.record? ["branches"] with
        | some [some branches] => (branches.items? (Ty.decode? depth)).map .union
        | _ => none
      else if tag = "List" then
        match body.record? ["element"] with
        | some [some element] => (Ty.decode? depth element).map .list
        | _ => none
      else if tag = "Tuple" then
        match body.record? ["elements"] with
        | some [some elements] => (elements.items? (Ty.decode? depth)).map .tuple
        | _ => none
      else if tag = "Dictionary" then
        match body.record? ["entries"] with
        | some [some entries] =>
            (entries.entries? (Ty.decode? depth)).map fun entries => .resolved (.dictionary entries)
        | _ => none
      else none
  | 0, _, _ => none

def Value.decode? : Nat → Json → Option Value
  | depth + 1, json =>
      match json.record? ["payload", "ty"] with
      | some [some payload, some ty] => do
          let payload ← Payload.ofJson? payload
          match ← Ty.decode? depth ty with
          | .resolved shape => some ⟨payload, shape⟩
          | _ => none
      | _ => none
  | 0, _ => none

def Parameter.decode? : Nat → Json → Option Parameter
  | depth + 1, json =>
      match json.record? ["name", "ty", "default_value"] with
      | some [some (.string name), some ty, default] => do
          let ty ← Ty.decode? depth ty
          match default with
          | none => some ⟨name, ty, none⟩
          | some default =>
              if default.isNull then some ⟨name, ty, none⟩
              else (Value.decode? depth default).map fun value => ⟨name, ty, some value⟩
      | _ => none
  | 0, _ => none

end

def Ty.ofJson? (json : Json) : Option Ty := Ty.decode? json.nesting json

def Value.ofJson? (json : Json) : Option Value := Value.decode? json.nesting json

def Parameter.ofJson? (json : Json) : Option Parameter := Parameter.decode? json.nesting json

end StructuralTypes
