import StructuralTypes.Number

/-!
JSON documents. Members of an object stay as written, repeated keys included. A
document that is well formed but holds a text with half a surrogate pair or a number
beyond the range has no value there: that place is `unreadable`.
-/

namespace StructuralTypes

inductive Json where
  | null
  | bool (value : Bool)
  | integer (value : Int)
  | float (value : Number)
  | string (value : String)
  | array (items : List Json)
  | object (members : List (String × Json))
  | unreadable

namespace Json

mutual

def nesting : Json → Nat
  | .array items => nestingItems items + 1
  | .object members => nestingMembers members + 1
  | _ => 0

def nestingItems : List Json → Nat
  | [] => 0
  | item :: rest => max item.nesting (nestingItems rest)

def nestingMembers : List (String × Json) → Nat
  | [] => 0
  | (_, value) :: rest => max value.nesting (nestingMembers rest)

end

/-- A number of a document; one that is not finite has no numeral. -/
def ofNumber (n : Number) : Json := if n.isFinite then .float n else .null

def get? (key : String) : Json → Option Json
  | .object members => (members.find? fun member => member.1 == key).map Prod.snd
  | _ => none

def countKey (key : String) (members : List (String × Json)) : Nat :=
  (members.filter fun member => member.1 == key).length

/-- The parts of a record with the given field names, in that order. A record is an
object, where a name stands at most once and others are ignored, or an array of the
fields from the first on. -/
def record? (names : List String) : Json → Option (List (Option Json))
  | .object members =>
      if names.all fun name => countKey name members ≤ 1 then
        some (names.map fun name => (Json.object members).get? name)
      else none
  | .array items =>
      if items.length ≤ names.length then
        some (items.map some ++ List.replicate (names.length - items.length) none)
      else none
  | _ => none

end Json

end StructuralTypes
