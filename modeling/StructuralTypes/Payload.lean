import StructuralTypes.Decimal.Layout
import StructuralTypes.Keyed
import StructuralTypes.Text.Quoted

/-!
Runtime data, without a type. Equality is structural, on numbers by their key;
`feed` puts what equality looks at in front of a list of words, so equal payloads
feed the same words. The words stand for the fields that a hash is shown and are not
the bytes in which a particular hash receives them.
Entries of a dictionary stand in key order.
-/

namespace StructuralTypes

/-- The length of a text, then its code points. -/
def Text.feed (text : String) (rest : List UInt64) : List UInt64 :=
  text.length.toUInt64 :: (text.toList.map (fun c => c.val.toUInt64) ++ rest)

inductive Payload where
  | number (value : Number)
  | text (value : String)
  | logic (value : Bool)
  | void
  | list (items : List Payload)
  | dictionary (entries : List (String × Payload))
  -- an object of the host, known by name only
  | native (name : String)

namespace Payload

mutual

def beq : Payload → Payload → Bool
  | .number a, .number b => a.same b
  | .text a, .text b => a == b
  | .logic a, .logic b => a == b
  | .void, .void => true
  | .list as, .list bs => beqItems as bs
  | .dictionary as, .dictionary bs => beqEntries as bs
  | .native a, .native b => a == b
  | _, _ => false

def beqItems : List Payload → List Payload → Bool
  | [], [] => true
  | a :: as, b :: bs => beq a b && beqItems as bs
  | _, _ => false

def beqEntries : List (String × Payload) → List (String × Payload) → Bool
  | [], [] => true
  | (k, a) :: as, (l, b) :: bs => k == l && beq a b && beqEntries as bs
  | _, _ => false

end

instance : BEq Payload := ⟨beq⟩

mutual

def feed : Payload → List UInt64 → List UInt64
  | .number value, rest => 0 :: value.key :: rest
  | .text value, rest => 1 :: Text.feed value rest
  | .logic value, rest => 2 :: (if value then 1 else 0) :: rest
  | .void, rest => 3 :: rest
  | .list items, rest => 4 :: items.length.toUInt64 :: feedItems items rest
  | .dictionary entries, rest => 5 :: entries.length.toUInt64 :: feedEntries entries rest
  | .native name, rest => 6 :: Text.feed name rest

def feedItems : List Payload → List UInt64 → List UInt64
  | [], rest => rest
  | item :: items, rest => feed item (feedItems items rest)

def feedEntries : List (String × Payload) → List UInt64 → List UInt64
  | [], rest => rest
  | (key, value) :: entries, rest => Text.feed key (feed value (feedEntries entries rest))

end

mutual

def render : Payload → String
  | .number value => value.text
  | .text value => Text.quoted value
  | .logic value => if value then "true" else "false"
  | .void => "void"
  | .list items => "[" ++ ", ".intercalate (renderItems items) ++ "]"
  | .dictionary entries => "\x7b" ++ ", ".intercalate (renderEntries entries) ++ "\x7d"
  | .native name => "<" ++ name ++ ">"

def renderItems : List Payload → List String
  | [] => []
  | item :: rest => render item :: renderItems rest

def renderEntries : List (String × Payload) → List String
  | [] => []
  | (key, value) :: rest => (key ++ ": " ++ render value) :: renderEntries rest

end

/-- A dictionary from entries in any order; the last of a repeated key counts. -/
def ofEntries (entries : List (String × Payload)) : Payload :=
  .dictionary (Keyed.ofList entries)

def number? : Payload → Option Number
  | .number value => some value
  | _ => none

def text? : Payload → Option String
  | .text value => some value
  | _ => none

end Payload

end StructuralTypes
