import StructuralTypes.Algebra.Config
import StructuralTypes.Document.Payload
import StructuralTypes.Toml.Reader

/-!
Settings of a context as documents. Every setting has a default; one that is given
has to be of its kind, and what is not a setting is ignored.
-/

namespace StructuralTypes.Config

def toJson (config : Config) : Json :=
  .object
    [("memoize", .bool config.memoize),
     ("max_depth", .integer config.maxDepth),
     ("cache_capacity", .integer config.cacheCapacity)]

def count? : Json → Option Nat
  | .integer value => if 0 ≤ value ∧ value < UInt64.size then some value.toNat else none
  | _ => none

def field {α : Type} (read : Json → Option α) (default : α) : Option Json → Option α
  | none => some default
  | some json => read json

/-- Settings of a JSON document. They are not validated. -/
def ofJson? (json : Json) : Option Config :=
  match json.record? ["memoize", "max_depth", "cache_capacity"] with
  | some [memoize, maxDepth, cacheCapacity] => do
      let defaults : Config := {}
      some
        { memoize := ← field Json.toBool? defaults.memoize memoize
          maxDepth := ← field count? defaults.maxDepth maxDepth
          cacheCapacity := ← field count? defaults.cacheCapacity cacheCapacity }
  | _ => none

def flagEntry (key : String) (default : Bool) (entries : Toml.Entries) : Option Bool :=
  match Keyed.get? key entries with
  | none => some default
  | some (.boolean value) => some value
  | some _ => none

def countEntry (key : String) (default : Nat) (entries : Toml.Entries) : Option Nat :=
  match Keyed.get? key entries with
  | none => some default
  | some (.integer value) => if 0 ≤ value then some value.toNat else none
  | some _ => none

def ofEntries? (entries : Toml.Entries) : Option Config := do
  let defaults : Config := {}
  some
    { memoize := ← flagEntry "memoize" defaults.memoize entries
      maxDepth := ← countEntry "max_depth" defaults.maxDepth entries
      cacheCapacity := ← countEntry "cache_capacity" defaults.cacheCapacity entries }

/-- Settings of a TOML document, validated. -/
def read (text : String) : Except ConfigError Config :=
  match (Toml.read text).bind ofEntries? with
  | none => .error .unreadable
  | some config => config.validate

end StructuralTypes.Config
