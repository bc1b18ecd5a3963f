import StructuralTypes.Keyed

/-!
TOML documents, and how keys and headers build them up. A table remembers where it
came from, because that decides whether it may be opened again: a table named by a
header is defined once, one that a longer header passed through may still get a header
of its own, and one made by a dotted key is extended by dotted keys only.
-/

namespace StructuralTypes.Toml

inductive Origin where
  | header
  | implied
  | dotted
  deriving DecidableEq

inductive Node where
  | string (text : String)
  | integer (value : Int)
  -- floats and times are kept as written
  | float (text : String)
  | boolean (value : Bool)
  | time (text : String)
  | array (items : List Node)
  | inline (entries : List (String × Node))
  | table (origin : Origin) (entries : List (String × Node))
  -- an array that headers in double brackets add to, at least one table
  | tables (elements : List (List (String × Node)))

abbrev Entries := List (String × Node)

/-- Changes the table at the end of a path. Missing tables on the way are made with the
origin `via`, an array of tables stands for its last one, and a dotted key does not go
through a table that a header defined. -/
def alter (via : Origin) (change : Origin → Entries → Option Entries) :
    List String → Origin → Entries → Option Entries
  | [], origin, entries => change origin entries
  | key :: path, _, entries =>
      match Keyed.get? key entries with
      | none => do
          let inner ← alter via change path via []
          some (Keyed.insert key (.table via inner) entries)
      | some (.table origin child) =>
          if via = .dotted ∧ origin = .header then none
          else do
            let inner ← alter via change path origin child
            some (Keyed.insert key (.table origin inner) entries)
      | some (.tables elements) => do
          let inner ← alter via change path .header (elements.getLastD [])
          some (Keyed.insert key (.tables (elements.dropLast ++ [inner])) entries)
      | some _ => none

/-- Adds a value under a new key, inside the tables of a dotted path. The last of them
has to be a dotted table. -/
def define (path : List String) (key : String) (value : Node) (entries : Entries) :
    Option Entries :=
  alter .dotted
    (fun origin entries =>
      if path ≠ [] ∧ origin ≠ .dotted then none
      else if (Keyed.get? key entries).isSome then none
      else some (Keyed.insert key value entries))
    path .header entries

def openTable (path : List String) (key : String) : Entries → Option Entries :=
  alter .implied
    (fun _ entries =>
      match Keyed.get? key entries with
      | none => some (Keyed.insert key (.table .header []) entries)
      | some (.table .implied child) => some (Keyed.insert key (.table .header child) entries)
      | some _ => none)
    path .header

def openElement (path : List String) (key : String) : Entries → Option Entries :=
  alter .implied
    (fun _ entries =>
      match Keyed.get? key entries with
      | none => some (Keyed.insert key (.tables [[]]) entries)
      | some (.tables elements) => some (Keyed.insert key (.tables (elements ++ [[]])) entries)
      | some _ => none)
    path .header

def defineUnder (current path : List String) (key : String) (value : Node) :
    Entries → Option Entries :=
  alter .implied (fun _ entries => define path key value entries) current .header

end StructuralTypes.Toml
