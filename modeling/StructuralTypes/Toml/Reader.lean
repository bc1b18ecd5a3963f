import StructuralTypes.Toml.Scalar

/-!
Reading a TOML document. Arrays, inline tables and dotted keys may nest to a limit;
newlines are free inside an array and not allowed inside an inline table.
-/

namespace StructuralTypes.Toml

/-- Arrays and inline tables nest less than this deep, and a dotted key has fewer parts. -/
def nestingLimit : Nat := 80

def skipComment : List Char → List Char
  | '#' :: rest => rest.dropWhile isPlain
  | cs => cs

def skipLines : Nat → List Char → List Char
  | 0, cs => cs
  | fuel + 1, cs =>
      let blank := skipBlanks cs
      match lineBreak? (skipComment blank) with
      | some rest => skipLines fuel rest
      | none => blank

def skipSpace (cs : List Char) : List Char := skipLines cs.length cs

def endOfLine (cs : List Char) : Option (List Char) :=
  match skipComment (skipBlanks cs) with
  | [] => some []
  | rest => lineBreak? rest

def isBare (c : Char) : Bool := c.isAlphanum || c = '-' || c = '_'

def readKeyPart : List Char → Option (String × List Char)
  | '"' :: rest => (readBasic rest).map fun (text, rest) => (.ofList text, rest)
  | '\x27' :: rest => (readLiteral rest).map fun (text, rest) => (.ofList text, rest)
  | cs =>
      match cs.takeWhile isBare with
      | [] => none
      | bare => some (.ofList bare, cs.dropWhile isBare)

def readKeyParts : Nat → List Char → Option (List String × List Char)
  | 0, _ => none
  | fuel + 1, cs => do
      let (part, rest) ← readKeyPart (skipBlanks cs)
      match skipBlanks rest with
      | '.' :: rest =>
          let (parts, rest) ← readKeyParts fuel rest
          some (part :: parts, rest)
      | rest => some ([part], rest)

def readKey (cs : List Char) : Option ((List String × String) × List Char) := do
  let (parts, rest) ← readKeyParts (cs.length + 1) cs
  let key ← parts.getLast?
  if parts.length < nestingLimit then some ((parts.dropLast, key), rest) else none

mutual

/-- A value with `depth` brackets around it; `fuel` bounds the nested calls. -/
def readValue : Nat → Nat → List Char → Option (Node × List Char)
  | 0, _, _ => none
  | fuel + 1, depth, cs =>
      match cs with
      | [] => none
      | c :: rest =>
          if c = '"' ∨ c = '\x27' then
            (readString cs).map fun (text, rest) => (.string text, rest)
          else if c = '[' then
            if depth + 1 < nestingLimit then do
              let (items, rest) ← readItems fuel (depth + 1) (skipSpace rest)
              some (.array items, rest)
            else none
          else if c = '\x7b' then
            if depth + 1 < nestingLimit then
              match skipBlanks rest with
              | '\x7d' :: rest => some (.inline [], rest)
              | rest => do
                  let (entries, rest) ← readPairs fuel (depth + 1) [] rest
                  some (.inline entries, rest)
            else none
          else if c = 't' then readWord "true" (.boolean true) cs
          else if c = 'f' then readWord "false" (.boolean false) cs
          else readNumber cs

def readItems : Nat → Nat → List Char → Option (List Node × List Char)
  | 0, _, _ => none
  | fuel + 1, depth, cs =>
      match cs with
      | ']' :: rest => some ([], rest)
      | cs => do
          let (item, rest) ← readValue fuel depth cs
          match skipSpace rest with
          | ',' :: rest =>
              let (items, rest) ← readItems fuel depth (skipSpace rest)
              some (item :: items, rest)
          | ']' :: rest => some ([item], rest)
          | _ => none

def readPairs : Nat → Nat → Entries → List Char → Option (Entries × List Char)
  | 0, _, _, _ => none
  | fuel + 1, depth, known, cs => do
      let ((path, key), rest) ← readKey cs
      let rest ← expect '=' rest
      let (value, rest) ← readValue fuel depth (skipBlanks rest)
      let known ← define path key value known
      match skipBlanks rest with
      | ',' :: rest => readPairs fuel depth known rest
      | '\x7d' :: rest => some (known, rest)
      | _ => none

end

def readAnyValue (cs : List Char) : Option (Node × List Char) :=
  readValue (2 * cs.length + 2) 0 cs

structure Progress where
  root : Entries
  current : List String

def readPair (progress : Progress) (cs : List Char) : Option (Progress × List Char) := do
  let ((path, key), rest) ← readKey cs
  let rest ← expect '=' rest
  let (value, rest) ← readAnyValue (skipBlanks rest)
  let rest ← endOfLine rest
  let root ← defineUnder progress.current path key value progress.root
  some ({ progress with root := root }, rest)

def readHeader (progress : Progress) (cs : List Char) : Option (Progress × List Char) := do
  let ((path, key), rest) ← readKey cs
  let rest ← endOfLine (← expect ']' rest)
  let root ← openTable path key progress.root
  some (⟨root, path ++ [key]⟩, rest)

def readElementHeader (progress : Progress) (cs : List Char) : Option (Progress × List Char) := do
  let ((path, key), rest) ← readKey cs
  let rest ← endOfLine (← expect ']' (← expect ']' rest))
  let root ← openElement path key progress.root
  some (⟨root, path ++ [key]⟩, rest)

def readLines : Nat → Progress → List Char → Option Entries
  | 0, _, _ => none
  | fuel + 1, progress, cs =>
      match skipBlanks cs with
      | [] => some progress.root
      | '[' :: '[' :: rest => do
          let (progress, rest) ← readElementHeader progress rest
          readLines fuel progress rest
      | '[' :: rest => do
          let (progress, rest) ← readHeader progress rest
          readLines fuel progress rest
      | c :: rest =>
          if c = '#' ∨ c = '\n' ∨ c = '\r' then do
            let rest ← endOfLine (c :: rest)
            readLines fuel progress rest
          else do
            let (progress, rest) ← readPair progress (c :: rest)
            readLines fuel progress rest

def read (text : String) : Option Entries :=
  let cs := match text.toList with
    | '\ufeff' :: rest => rest
    | cs => cs
  readLines (cs.length + 1) ⟨[], []⟩ cs

end StructuralTypes.Toml
