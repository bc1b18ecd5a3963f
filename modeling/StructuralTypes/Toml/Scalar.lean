import StructuralTypes.Decimal.Nearest
import StructuralTypes.Toml.Basic

/-!
Texts, numbers and times of a TOML document, each read from the front of the
characters that are left.
-/

namespace StructuralTypes.Toml

def isBlank (c : Char) : Bool := c = ' ' || c = '\t'

def skipBlanks (cs : List Char) : List Char := cs.dropWhile isBlank

def isPlain (c : Char) : Bool := c = '\t' || (' ' ≤ c && c ≠ '\x7f')

def lineBreak? : List Char → Option (List Char)
  | '\n' :: rest => some rest
  | '\r' :: '\n' :: rest => some rest
  | _ => none

def digit? (base : Nat) (c : Char) : Option Nat :=
  let value? :=
    if '0' ≤ c && c ≤ '9' then some (c.toNat - '0'.toNat)
    else if 'a' ≤ c && c ≤ 'f' then some (c.toNat - 'a'.toNat + 10)
    else if 'A' ≤ c && c ≤ 'F' then some (c.toNat - 'A'.toNat + 10)
    else none
  value?.filter (· < base)

def ofDigits (base : Nat) (digits : List Nat) : Nat :=
  digits.foldl (fun value digit => value * base + digit) 0

def scalar? (digits : List Char) : Option Char := do
  let code := ofDigits 16 (← digits.mapM (digit? 16))
  if code < 0xd800 ∨ (0xe000 ≤ code ∧ code < 0x110000) then some (Char.ofNat code) else none

def shortEscape? (c : Char) : Option Char :=
  if c = 'b' then some '\x08'
  else if c = 't' then some '\t'
  else if c = 'n' then some '\n'
  else if c = 'f' then some '\x0c'
  else if c = 'r' then some '\r'
  else if c = '"' then some '"'
  else if c = '\\' then some '\\'
  else none

def prepend (c : Char) (read : Option (List Char × List Char)) :
    Option (List Char × List Char) :=
  read.map fun (text, rest) => (c :: text, rest)

def readBasic : List Char → Option (List Char × List Char)
  | [] => none
  | '"' :: rest => some ([], rest)
  | '\\' :: 'u' :: a :: b :: c :: d :: rest => do
      prepend (← scalar? [a, b, c, d]) (readBasic rest)
  | '\\' :: 'U' :: a :: b :: c :: d :: e :: f :: g :: h :: rest => do
      prepend (← scalar? [a, b, c, d, e, f, g, h]) (readBasic rest)
  | '\\' :: c :: rest => do
      prepend (← shortEscape? c) (readBasic rest)
  | c :: rest => if isPlain c && c ≠ '\\' then prepend c (readBasic rest) else none

def readLiteral : List Char → Option (List Char × List Char)
  | [] => none
  | '\x27' :: rest => some ([], rest)
  | c :: rest => if isPlain c then prepend c (readLiteral rest) else none

/-- The end of a text in triple quotes: up to two quotes before it belong to the text. -/
def closing (quote : Char) : List Char → List Char × List Char
  | a :: b :: rest =>
      if a = quote then
        if b = quote then ([quote, quote], rest) else ([quote], b :: rest)
      else ([], a :: b :: rest)
  | [a] => if a = quote then ([quote], []) else ([], [a])
  | [] => ([], [])

/-- Where a text over several lines is: in the text, behind a backslash that still
needs its line break, or in the blank after such a break. -/
inductive Place where
  | text
  | backslash
  | blank
  deriving DecidableEq

def readLongBasic : Place → List Char → Option (List Char × List Char)
  | _, [] => none
  | place, '"' :: '"' :: '"' :: rest =>
      if place = .backslash then none else some (closing '"' rest)
  | place, '\\' :: 'u' :: a :: b :: c :: d :: rest => do
      if place = .backslash then none
      else prepend (← scalar? [a, b, c, d]) (readLongBasic .text rest)
  | place, '\\' :: 'U' :: a :: b :: c :: d :: e :: f :: g :: h :: rest => do
      if place = .backslash then none
      else prepend (← scalar? [a, b, c, d, e, f, g, h]) (readLongBasic .text rest)
  | place, '\\' :: '\r' :: '\n' :: rest =>
      if place = .backslash then none else readLongBasic .blank rest
  | place, '\\' :: c :: rest =>
      if place = .backslash then none
      else if c = '\n' then readLongBasic .blank rest
      else if isBlank c then readLongBasic .backslash rest
      else do prepend (← shortEscape? c) (readLongBasic .text rest)
  | place, '\r' :: '\n' :: rest =>
      if place = .text then prepend '\n' (readLongBasic .text rest)
      else readLongBasic .blank rest
  | place, c :: rest =>
      if c = '\n' then
        if place = .text then prepend '\n' (readLongBasic .text rest)
        else readLongBasic .blank rest
      else if isBlank c ∧ place ≠ .text then readLongBasic place rest
      else if place ≠ .backslash ∧ isPlain c ∧ c ≠ '\\' then
        prepend c (readLongBasic .text rest)
      else none

def readLongLiteral : List Char → Option (List Char × List Char)
  | [] => none
  | '\x27' :: '\x27' :: '\x27' :: rest => some (closing '\x27' rest)
  | '\r' :: '\n' :: rest => prepend '\n' (readLongLiteral rest)
  | c :: rest => if c = '\n' ∨ isPlain c then prepend c (readLongLiteral rest) else none

def skipFirstBreak (cs : List Char) : List Char := (lineBreak? cs).getD cs

def readString : List Char → Option (String × List Char)
  | '"' :: '"' :: '"' :: rest =>
      (readLongBasic .text (skipFirstBreak rest)).map fun (text, rest) => (.ofList text, rest)
  | '\x27' :: '\x27' :: '\x27' :: rest =>
      (readLongLiteral (skipFirstBreak rest)).map fun (text, rest) => (.ofList text, rest)
  | '"' :: rest => (readBasic rest).map fun (text, rest) => (.ofList text, rest)
  | '\x27' :: rest => (readLiteral rest).map fun (text, rest) => (.ofList text, rest)
  | _ => none

def moreDigits (base : Nat) : List Char → List Nat × List Char
  | [] => ([], [])
  | '_' :: c :: rest =>
      match digit? base c with
      | some digit =>
          let (digits, rest) := moreDigits base rest
          (digit :: digits, rest)
      | none => ([], '_' :: c :: rest)
  | c :: rest =>
      match digit? base c with
      | some digit =>
          let (digits, rest) := moreDigits base rest
          (digit :: digits, rest)
      | none => ([], c :: rest)

def digitRun (base : Nat) : List Char → Option (List Nat × List Char)
  | [] => none
  | c :: rest => do
      let first ← digit? base c
      let (digits, rest) := moreDigits base rest
      some (first :: digits, rest)

/-- The whole part of a decimal number: a zero stands alone. -/
def wholePart : List Char → Option (List Nat × List Char)
  | '0' :: rest => some ([0], rest)
  | cs => digitRun 10 cs

def readSign : List Char → Bool × List Char
  | '-' :: rest => (true, rest)
  | '+' :: rest => (false, rest)
  | cs => (false, cs)

def readFraction : List Char → Option (List Nat × List Char)
  | '.' :: rest => digitRun 10 rest
  | _ => none

def readExponent : List Char → Option (Int × List Char)
  | c :: rest =>
      if c = 'e' ∨ c = 'E' then do
        let (negative, rest) := readSign rest
        let (digits, rest) ← digitRun 10 rest
        let power : Int := ofDigits 10 digits
        some (if negative then -power else power, rest)
      else none
  | [] => none

def integer? (value : Int) : Option Node :=
  if -0x8000000000000000 ≤ value ∧ value < 0x8000000000000000 then some (.integer value) else none

def readBased (base : Nat) (cs : List Char) : Option (Node × List Char) := do
  let (digits, rest) ← digitRun base cs
  some (← integer? (ofDigits base digits), rest)

def overflows (digits : List Nat) (power : Int) : Bool :=
  (Decimal.Scientific.nearest? ⟨ofDigits 10 digits, power⟩).isNone

def before (cs rest : List Char) : String := .ofList (cs.take (cs.length - rest.length))

/-- A decimal number is a float if it has a fraction or an exponent; a float beyond the
range is refused, unless it is negative. -/
def readDecimal (cs : List Char) : Option (Node × List Char) := do
  let (negative, start) := readSign cs
  let (whole, rest) ← wholePart start
  let fraction := readFraction rest
  let (decimals, afterFraction) := fraction.getD ([], rest)
  let exponent := readExponent afterFraction
  let (power, afterExponent) := exponent.getD (0, afterFraction)
  if fraction.isNone && exponent.isNone then
    let size : Int := ofDigits 10 whole
    some (← integer? (if negative then -size else size), rest)
  else if !negative && overflows (whole ++ decimals) (power - decimals.length) then none
  else some (.float (before cs afterExponent), afterExponent)

def readWord (word : String) (value : Node) (cs : List Char) : Option (Node × List Char) :=
  if word.toList.isPrefixOf cs then some (value, cs.drop word.length) else none

def readSpecial (cs : List Char) : Option (Node × List Char) :=
  let (_, rest) := readSign cs
  (readWord "inf" (.float "inf") rest).or (readWord "nan" (.float "nan") rest)

def fixedDigits (count low high : Nat) (cs : List Char) : Option (Nat × List Char) := do
  let digits ← (cs.take count).mapM (digit? 10)
  let value := ofDigits 10 digits
  if digits.length = count ∧ low ≤ value ∧ value ≤ high then some (value, cs.drop count) else none

def expect (c : Char) : List Char → Option (List Char)
  | found :: rest => if found = c then some rest else none
  | [] => none

def daysIn (year month : Nat) : Nat :=
  if month = 2 then
    if year % 4 = 0 ∧ (year % 100 ≠ 0 ∨ year % 400 = 0) then 29 else 28
  else if month = 4 ∨ month = 6 ∨ month = 9 ∨ month = 11 then 30
  else 31

def skipDate (cs : List Char) : Option (List Char) := do
  let (year, cs) ← fixedDigits 4 0 9999 cs
  let (month, cs) ← fixedDigits 2 1 12 (← expect '-' cs)
  let (_, cs) ← fixedDigits 2 1 (daysIn year month) (← expect '-' cs)
  some cs

def skipSecondFraction (cs : List Char) : List Char :=
  match cs with
  | '.' :: rest =>
      match rest.dropWhile (fun c => (digit? 10 c).isSome) with
      | after => if after.length < rest.length then after else cs
  | _ => cs

def skipTime (cs : List Char) : Option (List Char) := do
  let (_, cs) ← fixedDigits 2 0 23 cs
  let (_, cs) ← fixedDigits 2 0 59 (← expect ':' cs)
  let (_, cs) ← fixedDigits 2 0 60 (← expect ':' cs)
  some (skipSecondFraction cs)

def skipOffset (cs : List Char) : List Char :=
  match cs with
  | c :: rest =>
      if c = 'Z' ∨ c = 'z' then rest
      else if c = '+' ∨ c = '-' then
        let offset := do
          let (_, rest) ← fixedDigits 2 0 23 rest
          let (_, rest) ← fixedDigits 2 0 59 (← expect ':' rest)
          some rest
        offset.getD cs
      else cs
  | [] => []

def skipDateTime (cs : List Char) : Option (List Char) := do
  let cs ← skipDate cs
  match cs with
  | c :: rest =>
      if c = 'T' ∨ c = 't' ∨ c = ' ' then
        match skipTime rest with
        | some rest => some (skipOffset rest)
        | none => some cs
      else some cs
  | [] => some []

def readTime (cs : List Char) : Option (Node × List Char) :=
  ((skipDateTime cs).or (skipTime cs)).map fun rest => (.time (before cs rest), rest)

def readNumber (cs : List Char) : Option (Node × List Char) :=
  match cs with
  | '0' :: 'x' :: rest => readBased 16 rest
  | '0' :: 'o' :: rest => readBased 8 rest
  | '0' :: 'b' :: rest => readBased 2 rest
  | cs => (readTime cs).or ((readDecimal cs).or (readSpecial cs))

end StructuralTypes.Toml
