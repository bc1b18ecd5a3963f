import Mathlib.Data.List.Basic
import StructuralTypes.Proofs.Parts
import StructuralTypes.Ty.Display

/-!
A reader for printed types. It goes by one or two characters at a time: a bracket or a brace says
what follows, and after an opening parenthesis a name with a colon, or a parenthesis that closes at
once before an arrow, makes it a function. A union is a list of branches between bars, and what
stands in parentheses is one type, if no comma follows it, or a tuple. Here are also the texts that
it has to read, as lists of characters, and how it reads the words in them and the lists of types
with a name each.
-/

namespace StructuralTypes

def Text.isWordChar (c : Char) : Bool := c.isAlphanum || c == '_'

def Text.isWord (text : String) : Bool := text != "" && text.toList.all isWordChar

def Ty.reserved : List String := ["Number", "Text", "Logic", "Void", "never"]

def Parameter.bare (parameter : Parameter) : Bool :=
  Text.isWord parameter.name && parameter.default.isNone

/-- What a type has to be, here and in all its parts, to be known by its text. -/
def Ty.legible : Ty → Bool
  | .literal _ => false
  | .union branches => branches.length != 1
  | .resolved (.named name parameters) =>
      Text.isWord name && !reserved.contains name && parameters.all Parameter.bare
  | .resolved (.function parameters _) => parameters.all Parameter.bare
  | .resolved (.dictionary entries) => entries.all fun entry => Text.isWord entry.1
  | .resolved _ => true

abbrev LegibleTy := { ty : Ty // ty.everywhere Ty.legible = true }

namespace Printed

/-- Takes something off the front of a text. -/
abbrev Reader (α : Type) := List Char → Option (α × List Char)

def bar : List Char := [' ', '|', ' ']

def comma : List Char := [',', ' ']

def colon : List Char := [':', ' ']

def arrow : List Char := [')', ' ', '-', '>', ' ']

def word (cs : List Char) : String := String.ofList (cs.takeWhile Text.isWordChar)

def afterWord (cs : List Char) : List Char := cs.dropWhile Text.isWordChar

def separatedWithin {α : Type} (separator : List Char) (item : Reader α) : Nat → Reader (List α)
  | 0, _ => none
  | count + 1, cs => do
      let (first, rest) ← item cs
      match separator.isPrefixOf? rest with
      | none => some ([first], rest)
      | some rest =>
          let (others, rest) ← separatedWithin separator item count rest
          some (first :: others, rest)

def separated {α : Type} (separator : List Char) (item : Reader α) : Reader (List α) :=
  fun cs => separatedWithin separator item (cs.length + 1) cs

def closed {α : Type} (closing : List Char) (item : Reader α) : Reader α := fun cs => do
  let (found, rest) ← item cs
  let rest ← closing.isPrefixOf? rest
  some (found, rest)

section

variable (read : Reader Ty)

def field : Reader (String × Ty) := fun cs => do
  let rest ← colon.isPrefixOf? (afterWord cs)
  let (ty, rest) ← read rest
  some ((word cs, ty), rest)

def fields : Reader (List (String × Ty)) := separated comma (field read)

def toParameter (entry : String × Ty) : Parameter := ⟨entry.1, entry.2, none⟩

def ofWord (name : String) : Ty :=
  if name = "Number" then .number
  else if name = "Text" then .text
  else if name = "Logic" then .logic
  else if name = "Void" then .void
  else if name = "never" then .union []
  else .named name []

def named : Reader Ty := fun cs =>
  match afterWord cs with
  | '<' :: rest => do
      let (parameters, rest) ← closed ['>'] (fields read) rest
      some (.named (word cs) (parameters.map toParameter), rest)
  | rest => some (ofWord (word cs), rest)

/-- What stands in parentheses is a tuple, or one type with no comma behind it. -/
def groupOf : List Ty → Reader Ty
  | [single], ')' :: rest => some (single, rest)
  | elements, ',' :: ')' :: rest => some (.tuple elements, rest)
  | elements, ')' :: rest => some (.tuple elements, rest)
  | _, _ => none

def grouped : Reader Ty := fun cs => do
  let (elements, rest) ← separated comma read cs
  groupOf elements rest

def branch : Reader Ty
  | '[' :: cs => do
      let (element, rest) ← closed [']'] read cs
      some (.list element, rest)
  | '\x7b' :: '\x7d' :: cs => some (.resolved (.dictionary []), cs)
  | '\x7b' :: cs => do
      let (entries, rest) ← closed ['\x7d'] (fields read) cs
      some (.resolved (.dictionary entries), rest)
  | '(' :: ')' :: cs => some (.tuple [], cs)
  | '(' :: cs => grouped read cs
  | cs => named read cs

def unionOf : List Ty → Ty
  | [single] => single
  | branches => .union branches

def union : Reader Ty := fun cs => do
  let (branches, rest) ← separated bar (branch read) cs
  some (unionOf branches, rest)

def function : Reader Ty := fun cs => do
  let (parameters, rest) ← closed arrow (fields read) cs
  let (result, rest) ← read rest
  some (.function (parameters.map toParameter) result, rest)

def startsField (cs : List Char) : Bool := (afterWord cs).head? == some ':'

def type : Reader Ty
  | '(' :: ')' :: ' ' :: '-' :: '>' :: ' ' :: cs => do
      let (result, rest) ← read cs
      some (.function [] result, rest)
  | '(' :: cs => if startsField cs then function read cs else union read ('(' :: cs)
  | cs => union read cs

end

def within : Nat → Reader Ty
  | 0 => fun _ => none
  | height + 1 => type (within height)

/-! What is printed, as characters. -/

def text (a : Ty) : List Char := a.render.toList

def branchText (a : Ty) : List Char := (a.grouped a.render).toList

def fieldText (entry : String × Ty) : List Char := entry.1.toList ++ colon ++ text entry.2

theorem renderAll_eq (tys : List Ty) : Ty.renderAll tys = tys.map Ty.render := by
  induction tys with
  | nil => rfl
  | cons ty rest ih => rw [Ty.renderAll, ih, List.map_cons]

theorem renderBranches_eq (branches : List Ty) :
    Ty.renderBranches branches = branches.map fun branch => branch.grouped branch.render := by
  induction branches with
  | nil => rfl
  | cons branch rest ih => rw [Ty.renderBranches, ih, List.map_cons]

theorem renderEntries_eq (entries : List (String × Ty)) :
    (Ty.renderEntries entries).map String.toList = entries.map fieldText := by
  induction entries with
  | nil => rfl
  | cons entry rest ih =>
      rw [Ty.renderEntries, List.map_cons, ih, List.map_cons]
      simp [fieldText, colon, text]

theorem renderParameters_eq (entries : List (String × Ty)) :
    (Parameter.renderAll (entries.map toParameter)).map String.toList = entries.map fieldText := by
  induction entries with
  | nil => rfl
  | cons entry rest ih =>
      rw [List.map_cons, Parameter.renderAll, List.map_cons, ih, List.map_cons]
      simp [toParameter, Parameter.render, fieldText, colon, text]

theorem text_union {branches : List Ty} (some : branches ≠ []) :
    text (.union branches) = bar.intercalate (branches.map branchText) := by
  cases branches with
  | nil => exact absurd rfl some
  | cons first rest =>
      simp only [text, Ty.render, String.toList_intercalate, renderBranches_eq, List.map_map]
      rfl

theorem text_list (element : Ty) :
    text (.resolved (.list element)) = '[' :: (text element ++ [']']) := by
  simp [text, Ty.render, Shape.render]

theorem text_dictionary (entries : List (String × Ty)) :
    text (.resolved (.dictionary entries)) =
      '\x7b' :: (comma.intercalate (entries.map fieldText) ++ ['\x7d']) := by
  simp [text, Ty.render, Shape.render, renderEntries_eq, comma]

theorem text_single (element : Ty) :
    text (.resolved (.tuple [element])) = '(' :: (text element ++ [',', ')']) := by
  simp [text, Ty.render, Shape.render, Ty.renderAll]

theorem text_tuple {elements : List Ty} (several : elements.length ≠ 1) :
    text (.resolved (.tuple elements)) =
      '(' :: (comma.intercalate (elements.map text) ++ [')']) := by
  simp only [text, Ty.render, Shape.render]
  split
  · next single =>
      rw [renderAll_eq] at single
      have length := congrArg List.length single
      simp only [List.length_map, List.length_singleton] at length
      exact absurd length several
  · simp [renderAll_eq, comma, Function.comp_def]
    rfl

theorem text_named (name : String) {entries : List (String × Ty)} (some : entries ≠ []) :
    text (.resolved (.named name (entries.map toParameter))) =
      name.toList ++ '<' :: (comma.intercalate (entries.map fieldText) ++ ['>']) := by
  have printed := renderParameters_eq entries
  cases entries with
  | nil => exact absurd rfl some
  | cons entry rest =>
      rw [List.map_cons] at printed ⊢
      simp [text, Ty.render, Shape.render, printed, comma]

theorem text_function (entries : List (String × Ty)) (result : Ty) :
    text (.resolved (.function (entries.map toParameter) result)) =
      '(' :: (comma.intercalate (entries.map fieldText) ++ (arrow ++ text result)) := by
  simp [text, Ty.render, Shape.render, renderParameters_eq, comma, arrow]

def inParentheses : Ty → Bool
  | .union _ => true
  | .resolved (.function _ _) => true
  | _ => false

theorem branchText_of_open {a : Ty} (plain : inParentheses a = false) : branchText a = text a := by
  cases a with
  | union parts => cases plain
  | literal value => rfl
  | resolved shape => cases shape <;> first | rfl | cases plain

theorem branchText_of_grouped {a : Ty} (grouped : inParentheses a = true) :
    branchText a = '(' :: (text a ++ [')']) := by
  cases a with
  | union parts => simp [branchText, Ty.grouped, text]
  | literal value => cases grouped
  | resolved shape =>
      cases shape with
      | function ps result => simp [branchText, Ty.grouped, text]
      | _ => cases grouped

/-- A type whose text can stand between bars as it is: a word, or a text in brackets. -/
inductive Single : Ty → Prop where
  | word {a : Ty} (name : String) (isWord : Text.isWord name = true) (known : ofWord name = a)
      (printed : text a = name.toList) : Single a
  | named {name : String} {entries : List (String × Ty)} (isWord : Text.isWord name = true)
      (some : entries ≠ []) (words : ∀ entry ∈ entries, Text.isWord entry.1 = true) :
      Single (.resolved (.named name (entries.map toParameter)))
  | list {element : Ty} : Single (.resolved (.list element))
  | tuple {elements : List Ty} : Single (.resolved (.tuple elements))
  | dictionary {entries : List (String × Ty)}
      (words : ∀ entry ∈ entries, Text.isWord entry.1 = true) :
      Single (.resolved (.dictionary entries))

/-- The other two forms go on to the right as far as they can. -/
inductive Form : Ty → Prop where
  | single {a : Ty} (single : Single a) : Form a
  | function {entries : List (String × Ty)} {result : Ty}
      (words : ∀ entry ∈ entries, Text.isWord entry.1 = true) :
      Form (.resolved (.function (entries.map toParameter) result))
  | union {first second : Ty} {rest : List Ty} : Form (.union (first :: second :: rest))

theorem exists_entries {ps : List Parameter} (bare : ps.all Parameter.bare = true) :
    ∃ entries : List (String × Ty), ps = entries.map toParameter ∧
      ∀ entry ∈ entries, Text.isWord entry.1 = true := by
  induction ps with
  | nil => exact ⟨[], rfl, List.forall_mem_nil _⟩
  | cons p rest ih =>
      obtain ⟨name, ty, default⟩ := p
      simp only [List.all_cons, Parameter.bare, Bool.and_eq_true, Option.isNone_iff_eq_none] at bare
      obtain ⟨⟨isWord, rfl⟩, later⟩ := bare
      obtain ⟨entries, rfl, words⟩ := ih later
      exact ⟨(name, ty) :: entries, rfl, List.forall_mem_cons.mpr ⟨isWord, words⟩⟩

theorem ofWord_of_free {name : String} (free : name ∉ Ty.reserved) :
    ofWord name = .resolved (.named name []) := by
  simp only [Ty.reserved, List.mem_cons, List.not_mem_nil, or_false, not_or] at free
  simp only [ofWord, free, if_false, Ty.named]

theorem form_of_legible {a : Ty} (clear : a.legible = true) : Form a := by
  cases a with
  | literal value => cases clear
  | union branches =>
      match branches, clear with
      | [], _ => exact .single (.word "never" (by decide) rfl rfl)
      | first :: second :: rest, _ => exact .union
  | resolved shape =>
      cases shape with
      | number => exact .single (.word "Number" (by decide) rfl rfl)
      | text => exact .single (.word "Text" (by decide) rfl rfl)
      | logic => exact .single (.word "Logic" (by decide) rfl rfl)
      | void => exact .single (.word "Void" (by decide) rfl rfl)
      | named name ps =>
          simp only [Ty.legible, Bool.and_eq_true, Bool.not_eq_true', List.contains_eq_mem,
            decide_eq_false_iff_not] at clear
          obtain ⟨⟨isWord, free⟩, bare⟩ := clear
          obtain ⟨entries, rfl, words⟩ := exists_entries bare
          by_cases empty : entries = []
          · rw [empty]
            exact .single (.word name isWord (ofWord_of_free free) rfl)
          · exact .single (.named isWord empty words)
      | function ps result =>
          obtain ⟨entries, rfl, words⟩ := exists_entries clear
          exact .function words
      | list element => exact .single .list
      | tuple elements => exact .single .tuple
      | dictionary entries => exact .single (.dictionary (List.all_eq_true.mp clear))

/-! What may stand behind a printed type. -/

/-- The end, or a character that no type goes on with. -/
def Stops (rest : List Char) : Prop :=
  ∀ c tail, rest = c :: tail → c ∈ [',', ')', ']', '\x7d', '>']

def Ends (rest : List Char) : Prop := Stops rest ∨ ∃ tail, rest = bar ++ tail

theorem Stops.of_mem {c : Char} {tail : List Char} (member : c ∈ [',', ')', ']', '\x7d', '>']) :
    Stops (c :: tail) := by
  rintro _ _ ⟨⟩
  exact member

theorem Stops.between (tail : List Char) : Stops (comma ++ tail) := Stops.of_mem (by decide)

theorem Ends.between (tail : List Char) : Ends (bar ++ tail) := .inr ⟨tail, rfl⟩

/-- The reader takes the text of something off and leaves what follows. -/
def Reads {α : Type} (print : α → List Char) (follows : List Char → Prop) (read : Reader α)
    (x : α) : Prop :=
  ∀ rest, follows rest → read (print x ++ rest) = some (x, rest)

theorem isPrefixOf?_append (xs ys : List Char) : xs.isPrefixOf? (xs ++ ys) = some ys :=
  List.isPrefixOf?_eq_some_iff_append_eq.mpr rfl

section

variable {α : Type} {print : α → List Char} {follows : List Char → Prop} {item : Reader α}
  {separator : List Char}

theorem exists_behind_first (between : ∀ tail, follows (separator ++ tail)) (x : List Char)
    (others : List (List Char)) {rest : List Char} (follow : follows rest) :
    ∃ tail, separator.intercalate (x :: others) ++ rest = x ++ tail ∧ follows tail := by
  cases others with
  | nil => exact ⟨rest, by rw [List.intercalate_singleton], follow⟩
  | cons y more =>
      rw [List.intercalate_cons_cons, List.append_assoc, List.append_assoc]
      exact ⟨_, rfl, between _⟩

theorem separatedWithin_reads (between : ∀ tail, follows (separator ++ tail)) {xs : List α}
    (some : xs ≠ []) (each : ∀ x ∈ xs, Reads print follows item x) {count : Nat}
    (enough : xs.length ≤ count) {rest : List Char} (follow : follows rest)
    (last : separator.isPrefixOf? rest = none) :
    separatedWithin separator item count (separator.intercalate (xs.map print) ++ rest) =
      .some (xs, rest) := by
  induction xs generalizing count with
  | nil => exact absurd rfl some
  | cons x others ih =>
      obtain ⟨count, rfl⟩ : ∃ less, count = less + 1 := ⟨count - 1, by simp at enough; omega⟩
      obtain ⟨here, there⟩ := List.forall_mem_cons.mp each
      cases others with
      | nil =>
          rw [List.map_singleton, List.intercalate_singleton, separatedWithin, here rest follow]
          simp [last]
      | cons y more =>
          have tail := ih (List.cons_ne_nil _ _) there (Nat.le_of_succ_le_succ enough)
          rw [List.map_cons, List.map_cons, List.intercalate_cons_cons, List.append_assoc,
            List.append_assoc, separatedWithin, here _ (between _)]
          rw [List.map_cons] at tail
          simp [isPrefixOf?_append, tail]

theorem length_le_intercalate (some : separator ≠ []) (xs : List (List Char)) :
    xs.length ≤ (separator.intercalate xs).length + 1 := by
  have long := List.length_pos_iff.mpr some
  induction xs with
  | nil => simp
  | cons x others ih =>
      cases others with
      | nil => simp
      | cons y more =>
          rw [List.intercalate_cons_cons]
          simp only [List.length_append, List.length_cons] at ih ⊢
          omega

theorem separated_reads (between : ∀ tail, follows (separator ++ tail)) (long : separator ≠ [])
    {xs : List α} (some : xs ≠ []) (each : ∀ x ∈ xs, Reads print follows item x)
    {rest : List Char} (follow : follows rest) (last : separator.isPrefixOf? rest = none) :
    separated separator item (separator.intercalate (xs.map print) ++ rest) = .some (xs, rest) := by
  apply separatedWithin_reads between some each _ follow last
  have count := length_le_intercalate long (xs.map print)
  rw [List.length_map] at count
  rw [List.length_append]
  omega

theorem closed_reads {closing cs rest : List Char} {x : α}
    (found : item cs = some (x, closing ++ rest)) : closed closing item cs = some (x, rest) := by
  simp [closed, found, isPrefixOf?_append]

end

/-! Words. -/

def Breaks (rest : List Char) : Prop := ∀ c tail, rest = c :: tail → Text.isWordChar c = false

theorem Ends.breaks {rest : List Char} (ends : Ends rest) : Breaks rest := by
  rintro c tail rfl
  rcases ends with stops | ⟨_, same⟩
  · have member := stops c tail rfl
    simp only [List.mem_cons, List.not_mem_nil, or_false] at member
    rcases member with rfl | rfl | rfl | rfl | rfl <;> rfl
  · cases same
    rfl

theorem word_append {name : String} (isWord : Text.isWord name = true) {rest : List Char}
    (breaks : Breaks rest) :
    word (name.toList ++ rest) = name ∧ afterWord (name.toList ++ rest) = rest := by
  simp only [Text.isWord, Bool.and_eq_true, List.all_eq_true] at isWord
  have here : rest.takeWhile Text.isWordChar = [] ∧ rest.dropWhile Text.isWordChar = rest := by
    cases rest with
    | nil => exact ⟨rfl, rfl⟩
    | cons c tail => simp [breaks c tail rfl]
  rw [word, afterWord, List.takeWhile_append_of_pos isWord.2, List.dropWhile_append_of_pos isWord.2,
    here.1, here.2, List.append_nil, String.ofList_toList]
  exact ⟨rfl, rfl⟩

theorem exists_wordChar {name : String} (isWord : Text.isWord name = true) :
    ∃ c tail, name.toList = c :: tail ∧ Text.isWordChar c = true := by
  simp only [Text.isWord, Bool.and_eq_true, List.all_eq_true, bne_iff_ne, ne_eq] at isWord
  cases letters : name.toList with
  | nil => exact absurd (String.toList_eq_nil_iff.mp letters) isWord.1
  | cons c tail => exact ⟨c, tail, rfl, isWord.2 c (letters ▸ List.mem_cons_self)⟩

section

variable {read : Reader Ty}

theorem field_reads {entry : String × Ty} (isWord : Text.isWord entry.1 = true)
    (inner : Reads text Stops read entry.2) : Reads fieldText Stops (field read) entry := by
  intro rest stops
  have breaks : Breaks (colon ++ (text entry.2 ++ rest)) := by
    rintro _ _ ⟨⟩
    rfl
  obtain ⟨name, after⟩ := word_append isWord breaks
  rw [fieldText, List.append_assoc, List.append_assoc, field, after, name]
  simp [isPrefixOf?_append, inner rest stops]

theorem fields_reads {entries : List (String × Ty)} (some : entries ≠ [])
    (words : ∀ entry ∈ entries, Text.isWord entry.1 = true)
    (inner : ∀ entry ∈ entries, Reads text Stops read entry.2) {rest : List Char}
    (stops : Stops rest) (last : comma.isPrefixOf? rest = none) :
    fields read (comma.intercalate (entries.map fieldText) ++ rest) = .some (entries, rest) := by
  apply separated_reads Stops.between (List.cons_ne_nil _ _) some _ stops last
  intro entry member
  exact field_reads (words entry member) (inner entry member)

theorem named_word {name : String} (isWord : Text.isWord name = true) {rest : List Char}
    (ends : Ends rest) : named read (name.toList ++ rest) = some (ofWord name, rest) := by
  obtain ⟨same, after⟩ := word_append isWord ends.breaks
  rw [named, after, same]
  split
  · next tail =>
      rcases ends with stops | ⟨_, bars⟩
      · exact absurd (stops '<' tail rfl) (by decide)
      · cases bars
  · rfl

theorem named_reads {name : String} {entries : List (String × Ty)}
    (isWord : Text.isWord name = true) (some : entries ≠ [])
    (words : ∀ entry ∈ entries, Text.isWord entry.1 = true)
    (inner : ∀ entry ∈ entries, Reads text Stops read entry.2) :
    Reads text Ends (named read) (.resolved (.named name (entries.map toParameter))) := by
  intro rest _
  have breaks : ∀ tail, Breaks ('<' :: tail) := by
    rintro _ _ _ ⟨⟩
    rfl
  have found : closed ['>'] (fields read) (comma.intercalate (entries.map fieldText) ++
      (['>'] ++ rest)) = .some (entries, rest) :=
    closed_reads (fields_reads some words inner (Stops.of_mem (by decide)) rfl)
  rw [text_named name some, List.append_assoc, List.cons_append, List.append_assoc]
  obtain ⟨same, after⟩ := word_append isWord (breaks _)
  rw [named, after, same]
  simp only [found, Option.bind_eq_bind, Option.bind_some]
  rfl

end

end Printed

end StructuralTypes
