import StructuralTypes.Proofs.Printed

/-!
Printed types can be read back. How a text begins says whether it is a function, and all else is a
union, or one branch, which is read up to a bar or to what no type goes on with. A branch that is
itself a union or a function stands in parentheses, so each text falls apart in one way only. Two
types with one text are then one type, as long as they hold no literal and no default, which print
as the value alone, and no union of one branch, which prints as the branch.
-/

namespace StructuralTypes

namespace Printed

theorem Ends.ne_colon {rest tail : List Char} (ends : Ends rest) : rest ≠ ':' :: tail := by
  rintro rfl
  rcases ends with stops | ⟨_, bars⟩
  · exact absurd (stops ':' tail rfl) (by decide)
  · cases bars

/-- What may come right after an opening parenthesis that does not open a function. -/
structure Opens (cs : List Char) : Prop where
  full : ∀ tail, cs ≠ ')' :: tail
  plain : startsField cs = false

theorem opens_char {c : Char} (other : Text.isWordChar c = false) (left : c ≠ ')') (right : c ≠ ':')
    (tail : List Char) : Opens (c :: tail) := by
  constructor
  · rintro _ ⟨⟩
    exact left rfl
  · simp [startsField, afterWord, other, right]

theorem opens_word {name : String} (isWord : Text.isWord name = true) {rest : List Char}
    (breaks : Breaks rest) (colon : ∀ tail, rest ≠ ':' :: tail) : Opens (name.toList ++ rest) := by
  constructor
  · obtain ⟨c, letters, same, here⟩ := exists_wordChar isWord
    rintro tail closed
    rw [same] at closed
    cases closed
    cases here
  · rw [startsField, (word_append isWord breaks).2]
    cases rest with
    | nil => rfl
    | cons c tail =>
        have other : c ≠ ':' := fun same => colon tail (same ▸ rfl)
        simp [other]

theorem exists_text_tuple (elements : List Ty) :
    ∃ cs, text (.resolved (.tuple elements)) = '(' :: cs := by
  by_cases single : elements.length = 1
  · obtain ⟨element, rfl⟩ := List.length_eq_one_iff.mp single
    exact ⟨_, text_single element⟩
  · exact ⟨_, text_tuple single⟩

theorem opens_single {a : Ty} (single : Single a) {rest : List Char} (ends : Ends rest) :
    Opens (text a ++ rest) := by
  cases single with
  | word name isWord known printed =>
      rw [printed]
      exact opens_word isWord ends.breaks fun _ => ends.ne_colon
  | named isWord some words =>
      rw [text_named _ some, List.append_assoc]
      apply opens_word isWord
      · rintro _ _ ⟨⟩
        rfl
      · rintro _ ⟨⟩
  | list =>
      rw [text_list]
      exact opens_char rfl (by decide) (by decide) _
  | @tuple elements =>
      obtain ⟨cs, printed⟩ := exists_text_tuple elements
      rw [printed]
      exact opens_char rfl (by decide) (by decide) _
  | dictionary words =>
      rw [text_dictionary]
      exact opens_char rfl (by decide) (by decide) _

theorem opens_branch {a : Ty} (clear : a.legible = true) {rest : List Char} (ends : Ends rest) :
    Opens (branchText a ++ rest) := by
  by_cases grouped : inParentheses a = true
  · rw [branchText_of_grouped grouped]
    exact opens_char rfl (by decide) (by decide) _
  · rw [branchText_of_open (Bool.eq_false_iff.mpr grouped)]
    cases form_of_legible clear with
    | single single => exact opens_single single ends
    | function => exact absurd rfl grouped
    | union => exact absurd rfl grouped

theorem opens_text {a : Ty} (clear : a.everywhere Ty.legible = true) {rest : List Char}
    (stops : Stops rest) : Opens (text a ++ rest) := by
  obtain ⟨here, parts⟩ := (Ty.everywhere_iff a).mp clear
  cases form_of_legible here with
  | single single => exact opens_single single (.inl stops)
  | function words =>
      rw [text_function]
      exact opens_char rfl (by decide) (by decide) _
  | @union first second others =>
      have legible := ((Ty.everywhere_iff first).mp (parts first List.mem_cons_self)).1
      obtain ⟨tail, same, ends⟩ := exists_behind_first Ends.between (branchText first)
        ((second :: others).map branchText) (.inl stops)
      rw [text_union (List.cons_ne_nil _ _), List.map_cons, same]
      exact opens_branch legible ends

theorem opens_types {elements : List Ty} (some : elements ≠ [])
    (clear : ∀ element ∈ elements, element.everywhere Ty.legible = true) {rest : List Char}
    (stops : Stops rest) : Opens (comma.intercalate (elements.map text) ++ rest) := by
  obtain ⟨first, others, rfl⟩ := List.exists_cons_of_ne_nil some
  obtain ⟨tail, same, behind⟩ := exists_behind_first Stops.between (text first) (others.map text)
    stops
  rw [List.map_cons, same]
  exact opens_text (clear first List.mem_cons_self) behind

theorem starts_fields {entries : List (String × Ty)} (some : entries ≠ [])
    (words : ∀ entry ∈ entries, Text.isWord entry.1 = true) (rest : List Char) :
    (∃ c tail, comma.intercalate (entries.map fieldText) ++ rest = c :: tail ∧
      Text.isWordChar c = true) ∧
    startsField (comma.intercalate (entries.map fieldText) ++ rest) = true := by
  obtain ⟨first, others, rfl⟩ := List.exists_cons_of_ne_nil some
  have isWord := words first List.mem_cons_self
  obtain ⟨tail, same, -⟩ := @exists_behind_first (fun _ => True) comma (fun _ => trivial)
    (fieldText first) (others.map fieldText) rest trivial
  rw [List.map_cons, same, fieldText, List.append_assoc, List.append_assoc]
  constructor
  · obtain ⟨c, letters, same, here⟩ := exists_wordChar isWord
    exact ⟨c, _, by rw [same, List.cons_append], here⟩
  · have breaks : Breaks (colon ++ (text first.2 ++ tail)) := by
      rintro _ _ ⟨⟩
      rfl
    rw [startsField, (word_append isWord breaks).2]
    rfl

section

variable {read : Reader Ty}

theorem branch_of_word {name : String} (isWord : Text.isWord name = true) (rest : List Char) :
    branch read (name.toList ++ rest) = named read (name.toList ++ rest) := by
  obtain ⟨c, tail, letters, here⟩ := exists_wordChar isWord
  rw [letters, List.cons_append, branch]
  all_goals
    intro _ same
    cases (List.cons.inj same).1
    cases here

theorem branch_of_types {elements : List Ty} (some : elements ≠ [])
    (clear : ∀ element ∈ elements, element.everywhere Ty.legible = true)
    (inner : ∀ element ∈ elements, Reads text Stops read element) {rest : List Char}
    (stops : Stops rest) (last : comma.isPrefixOf? rest = none) :
    branch read ('(' :: (comma.intercalate (elements.map text) ++ rest)) =
      groupOf elements rest := by
  have found : separated comma read (comma.intercalate (elements.map text) ++ rest) =
      .some (elements, rest) :=
    separated_reads Stops.between (List.cons_ne_nil _ _) some inner stops last
  rw [branch, grouped, found]
  · rfl
  · exact (opens_types some clear stops).full

theorem branch_grouped {a : Ty} (clear : a.everywhere Ty.legible = true)
    (inner : Reads text Stops read a) (rest : List Char) :
    branch read ('(' :: (text a ++ ([')'] ++ rest))) = some (a, rest) := by
  have stops : Stops (')' :: rest) := Stops.of_mem (by decide)
  have found := branch_of_types (List.cons_ne_nil a []) (by simpa using clear)
    (by simpa using inner) stops rfl
  rwa [List.map_singleton, List.intercalate_singleton] at found

theorem exists_closing {elements : List Ty} (some : elements ≠ []) (rest : List Char) :
    ∃ closing, text (.resolved (.tuple elements)) ++ rest =
        '(' :: (comma.intercalate (elements.map text) ++ closing) ∧
      Stops closing ∧ comma.isPrefixOf? closing = none ∧
      groupOf elements closing = .some (.resolved (.tuple elements), rest) := by
  match elements with
  | [] => exact absurd rfl some
  | [single] =>
      rw [text_single, List.map_singleton, List.intercalate_singleton, List.cons_append,
        List.append_assoc]
      exact ⟨_, rfl, Stops.of_mem (by decide), rfl, rfl⟩
  | first :: second :: others =>
      rw [text_tuple (by simp), List.cons_append, List.append_assoc]
      exact ⟨_, rfl, Stops.of_mem (by decide), rfl, rfl⟩

theorem branch_tuple {elements : List Ty}
    (clear : ∀ element ∈ elements, element.everywhere Ty.legible = true)
    (inner : ∀ element ∈ elements, Reads text Stops read element) :
    Reads text Ends (branch read) (.resolved (.tuple elements)) := by
  intro rest _
  by_cases empty : elements = []
  · rw [empty]
    rfl
  · obtain ⟨closing, same, stops, last, whole⟩ := exists_closing empty rest
    rw [same, branch_of_types empty clear inner stops last, whole]

theorem branch_list {element : Ty} (inner : Reads text Stops read element) :
    Reads text Ends (branch read) (.resolved (.list element)) := by
  intro rest _
  have found : closed [']'] read (text element ++ ([']'] ++ rest)) = some (element, rest) :=
    closed_reads (inner _ (Stops.of_mem (by decide)))
  rw [text_list, List.cons_append, List.append_assoc, branch, found]
  rfl

theorem branch_dictionary {entries : List (String × Ty)}
    (words : ∀ entry ∈ entries, Text.isWord entry.1 = true)
    (inner : ∀ entry ∈ entries, Reads text Stops read entry.2) :
    Reads text Ends (branch read) (.resolved (.dictionary entries)) := by
  intro rest _
  rw [text_dictionary, List.cons_append, List.append_assoc]
  by_cases empty : entries = []
  · rw [empty]
    rfl
  · have found : closed ['\x7d'] (fields read) (comma.intercalate (entries.map fieldText) ++
        (['\x7d'] ++ rest)) = some (entries, rest) :=
      closed_reads (fields_reads empty words inner (Stops.of_mem (by decide)) rfl)
    rw [branch, found]
    · rfl
    · obtain ⟨⟨c, tail, letters, here⟩, -⟩ := starts_fields empty words (['\x7d'] ++ rest)
      rw [letters]
      rintro _ ⟨⟩
      cases here

theorem single_reads {a : Ty} (single : Single a)
    (clear : ∀ part ∈ a.parts, part.everywhere Ty.legible = true)
    (inner : ∀ part ∈ a.parts, Reads text Stops read part) :
    Reads text Ends (branch read) a := by
  cases single with
  | word name isWord known printed =>
      intro rest ends
      rw [printed, branch_of_word isWord, named_word isWord ends, known]
  | @named name entries isWord some words =>
      have each : ∀ entry ∈ entries, Reads text Stops read entry.2 := by
        intro entry member
        apply inner
        simp only [Ty.parts, Shape.parts, List.map_map]
        exact List.mem_map_of_mem member
      intro rest ends
      have found := named_reads isWord some words each rest ends
      rw [text_named name some, List.append_assoc] at found ⊢
      rw [branch_of_word isWord, found]
  | list => exact branch_list (inner _ List.mem_cons_self)
  | tuple => exact branch_tuple clear inner
  | dictionary words =>
      exact branch_dictionary words fun entry member => inner _ (List.mem_map_of_mem member)

theorem branch_reads {a : Ty} (clear : a.everywhere Ty.legible = true)
    (whole : Reads text Stops read a) (inner : ∀ part ∈ a.parts, Reads text Stops read part) :
    Reads branchText Ends (branch read) a := by
  obtain ⟨here, parts⟩ := (Ty.everywhere_iff a).mp clear
  intro rest ends
  by_cases grouped : inParentheses a = true
  · rw [branchText_of_grouped grouped, List.cons_append, List.append_assoc]
    exact branch_grouped clear whole rest
  · rw [branchText_of_open (Bool.eq_false_iff.mpr grouped)]
    cases form_of_legible here with
    | single single => exact single_reads single parts inner rest ends
    | function => exact absurd rfl grouped
    | union => exact absurd rfl grouped

end

structure Plain (cs : List Char) : Prop where
  fields : ∀ tail, cs = '(' :: tail → startsField tail = false
  arrow : ∀ tail, cs ≠ '(' :: (arrow ++ tail)

theorem Opens.parenthesis {cs : List Char} (opens : Opens cs) : Plain ('(' :: cs) := by
  constructor
  · rintro _ ⟨⟩
    exact opens.plain
  · intro tail same
    exact opens.full _ (List.cons.inj same).2

theorem plain_char {c : Char} (other : c ≠ '(') (tail : List Char) : Plain (c :: tail) := by
  constructor
  · rintro _ ⟨⟩
    exact absurd rfl other
  · rintro _ ⟨⟩
    exact other rfl

theorem plain_word {name : String} (isWord : Text.isWord name = true) (rest : List Char) :
    Plain (name.toList ++ rest) := by
  obtain ⟨c, tail, letters, here⟩ := exists_wordChar isWord
  rw [letters]
  apply plain_char
  rintro rfl
  cases here

theorem plain_unit {rest : List Char} (ends : Ends rest) : Plain ('(' :: ')' :: rest) := by
  constructor
  · rintro _ ⟨⟩
    rfl
  · rintro _ ⟨⟩
    rcases ends with stops | ⟨_, bars⟩
    · exact absurd (stops _ _ rfl) (by decide)
    · cases bars

theorem plain_single {a : Ty} (single : Single a)
    (clear : ∀ part ∈ a.parts, part.everywhere Ty.legible = true) {rest : List Char}
    (ends : Ends rest) : Plain (text a ++ rest) := by
  cases single with
  | word name isWord known printed =>
      rw [printed]
      exact plain_word isWord rest
  | named isWord some words =>
      rw [text_named _ some, List.append_assoc]
      exact plain_word isWord _
  | list =>
      rw [text_list]
      exact plain_char (by decide) _
  | @tuple elements =>
      by_cases empty : elements = []
      · rw [empty]
        exact plain_unit ends
      · obtain ⟨closing, same, stops, -⟩ := exists_closing empty rest
        rw [same]
        exact (opens_types empty clear stops).parenthesis
  | dictionary words =>
      rw [text_dictionary]
      exact plain_char (by decide) _

theorem plain_branch {a : Ty} (clear : a.everywhere Ty.legible = true) {rest : List Char}
    (ends : Ends rest) : Plain (branchText a ++ rest) := by
  obtain ⟨here, parts⟩ := (Ty.everywhere_iff a).mp clear
  by_cases grouped : inParentheses a = true
  · rw [branchText_of_grouped grouped, List.cons_append, List.append_assoc]
    exact (opens_text clear (Stops.of_mem (by decide))).parenthesis
  · rw [branchText_of_open (Bool.eq_false_iff.mpr grouped)]
    cases form_of_legible here with
    | single single => exact plain_single single parts ends
    | function => exact absurd rfl grouped
    | union => exact absurd rfl grouped

section

variable {read : Reader Ty}

theorem Plain.type_eq {cs : List Char} (plain : Plain cs) : type read cs = union read cs := by
  rw [type.eq_def]
  split
  · exact absurd rfl (plain.arrow _)
  · rw [plain.fields _ rfl]
    rfl
  · rfl

theorem bar_of_stops {rest : List Char} (stops : Stops rest) : bar.isPrefixOf? rest = none := by
  cases rest with
  | nil => rfl
  | cons c tail =>
      have other : c ≠ ' ' := by
        rintro rfl
        exact absurd (stops _ _ rfl) (by decide)
      simp [bar, List.isPrefixOf?, other.symm]

theorem type_of_branches {print : Ty → List Char} {branches : List Ty} (some : branches ≠ [])
    (plain : ∀ branch ∈ branches, ∀ rest, Ends rest → Plain (print branch ++ rest))
    (each : ∀ a ∈ branches, Reads print Ends (branch read) a) {rest : List Char}
    (stops : Stops rest) :
    type read (bar.intercalate (branches.map print) ++ rest) =
      .some (unionOf branches, rest) := by
  have begins : Plain (bar.intercalate (branches.map print) ++ rest) := by
    obtain ⟨first, others, rfl⟩ := List.exists_cons_of_ne_nil some
    obtain ⟨tail, same, ends⟩ := exists_behind_first Ends.between (print first) (others.map print)
      (.inl stops)
    rw [List.map_cons, same]
    exact plain first List.mem_cons_self tail ends
  have found : separated bar (branch read) (bar.intercalate (branches.map print) ++ rest) =
      .some (branches, rest) :=
    separated_reads Ends.between (List.cons_ne_nil _ _) some each (.inl stops)
      (bar_of_stops stops)
  rw [begins.type_eq, union, found]
  rfl

theorem type_function {entries : List (String × Ty)} {result : Ty}
    (words : ∀ entry ∈ entries, Text.isWord entry.1 = true)
    (inner : ∀ entry ∈ entries, Reads text Stops read entry.2)
    (last : Reads text Stops read result) :
    Reads text Stops (type read) (.resolved (.function (entries.map toParameter) result)) := by
  intro rest stops
  rw [text_function, List.cons_append, List.append_assoc, List.append_assoc]
  by_cases empty : entries = []
  · rw [empty]
    simp only [List.map_nil, List.intercalate_nil, List.nil_append, arrow, List.cons_append, type,
      last rest stops]
    rfl
  · have found : closed arrow (fields read) (comma.intercalate (entries.map fieldText) ++
        (arrow ++ (text result ++ rest))) = some (entries, text result ++ rest) :=
      closed_reads (fields_reads empty words inner (Stops.of_mem (by decide)) rfl)
    obtain ⟨⟨c, tail, letters, here⟩, starts⟩ :=
      starts_fields empty words (arrow ++ (text result ++ rest))
    -- the first name leaves only the second of the patterns for an opening parenthesis
    rw [type, starts, if_pos rfl, function, found]
    · simp only [Option.bind_eq_bind, Option.bind_some, last rest stops]
      rfl
    · rw [letters]
      rintro _ ⟨⟩
      cases here

/-- A type is read if the reader for the types in it reads all smaller ones. -/
theorem type_reads {a : Ty} (clear : a.everywhere Ty.legible = true)
    (inner : ∀ b : Ty, b.everywhere Ty.legible = true → b.height < a.height →
      Reads text Stops read b) : Reads text Stops (type read) a := by
  obtain ⟨here, parts⟩ := (Ty.everywhere_iff a).mp clear
  have smaller : ∀ part ∈ a.parts, Reads text Stops read part := fun part member =>
    inner part (parts part member) (Ty.height_of_mem_parts member)
  cases form_of_legible here with
  -- printed as it is, and not as a branch: the empty union then has no parentheses
  | single single =>
      intro rest stops
      have found := type_of_branches (List.cons_ne_nil a [])
        (by simpa using fun _ => plain_single single parts)
        (by simpa using single_reads single parts smaller) stops
      rwa [List.map_singleton, List.intercalate_singleton] at found
  | @function entries result words =>
      apply type_function words
      · intro entry member
        apply smaller
        simp only [Ty.parts, Shape.parts, List.map_map]
        exact List.mem_cons_of_mem _ (List.mem_map_of_mem member)
      · exact smaller result List.mem_cons_self
  | @union first second others =>
      intro rest stops
      rw [text_union (List.cons_ne_nil _ _)]
      refine type_of_branches (List.cons_ne_nil _ _)
        (fun branch member _ => plain_branch (parts branch member)) (fun branch member => ?_) stops
      have legible := ((Ty.everywhere_iff branch).mp (parts branch member)).2
      apply branch_reads (parts branch member) (smaller branch member)
      intro part deeper
      have less := Ty.height_of_mem_parts deeper
      exact inner part (legible part deeper) (Nat.lt_trans less (Ty.height_of_mem_parts member))

end

/-- A reader for types of some height reads all legible types that are not higher. -/
theorem within_reads (height : Nat) {a : Ty} (clear : a.everywhere Ty.legible = true)
    (low : a.height ≤ height) : Reads text Stops (within height) a := by
  induction height generalizing a with
  | zero => exact absurd low (by have := Ty.height_pos a; omega)
  | succ height ih => exact type_reads clear fun b legible less => ih legible (by omega)

end Printed

/-- Two types with one text are one type, as long as they hold no literal, no default and no union
of one branch, and names are words that stand for nothing else. -/
theorem printed_types_keep_grouping (a b : LegibleTy) (same : a.1.render = b.1.render) : a = b := by
  have first := Printed.within_reads (max a.1.height b.1.height) a.2 (Nat.le_max_left _ _) []
    (by rintro _ _ ⟨⟩)
  have second := Printed.within_reads (max a.1.height b.1.height) b.2 (Nat.le_max_right _ _) []
    (by rintro _ _ ⟨⟩)
  rw [Printed.text, same] at first
  have pairs := Option.some.inj (first.symm.trans second)
  exact Subtype.ext (Prod.mk.inj pairs).1

namespace LegibleTy

def lookup : Ty := .function [⟨"key", .text, none⟩] (.union [.number, .void])

def nested : LegibleTy := ⟨.union [.union [.named "Cell" [], lookup], .tuple [.number]], by decide⟩

def opened : LegibleTy := ⟨.union nested.1.branches, by decide⟩

def flat : LegibleTy := ⟨.union [.named "Cell" [], lookup, .tuple [.number]], by decide⟩

end LegibleTy

section

open LegibleTy

/-- The flat union has the text of the opened one and is the same type, and not that of the nested
one. -/
theorem printed_types_keep_grouping_flat :
    nested.1.render = "(Cell | ((key: Text) -> Number | Void)) | (Number,)" ∧
    opened.1.render = "Cell | ((key: Text) -> Number | Void) | (Number,)" ∧
    opened.1.render = flat.1.render ∧ opened = flat := by
  have same : opened.1.render = flat.1.render := by cbv
  exact ⟨by cbv, by cbv, same, printed_types_keep_grouping opened flat same⟩

end

end StructuralTypes
