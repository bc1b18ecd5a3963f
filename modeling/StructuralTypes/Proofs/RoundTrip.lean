import Mathlib
import StructuralTypes.Proofs.FiniteNumbers
import StructuralTypes.Ty.Values
import StructuralTypes.Ty.WellFormed

/-!
Documents carry well-formed data with finite numbers. What is written is read again as it was,
and what is read from any document is data of this sort, so a document may be rewritten. Each
value in a type that was read comes from a document with a classifier of its own, and that is
never a literal or a union.
-/

namespace StructuralTypes

def Passing (test : Value → Prop) (formed : Bool) (values : List Value) : Prop :=
  formed = true ∧ ∀ value ∈ values, test value

def Ty.Meets (test : Value → Prop) (t : Ty) : Prop := Passing test t.wellFormed t.values

def Shape.Meets (test : Value → Prop) (s : Shape) : Prop := Passing test s.wellFormed s.values

def Value.Meets (test : Value → Prop) (v : Value) : Prop := Passing test v.wellFormed v.values

def Parameter.Meets (test : Value → Prop) (p : Parameter) : Prop :=
  Passing test p.wellFormed p.values

section Meets

variable {test : Value → Prop}

theorem passing_append {one other : Bool} {xs ys : List Value} :
    Passing test (one && other) (xs ++ ys) ↔ Passing test one xs ∧ Passing test other ys := by
  simp only [Passing, Bool.and_eq_true, List.forall_mem_append, and_and_and_comm]

theorem passing_nil : Passing test true [] := by
  simp [Passing]

theorem Ty.all_meets_iff {ts : List Ty} :
    Passing test (Ty.allWellFormed ts) (Ty.valuesAll ts) ↔ ∀ t ∈ ts, t.Meets test := by
  induction ts with
  | nil => simp [Ty.allWellFormed, Ty.valuesAll, passing_nil]
  | cons t rest ih =>
      rw [Ty.allWellFormed, Ty.valuesAll, passing_append, ih, List.forall_mem_cons, Ty.Meets]

theorem Ty.entries_meet_iff {entries : List (String × Ty)} :
    Passing test (Ty.entriesWellFormed entries) (Ty.valuesEntries entries) ↔
      ∀ entry ∈ entries, entry.2.Meets test := by
  induction entries with
  | nil => simp [Ty.entriesWellFormed, Ty.valuesEntries, passing_nil]
  | cons entry rest ih =>
      obtain ⟨key, t⟩ := entry
      rw [Ty.entriesWellFormed, Ty.valuesEntries, passing_append, ih, List.forall_mem_cons,
        Ty.Meets]

theorem Parameter.all_meets_iff {ps : List Parameter} :
    Passing test (Parameter.allWellFormed ps) (Parameter.valuesAll ps) ↔
      ∀ p ∈ ps, p.Meets test := by
  induction ps with
  | nil => simp [Parameter.allWellFormed, Parameter.valuesAll, passing_nil]
  | cons p rest ih =>
      rw [Parameter.allWellFormed, Parameter.valuesAll, passing_append, ih, List.forall_mem_cons,
        Parameter.Meets]

theorem Shape.meets_function {ps : List Parameter} {result : Ty} :
    (Shape.function ps result).Meets test ↔ (∀ p ∈ ps, p.Meets test) ∧ result.Meets test := by
  rw [Shape.Meets, Shape.wellFormed, Shape.values, passing_append, Parameter.all_meets_iff,
    Ty.Meets]

theorem Shape.meets_dictionary {entries : List (String × Ty)} :
    (Shape.dictionary entries).Meets test ↔
      Keyed.Sorted entries ∧ ∀ entry ∈ entries, entry.2.Meets test := by
  rw [← Ty.entries_meet_iff, Shape.Meets, Shape.wellFormed, Shape.values, Passing, Passing,
    Bool.and_eq_true, decide_eq_true_eq, and_assoc]

theorem Value.meets_iff {payload : Payload} {shape : Shape} :
    (Value.mk payload shape).Meets test ↔
      payload.wellFormed = true ∧ test ⟨payload, shape⟩ ∧ shape.Meets test := by
  simp only [Value.Meets, Shape.Meets, Passing, Value.wellFormed, Value.values, Bool.and_eq_true,
    List.forall_mem_cons]
  grind

theorem Parameter.meets_iff {name : String} {ty : Ty} {default : Option Value} :
    (Parameter.mk name ty default).Meets test ↔
      ty.Meets test ∧ ∀ value ∈ default, value.Meets test := by
  rw [Parameter.Meets, Parameter.wellFormed, Parameter.values, passing_append, Ty.Meets]
  cases default with
  | none => simp [Value.defaultWellFormed, Value.valuesDefault, passing_nil]
  | some value => simp [Value.defaultWellFormed, Value.valuesDefault, Value.Meets]

theorem Ty.meets_of_ofTag? {tag : String} {t : Ty} (primitive : Ty.ofTag? tag = some t) :
    t.Meets test := by
  simp only [Ty.ofTag?] at primitive
  repeat' split at primitive
  all_goals cases primitive
  all_goals exact passing_nil

end Meets

/-- What a document can hold: payloads in key order, with finite numbers. -/
def Payload.Portable (p : Payload) : Prop := p.wellFormed = true ∧ p.Finite

namespace Payload

theorem all_portable_iff {items : List Payload} :
    (Payload.allWellFormed items = true ∧ ∀ n ∈ Payload.numbersAll items, n.isFinite = true) ↔
      ∀ item ∈ items, item.Portable := by
  induction items with
  | nil => simp [Payload.allWellFormed, Payload.numbersAll]
  | cons item rest ih =>
      rw [List.forall_mem_cons, ← ih, Payload.allWellFormed, Payload.numbersAll, Bool.and_eq_true,
        List.forall_mem_append, Portable, Payload.Finite, and_and_and_comm]

theorem entries_portable_iff {entries : List (String × Payload)} :
    (Payload.entriesWellFormed entries = true ∧
        ∀ n ∈ Payload.numbersEntries entries, n.isFinite = true) ↔
      ∀ entry ∈ entries, entry.2.Portable := by
  induction entries with
  | nil => simp [Payload.entriesWellFormed, Payload.numbersEntries]
  | cons entry rest ih =>
      obtain ⟨key, value⟩ := entry
      rw [List.forall_mem_cons, ← ih, Payload.entriesWellFormed, Payload.numbersEntries,
        Bool.and_eq_true, List.forall_mem_append, Portable, Payload.Finite, and_and_and_comm]

theorem portable_dictionary {entries : List (String × Payload)} :
    (Payload.dictionary entries).Portable ↔
      Keyed.Sorted entries ∧ ∀ entry ∈ entries, entry.2.Portable := by
  rw [← entries_portable_iff, Portable, Payload.Finite, Payload.wellFormed, Payload.numbers,
    Bool.and_eq_true, decide_eq_true_eq, and_assoc]

mutual

theorem decode?_toJson : ∀ (p : Payload) (depth : Nat), p.Portable → p.toJson.nesting ≤ depth →
    decode? depth p.toJson = some p
  | p, 0, _, fits => by
      cases p with
      | void => rfl
      | _ => simp [toJson, Json.nesting_tagged] at fits
  | .number value, depth + 1, portable, fits => by
      have finite : value.isFinite = true := portable.2 value List.mem_cons_self
      simp [toJson, Json.tagged, decode?, Json.ofNumber, finite, Json.toNumber?]
  | .text value, depth + 1, _, _ => by simp [toJson, Json.tagged, decode?, Json.toText?]
  | .logic value, depth + 1, _, _ => by simp [toJson, Json.tagged, decode?, Json.toBool?]
  | .void, depth + 1, _, _ => by simp [toJson, decode?]
  | .list items, depth + 1, portable, fits => by
      rw [toJson, Json.nesting_tagged, Json.nesting] at fits
      have each := decode?_toJsonItems items depth (all_portable_iff.mp portable) (by omega)
      simp [toJson, Json.tagged, decode?, Json.items?, mapM_eq_some_iff.mpr each]
  | .dictionary entries, depth + 1, portable, fits => by
      rw [toJson, Json.nesting_tagged, Json.nesting] at fits
      obtain ⟨sorted, values⟩ := portable_dictionary.mp portable
      have each := decode?_toJsonEntries entries depth values (by omega)
      have read := Json.entries?_eq_some_iff.mpr
        ⟨_, _, rfl, each, Keyed.ofList_of_sorted sorted⟩
      simp [toJson, Json.tagged, decode?, read]
  | .native name, depth + 1, _, _ => by simp [toJson, Json.tagged, decode?, Json.toText?]

theorem decode?_toJsonItems : ∀ (items : List Payload) (depth : Nat),
    (∀ item ∈ items, item.Portable) → Json.nestingItems (toJsonItems items) ≤ depth →
    List.Forall₂ (fun json p => decode? depth json = some p) (toJsonItems items) items
  | [], _, _, _ => .nil
  | item :: rest, depth, portable, fits => by
      rw [toJsonItems, Json.nestingItems, Nat.max_le] at fits
      rw [List.forall_mem_cons] at portable
      exact .cons (decode?_toJson item depth portable.1 fits.1)
        (decode?_toJsonItems rest depth portable.2 fits.2)

theorem decode?_toJsonEntries : ∀ (entries : List (String × Payload)) (depth : Nat),
    (∀ entry ∈ entries, entry.2.Portable) →
    Json.nestingMembers (toJsonEntries entries) ≤ depth →
    List.Forall₂ (fun member entry => member.1 = entry.1 ∧ decode? depth member.2 = some entry.2)
      (toJsonEntries entries) entries
  | [], _, _, _ => .nil
  | (key, value) :: rest, depth, portable, fits => by
      rw [toJsonEntries, Json.nestingMembers, Nat.max_le] at fits
      rw [List.forall_mem_cons] at portable
      exact .cons ⟨rfl, decode?_toJson value depth portable.1 fits.1⟩
        (decode?_toJsonEntries rest depth portable.2 fits.2)

end

theorem ofJson?_toJson {p : Payload} (portable : p.Portable) : ofJson? p.toJson = some p :=
  decode?_toJson p _ portable (Nat.le_refl _)

end Payload

theorem Json.record?_one (name : String) (value : Json) :
    (Json.object [(name, value)]).record? [name] = some [some value] := by
  simp [Json.record?, Json.countKey, Json.get?]

theorem Json.record?_two {first second : String} (different : first ≠ second) (one two : Json) :
    (Json.object [(first, one), (second, two)]).record? [first, second] =
      some [some one, some two] := by
  simp [Json.record?, Json.countKey, Json.get?, different, different.symm]

theorem Parameter.record?_toJson (name : String) (ty : Ty) (default : Option Value) :
    (Parameter.toJson ⟨name, ty, default⟩).record? ["name", "ty", "default_value"] =
      some [some (.string name), some ty.toJson, default.map Value.toJson] := by
  cases default <;>
    simp [Parameter.toJson, Value.toJsonDefault, Json.record?, Json.countKey, Json.get?]

theorem Value.toJson_isNull (v : Value) : v.toJson.isNull = false := by
  obtain ⟨payload, shape⟩ := v
  rfl

def Value.HasFinitePayload (v : Value) : Prop := v.payload.Finite

mutual

theorem Ty.ofJson?_toJson : ∀ t : Ty, t.Meets Value.HasFinitePayload → Ty.ofJson? t.toJson = some t
  | .literal value, meets => by
      have read := Value.ofJson?_toJson value meets
      exact Ty.ofJson?_eq_some_iff.mpr (.tagged (.literal (Json.record?_one _ _) read))
  | .union branches, meets => by
      have read := Ty.ofJson?_toJsonAll branches (Ty.all_meets_iff.mp meets)
      exact Ty.ofJson?_eq_some_iff.mpr (.tagged (.union (Json.record?_one _ _) read))
  | .resolved shape, meets => Shape.ofJson?_toJson shape meets

theorem Shape.ofJson?_toJson : ∀ s : Shape, s.Meets Value.HasFinitePayload →
    Ty.ofJson? s.toJson = some (.resolved s)
  | .number, _ => rfl
  | .text, _ => rfl
  | .logic, _ => rfl
  | .void, _ => rfl
  | .named name ps, meets => by
      have read := Parameter.ofJson?_toJsonAll ps (Parameter.all_meets_iff.mp meets)
      exact Ty.ofJson?_eq_some_iff.mpr (.tagged (.named (Json.record?_two (by simp) _ _) read))
  | .function ps result, meets => by
      obtain ⟨parameters, last⟩ := Shape.meets_function.mp meets
      have read := Parameter.ofJson?_toJsonAll ps parameters
      exact Ty.ofJson?_eq_some_iff.mpr
        (.tagged (.function (Json.record?_two (by simp) _ _) read (Ty.ofJson?_toJson result last)))
  | .list element, meets => by
      have read := Ty.ofJson?_toJson element meets
      exact Ty.ofJson?_eq_some_iff.mpr (.tagged (.list (Json.record?_one _ _) read))
  | .tuple elements, meets => by
      have read := Ty.ofJson?_toJsonAll elements (Ty.all_meets_iff.mp meets)
      exact Ty.ofJson?_eq_some_iff.mpr (.tagged (.tuple (Json.record?_one _ _) read))
  | .dictionary entries, meets => by
      obtain ⟨sorted, values⟩ := Shape.meets_dictionary.mp meets
      have read := Ty.ofJson?_toJsonEntries entries values
      have parts : Ty.Assembled .unbounded
          (.object [("entries", .object (Ty.toJsonEntries entries))])
          "Dictionary" (.dictionary entries) := .dictionary (Json.record?_one _ _) read
      -- the reader sorts what it lists, which changes nothing here
      rw [Ty.dictionary, Keyed.ofList_of_sorted sorted] at parts
      exact Ty.ofJson?_eq_some_iff.mpr (.tagged parts)

theorem Value.ofJson?_toJson : ∀ v : Value, v.Meets Value.HasFinitePayload →
    Value.ofJson? v.toJson = some v
  | ⟨payload, shape⟩, meets => by
      obtain ⟨formed, finite, inner⟩ := Value.meets_iff.mp meets
      exact Value.ofJson?_eq_some_iff.mpr ⟨_, _, Json.record?_two (by simp) _ _,
        Payload.ofJson?_toJson ⟨formed, finite⟩, Shape.ofJson?_toJson shape inner⟩

theorem Parameter.ofJson?_toJson : ∀ p : Parameter, p.Meets Value.HasFinitePayload →
    Parameter.ofJson? p.toJson = some p
  | ⟨name, ty, none⟩, meets => by
      obtain ⟨type, -⟩ := Parameter.meets_iff.mp meets
      exact Parameter.ofJson?_eq_some_iff.mpr
        ⟨_, _, Parameter.record?_toJson name ty none, Ty.ofJson?_toJson ty type, rfl⟩
  | ⟨name, ty, some value⟩, meets => by
      obtain ⟨type, given⟩ := Parameter.meets_iff.mp meets
      exact Parameter.ofJson?_eq_some_iff.mpr
        ⟨_, _, Parameter.record?_toJson name ty (some value), Ty.ofJson?_toJson ty type,
          value.toJson_isNull, Value.ofJson?_toJson value (given value rfl)⟩

theorem Ty.ofJson?_toJsonAll : ∀ ts : List Ty, (∀ t ∈ ts, t.Meets Value.HasFinitePayload) →
    List.Forall₂ (fun json t => Ty.ofJson? json = some t) (Ty.toJsonAll ts) ts
  | [], _ => .nil
  | t :: rest, meets => by
      rw [List.forall_mem_cons] at meets
      exact .cons (Ty.ofJson?_toJson t meets.1) (Ty.ofJson?_toJsonAll rest meets.2)

theorem Parameter.ofJson?_toJsonAll : ∀ ps : List Parameter,
    (∀ p ∈ ps, p.Meets Value.HasFinitePayload) →
    List.Forall₂ (fun json p => Parameter.ofJson? json = some p) (Parameter.toJsonAll ps) ps
  | [], _ => .nil
  | p :: rest, meets => by
      rw [List.forall_mem_cons] at meets
      exact .cons (Parameter.ofJson?_toJson p meets.1) (Parameter.ofJson?_toJsonAll rest meets.2)

theorem Ty.ofJson?_toJsonEntries : ∀ entries : List (String × Ty),
    (∀ entry ∈ entries, entry.2.Meets Value.HasFinitePayload) →
    List.Forall₂ (fun member entry => member.1 = entry.1 ∧ Ty.ofJson? member.2 = some entry.2)
      (Ty.toJsonEntries entries) entries
  | [], _ => .nil
  | (key, t) :: rest, meets => by
      rw [List.forall_mem_cons] at meets
      exact .cons ⟨rfl, Ty.ofJson?_toJson t meets.1⟩ (Ty.ofJson?_toJsonEntries rest meets.2)

end

theorem Json.induction_parts {motive : Json → Prop}
    (step : ∀ json, (∀ part : Json, part.Part json → motive part) → motive json) (json : Json) :
    motive json := by
  induction depth : json.nesting using Nat.strongRecOn generalizing json with
  | _ depth ih =>
      exact step json fun part inside => ih part.nesting (depth ▸ inside.nesting_lt) part rfl

theorem Json.Part.of_body {part body : Json} {tag : String} (inside : part.Part body) :
    part.Part (.tagged tag body) :=
  ⟨body, List.mem_cons_self, inside.inside⟩

theorem Payload.portable_plain {p : Payload} (formed : p.wellFormed = true)
    (none : p.numbers = []) : p.Portable :=
  ⟨formed, by simp [Payload.Finite, none]⟩

section Containers

variable {read : Json → Option Payload} {body : Json}
variable (each : ∀ {json : Json} {p : Payload}, json.Finite → read json = some p → p.Portable)
variable (finite : body.Finite)

include each finite

theorem Payload.portable_of_items? {items : List Payload} (found : body.items? read = some items) :
    (Payload.list items).Portable := by
  obtain ⟨sources, rfl, reads⟩ := Json.items?_eq_some_iff.mp found
  apply Payload.all_portable_iff.mpr
  intro item member
  obtain ⟨source, within, same⟩ := exists_of_mem_right reads member
  exact each (finite.inside (.of_child within)) same

theorem Payload.portable_of_entries? {entries : List (String × Payload)}
    (found : body.entries? read = some entries) : (Payload.dictionary entries).Portable := by
  obtain ⟨members, listed, rfl, reads, rfl⟩ := Json.entries?_eq_some_iff.mp found
  apply Payload.portable_dictionary.mpr
  constructor
  · exact Keyed.sorted_ofList listed
  · intro entry member
    obtain ⟨source, within, -, same⟩ := exists_of_mem_right reads (Keyed.mem_of_mem_ofList member)
    exact each (finite.inside (.of_child (List.mem_map_of_mem within))) same

end Containers

theorem Payload.decode?_portable {depth : Nat} {json : Json} {p : Payload} (finite : json.Finite)
    (read : Payload.decode? depth json = some p) : p.Portable := by
  induction depth generalizing json p with
  | zero =>
      cases json with
      | string tag =>
          simp only [Payload.decode?, Option.ite_none_right_eq_some, Option.some.injEq] at read
          exact read.2 ▸ Payload.portable_plain rfl rfl
      | _ => simp [Payload.decode?] at read
  | succ depth ih =>
      unfold Payload.decode? at read
      split at read
      · simp only [Option.ite_none_right_eq_some, Option.some.injEq] at read
        exact read.2 ▸ Payload.portable_plain rfl rfl
      · next lower tag body equal =>
          cases equal
          have inner : body.Finite := finite.inside (.of_child List.mem_cons_self)
          split at read
          · obtain ⟨n, number, rfl⟩ := Option.map_eq_some_iff.mp read
            exact ⟨rfl, List.forall_mem_singleton.mpr (Json.toNumber?_finite inner number)⟩
          split at read
          · obtain ⟨text, -, rfl⟩ := Option.map_eq_some_iff.mp read
            exact Payload.portable_plain rfl rfl
          split at read
          · obtain ⟨truth, -, rfl⟩ := Option.map_eq_some_iff.mp read
            exact Payload.portable_plain rfl rfl
          split at read
          · simp only [Option.ite_none_right_eq_some, Option.some.injEq] at read
            exact read.2 ▸ Payload.portable_plain rfl rfl
          split at read
          · obtain ⟨payloads, found, rfl⟩ := Option.map_eq_some_iff.mp read
            exact Payload.portable_of_items? ih inner found
          split at read
          · obtain ⟨entries, found, rfl⟩ := Option.map_eq_some_iff.mp read
            exact Payload.portable_of_entries? ih inner found
          split at read
          · obtain ⟨name, -, rfl⟩ := Option.map_eq_some_iff.mp read
            exact Payload.portable_plain rfl rfl
          · cases read
      · cases read

def Value.ReadIn (json : Json) (v : Value) : Prop :=
  ∃ document : Json, document.Inside json ∧ Value.ofJson? document = some v

/-- What the document gives, of each sort, is well formed and has its values from `outer`. -/
structure Json.Yields (outer json : Json) : Prop where
  ty : ∀ {t}, Ty.ofJson? json = some t → t.Meets (Value.ReadIn outer)
  value : ∀ {v}, Value.ofJson? json = some v → v.Meets (Value.ReadIn outer)
  parameter : ∀ {p}, Parameter.ofJson? json = some p → p.Meets (Value.ReadIn outer)

section Yields

variable {outer json : Json} (parts : ∀ part : Json, part.Part json → Json.Yields outer part)

include parts

theorem Json.Yields.types {names : List String} {fields : List (Option Json)} {items : List Json}
    {ts : List Ty} (record : json.record? names = some fields)
    (listed : some (.array items) ∈ fields)
    (read : List.Forall₂ (fun item t => Ty.ofJson? item = some t) items ts) :
    ∀ t ∈ ts, t.Meets (Value.ReadIn outer) := by
  intro t member
  obtain ⟨item, inside, found⟩ := exists_of_mem_right read member
  exact (parts item (.of_item record listed inside)).ty found

theorem Json.Yields.parameters {names : List String} {fields : List (Option Json)}
    {items : List Json} {ps : List Parameter} (record : json.record? names = some fields)
    (listed : some (.array items) ∈ fields)
    (read : List.Forall₂ (fun item p => Parameter.ofJson? item = some p) items ps) :
    ∀ p ∈ ps, p.Meets (Value.ReadIn outer) := by
  intro p member
  obtain ⟨item, inside, found⟩ := exists_of_mem_right read member
  exact (parts item (.of_item record listed inside)).parameter found

theorem Ty.Assembled.meets {tag : String} {t : Ty}
    (assembled : Ty.Assembled .unbounded json tag t) : t.Meets (Value.ReadIn outer) := by
  cases assembled with
  | @literal part _ record read => exact (parts part (.of_record? record (by simp))).value read
  | named record read =>
      exact Parameter.all_meets_iff.mpr (Json.Yields.parameters parts record (by simp) read)
  | @function _ part _ _ record read last =>
      apply Shape.meets_function.mpr
      constructor
      · exact Json.Yields.parameters parts record (by simp) read
      · exact (parts part (.of_record? record (by simp))).ty last
  | union record read =>
      exact Ty.all_meets_iff.mpr (Json.Yields.types parts record (by simp) read)
  | @list part element record read =>
      have inner : element.Meets (Value.ReadIn outer) :=
        (parts part (.of_record? record (by simp))).ty read
      exact inner
  | tuple record read =>
      exact Ty.all_meets_iff.mpr (Json.Yields.types parts record (by simp) read)
  | dictionary record read =>
      apply Shape.meets_dictionary.mpr
      -- a repeated key leaves one entry, and that is one of those listed
      constructor
      · exact Keyed.sorted_ofList _
      · intro entry member
        obtain ⟨source, inside, -, found⟩ :=
          exists_of_mem_right read (Keyed.mem_of_mem_ofList member)
        exact (parts source.2 (.of_member record (by simp) inside)).ty found

theorem Value.ReadBy.meets (finite : json.Finite) (inside : json.Inside outer) {v : Value}
    (read : Value.ReadBy .unbounded json v) : v.Meets (Value.ReadIn outer) := by
  have here : Value.ReadIn outer v := ⟨json, inside, Value.ofJson?_eq_some_iff.mpr read⟩
  obtain ⟨payload, classifier, record, content, shape⟩ := read
  obtain ⟨data, form⟩ := v
  have portable : data.Portable :=
    Payload.decode?_portable (finite.inside (Json.Part.of_record? record (by simp)).inside) content
  exact Value.meets_iff.mpr
    ⟨portable.1, here, (parts classifier (.of_record? record (by simp))).ty shape⟩

theorem Parameter.ReadBy.meets {p : Parameter} (read : Parameter.ReadBy .unbounded json p) :
    p.Meets (Value.ReadIn outer) := by
  obtain ⟨classifier, document, record, ty, given⟩ := read
  obtain ⟨name, type, default⟩ := p
  apply Parameter.meets_iff.mpr
  constructor
  · exact (parts classifier (.of_record? record (by simp))).ty ty
  · rintro value ⟨⟩
    cases document with
    | none => cases given
    | some document => exact (parts document (.of_record? record (by simp))).value given.2

end Yields

theorem Json.yields {outer : Json} (finite : outer.Finite) (json : Json) :
    json.Inside outer → Json.Yields outer json := by
  induction json using Json.induction_parts with
  | step json ih =>
      intro inside
      have parts : ∀ part : Json, part.Part json → Json.Yields outer part :=
        fun part within => ih part within (within.inside.trans inside)
      constructor
      · intro t read
        cases Ty.ofJson?_eq_some_iff.mp read with
        | bare primitive => exact Ty.meets_of_ofTag? primitive
        | null primitive => exact Ty.meets_of_ofTag? primitive
        | tagged assembled => exact assembled.meets fun part within => parts part within.of_body
      · intro v read
        exact (Value.ofJson?_eq_some_iff.mp read).meets parts (finite.inside inside) inside
      · intro p read
        exact (Parameter.ofJson?_eq_some_iff.mp read).meets parts

/-- The value stands in the document with a classifier that was read by itself and is neither a
literal nor a union. -/
def Value.ClassifiedIn (json : Json) (v : Value) : Prop :=
  ∃ document payload classifier : Json, document.Inside json ∧
    document.record? ["payload", "ty"] = some [some payload, some classifier] ∧
    Payload.ofJson? payload = some v.payload ∧
    ∃ t, Ty.ofJson? classifier = some t ∧ t.kind ≠ .literal ∧ t.kind ≠ .union ∧
      t = .resolved v.shape

theorem Shape.kind_resolved (s : Shape) : s.kind ≠ .literal ∧ s.kind ≠ .union := by
  cases s <;> simp [Shape.kind]

theorem Value.ReadIn.classified {json : Json} {v : Value} (read : Value.ReadIn json v) :
    Value.ClassifiedIn json v := by
  obtain ⟨document, inside, found⟩ := read
  obtain ⟨payload, classifier, record, content, shape⟩ := Value.ofJson?_eq_some_iff.mp found
  exact ⟨document, payload, classifier, inside, record, content, _, shape,
    v.shape.kind_resolved.1, v.shape.kind_resolved.2, rfl⟩

theorem Value.ReadIn.finite {json : Json} {v : Value} (finite : json.Finite)
    (read : Value.ReadIn json v) : v.payload.Finite := by
  obtain ⟨document, inside, found⟩ := read
  obtain ⟨payload, classifier, record, content, -⟩ := Value.ofJson?_eq_some_iff.mp found
  have within : payload.Inside json := (Json.Part.of_record? record (by simp)).inside.trans inside
  exact (Payload.decode?_portable (finite.inside within) content).2

theorem Value.ofJson?_refuses {json payload classifier : Json} {t : Ty}
    (record : json.record? ["payload", "ty"] = some [some payload, some classifier])
    (read : Ty.ofJson? classifier = some t) (unresolved : t.kind = .literal ∨ t.kind = .union) :
    Value.ofJson? json = none := by
  apply Option.eq_none_iff_forall_ne_some.mpr
  intro v found
  obtain ⟨_, _, same, -, shape⟩ := Value.ofJson?_eq_some_iff.mp found
  rw [record] at same
  cases same
  cases read.symm.trans shape
  exact unresolved.elim v.shape.kind_resolved.1 v.shape.kind_resolved.2

theorem Ty.ofJson?_meets {json : Json} {t : Ty} (finite : json.Finite)
    (read : Ty.ofJson? json = some t) : t.Meets (Value.ReadIn json) :=
  (Json.yields finite json (.refl json)).ty read

/-- What is well formed with finite numbers is read as it was written. What is read from a
document with finite numbers is of this sort, and the document gave each value in it a classifier
of the value's own; a value is refused if its classifier is a literal or a union. So a type that
comes from a text, by any reader that gives finite numbers only, can be written and read again. -/
theorem documents_round_trip :
    (∀ t : Ty, t.wellFormed = true → t.Finite → Ty.ofJson? t.toJson = some t) ∧
    (∀ v : Value, v.wellFormed = true → v.Finite → Value.ofJson? v.toJson = some v) ∧
    (∀ p : Payload, p.wellFormed = true → p.Finite → Payload.ofJson? p.toJson = some p) ∧
    (∀ p : Parameter, p.wellFormed = true → p.Finite → Parameter.ofJson? p.toJson = some p) ∧
    (∀ (json : Json) (t : Ty), json.Finite → Ty.ofJson? json = some t →
      (t.wellFormed = true ∧ t.Finite) ∧ (∀ value ∈ t.values, value.ClassifiedIn json) ∧
      Ty.ofJson? t.toJson = some t) ∧
    (∀ (json payload classifier : Json) (t : Ty),
      json.record? ["payload", "ty"] = some [some payload, some classifier] →
      Ty.ofJson? classifier = some t → t.kind = .literal ∨ t.kind = .union →
      Value.ofJson? json = none) ∧
    (∀ read : String → Option Json, (∀ text json, read text = some json → json.Finite) →
      ∀ text t, (read text).bind Ty.ofJson? = some t →
        (t.wellFormed = true ∧ t.Finite) ∧ Ty.ofJson? t.toJson = some t) := by
  have written : ∀ t : Ty, t.wellFormed = true → t.Finite → Ty.ofJson? t.toJson = some t :=
    fun t formed finite => Ty.ofJson?_toJson t ⟨formed, finite⟩
  have accepted : ∀ (json : Json) (t : Ty), json.Finite → Ty.ofJson? json = some t →
      (t.wellFormed = true ∧ t.Finite) ∧ (∀ value ∈ t.values, value.ClassifiedIn json) ∧
      Ty.ofJson? t.toJson = some t := by
    intro json t finite read
    obtain ⟨formed, values⟩ := Ty.ofJson?_meets finite read
    have numbers : t.Finite := fun value member => (values value member).finite finite
    exact ⟨⟨formed, numbers⟩, fun value member => (values value member).classified,
      written t formed numbers⟩
  refine ⟨written, fun v formed finite => Value.ofJson?_toJson v ⟨formed, finite⟩,
    fun p formed finite => Payload.ofJson?_toJson ⟨formed, finite⟩,
    fun p formed finite => Parameter.ofJson?_toJson p ⟨formed, finite⟩, accepted,
    fun json payload classifier t => Value.ofJson?_refuses, ?_⟩
  intro read finite text t found
  obtain ⟨json, document, decoded⟩ := Option.bind_eq_some_iff.mp found
  obtain ⟨sort, -, again⟩ := accepted json t (finite text json document) decoded
  exact ⟨sort, again⟩

/-- A function as others may write it: records as arrays, a null default and one that is given, a
field that nobody knows, a name with a null body and a repeated key. -/
def looseText : String :=
  "\x7b\"Function\": [[[\"n\", \x7b\"Number\": null\x7d, null], " ++
  "\x7b\"ty\": \"Number\", \"note\": [], \"name\": \"m\", " ++
  "\"default_value\": [\x7b\"Number\": 2\x7d, \"Number\"]\x7d], " ++
  "\x7b\"Dictionary\": \x7b\"entries\": " ++
  "\x7b\"b\": \"Text\", \"a\": \"Logic\", \"b\": \"Void\"\x7d\x7d\x7d]\x7d"

def looseType : Ty :=
  .function [⟨"n", .number, none⟩, ⟨"m", .number, some (.number ⟨0x4000000000000000⟩)⟩]
    (.resolved (.dictionary [("a", .logic), ("b", .void)]))

def nestedValue : Value :=
  ⟨.list [.number ⟨0x8000000000000000⟩, .dictionary [("k", .native "call")]],
    .list (.union [looseType, .literal (.number ⟨1⟩)])⟩

theorem documents_round_trip_loose :
    (∃ json, Json.read looseText = some json ∧ json.Finite ∧ Ty.ofJson? json = some looseType ∧
      (∀ value ∈ looseType.values, value.ClassifiedIn json) ∧
      Ty.ofJson? looseType.toJson = some looseType) ∧
    (nestedValue.wellFormed = true ∧ nestedValue.Finite ∧
      Value.ofJson? nestedValue.toJson = some nestedValue) ∧
    Value.ofJson? (.array [Payload.void.toJson, (Ty.literal nestedValue).toJson]) = none := by
  obtain ⟨types, values, -, -, accepted, refused, texts⟩ := documents_round_trip
  have found : (Json.read looseText).bind Ty.ofJson? = some looseType := by cbv
  obtain ⟨-, again⟩ := texts Json.read (fun _ _ => Json.read_finite) looseText looseType found
  obtain ⟨json, read, decoded⟩ := Option.bind_eq_some_iff.mp found
  have finite : json.Finite := Json.read_finite read
  obtain ⟨-, classified, -⟩ := accepted json looseType finite decoded
  have formed : nestedValue.wellFormed = true := by decide
  have numbers : nestedValue.Finite := by decide
  have literal : Ty.ofJson? (Ty.literal nestedValue).toJson = some (.literal nestedValue) :=
    types _ formed numbers
  exact ⟨⟨json, read, finite, decoded, classified, again⟩,
    ⟨formed, numbers, values _ formed numbers⟩, refused _ _ _ _ rfl literal (.inl rfl)⟩

end StructuralTypes
