import Mathlib.Data.List.Forall2
import Mathlib.Logic.Relation
import StructuralTypes.Document.Ty

/-!
What the readers of documents accept, without their bound on the nesting. A type is assembled
from parts that stand inside its document, and a reader with a bound gives what it gives with any
other bound that the document fits. So a document is read by the documents in it.
-/

namespace StructuralTypes

theorem mapM_eq_some_iff {α β : Type} {read : α → Option β} {xs : List α} {ys : List β} :
    xs.mapM read = some ys ↔ List.Forall₂ (fun x y => read x = some y) xs ys := by
  induction xs generalizing ys with
  | nil => simp [eq_comm]
  | cons x rest ih =>
      simp only [List.mapM_cons, Option.bind_eq_bind, Option.bind_eq_some_iff, Option.pure_def,
        Option.some.injEq, List.forall₂_cons_left_iff, ih]
      grind

theorem forall₂_imp_mem {α β : Type} {first second : α → β → Prop} {xs : List α} {ys : List β}
    (each : List.Forall₂ first xs ys) (step : ∀ x ∈ xs, ∀ y, first x y → second x y) :
    List.Forall₂ second xs ys :=
  ((List.forall₂_and_left xs ys).mpr ⟨fun _ member => member, each⟩).imp
    fun x y both => step x both.1 y both.2

theorem exists_of_mem_right {α β : Type} {related : α → β → Prop} {xs : List α} {ys : List β}
    (each : List.Forall₂ related xs ys) {y : β} (member : y ∈ ys) : ∃ x ∈ xs, related x y := by
  induction each with
  | nil => cases member
  | cons first _ ih =>
      rcases List.mem_cons.mp member with rfl | later
      · exact ⟨_, List.mem_cons_self, first⟩
      · obtain ⟨x, inside, found⟩ := ih later
        exact ⟨x, List.mem_cons_of_mem _ inside, found⟩

namespace Json

def children : Json → List Json
  | .array items => items
  | .object members => members.map Prod.snd
  | _ => []

/-- One document stands in another at some depth, or is it. -/
def Inside : Json → Json → Prop := Relation.ReflTransGen fun inner outer => inner ∈ outer.children

theorem Inside.refl (json : Json) : json.Inside json := Relation.ReflTransGen.refl

theorem Inside.of_child {child json : Json} (member : child ∈ json.children) : child.Inside json :=
  Relation.ReflTransGen.single member

theorem Inside.trans {one two three : Json} (inner : one.Inside two) (outer : two.Inside three) :
    one.Inside three :=
  Relation.ReflTransGen.trans inner outer

theorem nesting_le_nestingItems {item : Json} {items : List Json} (member : item ∈ items) :
    item.nesting ≤ nestingItems items := by
  induction items with
  | nil => cases member
  | cons first rest ih =>
      simp only [nestingItems]
      rcases List.mem_cons.mp member with rfl | later
      · omega
      · have := ih later
        omega

theorem nesting_le_nestingMembers {value : Json} {members : List (String × Json)}
    (member : value ∈ members.map Prod.snd) : value.nesting ≤ nestingMembers members := by
  induction members with
  | nil => cases member
  | cons first rest ih =>
      obtain ⟨key, other⟩ := first
      simp only [nestingMembers]
      rcases List.mem_cons.mp member with rfl | later
      · exact Nat.le_max_left _ _
      · have := ih later
        omega

theorem nesting_lt_of_child {child json : Json} (member : child ∈ json.children) :
    child.nesting < json.nesting := by
  cases json with
  | array items => exact Nat.lt_succ_of_le (nesting_le_nestingItems member)
  | object members => exact Nat.lt_succ_of_le (nesting_le_nestingMembers member)
  | _ => cases member

theorem Inside.nesting_le {inner outer : Json} (inside : inner.Inside outer) :
    inner.nesting ≤ outer.nesting := by
  induction inside with
  | refl => exact Nat.le_refl _
  | tail _ member ih => exact Nat.le_trans ih (Nat.le_of_lt (nesting_lt_of_child member))

def Part (inner outer : Json) : Prop := ∃ child ∈ outer.children, inner.Inside child

theorem Part.inside {inner outer : Json} (part : inner.Part outer) : inner.Inside outer := by
  obtain ⟨child, member, inside⟩ := part
  exact inside.tail member

theorem Part.nesting_lt {inner outer : Json} (part : inner.Part outer) :
    inner.nesting < outer.nesting := by
  obtain ⟨child, member, inside⟩ := part
  exact Nat.lt_of_le_of_lt inside.nesting_le (nesting_lt_of_child member)

theorem mem_children_of_record? {names : List String} {json part : Json}
    {parts : List (Option Json)} (record : json.record? names = some parts)
    (member : some part ∈ parts) : part ∈ json.children := by
  cases json with
  | object members =>
      simp only [record?, Option.ite_none_right_eq_some, Option.some.injEq] at record
      obtain ⟨-, rfl⟩ := record
      obtain ⟨name, -, found⟩ := List.mem_map.mp member
      obtain ⟨entry, first, rfl⟩ := Option.map_eq_some_iff.mp found
      exact List.mem_map_of_mem (List.mem_of_find?_eq_some first)
  | array items =>
      simp only [record?, Option.ite_none_right_eq_some, Option.some.injEq] at record
      obtain ⟨-, rfl⟩ := record
      rcases List.mem_append.mp member with given | missing
      · obtain ⟨item, inside, same⟩ := List.mem_map.mp given
        exact Option.some.inj same ▸ inside
      · cases List.eq_of_mem_replicate missing
  | _ => cases record

theorem isNull_of_record? {names : List String} {json : Json} {parts : List (Option Json)}
    (record : json.record? names = some parts) : json.isNull = false := by
  cases json with
  | null => cases record
  | _ => rfl

variable {α : Type} {read : Json → Option α}

theorem items?_eq_some_iff {json : Json} {xs : List α} : json.items? read = some xs ↔
    ∃ items, json = .array items ∧ List.Forall₂ (fun item x => read item = some x) items xs := by
  cases json <;> simp [items?, mapM_eq_some_iff]

theorem entries?_eq_some_iff {json : Json} {entries : List (String × α)} :
    json.entries? read = some entries ↔ ∃ members listed, json = .object members ∧
      List.Forall₂ (fun member entry => member.1 = entry.1 ∧ read member.2 = some entry.2)
        members listed ∧ Keyed.ofList listed = entries := by
  have one (member : String × Json) (entry : String × α) :
      (read member.2).map (fun value => (member.1, value)) = some entry ↔
        member.1 = entry.1 ∧ read member.2 = some entry.2 := by
    obtain ⟨key, value⟩ := entry
    simp [Option.map_eq_some_iff, and_comm]
  cases json <;> simp [entries?, Option.map_eq_some_iff, mapM_eq_some_iff, one]

end Json

structure Readers where
  ty : Json → Option Ty
  value : Json → Option Value
  parameter : Json → Option Parameter

namespace Readers

def upTo (depth : Nat) : Readers := ⟨Ty.decode? depth, Value.decode? depth, Parameter.decode? depth⟩

def unbounded : Readers := ⟨Ty.ofJson?, Value.ofJson?, Parameter.ofJson?⟩

/-- What the one reads of the parts of `json`, the other reads too. -/
structure Within (json : Json) (one other : Readers) : Prop where
  ty : ∀ {part t}, part.Part json → one.ty part = some t → other.ty part = some t
  value : ∀ {part v}, part.Part json → one.value part = some v → other.value part = some v
  parameter : ∀ {part p}, part.Part json → one.parameter part = some p →
    other.parameter part = some p

end Readers

inductive Ty.Assembled (readers : Readers) (body : Json) : String → Ty → Prop
  | literal {part : Json} {value : Value}
      (record : body.record? ["value"] = some [some part])
      (read : readers.value part = some value) :
      Ty.Assembled readers body "Literal" (.literal value)
  | named {name : String} {items : List Json} {parameters : List Parameter}
      (record : body.record? ["name", "parameters"] =
        some [some (.string name), some (.array items)])
      (read : List.Forall₂ (fun item p => readers.parameter item = some p) items parameters) :
      Ty.Assembled readers body "Named" (.named name parameters)
  | function {items : List Json} {part : Json} {parameters : List Parameter} {result : Ty}
      (record : body.record? ["parameters", "return_type"] = some [some (.array items), some part])
      (read : List.Forall₂ (fun item p => readers.parameter item = some p) items parameters)
      (last : readers.ty part = some result) :
      Ty.Assembled readers body "Function" (.function parameters result)
  | union {items : List Json} {branches : List Ty}
      (record : body.record? ["branches"] = some [some (.array items)])
      (read : List.Forall₂ (fun item t => readers.ty item = some t) items branches) :
      Ty.Assembled readers body "Union" (.union branches)
  | list {part : Json} {element : Ty}
      (record : body.record? ["element"] = some [some part])
      (read : readers.ty part = some element) :
      Ty.Assembled readers body "List" (.list element)
  | tuple {items : List Json} {elements : List Ty}
      (record : body.record? ["elements"] = some [some (.array items)])
      (read : List.Forall₂ (fun item t => readers.ty item = some t) items elements) :
      Ty.Assembled readers body "Tuple" (.tuple elements)
  | dictionary {members : List (String × Json)} {listed : List (String × Ty)}
      (record : body.record? ["entries"] = some [some (.object members)])
      (read : List.Forall₂ (fun member entry => member.1 = entry.1 ∧
        readers.ty member.2 = some entry.2) members listed) :
      Ty.Assembled readers body "Dictionary" (.dictionary listed)

theorem Ty.decodeParts?_eq_some_iff {depth : Nat} {tag : String} {body : Json} {t : Ty} :
    Ty.decodeParts? (depth + 1) tag body = some t ↔
      Ty.Assembled (.upTo depth) body tag t := by
  constructor
  · intro read
    simp only [Ty.decodeParts?] at read
    split at read
    · next same =>
        subst same
        split at read
        · next record =>
            obtain ⟨value, inner, rfl⟩ := Option.map_eq_some_iff.mp read
            exact .literal record inner
        · cases read
    split at read
    · next same =>
        subst same
        split at read
        · next record =>
            obtain ⟨ps, inner, rfl⟩ := Option.map_eq_some_iff.mp read
            obtain ⟨items, rfl, each⟩ := Json.items?_eq_some_iff.mp inner
            exact .named record each
        · cases read
    split at read
    · next same =>
        subst same
        split at read
        · next record =>
            obtain ⟨ps, inner, rest⟩ := Option.bind_eq_some_iff.mp read
            obtain ⟨result, last, same⟩ := Option.bind_eq_some_iff.mp rest
            obtain ⟨items, rfl, each⟩ := Json.items?_eq_some_iff.mp inner
            cases same
            exact .function record each last
        · cases read
    split at read
    · next same =>
        subst same
        split at read
        · next record =>
            obtain ⟨branches, inner, rfl⟩ := Option.map_eq_some_iff.mp read
            obtain ⟨items, rfl, each⟩ := Json.items?_eq_some_iff.mp inner
            exact .union record each
        · cases read
    split at read
    · next same =>
        subst same
        split at read
        · next record =>
            obtain ⟨element, inner, rfl⟩ := Option.map_eq_some_iff.mp read
            exact .list record inner
        · cases read
    split at read
    · next same =>
        subst same
        split at read
        · next record =>
            obtain ⟨elements, inner, rfl⟩ := Option.map_eq_some_iff.mp read
            obtain ⟨items, rfl, each⟩ := Json.items?_eq_some_iff.mp inner
            exact .tuple record each
        · cases read
    split at read
    · next same =>
        subst same
        split at read
        · next record =>
            obtain ⟨entries, inner, rfl⟩ := Option.map_eq_some_iff.mp read
            obtain ⟨members, listed, rfl, each, rfl⟩ := Json.entries?_eq_some_iff.mp inner
            exact .dictionary record each
        · cases read
    cases read
  · rintro (⟨record, read⟩ | ⟨record, read⟩ | ⟨record, read, last⟩ | ⟨record, read⟩ |
      ⟨record, read⟩ | ⟨record, read⟩ | ⟨record, read⟩)
    all_goals simp only [Readers.upTo] at read
    · simp [Ty.decodeParts?, record, read]
    · simp [Ty.decodeParts?, record, Json.items?, mapM_eq_some_iff.mpr read]
    · simp only [Readers.upTo] at last
      simp [Ty.decodeParts?, record, Json.items?, mapM_eq_some_iff.mpr read, last]
    · simp [Ty.decodeParts?, record, Json.items?, mapM_eq_some_iff.mpr read]
    · simp [Ty.decodeParts?, record, read]
    · simp [Ty.decodeParts?, record, Json.items?, mapM_eq_some_iff.mpr read]
    · simp [Ty.decodeParts?, record, Json.entries?_eq_some_iff, Ty.dictionary]
      exact ⟨_, read, rfl⟩

variable {one other : Readers}

theorem Json.Part.of_record? {names : List String} {json part : Json} {parts : List (Option Json)}
    (record : json.record? names = some parts) (member : some part ∈ parts) : part.Part json :=
  ⟨part, mem_children_of_record? record member, .refl part⟩

theorem Json.Part.of_item {names : List String} {json item : Json} {parts : List (Option Json)}
    {items : List Json} (record : json.record? names = some parts)
    (listed : some (.array items) ∈ parts) (member : item ∈ items) : item.Part json :=
  ⟨.array items, mem_children_of_record? record listed, .of_child member⟩

theorem Json.Part.of_member {names : List String} {json : Json} {parts : List (Option Json)}
    {member : String × Json} {members : List (String × Json)}
    (record : json.record? names = some parts) (listed : some (.object members) ∈ parts)
    (inside : member ∈ members) : member.2.Part json :=
  ⟨.object members, mem_children_of_record? record listed,
    .of_child (List.mem_map_of_mem inside)⟩

theorem Ty.Assembled.within {body : Json} {tag : String} {t : Ty} (within : one.Within body other)
    (parts : Ty.Assembled one body tag t) : Ty.Assembled other body tag t := by
  cases parts with
  | literal record read => exact .literal record (within.value (.of_record? record (by simp)) read)
  | named record read =>
      exact .named record (forall₂_imp_mem read fun item member _ =>
        within.parameter (.of_item record (by simp) member))
  | function record read last =>
      exact .function record
        (forall₂_imp_mem read fun item member _ =>
          within.parameter (.of_item record (by simp) member))
        (within.ty (.of_record? record (by simp)) last)
  | union record read =>
      exact .union record (forall₂_imp_mem read fun item member _ =>
        within.ty (.of_item record (by simp) member))
  | list record read => exact .list record (within.ty (.of_record? record (by simp)) read)
  | tuple record read =>
      exact .tuple record (forall₂_imp_mem read fun item member _ =>
        within.ty (.of_item record (by simp) member))
  | dictionary record read =>
      exact .dictionary record (forall₂_imp_mem read fun member inside _ same =>
        ⟨same.1, within.ty (.of_member record (by simp) inside) same.2⟩)

inductive Ty.ReadBy (readers : Readers) : Json → Ty → Prop
  | bare {tag : String} {t : Ty} (primitive : Ty.ofTag? tag = some t) :
      Ty.ReadBy readers (.string tag) t
  | null {tag : String} {t : Ty} (primitive : Ty.ofTag? tag = some t) :
      Ty.ReadBy readers (.tagged tag .null) t
  | tagged {tag : String} {body : Json} {t : Ty} (parts : Ty.Assembled readers body tag t) :
      Ty.ReadBy readers (.tagged tag body) t

/-- A value by its document. Only a shape is taken for a classifier. -/
def Value.ReadBy (readers : Readers) (json : Json) (value : Value) : Prop :=
  ∃ payload classifier, json.record? ["payload", "ty"] = some [some payload, some classifier] ∧
    Payload.ofJson? payload = some value.payload ∧
    readers.ty classifier = some (.resolved value.shape)

/-- A default that is missing or null is none. -/
def Value.DefaultReadBy (readers : Readers) : Option Json → Option Value → Prop
  | none, default => default = none
  | some json, none => json.isNull = true
  | some json, some value => json.isNull = false ∧ readers.value json = some value

def Parameter.ReadBy (readers : Readers) (json : Json) (p : Parameter) : Prop :=
  ∃ classifier default, json.record? ["name", "ty", "default_value"] =
      some [some (.string p.name), some classifier, default] ∧
    readers.ty classifier = some p.ty ∧ Value.DefaultReadBy readers default p.default

theorem Value.decode?_eq_some_iff {depth : Nat} {json : Json} {value : Value} :
    Value.decode? (depth + 1) json = some value ↔ Value.ReadBy (.upTo depth) json value := by
  constructor
  · intro read
    simp only [Value.decode?] at read
    split at read
    · next payload classifier record =>
        obtain ⟨content, one, rest⟩ := Option.bind_eq_some_iff.mp read
        obtain ⟨t, two, last⟩ := Option.bind_eq_some_iff.mp rest
        split at last
        · next shape =>
            cases last
            exact ⟨payload, classifier, record, one, two⟩
        · cases last
    · cases read
  · rintro ⟨payload, classifier, record, content, shape⟩
    obtain ⟨_, _⟩ := value
    simp only [Readers.upTo] at shape
    simp [Value.decode?, record, content, shape]

theorem Parameter.decode?_eq_some_iff {depth : Nat} {json : Json} {p : Parameter} :
    Parameter.decode? (depth + 1) json = some p ↔ Parameter.ReadBy (.upTo depth) json p := by
  constructor
  · intro read
    simp only [Parameter.decode?] at read
    split at read
    · next name classifier default record =>
        obtain ⟨ty, one, rest⟩ := Option.bind_eq_some_iff.mp read
        split at rest
        · cases rest
          exact ⟨classifier, none, record, one, rfl⟩
        · next document =>
            split at rest
            · next null =>
                cases rest
                exact ⟨classifier, some document, record, one, null⟩
            · next given =>
                obtain ⟨value, inner, rfl⟩ := Option.map_eq_some_iff.mp rest
                exact ⟨classifier, some document, record, one, by simpa using given, inner⟩
    · cases read
  · rintro ⟨classifier, default, record, ty, given⟩
    obtain ⟨name, type, value⟩ := p
    simp only [Readers.upTo] at ty
    cases default with
    | none => cases given; simp [Parameter.decode?, record, ty]
    | some document =>
        cases value with
        | none =>
            have null : document.isNull = true := given
            simp [Parameter.decode?, record, ty, null]
        | some value =>
            obtain ⟨notNull, inner⟩ := given
            simp only [Readers.upTo] at inner
            simp [Parameter.decode?, record, ty, notNull, inner]

theorem Ty.readBy_of_decode? {depth : Nat} {json : Json} {t : Ty}
    (read : Ty.decode? depth json = some t) : Ty.ReadBy (.upTo (depth - 2)) json t := by
  unfold Ty.decode? at read
  split at read
  · exact .bare read
  · next depth tag body =>
      split at read
      · next null =>
          cases body with
          | null => exact .null read
          | _ => cases null
      · cases depth with
        | zero => cases read
        | succ depth => exact .tagged (Ty.decodeParts?_eq_some_iff.mp read)
  · cases read

theorem Ty.Assembled.isNull {readers : Readers} {body : Json} {tag : String} {t : Ty}
    (parts : Ty.Assembled readers body tag t) : body.isNull = false := by
  cases parts <;> exact Json.isNull_of_record? ‹_›

theorem Ty.Assembled.nesting_pos {readers : Readers} {body : Json} {tag : String} {t : Ty}
    (parts : Ty.Assembled readers body tag t) : 0 < body.nesting := by
  cases parts <;> exact Nat.zero_lt_of_lt (Json.Part.of_record? ‹_› List.mem_cons_self).nesting_lt

theorem Ty.decode?_of_assembled {depth : Nat} {body : Json} {tag : String} {t : Ty}
    (parts : Ty.Assembled (.upTo depth) body tag t) :
    Ty.decode? (depth + 2) (.tagged tag body) = some t := by
  simp only [Json.tagged, Ty.decode?, parts.isNull, Bool.false_eq_true, if_false]
  exact Ty.decodeParts?_eq_some_iff.mpr parts

/-- What is read with one bound is read with every bound that the document fits. -/
structure Readers.Steady (depth : Nat) : Prop where
  ty : ∀ {json t enough}, Ty.decode? depth json = some t → json.nesting ≤ enough →
    Ty.decode? enough json = some t
  value : ∀ {json v enough}, Value.decode? depth json = some v → json.nesting ≤ enough →
    Value.decode? enough json = some v
  parameter : ∀ {json p enough}, Parameter.decode? depth json = some p → json.nesting ≤ enough →
    Parameter.decode? enough json = some p

theorem Readers.Steady.within {depth enough : Nat} (steady : Readers.Steady depth) {json : Json}
    (fits : json.nesting ≤ enough + 1) : Readers.Within json (.upTo depth) (.upTo enough) where
  ty part read := steady.ty read (Nat.le_of_lt_succ (Nat.lt_of_lt_of_le part.nesting_lt fits))
  value part read := steady.value read (Nat.le_of_lt_succ (Nat.lt_of_lt_of_le part.nesting_lt fits))
  parameter part read :=
    steady.parameter read (Nat.le_of_lt_succ (Nat.lt_of_lt_of_le part.nesting_lt fits))

theorem Value.ReadBy.within {json : Json} {v : Value} (within : one.Within json other)
    (read : Value.ReadBy one json v) : Value.ReadBy other json v := by
  obtain ⟨payload, classifier, record, content, shape⟩ := read
  exact ⟨payload, classifier, record, content, within.ty (.of_record? record (by simp)) shape⟩

theorem Value.ReadBy.nesting_pos {readers : Readers} {json : Json} {v : Value}
    (read : Value.ReadBy readers json v) : 0 < json.nesting := by
  obtain ⟨payload, classifier, record, -⟩ := read
  exact Nat.zero_lt_of_lt (Json.Part.of_record? record List.mem_cons_self).nesting_lt

theorem Parameter.ReadBy.within {json : Json} {p : Parameter} (within : one.Within json other)
    (read : Parameter.ReadBy one json p) : Parameter.ReadBy other json p := by
  obtain ⟨classifier, document, record, ty, given⟩ := read
  obtain ⟨name, type, default⟩ := p
  have same : Value.DefaultReadBy other document default := by
    cases document with
    | none => exact given
    | some document =>
        cases default with
        | none => exact given
        | some value => exact ⟨given.1, within.value (.of_record? record (by simp)) given.2⟩
  exact ⟨classifier, document, record, within.ty (.of_record? record (by simp)) ty, same⟩

theorem Parameter.ReadBy.nesting_pos {readers : Readers} {json : Json} {p : Parameter}
    (read : Parameter.ReadBy readers json p) : 0 < json.nesting := by
  obtain ⟨classifier, document, record, -⟩ := read
  exact Nat.zero_lt_of_lt (Json.Part.of_record? record List.mem_cons_self).nesting_lt

theorem Json.nesting_tagged (tag : String) (body : Json) :
    (Json.tagged tag body).nesting = body.nesting + 1 := by
  simp [Json.tagged, Json.nesting, Json.nestingMembers]

theorem Ty.decode?_of_readBy {enough : Nat} {readers : Readers} {json : Json} {t : Ty}
    (read : Ty.ReadBy readers json t) (fits : json.nesting ≤ enough)
    (within : ∀ {body depth}, body.nesting ≤ depth + 1 → readers.Within body (.upTo depth)) :
    Ty.decode? enough json = some t := by
  cases read with
  | bare primitive => simpa [Ty.decode?] using primitive
  | null primitive =>
      rw [Json.nesting_tagged] at fits
      cases enough with
      | zero => cases fits
      | succ enough => simpa [Json.tagged, Ty.decode?, Json.isNull] using primitive
  | tagged parts =>
      rw [Json.nesting_tagged] at fits
      obtain ⟨depth, rfl⟩ : ∃ depth, enough = depth + 2 :=
        ⟨enough - 2, by have := parts.nesting_pos; omega⟩
      exact Ty.decode?_of_assembled (parts.within (within (Nat.le_of_succ_le_succ fits)))

theorem Value.decode?_of_readBy {enough : Nat} {readers : Readers} {json : Json} {v : Value}
    (read : Value.ReadBy readers json v) (fits : json.nesting ≤ enough)
    (within : ∀ {body depth}, body.nesting ≤ depth + 1 → readers.Within body (.upTo depth)) :
    Value.decode? enough json = some v := by
  obtain ⟨depth, rfl⟩ : ∃ depth, enough = depth + 1 :=
    ⟨enough - 1, by have := read.nesting_pos; omega⟩
  exact Value.decode?_eq_some_iff.mpr (read.within (within fits))

theorem Parameter.decode?_of_readBy {enough : Nat} {readers : Readers} {json : Json} {p : Parameter}
    (read : Parameter.ReadBy readers json p) (fits : json.nesting ≤ enough)
    (within : ∀ {body depth}, body.nesting ≤ depth + 1 → readers.Within body (.upTo depth)) :
    Parameter.decode? enough json = some p := by
  obtain ⟨depth, rfl⟩ : ∃ depth, enough = depth + 1 :=
    ⟨enough - 1, by have := read.nesting_pos; omega⟩
  exact Parameter.decode?_eq_some_iff.mpr (read.within (within fits))

/-- By induction on the bound: a type hands its parts on two brackets down, a value or a parameter
one. -/
theorem Readers.steady (depth : Nat) : Readers.Steady depth := by
  induction depth using Nat.strongRecOn with
  | _ depth ih =>
      constructor
      · intro json t enough read fits
        cases depth with
        | zero =>
            -- without brackets only a bare name is read, and that needs no bound
            cases Ty.readBy_of_decode? read with
            | bare primitive => simpa [Ty.decode?] using primitive
            | null _ => cases read
            | tagged _ => cases read
        | succ depth =>
            have lower : depth + 1 - 2 < depth + 1 := by omega
            exact Ty.decode?_of_readBy (Ty.readBy_of_decode? read) fits (ih _ lower).within
      · intro json v enough read fits
        cases depth with
        | zero => cases read
        | succ depth =>
            exact Value.decode?_of_readBy (Value.decode?_eq_some_iff.mp read) fits
              (ih depth (Nat.lt_succ_self depth)).within
      · intro json p enough read fits
        cases depth with
        | zero => cases read
        | succ depth =>
            exact Parameter.decode?_of_readBy (Parameter.decode?_eq_some_iff.mp read) fits
              (ih depth (Nat.lt_succ_self depth)).within

theorem Readers.upTo_within_unbounded (depth : Nat) (json : Json) :
    Readers.Within json (.upTo depth) .unbounded where
  ty _ read := (Readers.steady depth).ty read (Nat.le_refl _)
  value _ read := (Readers.steady depth).value read (Nat.le_refl _)
  parameter _ read := (Readers.steady depth).parameter read (Nat.le_refl _)

theorem Readers.unbounded_within_upTo {json : Json} {depth : Nat}
    (fits : json.nesting ≤ depth + 1) : Readers.Within json .unbounded (.upTo depth) where
  ty {inner _} part read := ((Readers.steady inner.nesting).within fits).ty part read
  value {inner _} part read := ((Readers.steady inner.nesting).within fits).value part read
  parameter {inner _} part read := ((Readers.steady inner.nesting).within fits).parameter part read

theorem Ty.ReadBy.within {json : Json} {t : Ty} (within : ∀ body, one.Within body other)
    (read : Ty.ReadBy one json t) : Ty.ReadBy other json t := by
  cases read with
  | bare primitive => exact .bare primitive
  | null primitive => exact .null primitive
  | tagged parts => exact .tagged (parts.within (within _))

theorem Ty.ofJson?_eq_some_iff {json : Json} {t : Ty} :
    Ty.ofJson? json = some t ↔ Ty.ReadBy .unbounded json t := by
  constructor
  · intro read
    exact (Ty.readBy_of_decode? read).within (Readers.upTo_within_unbounded _)
  · intro read
    exact Ty.decode?_of_readBy read (Nat.le_refl _) Readers.unbounded_within_upTo

theorem Value.ofJson?_eq_some_iff {json : Json} {v : Value} :
    Value.ofJson? json = some v ↔ Value.ReadBy .unbounded json v := by
  constructor
  · intro read
    rw [Value.ofJson?] at read
    cases depth : json.nesting with
    | zero =>
        rw [depth] at read
        cases read
    | succ depth =>
        simp only [depth] at read
        exact (Value.decode?_eq_some_iff.mp read).within (Readers.upTo_within_unbounded _ _)
  · intro read
    exact Value.decode?_of_readBy read (Nat.le_refl _) Readers.unbounded_within_upTo

theorem Parameter.ofJson?_eq_some_iff {json : Json} {p : Parameter} :
    Parameter.ofJson? json = some p ↔ Parameter.ReadBy .unbounded json p := by
  constructor
  · intro read
    rw [Parameter.ofJson?] at read
    cases depth : json.nesting with
    | zero =>
        rw [depth] at read
        cases read
    | succ depth =>
        rw [depth] at read
        exact (Parameter.decode?_eq_some_iff.mp read).within (Readers.upTo_within_unbounded _ _)
  · intro read
    exact Parameter.decode?_of_readBy read (Nat.le_refl _) Readers.unbounded_within_upTo

end StructuralTypes
