import StructuralTypes.Proofs.Matching

/-!
Matches as a relation. Types match if two of their branches do, a literal matches what its
classifier is below, and shapes match part by part. So a match does not depend on the order of
its sides, as long as literals are of primitive types, which have nothing but themselves above
and below, and dictionaries stand in key order.
-/

namespace StructuralTypes

namespace Ty

def primitiveLiteral : Ty → Bool
  | .literal value => value.shape.isPrimitive
  | _ => true

def inKeyOrder : Ty → Bool
  | .resolved (.dictionary entries) => decide (Keyed.Sorted entries)
  | _ => true

/-- All literals are of primitive types and all dictionaries in key order. -/
structure Tidy (a : Ty) : Prop where
  literals : a.everywhere primitiveLiteral = true
  ordered : a.everywhere inKeyOrder = true

theorem everywhere_of_mem_parts {test : Ty → Bool} {a part : Ty} (holds : a.everywhere test = true)
    (member : part ∈ a.parts) : part.everywhere test = true :=
  ((everywhere_iff a).mp holds).2 part member

theorem primitive_of_literal {value : Value}
    (holds : (Ty.literal value).everywhere primitiveLiteral = true) :
    value.shape.isPrimitive = true :=
  ((everywhere_iff _).mp holds).1

namespace Tidy

variable {a : Ty}

theorem part (tidy : a.Tidy) {part : Ty} (member : part ∈ a.parts) : part.Tidy :=
  ⟨everywhere_of_mem_parts tidy.literals member, everywhere_of_mem_parts tidy.ordered member⟩

theorem branch (tidy : a.Tidy) {branch : Ty} (member : branch ∈ a.branches) : branch.Tidy :=
  branch_of_hereditary (fun _ whole _ inside => whole.part inside) tidy member

theorem sorted {entries : List (String × Ty)} (tidy : (Ty.resolved (.dictionary entries)).Tidy) :
    Keyed.Sorted entries :=
  of_decide_eq_true ((everywhere_iff _).mp tidy.ordered).1

end Tidy

end Ty

theorem forall₂_turn {α β : Type} {first : α → β → Prop} {second : β → α → Prop} {as : List α}
    {bs : List β} (each : List.Forall₂ first as bs)
    (turns : ∀ a ∈ as, ∀ b ∈ bs, first a b → second b a) : List.Forall₂ second bs as := by
  induction each with
  | nil => exact .nil
  | @cons a b as bs head _ ih =>
      constructor
      · exact turns a List.mem_cons_self b List.mem_cons_self head
      · exact ih fun x inA y inB =>
          turns x (List.mem_cons_of_mem _ inA) y (List.mem_cons_of_mem _ inB)

namespace Reference

theorem subset_of_ground {s t : Shape} (below : ShapeBelow s t) :
    subset (.resolved s) (.resolved t) = true :=
  (subset_resolved_iff s t).mpr (.inr below)

/-- A match of two shapes, part by part. Parameters of named types are compared as in the subset
relation, all else matches by its parts. -/
inductive ShapeMatch : Shape → Shape → Prop where
  | number : ShapeMatch .number .number
  | text : ShapeMatch .text .text
  | logic : ShapeMatch .logic .logic
  | void : ShapeMatch .void .void
  | named {name : String} {ps rs : List Parameter} (parameters : ParametersEqual ps rs) :
      ShapeMatch (.named name ps) (.named name rs)
  | function {ps rs : List Parameter} {a b : Ty}
      (parameters : List.Forall₂ (fun a b => typesMatch a b = true) (ps.map (·.ty)) (rs.map (·.ty)))
      (result : typesMatch a b = true) : ShapeMatch (.function ps a) (.function rs b)
  | list {a b : Ty} (element : typesMatch a b = true) : ShapeMatch (.list a) (.list b)
  | tuple {as bs : List Ty} (elements : List.Forall₂ (fun a b => typesMatch a b = true) as bs) :
      ShapeMatch (.tuple as) (.tuple bs)
  | dictionary {entries others : List (String × Ty)} {key : String} {field other : Ty}
      (found : Keyed.get? key entries = some field) (member : (key, other) ∈ others)
      (matched : typesMatch field other = true) :
      ShapeMatch (.dictionary entries) (.dictionary others)

theorem ShapeMatch.of_primitive {s : Shape} (primitive : s.isPrimitive = true) :
    ShapeMatch s s := by
  cases s with
  | number => exact .number
  | text => exact .text
  | logic => exact .logic
  | void => exact .void
  | _ => cases primitive

theorem ShapeBelow.of_primitive {s : Shape} (primitive : s.isPrimitive = true) :
    ShapeBelow s s := by
  apply ShapeBelow.of_equal (BEq.refl s)
  rintro entries rfl
  cases primitive

theorem ShapeMeet.of_primitive {s : Shape} (primitive : s.isPrimitive = true) :
    ShapeMeet s s s := by
  cases s with
  | number => exact .number
  | text => exact .text
  | logic => exact .logic
  | void => exact .void
  | _ => cases primitive

theorem ShapeMeet.eq_of_primitive {s t shape : Shape} (met : ShapeMeet s t shape)
    (primitive : shape.isPrimitive = true) : s = shape ∧ t = shape := by
  cases met <;> first | exact ⟨rfl, rfl⟩ | cases primitive

theorem typesMatch_iff_meet {a b : Ty} : typesMatch a b = true ↔ ∃ ty, meet a b = some ty :=
  Option.isSome_iff_exists

theorem exists_meetsEach_iff {as bs : List Ty} :
    (∃ tys, MeetsEach as bs tys) ↔ List.Forall₂ (fun a b => typesMatch a b = true) as bs := by
  constructor
  · rintro ⟨tys, each⟩
    induction each with
    | nil => exact .nil
    | cons first _ ih => exact .cons (typesMatch_iff_meet.mpr ⟨_, first⟩) ih
  · intro each
    induction each with
    | nil => exact ⟨[], .nil⟩
    | cons first _ ih =>
        obtain ⟨ty, found⟩ := typesMatch_iff_meet.mp first
        obtain ⟨tys, others⟩ := ih
        exact ⟨ty :: tys, .cons found others⟩

theorem mem_commonFields {entries others : List (String × Ty)} {key : String} {ty : Ty} :
    (key, ty) ∈ commonFields entries others ↔ ∃ field other, (key, other) ∈ others ∧
      Keyed.get? key entries = some field ∧ meet field other = some ty := by
  simp only [commonFields, List.mem_filterMap, Option.bind_eq_some_iff, Option.map_eq_some_iff,
    Prod.exists, Prod.mk.injEq]
  constructor
  · rintro ⟨_, other, member, field, found, _, met, rfl, rfl⟩
    exact ⟨field, other, member, found, met⟩
  · rintro ⟨field, other, member, found, met⟩
    exact ⟨key, other, member, field, found, ty, met, rfl, rfl⟩

theorem typesMatch_resolved_iff (s t : Shape) :
    typesMatch (.resolved s) (.resolved t) = true ↔ ShapeMatch s t := by
  have meets : typesMatch (.resolved s) (.resolved t) = true ↔ ∃ shape, ShapeMeet s t shape := by
    rw [typesMatch_iff_meet]
    constructor
    · rintro ⟨ty, found⟩
      obtain ⟨shape, -, ground⟩ := (meet_resolved_iff s t ty).mp found
      exact ⟨shape, ground⟩
    · rintro ⟨shape, ground⟩
      exact ⟨_, (meet_resolved_iff s t _).mpr ⟨shape, rfl, ground⟩⟩
  rw [meets]
  constructor
  · rintro ⟨shape, ground⟩
    cases ground with
    | number => exact .number
    | text => exact .text
    | logic => exact .logic
    | void => exact .void
    | named below =>
        cases below with
        | named parameters => exact .named parameters
    | function parameters result =>
        exact .function (exists_meetsEach_iff.mp ⟨_, parameters⟩)
          (typesMatch_iff_meet.mpr ⟨_, result⟩)
    | list element => exact .list (typesMatch_iff_meet.mpr ⟨_, element⟩)
    | tuple elements => exact .tuple (exists_meetsEach_iff.mp ⟨_, elements⟩)
    | dictionary shared =>
        obtain ⟨⟨key, ty⟩, member⟩ := List.exists_mem_of_ne_nil _ shared
        obtain ⟨field, other, inside, found, met⟩ := mem_commonFields.mp member
        exact .dictionary found inside (typesMatch_iff_meet.mpr ⟨ty, met⟩)
  · intro matched
    cases matched with
    | number => exact ⟨_, .number⟩
    | text => exact ⟨_, .text⟩
    | logic => exact ⟨_, .logic⟩
    | void => exact ⟨_, .void⟩
    | named parameters => exact ⟨_, .named (.named parameters)⟩
    | function parameters result =>
        obtain ⟨tys, each⟩ := exists_meetsEach_iff.mpr parameters
        obtain ⟨ty, found⟩ := typesMatch_iff_meet.mp result
        exact ⟨_, .function each found⟩
    | list element =>
        obtain ⟨ty, found⟩ := typesMatch_iff_meet.mp element
        exact ⟨_, .list found⟩
    | tuple elements =>
        obtain ⟨tys, each⟩ := exists_meetsEach_iff.mpr elements
        exact ⟨_, .tuple each⟩
    | dictionary found member matched =>
        obtain ⟨ty, met⟩ := typesMatch_iff_meet.mp matched
        have shared := mem_commonFields.mpr ⟨_, _, member, found, met⟩
        exact ⟨_, .dictionary (List.ne_nil_of_mem shared)⟩

theorem typesMatch_literals_iff (u v : Value) : typesMatch (.literal u) (.literal v) = true ↔
    ShapeBelow u.shape v.shape ∧ (u.payload == v.payload) = true := by
  rw [← valueEqual_iff]
  change (meet (.literal u) (.literal v)).isSome = true ↔ _
  rw [meet_literals]
  split <;> simp_all

theorem typesMatch_literal_resolved (u : Value) (t : Shape) :
    typesMatch (.literal u) (.resolved t) = subset (.resolved u.shape) (.resolved t) := by
  rw [← subset_literal_resolved]
  change (meet (.literal u) (.resolved t)).isSome = _
  rw [meet_literal_resolved]
  cases subset (.literal u) (.resolved t) <;> rfl

theorem typesMatch_resolved_literal (s : Shape) (v : Value) :
    typesMatch (.resolved s) (.literal v) = subset (.resolved v.shape) (.resolved s) := by
  rw [← subset_literal_resolved]
  change (meet (.resolved s) (.literal v)).isSome = _
  rw [meet_resolved_literal]
  cases subset (.literal v) (.resolved s) <;> rfl

variable {n : Nat}

/-- A match may be turned round, for types of joint height below `n`. -/
def TurnsBelow (n : Nat) : Prop :=
  ∀ {a b : Ty}, a.Tidy → b.Tidy → a.height + b.height < n → typesMatch a b = true →
    typesMatch b a = true

theorem ParametersEqual.symm {ps rs : List Parameter} (equal : ParametersEqual ps rs) :
    ParametersEqual rs ps :=
  equal.flip.imp fun _ _ same => ⟨same.1.symm, typeEqual_symm same.2⟩

theorem TurnsBelow.shapes (ih : TurnsBelow n) {s t : Shape} (tidyS : (Ty.resolved s).Tidy)
    (tidyT : (Ty.resolved t).Tidy) (low : s.height + t.height ≤ n) (matched : ShapeMatch s t) :
    ShapeMatch t s := by
  have turns : ∀ a ∈ s.parts, ∀ b ∈ t.parts, typesMatch a b = true → typesMatch b a = true := by
    intro a inS b inT
    have left := Shape.height_of_mem_parts inS
    have right := Shape.height_of_mem_parts inT
    exact ih (tidyS.part inS) (tidyT.part inT) (by omega)
  cases matched with
  | number => exact .number
  | text => exact .text
  | logic => exact .logic
  | void => exact .void
  | named parameters =>
      exact .named parameters.symm
  | function parameters result =>
      simp only [Shape.parts, List.forall_mem_cons] at turns
      exact .function (forall₂_turn parameters fun a inA => (turns.2 a inA).2) (turns.1.1 result)
  | list element =>
      exact .list (turns _ List.mem_cons_self _ List.mem_cons_self element)
  | tuple elements => exact .tuple (forall₂_turn elements turns)
  | dictionary found member matched =>
      -- what was found under its key stands there, and what stands there is found
      have inside := Keyed.mem_of_get? found
      have there := Keyed.get?_of_mem tidyT.sorted member
      exact .dictionary there inside
        (turns _ (List.mem_map_of_mem inside) _ (List.mem_map_of_mem member) matched)

theorem TurnsBelow.single (ih : TurnsBelow n) {a b : Ty} (tidyA : a.Tidy) (tidyB : b.Tidy)
    (low : a.height + b.height < n + 1) (singleA : a.isUnion = false) (singleB : b.isUnion = false)
    (matched : typesMatch a b = true) : typesMatch b a = true := by
  cases a with
  | union parts => cases singleA
  | literal u =>
      cases b with
      | union parts => cases singleB
      | literal v =>
          rw [typesMatch_literals_iff] at matched ⊢
          have same := eq_of_primitive (subset_of_ground matched.1)
            (Ty.primitive_of_literal tidyA.literals)
          rw [same] at matched ⊢
          exact ⟨matched.1, BEq.symm matched.2⟩
      | resolved t =>
          rw [typesMatch_resolved_literal, ← typesMatch_literal_resolved]
          exact matched
  | resolved s =>
      cases b with
      | union parts => cases singleB
      | literal v =>
          rw [typesMatch_literal_resolved, ← typesMatch_resolved_literal]
          exact matched
      | resolved t =>
          rw [typesMatch_resolved_iff] at matched ⊢
          exact ih.shapes tidyA tidyB (Nat.le_of_lt_succ low) matched

theorem turnsBelow (n : Nat) : TurnsBelow n := by
  induction n with
  | zero => exact fun _ _ low => absurd low (Nat.not_lt_zero _)
  | succ n ih =>
      intro a b tidyA tidyB low matched
      obtain ⟨branch, inA, other, inB, holds⟩ := (typesMatch_iff a b).mp matched
      have left := Ty.height_of_mem_branches inA
      have right := Ty.height_of_mem_branches inB
      rw [typesMatch_iff]
      refine ⟨other, inB, branch, inA, ?_⟩
      exact ih.single (tidyA.branch inA) (tidyB.branch inB) (by omega)
        (Ty.isUnion_of_mem_branches inA) (Ty.isUnion_of_mem_branches inB) holds

theorem typesMatch_symm {a b : Ty} (tidyA : a.Tidy) (tidyB : b.Tidy)
    (matched : typesMatch a b = true) : typesMatch b a = true :=
  turnsBelow _ tidyA tidyB (Nat.lt_succ_self _) matched

end Reference

end StructuralTypes
