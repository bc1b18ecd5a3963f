import Mathlib
import StructuralTypes.Ty.Branches
import StructuralTypes.Ty.Equality
import StructuralTypes.Ty.Height

/-!
Structural equality is an equivalence. A canonical form puts the key of a number in its
place, everywhere in a payload or type, and two payloads or types are equal exactly when
their canonical forms are identical. So reflexivity, symmetry and transitivity, also at
not-a-number and the two zeros, are those of identity. What looks at a type without
looking at numbers (its height, its branches, a collapsed list, an entry by key) gives
equal results on equal types.
-/

namespace StructuralTypes

/-- The number that all numbers equal to `n` have in common. -/
def Number.canonical (n : Number) : Number := ⟨n.key⟩

theorem Number.same_iff (a b : Number) : a.same b = true ↔ a.canonical = b.canonical := by
  simp [Number.same, Number.canonical]

/-- Equality by an equal form is an equivalence. -/
theorem equivBEq_of_form {α β : Type} [BEq α] (form : α → β)
    (same : ∀ a b : α, (a == b) = true ↔ form a = form b) : EquivBEq α where
  rfl := (same _ _).mpr rfl
  symm equal := (same _ _).mpr ((same _ _).mp equal).symm
  trans first second := (same _ _).mpr (((same _ _).mp first).trans ((same _ _).mp second))

namespace Payload

mutual

def canonical : Payload → Payload
  | .number value => .number value.canonical
  | .text value => .text value
  | .logic value => .logic value
  | .void => .void
  | .list items => .list (canonicalItems items)
  | .dictionary entries => .dictionary (canonicalEntries entries)
  | .native name => .native name

def canonicalItems : List Payload → List Payload
  | [] => []
  | item :: rest => canonical item :: canonicalItems rest

def canonicalEntries : List (String × Payload) → List (String × Payload)
  | [] => []
  | (key, value) :: rest => (key, canonical value) :: canonicalEntries rest

end

mutual

theorem beq_iff : ∀ p q : Payload, beq p q = true ↔ canonical p = canonical q
  | .number a, q => by cases q <;> simp [beq, canonical, Number.same_iff]
  | .text a, q => by cases q <;> simp [beq, canonical]
  | .logic a, q => by cases q <;> simp [beq, canonical]
  | .void, q => by cases q <;> simp [beq, canonical]
  | .list as, q => by cases q <;> simp [beq, canonical, beqItems_iff as]
  | .dictionary as, q => by cases q <;> simp [beq, canonical, beqEntries_iff as]
  | .native a, q => by cases q <;> simp [beq, canonical]

theorem beqItems_iff : ∀ as bs : List Payload,
    beqItems as bs = true ↔ canonicalItems as = canonicalItems bs
  | [], bs => by cases bs <;> simp [beqItems, canonicalItems]
  | a :: as, bs => by cases bs <;> simp [beqItems, canonicalItems, beq_iff a, beqItems_iff as]

theorem beqEntries_iff : ∀ as bs : List (String × Payload),
    beqEntries as bs = true ↔ canonicalEntries as = canonicalEntries bs
  | [], bs => by cases bs <;> simp [beqEntries, canonicalEntries]
  | (key, a) :: as, bs => by
      cases bs <;> simp [beqEntries, canonicalEntries, beq_iff a, beqEntries_iff as]

end

instance : EquivBEq Payload := equivBEq_of_form canonical beq_iff

end Payload

mutual

def Ty.canonical : Ty → Ty
  | .literal value => .literal value.canonical
  | .union branches => .union (Ty.canonicalAll branches)
  | .resolved shape => .resolved shape.canonical

def Shape.canonical : Shape → Shape
  | .number => .number
  | .text => .text
  | .logic => .logic
  | .void => .void
  | .named name parameters => .named name (Parameter.canonicalAll parameters)
  | .function parameters result => .function (Parameter.canonicalAll parameters) result.canonical
  | .list element => .list element.canonical
  | .tuple elements => .tuple (Ty.canonicalAll elements)
  | .dictionary entries => .dictionary (Ty.canonicalEntries entries)

def Value.canonical : Value → Value
  | ⟨payload, shape⟩ => ⟨payload.canonical, shape.canonical⟩

def Parameter.canonical : Parameter → Parameter
  | ⟨name, ty, default⟩ => ⟨name, ty.canonical, Value.canonicalOption default⟩

def Value.canonicalOption : Option Value → Option Value
  | none => none
  | some value => some value.canonical

def Ty.canonicalAll : List Ty → List Ty
  | [] => []
  | ty :: rest => ty.canonical :: Ty.canonicalAll rest

def Parameter.canonicalAll : List Parameter → List Parameter
  | [] => []
  | parameter :: rest => parameter.canonical :: Parameter.canonicalAll rest

def Ty.canonicalEntries : List (String × Ty) → List (String × Ty)
  | [] => []
  | (key, ty) :: rest => (key, ty.canonical) :: Ty.canonicalEntries rest

end

mutual

theorem Ty.beq_iff : ∀ a b : Ty, a.beq b = true ↔ a.canonical = b.canonical
  | .literal u, b => by cases b <;> simp [Ty.beq, Ty.canonical, Value.beq_iff u]
  | .union as, b => by cases b <;> simp [Ty.beq, Ty.canonical, Ty.beqAll_iff as]
  | .resolved s, b => by cases b <;> simp [Ty.beq, Ty.canonical, Shape.beq_iff s]

theorem Shape.beq_iff : ∀ s t : Shape, s.beq t = true ↔ s.canonical = t.canonical
  | .number, t => by cases t <;> simp [Shape.beq, Shape.canonical]
  | .text, t => by cases t <;> simp [Shape.beq, Shape.canonical]
  | .logic, t => by cases t <;> simp [Shape.beq, Shape.canonical]
  | .void, t => by cases t <;> simp [Shape.beq, Shape.canonical]
  | .named name ps, t => by
      cases t <;> simp [Shape.beq, Shape.canonical, Parameter.beqAll_iff ps]
  | .function ps result, t => by
      cases t <;> simp [Shape.beq, Shape.canonical, Parameter.beqAll_iff ps, Ty.beq_iff result]
  | .list element, t => by cases t <;> simp [Shape.beq, Shape.canonical, Ty.beq_iff element]
  | .tuple elements, t => by
      cases t <;> simp [Shape.beq, Shape.canonical, Ty.beqAll_iff elements]
  | .dictionary entries, t => by
      cases t <;> simp [Shape.beq, Shape.canonical, Ty.beqEntries_iff entries]

theorem Value.beq_iff : ∀ u v : Value, u.beq v = true ↔ u.canonical = v.canonical
  | ⟨p, s⟩, ⟨q, t⟩ => by
      have payloads : (p == q) = true ↔ p.canonical = q.canonical := Payload.beq_iff p q
      simp [Value.beq, Value.canonical, payloads, Shape.beq_iff s]

theorem Parameter.beq_iff : ∀ p q : Parameter, p.beq q = true ↔ p.canonical = q.canonical
  | ⟨m, a, d⟩, ⟨n, b, e⟩ => by
      simp [Parameter.beq, Parameter.canonical, Ty.beq_iff a, Value.beqOption_iff d, and_assoc]

theorem Value.beqOption_iff : ∀ d e : Option Value,
    Value.beqOption d e = true ↔ Value.canonicalOption d = Value.canonicalOption e
  | none, e => by cases e <;> simp [Value.beqOption, Value.canonicalOption]
  | some u, e => by cases e <;> simp [Value.beqOption, Value.canonicalOption, Value.beq_iff u]

theorem Ty.beqAll_iff : ∀ as bs : List Ty,
    Ty.beqAll as bs = true ↔ Ty.canonicalAll as = Ty.canonicalAll bs
  | [], bs => by cases bs <;> simp [Ty.beqAll, Ty.canonicalAll]
  | a :: as, bs => by
      cases bs <;> simp [Ty.beqAll, Ty.canonicalAll, Ty.beq_iff a, Ty.beqAll_iff as]

theorem Parameter.beqAll_iff : ∀ ps qs : List Parameter,
    Parameter.beqAll ps qs = true ↔ Parameter.canonicalAll ps = Parameter.canonicalAll qs
  | [], qs => by cases qs <;> simp [Parameter.beqAll, Parameter.canonicalAll]
  | p :: ps, qs => by
      cases qs <;>
        simp [Parameter.beqAll, Parameter.canonicalAll, Parameter.beq_iff p,
          Parameter.beqAll_iff ps]

theorem Ty.beqEntries_iff : ∀ as bs : List (String × Ty),
    Ty.beqEntries as bs = true ↔ Ty.canonicalEntries as = Ty.canonicalEntries bs
  | [], bs => by cases bs <;> simp [Ty.beqEntries, Ty.canonicalEntries]
  | (key, a) :: as, [] => by simp [Ty.beqEntries, Ty.canonicalEntries]
  | (key, a) :: as, (other, b) :: bs => by
      simp [Ty.beqEntries, Ty.canonicalEntries, Ty.beq_iff a, Ty.beqEntries_iff as, and_assoc]

end

instance : EquivBEq Ty := equivBEq_of_form Ty.canonical Ty.beq_iff
instance : EquivBEq Shape := equivBEq_of_form Shape.canonical Shape.beq_iff
instance : EquivBEq Value := equivBEq_of_form Value.canonical Value.beq_iff
instance : EquivBEq Parameter := equivBEq_of_form Parameter.canonical Parameter.beq_iff

instance Option.equivBEq {α : Type} [BEq α] [EquivBEq α] : EquivBEq (Option α) where
  rfl := BEq.refl _
  symm {x y} same := by
    match x, y with
    | none, none => rfl
    | some a, some b =>
        have parts : (a == b) = true := same
        have swapped : (b == a) = true := BEq.symm parts
        exact swapped
  trans {x y z} first second := by
    match x, y, z with
    | none, none, none => rfl
    | some a, some b, some c =>
        have left : (a == b) = true := first
        have right : (b == c) = true := second
        have joined : (a == c) = true := BEq.trans left right
        exact joined

theorem list_equal_iff {α : Type} [BEq α] (as bs : List α) :
    (as == bs) = true ↔ List.Forall₂ (fun a b => (a == b) = true) as bs := by
  induction as generalizing bs with
  | nil =>
      cases bs with
      | nil => simp
      | cons b bs => simp
  | cons a as ih =>
      cases bs with
      | nil => simp
      | cons b bs => simp [ih]

theorem exists_equal_of_mem {α : Type} [BEq α] {as bs : List α} (same : as == bs) {a : α}
    (member : a ∈ as) : ∃ b ∈ bs, (a == b) = true := by
  have related := (list_equal_iff _ _).mp same
  clear same
  induction related with
  | nil => simp at member
  | @cons first other _ _ head tail ih =>
      rcases List.mem_cons.mp member with rfl | later
      · exact ⟨other, List.mem_cons_self, head⟩
      · obtain ⟨b, inside, equal⟩ := ih later
        exact ⟨b, List.mem_cons_of_mem _ inside, equal⟩

theorem isEmpty_equal {α : Type} [BEq α] {as bs : List α} (same : as == bs) :
    as.isEmpty = bs.isEmpty := by
  cases (list_equal_iff _ _).mp same <;> rfl

theorem isSome_equal {α : Type} [BEq α] {x y : Option α} (same : x == y) :
    x.isSome = y.isSome := by
  cases x <;> cases y <;> first | rfl | exact absurd same Bool.false_ne_true

theorem Ty.beqAll_eq (as bs : List Ty) : Ty.beqAll as bs = (as == bs) := by
  induction as generalizing bs with
  | nil => cases bs <;> simp [Ty.beqAll]
  | cons a as ih =>
      cases bs with
      | nil => simp [Ty.beqAll]
      | cons b bs => rw [Ty.beqAll, ih, List.cons_beq_cons]; rfl

theorem Parameter.beqAll_eq (ps rs : List Parameter) : Parameter.beqAll ps rs = (ps == rs) := by
  induction ps generalizing rs with
  | nil => cases rs <;> simp [Parameter.beqAll]
  | cons p ps ih =>
      cases rs with
      | nil => simp [Parameter.beqAll]
      | cons r rs => rw [Parameter.beqAll, ih, List.cons_beq_cons]; rfl

theorem Ty.beqEntries_eq (as bs : List (String × Ty)) : Ty.beqEntries as bs = (as == bs) := by
  induction as generalizing bs with
  | nil => cases bs <;> simp [Ty.beqEntries]
  | cons a as ih =>
      cases bs with
      | nil => simp [Ty.beqEntries]
      | cons b bs => rw [Ty.beqEntries, ih, List.cons_beq_cons]; rfl

theorem Value.equal_iff (u v : Value) :
    (u == v) = true ↔ (u.payload == v.payload) = true ∧ (u.shape == v.shape) = true := by
  obtain ⟨p, s⟩ := u
  obtain ⟨q, t⟩ := v
  change Value.beq _ _ = true ↔ _
  rw [Value.beq, Bool.and_eq_true]
  rfl

theorem Parameter.equal_iff (p r : Parameter) :
    (p == r) = true ↔
      p.name = r.name ∧ (p.ty == r.ty) = true ∧ Value.beqOption p.default r.default = true := by
  obtain ⟨m, a, d⟩ := p
  obtain ⟨n, b, e⟩ := r
  change Parameter.beq _ _ = true ↔ _
  rw [Parameter.beq, Bool.and_eq_true, Bool.and_eq_true, beq_iff_eq, and_assoc]
  rfl

theorem Ty.literal_equal_iff (u v : Value) :
    (Ty.literal u == Ty.literal v) = true ↔ (u == v) = true := by
  change Ty.beq _ _ = true ↔ _
  rw [Ty.beq]
  rfl

theorem Ty.resolved_equal_iff (s t : Shape) :
    (Ty.resolved s == Ty.resolved t) = true ↔ (s == t) = true := by
  change Ty.beq _ _ = true ↔ _
  rw [Ty.beq]
  rfl

theorem Ty.union_equal_iff (as bs : List Ty) :
    (Ty.union as == Ty.union bs) = true ↔ (as == bs) = true := by
  change Ty.beq _ _ = true ↔ _
  rw [Ty.beq, Ty.beqAll_eq]

mutual

theorem Ty.height_canonical : ∀ a : Ty, a.canonical.height = a.height
  | .literal value => by simp [Ty.canonical, Ty.height, Value.height_canonical value]
  | .union branches => by simp [Ty.canonical, Ty.height, Ty.tallest_canonical branches]
  | .resolved shape => by simp [Ty.canonical, Ty.height, Shape.height_canonical shape]

theorem Shape.height_canonical : ∀ s : Shape, s.canonical.height = s.height
  | .number | .text | .logic | .void => by simp [Shape.canonical]
  | .named _ parameters => by
      simp [Shape.canonical, Shape.height, Parameter.tallest_canonical parameters]
  | .function parameters result => by
      simp [Shape.canonical, Shape.height, Parameter.tallest_canonical parameters,
        Ty.height_canonical result]
  | .list element => by simp [Shape.canonical, Shape.height, Ty.height_canonical element]
  | .tuple elements => by simp [Shape.canonical, Shape.height, Ty.tallest_canonical elements]
  | .dictionary entries => by
      simp [Shape.canonical, Shape.height, Ty.tallestEntry_canonical entries]

theorem Value.height_canonical : ∀ u : Value, u.canonical.height = u.height
  | ⟨_, shape⟩ => by simp [Value.canonical, Value.height, Shape.height_canonical shape]

theorem Parameter.height_canonical : ∀ p : Parameter, p.canonical.height = p.height
  | ⟨_, ty, _⟩ => by simp [Parameter.canonical, Parameter.height, Ty.height_canonical ty]

theorem Ty.tallest_canonical : ∀ as : List Ty, Ty.tallest (Ty.canonicalAll as) = Ty.tallest as
  | [] => by simp [Ty.canonicalAll]
  | a :: as => by
      simp [Ty.canonicalAll, Ty.tallest, Ty.height_canonical a, Ty.tallest_canonical as]

theorem Parameter.tallest_canonical : ∀ ps : List Parameter,
    Parameter.tallest (Parameter.canonicalAll ps) = Parameter.tallest ps
  | [] => by simp [Parameter.canonicalAll]
  | p :: ps => by
      simp [Parameter.canonicalAll, Parameter.tallest, Parameter.height_canonical p,
        Parameter.tallest_canonical ps]

theorem Ty.tallestEntry_canonical : ∀ as : List (String × Ty),
    Ty.tallestEntry (Ty.canonicalEntries as) = Ty.tallestEntry as
  | [] => by simp [Ty.canonicalEntries]
  | (_, a) :: as => by
      simp [Ty.canonicalEntries, Ty.tallestEntry, Ty.height_canonical a,
        Ty.tallestEntry_canonical as]

end

theorem Ty.height_equal {a b : Ty} (same : a == b) : a.height = b.height := by
  have forms : a.canonical = b.canonical := (Ty.beq_iff a b).mp same
  rw [← Ty.height_canonical a, forms, Ty.height_canonical]

mutual

theorem Ty.branches_canonical : ∀ a : Ty, a.canonical.branches = a.branches.map Ty.canonical
  | .literal value => by simp [Ty.canonical, Ty.branches]
  | .union parts => by simp [Ty.canonical, Ty.branches, Ty.branchesOf_canonical parts]
  | .resolved shape => by simp [Ty.canonical, Ty.branches]

theorem Ty.branchesOf_canonical : ∀ parts : List Ty,
    Ty.branchesOf (Ty.canonicalAll parts) = (Ty.branchesOf parts).map Ty.canonical
  | [] => by simp [Ty.canonicalAll, Ty.branchesOf]
  | a :: rest => by
      simp [Ty.canonicalAll, Ty.branchesOf, Ty.branches_canonical a,
        Ty.branchesOf_canonical rest]

end

theorem Ty.list_equal_iff_map (as bs : List Ty) :
    (as == bs) = true ↔ as.map Ty.canonical = bs.map Ty.canonical := by
  induction as generalizing bs with
  | nil => cases bs <;> simp
  | cons a as ih =>
      have head : ∀ b, (a == b) = true ↔ a.canonical = b.canonical := Ty.beq_iff a
      cases bs <;> simp [ih, head]

theorem Ty.branches_equal {a b : Ty} (same : a == b) : a.branches == b.branches := by
  have forms : a.canonical = b.canonical := (Ty.beq_iff a b).mp same
  rw [Ty.list_equal_iff_map, ← Ty.branches_canonical, forms, Ty.branches_canonical]

theorem Ty.branchesOf_equal {as bs : List Ty} (same : as == bs) :
    Ty.branchesOf as == Ty.branchesOf bs := by
  simpa only [Ty.branches] using Ty.branches_equal ((Ty.union_equal_iff as bs).mpr same)

theorem Ty.collapse_equal {as bs : List Ty} (same : as == bs) :
    Ty.collapse as == Ty.collapse bs := by
  induction as generalizing bs with
  | nil =>
      cases bs with
      | nil => rfl
      | cons b bs => simp at same
  | cons a as ih =>
      cases bs with
      | nil => simp at same
      | cons b bs =>
          simp only [List.cons_beq_cons, Bool.and_eq_true] at same
          have tail := ih same.2
          simp only [Ty.collapse]
          cases left : Ty.collapse as <;> cases right : Ty.collapse bs <;>
            simp only [left, right] at tail ⊢
          · exact same.1
          · simp at tail
          · simp at tail
          · exact (Ty.union_equal_iff _ _).mpr (by simpa using ⟨same.1, tail⟩)

theorem entry_equal_iff (k l : String) (a b : Ty) :
    ((k, a) == (l, b)) = true ↔ k = l ∧ (a == b) = true := by
  change (k == l && a == b) = true ↔ _
  rw [Bool.and_eq_true, beq_iff_eq]

theorem get?_equal {as bs : List (String × Ty)} (same : as == bs) (key : String) :
    Keyed.get? key as == Keyed.get? key bs := by
  induction as generalizing bs with
  | nil =>
      cases bs with
      | nil => rfl
      | cons b bs => simp at same
  | cons a as ih =>
      cases bs with
      | nil => simp at same
      | cons b bs =>
          obtain ⟨k, ty⟩ := a
          obtain ⟨l, other⟩ := b
          rw [List.cons_beq_cons, Bool.and_eq_true, entry_equal_iff] at same
          obtain ⟨⟨rfl, types⟩, rest⟩ := same
          simp only [Keyed.get?]
          split
          · exact types
          · exact ih rest

/-- How closely data are compared: to the letter, or up to equality. -/
inductive Precision where
  | letter
  | equality

def Precision.same {α : Type} [BEq α] (precision : Precision) (x y : α) : Prop :=
  match precision with
  | .letter => x = y
  | .equality => (x == y) = true

/-- Types that compare as the same, one layer down. -/
inductive Ty.Alike (precision : Precision) : Ty → Ty → Prop where
  | literal {u v : Value} (payload : precision.same u.payload v.payload)
      (shape : precision.same u.shape v.shape) : Alike precision (.literal u) (.literal v)
  | union {as bs : List Ty} (branches : precision.same as bs) :
      Alike precision (.union as) (.union bs)
  | resolved {s t : Shape} (shape : precision.same s t) :
      Alike precision (.resolved s) (.resolved t)

inductive Shape.Alike (precision : Precision) : Shape → Shape → Prop where
  | number : Alike precision .number .number
  | text : Alike precision .text .text
  | logic : Alike precision .logic .logic
  | void : Alike precision .void .void
  | named {name : String} {ps rs : List Parameter} (parameters : precision.same ps rs) :
      Alike precision (.named name ps) (.named name rs)
  | function {ps rs : List Parameter} {a b : Ty} (parameters : precision.same ps rs)
      (result : precision.same a b) : Alike precision (.function ps a) (.function rs b)
  | list {a b : Ty} (element : precision.same a b) : Alike precision (.list a) (.list b)
  | tuple {as bs : List Ty} (elements : precision.same as bs) :
      Alike precision (.tuple as) (.tuple bs)
  | dictionary {as bs : List (String × Ty)} (entries : precision.same as bs) :
      Alike precision (.dictionary as) (.dictionary bs)

namespace Precision

variable {precision : Precision} {α : Type} [BEq α]

theorem refl [ReflBEq α] (x : α) : precision.same x x := by
  cases precision with
  | letter => exact Eq.refl x
  | equality => exact BEq.refl x

theorem equal [ReflBEq α] {x y : α} (same : precision.same x y) : (x == y) = true := by
  cases precision with
  | letter =>
      cases same
      exact BEq.refl x
  | equality => exact same

theorem eq [LawfulBEq α] {x y : α} (same : precision.same x y) : x = y := by
  cases precision with
  | letter => exact same
  | equality => exact eq_of_beq same

theorem beq_congr [EquivBEq α] {a b c d : α} (left : precision.same a c)
    (right : precision.same b d) : (a == b) = (c == d) := by
  rw [BEq.congr_left (equal left), BEq.congr_right (equal right)]

theorem some_iff {x y : α} : precision.same (some x) (some y) ↔ precision.same x y := by
  cases precision with
  | letter => exact Option.some_inj
  | equality => exact Iff.rfl

theorem not_none_some {x : α} : ¬ precision.same none (some x) := by
  cases precision <;> nofun

theorem not_some_none {x : α} : ¬ precision.same (some x) none := by
  cases precision <;> nofun

theorem list_iff {as bs : List α} : precision.same as bs ↔ List.Forall₂ precision.same as bs := by
  cases precision with
  | letter =>
      change as = bs ↔ List.Forall₂ Eq as bs
      rw [List.forall₂_eq_eq_eq]
  | equality => exact list_equal_iff as bs

theorem cons_iff {a b : α} {as bs : List α} :
    precision.same (a :: as) (b :: bs) ↔ precision.same a b ∧ precision.same as bs := by
  rw [list_iff, list_iff, List.forall₂_cons]

theorem singleton {a b : α} (same : precision.same a b) : precision.same [a] [b] :=
  list_iff.mpr (.cons same .nil)

theorem option_cases {x y : Option α} (same : precision.same x y) :
    (x = none ∧ y = none) ∨ ∃ a b, x = some a ∧ y = some b ∧ precision.same a b := by
  cases x <;> cases y
  · exact .inl ⟨rfl, rfl⟩
  · exact absurd same not_none_some
  · exact absurd same not_some_none
  · exact .inr ⟨_, _, rfl, rfl, some_iff.mp same⟩

theorem entry_iff {k l : String} {a b : Ty} :
    precision.same (k, a) (l, b) ↔ k = l ∧ precision.same a b := by
  cases precision with
  | letter => exact Iff.of_eq (Prod.mk.injEq k a l b)
  | equality => exact entry_equal_iff k l a b

theorem value_iff {u v : Value} : precision.same u v ↔
    precision.same u.payload v.payload ∧ precision.same u.shape v.shape := by
  cases precision with
  | letter =>
      obtain ⟨p, s⟩ := u
      obtain ⟨q, t⟩ := v
      exact Value.mk.injEq p s q t ▸ Iff.rfl
  | equality => exact Value.equal_iff u v

theorem parameter_name {p r : Parameter} (same : precision.same p r) : p.name = r.name :=
  ((Parameter.equal_iff _ _).mp (equal same)).1

theorem parameter_ty {p r : Parameter} (same : precision.same p r) :
    precision.same p.ty r.ty := by
  cases precision with
  | letter => exact congrArg Parameter.ty same
  | equality => exact ((Parameter.equal_iff _ _).mp same).2.1

theorem parameter_retyped {p r : Parameter} (same : precision.same p r) {a b : Ty}
    (types : precision.same a b) :
    precision.same { p with ty := a } { r with ty := b } := by
  cases precision with
  | letter =>
      cases same
      cases types
      rfl
  | equality =>
      obtain ⟨name, _, default⟩ := (Parameter.equal_iff _ _).mp same
      exact (Parameter.equal_iff _ _).mpr ⟨name, types, default⟩

theorem ty_iff {a b : Ty} : precision.same a b ↔ Ty.Alike precision a b := by
  cases precision with
  | letter =>
      constructor
      · intro same
        cases same
        cases a with
        | literal value => exact .literal rfl rfl
        | union branches => exact .union rfl
        | resolved shape => exact .resolved rfl
      · intro alike
        cases alike with
        | literal payload shape => exact congrArg Ty.literal (value_iff.mpr ⟨payload, shape⟩)
        | union branches => exact congrArg Ty.union branches
        | resolved shape => exact congrArg Ty.resolved shape
  | equality =>
      change a.beq b = true ↔ _
      constructor
      · intro same
        cases a <;> cases b <;> simp only [Ty.beq, Ty.beqAll_eq, Bool.false_eq_true] at same
        · exact .literal ((Value.equal_iff _ _).mp same).1 ((Value.equal_iff _ _).mp same).2
        · exact .union same
        · exact .resolved same
      · intro alike
        cases alike with
        | literal payload shape =>
            rw [Ty.beq]
            exact (Value.equal_iff _ _).mpr ⟨payload, shape⟩
        | union branches =>
            rw [Ty.beq, Ty.beqAll_eq]
            exact branches
        | resolved shape =>
            rw [Ty.beq]
            exact shape

theorem shape_iff {s t : Shape} : precision.same s t ↔ Shape.Alike precision s t := by
  cases precision with
  | letter =>
      constructor
      · intro same
        cases same
        cases s with
        | number => exact .number
        | text => exact .text
        | logic => exact .logic
        | void => exact .void
        | named name parameters => exact .named rfl
        | function parameters result => exact .function rfl rfl
        | list element => exact .list rfl
        | tuple elements => exact .tuple rfl
        | dictionary entries => exact .dictionary rfl
      · intro alike
        cases alike with
        | number | text | logic | void => rfl
        | named parameters => exact congrArg (Shape.named _) parameters
        | function parameters result => exact congrArg₂ Shape.function parameters result
        | list element => exact congrArg Shape.list element
        | tuple elements => exact congrArg Shape.tuple elements
        | dictionary entries => exact congrArg Shape.dictionary entries
  | equality =>
      change s.beq t = true ↔ _
      constructor
      · intro same
        cases s <;> cases t <;>
          simp only [Shape.beq, Ty.beqAll_eq, Parameter.beqAll_eq, Ty.beqEntries_eq,
            Bool.and_eq_true, beq_iff_eq, Bool.false_eq_true] at same
        · exact .number
        · exact .text
        · exact .logic
        · exact .void
        · obtain ⟨rfl, parameters⟩ := same
          exact .named parameters
        · exact .function same.1 same.2
        · exact .list same
        · exact .tuple same
        · exact .dictionary same
      · intro alike
        cases alike with
        | number | text | logic | void => rw [Shape.beq]
        | named parameters =>
            rw [Shape.beq, Parameter.beqAll_eq, Bool.and_eq_true]
            exact ⟨BEq.refl _, parameters⟩
        | function parameters result =>
            rw [Shape.beq, Parameter.beqAll_eq, Bool.and_eq_true]
            exact ⟨parameters, result⟩
        | list element =>
            rw [Shape.beq]
            exact element
        | tuple elements =>
            rw [Shape.beq, Ty.beqAll_eq]
            exact elements
        | dictionary entries =>
            rw [Shape.beq, Ty.beqEntries_eq]
            exact entries

theorem shape_kind {s t : Shape} (same : precision.same s t) : s.kind = t.kind := by
  cases shape_iff.mp same <;> rfl

theorem ty_kind {a b : Ty} (same : precision.same a b) : a.kind = b.kind := by
  cases ty_iff.mp same with
  | literal payload shape => rfl
  | union branches => rfl
  | resolved shape => exact shape_kind shape

theorem branches {a b : Ty} (same : precision.same a b) :
    precision.same a.branches b.branches := by
  cases precision with
  | letter => exact congrArg Ty.branches same
  | equality => exact Ty.branches_equal same

theorem branchesOf {as bs : List Ty} (same : precision.same as bs) :
    precision.same (Ty.branchesOf as) (Ty.branchesOf bs) := by
  cases precision with
  | letter => exact congrArg Ty.branchesOf same
  | equality => exact Ty.branchesOf_equal same

theorem collapse {as bs : List Ty} (same : precision.same as bs) :
    precision.same (Ty.collapse as) (Ty.collapse bs) := by
  cases precision with
  | letter => exact congrArg Ty.collapse same
  | equality => exact Ty.collapse_equal same

theorem get? {as bs : List (String × Ty)} (same : precision.same as bs) (key : String) :
    precision.same (Keyed.get? key as) (Keyed.get? key bs) := by
  cases precision with
  | letter => exact congrArg (Keyed.get? key) same
  | equality => exact get?_equal same key

end Precision

theorem Ty.kind_equal {a b : Ty} (same : a == b) : a.kind = b.kind :=
  @Precision.ty_kind .equality a b same

theorem Ty.not_equal {a b : Ty} (different : a.kind ≠ b.kind) : (a == b) = false :=
  Bool.eq_false_iff.mpr fun same => different (Ty.kind_equal same)

theorem Ty.alike_of_equal {a b : Ty} (same : a == b) : Ty.Alike .equality a b :=
  (@Precision.ty_iff .equality a b).mp same

theorem Ty.isUnion_equal {a b : Ty} (same : a == b) : a.isUnion = b.isUnion := by
  cases Ty.alike_of_equal same <;> rfl

theorem Ty.carrier_equal {a b : Ty} (same : a == b) : a.carrier == b.carrier := by
  cases Ty.alike_of_equal same with
  | literal payload shape => exact (Ty.resolved_equal_iff _ _).mpr shape
  | union branches => exact same
  | resolved shape => exact same

theorem Ty.eq_of_equal_primitive {a b : Ty} (same : a == b) (primitive : a.isPrimitive = true) :
    a = b := by
  cases Ty.alike_of_equal same with
  | literal payload shape => exact absurd primitive Bool.false_ne_true
  | union branches => exact absurd primitive Bool.false_ne_true
  | resolved shape =>
      cases (@Precision.shape_iff .equality _ _).mp shape <;>
        first
          | rfl
          | exact absurd primitive Bool.false_ne_true

end StructuralTypes
