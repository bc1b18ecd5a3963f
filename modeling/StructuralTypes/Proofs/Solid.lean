import StructuralTypes.Proofs.Branchwise
import StructuralTypes.Proofs.Commutation
import StructuralTypes.Proofs.LowerBound

/-!
Solid types, and what is below a meet. Firm types are compared with any other branch by branch. A
solid type is firm and is below a meet exactly if it is below both sides, whatever stands there
besides; the induction is on the solid type, and each shape on the two sides is one that it names.
Ordinary types are those that meets can be repeated on: records in key order, named types that are
compared by an equivalence, and literals of solid classifiers, which have no direction among those
with one payload.
-/

namespace StructuralTypes

namespace Ty

inductive Firm : Ty → Prop where
  | primitive {shape : Shape} (primitive : shape.isPrimitive = true) : Firm (.resolved shape)
  | named {name : String} {ps : List Parameter} : Firm (.resolved (.named name ps))
  | list {element : Ty} (firm : Firm element) : Firm (.resolved (.list element))
  | tuple {elements : List Ty} (each : ∀ element ∈ elements, Firm element) :
      Firm (.resolved (.tuple elements))
  | union {parts : List Ty} (each : ∀ part ∈ parts, Firm part) : Firm (.union parts)

namespace Firm

variable {a : Ty} {s : Shape}

theorem ne_dictionary (firm : (Ty.resolved s).Firm) : ∀ entries, s ≠ .dictionary entries := by
  rintro entries rfl
  cases firm with
  | primitive primitive => cases primitive

theorem branch (firm : a.Firm) {branch : Ty} (member : branch ∈ a.branches) :
    ∃ shape, branch = .resolved shape ∧ (Ty.resolved shape).Firm := by
  induction firm with
  | primitive primitive => exact ⟨_, List.mem_singleton.mp member, .primitive primitive⟩
  | named => exact ⟨_, List.mem_singleton.mp member, .named⟩
  | list firm _ => exact ⟨_, List.mem_singleton.mp member, .list firm⟩
  | tuple each _ => exact ⟨_, List.mem_singleton.mp member, .tuple each⟩
  | union _ ih =>
      obtain ⟨part, inside, there⟩ := mem_branches_of_union.mp member
      exact ih part inside there

end Firm

/-- Built from primitives, named types, lists, tuples and unions with a branch. In the parameters of
a named type no dictionary stands. -/
inductive Solid : Ty → Prop where
  | primitive {shape : Shape} (primitive : shape.isPrimitive = true) : Solid (.resolved shape)
  | named {name : String} {ps : List Parameter} (free : Parameter.allDictionaryFree ps = true) :
      Solid (.resolved (.named name ps))
  | list {element : Ty} (solid : Solid element) : Solid (.resolved (.list element))
  | tuple {elements : List Ty} (each : ∀ element ∈ elements, Solid element) :
      Solid (.resolved (.tuple elements))
  | union {parts : List Ty} (inhabited : parts ≠ []) (each : ∀ part ∈ parts, Solid part) :
      Solid (.union parts)

namespace Solid

variable {a : Ty} {s : Shape}

theorem firm (solid : a.Solid) : a.Firm := by
  induction solid with
  | primitive primitive => exact .primitive primitive
  | named free => exact .named
  | list _ ih => exact .list ih
  | tuple _ ih => exact .tuple ih
  | union _ _ ih => exact .union ih

theorem branch (solid : a.Solid) {branch : Ty} (member : branch ∈ a.branches) :
    ∃ shape, branch = .resolved shape ∧ (Ty.resolved shape).Solid := by
  induction solid with
  | primitive primitive => exact ⟨_, List.mem_singleton.mp member, .primitive primitive⟩
  | named free => exact ⟨_, List.mem_singleton.mp member, .named free⟩
  | list solid _ => exact ⟨_, List.mem_singleton.mp member, .list solid⟩
  | tuple each _ => exact ⟨_, List.mem_singleton.mp member, .tuple each⟩
  | union _ _ ih =>
      obtain ⟨part, inside, there⟩ := mem_branches_of_union.mp member
      exact ih part inside there

theorem parameters {name : String} {ps : List Parameter}
    (solid : (Ty.resolved (.named name ps)).Solid) : Parameter.allDictionaryFree ps = true := by
  cases solid with
  | primitive primitive => cases primitive
  | named free => exact free

theorem element {element : Ty} (solid : (Ty.resolved (.list element)).Solid) : element.Solid := by
  cases solid with
  | primitive primitive => cases primitive
  | list solid => exact solid

theorem elements {elements : List Ty} (solid : (Ty.resolved (.tuple elements)).Solid) :
    ∀ element ∈ elements, element.Solid := by
  cases solid with
  | primitive primitive => cases primitive
  | tuple each => exact each

end Solid

end Ty

namespace Reference

variable {s t : Shape} {a b : Ty}

theorem subset_ground_iff (other : ∀ entries, s ≠ .dictionary entries) :
    subset (.resolved s) a = true ↔ ∃ t, .resolved t ∈ a.branches ∧ ShapeBelow s t := by
  rw [subset_resolved_branch]
  refine exists_congr fun t => and_congr_right fun _ => ?_
  rw [subset_resolved_iff]
  constructor
  · rintro (same | below)
    · exact ShapeBelow.of_equal same other
    · exact below
  · exact .inr

theorem shapeBelow_of_solid (solid : (Ty.resolved s).Solid)
    (below : subset (.resolved s) (.resolved t) = true) : ShapeBelow s t := by
  obtain ⟨_, member, step⟩ := (subset_ground_iff solid.firm.ne_dictionary).mp below
  cases List.mem_singleton.mp member
  exact step

theorem subset_firm_iff {e : Ty} (firm : e.Firm) :
    subset e a = true ↔ ∀ branch ∈ e.branches, subset branch a = true := by
  constructor
  · intro below branch member
    obtain ⟨shape, rfl, -⟩ := firm.branch member
    exact subset_of_resolved_branch below member
  · intro each
    cases e with
    | literal value => cases firm
    | resolved shape => exact each _ List.mem_cons_self
    | union parts =>
        rcases a.literal_or_other with ⟨value, rfl⟩ | other
        -- nothing that has a branch is below a literal
        · rw [subset_union_literal, List.eq_nil_iff_forall_not_mem]
          intro branch member
          have inside := Ty.mem_branches_union.mpr member
          obtain ⟨shape, rfl, -⟩ := firm.branch inside
          exact Bool.false_ne_true ((not_subset_literal shape value).symm.trans (each _ inside))
        · rw [subset_union_left parts other]
          intro branch member
          have inside := Ty.mem_branches_union.mpr member
          obtain ⟨shape, rfl, -⟩ := firm.branch inside
          obtain ⟨t, there, below⟩ := (subset_resolved_branch shape a).mp (each _ inside)
          exact ⟨_, there, below⟩

theorem subset_firm_union_iff {parts : List Ty} (each : ∀ part ∈ parts, part.Firm) :
    subset (.union parts) a = true ↔ ∀ part ∈ parts, subset part a = true := by
  rw [subset_firm_iff (.union each)]
  constructor
  · intro below part inside
    rw [subset_firm_iff (each part inside)]
    intro branch member
    exact below branch (Ty.mem_branches_of_union.mpr ⟨part, inside, member⟩)
  · intro below branch member
    obtain ⟨part, inside, there⟩ := Ty.mem_branches_of_union.mp member
    exact (subset_firm_iff (each part inside)).mp (below part inside) branch there

theorem shapeMeet_of_meet {x y : Ty} {shape : Shape} (single : x.isUnion = false)
    (other : y.isUnion = false) (met : meet x y = some (.resolved shape)) :
    ∃ s t, x = .resolved s ∧ y = .resolved t ∧ ShapeMeet s t shape := by
  cases x with
  | union parts => cases single
  | literal u =>
      cases y with
      | union parts => cases other
      | literal v =>
          rw [meet_literals, Option.ite_none_right_eq_some] at met
          cases met.2
      | resolved t =>
          rw [meet_literal_resolved, Option.ite_none_right_eq_some] at met
          cases met.2
  | resolved s =>
      cases y with
      | union parts => cases other
      | literal v =>
          rw [meet_resolved_literal, Option.ite_none_right_eq_some] at met
          cases met.2
      | resolved t =>
          obtain ⟨_, same, ground⟩ := (meet_resolved_iff s t _).mp met
          cases same
          exact ⟨s, t, rfl, rfl, ground⟩

theorem exists_mem_meet_iff {ty : Ty} : (∃ i, meet a b = some i ∧ ty ∈ i.branches) ↔
    ∃ x ∈ a.branches, ∃ y ∈ b.branches, meet x y = some ty := by
  rw [← mem_branchMeets]
  constructor
  · rintro ⟨i, met, member⟩
    exact branches_of_meet met ▸ member
  · intro member
    cases met : meet a b with
    | none =>
        rw [(meet_eq_none_iff a b).mp met] at member
        cases member
    | some i => exact ⟨i, rfl, (branches_of_meet met).symm ▸ member⟩

theorem branch_meet_iff {has : Ty → Prop} (single : ∀ x ∈ a.branches, ∀ y ∈ b.branches,
      (∃ ty, meet x y = some ty ∧ has ty) ↔ has x ∧ has y) :
    (∃ i, meet a b = some i ∧ ∃ ty ∈ i.branches, has ty) ↔
      (∃ x ∈ a.branches, has x) ∧ ∃ y ∈ b.branches, has y := by
  constructor
  · rintro ⟨i, met, ty, member, holds⟩
    obtain ⟨x, inA, y, inB, found⟩ := exists_mem_meet_iff.mp ⟨i, met, member⟩
    obtain ⟨left, right⟩ := (single x inA y inB).mp ⟨ty, found, holds⟩
    exact ⟨⟨x, inA, left⟩, y, inB, right⟩
  · rintro ⟨⟨x, inA, left⟩, y, inB, right⟩
    obtain ⟨ty, found, holds⟩ := (single x inA y inB).mpr ⟨left, right⟩
    obtain ⟨i, met, member⟩ := exists_mem_meet_iff.mpr ⟨x, inA, y, inB, found⟩
    exact ⟨i, met, ty, member, holds⟩

theorem MeetsEach.map_ty {ps : List Parameter} {bs tys : List Ty}
    (meets : MeetsEach (ps.map (·.ty)) bs tys) :
    (ps.zipWith (fun p ty => { p with ty := ty }) tys).map (·.ty) = tys :=
  Parameter.map_ty_retyped ((List.length_map _).symm.trans meets.length_eq)

theorem meetsEach_iff {α : Type} {has : α → Ty → Prop} {xs : List α} {as bs : List Ty}
    (each : ∀ x ∈ xs, ∀ a ∈ as, ∀ b ∈ bs,
      (∃ i, meet a b = some i ∧ has x i) ↔ has x a ∧ has x b) :
    (∃ tys, MeetsEach as bs tys ∧ List.Forall₂ has xs tys) ↔
      List.Forall₂ has xs as ∧ List.Forall₂ has xs bs := by
  constructor
  · rintro ⟨tys, meets, hold⟩
    induction meets generalizing xs with
    | nil =>
        cases hold
        exact ⟨.nil, .nil⟩
    | @cons a b ty as bs tys met _ ih =>
        cases hold with
        | @cons x _ xs _ holds rest =>
            obtain ⟨left, right⟩ :=
              (each x List.mem_cons_self a List.mem_cons_self b List.mem_cons_self).mp
                ⟨ty, met, holds⟩
            obtain ⟨lefts, rights⟩ := ih (fun x inX a inA b inB =>
              each x (List.mem_cons_of_mem _ inX) a (List.mem_cons_of_mem _ inA) b
                (List.mem_cons_of_mem _ inB)) rest
            exact ⟨.cons left lefts, .cons right rights⟩
  · rintro ⟨lefts, rights⟩
    induction lefts generalizing bs with
    | nil =>
        cases rights
        exact ⟨[], .nil, .nil⟩
    | @cons x a xs as left _ ih =>
        cases rights with
        | @cons _ b _ bs right rest =>
            obtain ⟨ty, met, holds⟩ :=
              (each x List.mem_cons_self a List.mem_cons_self b List.mem_cons_self).mpr
                ⟨left, right⟩
            obtain ⟨tys, meets, hold⟩ := ih (fun x inX a inA b inB =>
              each x (List.mem_cons_of_mem _ inX) a (List.mem_cons_of_mem _ inA) b
                (List.mem_cons_of_mem _ inB)) rest
            exact ⟨ty :: tys, .cons met meets, .cons holds hold⟩

end Reference

/-- Values with solid classifiers. Of two with one payload, the classifier of one is below that of
the other only if the other is below it. -/
structure Literals where
  mem : Value → Prop
  solid : ∀ {u : Value}, mem u → (Ty.resolved u.shape).Solid
  undirected : ∀ {u v : Value}, mem u → mem v → (u.payload == v.payload) = true →
    Reference.subset (.resolved u.shape) (.resolved v.shape) = true →
    Reference.subset (.resolved v.shape) (.resolved u.shape) = true

/-- Literals are those allowed, dictionaries are in key order, and in the parameters of
named types no dictionary stands. -/
inductive Ty.Ordinary (literals : Literals) : Ty → Prop where
  | literal {u : Value} (member : literals.mem u) : Ordinary literals (.literal u)
  | union {parts : List Ty} (each : ∀ part ∈ parts, Ordinary literals part) :
      Ordinary literals (.union parts)
  | primitive {shape : Shape} (primitive : shape.isPrimitive = true) :
      Ordinary literals (.resolved shape)
  | named {name : String} {ps : List Parameter} (free : Parameter.allDictionaryFree ps = true) :
      Ordinary literals (.resolved (.named name ps))
  | function {ps : List Parameter} {result : Ty}
      (parameters : ∀ ty ∈ ps.map (·.ty), Ordinary literals ty)
      (ordinary : Ordinary literals result) : Ordinary literals (.resolved (.function ps result))
  | list {element : Ty} (ordinary : Ordinary literals element) :
      Ordinary literals (.resolved (.list element))
  | tuple {elements : List Ty} (each : ∀ element ∈ elements, Ordinary literals element) :
      Ordinary literals (.resolved (.tuple elements))
  | dictionary {entries : List (String × Ty)} (sorted : Keyed.Sorted entries)
      (fields : ∀ key field, (key, field) ∈ entries → Ordinary literals field) :
      Ordinary literals (.resolved (.dictionary entries))

namespace Ty

variable {literals : Literals} {a : Ty}

theorem Ordinary.branch (ordinary : a.Ordinary literals) {branch : Ty}
    (member : branch ∈ a.branches) : branch.Ordinary literals := by
  induction ordinary with
  | union _ ih =>
      obtain ⟨part, inside, there⟩ := mem_branches_of_union.mp member
      exact ih part inside there
  | literal known => exact List.mem_singleton.mp member ▸ .literal known
  | primitive primitive => exact List.mem_singleton.mp member ▸ .primitive primitive
  | named free => exact List.mem_singleton.mp member ▸ .named free
  | function parameters ordinary _ _ =>
      exact List.mem_singleton.mp member ▸ .function parameters ordinary
  | list ordinary _ => exact List.mem_singleton.mp member ▸ .list ordinary
  | tuple each _ => exact List.mem_singleton.mp member ▸ .tuple each
  | dictionary sorted fields _ => exact List.mem_singleton.mp member ▸ .dictionary sorted fields

namespace Ordinary

theorem member {u : Value} (ordinary : (Ty.literal u).Ordinary literals) :
    literals.mem u := by
  cases ordinary with
  | literal member => exact member

theorem parameters {name : String} {ps : List Parameter}
    (ordinary : (Ty.resolved (.named name ps)).Ordinary literals) :
    Parameter.allDictionaryFree ps = true := by
  cases ordinary with
  | primitive primitive => cases primitive
  | named free => exact free

theorem element {element : Ty} (ordinary : (Ty.resolved (.list element)).Ordinary literals) :
    element.Ordinary literals := by
  cases ordinary with
  | primitive primitive => cases primitive
  | list ordinary => exact ordinary

theorem elements {elements : List Ty}
    (ordinary : (Ty.resolved (.tuple elements)).Ordinary literals) :
    ∀ element ∈ elements, element.Ordinary literals := by
  cases ordinary with
  | primitive primitive => cases primitive
  | tuple each => exact each

theorem arguments {ps : List Parameter} {result : Ty}
    (ordinary : (Ty.resolved (.function ps result)).Ordinary literals) :
    ∀ ty ∈ ps.map (·.ty), ty.Ordinary literals := by
  cases ordinary with
  | primitive primitive => cases primitive
  | function parameters _ => exact parameters

theorem result {ps : List Parameter} {result : Ty}
    (ordinary : (Ty.resolved (.function ps result)).Ordinary literals) :
    result.Ordinary literals := by
  cases ordinary with
  | primitive primitive => cases primitive
  | function _ ordinary => exact ordinary

theorem sorted {entries : List (String × Ty)}
    (ordinary : (Ty.resolved (.dictionary entries)).Ordinary literals) :
    Keyed.Sorted entries := by
  cases ordinary with
  | primitive primitive => cases primitive
  | dictionary sorted _ => exact sorted

theorem field {entries : List (String × Ty)}
    (ordinary : (Ty.resolved (.dictionary entries)).Ordinary literals) {key : String} {field : Ty}
    (member : (key, field) ∈ entries) : field.Ordinary literals := by
  cases ordinary with
  | primitive primitive => cases primitive
  | dictionary _ fields => exact fields key field member

end Ordinary

theorem Solid.ordinary (solid : a.Solid) : a.Ordinary literals := by
  induction solid with
  | primitive primitive => exact .primitive primitive
  | named free => exact .named free
  | list _ ih => exact .list ih
  | tuple _ ih => exact .tuple ih
  | union _ _ ih => exact .union ih

end Ty

namespace Reference

variable {literals : Literals}

theorem ParametersEqual.trans {ps qs rs : List Parameter}
    (freeP : Parameter.allDictionaryFree ps = true) (freeQ : Parameter.allDictionaryFree qs = true)
    (freeR : Parameter.allDictionaryFree rs = true) (first : ParametersEqual ps qs)
    (second : ParametersEqual qs rs) : ParametersEqual ps rs :=
  first.symm.join freeP freeQ freeR second

theorem subset_of_ground_steps {s : Shape} {f a : Ty} (solid : (Ty.resolved s).Solid)
    (middle : f.Solid) (ordinary : a.Ordinary literals)
    (compose : ∀ t r, (Ty.resolved t).Solid → (Ty.resolved r).Ordinary literals →
      ShapeBelow s t → ShapeBelow t r → ShapeBelow s r)
    (first : subset (.resolved s) f = true) (second : subset f a = true) :
    subset (.resolved s) a = true := by
  rw [subset_ground_iff solid.firm.ne_dictionary] at first ⊢
  obtain ⟨t, inF, one⟩ := first
  obtain ⟨_, same, solidT⟩ := middle.branch inF
  cases same
  have below := subset_of_resolved_branch second inF
  obtain ⟨r, inA, two⟩ := (subset_ground_iff solidT.firm.ne_dictionary).mp below
  exact ⟨r, inA, compose t r solidT (ordinary.branch inA) one two⟩

theorem subset_solid_trans {e f a : Ty} (solid : e.Solid) (middle : f.Solid)
    (ordinary : a.Ordinary literals) (first : subset e f = true) (second : subset f a = true) :
    subset e a = true := by
  induction solid generalizing f a with
  | primitive primitive =>
      refine subset_of_ground_steps (.primitive primitive) middle ordinary ?_ first second
      intro t r _ _ one two
      cases eq_of_primitive (subset_of_ground one) primitive
      exact two
  | named free =>
      refine subset_of_ground_steps (.named free) middle ordinary ?_ first second
      intro t r solidT ordinaryR one two
      cases one with
      | named left =>
          cases two with
          | named right =>
              exact .named (left.trans free solidT.parameters ordinaryR.parameters right)
  | list solid ih =>
      refine subset_of_ground_steps (.list solid) middle ordinary ?_ first second
      intro t r solidT ordinaryR one two
      cases one with
      | list left =>
          cases two with
          | list right => exact .list (ih solidT.element ordinaryR.element left right)
  | tuple each ih =>
      refine subset_of_ground_steps (.tuple each) middle ordinary ?_ first second
      intro t r solidT ordinaryR one two
      cases one with
      | tuple left =>
          cases two with
          | tuple right =>
              refine .tuple (forall₂_compose left right fun x inX y inY z inZ => ?_)
              exact ih x inX (solidT.elements y inY) (ordinaryR.elements z inZ)
  | union inhabited each ih =>
      rw [subset_firm_union_iff fun part inside => (each part inside).firm] at first ⊢
      intro part inside
      exact ih part inside middle ordinary (first part inside) second

/-- The type is below a meet exactly if it is below both sides. -/
def Divides (literals : Literals) (c : Ty) : Prop :=
  ∀ {a b : Ty}, a.Ordinary literals → b.Ordinary literals →
    ((∃ i, meet a b = some i ∧ subset c i = true) ↔ subset c a = true ∧ subset c b = true)

theorem divides_of_ground {s : Shape} (solid : (Ty.resolved s).Solid)
    (ground : ∀ t r, (Ty.resolved t).Ordinary literals → (Ty.resolved r).Ordinary literals →
      ((∃ shape, ShapeMeet t r shape ∧ ShapeBelow s shape) ↔ ShapeBelow s t ∧ ShapeBelow s r)) :
    Divides literals (.resolved s) := by
  intro a b ordinaryA ordinaryB
  simp only [subset_ground_iff solid.firm.ne_dictionary]
  constructor
  · rintro ⟨i, met, shape, member, below⟩
    obtain ⟨x, inA, y, inB, found⟩ := exists_mem_meet_iff.mp ⟨i, met, member⟩
    obtain ⟨t, r, rfl, rfl, step⟩ := shapeMeet_of_meet (Ty.isUnion_of_mem_branches inA)
      (Ty.isUnion_of_mem_branches inB) found
    obtain ⟨left, right⟩ :=
      (ground t r (ordinaryA.branch inA) (ordinaryB.branch inB)).mp ⟨shape, step, below⟩
    exact ⟨⟨t, inA, left⟩, r, inB, right⟩
  · rintro ⟨⟨t, inA, left⟩, r, inB, right⟩
    obtain ⟨shape, step, below⟩ :=
      (ground t r (ordinaryA.branch inA) (ordinaryB.branch inB)).mpr ⟨left, right⟩
    have found := (meet_resolved_iff t r _).mpr ⟨shape, rfl, step⟩
    obtain ⟨i, met, member⟩ := exists_mem_meet_iff.mpr ⟨_, inA, _, inB, found⟩
    exact ⟨i, met, shape, member, below⟩

theorem divides_of_solid {c : Ty} (solid : c.Solid) : Divides literals c := by
  induction solid with
  | @primitive s primitive =>
      apply divides_of_ground (.primitive primitive)
      intro t r _ _
      constructor
      · rintro ⟨shape, met, below⟩
        cases eq_of_primitive (subset_of_ground below) primitive
        obtain ⟨rfl, rfl⟩ := met.eq_of_primitive primitive
        exact ⟨below, below⟩
      · rintro ⟨left, right⟩
        cases eq_of_primitive (subset_of_ground left) primitive
        cases eq_of_primitive (subset_of_ground right) primitive
        exact ⟨s, .of_primitive primitive, left⟩
  | named free =>
      apply divides_of_ground (.named free)
      intro t r ordinaryT ordinaryR
      constructor
      · rintro ⟨shape, met, below⟩
        cases below with
        | named left =>
            cases met with
            | named step =>
                cases step with
                | named right =>
                    exact ⟨.named left, .named (left.trans free ordinaryT.parameters
                      ordinaryR.parameters right)⟩
      · rintro ⟨left, right⟩
        cases left with
        | named one =>
            cases right with
            | named two =>
                have both := one.join ordinaryT.parameters free ordinaryR.parameters two
                exact ⟨_, .named (.named both), .named one⟩
  | list solid ih =>
      apply divides_of_ground (.list solid)
      intro t r ordinaryT ordinaryR
      constructor
      · rintro ⟨shape, met, below⟩
        cases below with
        | list under =>
            cases met with
            | list found =>
                obtain ⟨left, right⟩ :=
                  (ih ordinaryT.element ordinaryR.element).mp ⟨_, found, under⟩
                exact ⟨.list left, .list right⟩
      · rintro ⟨left, right⟩
        cases left with
        | list one =>
            cases right with
            | list two =>
                obtain ⟨i, found, under⟩ :=
                  (ih ordinaryT.element ordinaryR.element).mpr ⟨one, two⟩
                exact ⟨_, .list found, .list under⟩
  | tuple each ih =>
      apply divides_of_ground (.tuple each)
      intro t r ordinaryT ordinaryR
      constructor
      · rintro ⟨shape, met, below⟩
        cases below with
        | tuple under =>
            cases met with
            | tuple found =>
                have law := meetsEach_iff fun c inside a inA b inB =>
                  ih c inside (ordinaryT.elements a inA) (ordinaryR.elements b inB)
                obtain ⟨left, right⟩ := law.mp ⟨_, found, under⟩
                exact ⟨.tuple left, .tuple right⟩
      · rintro ⟨left, right⟩
        cases left with
        | tuple one =>
            cases right with
            | tuple two =>
                have law := meetsEach_iff fun c inside a inA b inB =>
                  ih c inside (ordinaryT.elements a inA) (ordinaryR.elements b inB)
                obtain ⟨tys, found, under⟩ := law.mpr ⟨one, two⟩
                exact ⟨_, .tuple found, .tuple under⟩
  | union inhabited each ih =>
      intro a b ordinaryA ordinaryB
      simp only [subset_firm_union_iff fun part inside => (each part inside).firm]
      constructor
      · rintro ⟨i, met, below⟩
        have both := fun part inside =>
          (ih part inside ordinaryA ordinaryB).mp ⟨i, met, below part inside⟩
        exact ⟨fun part inside => (both part inside).1, fun part inside => (both part inside).2⟩
      · rintro ⟨left, right⟩
        have found := fun part inside =>
          (ih part inside ordinaryA ordinaryB).mpr ⟨left part inside, right part inside⟩
        -- some part finds the meet, and the others find the same
        obtain ⟨first, inside⟩ := List.exists_mem_of_ne_nil _ inhabited
        obtain ⟨i, met, -⟩ := found first inside
        refine ⟨i, met, fun part inside => ?_⟩
        obtain ⟨j, same, below⟩ := found part inside
        cases met.symm.trans same
        exact below

end Reference

end StructuralTypes
