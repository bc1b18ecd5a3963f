import StructuralTypes.Proofs.Solid

/-!
Samples. A sample is a way through a type: a branch at each union, a key at each record, a position
for each element, down to a solid classifier or a value. Ordinary types meet exactly if they have a
sample in common, and the samples of a meet are those that both sides have. So what a list of types
has in common can be told from samples, in which no order is left.
-/

namespace StructuralTypes

inductive Sample where
  | whole (shape : Shape)
  | function (parameters : List Sample) (result : Sample)
  | list (element : Sample)
  | tuple (elements : List Sample)
  | entry (key : String) (field : Sample)
  | value (value : Value)

/-- A branch is a classifier or a literal with a property. -/
def Ty.Has (shows : Shape → Prop) (names : Value → Prop) (a : Ty) : Prop :=
  (∃ s, .resolved s ∈ a.branches ∧ shows s) ∨ ∃ u, .literal u ∈ a.branches ∧ names u

namespace Ty

variable {shows : Shape → Prop} {names : Value → Prop} {a b : Ty}

theorem has_resolved (s : Shape) : (Ty.resolved s).Has shows names ↔ shows s := by
  simp [Has, branches]

theorem has_literal (u : Value) : (Ty.literal u).Has shows names ↔ names u := by
  simp [Has, branches]

theorem Has.mono (has : a.Has shows names)
    (more : ∀ branch ∈ a.branches, branch ∈ b.branches) : b.Has shows names := by
  rcases has with ⟨s, member, shown⟩ | ⟨u, member, named⟩
  · exact .inl ⟨s, more _ member, shown⟩
  · exact .inr ⟨u, more _ member, named⟩

theorem has_iff_branch : a.Has shows names ↔ ∃ branch ∈ a.branches, branch.Has shows names := by
  constructor
  · rintro (⟨s, member, shown⟩ | ⟨u, member, named⟩)
    · exact ⟨_, member, (has_resolved s).mpr shown⟩
    · exact ⟨_, member, (has_literal u).mpr named⟩
  · rintro ⟨branch, member, has⟩
    refine has.mono fun other inside => ?_
    rw [branches_of_single (isUnion_of_mem_branches member)] at inside
    exact List.mem_singleton.mp inside ▸ member

end Ty

namespace Sample

open Reference (subset)

variable (literals : Literals)

/-- Literals show values only, those with their payload that their classifier is above. -/
def Names : Sample → Value → Prop
  | .value v, u => literals.mem v ∧
      subset (.resolved v.shape) (.resolved u.shape) = true ∧ (u.payload == v.payload) = true
  | _, _ => False

mutual

def Shows : Sample → Shape → Prop
  | .whole shape, s => (Ty.resolved shape).Solid ∧
      subset (.resolved shape) (.resolved s) = true
  | .function ws w, s => ∃ ps result, s = .function ps result ∧
      AllIn ws (ps.map (·.ty)) ∧ result.Has w.Shows (w.Names literals)
  | .list w, s => ∃ element, s = .list element ∧ element.Has w.Shows (w.Names literals)
  | .tuple ws, s => ∃ elements, s = .tuple elements ∧ AllIn ws elements
  | .entry key w, s => ∃ entries field, s = .dictionary entries ∧
      Keyed.get? key entries = some field ∧ field.Has w.Shows (w.Names literals)
  | .value v, s => literals.mem v ∧ subset (.resolved v.shape) (.resolved s) = true

def AllIn : List Sample → List Ty → Prop
  | [], tys => tys = []
  | w :: ws, tys => ∃ ty rest, tys = ty :: rest ∧
      ty.Has w.Shows (w.Names literals) ∧ AllIn ws rest

end

def In (w : Sample) (a : Ty) : Prop := a.Has (w.Shows literals) (w.Names literals)

variable {literals : Literals}

theorem allIn_iff {ws : List Sample} {tys : List Ty} :
    AllIn literals ws tys ↔ List.Forall₂ (In literals) ws tys := by
  induction ws generalizing tys with
  | nil => simp [AllIn]
  | cons w ws ih =>
      rw [List.forall₂_cons_left_iff]
      constructor
      · rintro ⟨ty, rest, same, first, others⟩
        exact ⟨ty, rest, first, ih.mp others, same⟩
      · rintro ⟨ty, rest, first, others, same⟩
        exact ⟨ty, rest, same, first, ih.mpr others⟩

theorem induction {motive : Sample → Prop} (whole : ∀ shape, motive (.whole shape))
    (function : ∀ ws w, (∀ x ∈ ws, motive x) → motive w → motive (.function ws w))
    (list : ∀ w, motive w → motive (.list w))
    (tuple : ∀ ws, (∀ x ∈ ws, motive x) → motive (.tuple ws))
    (entry : ∀ key w, motive w → motive (.entry key w))
    (value : ∀ v, motive (.value v)) (w : Sample) : motive w :=
  @Sample.rec motive (fun ws => ∀ x ∈ ws, motive x) whole function list tuple entry value
    (List.forall_mem_nil _) (fun _ _ first rest => List.forall_mem_cons.mpr ⟨first, rest⟩) w

end Sample

namespace Reference

variable {literals : Literals} {a b : Ty}

theorem exists_kept_iff {test : Bool} {kept : Ty} {has : Ty → Prop} :
    (∃ ty, (if test = true then some kept else none) = some ty ∧ has ty) ↔
      test = true ∧ has kept := by
  cases test <;> simp

/-- What passes a meet exactly if it is had on both sides: by shapes that meet, by literals that are
equal, and by a literal and a classifier that its own is below. -/
structure Splits (literals : Literals) (shows : Shape → Prop) (names : Value → Prop) : Prop where
  shapes : ∀ s t, (Ty.resolved s).Ordinary literals → (Ty.resolved t).Ordinary literals →
    ((∃ shape, ShapeMeet s t shape ∧ shows shape) ↔ shows s ∧ shows t)
  equal : ∀ u v, literals.mem u → literals.mem v →
    ((ShapeBelow u.shape v.shape ∧ (u.payload == v.payload) = true) ∧ names u ↔
      names u ∧ names v)
  mixed : ∀ u t, literals.mem u → (Ty.resolved t).Ordinary literals →
    (subset (.resolved u.shape) (.resolved t) = true ∧ names u ↔ names u ∧ shows t)

namespace Splits

variable {shows : Shape → Prop} {names : Value → Prop}

theorem single {x y : Ty} (splits : Splits literals shows names) (singleX : x.isUnion = false)
    (singleY : y.isUnion = false) (ordinaryX : x.Ordinary literals)
    (ordinaryY : y.Ordinary literals) :
    (∃ ty, meet x y = some ty ∧ ty.Has shows names) ↔ x.Has shows names ∧ y.Has shows names := by
  cases x with
  | union parts => cases singleX
  | literal u =>
      cases y with
      | union parts => cases singleY
      | literal v =>
          rw [meet_literals, exists_kept_iff, valueEqual_iff, Ty.has_literal, Ty.has_literal]
          exact splits.equal u v ordinaryX.member ordinaryY.member
      | resolved t =>
          rw [meet_literal_resolved, exists_kept_iff, subset_literal_resolved, Ty.has_literal,
            Ty.has_resolved]
          exact splits.mixed u t ordinaryX.member ordinaryY
  | resolved s =>
      cases y with
      | union parts => cases singleY
      | literal v =>
          rw [meet_resolved_literal, exists_kept_iff, subset_literal_resolved, Ty.has_literal,
            Ty.has_resolved, and_comm (a := shows s)]
          exact splits.mixed v s ordinaryY.member ordinaryX
      | resolved t =>
          rw [Ty.has_resolved, Ty.has_resolved, ← splits.shapes s t ordinaryX ordinaryY]
          constructor
          · rintro ⟨ty, met, had⟩
            obtain ⟨shape, rfl, step⟩ := (meet_resolved_iff s t ty).mp met
            exact ⟨shape, step, (Ty.has_resolved shape).mp had⟩
          · rintro ⟨shape, step, shown⟩
            exact ⟨_, (meet_resolved_iff s t _).mpr ⟨shape, rfl, step⟩,
              (Ty.has_resolved shape).mpr shown⟩

theorem has_iff (splits : Splits literals shows names) (ordinaryA : a.Ordinary literals)
    (ordinaryB : b.Ordinary literals) :
    (∃ i, meet a b = some i ∧ i.Has shows names) ↔ a.Has shows names ∧ b.Has shows names := by
  have law : (∃ i, meet a b = some i ∧ ∃ ty ∈ i.branches, ty.Has shows names) ↔
      (∃ x ∈ a.branches, x.Has shows names) ∧ ∃ y ∈ b.branches, y.Has shows names := by
    apply branch_meet_iff
    intro x inA y inB
    exact splits.single (Ty.isUnion_of_mem_branches inA) (Ty.isUnion_of_mem_branches inB)
      (ordinaryA.branch inA) (ordinaryB.branch inB)
  constructor
  · rintro ⟨i, met, had⟩
    obtain ⟨left, right⟩ := law.mp ⟨i, met, Ty.has_iff_branch.mp had⟩
    exact ⟨Ty.has_iff_branch.mpr left, Ty.has_iff_branch.mpr right⟩
  · rintro ⟨left, right⟩
    obtain ⟨i, met, had⟩ := law.mpr ⟨Ty.has_iff_branch.mp left, Ty.has_iff_branch.mp right⟩
    exact ⟨i, met, Ty.has_iff_branch.mpr had⟩

end Splits

end Reference

namespace Sample

open Reference

variable {literals : Literals} {a b : Ty}

/-- The sample is one of a meet exactly if both sides have it. -/
def Divides (literals : Literals) (w : Sample) : Prop :=
  ∀ {a b : Ty}, a.Ordinary literals → b.Ordinary literals →
    ((∃ i, meet a b = some i ∧ w.In literals i) ↔ w.In literals a ∧ w.In literals b)

theorem divides_of_splits {w : Sample}
    (splits : Splits literals (w.Shows literals) (w.Names literals)) : w.Divides literals :=
  fun ordinaryA ordinaryB => splits.has_iff ordinaryA ordinaryB

theorem divides_of_shapes {w : Sample} (unnamed : ∀ u, ¬ w.Names literals u)
    (shapes : ∀ s t, (Ty.resolved s).Ordinary literals → (Ty.resolved t).Ordinary literals →
      ((∃ shape, ShapeMeet s t shape ∧ w.Shows literals shape) ↔
        w.Shows literals s ∧ w.Shows literals t)) : w.Divides literals := by
  apply divides_of_splits
  refine ⟨shapes, ?_, ?_⟩
  · intro u v _ _
    simp [unnamed]
  · intro u t _ _
    simp [unnamed]

theorem solid_meet_iff {c s t : Shape} (solid : (Ty.resolved c).Solid)
    (ordinaryS : (Ty.resolved s).Ordinary literals)
    (ordinaryT : (Ty.resolved t).Ordinary literals) :
    (∃ shape, ShapeMeet s t shape ∧ subset (.resolved c) (.resolved shape) = true) ↔
      subset (.resolved c) (.resolved s) = true ∧ subset (.resolved c) (.resolved t) = true := by
  rw [← divides_of_solid solid ordinaryS ordinaryT]
  constructor
  · rintro ⟨shape, met, below⟩
    exact ⟨_, (meet_resolved_iff s t _).mpr ⟨shape, rfl, met⟩, below⟩
  · rintro ⟨i, met, below⟩
    obtain ⟨shape, rfl, step⟩ := (meet_resolved_iff s t i).mp met
    exact ⟨shape, step, below⟩

theorem divides_whole (shape : Shape) : (whole shape).Divides literals := by
  apply divides_of_shapes (fun _ => id)
  intro s t ordinaryS ordinaryT
  constructor
  · rintro ⟨i, met, solid, below⟩
    obtain ⟨left, right⟩ := (solid_meet_iff solid ordinaryS ordinaryT).mp ⟨i, met, below⟩
    exact ⟨⟨solid, left⟩, solid, right⟩
  · rintro ⟨⟨solid, left⟩, -, right⟩
    obtain ⟨i, met, below⟩ := (solid_meet_iff solid ordinaryS ordinaryT).mpr ⟨left, right⟩
    exact ⟨i, met, solid, below⟩

theorem divides_list {w : Sample} (part : w.Divides literals) :
    (list w).Divides literals := by
  apply divides_of_shapes (fun _ => id)
  intro s t ordinaryS ordinaryT
  constructor
  · rintro ⟨_, met, element, rfl, shown⟩
    cases met with
    | list found =>
        obtain ⟨left, right⟩ := (part ordinaryS.element ordinaryT.element).mp ⟨_, found, shown⟩
        exact ⟨⟨_, rfl, left⟩, _, rfl, right⟩
  · rintro ⟨⟨_, rfl, left⟩, _, rfl, right⟩
    obtain ⟨i, found, shown⟩ := (part ordinaryS.element ordinaryT.element).mpr ⟨left, right⟩
    exact ⟨_, .list found, _, rfl, shown⟩

theorem divides_each {ws : List Sample} (parts : ∀ w ∈ ws, w.Divides literals) {as bs : List Ty}
    (ordinaryA : ∀ a ∈ as, a.Ordinary literals) (ordinaryB : ∀ b ∈ bs, b.Ordinary literals) :
    (∃ tys, MeetsEach as bs tys ∧ AllIn literals ws tys) ↔
      AllIn literals ws as ∧ AllIn literals ws bs := by
  simp only [allIn_iff]
  exact meetsEach_iff fun w inside a inA b inB => parts w inside (ordinaryA a inA) (ordinaryB b inB)

theorem divides_tuple {ws : List Sample} (parts : ∀ w ∈ ws, w.Divides literals) :
    (tuple ws).Divides literals := by
  apply divides_of_shapes (fun _ => id)
  intro s t ordinaryS ordinaryT
  constructor
  · rintro ⟨_, met, elements, rfl, shown⟩
    cases met with
    | tuple found =>
        obtain ⟨left, right⟩ :=
          (divides_each parts ordinaryS.elements ordinaryT.elements).mp ⟨_, found, shown⟩
        exact ⟨⟨_, rfl, left⟩, _, rfl, right⟩
  · rintro ⟨⟨_, rfl, left⟩, _, rfl, right⟩
    obtain ⟨tys, found, shown⟩ :=
      (divides_each parts ordinaryS.elements ordinaryT.elements).mpr ⟨left, right⟩
    exact ⟨_, .tuple found, _, rfl, shown⟩

theorem divides_function {ws : List Sample} {w : Sample} (parts : ∀ w ∈ ws, w.Divides literals)
    (part : w.Divides literals) : (function ws w).Divides literals := by
  apply divides_of_shapes (fun _ => id)
  intro s t ordinaryS ordinaryT
  constructor
  · rintro ⟨_, met, ps, result, rfl, arguments, shown⟩
    cases met with
    | function found given =>
        rw [found.map_ty] at arguments
        obtain ⟨lefts, rights⟩ :=
          (divides_each parts ordinaryS.arguments ordinaryT.arguments).mp ⟨_, found, arguments⟩
        obtain ⟨left, right⟩ := (part ordinaryS.result ordinaryT.result).mp ⟨_, given, shown⟩
        exact ⟨⟨_, _, rfl, lefts, left⟩, _, _, rfl, rights, right⟩
  · rintro ⟨⟨_, _, rfl, lefts, left⟩, _, _, rfl, rights, right⟩
    obtain ⟨tys, found, arguments⟩ :=
      (divides_each parts ordinaryS.arguments ordinaryT.arguments).mpr ⟨lefts, rights⟩
    obtain ⟨i, given, shown⟩ := (part ordinaryS.result ordinaryT.result).mpr ⟨left, right⟩
    refine ⟨_, .function found given, _, _, rfl, ?_, shown⟩
    rw [found.map_ty]
    exact arguments

theorem divides_entry (key : String) {w : Sample} (part : w.Divides literals) :
    (entry key w).Divides literals := by
  apply divides_of_shapes (fun _ => id)
  intro s t ordinaryS ordinaryT
  constructor
  · rintro ⟨_, met, common, ty, rfl, there, shown⟩
    cases met with
    | dictionary shared =>
        obtain ⟨field, other, inside, found, given⟩ :=
          mem_commonFields.mp (Keyed.mem_of_get? there)
        have back := Keyed.get?_of_mem ordinaryT.sorted inside
        obtain ⟨left, right⟩ := (part (ordinaryS.field (Keyed.mem_of_get? found))
          (ordinaryT.field inside)).mp ⟨ty, given, shown⟩
        exact ⟨⟨_, _, rfl, found, left⟩, _, _, rfl, back, right⟩
  · rintro ⟨⟨entries, field, rfl, found, left⟩, others, other, rfl, back, right⟩
    have inside := Keyed.mem_of_get? back
    obtain ⟨ty, given, shown⟩ := (part (ordinaryS.field (Keyed.mem_of_get? found))
      (ordinaryT.field inside)).mpr ⟨left, right⟩
    have member := mem_commonFields.mpr ⟨field, other, inside, found, given⟩
    have there := Keyed.get?_of_mem (sorted_commonFields ordinaryT.sorted) member
    exact ⟨_, .dictionary (List.ne_nil_of_mem member), _, _, rfl, there, shown⟩

theorem below_of_literals {u v : Value} {a : Ty} (memU : literals.mem u) (memV : literals.mem v)
    (ordinary : a.Ordinary literals) (same : (u.payload == v.payload) = true)
    (under : subset (.resolved v.shape) (.resolved u.shape) = true) :
    subset (.resolved u.shape) a = true ↔ subset (.resolved v.shape) a = true := by
  constructor
  · exact subset_solid_trans (literals.solid memV) (literals.solid memU) ordinary under
  · exact subset_solid_trans (literals.solid memU) (literals.solid memV) ordinary
      (literals.undirected memV memU (BEq.symm same) under)

theorem divides_value (v : Value) : (value v).Divides literals := by
  apply divides_of_splits
  constructor
  · intro s t ordinaryS ordinaryT
    constructor
    · rintro ⟨shape, met, member, below⟩
      obtain ⟨left, right⟩ :=
        (solid_meet_iff (literals.solid member) ordinaryS ordinaryT).mp ⟨shape, met, below⟩
      exact ⟨⟨member, left⟩, member, right⟩
    · rintro ⟨⟨member, left⟩, -, right⟩
      obtain ⟨shape, met, below⟩ :=
        (solid_meet_iff (literals.solid member) ordinaryS ordinaryT).mpr ⟨left, right⟩
      exact ⟨shape, met, member, below⟩
  · intro u r memU memR
    have ordinary : (Ty.resolved r.shape).Ordinary literals := (literals.solid memR).ordinary
    constructor
    · rintro ⟨⟨below, equal⟩, member, under, same⟩
      have left := (below_of_literals memU member ordinary same under).mp (subset_of_ground below)
      exact ⟨⟨member, under, same⟩, member, left, BEq.trans (BEq.symm equal) same⟩
    · rintro ⟨⟨member, under, same⟩, -, left, other⟩
      have below := (below_of_literals memU member ordinary same under).mpr left
      exact ⟨⟨shapeBelow_of_solid (literals.solid memU) below, BEq.trans same (BEq.symm other)⟩,
        member, under, same⟩
  · intro u t memU ordinary
    constructor
    · rintro ⟨below, member, under, same⟩
      exact ⟨⟨member, under, same⟩, member,
        (below_of_literals memU member ordinary same under).mp below⟩
    · rintro ⟨⟨member, under, same⟩, -, left⟩
      exact ⟨(below_of_literals memU member ordinary same under).mpr left, member, under, same⟩

theorem divides (w : Sample) : w.Divides literals := by
  induction w using Sample.induction with
  | whole shape => exact divides_whole shape
  | function ws w parts part => exact divides_function parts part
  | list w part => exact divides_list part
  | tuple ws parts => exact divides_tuple parts
  | entry key w part => exact divides_entry key part
  | value v => exact divides_value v

theorem in_of_branch {w : Sample} {branch : Ty} (member : branch ∈ a.branches)
    (inside : w.In literals branch) : w.In literals a :=
  Ty.has_iff_branch.mpr ⟨branch, member, inside⟩

theorem in_of_literal {u : Value} (member : literals.mem u) :
    (value u).In literals (.literal u) :=
  (Ty.has_literal u).mpr ⟨member, subset_refl _, BEq.refl _⟩

theorem common_of_forall₂ {as bs : List Ty}
    (each : List.Forall₂ (fun b a => ∃ w : Sample, w.In literals a ∧ w.In literals b) bs as) :
    ∃ ws, AllIn literals ws as ∧ AllIn literals ws bs := by
  induction each with
  | nil => exact ⟨[], rfl, rfl⟩
  | cons first _ ih =>
      obtain ⟨w, left, right⟩ := first
      obtain ⟨ws, lefts, rights⟩ := ih
      exact ⟨w :: ws, ⟨_, _, rfl, left, lefts⟩, _, _, rfl, right, rights⟩

theorem common_of_shapes {s : Shape} (ordinary : b.Ordinary literals)
    (shapes : ∀ t, (Ty.resolved t).Ordinary literals → ShapeMatch s t →
      ∃ w : Sample, w.Shows literals s ∧ w.Shows literals t)
    (matched : typesMatch (.resolved s) b = true) :
    ∃ w : Sample, w.In literals (.resolved s) ∧ w.In literals b := by
  obtain ⟨_, inS, y, inB, holds⟩ := (typesMatch_iff _ _).mp matched
  cases List.mem_singleton.mp inS
  have ordinaryY := ordinary.branch inB
  cases y with
  | union parts => cases Ty.isUnion_of_mem_branches inB
  | literal v =>
      rw [typesMatch_resolved_literal] at holds
      exact ⟨.value v, (Ty.has_resolved s).mpr ⟨ordinaryY.member, holds⟩,
        in_of_branch inB (in_of_literal ordinaryY.member)⟩
  | resolved t =>
      obtain ⟨w, left, right⟩ := shapes t ordinaryY ((typesMatch_resolved_iff s t).mp holds)
      exact ⟨w, (Ty.has_resolved s).mpr left, in_of_branch inB ((Ty.has_resolved t).mpr right)⟩

theorem common_of_literal {u : Value} (member : literals.mem u)
    (matched : typesMatch (.literal u) b = true) :
    (value u).In literals b := by
  obtain ⟨_, inU, y, inB, holds⟩ := (typesMatch_iff _ _).mp matched
  cases List.mem_singleton.mp inU
  apply in_of_branch inB
  cases y with
  | union parts => cases Ty.isUnion_of_mem_branches inB
  | literal v =>
      obtain ⟨below, same⟩ := (typesMatch_literals_iff u v).mp holds
      exact (Ty.has_literal v).mpr ⟨member, subset_of_ground below, BEq.symm same⟩
  | resolved t =>
      rw [typesMatch_literal_resolved] at holds
      exact (Ty.has_resolved t).mpr ⟨member, holds⟩

theorem common_of_typesMatch (ordinaryA : a.Ordinary literals) (ordinaryB : b.Ordinary literals)
    (matched : typesMatch a b = true) : ∃ w : Sample, w.In literals a ∧ w.In literals b := by
  induction ordinaryA generalizing b with
  | literal member =>
      exact ⟨_, in_of_literal member, common_of_literal member matched⟩
  | union _ ih =>
      obtain ⟨x, inA, y, inB, holds⟩ := (typesMatch_iff _ _).mp matched
      obtain ⟨part, inside, there⟩ := Ty.mem_branches_of_union.mp inA
      have found := (typesMatch_iff part b).mpr ⟨x, there, y, inB, holds⟩
      obtain ⟨w, left, right⟩ := ih part inside ordinaryB found
      refine ⟨w, left.mono fun branch member => ?_, right⟩
      exact Ty.mem_branches_of_union.mpr ⟨part, inside, member⟩
  | @primitive s primitive =>
      refine common_of_shapes ordinaryB (fun t _ step => ?_) matched
      have whole : (Sample.whole s).Shows literals s := ⟨.primitive primitive, subset_refl _⟩
      cases step <;> first | exact ⟨_, whole, whole⟩ | cases primitive
  | @named name ps free =>
      refine common_of_shapes ordinaryB (fun t _ step => ?_) matched
      cases step with
      | named parameters =>
          exact ⟨.whole (.named name ps), ⟨.named free, subset_refl _⟩, .named free,
            subset_of_ground (.named parameters)⟩
  | function _ _ each whole =>
      refine common_of_shapes ordinaryB (fun t ordinaryT step => ?_) matched
      cases step with
      | function parameters result =>
          obtain ⟨w, left, right⟩ := whole ordinaryT.result result
          obtain ⟨ws, lefts, rights⟩ := common_of_forall₂ (forall₂_turn parameters
            fun x inX y inY => each x inX (ordinaryT.arguments y inY))
          exact ⟨.function ws w, ⟨_, _, rfl, lefts, left⟩, _, _, rfl, rights, right⟩
  | list _ ih =>
      refine common_of_shapes ordinaryB (fun t ordinaryT step => ?_) matched
      cases step with
      | list element =>
          obtain ⟨w, left, right⟩ := ih ordinaryT.element element
          exact ⟨.list w, ⟨_, rfl, left⟩, _, rfl, right⟩
  | tuple _ ih =>
      refine common_of_shapes ordinaryB (fun t ordinaryT step => ?_) matched
      cases step with
      | tuple elements =>
          obtain ⟨ws, lefts, rights⟩ := common_of_forall₂ (forall₂_turn elements
            fun x inX y inY => ih x inX (ordinaryT.elements y inY))
          exact ⟨.tuple ws, ⟨_, rfl, lefts⟩, _, rfl, rights⟩
  | dictionary _ _ ih =>
      refine common_of_shapes ordinaryB (fun t ordinaryT step => ?_) matched
      cases step with
      | @dictionary _ _ key field other found inside field_matched =>
          obtain ⟨w, left, right⟩ := ih key field (Keyed.mem_of_get? found)
            (ordinaryT.field inside) field_matched
          exact ⟨.entry key w, ⟨_, _, rfl, found, left⟩, _, _, rfl,
            Keyed.get?_of_mem ordinaryT.sorted inside, right⟩

end Sample

end StructuralTypes
