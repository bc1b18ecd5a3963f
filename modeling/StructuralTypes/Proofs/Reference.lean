import StructuralTypes.Proofs.Lockstep

/-!
The plain answers. The number of steps they are nested does not matter once it reaches
the rank of a question, so they solve the rules: `subset_eq` and `meet_eq` are the rules
with the plain answers themselves for the parts, and equal operands get equal answers. The
rest of the module reads the rules as statements, one for each pair of constructors.
-/

namespace StructuralTypes.Reference

def plainly (precision : Precision) : Lockstep Id Id where
  precision := precision
  agree x y := precision.same x.run y.run
  pure same := same
  bind first rest := rest _ _ first

/-- Steps beyond the rank change nothing. -/
theorem within_agree (precision : Precision) {bound steps more : Nat} (enough : bound ≤ steps)
    (enoughMore : bound ≤ more) :
    Agreement (plainly precision) (within steps) (within more) bound := by
  refine Agreement.tower (fun {k l a b c d} left right _ _ rules => ?_)
    (fun _ _ _ _ rules => rules) enough enoughMore
  have tests : (a == b) = (c == d) := Precision.beq_congr left right
  simp only [within, tests]
  split
  · exact (plainly precision).refl true
  · exact rules

theorem within_queries (precision : Precision) (steps : Nat) :
    Agreement (plainly precision) (within steps) queries steps := by
  refine ⟨fun {a b c d} left right low => ?_, fun {a b c d} left right low => ?_⟩
  · have rank := Ty.subsetRank_le a b
    rw [Ty.height_equal (Precision.equal left), Ty.height_equal (Precision.equal right)] at rank
    exact (within_agree precision low rank).subset left right (Nat.le_refl _)
  · have rank : a.height + b.height ≤ c.height + d.height := by
      exact Nat.le_of_eq (congrArg₂ (· + ·) (Ty.height_equal (Precision.equal left))
        (Ty.height_equal (Precision.equal right)))
    exact (within_agree precision low rank).meet left right (Nat.le_refl _)

theorem subset_eq (a b : Ty) : subset a b = (a == b || (Rules.subset queries a b).run) := by
  have outer : ((within (a.subsetRank b + 1)).subset a b).run = (queries.subset a b).run :=
    (within_queries .letter _).subset (Precision.refl a) (Precision.refl b) (by omega)
  have inner : (Rules.subset (within (a.subsetRank b)) a b).run = (Rules.subset queries a b).run :=
    (within_queries .letter _).subsetRule (Precision.refl a) (Precision.refl b) (by omega)
  rw [subset, ← outer, ← inner]
  simp only [within]
  split
  · next same => simp [same]
  · next different => simp [Bool.eq_false_iff.mpr different]

theorem meet_eq (a b : Ty) : meet a b = (Rules.meet queries a b).run := by
  have outer : ((within (a.height + b.height + 1)).meet a b).run = (queries.meet a b).run :=
    (within_queries .letter _).meet (Precision.refl a) (Precision.refl b) (by omega)
  have inner : (Rules.meet (within (a.height + b.height)) a b).run =
      (Rules.meet queries a b).run :=
    (within_queries .letter _).meetRule (Precision.refl a) (Precision.refl b) (by omega)
  rw [meet, ← outer, ← inner]
  rfl

theorem queries_agree (precision : Precision) : Agree (plainly precision) queries queries := by
  intro bound
  refine ⟨fun {a b c d} left right _ => ?_, fun {a b c d} left right _ => ?_⟩
  · exact (within_queries precision _).subset left right (Ty.subsetRank_le a b)
  · exact (within_queries precision _).meet left right (Nat.le_refl _)

theorem subset_congr {a b c d : Ty} (left : a == c) (right : b == d) :
    subset a b = subset c d := by
  have agrees : (subset a b == subset c d) = true :=
    ((queries_agree .equality) _).subset left right (Nat.le_refl _)
  exact eq_of_beq agrees

theorem meet_congr {a b c d : Ty} (left : a == c) (right : b == d) : meet a b == meet c d :=
  (queries_agree .equality).meet left right

theorem allM_run {α : Type} (xs : List α) (test : α → Id Bool) :
    (xs.allM test).run = true ↔ ∀ x ∈ xs, (test x).run = true := by
  induction xs with
  | nil => simp
  | cons x xs ih =>
      rw [List.allM_cons]
      cases first : (test x).run <;> simp [first, ih]

theorem anyM_run {α : Type} (xs : List α) (test : α → Id Bool) :
    (xs.anyM test).run = true ↔ ∃ x ∈ xs, (test x).run = true := by
  induction xs with
  | nil => simp
  | cons x xs ih =>
      rw [List.anyM_cons]
      cases first : (test x).run <;> simp [first, ih]

theorem covered_iff (subs sups : List Ty) : (Rules.covered queries subs sups).run = true ↔
    ∀ sub ∈ subs, ∃ sup ∈ sups, subset sub sup = true := by
  simp only [Rules.covered, allM_run, anyM_run]
  rfl

theorem typeEqual_iff (a b : Ty) :
    typeEqual a b = true ↔ subset a b = true ∧ subset b a = true := by
  change (if subset a b = true then subset b a else false) = true ↔ _
  cases subset a b <;> simp

def shapeSubset (s t : Shape) : Bool := (Rules.shapeSubset queries s t).run

def ParametersEqual (ps rs : List Parameter) : Prop :=
  List.Forall₂ (fun p r => p.name = r.name ∧ typeEqual p.ty r.ty = true) ps rs

theorem parametersEqual_iff (ps rs : List Parameter) :
    (Rules.parametersEqual queries ps rs).run = true ↔ ParametersEqual ps rs := by
  rw [ParametersEqual, List.forall₂_iff_zip]
  simp only [Rules.parametersEqual]
  split
  · next lengths =>
      simp only [allM_run, Prod.forall, lengths, true_and]
      refine forall_congr' fun p => forall_congr' fun r => imp_congr_right fun _ => ?_
      split
      · next names => exact ⟨fun equal => ⟨names, equal⟩, fun both => both.2⟩
      · next names => simp [names]
  · next lengths => simp [lengths]

/-- The ground step as a relation. -/
inductive ShapeBelow : Shape → Shape → Prop where
  | number : ShapeBelow .number .number
  | text : ShapeBelow .text .text
  | logic : ShapeBelow .logic .logic
  | void : ShapeBelow .void .void
  | named {name : String} {ps rs : List Parameter} (parameters : ParametersEqual ps rs) :
      ShapeBelow (.named name ps) (.named name rs)
  | function {ps rs : List Parameter} {a b : Ty} (parameters : ParametersEqual ps rs)
      (result : subset a b = true) : ShapeBelow (.function ps a) (.function rs b)
  | list {a b : Ty} (element : subset a b = true) : ShapeBelow (.list a) (.list b)
  | tuple {as bs : List Ty} (elements : List.Forall₂ (fun a b => subset a b = true) as bs) :
      ShapeBelow (.tuple as) (.tuple bs)
  | dictionary {entries required : List (String × Ty)}
      (fields : ∀ key needed, (key, needed) ∈ required →
        ∃ field, Keyed.get? key entries = some field ∧ (meet field needed).isSome = true) :
      ShapeBelow (.dictionary entries) (.dictionary required)

theorem shapeSubset_iff (s t : Shape) : shapeSubset s t = true ↔ ShapeBelow s t := by
  constructor
  · intro holds
    unfold shapeSubset at holds
    cases s <;> cases t <;> simp only [Rules.shapeSubset] at holds <;>
      first
        | exact absurd holds Bool.false_ne_true
        | exact .number
        | exact .text
        | exact .logic
        | exact .void
        | skip
    case named.named name ps other rs =>
      split at holds
      · next names =>
          cases names
          exact .named ((parametersEqual_iff ps rs).mp holds)
      · exact absurd holds Bool.false_ne_true
    case function.function ps a rs b =>
      change (if (Rules.parametersEqual queries ps rs).run = true then subset a b else false) = true
        at holds
      split at holds
      · next parameters => exact .function ((parametersEqual_iff ps rs).mp parameters) holds
      · exact absurd holds Bool.false_ne_true
    case list.list a b => exact .list holds
    case tuple.tuple as bs =>
      split at holds
      · next lengths =>
          refine .tuple (List.forall₂_iff_zip.mpr ⟨lengths, fun member => ?_⟩)
          exact (allM_run _ _).mp holds _ member
      · exact absurd holds Bool.false_ne_true
    case dictionary.dictionary entries required =>
      refine .dictionary fun key needed member => ?_
      have field := (allM_run _ _).mp holds _ member
      simp only at field
      split at field
      · exact absurd field Bool.false_ne_true
      · next found => exact ⟨_, found, field⟩
  · intro below
    unfold shapeSubset
    cases below with
    | number | text | logic | void => rfl
    | named parameters =>
        simp only [Rules.shapeSubset, if_pos]
        exact (parametersEqual_iff _ _).mpr parameters
    | @function ps rs a b parameters result =>
        change (if (Rules.parametersEqual queries ps rs).run = true then subset a b else false) =
          true
        rw [if_pos ((parametersEqual_iff ps rs).mpr parameters)]
        exact result
    | list element => exact element
    | tuple elements =>
        simp only [Rules.shapeSubset, if_pos elements.length_eq]
        exact (allM_run _ _).mpr fun pair member => (List.forall₂_iff_zip.mp elements).2 member
    | dictionary fields =>
        refine (allM_run _ _).mpr fun entry member => ?_
        obtain ⟨field, found, meets⟩ := fields entry.1 entry.2 member
        simp only [found]
        exact meets

theorem valueEqual_iff (u v : Value) : (Rules.valueEqual queries u v).run = true ↔
    ShapeBelow u.shape v.shape ∧ (u.payload == v.payload) = true := by
  rw [← shapeSubset_iff]
  change (if shapeSubset u.shape v.shape = true then u.payload == v.payload else false) = true ↔ _
  cases shapeSubset u.shape v.shape <;> simp

theorem subset_of_equal {a b : Ty} (same : a == b) : subset a b = true := by
  rw [subset_eq, same, Bool.true_or]

theorem subset_of_rule {a b : Ty} (rule : (Rules.subset queries a b).run = true) :
    subset a b = true := by
  rw [subset_eq, rule, Bool.or_true]

theorem subset_refl (a : Ty) : subset a a = true := subset_of_equal (BEq.refl a)

theorem subset_resolved_iff (s t : Shape) :
    subset (.resolved s) (.resolved t) = true ↔ (s == t) = true ∨ ShapeBelow s t := by
  rw [subset_eq, Bool.or_eq_true, Ty.resolved_equal_iff, ← shapeSubset_iff]
  rfl

theorem subset_literals_iff (u v : Value) : subset (.literal u) (.literal v) = true ↔
    (u.payload == v.payload) = true ∧
      ((u.shape == v.shape) = true ∨ ShapeBelow u.shape v.shape) := by
  have rule : (Rules.subset queries (.literal u) (.literal v)).run =
      (Rules.valueEqual queries u v).run := rfl
  rw [subset_eq, Bool.or_eq_true, Ty.literal_equal_iff, Value.equal_iff, rule, valueEqual_iff]
  tauto

theorem subset_literal_left (u : Value) {b : Ty} (other : ∀ v, b ≠ .literal v) :
    subset (.literal u) b = subset (.resolved u.shape) b := by
  cases b with
  | literal v => exact absurd rfl (other v)
  | union parts =>
      have kinds : (Ty.literal u).kind ≠ (Ty.union parts).kind := nofun
      rw [subset_eq, Ty.not_equal kinds, Bool.false_or]
      rfl
  | resolved s =>
      have kinds : (Ty.literal u).kind ≠ (Ty.resolved s).kind := by cases s <;> nofun
      rw [subset_eq, Ty.not_equal kinds, Bool.false_or]
      rfl

theorem eq_of_primitive {s t : Shape} (below : subset (.resolved s) (.resolved t) = true)
    (primitive : s.isPrimitive = true) : s = t := by
  rcases (subset_resolved_iff s t).mp below with same | step
  · have equal := (Ty.resolved_equal_iff s t).mpr same
    exact Ty.resolved.inj (Ty.eq_of_equal_primitive equal primitive)
  · cases step <;> first | rfl | exact absurd primitive Bool.false_ne_true

theorem carrier_of_literal_subset {u : Value} {b : Ty} (single : b.isUnion = false)
    (below : subset (.literal u) b = true) (primitive : u.shape.isPrimitive = true) :
    b.carrier = .resolved u.shape := by
  cases b with
  | literal v =>
      have shapes := (subset_resolved_iff _ _).mpr ((subset_literals_iff u v).mp below).2
      exact congrArg Ty.resolved (eq_of_primitive shapes primitive).symm
  | union parts => exact absurd single.symm Bool.false_ne_true
  | resolved t =>
      have other : ∀ v, Ty.resolved t ≠ .literal v := nofun
      rw [subset_literal_left u other] at below
      exact congrArg Ty.resolved (eq_of_primitive below primitive).symm

theorem not_subset_literal (s : Shape) (v : Value) : subset (.resolved s) (.literal v) = false := by
  have kinds : (Ty.resolved s).kind ≠ (Ty.literal v).kind := by cases s <;> nofun
  rw [subset_eq, Ty.not_equal kinds, Bool.false_or]
  rfl

theorem subset_union_right (s : Shape) (parts : List Ty) :
    subset (.resolved s) (.union parts) = true ↔
      ∃ part ∈ Ty.branchesOf parts, subset (.resolved s) part = true := by
  have kinds : (Ty.resolved s).kind ≠ (Ty.union parts).kind := by cases s <;> nofun
  have rule : (Rules.subset queries (.resolved s) (.union parts)).run =
      (Rules.covered queries [.resolved s] (Ty.branchesOf parts)).run := rfl
  rw [subset_eq, Ty.not_equal kinds, Bool.false_or, rule, covered_iff]
  simp

/-- A union is below a type that is no literal branch by branch, equal unions included. -/
theorem subset_union_left (parts : List Ty) {b : Ty} (other : ∀ v, b ≠ .literal v) :
    subset (.union parts) b = true ↔
      ∀ part ∈ Ty.branchesOf parts, ∃ other ∈ b.branches, subset part other = true := by
  have rule : (Rules.subset queries (.union parts) b).run =
      if (Ty.branchesOf parts).isEmpty = true then true
      else (Rules.covered queries (Ty.branchesOf parts) b.branches).run := by
    cases b with
    | literal v => exact absurd rfl (other v)
    | union _ => simp only [Rules.subset]; split <;> rfl
    | resolved _ => simp only [Rules.subset]; split <;> rfl
  rw [subset_eq, Bool.or_eq_true, rule]
  constructor
  · rintro (same | holds) part member
    · have branches : (Ty.branchesOf parts == b.branches) = true := by
        simpa only [Ty.branches] using Ty.branches_equal same
      obtain ⟨branch, inside, equal⟩ := exists_equal_of_mem branches member
      exact ⟨branch, inside, subset_of_equal equal⟩
    · split at holds
      · next empty =>
          rw [List.isEmpty_iff.mp empty] at member
          cases member
      · exact (covered_iff _ _).mp holds part member
  · intro each
    refine .inr ?_
    split
    · rfl
    · exact (covered_iff _ _).mpr each

theorem subset_union_literal (parts : List Ty) (v : Value) :
    subset (.union parts) (.literal v) = true ↔ Ty.branchesOf parts = [] := by
  have kinds : (Ty.union parts).kind ≠ (Ty.literal v).kind := nofun
  rw [subset_eq, Ty.not_equal kinds, Bool.false_or, ← List.isEmpty_iff]
  rfl

end StructuralTypes.Reference
