import StructuralTypes.Proofs.Reference

/-!
The plain meets, read as statements. `ShapeMeet` is the ground step as a relation, with a
constructor for each kind of shape, and `meet_eq_collapse` is all there is to unions: the
branches of both sides are met pair by pair, and what is found is collapsed. The meet of two
types that are no unions is no union either, so the branches of a meet are exactly the meets
that were found.
-/

namespace StructuralTypes.Reference

inductive MeetsEach : List Ty → List Ty → List Ty → Prop where
  | nil : MeetsEach [] [] []
  | cons {a b ty : Ty} {as bs tys : List Ty} (first : meet a b = some ty)
      (rest : MeetsEach as bs tys) : MeetsEach (a :: as) (b :: bs) (ty :: tys)

theorem MeetsEach.length_eq {as bs tys : List Ty} (each : MeetsEach as bs tys) :
    as.length = tys.length := by
  induction each with
  | nil => rfl
  | cons _ _ ih => exact congrArg Nat.succ ih

/-- The keys that two dictionaries share with types that meet, in the order of the second. -/
def commonFields (entries others : List (String × Ty)) : List (String × Ty) :=
  others.filterMap fun entry =>
    (Keyed.get? entry.1 entries).bind fun field => (meet field entry.2).map (entry.1, ·)

inductive ShapeMeet : Shape → Shape → Shape → Prop where
  | number : ShapeMeet .number .number .number
  | text : ShapeMeet .text .text .text
  | logic : ShapeMeet .logic .logic .logic
  | void : ShapeMeet .void .void .void
  | named {name other : String} {ps rs : List Parameter}
      (below : ShapeBelow (.named name ps) (.named other rs)) :
      ShapeMeet (.named name ps) (.named other rs) (.named name ps)
  | function {ps rs : List Parameter} {a b ty : Ty} {tys : List Ty}
      (parameters : MeetsEach (ps.map (·.ty)) (rs.map (·.ty)) tys) (result : meet a b = some ty) :
      ShapeMeet (.function ps a) (.function rs b)
        (.function (ps.zipWith (fun p ty => { p with ty := ty }) tys) ty)
  | list {a b ty : Ty} (element : meet a b = some ty) : ShapeMeet (.list a) (.list b) (.list ty)
  | tuple {as bs tys : List Ty} (elements : MeetsEach as bs tys) :
      ShapeMeet (.tuple as) (.tuple bs) (.tuple tys)
  | dictionary {entries others : List (String × Ty)} (shared : commonFields entries others ≠ []) :
      ShapeMeet (.dictionary entries) (.dictionary others)
        (.dictionary (commonFields entries others))

theorem queries_meet_run (a b : Ty) : (queries.meet a b).run = meet a b := rfl

theorem meetSome_run (pairs : List (Ty × Ty)) :
    (Rules.meetSome queries pairs).run = pairs.filterMap fun pair => meet pair.1 pair.2 := by
  induction pairs with
  | nil => rfl
  | cons pair rest ih =>
      simp only [Rules.meetSome, Id.run_bind, queries_meet_run, List.filterMap_cons]
      cases meet pair.1 pair.2 with
      | none => exact ih
      | some ty => exact congrArg (ty :: ·) ih

theorem meetEach_cons (a b : Ty) (rest : List (Ty × Ty)) :
    (Rules.meetEach queries ((a, b) :: rest)).run =
      (meet a b).bind fun ty => ((Rules.meetEach queries rest).run).map (ty :: ·) := by
  simp only [Rules.meetEach, Id.run_bind, queries_meet_run]
  cases meet a b with
  | none => rfl
  | some ty =>
      simp only [Id.run_bind, Option.bind_some]
      cases (Rules.meetEach queries rest).run <;> rfl

theorem meetEach_iff (as bs tys : List Ty) :
    as.length = bs.length ∧ (Rules.meetEach queries (as.zip bs)).run = some tys ↔
      MeetsEach as bs tys := by
  constructor
  · rintro ⟨lengths, found⟩
    induction as generalizing bs tys with
    | nil =>
        cases List.length_eq_zero_iff.mp lengths.symm
        cases found
        exact .nil
    | cons a as ih =>
        cases bs with
        | nil => cases lengths
        | cons b bs =>
            rw [List.zip_cons_cons, meetEach_cons, Option.bind_eq_some_iff] at found
            obtain ⟨ty, first, rest⟩ := found
            obtain ⟨others, tail, rfl⟩ := Option.map_eq_some_iff.mp rest
            exact .cons first (ih bs others (Nat.succ.inj lengths) tail)
  · intro meets
    induction meets with
    | nil => exact ⟨rfl, rfl⟩
    | cons first rest ih =>
        refine ⟨congrArg Nat.succ ih.1, ?_⟩
        rw [List.zip_cons_cons, meetEach_cons, first, ih.2]
        rfl

theorem meetFields_run (entries others : List (String × Ty)) :
    (Rules.meetFields queries entries others).run = commonFields entries others := by
  induction others with
  | nil => rfl
  | cons entry rest ih =>
      obtain ⟨key, other⟩ := entry
      simp only [Rules.meetFields, commonFields, List.filterMap_cons] at ih ⊢
      cases Keyed.get? key entries with
      | none => exact ih
      | some field =>
          simp only [Id.run_bind, queries_meet_run, Option.bind_some]
          cases meet field other with
          | none => exact ih
          | some ty => exact congrArg ((key, ty) :: ·) ih

theorem meetFunctions_run (ps rs : List Parameter) (a b : Ty) :
    (Rules.meetFunctions queries ps a rs b).run =
      if ps.length = rs.length then
        (Rules.meetEach queries ((ps.map (·.ty)).zip (rs.map (·.ty)))).run.bind fun tys =>
          (meet a b).map fun ty => .function (ps.zipWith (fun p ty => { p with ty := ty }) tys) ty
      else none := by
  unfold Rules.meetFunctions
  split
  · rw [Id.run_bind]
    cases (Rules.meetEach queries ((ps.map (·.ty)).zip (rs.map (·.ty)))).run with
    | none => rfl
    | some tys =>
        simp only [Id.run_bind, queries_meet_run]
        cases meet a b <;> rfl
  · rfl

theorem meetNamed_run (name other : String) (ps rs : List Parameter) :
    (Rules.meetShapes queries (.named name ps) (.named other rs)).run =
      if shapeSubset (.named name ps) (.named other rs) = true then some (.named name ps)
      else none := by
  change (if shapeSubset (.named name ps) (.named other rs) = true then _ else _ : Id _).run = _
  split <;> rfl

theorem meetLists_run (a b : Ty) :
    (Rules.meetShapes queries (.list a) (.list b)).run = (meet a b).map .list := by
  simp only [Rules.meetShapes, Id.run_bind, queries_meet_run]
  cases meet a b <;> rfl

theorem meetTuples_run (as bs : List Ty) :
    (Rules.meetShapes queries (.tuple as) (.tuple bs)).run =
      if as.length = bs.length then (Rules.meetEach queries (as.zip bs)).run.map .tuple
      else none := by
  simp only [Rules.meetShapes]
  split
  · rw [Id.run_bind]
    cases (Rules.meetEach queries (as.zip bs)).run <;> rfl
  · rfl

theorem meetDictionaries_run (entries others : List (String × Ty)) :
    (Rules.meetShapes queries (.dictionary entries) (.dictionary others)).run =
      if commonFields entries others = [] then none
      else some (.dictionary (commonFields entries others)) := by
  simp only [Rules.meetShapes, Id.run_bind, meetFields_run]
  cases commonFields entries others <;> rfl

theorem meetShapes_iff (s t shape : Shape) :
    (Rules.meetShapes queries s t).run = some shape ↔ ShapeMeet s t shape := by
  constructor
  · intro found
    cases s <;> cases t <;>
      first
        | (cases found; done)
        | skip
    case number.number => cases found; exact .number
    case text.text => cases found; exact .text
    case logic.logic => cases found; exact .logic
    case void.void => cases found; exact .void
    case named.named name ps other rs =>
      rw [meetNamed_run, Option.ite_none_right_eq_some] at found
      cases found.2
      exact .named ((shapeSubset_iff _ _).mp found.1)
    case function.function ps a rs b =>
      have found : (Rules.meetFunctions queries ps a rs b).run = some shape := found
      rw [meetFunctions_run, Option.ite_none_right_eq_some] at found
      obtain ⟨tys, parameters, rest⟩ := Option.bind_eq_some_iff.mp found.2
      obtain ⟨ty, result, rfl⟩ := Option.map_eq_some_iff.mp rest
      exact .function ((meetEach_iff _ _ _).mp ⟨by simpa using found.1, parameters⟩) result
    case list.list a b =>
      rw [meetLists_run, Option.map_eq_some_iff] at found
      obtain ⟨ty, element, rfl⟩ := found
      exact .list element
    case tuple.tuple as bs =>
      rw [meetTuples_run, Option.ite_none_right_eq_some] at found
      obtain ⟨tys, elements, rfl⟩ := Option.map_eq_some_iff.mp found.2
      exact .tuple ((meetEach_iff _ _ _).mp ⟨found.1, elements⟩)
    case dictionary.dictionary entries others =>
      rw [meetDictionaries_run, Option.ite_none_left_eq_some] at found
      cases found.2
      exact .dictionary found.1
  · intro meets
    cases meets with
    | number | text | logic | void => rfl
    | named below => rw [meetNamed_run, if_pos ((shapeSubset_iff _ _).mpr below)]
    | @function ps rs a b ty tys parameters result =>
        have each := (meetEach_iff _ _ _).mpr parameters
        change (Rules.meetFunctions queries ps a rs b).run = _
        rw [meetFunctions_run, if_pos (by simpa using each.1), each.2, result]
        rfl
    | list element => rw [meetLists_run, element]; rfl
    | tuple elements =>
        have each := (meetEach_iff _ _ _).mpr elements
        rw [meetTuples_run, if_pos each.1, each.2]
        rfl
    | dictionary shared => rw [meetDictionaries_run, if_neg shared]

theorem meet_resolved_iff (s t : Shape) (ty : Ty) :
    meet (.resolved s) (.resolved t) = some ty ↔ ∃ shape, ty = .resolved shape ∧
      ShapeMeet s t shape := by
  have rule : meet (.resolved s) (.resolved t) =
      ((Rules.meetShapes queries s t).run).map .resolved := by
    rw [meet_eq]
    simp only [Rules.meet, Id.run_bind]
    cases (Rules.meetShapes queries s t).run <;> rfl
  rw [rule, Option.map_eq_some_iff]
  constructor
  · rintro ⟨shape, found, rfl⟩
    exact ⟨shape, rfl, (meetShapes_iff s t shape).mp found⟩
  · rintro ⟨shape, rfl, meets⟩
    exact ⟨shape, (meetShapes_iff s t shape).mpr meets, rfl⟩

/-- The meets of the branches of two types, the branches of the first outermost. -/
def branchMeets (a b : Ty) : List Ty :=
  a.branches.flatMap fun branch => b.branches.filterMap fun other => meet branch other

theorem mem_branchMeets {a b ty : Ty} : ty ∈ branchMeets a b ↔
    ∃ branch ∈ a.branches, ∃ other ∈ b.branches, meet branch other = some ty := by
  simp only [branchMeets, List.mem_flatMap, List.mem_filterMap]

theorem meetAll_run (as bs : List Ty) :
    (Rules.meetAll queries as bs).run = Ty.collapse (branchMeets (.union as) (.union bs)) := by
  simp only [Rules.meetAll, Id.run_bind, meetSome_run, Rules.crossPairs, List.filterMap_flatMap,
    List.filterMap_map, branchMeets, Ty.branches]
  rfl

theorem meet_literals (u v : Value) : meet (.literal u) (.literal v) =
    if (Rules.valueEqual queries u v).run = true then some (.literal u) else none := by
  rw [meet_eq]
  change (if (Rules.valueEqual queries u v).run = true then _ else _ : Id (Option Ty)).run = _
  split <;> rfl

theorem meet_literal_resolved (u : Value) (t : Shape) : meet (.literal u) (.resolved t) =
    if subset (.literal u) (.resolved t) = true then some (.literal u) else none := by
  rw [meet_eq]
  change (if subset (.literal u) (.resolved t) = true then _ else _ : Id (Option Ty)).run = _
  split <;> rfl

theorem meet_resolved_literal (s : Shape) (v : Value) : meet (.resolved s) (.literal v) =
    if subset (.literal v) (.resolved s) = true then some (.literal v) else none := by
  rw [meet_eq]
  change (if subset (.literal v) (.resolved s) = true then _ else _ : Id (Option Ty)).run = _
  split <;> rfl

theorem isUnion_of_meet {a b ty : Ty} (single : a.isUnion = false) (other : b.isUnion = false)
    (found : meet a b = some ty) : ty.isUnion = false := by
  cases a with
  | union parts => cases single
  | literal u =>
      cases b with
      | union parts => cases other
      | literal v =>
          rw [meet_literals, Option.ite_none_right_eq_some] at found
          cases found.2
          rfl
      | resolved t =>
          rw [meet_literal_resolved, Option.ite_none_right_eq_some] at found
          cases found.2
          rfl
  | resolved s =>
      cases b with
      | union parts => cases other
      | literal v =>
          rw [meet_resolved_literal, Option.ite_none_right_eq_some] at found
          cases found.2
          rfl
      | resolved t =>
          obtain ⟨shape, rfl, -⟩ := (meet_resolved_iff s t ty).mp found
          rfl

theorem meet_eq_collapse (a b : Ty) : meet a b = Ty.collapse (branchMeets a b) := by
  by_cases union : a.isUnion = true ∨ b.isUnion = true
  -- a union on either side is met as the list of its branches
  · have rule : meet a b = (Rules.meetAll queries [a] [b]).run := by
      rw [meet_eq]
      cases a with
      | union parts => rfl
      | literal u =>
          cases b with
          | union parts => rfl
          | literal v => simp [Ty.isUnion] at union
          | resolved t => simp [Ty.isUnion] at union
      | resolved s =>
          cases b with
          | union parts => rfl
          | literal v => simp [Ty.isUnion] at union
          | resolved t => simp [Ty.isUnion] at union
    rw [rule, meetAll_run]
    simp only [branchMeets, Ty.branches, Ty.branchesOf, List.append_nil]
  -- two singles are the only pair, and a list of one type collapses to it
  · simp only [not_or, Bool.not_eq_true] at union
    simp only [branchMeets, Ty.branches_of_single union.1, Ty.branches_of_single union.2,
      List.flatMap_cons, List.flatMap_nil, List.append_nil, List.filterMap_cons,
      List.filterMap_nil]
    cases meet a b <;> rfl

theorem isUnion_of_mem_branchMeets {a b ty : Ty} (member : ty ∈ branchMeets a b) :
    ty.isUnion = false := by
  obtain ⟨branch, inside, other, there, found⟩ := mem_branchMeets.mp member
  exact isUnion_of_meet (Ty.isUnion_of_mem_branches inside) (Ty.isUnion_of_mem_branches there) found

/-- The branches of a meet are the meets of the branches. -/
theorem branches_of_meet {a b ty : Ty} (found : meet a b = some ty) :
    ty.branches = branchMeets a b := by
  rw [meet_eq_collapse] at found
  rw [Ty.branches_of_collapse found]
  exact Ty.branchesOf_of_singles fun part member => isUnion_of_mem_branchMeets member

theorem meet_eq_none_iff (a b : Ty) : meet a b = none ↔ branchMeets a b = [] := by
  rw [meet_eq_collapse, Ty.collapse_eq_none_iff]

theorem meetFrom_cons (ty next : Ty) (rest : List Ty) :
    (Rules.meetFrom queries ty (next :: rest)).run =
      (meet ty next).bind fun common => (Rules.meetFrom queries common rest).run := by
  simp only [Rules.meetFrom, Id.run_bind, queries_meet_run]
  cases meet ty next <;> rfl

end StructuralTypes.Reference

namespace StructuralTypes

theorem Rules.reduce_eq {m : Type → Type} [Monad m] (q : Queries m) (ty : Ty) :
    Rules.reduce q ty = match ty.branches with
      | [] => pure none
      | first :: rest => Rules.meetFrom q first rest := by
  cases ty <;> rfl

end StructuralTypes
