import StructuralTypes.Proofs.Inhabits

/-!
When a part can be read out of a type. A reading goes through the unions that a type is built
of, down to the branches: it succeeds if none of these unions is without branches and if each
branch gives the part, and the parts then stand in the places of the branches. The number of
parameters is found by another recursion, on which the branches have to agree, and it is known
under conditions of the same form.
-/

namespace StructuralTypes

namespace Ty

mutual

/-- One of the unions that a type is built of has no branches. -/
def hollow : Ty → Bool
  | .union parts => parts.isEmpty || anyHollow parts
  | _ => false

def anyHollow : List Ty → Bool
  | [] => false
  | part :: rest => hollow part || anyHollow rest

end

mutual

/-- The same unions, with each branch replaced by the part read out of it. -/
def replaced (read : Ty → Option Ty) : Ty → Ty
  | .union parts => .union (replacedAll read parts)
  | .literal value => (read (.literal value)).getD (.literal value)
  | .resolved shape => (read (.resolved shape)).getD (.resolved shape)

def replacedAll (read : Ty → Option Ty) : List Ty → List Ty
  | [] => []
  | part :: rest => replaced read part :: replacedAll read rest

end

theorem hollow_of_single {a : Ty} (single : a.isUnion = false) : a.hollow = false := by
  cases a with
  | union parts => cases single
  | literal value => rfl
  | resolved shape => rfl

theorem anyHollow_of_full {parts : List Ty} (full : ∀ part ∈ parts, part.hollow = false) :
    anyHollow parts = false := by
  induction parts with
  | nil => rfl
  | cons first rest ih =>
      obtain ⟨head, tail⟩ := List.forall_mem_cons.mp full
      rw [anyHollow, head, ih tail, Bool.or_false]

theorem branches_ne_nil_of_full : ∀ {a : Ty}, a.hollow = false → a.branches ≠ []
  | .literal _, _ => List.cons_ne_nil _ _
  | .resolved _, _ => List.cons_ne_nil _ _
  | .union (first :: rest), full => by
      simp only [hollow, anyHollow, Bool.or_eq_false_iff] at full
      have some := branches_ne_nil_of_full full.2.1
      simp only [branches, branchesOf]
      exact List.append_ne_nil_of_left_ne_nil some _

mutual

theorem branches_replaced (read : Ty → Option Ty) : ∀ a : Ty,
    (a.replaced read).branches = a.branches.flatMap fun leaf => ((read leaf).getD leaf).branches
  | .literal _ => by simp only [replaced, branches, List.flatMap_cons, List.flatMap_nil,
      List.append_nil]
  | .resolved _ => by simp only [replaced, branches, List.flatMap_cons, List.flatMap_nil,
      List.append_nil]
  | .union parts => by simp only [replaced, branches, branchesOf_replaced read parts]

theorem branchesOf_replaced (read : Ty → Option Ty) : ∀ parts : List Ty,
    branchesOf (replacedAll read parts) =
      (branchesOf parts).flatMap fun leaf => ((read leaf).getD leaf).branches
  | [] => rfl
  | part :: rest => by
      simp only [replacedAll, branchesOf, List.flatMap_append, branches_replaced read part,
        branchesOf_replaced read rest]

end

theorem read_iff {read : Ty → Option Ty} {leaf part : Ty} :
    read leaf = some part ↔
      (∀ branch ∈ [leaf], (read branch).isSome = true) ∧ (read leaf).getD leaf = part := by
  cases found : read leaf with
  | none => simp [found]
  | some other => simp [found]

mutual

theorem project_iff {read : Ty → Option Ty} : ∀ {a part : Ty}, a.project read = some part ↔
    a.hollow = false ∧ (∀ leaf ∈ a.branches, (read leaf).isSome = true) ∧ a.replaced read = part
  | .literal value, part => by
      change read (.literal value) = some part ↔ _
      simp only [hollow, branches, replaced, true_and]
      exact read_iff
  | .resolved shape, part => by
      change read (.resolved shape) = some part ↔ _
      simp only [hollow, branches, replaced, true_and]
      exact read_iff
  | .union [], part => by simp [project, projectM, hollow]
  | .union (first :: rest), part => by
      rw [project_union, Option.map_eq_some_iff]
      simp only [projectAll_iff, hollow, List.isEmpty_cons, Bool.false_or, branches, replaced]
      constructor
      · rintro ⟨parts, ⟨full, readable, rfl⟩, rfl⟩
        exact ⟨full, readable, rfl⟩
      · rintro ⟨full, readable, rfl⟩
        exact ⟨_, ⟨full, readable, rfl⟩, rfl⟩

theorem projectAll_iff {read : Ty → Option Ty} : ∀ {as parts : List Ty},
    projectAll read as = some parts ↔ anyHollow as = false ∧
      (∀ leaf ∈ branchesOf as, (read leaf).isSome = true) ∧ replacedAll read as = parts
  | [], parts => by simp [projectAll, projectAllM, anyHollow, branchesOf, replacedAll]
  | first :: rest, parts => by
      rw [projectAll_cons, Option.bind_eq_some_iff]
      simp only [Option.map_eq_some_iff, project_iff, projectAll_iff, anyHollow, branchesOf,
        replacedAll, Bool.or_eq_false_iff, List.mem_append]
      constructor
      · rintro ⟨part, ⟨full, readable, rfl⟩, others, ⟨fullRest, readableRest, rfl⟩, rfl⟩
        exact ⟨⟨full, fullRest⟩, fun leaf member => member.elim (readable leaf)
          (readableRest leaf), rfl⟩
      · rintro ⟨⟨full, fullRest⟩, readable, rfl⟩
        exact ⟨_, ⟨full, fun leaf member => readable leaf (.inl member), rfl⟩, _,
          ⟨fullRest, fun leaf member => readable leaf (.inr member), rfl⟩, rfl⟩

end

def IsFunction (count : Nat) (a : Ty) : Prop :=
  ∃ parameters result, a = .resolved (.function parameters result) ∧ parameters.length = count

theorem arityOf_iff {count : Nat} {parts : List Ty} :
    arityOf parts = some count ↔ parts.isEmpty = false ∧ agrees count parts = true := by
  cases parts with
  | nil => simp [arityOf]
  | cons first rest =>
      simp only [arityOf, agrees]
      cases first.arity with
      | none => simp
      | some found =>
          by_cases same : found = count
          · subst same
            simp
          · simp [same]

mutual

theorem arity_iff {count : Nat} : ∀ {a : Ty}, a.arity = some count ↔
    a.hollow = false ∧ ∀ leaf ∈ a.branches, IsFunction count leaf
  | .literal value => by simp [arity, hollow, branches, IsFunction]
  | .resolved shape => by
      cases shape with
      | function parameters result => simp [arity, hollow, branches, IsFunction]
      | _ => simp [arity, hollow, branches, IsFunction]
  | .union parts => by
      simp only [arity, arityOf_iff, agrees_iff, hollow, branches, Bool.or_eq_false_iff, and_assoc]

theorem agrees_iff {count : Nat} : ∀ {parts : List Ty}, agrees count parts = true ↔
    anyHollow parts = false ∧ ∀ leaf ∈ branchesOf parts, IsFunction count leaf
  | [] => by simp [agrees, anyHollow, branchesOf]
  | part :: rest => by
      simp only [agrees, anyHollow, branchesOf, Bool.and_eq_true, beq_iff_eq, arity_iff, agrees_iff,
        Bool.or_eq_false_iff, List.mem_append]
      constructor
      · rintro ⟨⟨full, functions⟩, fullRest, functionsRest⟩
        exact ⟨⟨full, fullRest⟩, fun leaf member => member.elim (functions leaf)
          (functionsRest leaf)⟩
      · rintro ⟨⟨full, fullRest⟩, functions⟩
        exact ⟨⟨full, fun leaf member => functions leaf (.inl member)⟩, fullRest,
          fun leaf member => functions leaf (.inr member)⟩

end

end Ty

end StructuralTypes
