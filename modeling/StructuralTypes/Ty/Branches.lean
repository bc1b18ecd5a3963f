import StructuralTypes.Ty.Basic

/-!
The flat view of a type: its branches, with unions inside unions opened up and no
union left. `collapse` goes back to one type by binary unions nested to the right.
-/

namespace StructuralTypes

namespace Ty

mutual

def branches : Ty → List Ty
  | .union parts => branchesOf parts
  | ty => [ty]

def branchesOf : List Ty → List Ty
  | [] => []
  | ty :: rest => branches ty ++ branchesOf rest

end

mutual

theorem isUnion_of_mem_branches {branch : Ty} :
    ∀ {a : Ty}, branch ∈ a.branches → branch.isUnion = false
  | .union _, member => isUnion_of_mem_branchesOf (by simpa only [branches] using member)
  | .literal _, member => by rw [List.mem_singleton.mp member]; rfl
  | .resolved _, member => by rw [List.mem_singleton.mp member]; rfl

theorem isUnion_of_mem_branchesOf {branch : Ty} :
    ∀ {parts : List Ty}, branch ∈ branchesOf parts → branch.isUnion = false
  | _ :: _, member =>
      (List.mem_append.mp member).elim isUnion_of_mem_branches isUnion_of_mem_branchesOf

end

theorem mem_branches_union {branch : Ty} {parts : List Ty} :
    branch ∈ (Ty.union parts).branches ↔ branch ∈ branchesOf parts := by
  simp only [branches]

theorem branches_of_single {a : Ty} (single : a.isUnion = false) : a.branches = [a] := by
  cases a with
  | union parts => cases single
  | literal value => rfl
  | resolved shape => rfl

/-- No type stands for the empty list, and a single type stands for itself. -/
def collapse : List Ty → Option Ty
  | [] => none
  | ty :: rest =>
      match collapse rest with
      | none => some ty
      | some others => some (.union [ty, others])

theorem collapse_eq_none_iff {parts : List Ty} : collapse parts = none ↔ parts = [] := by
  cases parts with
  | nil => simp [collapse]
  | cons ty rest =>
      simp only [collapse]
      split <;> simp

/-- Collapsing loses no branch, repeats none and keeps their order. -/
theorem branches_of_collapse {parts : List Ty} {ty : Ty} (whole : collapse parts = some ty) :
    ty.branches = branchesOf parts := by
  induction parts generalizing ty with
  | nil => cases whole
  | cons first rest ih =>
      simp only [collapse] at whole
      cases others : collapse rest with
      | none =>
          rw [others] at whole
          cases whole
          simp only [collapse_eq_none_iff.mp others, branchesOf, List.append_nil]
      | some other =>
          rw [others] at whole
          cases whole
          simp only [branches, branchesOf, List.append_nil, ih others]

theorem branchesOf_of_singles {parts : List Ty} (singles : ∀ part ∈ parts, part.isUnion = false) :
    branchesOf parts = parts := by
  induction parts with
  | nil => rfl
  | cons first rest ih =>
      have tail := ih fun part member => singles part (List.mem_cons_of_mem first member)
      rw [branchesOf, branches_of_single (singles first List.mem_cons_self), tail]
      rfl

end Ty

end StructuralTypes
