import StructuralTypes.Ty.Branches

/-!
Nesting height: every composite counts one above its tallest part, a literal two
above its classifier, a primitive one. Defaults of parameters do not count, since
no question about types looks at them.
-/

namespace StructuralTypes

mutual

def Ty.height : Ty → Nat
  | .literal value => 2 + value.height
  | .union branches => 1 + Ty.tallest branches
  | .resolved shape => shape.height

def Shape.height : Shape → Nat
  | .number | .text | .logic | .void => 1
  | .named _ parameters => 1 + Parameter.tallest parameters
  | .function parameters result => 1 + max (Parameter.tallest parameters) result.height
  | .list element => 1 + element.height
  | .tuple elements => 1 + Ty.tallest elements
  | .dictionary entries => 1 + Ty.tallestEntry entries

def Value.height : Value → Nat
  | ⟨_, shape⟩ => shape.height

def Parameter.height : Parameter → Nat
  | ⟨_, ty, _⟩ => ty.height

def Ty.tallest : List Ty → Nat
  | [] => 0
  | ty :: rest => max ty.height (Ty.tallest rest)

def Parameter.tallest : List Parameter → Nat
  | [] => 0
  | parameter :: rest => max parameter.height (Parameter.tallest rest)

def Ty.tallestEntry : List (String × Ty) → Nat
  | [] => 0
  | (_, ty) :: rest => max ty.height (Ty.tallestEntry rest)

end

theorem Value.height_eq (value : Value) : value.height = value.shape.height := by
  obtain ⟨_, shape⟩ := value
  simp only [Value.height]

theorem Parameter.height_eq (p : Parameter) : p.height = p.ty.height := by
  obtain ⟨_, ty, _⟩ := p
  simp only [Parameter.height]

theorem Shape.height_pos (s : Shape) : 0 < s.height := by
  cases s <;> simp only [Shape.height] <;> omega

theorem Ty.height_pos (a : Ty) : 0 < a.height := by
  cases a with
  | literal value => simp only [Ty.height]; omega
  | union branches => simp only [Ty.height]; omega
  | resolved shape => exact shape.height_pos

theorem Ty.height_le_tallest {ty : Ty} {tys : List Ty} (member : ty ∈ tys) :
    ty.height ≤ Ty.tallest tys := by
  induction member with
  | head rest => simp only [Ty.tallest]; omega
  | tail other _ ih => simp only [Ty.tallest]; omega

theorem Parameter.height_le_tallest {p : Parameter} {ps : List Parameter} (member : p ∈ ps) :
    p.ty.height ≤ Parameter.tallest ps := by
  induction member with
  | head rest => simp only [Parameter.tallest, Parameter.height_eq]; omega
  | tail other _ ih => simp only [Parameter.tallest]; omega

theorem Ty.height_le_tallestEntry {key : String} {ty : Ty} {entries : List (String × Ty)}
    (member : (key, ty) ∈ entries) : ty.height ≤ Ty.tallestEntry entries := by
  induction entries with
  | nil => simp at member
  | cons entry rest ih =>
      obtain ⟨other, first⟩ := entry
      simp only [Ty.tallestEntry]
      rcases List.mem_cons.mp member with same | later
      · cases same
        omega
      · have := ih later
        omega

mutual

theorem Ty.height_of_mem_branches {branch : Ty} : ∀ {a : Ty}, branch ∈ a.branches →
    branch.height ≤ a.height
  | .literal value, member => by
      simp only [Ty.branches, List.mem_singleton] at member
      exact Nat.le_of_eq (congrArg Ty.height member)
  | .resolved shape, member => by
      simp only [Ty.branches, List.mem_singleton] at member
      exact Nat.le_of_eq (congrArg Ty.height member)
  | .union parts, member => by
      have inside := Ty.mem_branches_union.mp member
      have below := Ty.height_of_mem_branchesOf inside
      simp only [Ty.height]
      omega

theorem Ty.height_of_mem_branchesOf {branch : Ty} : ∀ {parts : List Ty},
    branch ∈ Ty.branchesOf parts → branch.height ≤ Ty.tallest parts
  | [], member => by simp [Ty.branchesOf] at member
  | a :: rest, member => by
      simp only [Ty.branchesOf, List.mem_append] at member
      simp only [Ty.tallest]
      rcases member with here | later
      · have := Ty.height_of_mem_branches here
        omega
      · have := Ty.height_of_mem_branchesOf later
        omega

end

theorem Ty.height_of_mem_union {branch a : Ty} (union : a.isUnion = true)
    (member : branch ∈ a.branches) : branch.height < a.height := by
  cases a with
  | literal _ => cases union
  | union parts =>
      have inside := Ty.mem_branches_union.mp member
      have below := Ty.height_of_mem_branchesOf inside
      simp only [Ty.height]
      omega
  | resolved _ => cases union

end StructuralTypes
