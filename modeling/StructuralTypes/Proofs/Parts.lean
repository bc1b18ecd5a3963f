import StructuralTypes.Ty.Height
import StructuralTypes.Ty.WellFormed

/-!
The parts of a type are the types directly in it, and the classifier of a literal; what a
parameter defaults to is no part. Parts are lower than the whole, so a statement about all types
may assume itself of the parts. `Ty.everywhere` extends a test to all that occurs in a type.
-/

namespace StructuralTypes

def Shape.parts : Shape → List Ty
  | .named _ parameters => parameters.map (·.ty)
  | .function parameters result => result :: parameters.map (·.ty)
  | .list element => [element]
  | .tuple elements => elements
  | .dictionary entries => entries.map Prod.snd
  | _ => []

def Ty.parts : Ty → List Ty
  | .literal value => [.resolved value.shape]
  | .union branches => branches
  | .resolved shape => shape.parts

mutual

/-- The test holds of the type and of everything that occurs in it, at any depth. -/
def Ty.everywhere (test : Ty → Bool) : Ty → Bool
  | .literal value => test (.literal value) && value.everywhere test
  | .union branches => test (.union branches) && Ty.allEverywhere test branches
  | .resolved shape => test (.resolved shape) && shape.everywhere test

def Shape.everywhere (test : Ty → Bool) : Shape → Bool
  | .named _ parameters => Parameter.allEverywhere test parameters
  | .function parameters result =>
      Parameter.allEverywhere test parameters && result.everywhere test
  | .list element => element.everywhere test
  | .tuple elements => Ty.allEverywhere test elements
  | .dictionary entries => Ty.entriesEverywhere test entries
  | _ => true

def Value.everywhere (test : Ty → Bool) : Value → Bool
  | ⟨_, shape⟩ => test (.resolved shape) && shape.everywhere test

def Parameter.everywhere (test : Ty → Bool) : Parameter → Bool
  | ⟨_, ty, _⟩ => ty.everywhere test

def Ty.allEverywhere (test : Ty → Bool) : List Ty → Bool
  | [] => true
  | ty :: rest => ty.everywhere test && Ty.allEverywhere test rest

def Parameter.allEverywhere (test : Ty → Bool) : List Parameter → Bool
  | [] => true
  | parameter :: rest => parameter.everywhere test && Parameter.allEverywhere test rest

def Ty.entriesEverywhere (test : Ty → Bool) : List (String × Ty) → Bool
  | [] => true
  | (_, ty) :: rest => ty.everywhere test && Ty.entriesEverywhere test rest

end

variable {test : Ty → Bool}

theorem Ty.allEverywhere_iff (tys : List Ty) :
    Ty.allEverywhere test tys = true ↔ ∀ ty ∈ tys, ty.everywhere test = true := by
  induction tys with
  | nil => simp [Ty.allEverywhere]
  | cons ty rest ih => simp [Ty.allEverywhere, ih]

theorem Parameter.allEverywhere_iff (ps : List Parameter) :
    Parameter.allEverywhere test ps = true ↔
      ∀ ty ∈ ps.map (·.ty), ty.everywhere test = true := by
  induction ps with
  | nil => simp [Parameter.allEverywhere]
  | cons p rest ih =>
      obtain ⟨name, ty, default⟩ := p
      rw [Parameter.allEverywhere, Parameter.everywhere, Bool.and_eq_true, ih, List.map_cons,
        List.forall_mem_cons]

theorem Ty.entriesEverywhere_iff (entries : List (String × Ty)) :
    Ty.entriesEverywhere test entries = true ↔
      ∀ ty ∈ entries.map Prod.snd, ty.everywhere test = true := by
  induction entries with
  | nil => simp [Ty.entriesEverywhere]
  | cons entry rest ih =>
      obtain ⟨key, ty⟩ := entry
      rw [Ty.entriesEverywhere, Bool.and_eq_true, ih, List.map_cons, List.forall_mem_cons]

theorem Shape.everywhere_iff (s : Shape) :
    s.everywhere test = true ↔ ∀ part ∈ s.parts, part.everywhere test = true := by
  cases s with
  | named name ps => exact Parameter.allEverywhere_iff ps
  | function ps result =>
      rw [Shape.everywhere, Bool.and_eq_true, Parameter.allEverywhere_iff, and_comm, Shape.parts,
        List.forall_mem_cons]
  | list element => simp [Shape.everywhere, Shape.parts]
  | tuple elements => exact Ty.allEverywhere_iff elements
  | dictionary entries => exact Ty.entriesEverywhere_iff entries
  | _ => simp [Shape.everywhere, Shape.parts]

theorem Ty.everywhere_iff (a : Ty) : a.everywhere test = true ↔
    test a = true ∧ ∀ part ∈ a.parts, part.everywhere test = true := by
  cases a with
  | literal value =>
      obtain ⟨payload, shape⟩ := value
      simp [Ty.everywhere, Value.everywhere, Ty.parts]
  | union branches => rw [Ty.everywhere, Bool.and_eq_true, Ty.allEverywhere_iff, Ty.parts]
  | resolved shape => rw [Ty.everywhere, Bool.and_eq_true, Shape.everywhere_iff, Ty.parts]

theorem Shape.height_of_mem_parts {s : Shape} {part : Ty} (member : part ∈ s.parts) :
    part.height < s.height := by
  cases s with
  | named name ps =>
      obtain ⟨p, inside, rfl⟩ := List.mem_map.mp member
      have low := Parameter.height_le_tallest inside
      simp only [Shape.height]
      omega
  | function ps result =>
      simp only [Shape.height]
      rcases List.mem_cons.mp member with rfl | parameter
      · omega
      · obtain ⟨p, inside, rfl⟩ := List.mem_map.mp parameter
        have low := Parameter.height_le_tallest inside
        omega
  | list element =>
      cases List.mem_singleton.mp member
      simp only [Shape.height]
      omega
  | tuple elements =>
      have low : part.height ≤ Ty.tallest elements := Ty.height_le_tallest member
      simp only [Shape.height]
      omega
  | dictionary entries =>
      obtain ⟨⟨key, ty⟩, inside, rfl⟩ := List.mem_map.mp member
      have low := Ty.height_le_tallestEntry inside
      simp only [Shape.height]
      omega
  | _ => cases member

theorem Ty.height_of_mem_parts {a part : Ty} (member : part ∈ a.parts) :
    part.height < a.height := by
  cases a with
  | literal value =>
      cases List.mem_singleton.mp member
      simp only [Ty.height, Value.height_eq]
      omega
  | union branches =>
      have low : part.height ≤ Ty.tallest branches := Ty.height_le_tallest member
      simp only [Ty.height]
      omega
  | resolved shape => exact Shape.height_of_mem_parts member

/-- What holds of a type as soon as it holds of its parts holds of all types. -/
theorem Ty.induction_parts {motive : Ty → Prop}
    (step : ∀ a : Ty, (∀ part ∈ a.parts, motive part) → motive a) (a : Ty) : motive a := by
  induction height : a.height using Nat.strongRecOn generalizing a with
  | ind n ih =>
      apply step
      intro part member
      exact ih part.height (height ▸ Ty.height_of_mem_parts member) part rfl

theorem Ty.branchesOf_eq_flatMap (parts : List Ty) :
    Ty.branchesOf parts = parts.flatMap Ty.branches := by
  induction parts with
  | nil => rfl
  | cons part rest ih => rw [Ty.branchesOf, List.flatMap_cons, ih]

theorem Ty.mem_branchesOf {branch : Ty} (tys : List Ty) :
    branch ∈ Ty.branchesOf tys ↔ ∃ ty ∈ tys, branch ∈ ty.branches := by
  induction tys with
  | nil => simp [Ty.branchesOf]
  | cons ty rest ih => simp [Ty.branchesOf, ih]

theorem Ty.branch_of_hereditary {holds : Ty → Prop}
    (down : ∀ a, holds a → ∀ part ∈ a.parts, holds part) {a branch : Ty} (condition : holds a)
    (member : branch ∈ a.branches) : holds branch := by
  induction a using Ty.induction_parts with
  | step a ih =>
      cases a with
      | union parts =>
          obtain ⟨part, inside, there⟩ :=
            (Ty.mem_branchesOf parts).mp (Ty.mem_branches_union.mp member)
          exact ih part inside (down _ condition part inside) there
      | literal value => rwa [List.mem_singleton.mp member]
      | resolved shape => rwa [List.mem_singleton.mp member]

def Ty.nonempty : Ty → Bool
  | .union branches => !branches.isEmpty
  | .resolved (.dictionary entries) => !entries.isEmpty
  | _ => true

theorem Ty.branches_ne_nil {a : Ty} (full : a.everywhere Ty.nonempty = true) :
    a.branches ≠ [] := by
  induction a using Ty.induction_parts with
  | step a ih =>
      obtain ⟨here, parts⟩ := (Ty.everywhere_iff _).mp full
      cases a with
      | union branches =>
          cases branches with
          | nil => cases here
          | cons first rest =>
              have branches := ih first List.mem_cons_self (parts first List.mem_cons_self)
              simp only [Ty.branches, Ty.branchesOf]
              exact List.append_ne_nil_of_left_ne_nil branches _
      | literal value => exact List.cons_ne_nil _ _
      | resolved shape => exact List.cons_ne_nil _ _

theorem Ty.allWellFormed_iff (tys : List Ty) :
    Ty.allWellFormed tys = true ↔ ∀ ty ∈ tys, ty.wellFormed = true := by
  induction tys with
  | nil => simp [Ty.allWellFormed]
  | cons ty rest ih => simp [Ty.allWellFormed, ih]

theorem Parameter.wellFormed_of_mem {ps : List Parameter}
    (formed : Parameter.allWellFormed ps = true) {ty : Ty} (member : ty ∈ ps.map (·.ty)) :
    ty.wellFormed = true := by
  induction ps with
  | nil => cases member
  | cons p rest ih =>
      obtain ⟨name, first, default⟩ := p
      simp only [Parameter.allWellFormed, Parameter.wellFormed, Bool.and_eq_true] at formed
      rcases List.mem_cons.mp member with rfl | later
      · exact formed.1.1
      · exact ih formed.2 later

theorem Ty.wellFormed_of_mem_entries {entries : List (String × Ty)}
    (formed : Ty.entriesWellFormed entries = true) {ty : Ty}
    (member : ty ∈ entries.map Prod.snd) : ty.wellFormed = true := by
  induction entries with
  | nil => cases member
  | cons entry rest ih =>
      obtain ⟨key, first⟩ := entry
      simp only [Ty.entriesWellFormed, Bool.and_eq_true] at formed
      rcases List.mem_cons.mp member with rfl | later
      · exact formed.1
      · exact ih formed.2 later

theorem Shape.wellFormed_of_mem_parts {s : Shape} (formed : s.wellFormed = true) {part : Ty}
    (member : part ∈ s.parts) : part.wellFormed = true := by
  cases s with
  | named name ps => exact Parameter.wellFormed_of_mem formed member
  | function ps result =>
      simp only [Shape.wellFormed, Bool.and_eq_true] at formed
      rcases List.mem_cons.mp member with rfl | parameter
      · exact formed.2
      · exact Parameter.wellFormed_of_mem formed.1 parameter
  | list element =>
      cases List.mem_singleton.mp member
      exact formed
  | tuple elements => exact (Ty.allWellFormed_iff elements).mp formed part member
  | dictionary entries =>
      simp only [Shape.wellFormed, Bool.and_eq_true] at formed
      exact Ty.wellFormed_of_mem_entries formed.2 member
  | _ => cases member

theorem Ty.wellFormed_of_mem_parts {a : Ty} (formed : a.wellFormed = true) {part : Ty}
    (member : part ∈ a.parts) : part.wellFormed = true := by
  cases a with
  | literal value =>
      obtain ⟨payload, shape⟩ := value
      cases List.mem_singleton.mp member
      simp only [Ty.wellFormed, Value.wellFormed, Bool.and_eq_true] at formed
      exact formed.2
  | union branches => exact (Ty.allWellFormed_iff branches).mp formed part member
  | resolved shape => exact Shape.wellFormed_of_mem_parts formed member

end StructuralTypes
