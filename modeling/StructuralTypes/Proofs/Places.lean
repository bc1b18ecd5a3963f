import StructuralTypes.Proofs.Equality
import StructuralTypes.Proofs.Parts

/-!
The places of a type are where a meet goes on inside it: the element of a list, the positions of a
tuple, the fields of a record, and the parameters and the result of a function. A literal has no
places, and neither has a named type. Below a union, what stands at a place stands there in one of
the branches, so a statement about everything in a type at any depth goes from its branches to what
stands at their places, and so does the induction on types that goes with it.
-/

namespace StructuralTypes

inductive Place where
  | element
  | position (index : Nat)
  | field (key : String)
  | parameter (index : Nat)
  | result

namespace Shape

def part? : Shape → Place → Option Ty
  | .list element, .element => some element
  | .tuple elements, .position index => elements[index]?
  | .dictionary entries, .field key => Keyed.get? key entries
  | .function parameters _, .parameter index => (parameters.map (·.ty))[index]?
  | .function _ result, .result => some result
  | _, _ => none

def keys : Shape → List String
  | .dictionary entries => Keyed.keys entries
  | _ => []

/-- Composite shapes of one kind that have the same places, where only records may differ. -/
inductive Fits : Shape → Shape → Prop where
  | list {a b : Ty} : Fits (.list a) (.list b)
  | tuple {as bs : List Ty} (lengths : as.length = bs.length) : Fits (.tuple as) (.tuple bs)
  | function {ps rs : List Parameter} {a b : Ty} (lengths : ps.length = rs.length) :
      Fits (.function ps a) (.function rs b)
  | dictionary {entries others : List (String × Ty)} :
      Fits (.dictionary entries) (.dictionary others)

variable {s t r : Shape}

theorem Fits.trans (first : s.Fits t) (second : t.Fits r) : s.Fits r := by
  cases first with
  | list =>
      cases second with
      | list => exact .list
  | tuple lengths =>
      cases second with
      | tuple others => exact .tuple (lengths.trans others)
  | function lengths =>
      cases second with
      | function others => exact .function (lengths.trans others)
  | dictionary =>
      cases second with
      | dictionary => exact .dictionary

theorem Fits.congr (fits : s.Fits t) (same : t == r) : s.Fits r := by
  cases fits with
  | list =>
      cases (@Precision.shape_iff .equality _ _).mp same with
      | list element => exact .list
  | tuple lengths =>
      cases (@Precision.shape_iff .equality _ _).mp same with
      | tuple elements =>
          exact .tuple (lengths.trans ((list_equal_iff _ _).mp elements).length_eq)
  | function lengths =>
      cases (@Precision.shape_iff .equality _ _).mp same with
      | function parameters result =>
          exact .function (lengths.trans ((list_equal_iff _ _).mp parameters).length_eq)
  | dictionary =>
      cases (@Precision.shape_iff .equality _ _).mp same with
      | dictionary entries => exact .dictionary

theorem mem_parts_of_part? {place : Place} {part : Ty} (found : s.part? place = some part) :
    part ∈ s.parts := by
  unfold part? at found
  split at found
  · cases found
    exact List.mem_singleton_self _
  · exact List.mem_of_getElem? found
  · exact List.mem_map_of_mem (Keyed.mem_of_get? found)
  · exact List.mem_cons_of_mem _ (List.mem_of_getElem? found)
  · cases found
    exact List.mem_cons_self
  · cases found

end Shape

theorem getElem?_equal {α : Type} [BEq α] {as bs : List α} (same : as == bs) {index : Nat} {a : α}
    (found : as[index]? = some a) : ∃ b, bs[index]? = some b ∧ a == b := by
  obtain ⟨lengths, each⟩ := List.forall₂_iff_get.mp ((list_equal_iff as bs).mp same)
  obtain ⟨inside, rfl⟩ := List.getElem?_eq_some_iff.mp found
  have other : index < bs.length := lengths ▸ inside
  exact ⟨bs[index], List.getElem?_eq_getElem other, each index inside other⟩

theorem Parameter.map_ty_equal {ps rs : List Parameter} (same : ps == rs) :
    ps.map (·.ty) == rs.map (·.ty) := by
  rw [list_equal_iff] at same ⊢
  rw [List.forall₂_map_left_iff, List.forall₂_map_right_iff]
  exact same.imp fun p r equal => ((Parameter.equal_iff p r).mp equal).2.1

theorem Parameter.map_ty_retyped {ps : List Parameter} {tys : List Ty}
    (lengths : ps.length = tys.length) :
    (ps.zipWith (fun p ty => { p with ty := ty }) tys).map (·.ty) = tys := by
  induction ps generalizing tys with
  | nil =>
      cases List.length_eq_zero_iff.mp lengths.symm
      rfl
  | cons p ps ih =>
      cases tys with
      | nil => cases lengths
      | cons ty tys => exact congrArg (ty :: ·) (ih (Nat.succ.inj lengths))

theorem keys_equal {as bs : List (String × Ty)} (same : as == bs) :
    Keyed.keys as = Keyed.keys bs := by
  rw [list_equal_iff] at same
  induction same with
  | nil => rfl
  | @cons first other _ _ equal _ ih =>
      obtain ⟨key, -⟩ := (entry_equal_iff first.1 other.1 first.2 other.2).mp equal
      exact congrArg₂ List.cons key ih

theorem Shape.keys_equal {s t : Shape} (same : s == t) : s.keys = t.keys := by
  cases (@Precision.shape_iff .equality s t).mp same with
  | dictionary entries => exact StructuralTypes.keys_equal entries
  | _ => rfl

theorem Shape.part?_equal {s t : Shape} (same : s == t) {place : Place} {part : Ty}
    (found : s.part? place = some part) : ∃ other, t.part? place = some other ∧ part == other := by
  cases (@Precision.shape_iff .equality s t).mp same with
  | list element =>
      cases place with
      | element =>
          cases found
          exact ⟨_, rfl, element⟩
      | _ => cases found
  | tuple elements =>
      cases place with
      | position index => exact getElem?_equal elements found
      | _ => cases found
  | dictionary entries =>
      cases place with
      | field key =>
          rcases Precision.equality.option_cases (get?_equal entries key) with
            ⟨missing, -⟩ | ⟨x, y, here, there, equal⟩
          · exact absurd (missing.symm.trans found) (by simp)
          · cases here.symm.trans found
            exact ⟨y, there, equal⟩
      | _ => cases found
  | function parameters result =>
      cases place with
      | parameter index => exact getElem?_equal (Parameter.map_ty_equal parameters) found
      | result =>
          cases found
          exact ⟨_, rfl, result⟩
      | _ => cases found
  | _ => cases found

namespace Ty

def part? : Ty → Place → Option Ty
  | .resolved shape, place => shape.part? place
  | _, _ => none

theorem mem_parts_of_part? {a part : Ty} {place : Place} (found : a.part? place = some part) :
    part ∈ a.parts := by
  cases a with
  | resolved shape => exact Shape.mem_parts_of_part? found
  | literal value => cases found
  | union parts => cases found

theorem part?_equal {a b : Ty} (same : a == b) {place : Place} {part : Ty}
    (found : a.part? place = some part) : ∃ other, b.part? place = some other ∧ part == other := by
  cases alike_of_equal same with
  | resolved shape => exact Shape.part?_equal shape found
  | literal payload shape => cases found
  | union branches => cases found

theorem exists_branch_equal {a b : Ty} (same : a == b) {x : Ty} (inside : x ∈ a.branches) :
    ∃ y ∈ b.branches, x == y :=
  exists_equal_of_mem (branches_equal same) inside

theorem height_of_part? {a branch part : Ty} {place : Place} (member : branch ∈ a.branches)
    (found : branch.part? place = some part) : part.height < a.height :=
  Nat.lt_of_lt_of_le (height_of_mem_parts (mem_parts_of_part? found))
    (height_of_mem_branches member)

/-- What holds of a type as soon as it holds at all places of its branches holds of all types. -/
theorem induction_places {motive : Ty → Prop}
    (step : ∀ a : Ty, (∀ branch ∈ a.branches, ∀ place part, branch.part? place = some part →
      motive part) → motive a) (a : Ty) : motive a := by
  induction height : a.height using Nat.strongRecOn generalizing a with
  | ind n ih =>
      apply step
      intro branch member place part found
      exact ih part.height (height ▸ height_of_part? member found) part rfl

/-- The test holds of every branch, and so on at every place of the branches. -/
inductive Throughout (test : Ty → Prop) : Ty → Prop where
  | intro {a : Ty} (here : ∀ branch ∈ a.branches, test branch)
      (inside : ∀ branch ∈ a.branches, ∀ place part, branch.part? place = some part →
        Throughout test part) : Throughout test a

namespace Throughout

variable {test : Ty → Prop} {a b : Ty}

theorem here (holds : Throughout test a) {branch : Ty} (member : branch ∈ a.branches) :
    test branch := by
  cases holds with
  | intro here inside => exact here branch member

theorem part (holds : Throughout test a) {branch : Ty} (member : branch ∈ a.branches)
    {place : Place} {part : Ty} (found : branch.part? place = some part) :
    Throughout test part := by
  cases holds with
  | intro here inside => exact inside branch member place part found

theorem of_branches (holds : Throughout test a) (branches : ∀ branch ∈ b.branches,
    branch ∈ a.branches) : Throughout test b :=
  .intro (fun branch member => holds.here (branches branch member))
    fun branch member _ _ found => holds.part (branches branch member) found

theorem branch (holds : Throughout test a) {branch : Ty} (member : branch ∈ a.branches) :
    Throughout test branch := by
  apply holds.of_branches
  intro other inside
  rw [branches_of_single (isUnion_of_mem_branches member), List.mem_singleton] at inside
  exact inside ▸ member

theorem congr (respects : ∀ {x y : Ty}, x == y → test x → test y) (same : a == b)
    (holds : Throughout test a) : Throughout test b := by
  induction holds generalizing b with
  | intro here _ ih =>
      constructor
      · intro branch member
        obtain ⟨other, inside, equal⟩ := exists_branch_equal (BEq.symm same) member
        exact respects (BEq.symm equal) (here other inside)
      · intro branch member place part found
        obtain ⟨other, inside, equal⟩ := exists_branch_equal (BEq.symm same) member
        obtain ⟨there, standing, parts⟩ := part?_equal equal found
        exact ih other inside place there standing (BEq.symm parts)

theorem of_hereditary {holds : Ty → Prop} (down : ∀ a, holds a → ∀ part ∈ a.parts, holds part)
    (implies : ∀ a, holds a → test a) (whole : holds a) : Throughout test a := by
  induction a using induction_places with
  | step a ih =>
      have branches : ∀ branch ∈ a.branches, holds branch :=
        fun branch member => branch_of_hereditary down whole member
      constructor
      · intro branch member
        exact implies branch (branches branch member)
      · intro branch member place part found
        have inside := down branch (branches branch member) part (mem_parts_of_part? found)
        exact ih branch member place part found inside

end Throughout

def KeyOrder (a : Ty) : Prop :=
  ∀ entries, a = .resolved (.dictionary entries) → Keyed.Sorted entries

def Ordered : Ty → Prop := Throughout KeyOrder

theorem KeyOrder.congr {a b : Ty} (same : a == b) (order : a.KeyOrder) : b.KeyOrder := by
  rintro others rfl
  cases alike_of_equal same with
  | resolved shape =>
      cases (@Precision.shape_iff .equality _ _).mp shape with
      | dictionary entries =>
          have sorted := order _ rfl
          rwa [Keyed.Sorted, keys_equal entries] at sorted

theorem Ordered.congr {a b : Ty} (same : a == b) (ordered : a.Ordered) : b.Ordered :=
  Throughout.congr KeyOrder.congr same ordered

theorem ordered_of_wellFormed {a : Ty} (formed : a.wellFormed = true) : a.Ordered := by
  refine @Throughout.of_hereditary KeyOrder a (fun a => a.wellFormed = true) ?_ ?_ formed
  · intro a formed part inside
    exact wellFormed_of_mem_parts formed inside
  · rintro _ formed entries rfl
    simp only [wellFormed, Shape.wellFormed, Bool.and_eq_true, decide_eq_true_eq] at formed
    exact formed.1

end Ty

end StructuralTypes
