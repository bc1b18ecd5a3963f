import StructuralTypes.Proofs.Meet
import StructuralTypes.Proofs.Places

/-!
What may come out of a meet when some of its questions are cut short. A pair of branches that was
missed leaves no branch, and a field that was missed no key; all else is in its place. So each
branch of a partial meet goes back to a pair of branches. It is their plain meet if it has no
places, and of their kind otherwise, with a partial meet of what they have there at each place. That
is all that is said of how meets are made: their normal form and what they keep of the plain
ones follow from it by induction on places.
-/

namespace StructuralTypes

namespace Rules

theorem mem_crossPairs {as bs : List Ty} {a b : Ty} :
    (a, b) ∈ crossPairs as bs ↔ a ∈ as ∧ b ∈ bs := by
  simp [crossPairs]

theorem length_crossPairs (as bs : List Ty) :
    (crossPairs as bs).length = as.length * bs.length := by
  simp [crossPairs, List.length_flatMap]

end Rules

namespace Ty

/-- A single type, or two branches of which the second goes on in the same way. -/
inductive Chain : Ty → Prop where
  | one {ty : Ty} (single : ty.isUnion = false) : Chain ty
  | more {ty others : Ty} (single : ty.isUnion = false) (rest : Chain others) :
      Chain (.union [ty, others])

theorem chain_of_collapse {parts : List Ty} (singles : ∀ part ∈ parts, part.isUnion = false)
    {ty : Ty} (collapsed : collapse parts = some ty) : ty.Chain := by
  induction parts generalizing ty with
  | nil => cases collapsed
  | cons first rest ih =>
      obtain ⟨single, others⟩ := List.forall_mem_cons.mp singles
      cases tail : collapse rest with
      | none =>
          simp only [collapse, tail] at collapsed
          cases collapsed
          exact .one single
      | some other =>
          simp only [collapse, tail] at collapsed
          cases collapsed
          exact .more single (ih others tail)

def atomic : Ty → Bool
  | .union _ => false
  | .resolved (.list _) => false
  | .resolved (.tuple _) => false
  | .resolved (.dictionary _) => false
  | .resolved (.function _ _) => false
  | _ => true

theorem isUnion_of_atomic {a : Ty} (atomic : a.atomic = true) : a.isUnion = false := by
  cases a with
  | union parts => cases atomic
  | literal value => rfl
  | resolved shape => rfl

theorem part?_of_atomic {a : Ty} (atomic : a.atomic = true) (place : Place) :
    a.part? place = none := by
  cases a with
  | union parts => cases atomic
  | literal value => rfl
  | resolved shape =>
      cases shape with
      | list | tuple | dictionary | function => cases atomic
      | _ => rfl

theorem Ordered.of_mem_parts {s : Shape} (ordered : (Ty.resolved s).Ordered)
    (composite : (Ty.resolved s).atomic = false) {part : Ty} (member : part ∈ s.parts) :
    part.Ordered := by
  have at_place : ∀ place, s.part? place = some part → part.Ordered :=
    fun place found => ordered.part (List.mem_singleton_self (Ty.resolved s)) found
  cases s with
  | list element =>
      cases List.mem_singleton.mp member
      exact at_place .element rfl
  | tuple elements =>
      obtain ⟨index, found⟩ := List.mem_iff_getElem?.mp member
      exact at_place (.position index) found
  | dictionary entries =>
      obtain ⟨⟨key, ty⟩, inside, rfl⟩ := List.mem_map.mp member
      have order : Keyed.Sorted entries := ordered.here (List.mem_singleton_self _) entries rfl
      exact at_place (.field key) (Keyed.get?_of_mem order inside)
  | function ps result =>
      rcases List.mem_cons.mp member with rfl | parameter
      · exact at_place .result rfl
      · obtain ⟨index, found⟩ := List.mem_iff_getElem?.mp parameter
        exact at_place (.parameter index) found
  | _ => cases composite

/-- What a branch may be that comes from two others, apart from what stands at its places. -/
inductive Joined : Ty → Ty → Ty → Prop where
  | atom {x y found ty : Ty} (plain : Reference.meet x y = some found) (same : found == ty)
      (atomic : ty.atomic = true) : Joined x y ty
  | shape {s t r : Shape} (left : r.Fits s) (right : r.Fits t)
      (order : (Ty.resolved t).KeyOrder) (keys : r.keys.Sublist t.keys)
      (kept : r ≠ .dictionary []) : Joined (.resolved s) (.resolved t) (.resolved r)

/-- A meet that may have lost branches and fields. -/
def PartialMeet (a b ty : Ty) : Prop :=
  ty.Chain ∧ ty.branches.length ≤ a.branches.length * b.branches.length ∧
  ∀ branch ∈ ty.branches, ∃ x ∈ a.branches, ∃ y ∈ b.branches, Joined x y branch ∧
    ∀ place part, branch.part? place = some part →
      ∃ p q, x.part? place = some p ∧ y.part? place = some q ∧ PartialMeet p q part
termination_by ty.height
decreasing_by exact height_of_part? ‹_› ‹_›

theorem exists_meet_equal {a b c d found : Ty} (left : a == c) (right : b == d)
    (plain : Reference.meet a b = some found) :
    ∃ other, Reference.meet c d = some other ∧ found == other := by
  have alike := Reference.meet_congr left right
  rw [plain] at alike
  obtain ⟨other, there⟩ := Option.isSome_iff_exists.mp (isSome_equal alike).symm
  rw [there] at alike
  exact ⟨other, there, alike⟩

namespace Joined

/-- The branch itself is taken as it is: what is recorded for two types serves for equal ones. -/
theorem congr {x y v w ty : Ty} (joined : Joined x y ty) (left : x == v) (right : y == w) :
    Joined v w ty := by
  cases joined with
  | @atom _ _ found _ plain same atomic =>
      obtain ⟨other, there, equal⟩ := exists_meet_equal left right plain
      exact .atom there (PartialEquivBEq.trans (BEq.symm equal) same) atomic
  | shape fits others order keys kept =>
      cases alike_of_equal left with
      | resolved same =>
          cases alike_of_equal right with
          | resolved equal =>
              exact .shape (fits.congr same) (others.congr equal) (order.congr right)
                (Shape.keys_equal equal ▸ keys) kept

theorem of_fits {s t r : Shape} (left : r.Fits s) (right : r.Fits t)
    (other : ∀ entries, r ≠ .dictionary entries) :
    Joined (.resolved s) (.resolved t) (.resolved r) := by
  refine .shape left right ?_ ?_ (other [])
  · intro entries same
    cases same
    cases right with
    | dictionary => exact absurd rfl (other _)
  · cases r with
    | dictionary entries => exact absurd rfl (other entries)
    | _ => exact List.nil_sublist _

theorem single {x y ty : Ty} (joined : Joined x y ty) : ty.isUnion = false := by
  cases joined with
  | atom plain same atomic => exact isUnion_of_atomic atomic
  | shape left right order keys kept => rfl

end Joined

namespace PartialMeet

variable {a b ty : Ty}

theorem congr {c d : Ty} (met : PartialMeet a b ty) (left : a == c) (right : b == d) :
    PartialMeet c d ty := by
  induction ty using induction_places generalizing a b c d with
  | step ty ih =>
      rw [PartialMeet] at met ⊢
      obtain ⟨chain, few, each⟩ := met
      have lengths := ((list_equal_iff _ _).mp (branches_equal left)).length_eq
      have others := ((list_equal_iff _ _).mp (branches_equal right)).length_eq
      refine ⟨chain, lengths ▸ others ▸ few, fun branch member => ?_⟩
      obtain ⟨x, inA, y, inB, joined, parts⟩ := each branch member
      obtain ⟨v, inC, first⟩ := exists_branch_equal left inA
      obtain ⟨w, inD, second⟩ := exists_branch_equal right inB
      refine ⟨v, inC, w, inD, joined.congr first second, fun place part found => ?_⟩
      obtain ⟨p, q, here, there, deeper⟩ := parts place part found
      obtain ⟨p', standing, same⟩ := part?_equal first here
      obtain ⟨q', other, equal⟩ := part?_equal second there
      exact ⟨p', q', standing, other, ih branch member place part found deeper same equal⟩

theorem of_branches {c d : Ty} (met : PartialMeet a b ty) (left : a.branches = c.branches)
    (right : b.branches = d.branches) : PartialMeet c d ty := by
  rwa [PartialMeet, left, right, ← PartialMeet] at met

theorem pair (single : a.isUnion = false) (other : b.isUnion = false) (joined : Joined a b ty)
    (parts : ∀ place part, ty.part? place = some part →
      ∃ p q, a.part? place = some p ∧ b.part? place = some q ∧ PartialMeet p q part) :
    PartialMeet a b ty := by
  rw [PartialMeet, branches_of_single single, branches_of_single other,
    branches_of_single joined.single]
  refine ⟨.one joined.single, Nat.le_refl 1, fun branch member => ?_⟩
  cases List.mem_singleton.mp member
  exact ⟨a, List.mem_singleton_self a, b, List.mem_singleton_self b, joined, parts⟩

theorem of_pair (met : PartialMeet a b ty) (single : a.isUnion = false)
    (other : b.isUnion = false) (one : ty.isUnion = false) : Joined a b ty ∧
      ∀ place part, ty.part? place = some part →
        ∃ p q, a.part? place = some p ∧ b.part? place = some q ∧ PartialMeet p q part := by
  rw [PartialMeet, branches_of_single single, branches_of_single other,
    branches_of_single one] at met
  obtain ⟨x, inA, y, inB, joined⟩ := met.2.2 ty (List.mem_singleton_self ty)
  cases List.mem_singleton.mp inA
  cases List.mem_singleton.mp inB
  exact joined

theorem atom (single : a.isUnion = false) (other : b.isUnion = false)
    (plain : Reference.meet a b = some ty) (atomic : ty.atomic = true) : PartialMeet a b ty := by
  refine pair single other (.atom plain (BEq.refl ty) atomic) fun place part found => ?_
  rw [part?_of_atomic atomic] at found
  cases found

theorem branches {found : List Ty}
    (few : found.length ≤ a.branches.length * b.branches.length)
    (each : ∀ branch ∈ found, branch.isUnion = false ∧
      ∃ x ∈ a.branches, ∃ y ∈ b.branches, PartialMeet x y branch)
    (collapsed : collapse found = some ty) : PartialMeet a b ty := by
  have singles : ∀ branch ∈ found, branch.isUnion = false := fun branch inside =>
    (each branch inside).1
  have whole : ty.branches = found := by
    rw [branches_of_collapse collapsed, branchesOf_of_singles singles]
  rw [PartialMeet, whole]
  refine ⟨chain_of_collapse singles collapsed, few, fun branch member => ?_⟩
  obtain ⟨single, x, inA, y, inB, met⟩ := each branch member
  exact ⟨x, inA, y, inB,
    met.of_pair (isUnion_of_mem_branches inA) (isUnion_of_mem_branches inB) single⟩

theorem list (met : PartialMeet a b ty) :
    PartialMeet (.resolved (.list a)) (.resolved (.list b)) (.resolved (.list ty)) := by
  refine pair rfl rfl (.of_fits .list .list nofun) ?_
  intro place part found
  cases place with
  | element =>
      cases found
      exact ⟨a, b, rfl, rfl, met⟩
  | _ => cases found

theorem at_index {as bs tys : List Ty}
    (each : List.Forall₂ (fun pair ty => PartialMeet pair.1 pair.2 ty) (as.zip bs) tys)
    {index : Nat} {part : Ty} (found : tys[index]? = some part) :
    ∃ p q, as[index]? = some p ∧ bs[index]? = some q ∧ PartialMeet p q part := by
  obtain ⟨lengths, all⟩ := List.forall₂_iff_get.mp each
  obtain ⟨inside, rfl⟩ := List.getElem?_eq_some_iff.mp found
  have other : index < (as.zip bs).length := lengths ▸ inside
  have there := List.getElem?_eq_getElem other
  obtain ⟨first, second⟩ := List.getElem?_zip_eq_some.mp there
  exact ⟨_, _, first, second, all index other inside⟩

theorem tuple {as bs tys : List Ty} (lengths : as.length = bs.length)
    (each : List.Forall₂ (fun pair ty => PartialMeet pair.1 pair.2 ty) (as.zip bs) tys) :
    PartialMeet (.resolved (.tuple as)) (.resolved (.tuple bs)) (.resolved (.tuple tys)) := by
  have count := each.length_eq
  rw [List.length_zip, ← lengths, Nat.min_self] at count
  refine pair rfl rfl (.of_fits (.tuple count.symm) (.tuple (count.symm.trans lengths)) nofun) ?_
  intro place part found
  cases place with
  | position index => exact at_index each found
  | _ => cases found

theorem function {ps rs : List Parameter} {tys : List Ty} (lengths : ps.length = rs.length)
    (each : List.Forall₂ (fun pair ty => PartialMeet pair.1 pair.2 ty)
      ((ps.map (·.ty)).zip (rs.map (·.ty))) tys) (result : PartialMeet a b ty) :
    PartialMeet (.resolved (.function ps a)) (.resolved (.function rs b))
      (.resolved (.function (ps.zipWith (fun p ty => { p with ty := ty }) tys) ty)) := by
  have count := each.length_eq
  rw [List.length_zip, List.length_map, List.length_map, ← lengths, Nat.min_self] at count
  have retyped : (ps.zipWith (fun p ty => { p with ty := ty }) tys).length = ps.length := by
    rw [List.length_zipWith, ← count, Nat.min_self]
  refine pair rfl rfl (.of_fits (.function retyped) (.function (retyped.trans lengths)) nofun) ?_
  intro place part found
  cases place with
  | parameter index =>
      simp only [part?, Shape.part?, Parameter.map_ty_retyped count] at found
      exact at_index each found
  | result =>
      cases found
      exact ⟨a, b, rfl, rfl, result⟩
  | _ => cases found

theorem dictionary {entries others fields : List (String × Ty)} (order : Keyed.Sorted others)
    (kept : fields ≠ []) (keys : (Keyed.keys fields).Sublist (Keyed.keys others))
    (each : ∀ key part, (key, part) ∈ fields → ∃ field other, Keyed.get? key entries = some field ∧
      (key, other) ∈ others ∧ PartialMeet field other part) :
    PartialMeet (.resolved (.dictionary entries)) (.resolved (.dictionary others))
      (.resolved (.dictionary fields)) := by
  refine pair rfl rfl (.shape .dictionary .dictionary ?_ keys ?_) ?_
  · intro entries same
    cases same
    exact order
  · intro same
    cases same
    exact kept rfl
  · intro place part found
    cases place with
    | field key =>
        obtain ⟨field, other, here, there, met⟩ := each key part (Keyed.mem_of_get? found)
        exact ⟨field, other, here, Keyed.get?_of_mem order there, met⟩
    | _ => cases found

end PartialMeet

end Ty

end StructuralTypes
