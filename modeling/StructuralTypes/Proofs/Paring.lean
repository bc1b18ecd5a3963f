import StructuralTypes.Proofs.PartialMeet
import StructuralTypes.Proofs.Solid

/-!
What is found with less is found with all. A type is pared if branches of its unions or fields of
its records are left out. Meeting it may find less than meeting the whole, except that a literal
asks the type that it is met with to be above its classifier: a record with fewer fields asks less
of one, so a literal can be found with the pared type alone. Firm classifiers hold no record, no
function and no literal, and what they are below stays above them when it is made whole.
-/

namespace StructuralTypes

namespace Ty

theorem atomic_equal {a b : Ty} (same : a == b) : a.atomic = b.atomic := by
  cases alike_of_equal same with
  | literal payload shape => rfl
  | union branches => rfl
  | resolved shape => cases (@Precision.shape_iff .equality _ _).mp shape <;> rfl

inductive Headed : Ty → Ty → Prop where
  | equal {x y : Ty} (same : x == y) : Headed x y
  | shape {s t : Shape} (fits : s.Fits t) : Headed (.resolved s) (.resolved t)

/-- What is left of the second type without some branches of its unions and some fields of its
records. -/
def Pared (a b : Ty) : Prop :=
  ∀ x ∈ a.branches, ∃ y ∈ b.branches, Headed x y ∧
    ∀ place p, x.part? place = some p → ∃ q, y.part? place = some q ∧ Pared p q
termination_by a.height
decreasing_by exact height_of_part? ‹_› ‹_›

theorem Pared.branch {a b x : Ty} (pared : a.Pared b) (member : x ∈ a.branches) :
    ∃ y ∈ b.branches, Headed x y ∧
      ∀ place p, x.part? place = some p → ∃ q, y.part? place = some q ∧ p.Pared q := by
  rw [Pared] at pared
  exact pared x member

theorem Pared.single {x y : Ty} (single : x.isUnion = false) (other : y.isUnion = false)
    (headed : Headed x y)
    (parts : ∀ place p, x.part? place = some p → ∃ q, y.part? place = some q ∧ p.Pared q) :
    x.Pared y := by
  rw [Pared, branches_of_single single, branches_of_single other]
  intro branch member
  cases List.mem_singleton.mp member
  exact ⟨y, List.mem_singleton_self y, headed, parts⟩

def FirmLiteral (a : Ty) : Prop := ∀ value, a = .literal value → (Ty.resolved value.shape).Firm

/-- Met with the first type, the third finds whatever the second does: it is equal to the second, or
the second is left of it and no literal of the first asks more of it. -/
inductive Kept (b : Ty) : Ty → Ty → Prop where
  | equal {a c : Ty} (same : a == c) : Kept b a c
  | pared {a c : Ty} (pared : a.Pared c) (firm : Throughout FirmLiteral b) : Kept b a c

theorem Kept.branch {a b c x y : Ty} (kept : Kept b a c) (left : x ∈ a.branches)
    (right : y ∈ b.branches) : ∃ z ∈ c.branches, Headed x z ∧ Kept y x z ∧
      ∀ place p q, x.part? place = some p → y.part? place = some q →
        ∃ r, z.part? place = some r ∧ Kept q p r := by
  cases kept with
  | equal same =>
      obtain ⟨z, inside, equal⟩ := exists_branch_equal same left
      refine ⟨z, inside, .equal equal, .equal equal, fun place p q here _ => ?_⟩
      obtain ⟨r, there, parts⟩ := part?_equal equal here
      exact ⟨r, there, .equal parts⟩
  | pared pared firm =>
      obtain ⟨z, inside, headed, parts⟩ := pared.branch left
      have whole : x.Pared z :=
        .single (isUnion_of_mem_branches left) (isUnion_of_mem_branches inside) headed parts
      refine ⟨z, inside, headed, .pared whole (firm.branch right), fun place p q here there => ?_⟩
      obtain ⟨r, standing, less⟩ := parts place p here
      exact ⟨r, standing, .pared less (firm.part right there)⟩

end Ty

namespace Reference

open Ty

variable {a b c : Ty}

theorem subset_of_pared {s : Shape} (other : ∀ entries, s ≠ .dictionary entries)
    (step : ∀ {t r : Shape}, ShapeBelow s t → t.Fits r →
      (∀ place p, t.part? place = some p → ∃ q, r.part? place = some q ∧ p.Pared q) →
      ShapeBelow s r)
    (pared : a.Pared c) (below : subset (.resolved s) a = true) :
    subset (.resolved s) c = true := by
  obtain ⟨t, inside, ground⟩ := (subset_ground_iff other).mp below
  obtain ⟨z, there, headed, parts⟩ := pared.branch inside
  cases headed with
  | equal same =>
      cases alike_of_equal same with
      | @resolved _ r shape =>
          rw [subset_resolved_branch]
          refine ⟨r, there, ?_⟩
          rw [← subset_congr (BEq.refl _) same, subset_resolved_iff]
          exact .inr ground
  | shape fits => exact (subset_ground_iff other).mpr ⟨_, there, step ground fits parts⟩

theorem subset_firm_of_pared {f : Ty} (firm : f.Firm) (pared : a.Pared c)
    (below : subset f a = true) : subset f c = true := by
  induction firm generalizing a c with
  | @primitive s primitive =>
      refine subset_of_pared (Firm.primitive primitive).ne_dictionary ?_ pared below
      intro t r ground fits _
      cases fits <;> cases ground <;> cases primitive
  | named =>
      refine subset_of_pared Firm.named.ne_dictionary ?_ pared below
      intro t r ground fits _
      cases ground with
      | named parameters => cases fits
  | list firm ih =>
      refine subset_of_pared (Firm.list firm).ne_dictionary ?_ pared below
      intro t r ground fits parts
      cases ground with
      | list element =>
          cases fits with
          | list =>
              obtain ⟨q, there, less⟩ := parts .element _ rfl
              cases there
              exact .list (ih less element)
  | @tuple elements each ih =>
      refine subset_of_pared (Firm.tuple each).ne_dictionary ?_ pared below
      intro t r ground fits parts
      cases ground with
      | tuple under =>
          cases fits with
          | @tuple as bs lengths =>
              obtain ⟨count, all⟩ := List.forall₂_iff_get.mp under
              refine .tuple (List.forall₂_iff_get.mpr ⟨count.trans lengths, ?_⟩)
              intro i first second
              obtain ⟨q, there, less⟩ :=
                parts (.position i) _ (List.getElem?_eq_getElem (lengths ▸ second))
              have found : bs[i]? = some q := there
              rw [List.getElem?_eq_getElem second, Option.some.injEq] at found
              subst found
              exact ih _ (List.getElem_mem _) less (all i first (lengths ▸ second))
  | union each ih =>
      rw [subset_firm_union_iff each] at below ⊢
      intro part inside
      exact ih part inside pared (below part inside)

theorem MeetsEach.at_index {as bs tys : List Ty} (each : MeetsEach as bs tys) {index : Nat}
    {p q m : Ty} (left : as[index]? = some p) (right : bs[index]? = some q)
    (met : meet p q = some m) : tys[index]? = some m := by
  induction each generalizing index with
  | nil => cases left
  | cons first _ ih =>
      cases index with
      | zero =>
          cases left
          cases right
          exact first.symm.trans met ▸ rfl
      | succ index => exact ih left right

theorem exists_meetsEach {as bs : List Ty} (lengths : as.length = bs.length)
    (each : ∀ (index : Nat) (p q : Ty), as[index]? = some p → bs[index]? = some q →
      ∃ m, meet p q = some m) : ∃ tys, MeetsEach as bs tys := by
  rw [exists_meetsEach_iff, List.forall₂_iff_get]
  refine ⟨lengths, fun i first second => typesMatch_iff_meet.mpr ?_⟩
  exact each i _ _ (List.getElem?_eq_getElem first) (List.getElem?_eq_getElem second)

/-- Two shapes have a meet of the kind of a third, and at each place it has the meet of what they
have there. -/
def MeetsInPlaces (r s t : Shape) : Prop :=
  ∃ shape, ShapeMeet s t shape ∧ r.Fits shape ∧ ∀ place p q m, s.part? place = some p →
    t.part? place = some q → meet p q = some m → shape.part? place = some m

namespace MeetsInPlaces

theorem list (x : Ty) {m : Ty} (met : meet a b = some m) :
    MeetsInPlaces (.list x) (.list a) (.list b) := by
  refine ⟨.list m, .list met, .list, fun place p q n first second found => ?_⟩
  cases place with
  | element =>
      cases first
      cases second
      exact met.symm.trans found ▸ rfl
  | _ => cases first

theorem tuple {xs as bs tys : List Ty} (lengths : xs.length = as.length)
    (each : MeetsEach as bs tys) : MeetsInPlaces (.tuple xs) (.tuple as) (.tuple bs) := by
  refine ⟨.tuple tys, .tuple each, .tuple (lengths.trans each.length_eq), ?_⟩
  intro place p q m first second met
  cases place with
  | position index => exact each.at_index first second met
  | _ => cases first

theorem function {os ps rs : List Parameter} (x : Ty) {tys : List Ty} {m : Ty}
    (lengths : os.length = ps.length) (each : MeetsEach (ps.map (·.ty)) (rs.map (·.ty)) tys)
    (met : meet a b = some m) :
    MeetsInPlaces (.function os x) (.function ps a) (.function rs b) := by
  have retyped : ps.length = tys.length := (List.length_map _).symm.trans each.length_eq
  refine ⟨_, .function each met, .function ?_, fun place p q n first second found => ?_⟩
  · rw [List.length_zipWith, ← retyped, Nat.min_self, lengths]
  · cases place with
    | parameter index =>
        simp only [Shape.part?, Parameter.map_ty_retyped retyped]
        exact each.at_index first second found
    | result =>
        cases first
        cases second
        exact met.symm.trans found ▸ rfl
    | _ => cases first

theorem dictionary (fields : List (String × Ty)) {entries others : List (String × Ty)}
    (order : Keyed.Sorted others) {key : String} {p q m : Ty}
    (left : Keyed.get? key entries = some p) (right : Keyed.get? key others = some q)
    (met : meet p q = some m) :
    MeetsInPlaces (.dictionary fields) (.dictionary entries) (.dictionary others) := by
  have shared : ∀ {key p q m}, Keyed.get? key entries = some p → Keyed.get? key others = some q →
      meet p q = some m → (key, m) ∈ commonFields entries others := fun here there found =>
    mem_commonFields.mpr ⟨_, _, Keyed.mem_of_get? there, here, found⟩
  refine ⟨_, .dictionary (List.ne_nil_of_mem (shared left right met)), .dictionary, ?_⟩
  intro place p q m first second found
  cases place with
  | field key => exact Keyed.get?_of_mem (sorted_commonFields order) (shared first second found)
  | _ => cases first

theorem of_places {r s t : Shape} (left : r.Fits s) (right : r.Fits t)
    (order : (Ty.resolved t).KeyOrder) (kept : r ≠ .dictionary [])
    (parts : ∀ place part, r.part? place = some part → ∃ p q m, s.part? place = some p ∧
      t.part? place = some q ∧ meet p q = some m) : MeetsInPlaces r s t := by
  -- where the third has a part, the parts of the two are the ones that meet
  have agree : ∀ {place part p q}, r.part? place = some part → s.part? place = some p →
      t.part? place = some q → ∃ m, meet p q = some m := by
    intro place part p q standing here there
    obtain ⟨p', q', m, first, second, met⟩ := parts place part standing
    cases here.symm.trans first
    cases there.symm.trans second
    exact ⟨m, met⟩
  cases left with
  | @list x a =>
      cases right with
      | list =>
          obtain ⟨m, met⟩ := @agree .element _ _ _ rfl rfl rfl
          exact .list x met
  | @tuple xs as lengths =>
      cases right with
      | @tuple _ bs others =>
          have same : as.length = bs.length := lengths.symm.trans others
          obtain ⟨tys, each⟩ := exists_meetsEach same fun index p q here there => by
            have inside : index < xs.length := lengths ▸ (List.getElem?_eq_some_iff.mp here).1
            exact @agree (.position index) _ p q (List.getElem?_eq_getElem inside) here there
          exact .tuple lengths each
  | @function os ps x a lengths =>
      cases right with
      | @function _ rs _ b others =>
          have same : (ps.map (·.ty)).length = (rs.map (·.ty)).length := by
            rw [List.length_map, List.length_map, ← lengths, others]
          have count : (os.map (·.ty)).length = (ps.map (·.ty)).length := by
            rw [List.length_map, List.length_map, lengths]
          obtain ⟨tys, each⟩ := exists_meetsEach same fun index p q here there => by
            have inside : index < (os.map (·.ty)).length :=
              count ▸ (List.getElem?_eq_some_iff.mp here).1
            exact @agree (.parameter index) _ p q (List.getElem?_eq_getElem inside) here there
          obtain ⟨m, met⟩ := @agree .result _ _ _ rfl rfl rfl
          exact .function x lengths each met
  | @dictionary fields entries =>
      cases right with
      | @dictionary _ others =>
          cases fields with
          | nil => exact absurd rfl kept
          | cons field rest =>
              have first : Keyed.get? field.1 (field :: rest) = some field.2 := if_pos rfl
              obtain ⟨p, q, m, here, there, met⟩ := parts (.field field.1) field.2 first
              exact .dictionary _ (order others rfl) here there met

end MeetsInPlaces

end Reference

namespace Ty

theorem Kept.meet_atomic {x y z found : Ty} (kept : Kept y x z) (headed : Headed x z)
    (single : y.isUnion = false) (plain : Reference.meet x y = some found)
    (atomic : found.atomic = true) : ∃ m, Reference.meet z y = some m ∧ found == m := by
  cases headed with
  | equal same => exact exists_meet_equal same (BEq.refl y) plain
  | @shape s r fits =>
      cases kept with
      | equal same => exact exists_meet_equal same (BEq.refl y) plain
      | pared pared firm =>
          cases y with
          | union parts => cases single
          | literal value =>
              rw [Reference.meet_resolved_literal, Option.ite_none_right_eq_some] at plain
              obtain ⟨below, same⟩ := plain
              cases same
              rw [Reference.subset_literal_left value (resolved_ne_literal s)] at below
              have classifier := firm.here (List.mem_singleton_self (Ty.literal value)) value rfl
              have above := Reference.subset_firm_of_pared classifier pared below
              rw [← Reference.subset_literal_left value (resolved_ne_literal r)] at above
              refine ⟨.literal value, ?_, BEq.refl _⟩
              rw [Reference.meet_resolved_literal, if_pos above]
          | resolved t =>
              -- composite shapes meet in composite shapes
              obtain ⟨shape, rfl, met⟩ := (Reference.meet_resolved_iff s t found).mp plain
              cases fits <;> cases met <;> cases atomic

theorem Joined.pared {x y z ty : Ty} (joined : Joined x y ty) (headed : Headed x z)
    (kept : Kept y x z) (single : y.isUnion = false)
    (parts : ∀ place part, ty.part? place = some part → ∃ p q m, z.part? place = some p ∧
      y.part? place = some q ∧ Reference.meet p q = some m ∧ part.Pared m) :
    ∃ m, Reference.meet z y = some m ∧ Headed ty m ∧
      ∀ place part, ty.part? place = some part → ∃ q, m.part? place = some q ∧ part.Pared q := by
  cases joined with
  | @atom _ _ found _ plain same atomic =>
      obtain ⟨m, there, equal⟩ :=
        kept.meet_atomic headed single plain ((atomic_equal same).trans atomic)
      refine ⟨m, there, .equal (PartialEquivBEq.trans (BEq.symm same) equal), ?_⟩
      intro place part standing
      rw [part?_of_atomic atomic] at standing
      cases standing
  | @shape s t r left right order keys some =>
      have whole : ∃ s', z = .resolved s' ∧ r.Fits s' := by
        cases headed with
        | equal same =>
            cases alike_of_equal same with
            | resolved shape => exact ⟨_, rfl, left.congr shape⟩
        | shape fits => exact ⟨_, rfl, left.trans fits⟩
      obtain ⟨s', rfl, fits⟩ := whole
      have places : Reference.MeetsInPlaces r s' t :=
        .of_places fits right order some fun place part standing => by
          obtain ⟨p, q, m, here, there, met, -⟩ := parts place part standing
          exact ⟨p, q, m, here, there, met⟩
      obtain ⟨shape, met, like, inside⟩ := places
      refine ⟨.resolved shape, ?_, .shape like, fun place part standing => ?_⟩
      · exact (Reference.meet_resolved_iff s' t _).mpr ⟨shape, rfl, met⟩
      · obtain ⟨p, q, m, here, there, found, less⟩ := parts place part standing
        exact ⟨m, inside place p q m here there found, less⟩

theorem Chain.branches_ne_nil {ty : Ty} (chain : ty.Chain) : ty.branches ≠ [] := by
  cases chain with
  | one single => rw [branches_of_single single]; exact List.cons_ne_nil _ _
  | more single rest =>
      simp only [branches, branchesOf, branches_of_single single]
      exact List.cons_ne_nil _ _

/-- A partial meet with a pared type is left of the plain meet with the whole. -/
theorem PartialMeet.pared {a b c ty : Ty} (met : PartialMeet a b ty) (kept : Kept b a c) :
    ∃ other, Reference.meet c b = some other ∧ ty.Pared other := by
  -- on what stands at the places of the meet, which is what both sides are asked for
  induction ty using induction_places generalizing a b c with
  | step ty ih =>
      rw [PartialMeet] at met
      obtain ⟨chain, -, each⟩ := met
      have found : ∀ branch ∈ ty.branches, ∃ m ∈ Reference.branchMeets c b, Headed branch m ∧
          ∀ place part, branch.part? place = some part →
            ∃ q, m.part? place = some q ∧ part.Pared q := by
        intro branch member
        obtain ⟨x, inA, y, inB, joined, parts⟩ := each branch member
        obtain ⟨z, inC, headed, keeps, inner⟩ := kept.branch inA inB
        have deeper : ∀ place part, branch.part? place = some part → ∃ p q m,
            z.part? place = some p ∧ y.part? place = some q ∧ Reference.meet p q = some m ∧
              part.Pared m := by
          intro place part standing
          obtain ⟨p, q, here, there, met⟩ := parts place part standing
          obtain ⟨r, whole, keep⟩ := inner place p q here there
          obtain ⟨m, found, less⟩ := ih branch member place part standing met keep
          exact ⟨r, q, m, whole, there, found, less⟩
        obtain ⟨m, found, like, less⟩ :=
          joined.pared headed keeps (isUnion_of_mem_branches inB) deeper
        exact ⟨m, Reference.mem_branchMeets.mpr ⟨z, inC, y, inB, found⟩, like, less⟩
      cases plain : Reference.meet c b with
      | none =>
          obtain ⟨branch, member⟩ := List.exists_mem_of_ne_nil _ chain.branches_ne_nil
          obtain ⟨m, inside, -⟩ := found branch member
          rw [(Reference.meet_eq_none_iff c b).mp plain] at inside
          cases inside
      | some other =>
          refine ⟨other, rfl, ?_⟩
          rw [Pared, Reference.branches_of_meet plain]
          exact found

end Ty

end StructuralTypes
