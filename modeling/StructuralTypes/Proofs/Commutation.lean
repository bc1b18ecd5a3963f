import StructuralTypes.Proofs.Overlap

/-!
The sides of a meet may be exchanged. As many pairs of branches meet in one order as in the other,
so either both meets are single types or both are unions, and what is left is to compare the meets
of one pair of branches. There the two results are below each other; records are compared by matches
of their fields, so the two have to match as well, and both are carried down together. Functions
are left out: their parameters are met, but have to be equal for one function to be below another.
-/

namespace StructuralTypes

namespace Ty

def noFunction : Ty → Bool
  | .resolved (.function _ _) => false
  | _ => true

structure Inert (a : Ty) : Prop extends a.Tidy where
  free : a.everywhere noFunction = true

namespace Inert

variable {a : Ty}

theorem part (inert : a.Inert) {part : Ty} (member : part ∈ a.parts) : part.Inert :=
  ⟨inert.toTidy.part member, everywhere_of_mem_parts inert.free member⟩

theorem branch (inert : a.Inert) {branch : Ty} (member : branch ∈ a.branches) : branch.Inert :=
  branch_of_hereditary (fun _ whole _ inside => whole.part inside) inert member

end Inert

end Ty

theorem length_pairs_comm {α β γ δ : Type} {f : α → β → Option γ} {g : β → α → Option δ}
    (as : List α) (bs : List β)
    (mirrored : ∀ a ∈ as, ∀ b ∈ bs, (f a b).isSome = (g b a).isSome) :
    (as.flatMap fun a => bs.filterMap (f a)).length =
      (bs.flatMap fun b => as.filterMap (g b)).length := by
  induction as with
  | nil => simp
  | cons a as ih =>
      have rest := ih fun x inside => mirrored x (List.mem_cons_of_mem _ inside)
      have first : (bs.filterMap (f a)).length = (bs.flatMap fun b => (g b a).toList).length := by
        rw [← List.filterMap_eq_flatMap_toList, List.length_filterMap_eq_countP,
          List.length_filterMap_eq_countP]
        refine List.countP_congr fun b inside => ?_
        rw [mirrored a List.mem_cons_self b inside]
      have split : ∀ b, (a :: as).filterMap (g b) = (g b a).toList ++ as.filterMap (g b) := by
        intro b
        rw [List.filterMap_cons]
        cases g b a <;> rfl
      have together := (List.flatMap_append_perm bs (fun b => (g b a).toList)
        fun b => as.filterMap (g b)).length_eq
      simp only [split, ← together, List.flatMap_cons, List.length_append, first, rest]

namespace Reference

theorem keys_commonFields_sublist (entries others : List (String × Ty)) :
    (Keyed.keys (commonFields entries others)).Sublist (Keyed.keys others) := by
  induction others with
  | nil => exact List.Sublist.slnil
  | cons entry rest ih =>
      simp only [commonFields, List.filterMap_cons]
      split
      · exact ih.cons entry.1
      · next common found =>
          obtain ⟨field, -, met⟩ := Option.bind_eq_some_iff.mp found
          obtain ⟨ty, -, rfl⟩ := Option.map_eq_some_iff.mp met
          exact ih.cons_cons entry.1

theorem sorted_commonFields {entries others : List (String × Ty)} (sorted : Keyed.Sorted others) :
    Keyed.Sorted (commonFields entries others) :=
  List.Pairwise.sublist (keys_commonFields_sublist entries others) sorted

theorem single_meet_iff {a b ty : Ty} (found : meet a b = some ty) :
    ty.isUnion = false ↔ (branchMeets a b).length = 1 := by
  constructor
  · intro single
    rw [← branches_of_meet found, Ty.branches_of_single single]
    rfl
  · intro one
    obtain ⟨only, pair⟩ := List.length_eq_one_iff.mp one
    rw [meet_eq_collapse, pair] at found
    cases found
    exact isUnion_of_mem_branchMeets (pair ▸ List.mem_singleton_self ty)

theorem length_branchMeets_comm {a b : Ty} (tidyA : a.Tidy) (tidyB : b.Tidy) :
    (branchMeets a b).length = (branchMeets b a).length := by
  refine length_pairs_comm a.branches b.branches fun branch inA other inB => ?_
  rw [Bool.eq_iff_iff]
  constructor
  · exact typesMatch_symm (tidyA.branch inA) (tidyB.branch inB)
  · exact typesMatch_symm (tidyB.branch inB) (tidyA.branch inA)

theorem typesMatch_comm {a b : Ty} (tidyA : a.Tidy) (tidyB : b.Tidy) :
    typesMatch a b = typesMatch b a := by
  rw [Bool.eq_iff_iff]
  exact ⟨typesMatch_symm tidyA tidyB, typesMatch_symm tidyB tidyA⟩

structure MatchedBelow (i j : Ty) : Prop where
  below : subset i j = true
  matched : typesMatch i j = true

theorem MatchedBelow.of_shapes {s t : Shape} (below : ShapeBelow s t) (matched : ShapeMatch s t) :
    MatchedBelow (.resolved s) (.resolved t) :=
  ⟨subset_of_ground below, (typesMatch_resolved_iff s t).mpr matched⟩

theorem MatchedBelow.of_primitive {s : Shape} (primitive : s.isPrimitive = true) :
    MatchedBelow (.resolved s) (.resolved s) :=
  ⟨subset_refl _, (typesMatch_resolved_iff s s).mpr (.of_primitive primitive)⟩

theorem MatchedBelow.of_literals {u v : Value} (shapes : u.shape = v.shape)
    (primitive : u.shape.isPrimitive = true) (payloads : (u.payload == v.payload) = true) :
    MatchedBelow (.literal u) (.literal v) := by
  have ground : ShapeBelow u.shape v.shape := shapes ▸ ShapeBelow.of_primitive primitive
  exact ⟨(subset_literals_iff u v).mpr ⟨payloads, .inr ground⟩,
    (typesMatch_literals_iff u v).mpr ⟨ground, payloads⟩⟩

theorem MeetsEach.mirrored {as bs is js : List Ty} (first : MeetsEach as bs is)
    (second : MeetsEach bs as js)
    (each : ∀ a ∈ as, ∀ b ∈ bs, ∀ i j, meet a b = some i → meet b a = some j → MatchedBelow i j) :
    List.Forall₂ MatchedBelow is js := by
  induction first generalizing js with
  | nil =>
      cases second
      exact .nil
  | cons met _ ih =>
      cases second with
      | cons turned others =>
          constructor
          · exact each _ List.mem_cons_self _ List.mem_cons_self _ _ met turned
          · exact ih others fun a inA b inB =>
              each a (List.mem_cons_of_mem _ inA) b (List.mem_cons_of_mem _ inB)

variable {n : Nat}

/-- The meet in one order is below the meet in the other, for types of joint height below `n`. -/
def MirrorsBelow (n : Nat) : Prop :=
  ∀ {a b i j : Ty}, a.Inert → b.Inert → a.height + b.height < n → meet a b = some i →
    meet b a = some j → MatchedBelow i j

theorem MirrorsBelow.field (ih : MirrorsBelow n) {entries others : List (String × Ty)}
    (inertE : (Ty.resolved (.dictionary entries)).Inert)
    (inertO : (Ty.resolved (.dictionary others)).Inert)
    (low : (Shape.dictionary entries).height + (Shape.dictionary others).height ≤ n)
    {key : String} {needed : Ty} (member : (key, needed) ∈ commonFields others entries) :
    ∃ field, (key, field) ∈ commonFields entries others ∧ typesMatch field needed = true := by
  obtain ⟨other, entry, inE, found, met⟩ := mem_commonFields.mp member
  have inO := Keyed.mem_of_get? found
  have partE : entry ∈ (Shape.dictionary entries).parts := List.mem_map_of_mem inE
  have partO : other ∈ (Shape.dictionary others).parts := List.mem_map_of_mem inO
  have left := Shape.height_of_mem_parts partE
  have right := Shape.height_of_mem_parts partO
  have matched := typesMatch_symm (inertO.part partO).toTidy (inertE.part partE).toTidy
    (typesMatch_iff_meet.mpr ⟨needed, met⟩)
  obtain ⟨field, turned⟩ := typesMatch_iff_meet.mp matched
  refine ⟨field, mem_commonFields.mpr ⟨entry, other, inO, ?_, turned⟩, ?_⟩
  · exact Keyed.get?_of_mem inertE.sorted inE
  · exact (ih (inertE.part partE) (inertO.part partO) (by omega) turned met).matched

theorem MirrorsBelow.shapes (ih : MirrorsBelow n) {s t i j : Shape} (inertS : (Ty.resolved s).Inert)
    (inertT : (Ty.resolved t).Inert) (low : s.height + t.height ≤ n) (met : ShapeMeet s t i)
    (turned : ShapeMeet t s j) : MatchedBelow (.resolved i) (.resolved j) := by
  have mirrors : ∀ a ∈ s.parts, ∀ b ∈ t.parts, ∀ i j, meet a b = some i → meet b a = some j →
      MatchedBelow i j := by
    intro a inS b inT i j
    have left := Shape.height_of_mem_parts inS
    have right := Shape.height_of_mem_parts inT
    exact ih (inertS.part inS) (inertT.part inT) (by omega)
  cases met with
  | number | text | logic | void =>
      cases turned
      exact .of_primitive rfl
  | named below =>
      cases turned
      cases below with
      | named parameters => exact .of_shapes (.named parameters) (.named parameters)
  | function => cases ((Ty.everywhere_iff _).mp inertS.free).1
  | list element =>
      cases turned with
      | list other =>
          have near := mirrors _ List.mem_cons_self _ List.mem_cons_self _ _ element other
          exact .of_shapes (.list near.below) (.list near.matched)
  | tuple elements =>
      cases turned with
      | tuple others =>
          have near := elements.mirrored others mirrors
          exact .of_shapes (.tuple (near.imp fun _ _ => MatchedBelow.below))
            (.tuple (near.imp fun _ _ => MatchedBelow.matched))
  | @dictionary entries others shared =>
      cases turned with
      | dictionary nonempty =>
          have sorted : Keyed.Sorted (commonFields entries others) :=
            sorted_commonFields inertT.sorted
          constructor
          · apply subset_of_ground
            refine .dictionary fun key needed member => ?_
            obtain ⟨field, inside, matched⟩ := ih.field inertS inertT low member
            exact ⟨field, Keyed.get?_of_mem sorted inside, matched⟩
          · obtain ⟨⟨key, needed⟩, member⟩ := List.exists_mem_of_ne_nil _ nonempty
            obtain ⟨field, inside, matched⟩ := ih.field inertS inertT low member
            rw [typesMatch_resolved_iff]
            exact .dictionary (Keyed.get?_of_mem sorted inside) member matched

/-- Types that are no unions. A literal is its own meet with what it is below. -/
theorem MirrorsBelow.single (ih : MirrorsBelow n) {a b i j : Ty} (inertA : a.Inert)
    (inertB : b.Inert) (low : a.height + b.height < n + 1) (singleA : a.isUnion = false)
    (singleB : b.isUnion = false) (met : meet a b = some i) (turned : meet b a = some j) :
    MatchedBelow i j := by
  cases a with
  | union parts => cases singleA
  | literal u =>
      have primitive := Ty.primitive_of_literal inertA.literals
      cases b with
      | union parts => cases singleB
      | literal v =>
          have matched := typesMatch_iff_meet.mpr ⟨i, met⟩
          rw [typesMatch_literals_iff] at matched
          rw [meet_literals, Option.ite_none_right_eq_some] at met turned
          cases met.2
          cases turned.2
          exact .of_literals (eq_of_primitive (subset_of_ground matched.1) primitive) primitive
            matched.2
      | resolved t =>
          rw [meet_literal_resolved, Option.ite_none_right_eq_some] at met
          rw [meet_resolved_literal, Option.ite_none_right_eq_some] at turned
          cases met.2
          cases turned.2
          exact .of_literals rfl primitive (BEq.refl _)
  | resolved s =>
      cases b with
      | union parts => cases singleB
      | literal v =>
          rw [meet_resolved_literal, Option.ite_none_right_eq_some] at met
          rw [meet_literal_resolved, Option.ite_none_right_eq_some] at turned
          cases met.2
          cases turned.2
          exact .of_literals rfl (Ty.primitive_of_literal inertB.literals) (BEq.refl _)
      | resolved t =>
          obtain ⟨_, rfl, ground⟩ := (meet_resolved_iff s t i).mp met
          obtain ⟨_, rfl, other⟩ := (meet_resolved_iff t s j).mp turned
          exact ih.shapes inertA inertB (Nat.le_of_lt_succ low) ground other

theorem mirrorsBelow (n : Nat) : MirrorsBelow n := by
  induction n with
  | zero => exact fun _ _ low => absurd low (Nat.not_lt_zero _)
  | succ n ih =>
      intro a b i j inertA inertB low met turned
      -- a branch of one meet comes from a pair, and the pair meets in the other order too
      have across : ∀ ty ∈ i.branches, ∃ other ∈ j.branches, MatchedBelow ty other := by
        intro ty member
        rw [branches_of_meet met] at member
        obtain ⟨x, inA, y, inB, found⟩ := mem_branchMeets.mp member
        have matched := typesMatch_symm (inertA.branch inA).toTidy (inertB.branch inB).toTidy
          (typesMatch_iff_meet.mpr ⟨ty, found⟩)
        obtain ⟨other, back⟩ := typesMatch_iff_meet.mp matched
        have left := Ty.height_of_mem_branches inA
        have right := Ty.height_of_mem_branches inB
        refine ⟨other, ?_, ih.single (inertA.branch inA) (inertB.branch inB) (by omega)
          (Ty.isUnion_of_mem_branches inA) (Ty.isUnion_of_mem_branches inB) found back⟩
        rw [branches_of_meet turned]
        exact mem_branchMeets.mpr ⟨y, inB, x, inA, back⟩
      have lengths := length_branchMeets_comm inertA.toTidy inertB.toTidy
      have alike : i.isUnion = false ↔ j.isUnion = false := by
        rw [single_meet_iff met, single_meet_iff turned, lengths]
      by_cases single : i.isUnion = false
      · rw [Ty.branches_of_single single, Ty.branches_of_single (alike.mp single)] at across
        obtain ⟨other, member, near⟩ := across i List.mem_cons_self
        cases List.mem_singleton.mp member
        exact near
      · have notLiteral : ∀ {ty : Ty}, ty.isUnion ≠ false → ∀ value, ty ≠ .literal value := by
          rintro _ union value rfl
          exact union rfl
        constructor
        · rw [subset_iff_branches (notLiteral single) (notLiteral (alike.not.mp single))]
          intro ty member
          obtain ⟨other, inside, near⟩ := across ty member
          exact ⟨other, inside, near.below⟩
        · have nonempty : i.branches ≠ [] := by
            rw [branches_of_meet met]
            intro empty
            rw [(meet_eq_none_iff a b).mpr empty] at met
            cases met
          obtain ⟨ty, member⟩ := List.exists_mem_of_ne_nil _ nonempty
          obtain ⟨other, inside, near⟩ := across ty member
          exact (typesMatch_iff i j).mpr ⟨ty, member, other, inside, near.matched⟩

theorem typeEqual_of_mirrored {a b i j : Ty} (inertA : a.Inert) (inertB : b.Inert)
    (met : meet a b = some i) (turned : meet b a = some j) : typeEqual i j = true := by
  rw [typeEqual_iff]
  constructor
  · exact (mirrorsBelow _ inertA inertB (Nat.lt_succ_self _) met turned).below
  · exact (mirrorsBelow _ inertB inertA (Nat.lt_succ_self _) turned met).below

theorem typeEqual_congr {a b c d : Ty} (left : a == c) (right : b == d) :
    typeEqual a b = typeEqual c d := by
  rw [Bool.eq_iff_iff, typeEqual_iff, typeEqual_iff, subset_congr left right,
    subset_congr right left]

end Reference

abbrev TidyTy := { ty : Ty // ty.Tidy }

/-- There is a meet in both orders or in neither. Without functions the two are equal as types,
and so are those that contexts find. -/
theorem meet_commutes [PairKey] (a b : TidyTy) :
    (Question.meet a.1 b.1).Concordant (.meet b.1 a.1) ∧
    (a.1.everywhere Ty.noFunction = true → b.1.everywhere Ty.noFunction = true →
      (∀ i j, Reference.meet a.1 b.1 = some i → Reference.meet b.1 a.1 = some j →
        Reference.typeEqual i j = true) ∧
      ∀ first second third : Context, first.Reached → second.Reached → third.Reached →
        first.Settles (.meet a.1 b.1) → second.Settles (.meet b.1 a.1) →
        ∀ i j, first.found a.1 b.1 = some i → second.found b.1 a.1 = some j →
          Reference.typeEqual i j = true ∧
          (third.Settles (.typeEqual i j) → third.Affirms (.typeEqual i j))) := by
  refine ⟨Question.concordant_iff.mpr (Reference.typesMatch_comm a.2 b.2), ?_⟩
  intro freeA freeB
  have plain : ∀ i j, Reference.meet a.1 b.1 = some i → Reference.meet b.1 a.1 = some j →
      Reference.typeEqual i j = true :=
    fun i j => Reference.typeEqual_of_mirrored ⟨a.2, freeA⟩ ⟨b.2, freeB⟩
  refine ⟨plain, ?_⟩
  intro first second third reached reachedSecond reachedThird settles settlesSecond i j one two
  obtain ⟨ty, met, same⟩ := exists_equal_some (one ▸ reached.found_plain settles)
  obtain ⟨other, turned, equal⟩ :=
    exists_equal_some (two ▸ reachedSecond.found_plain settlesSecond)
  have equals : Reference.typeEqual i j = true :=
    (Reference.typeEqual_congr same equal).trans (plain ty other met turned)
  exact ⟨equals, fun settled => reachedThird.affirms_of_plain settled equals⟩

namespace TidyTy

open BasicTy (box)

def order : TidyTy :=
  ⟨.union [.resolved (.dictionary [("count", .union [.two, .text]),
    ("lines", .list .numberOrText)]), .two, box (.union [.number, .text])], ⟨by decide, by decide⟩⟩

def request : TidyTy :=
  ⟨.union [box (.union [.text, .number]), .number,
    .resolved (.dictionary [("count", .number), ("lines", .list .text), ("note", .text)])],
    ⟨by decide, by decide⟩⟩

def filled : Ty := .resolved (.dictionary [("count", .two), ("lines", .list .text)])

end TidyTy

section

open TidyTy BasicTy

theorem meet_commutes_orders :
    let context := Context.new ⟨false, 8, 0⟩
    let met := Ty.union [filled, .union [.two, box (.union [.number, .text])]]
    let turned := Ty.union [box (.union [.text, .number]), .union [.two, filled]]
    context.Settles (.meet order.1 request.1) ∧ context.Settles (.meet request.1 order.1) ∧
    context.found order.1 request.1 = some met ∧ context.found request.1 order.1 = some turned ∧
    Reference.typeEqual met turned = true ∧ context.Affirms (.typeEqual met turned) := by
  intro context met turned
  obtain ⟨-, functionFree⟩ := meet_commutes order request
  obtain ⟨-, contexts⟩ := functionFree (by decide) (by decide)
  have reached : context.Reached := Context.reached_new ⟨false, 8, 0⟩
  have settles : context.Settles (.meet order.1 request.1) := by cbv
  have settlesTurned : context.Settles (.meet request.1 order.1) := by cbv
  have found : context.found order.1 request.1 = some met := by cbv
  have foundTurned : context.found request.1 order.1 = some turned := by cbv
  obtain ⟨equal, affirms⟩ := contexts context context context reached reached reached settles
    settlesTurned met turned found foundTurned
  exact ⟨settles, settlesTurned, found, foundTurned, equal, affirms (by cbv)⟩

end

end StructuralTypes
