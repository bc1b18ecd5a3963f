import StructuralTypes.Proofs.Distribution
import StructuralTypes.Proofs.Parts

/-!
Unions as sets of branches. Between types that are no literals, the subset relation says that
every branch on the left is below some branch on the right, so it cannot tell types apart that
have equal branches. What is done to the branches of a union without adding or losing one, to
order them otherwise, to put some into a union of their own or to repeat one, is therefore never
seen. Only as an operand is a literal different: as a branch it is compared like any other.
-/

namespace StructuralTypes

namespace Ty

/-- Each branch of one type is equal to a branch of the other. -/
structure SameBranches (a b : Ty) : Prop where
  left : ∀ branch ∈ a.branches, ∃ other ∈ b.branches, branch == other
  right : ∀ other ∈ b.branches, ∃ branch ∈ a.branches, branch == other

/-- Unions that are made from each other by rearranging branches, at any depth of nesting. -/
inductive Rearranged : Ty → Ty → Prop where
  | refl (a : Ty) : Rearranged a a
  | symm {a b : Ty} (other : Rearranged a b) : Rearranged b a
  | trans {a b c : Ty} (first : Rearranged a b) (second : Rearranged b c) : Rearranged a c
  | reorder {parts others : List Ty} (order : parts.Perm others) :
      Rearranged (.union parts) (.union others)
  | regroup (before inside after : List Ty) :
      Rearranged (.union (before ++ .union inside :: after)) (.union (before ++ inside ++ after))
  | single (part : Ty) : Rearranged (.union [part]) part
  | duplicate {part : Ty} {parts : List Ty} (member : part ∈ parts) :
      Rearranged (.union (part :: parts)) (.union parts)
  | within {part other : Ty} (before after : List Ty) (rearranged : Rearranged part other) :
      Rearranged (.union (before ++ part :: after)) (.union (before ++ other :: after))

theorem mem_branches_of_union {branch : Ty} {parts : List Ty} :
    branch ∈ (Ty.union parts).branches ↔ ∃ part ∈ parts, branch ∈ part.branches := by
  rw [mem_branches_union, mem_branchesOf]

namespace SameBranches

variable {a b c : Ty}

theorem of_mem (members : ∀ branch, branch ∈ a.branches ↔ branch ∈ b.branches) :
    a.SameBranches b := by
  constructor
  · intro branch inside
    exact ⟨branch, (members branch).mp inside, BEq.refl branch⟩
  · intro branch inside
    exact ⟨branch, (members branch).mpr inside, BEq.refl branch⟩

theorem symm (same : a.SameBranches b) : b.SameBranches a := by
  constructor
  · intro branch inside
    obtain ⟨other, there, equal⟩ := same.right branch inside
    exact ⟨other, there, BEq.symm equal⟩
  · intro branch inside
    obtain ⟨other, there, equal⟩ := same.left branch inside
    exact ⟨other, there, BEq.symm equal⟩

theorem trans (first : a.SameBranches b) (second : b.SameBranches c) : a.SameBranches c := by
  constructor
  · intro branch inside
    obtain ⟨middle, between, one⟩ := first.left branch inside
    obtain ⟨other, there, two⟩ := second.left middle between
    exact ⟨other, there, PartialEquivBEq.trans one two⟩
  · intro other there
    obtain ⟨middle, between, two⟩ := second.right other there
    obtain ⟨branch, inside, one⟩ := first.right middle between
    exact ⟨branch, inside, PartialEquivBEq.trans one two⟩

theorem replace (same : a.SameBranches b) (before after : List Ty) :
    (Ty.union (before ++ a :: after)).SameBranches (.union (before ++ b :: after)) := by
  have across : ∀ {a b : Ty}, a.SameBranches b →
      ∀ branch ∈ (Ty.union (before ++ a :: after)).branches,
        ∃ other ∈ (Ty.union (before ++ b :: after)).branches, branch == other := by
    intro a b same branch inside
    obtain ⟨part, member, here⟩ := mem_branches_of_union.mp inside
    rcases List.mem_append.mp member with first | later
    · refine ⟨branch, mem_branches_of_union.mpr ⟨part, ?_, here⟩, BEq.refl branch⟩
      exact List.mem_append_left _ first
    rcases List.mem_cons.mp later with rfl | last
    · obtain ⟨other, there, equal⟩ := same.left branch here
      refine ⟨other, mem_branches_of_union.mpr ⟨b, ?_, there⟩, equal⟩
      exact List.mem_append_right _ List.mem_cons_self
    · refine ⟨branch, mem_branches_of_union.mpr ⟨part, ?_, here⟩, BEq.refl branch⟩
      exact List.mem_append_right _ (List.mem_cons_of_mem _ last)
  constructor
  · exact across same
  · intro other there
    obtain ⟨branch, inside, equal⟩ := across same.symm other there
    exact ⟨branch, inside, BEq.symm equal⟩

end SameBranches

theorem Rearranged.sameBranches {a b : Ty} (rearranged : a.Rearranged b) : a.SameBranches b := by
  induction rearranged with
  | refl a => exact .of_mem fun _ => Iff.rfl
  | symm _ ih => exact ih.symm
  | trans _ _ one two => exact one.trans two
  | reorder order =>
      apply SameBranches.of_mem
      intro branch
      simp only [mem_branches_of_union, order.mem_iff]
  | regroup before inside after =>
      apply SameBranches.of_mem
      intro branch
      simp only [mem_branches_of_union, List.mem_append, List.mem_cons, or_and_right, exists_or,
        exists_eq_left, or_assoc]
  | single part => exact .of_mem fun branch => by rw [branches_one]
  | duplicate member =>
      apply SameBranches.of_mem
      intro branch
      simp only [mem_branches_of_union, List.mem_cons, or_and_right, exists_or, exists_eq_left]
      exact or_iff_right_of_imp fun inside => ⟨_, member, inside⟩
  | within before after _ ih => exact ih.replace before after

end Ty

abbrev NonLiteral := { ty : Ty // ∀ value, ty ≠ .literal value }

namespace Reference

theorem subset_of_sameBranches {a b c d : NonLiteral} (left : a.1.SameBranches c.1)
    (right : b.1.SameBranches d.1) (below : subset a.1 b.1 = true) : subset c.1 d.1 = true := by
  rw [subset_iff_branches c.2 d.2]
  intro branch inside
  obtain ⟨first, inA, equal⟩ := left.right branch inside
  obtain ⟨second, inB, under⟩ := (subset_iff_branches a.2 b.2).mp below first inA
  obtain ⟨above, inD, same⟩ := right.left second inB
  exact ⟨above, inD, subset_congr equal same ▸ under⟩

theorem subset_eq_of_sameBranches {a b c d : NonLiteral} (left : a.1.SameBranches c.1)
    (right : b.1.SameBranches d.1) : subset a.1 b.1 = subset c.1 d.1 := by
  rw [Bool.eq_iff_iff]
  constructor
  · exact subset_of_sameBranches left right
  · exact subset_of_sameBranches left.symm right.symm

theorem typeEqual_of_sameBranches {a b : NonLiteral} (same : a.1.SameBranches b.1) :
    typeEqual a.1 b.1 = true := by
  have refl : a.1.SameBranches a.1 := .of_mem fun _ => Iff.rfl
  rw [typeEqual_iff]
  constructor
  · exact subset_of_sameBranches refl same (subset_refl a.1)
  · exact subset_of_sameBranches same refl (subset_refl a.1)

end Reference

/-- Between types that are no literals the subset relation goes branch by branch: every branch on
the left is below some branch on the right. So it is the same for types with the same branches,
however these are grouped, ordered and repeated, and types with the same branches are equal. All
of this holds of any contexts that meet no cutoff. -/
theorem subset_goes_by_branches [PairKey] :
    (∀ a b : NonLiteral, Reference.subset a.1 b.1 = true ↔
      ∀ s ∈ a.1.branches, ∃ p ∈ b.1.branches, Reference.subset s p = true) ∧
    (∀ a b c d : NonLiteral, a.1.SameBranches c.1 → b.1.SameBranches d.1 →
      (Question.subset a.1 b.1).Alike (.subset c.1 d.1)) ∧
    (∀ a b c d : NonLiteral, a.1.Rearranged c.1 → b.1.Rearranged d.1 →
      (Question.subset a.1 b.1).Alike (.subset c.1 d.1)) ∧
    (∀ a b : NonLiteral, a.1.SameBranches b.1 → Reference.typeEqual a.1 b.1 = true) ∧
    ∀ (context : Context) (a b : NonLiteral), context.Reached →
      (∀ asked : Ty → Ty → Context, context.Settles (.subset a.1 b.1) →
        Context.SettlePairs asked a.1 b.1 .subset →
        (context.Affirms (.subset a.1 b.1) ↔
          ∀ s ∈ a.1.branches, ∃ p ∈ b.1.branches, (asked s p).Affirms (.subset s p))) ∧
      (a.1.SameBranches b.1 → context.Settles (.typeEqual a.1 b.1) →
        context.Affirms (.typeEqual a.1 b.1)) := by
  have alike : ∀ a b c d : NonLiteral, a.1.SameBranches c.1 → b.1.SameBranches d.1 →
      (Question.subset a.1 b.1).Alike (.subset c.1 d.1) := by
    intro a b c d left right
    exact Question.alike_iff.mpr (congrArg Answer.truth
      (Reference.subset_eq_of_sameBranches left right))
  refine ⟨fun a b => Reference.subset_iff_branches a.2 b.2, alike, ?_,
    fun a b => Reference.typeEqual_of_sameBranches, ?_⟩
  · intro a b c d left right
    exact alike a b c d left.sameBranches right.sameBranches
  · intro context a b reached
    constructor
    · intro asked settles settled
      rw [reached.affirms_iff settles]
      change Reference.subset a.1 b.1 = true ↔ _
      rw [Reference.subset_iff_branches a.2 b.2]
      refine forall₂_congr fun s inside => exists_congr fun p => and_congr_right fun there => ?_
      obtain ⟨reachedPair, settlesPair⟩ := settled s inside p there
      exact (reachedPair.affirms_iff settlesPair).symm
    · intro same settles
      exact reached.affirms_of_plain settles (Reference.typeEqual_of_sameBranches same)

namespace NonLiteral

def flat : NonLiteral := ⟨.union [.two, .text, .logic], nofun⟩

def grouped : NonLiteral := ⟨.union [.union [.text, .logic], .text, .union [.two]], nofun⟩

def wide : NonLiteral := ⟨.union [.logic, .numberOrText], nofun⟩

theorem flat_rearranged : flat.1.Rearranged grouped.1 := by
  have repeated : Ty.Rearranged (.union [.text, .two, .text, .logic]) flat.1 :=
    .duplicate (List.mem_cons_of_mem _ List.mem_cons_self)
  have ordered : Ty.Rearranged (.union [.text, .two, .text, .logic])
      (.union [.text, .logic, .text, .two]) :=
    .reorder ((List.reverse_perm [Ty.two, Ty.text, Ty.logic]).symm.cons Ty.text)
  have nested : Ty.Rearranged (.union [.union [.text, .logic], .text, .two])
      (.union [.text, .logic, .text, .two]) := .regroup [] [.text, .logic] [.text, .two]
  have wrapped : Ty.Rearranged grouped.1 (.union [.union [.text, .logic], .text, .two]) :=
    .within [.union [.text, .logic], .text] [] (.single .two)
  exact repeated.symm.trans (ordered.trans (nested.symm.trans wrapped.symm))

end NonLiteral

section

open NonLiteral

/-- The two is below the numbers of the wide union only, and each way to write the branches is
below it. -/
theorem subset_goes_by_branches_rearranged :
    flat.1.Rearranged grouped.1 ∧
    (∀ s ∈ flat.1.branches, ∃ p ∈ wide.1.branches, Reference.subset s p = true) ∧
    Reference.subset grouped.1 wide.1 = true ∧
    Reference.typeEqual flat.1 grouped.1 = true ∧
    (Context.new ⟨true, 5, 1⟩).Affirms (.subset flat.1 wide.1) ∧
    (Context.new ⟨true, 5, 1⟩).Affirms (.typeEqual flat.1 grouped.1) := by
  obtain ⟨law, -, rearranged, equal, contexts⟩ := subset_goes_by_branches
  have self : wide.1.Rearranged wide.1 := .refl _
  have same := flat_rearranged.sameBranches
  have branches : flat.1.branches = [.two, .text, .logic] := by cbv
  have others : wide.1.branches = [.logic, .number, .text] := by cbv
  have below : Reference.subset flat.1 wide.1 = true := by cbv
  have alike := (rearranged flat wide grouped wide flat_rearranged self).plain
  have answers : Reference.subset flat.1 wide.1 = Reference.subset grouped.1 wide.1 :=
    Answer.truth.inj alike
  obtain ⟨asked, -⟩ := contexts (Context.new ⟨true, 5, 1⟩) flat wide (Context.reached_new _)
  obtain ⟨-, affirmed⟩ := contexts (Context.new ⟨true, 5, 1⟩) flat grouped (Context.reached_new _)
  have settled : Context.SettlePairs Context.afresh flat.1 wide.1 .subset := by
    intro s inside p there
    refine ⟨Context.reached_new _, ?_⟩
    simp only [branches, others, List.mem_cons, List.not_mem_nil, or_false] at inside there
    rcases inside with rfl | rfl | rfl <;> rcases there with rfl | rfl | rfl <;> cbv
  refine ⟨flat_rearranged, (law flat wide).mp below, answers ▸ below, equal flat grouped same, ?_,
    affirmed same (by cbv)⟩
  refine (asked Context.afresh (by cbv) settled).mpr ?_
  simp only [branches, others, List.forall_mem_cons, List.exists_mem_cons_iff]
  exact ⟨.inr (.inl (by cbv)), .inr (.inr (.inl (by cbv))), .inl (by cbv), List.forall_mem_nil _⟩

end

end StructuralTypes
