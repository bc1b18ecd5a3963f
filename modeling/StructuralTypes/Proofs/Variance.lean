import StructuralTypes.Proofs.Matching

/-!
Functions below functions. What is below a type of functions of one arity is made of functions of
that arity, and the parts read out of the two are below each other the same way round: results
because the ground step follows them, parameters because it compares them both ways. Unions on
either side are opened up twice, for the functions and for their parts, and nothing that the two
nestings differ in is seen. Literals have to be left out, since a union of parts that holds one is
not compared branch by branch, and unions without branches, since nothing is read out of them.
-/

namespace StructuralTypes

/-- A question that is affirmed plainly and by every context that meets no cutoff on it. -/
structure Question.Upheld [PairKey] (question : Question) : Prop where
  plain : question.answer.positive = true
  asked : ∀ context : Context, context.Reached → context.Settles question →
    context.Affirms question

theorem Question.Upheld.of_plain [PairKey] {question : Question}
    (plain : question.answer.positive = true) : question.Upheld :=
  ⟨plain, fun _ reached settles => reached.affirms_of_plain settles plain⟩

namespace Ty

def proper : Ty → Bool
  | .literal _ => false
  | .union parts => !parts.isEmpty
  | .resolved _ => true

theorem ne_literal_of_proper {a : Ty} (whole : a.everywhere proper = true) :
    ∀ value, a ≠ .literal value := by
  rintro value rfl
  cases ((everywhere_iff _).mp whole).1

theorem proper_branch {a branch : Ty} (whole : a.everywhere proper = true)
    (member : branch ∈ a.branches) : branch.everywhere proper = true :=
  branch_of_hereditary (fun _ holds part inside => ((everywhere_iff _).mp holds).2 part inside)
    whole member

theorem hollow_of_proper {a : Ty} (whole : a.everywhere proper = true) : a.hollow = false := by
  induction a using induction_parts with
  | step a ih =>
      obtain ⟨here, parts⟩ := (everywhere_iff a).mp whole
      cases a with
      | literal value => rfl
      | resolved shape => rfl
      | union branches =>
          have each : ∀ part ∈ branches, part.hollow = false :=
            fun part inside => ih part inside (parts part inside)
          rw [hollow, anyHollow_of_full each, Bool.or_false]
          exact Bool.not_eq_true' _ |>.mp here

end Ty

namespace Reference

open Ty

theorem function_of_subset {s : Shape} {rs : List Parameter} {b : Ty}
    (below : subset (.resolved s) (.resolved (.function rs b)) = true) :
    ∃ ps a, s = .function ps a ∧ ParametersEqual ps rs ∧ subset a b = true := by
  have step : ShapeBelow s (.function rs b) := by
    rcases (subset_resolved_iff _ _).mp below with same | step
    · apply ShapeBelow.of_equal same
      rintro entries rfl
      cases Precision.equality.shape_kind same
    · exact step
  cases step with
  | function parameters result => exact ⟨_, _, rfl, parameters, result⟩

theorem subset_replaced {read : Ty → Option Ty} {a b : Ty}
    (left : ∀ value, a.replaced read ≠ .literal value)
    (right : ∀ value, b.replaced read ≠ .literal value)
    (parts : ∀ s ∈ a.branches, ∀ p ∈ b.branches, subset s p = true →
      subset ((read s).getD s) ((read p).getD p) = true)
    (below : subset a b = true) : subset (a.replaced read) (b.replaced read) = true := by
  rw [subset_iff_branches left right, branches_replaced, branches_replaced]
  intro branch inside
  obtain ⟨s, inA, here⟩ := List.mem_flatMap.mp inside
  obtain ⟨p, inB, under⟩ := exists_branch_over below inA
  obtain ⟨other, there, low⟩ := exists_branch_over (parts s inA p inB under) here
  exact ⟨other, List.mem_flatMap.mpr ⟨p, inB, there⟩, low⟩

theorem replaced_ne_literal {read : Ty → Option Ty}
    (inside : ∀ {leaf part : Ty}, read leaf = some part → part ∈ leaf.parts) {a : Ty}
    (whole : a.everywhere proper = true) : ∀ value, a.replaced read ≠ .literal value := by
  cases a with
  | literal value => exact absurd rfl (ne_literal_of_proper whole value)
  | union parts => exact union_ne_literal _
  | resolved shape =>
      rw [replaced]
      cases found : read (.resolved shape) with
      | none => exact resolved_ne_literal shape
      | some part =>
          exact ne_literal_of_proper (((everywhere_iff _).mp whole).2 part (inside found))

variable {a b : Ty} {count : Nat}

theorem callable_of_subset (whole : a.everywhere proper = true) (callable : b.Callable count)
    (below : subset a b = true) : a.Callable count := by
  refine ⟨hollow_of_proper whole, fun leaf member => ?_⟩
  obtain ⟨other, there, under⟩ := exists_branch_over below member
  obtain ⟨rs, result, rfl, rfl⟩ := callable.functions other there
  cases leaf with
  | literal value => exact absurd rfl (ne_literal_of_proper (proper_branch whole member) value)
  | union parts => cases isUnion_of_mem_branches member
  | resolved s =>
      obtain ⟨ps, a, rfl, parameters, -⟩ := function_of_subset under
      exact ⟨ps, a, rfl, parameters.length_eq⟩

theorem resultOf_mem_parts {leaf part : Ty} (found : resultOf leaf = some part) :
    part ∈ leaf.parts := by
  unfold resultOf at found
  split at found
  · cases found
    exact List.mem_cons_self
  · cases found

theorem parameterOf_mem_parts {index : Nat} {leaf part : Ty}
    (found : parameterOf index leaf = some part) : part ∈ leaf.parts := by
  unfold parameterOf at found
  split at found
  · obtain ⟨p, there, rfl⟩ := Option.map_eq_some_iff.mp found
    exact List.mem_cons_of_mem _ (List.mem_map_of_mem (List.mem_of_getElem? there))
  · cases found

theorem subset_results (wholeA : a.everywhere proper = true) (wholeB : b.everywhere proper = true)
    (callable : b.Callable count) (below : subset a b = true) :
    subset (a.replaced resultOf) (b.replaced resultOf) = true := by
  have callableA := callable_of_subset wholeA callable below
  refine subset_replaced (replaced_ne_literal resultOf_mem_parts wholeA)
    (replaced_ne_literal resultOf_mem_parts wholeB) ?_ below
  intro s inA p inB under
  obtain ⟨ps, x, rfl, -⟩ := callableA.functions s inA
  obtain ⟨rs, y, rfl, -⟩ := callable.functions p inB
  obtain ⟨_, _, same, -, result⟩ := function_of_subset under
  cases same
  exact result

theorem subset_parameters (wholeA : a.everywhere proper = true)
    (wholeB : b.everywhere proper = true) (callable : b.Callable count)
    (below : subset a b = true) {index : Nat} (inside : index < count) :
    subset (a.replaced (parameterOf index)) (b.replaced (parameterOf index)) = true := by
  have callableA := callable_of_subset wholeA callable below
  refine subset_replaced (replaced_ne_literal parameterOf_mem_parts wholeA)
    (replaced_ne_literal parameterOf_mem_parts wholeB) ?_ below
  intro s inA p inB under
  obtain ⟨ps, x, rfl, rfl⟩ := callableA.functions s inA
  obtain ⟨rs, y, rfl, lengths⟩ := callable.functions p inB
  obtain ⟨_, _, same, parameters, -⟩ := function_of_subset under
  cases same
  have other : index < rs.length := lengths ▸ inside
  have equal := (List.forall₂_iff_get.mp parameters).2 index inside other
  simp only [parameterOf, List.getElem?_eq_getElem inside, List.getElem?_eq_getElem other,
    Option.map_some, Option.getD_some]
  exact ((typeEqual_iff _ _).mp equal.2).1

end Reference

/-- Functions of one number of parameters on both sides, with parts that are below each other. -/
structure Ty.PartsBelow [PairKey] (count : Nat) (a b : Ty) : Prop where
  arity : a.arity = some count
  result : ∃ x y, a.result = some x ∧ b.result = some y ∧ (Question.subset x y).Upheld
  parameter : ∀ index < count, ∃ x y, a.parameter index = some x ∧ b.parameter index = some y ∧
    (Question.subset x y).Upheld

/-- Between types without literals and empty unions, what is below a type of functions of one arity
is of functions of that arity, with results and parameters below those of the other. This is so if
the one is below the other plainly, or if any context says so. -/
theorem function_parts_follow_subset [PairKey] {a b : Ty} (wholeA : a.everywhere Ty.proper = true)
    (wholeB : b.everywhere Ty.proper = true) {count : Nat} (arity : b.arity = some count) :
    (Reference.subset a b = true → Ty.PartsBelow count a b) ∧
    ∀ context : Context, context.Reached → context.Affirms (.subset a b) →
      Ty.PartsBelow count a b := by
  have callable := Ty.arity_eq_some_iff.mp arity
  have plainly : Reference.subset a b = true → Ty.PartsBelow count a b := by
    intro below
    have callableA := Reference.callable_of_subset wholeA callable below
    refine ⟨Ty.arity_eq_some_iff.mpr callableA, ?_, fun index inside => ?_⟩
    · exact ⟨_, _, callableA.result, callable.result,
        .of_plain (Reference.subset_results wholeA wholeB callable below)⟩
    · exact ⟨_, _, callableA.parameter inside, callable.parameter inside,
        .of_plain (Reference.subset_parameters wholeA wholeB callable below inside)⟩
  refine ⟨plainly, fun context reached affirms => ?_⟩
  exact plainly (reached.plain_of_affirms rfl affirms)

/-- A function under a union of two, one of them in a further union, whose parameter and result
list the same branches in another order. -/
theorem function_parts_follow_subset_reordered :
    let numberOrText : Ty := .union [.number, .text]
    let textOrNumber : Ty := .union [.text, .number]
    let a : Ty := .union [.function [⟨"x", numberOrText, none⟩] .number]
    let b : Ty := .union [.function [⟨"x", .logic, none⟩] .logic,
      .union [.function [⟨"x", textOrNumber, none⟩] textOrNumber]]
    Reference.subset a b = true ∧ b.arity = some 1 ∧ Ty.PartsBelow 1 a b := by
  intro numberOrText textOrNumber a b
  have below : Reference.subset a b = true := by decide +kernel
  have arity : b.arity = some 1 := by decide
  exact ⟨below, arity, (function_parts_follow_subset (by decide) (by decide) arity).1 below⟩

end StructuralTypes
