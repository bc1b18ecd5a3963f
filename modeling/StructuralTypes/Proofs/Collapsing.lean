import StructuralTypes.Proofs.Distribution
import StructuralTypes.Proofs.Parts

/-!
Flattening and collapsing undo each other up to nesting. The branches of a type can be gathered
from left to right behind those that were gathered before, and a list can be folded into one type
from its end; both give what the recursions on the first element give. The branches that were
collapsed are the branches of the result, so lists of types that are no unions are told apart
by what they collapse to, and a type can be rebuilt from its branches without a change to any
meet.
-/

namespace StructuralTypes

namespace Ty

mutual

def gather : Ty → List Ty → List Ty
  | .union parts, gathered => gatherAll parts gathered
  | ty, gathered => gathered ++ [ty]

def gatherAll : List Ty → List Ty → List Ty
  | [], gathered => gathered
  | ty :: rest, gathered => gatherAll rest (gather ty gathered)

end

mutual

theorem gather_eq : ∀ (ty : Ty) (gathered : List Ty), ty.gather gathered = gathered ++ ty.branches
  | .union parts, gathered => by
      rw [gather, branches]
      exact gatherAll_eq parts gathered
  | .literal _, _ => by simp only [gather, branches]
  | .resolved _, _ => by simp only [gather, branches]

theorem gatherAll_eq : ∀ (parts gathered : List Ty),
    gatherAll parts gathered = gathered ++ branchesOf parts
  | [], gathered => (List.append_nil gathered).symm
  | ty :: rest, gathered => by
      rw [gatherAll, gather_eq ty, gatherAll_eq rest, branchesOf, List.append_assoc]

end

/-- Folds a list into binary unions from its last type on. -/
def folded (parts : List Ty) : Option Ty :=
  match parts.reverse with
  | [] => none
  | last :: before => some (before.foldl (fun others ty => .union [ty, others]) last)

theorem collapse_concat (before : List Ty) (last : Ty) :
    collapse (before ++ [last]) =
      some (before.foldr (fun ty others => .union [ty, others]) last) := by
  induction before with
  | nil => rfl
  | cons ty rest ih => rw [List.cons_append, collapse, ih, List.foldr_cons]

theorem collapse_eq_folded (parts : List Ty) : collapse parts = folded parts := by
  rw [folded]
  cases reversed : parts.reverse with
  | nil => rw [List.reverse_eq_nil_iff.mp reversed, collapse]
  | cons last before =>
      have order : parts = before.reverse ++ [last] := by
        rw [← List.reverse_cons, ← reversed, List.reverse_reverse]
      rw [order, collapse_concat, List.foldr_reverse]

theorem elim_branches_collapse {parts : List Ty} (singles : ∀ part ∈ parts, part.isUnion = false) :
    (collapse parts).elim [] branches = parts := by
  cases whole : collapse parts with
  | none => exact (collapse_eq_none_iff.mp whole).symm
  | some ty => exact (branches_of_collapse whole).trans (branchesOf_of_singles singles)

theorem branches_of_rebuilt {ty rebuilt : Ty} (whole : collapse ty.branches = some rebuilt) :
    rebuilt.branches = ty.branches :=
  (branches_of_collapse whole).trans
    (branchesOf_of_singles fun _ member => isUnion_of_mem_branches member)

end Ty

/-- The branches of a list are those of its types in order, gathered in one walk, and no union is
among them. The list collapses to no type only if it is empty, and otherwise to a type with these
branches, the same from either end. Lists of types that are no unions collapse to equal types
only if they are equal. A type with branches can be rebuilt from them, and the rebuilt one has the
meets of the original, on either side. -/
theorem flattening_collapses_back [PairKey] :
    (∀ parts : List Ty, Ty.branchesOf parts = parts.flatMap Ty.branches ∧
      Ty.branchesOf parts = Ty.gatherAll parts [] ∧
      (∀ branch ∈ Ty.branchesOf parts, branch.isUnion = false) ∧
      Ty.collapse parts = Ty.folded parts ∧
      (Ty.collapse parts = none ↔ parts = []) ∧
      (parts ≠ [] → ∃ ty, Ty.collapse parts = some ty ∧ ty.branches = Ty.branchesOf parts)) ∧
    (∀ parts others : List Ty, (∀ part ∈ parts, part.isUnion = false) →
      (∀ part ∈ others, part.isUnion = false) →
      (Ty.collapse parts = Ty.collapse others → parts = others) ∧
      (Ty.collapse parts == Ty.collapse others → parts == others)) ∧
    ∀ ty : Ty, ty.branches = ty.gather [] ∧ (ty.branches ≠ [] →
      ∃ rebuilt, Ty.collapse ty.branches = some rebuilt ∧
        ∀ other, (Question.meet rebuilt other).Alike (.meet ty other) ∧
          (Question.meet other rebuilt).Alike (.meet other ty)) := by
  have whole : ∀ {parts : List Ty}, parts ≠ [] → ∃ ty, Ty.collapse parts = some ty := by
    intro parts filled
    exact Option.ne_none_iff_exists'.mp fun none => filled (Ty.collapse_eq_none_iff.mp none)
  refine ⟨fun parts => ⟨Ty.branchesOf_eq_flatMap parts, ?_, ?_, Ty.collapse_eq_folded parts,
    Ty.collapse_eq_none_iff, ?_⟩, ?_, fun ty => ⟨(ty.gather_eq []).symm, ?_⟩⟩
  · exact (Ty.gatherAll_eq parts []).symm
  · exact fun branch member => Ty.isUnion_of_mem_branchesOf member
  · intro filled
    obtain ⟨ty, collapsed⟩ := whole filled
    exact ⟨ty, collapsed, Ty.branches_of_collapse collapsed⟩
  · intro parts others singles singlesOther
    -- either list can be read off what it collapses to
    have back := Ty.elim_branches_collapse singles
    have backOther := Ty.elim_branches_collapse singlesOther
    constructor
    · intro same
      rw [← back, ← backOther, same]
    · intro same
      rw [← back, ← backOther]
      exact elim_branches_equal same
  · intro filled
    obtain ⟨rebuilt, collapsed⟩ := whole filled
    have same := Ty.branches_of_rebuilt collapsed
    refine ⟨rebuilt, collapsed, fun other => ⟨?_, ?_⟩⟩
    · exact Question.alike_iff.mpr (congrArg Answer.type (Reference.meet_of_branches same rfl))
    · exact Question.alike_iff.mpr (congrArg Answer.type (Reference.meet_of_branches rfl same))

def Ty.numberTwoTextRebuilt : Ty := .union [.number, .union [.two, .text]]

/-- An empty union and unions nested in two ways. The zeros are equal, though not the same. -/
theorem flattening_collapses_back_nested :
    (∃ ty, Ty.collapse [.numberTwoText, .union [], .textNumbers] = some ty ∧
      ty.branches = [.number, .two, .text, .text, .number, .number]) ∧
    Ty.two.isUnion = false ∧
    ([.literal (.number ⟨0⟩), .text] : List Ty) ==
      [.literal (.number ⟨0x8000000000000000⟩), .text] ∧
    Ty.collapse Ty.numberTwoText.branches = some .numberTwoTextRebuilt ∧
    (Question.meet .numberTwoTextRebuilt .textNumbers).Alike (.meet .numberTwoText .textNumbers) ∧
    (Question.meet .textNumbers .numberTwoTextRebuilt).Alike
      (.meet .textNumbers .numberTwoText) := by
  obtain ⟨lists, told, types⟩ := flattening_collapses_back
  have branches : Ty.branchesOf [.numberTwoText, .union [], .textNumbers] =
      [.number, .two, .text, .text, .number, .number] := by cbv
  have rebuilds : Ty.collapse Ty.numberTwoText.branches = some .numberTwoTextRebuilt := by cbv
  have filled : Ty.numberTwoText.branches ≠ [] := by
    rw [ne_eq, ← Ty.collapse_eq_none_iff, rebuilds]
    exact Option.some_ne_none _
  obtain ⟨-, -, single, -, -, back⟩ := lists [.numberTwoText, .union [], .textNumbers]
  obtain ⟨ty, collapsed, same⟩ := back (List.cons_ne_nil _ _)
  obtain ⟨rebuilt, found, meets⟩ := (types .numberTwoText).2 filled
  cases rebuilds.symm.trans found
  refine ⟨⟨ty, collapsed, same.trans branches⟩, single _ (by simp [branches]), ?_, rebuilds,
    (meets .textNumbers).1, (meets .textNumbers).2⟩
  exact (told _ _ (by simp [Ty.isUnion, Ty.text]) (by simp [Ty.isUnion, Ty.text])).2 (by cbv)

end StructuralTypes
