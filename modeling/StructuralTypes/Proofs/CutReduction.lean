import StructuralTypes.Proofs.Paring

/-!
Reductions that are cut short. A reduction meets the branches one after the other, so what a cutoff
loses in one meet is missing from the next. With less to meet less is found, except for literals: a
literal is met by a type that is above its classifier, and where that is a record or a function or
holds a literal itself, a type may be above it only for what was lost. So a reduction can pass on a
cutoff that fails plainly. It fails closed as long as no such literal stands behind the second
branch; the first meet is made with nothing lost.
-/

namespace StructuralTypes

open Ty

theorem Ty.firmLiteral_of_primitive {a : Ty} (whole : a.everywhere primitiveLiteral = true) :
    Throughout FirmLiteral a := by
  refine @Throughout.of_hereditary FirmLiteral a (fun a => a.everywhere primitiveLiteral = true)
    ?_ ?_ whole
  · intro a whole part inside
    exact ((everywhere_iff a).mp whole).2 part inside
  · rintro _ whole value rfl
    exact .primitive ((everywhere_iff _).mp whole).1

namespace Query.Cautious

variable [PairKey]

variable {q : Queries Query}

theorem meetFrom_next (cautious : Cautious q) {ty plain next : Ty} {rest : List Ty}
    (ordered : next.Ordered) (kept : Kept next ty plain)
    (further : ∀ {found other : Ty}, found.Pared other →
      Below (fun x y => x.isSome ≤ y.isSome) (Rules.meetFrom q found rest)
        (Rules.meetFrom Reference.queries other rest)) :
    Below (fun x y => x.isSome ≤ y.isSome) (Rules.meetFrom q ty (next :: rest))
      (Rules.meetFrom Reference.queries plain (next :: rest)) := by
  apply (cautious.meet ty next).step
  intro met below
  cases met with
  | none => exact Below.pure (Bool.false_le _)
  | some found =>
      obtain ⟨other, there, less⟩ := (below.met ordered found rfl).pared kept
      apply (further less).mono
      intro reduced answer
      rw [Reference.meetFrom_cons, there]
      exact answer

theorem meetFrom_pared (cautious : Cautious q) {rest : List Ty}
    (ordered : ∀ next ∈ rest, next.Ordered)
    (firm : ∀ next ∈ rest, Throughout FirmLiteral next) {ty plain : Ty} (pared : ty.Pared plain) :
    Below (fun x y => x.isSome ≤ y.isSome) (Rules.meetFrom q ty rest)
      (Rules.meetFrom Reference.queries plain rest) := by
  induction rest generalizing ty plain with
  | nil => exact Below.pure (Bool.le_refl _)
  | cons next rest ih =>
      obtain ⟨order, others⟩ := List.forall_mem_cons.mp ordered
      obtain ⟨literals, later⟩ := List.forall_mem_cons.mp firm
      exact cautious.meetFrom_next order (.pared pared literals) (ih others later)

/-- What a reduction finds is found plainly, if the literals behind the second branch are firm. -/
theorem reduce_found (cautious : Cautious q) {ty : Ty} (ordered : ty.Ordered)
    (firm : ∀ branch ∈ ty.branches.drop 2, Throughout FirmLiteral branch) :
    Below (fun x y => x.isSome ≤ y.isSome) (Rules.reduce q ty)
      (Rules.reduce Reference.queries ty) := by
  have order : ∀ branch ∈ ty.branches, branch.Ordered := fun _ member => ordered.branch member
  rw [Rules.reduce_eq, Rules.reduce_eq]
  generalize ty.branches = branches at order firm
  match branches with
  | [] => exact Below.pure (Bool.le_refl _)
  | [first] => exact Below.pure (Bool.le_refl _)
  | first :: second :: rest =>
      obtain ⟨-, next, others⟩ := List.forall_mem_cons.mp order |>.imp_right List.forall_mem_cons.mp
      -- the first meet has the branch itself on both sides, whatever the literals of the second
      exact cautious.meetFrom_next next (.equal (BEq.refl first)) fun less =>
        cautious.meetFrom_pared others firm less

end Query.Cautious

/-- After any history, on any settings, a well-formed type that reduces does so plainly, unless
behind its second branch there is a literal with a classifier that is not firm. -/
theorem reduced_plainly [PairKey] {context : Context} (reached : context.Reached) {ty : Ty}
    (formed : ty.wellFormed = true)
    (firm : ∀ branch ∈ ty.branches.drop 2, Throughout FirmLiteral branch)
    (reduces : context.Affirms (.reduce ty)) : (Reference.reduce ty).isSome = true := by
  obtain ⟨config, requests, rfl⟩ := reached
  have obeys := Request.reached_cautious config requests
  have below := Query.queries_cautious.reduce_found (Ty.ordered_of_wellFormed formed) firm
  exact (below _ obeys).2 reduces

namespace Ty

def matrix : Ty := .list (.list .number)

def surveyed : Ty := .resolved (.dictionary [("x", .matrix), ("y", .number)])

def pair : Ty := .resolved (.dictionary [("y", .two)])

end Ty

/-- On three levels a field is lost that the third branch has no use for. -/
theorem reduced_plainly_without_field :
    let context := Context.new ⟨false, 3, 0⟩
    let ty : Ty := .union [.surveyed, .surveyed, .pair]
    context.Affirms (.reduce ty) ∧ ¬ context.Settles (.reduce ty) ∧
    (Reference.reduce ty).isSome = true := by
  have formed : (Ty.union [.surveyed, .surveyed, .pair]).wellFormed = true := by cbv
  have reduces : (Context.new ⟨false, 3, 0⟩).Affirms
      (.reduce (.union [.surveyed, .surveyed, .pair])) := by cbv
  have cut : ¬ (Context.new ⟨false, 3, 0⟩).Settles
      (.reduce (.union [.surveyed, .surveyed, .pair])) := by
    rw [Context.Settles]
    cbv
  refine ⟨reduces, cut, reduced_plainly (Context.reached_new _) formed ?_ reduces⟩
  intro branch member
  cases List.mem_singleton.mp member
  exact Ty.firmLiteral_of_primitive (by cbv)

def Ty.scored : Ty :=
  .literal ⟨.dictionary [("y", .number ⟨0⟩)], .dictionary [("y", .number)]⟩

def Shape.taking (parameter : Ty) : Shape := .function [⟨"x", parameter, none⟩] .number

def Ty.nested : Ty := .list (.union [.two, .matrix])

/-- On three levels a reduction that fails plainly passes: a record loses the field that the literal
lacks, a parameter the branch that it does not take, and the elements of a list all but the literal
that they are to be. -/
theorem reduction_passes_when_cut_short :
    let context := Context.new ⟨false, 3, 0⟩
    let records : Ty := .union [.surveyed, .surveyed, .scored]
    let functions : Ty := .union [.resolved (.taking (.union [.matrix, .text])),
      .resolved (.taking (.union [.matrix, .text])), .literal ⟨.void, .taking .text⟩]
    let lists : Ty := .union [.nested, .nested, .literal ⟨.list [], .list .two⟩]
    (context.Affirms (.reduce records) ∧ Reference.reduce records = none) ∧
    (context.Affirms (.reduce functions) ∧ Reference.reduce functions = none) ∧
    (context.Affirms (.reduce lists) ∧ Reference.reduce lists = none) := by
  refine ⟨⟨?_, ?_⟩, ⟨?_, ?_⟩, ?_, ?_⟩
  all_goals cbv

end StructuralTypes
