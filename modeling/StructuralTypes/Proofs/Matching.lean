import StructuralTypes.Proofs.Calls
import StructuralTypes.Proofs.LowerBound
import StructuralTypes.Proofs.Parts

/-!
What is below a type matches it, as long as nothing in the two is empty. To be below and to
match are decided by rules of their own: the first compares parameters both ways, takes a literal
for its classifier and passes equal types without a look inside, while a match goes pair by pair
and is lost with one pair, or with all keys of a dictionary. The argument goes by the joint
height. Where equality alone says that one type is below the other, the rules are followed down
the two equal types, where each field is found again under its key.
-/

namespace StructuralTypes

/-- No union without branches and no dictionary without keys occurs, and all dictionaries are
in key order. -/
structure Ty.Filled (a : Ty) : Prop where
  formed : a.wellFormed = true
  full : a.everywhere Ty.nonempty = true

namespace Ty.Filled

variable {a : Ty}

theorem part (filled : a.Filled) {part : Ty} (member : part ∈ a.parts) : part.Filled :=
  ⟨Ty.wellFormed_of_mem_parts filled.formed member,
    ((Ty.everywhere_iff a).mp filled.full).2 part member⟩

theorem branch (filled : a.Filled) {branch : Ty} (member : branch ∈ a.branches) : branch.Filled :=
  Ty.branch_of_hereditary (fun _ whole _ inside => whole.part inside) filled member

theorem carrier {value : Value} (filled : (Ty.literal value).Filled) :
    (Ty.resolved value.shape).Filled :=
  filled.part (List.mem_singleton_self _)

theorem sorted {entries : List (String × Ty)}
    (filled : (Ty.resolved (.dictionary entries)).Filled) : Keyed.Sorted entries := by
  have formed := filled.formed
  simp only [Ty.wellFormed, Shape.wellFormed, Bool.and_eq_true] at formed
  exact of_decide_eq_true formed.1

theorem exists_entry {entries : List (String × Ty)}
    (filled : (Ty.resolved (.dictionary entries)).Filled) : ∃ key ty, (key, ty) ∈ entries := by
  have here := ((Ty.everywhere_iff _).mp filled.full).1
  cases entries with
  | nil => cases here
  | cons entry rest => exact ⟨entry.1, entry.2, List.mem_cons_self⟩

end Ty.Filled

namespace Reference

theorem exists_branch_over {a b branch : Ty} (below : subset a b = true)
    (member : branch ∈ a.branches) : ∃ other ∈ b.branches, subset branch other = true := by
  rcases b.literal_or_other with ⟨v, rfl⟩ | right
  · rcases a.literal_or_other with ⟨u, rfl⟩ | left
    · cases List.mem_singleton.mp member
      exact ⟨_, List.mem_singleton_self _, below⟩
    · rw [(subset_literal_iff left v).mp below] at member
      cases member
  · rcases a.literal_or_other with ⟨u, rfl⟩ | left
    · cases List.mem_singleton.mp member
      rw [subset_literal_left u right, subset_resolved_branch] at below
      obtain ⟨t, there, under⟩ := below
      rw [← subset_literal_resolved] at under
      exact ⟨.resolved t, there, under⟩
    · exact (subset_iff_branches left right).mp below branch member

theorem exists_branches_below {a b : Ty} (branches : a.branches ≠ []) (below : subset a b = true) :
    ∃ branch ∈ a.branches, ∃ other ∈ b.branches, subset branch other = true := by
  obtain ⟨branch, member⟩ := List.exists_mem_of_ne_nil _ branches
  exact ⟨branch, member, exists_branch_over below member⟩

/-- What is below matches, for types of joint height below `n`. -/
def MatchBelow (n : Nat) : Prop :=
  ∀ {a b : Ty}, a.Filled → b.Filled → a.height + b.height < n → subset a b = true →
    typesMatch a b = true

variable {n : Nat}

theorem MatchBelow.each (ih : MatchBelow n) {as bs : List Ty} (fillA : ∀ a ∈ as, a.Filled)
    (fillB : ∀ b ∈ bs, b.Filled) (low : ∀ a ∈ as, ∀ b ∈ bs, a.height + b.height < n)
    (below : List.Forall₂ (fun a b => subset a b = true) as bs) : ∃ tys, MeetsEach as bs tys := by
  induction below with
  | nil => exact ⟨[], .nil⟩
  | @cons a b as bs first rest step =>
      rw [List.forall_mem_cons] at fillA fillB
      have matched := ih fillA.1 fillB.1 (low a List.mem_cons_self b List.mem_cons_self) first
      obtain ⟨ty, found⟩ := Option.isSome_iff_exists.mp matched
      obtain ⟨tys, others⟩ := step fillA.2 fillB.2 fun a inA b inB =>
        low a (List.mem_cons_of_mem _ inA) b (List.mem_cons_of_mem _ inB)
      exact ⟨ty :: tys, .cons found others⟩

theorem MatchBelow.shapes (ih : MatchBelow n) {s t : Shape} (fillS : (Ty.resolved s).Filled)
    (fillT : (Ty.resolved t).Filled) (low : s.height + t.height ≤ n) (below : ShapeBelow s t) :
    ∃ shape, ShapeMeet s t shape := by
  have lower : ∀ a ∈ s.parts, ∀ b ∈ t.parts, a.height + b.height < n := by
    intro a inS b inT
    have left := Shape.height_of_mem_parts inS
    have right := Shape.height_of_mem_parts inT
    omega
  have filledS : ∀ a ∈ s.parts, a.Filled := fun a member => fillS.part member
  have filledT : ∀ b ∈ t.parts, b.Filled := fun b member => fillT.part member
  cases below with
  | number => exact ⟨_, .number⟩
  | text => exact ⟨_, .text⟩
  | logic => exact ⟨_, .logic⟩
  | void => exact ⟨_, .void⟩
  | named parameters => exact ⟨_, .named (.named parameters)⟩
  | @function ps rs a b parameters result =>
      simp only [Shape.parts, List.forall_mem_cons] at lower filledS filledT
      have types : List.Forall₂ (fun a b => subset a b = true) (ps.map (·.ty)) (rs.map (·.ty)) := by
        rw [List.forall₂_map_left_iff, List.forall₂_map_right_iff]
        exact parameters.imp fun p r equal => ((typeEqual_iff p.ty r.ty).mp equal.2).1
      obtain ⟨tys, each⟩ := ih.each filledS.2 filledT.2 (fun a inA => (lower.2 a inA).2) types
      have matched := ih filledS.1 filledT.1 lower.1.1 result
      obtain ⟨ty, found⟩ := Option.isSome_iff_exists.mp matched
      exact ⟨_, .function each found⟩
  | @list a b element =>
      have matched := ih (filledS a List.mem_cons_self) (filledT b List.mem_cons_self)
        (lower a List.mem_cons_self b List.mem_cons_self) element
      obtain ⟨ty, found⟩ := Option.isSome_iff_exists.mp matched
      exact ⟨_, .list found⟩
  | tuple elements =>
      obtain ⟨tys, each⟩ := ih.each filledS filledT lower elements
      exact ⟨_, .tuple each⟩
  | @dictionary entries required fields =>
      -- a key that is required is there, and stays
      obtain ⟨key, needed, member⟩ := fillT.exists_entry
      obtain ⟨field, found, matched⟩ := fields key needed member
      obtain ⟨ty, common⟩ := Option.isSome_iff_exists.mp matched
      have shared : (key, ty) ∈ commonFields entries required := by
        refine List.mem_filterMap.mpr ⟨(key, needed), member, ?_⟩
        simp only [found, common, Option.bind_some, Option.map_some]
      exact ⟨_, .dictionary (List.ne_nil_of_mem shared)⟩

/-- Equal shapes pass the ground step too: each field matches the one it is equal to. -/
theorem MatchBelow.ground (ih : MatchBelow n) {s t : Shape} (fillS : (Ty.resolved s).Filled)
    (fillT : (Ty.resolved t).Filled) (low : s.height + t.height ≤ n)
    (either : (s == t) = true ∨ ShapeBelow s t) : ShapeBelow s t := by
  rcases either with same | below
  · cases s with
    | dictionary entries =>
        cases (@Precision.shape_iff .equality _ t).mp same with
        | @dictionary _ others equal =>
            refine .dictionary fun key needed member => ?_
            have lookups := BEq.symm (get?_equal equal key)
            rw [Keyed.get?_of_mem fillT.sorted member] at lookups
            obtain ⟨field, found, alike⟩ := exists_equal_some lookups
            have inS : field ∈ (Shape.dictionary entries).parts :=
              List.mem_map_of_mem (Keyed.mem_of_get? found)
            have inT : needed ∈ (Shape.dictionary others).parts := List.mem_map_of_mem member
            have left := Shape.height_of_mem_parts inS
            have right := Shape.height_of_mem_parts inT
            refine ⟨field, found, ih (fillS.part inS) (fillT.part inT) (by omega) ?_⟩
            exact subset_of_equal (BEq.symm alike)
    | _ => exact ShapeBelow.of_equal same nofun
  · exact below

theorem MatchBelow.single (ih : MatchBelow n) {a b : Ty} (fillA : a.Filled) (fillB : b.Filled)
    (low : a.height + b.height < n + 1) (singleA : a.isUnion = false) (singleB : b.isUnion = false)
    (below : subset a b = true) : typesMatch a b = true := by
  change (meet a b).isSome = true
  cases a with
  | union parts => cases singleA
  | literal u =>
      cases b with
      | union parts => cases singleB
      | literal v =>
          obtain ⟨payloads, shapes⟩ := (subset_literals_iff u v).mp below
          simp only [Ty.height, Value.height_eq] at low
          have ground := ih.ground fillA.carrier fillB.carrier (by omega) shapes
          rw [meet_literals, if_pos ((valueEqual_iff u v).mpr ⟨ground, payloads⟩)]
          rfl
      | resolved t => rw [meet_literal_resolved, if_pos below]; rfl
  | resolved s =>
      cases b with
      | union parts => cases singleB
      | literal v => exact absurd ((not_subset_literal s v).symm.trans below) Bool.false_ne_true
      | resolved t =>
          have ground := ih.ground fillA fillB (Nat.le_of_lt_succ low)
            ((subset_resolved_iff s t).mp below)
          obtain ⟨shape, meets⟩ := ih.shapes fillA fillB (Nat.le_of_lt_succ low) ground
          rw [(meet_resolved_iff s t (.resolved shape)).mpr ⟨shape, rfl, meets⟩]
          rfl

theorem matchBelow (n : Nat) : MatchBelow n := by
  induction n with
  | zero => exact fun _ _ low => absurd low (Nat.not_lt_zero _)
  | succ n ih =>
      intro a b fillA fillB low below
      by_cases union : a.isUnion = true ∨ b.isUnion = true
      · obtain ⟨branch, inA, other, inB, under⟩ :=
          exists_branches_below (Ty.branches_ne_nil fillA.full) below
        have lower : branch.height + other.height < n := by
          have left := Ty.height_of_mem_branches inA
          have right := Ty.height_of_mem_branches inB
          rcases union with unionA | unionB
          · have less := Ty.height_of_mem_union unionA inA
            omega
          · have less := Ty.height_of_mem_union unionB inB
            omega
        rw [typesMatch_iff]
        exact ⟨branch, inA, other, inB, ih (fillA.branch inA) (fillB.branch inB) lower under⟩
      · simp only [not_or, Bool.not_eq_true] at union
        exact ih.single fillA fillB low union.1 union.2 below

theorem typesMatch_of_subset {a b : Ty} (fillA : a.Filled) (fillB : b.Filled)
    (below : subset a b = true) : typesMatch a b = true :=
  matchBelow _ fillA fillB (Nat.lt_succ_self _) below

theorem typesMatch_self {a : Ty} (filled : a.Filled) : typesMatch a a = true :=
  typesMatch_of_subset filled filled (subset_refl a)

end Reference

abbrev FilledTy := { ty : Ty // ty.Filled }

/-- What is below a type matches it if nothing in the two is empty. So a type matches itself,
and a call does not refuse an argument that is below its parameter. Contexts agree if the match,
or the check of the call, meets no cutoff. -/
theorem subset_implies_match [PairKey] (a b : FilledTy) :
    (Reference.subset a.1 b.1 = true → Reference.typesMatch a.1 b.1 = true) ∧
    Reference.typesMatch a.1 a.1 = true ∧
    (∀ callee args index, args[index]? = some a.1 → callee.parameter index = some b.1 →
      Reference.subset a.1 b.1 = true →
      ¬ RefusesArgument index (Check.call Reference.queries callee args).run.run) ∧
    ∀ first second : Context, first.Reached → second.Reached →
      (first.Affirms (.subset a.1 b.1) → second.Settles (.typesMatch a.1 b.1) →
        second.Affirms (.typesMatch a.1 b.1)) ∧
      (second.Settles (.typesMatch a.1 a.1) → second.Affirms (.typesMatch a.1 a.1)) ∧
      ∀ callee args index, args[index]? = some a.1 → callee.parameter index = some b.1 →
        first.Affirms (.subset a.1 b.1) → second.SettlesCall callee args →
        ¬ RefusesArgument index ((Check.call Query.queries callee args).run.run second).1 := by
  have matched := Reference.typesMatch_of_subset a.2 b.2
  have self := Reference.typesMatch_self a.2
  refine ⟨matched, self, ?_, ?_⟩
  · intro callee args index given found below
    exact Check.call_accepts_matched given found (matched below)
  · intro first second reached reachedSecond
    have plain : first.Affirms (.subset a.1 b.1) → Reference.subset a.1 b.1 = true :=
      reached.plain_of_affirms rfl
    refine ⟨?_, ?_, ?_⟩
    · intro affirms settles
      exact reachedSecond.affirms_of_plain settles (matched (plain affirms))
    · intro settles
      exact reachedSecond.affirms_of_plain settles self
    · intro callee args index given found affirms settles
      rw [reachedSecond.call_plain settles]
      exact Check.call_accepts_matched given found (matched (plain affirms))

def Ty.lines : Ty := .resolved (.dictionary [("id", .number), ("lines", .list .text)])

def FilledTy.request : FilledTy := ⟨.union [.void, .union [.lines]], ⟨by decide, by decide⟩⟩

def FilledTy.order : FilledTy :=
  ⟨.resolved (.dictionary [("id", .two), ("lines", .list .numberOrText), ("note", .text)]),
    ⟨by decide, by decide⟩⟩

def Ty.receivers : Ty :=
  .union [.function [⟨"request", .void, none⟩] .void,
    .union [.function [⟨"request", .lines, none⟩] .logic]]

/-- The order is below the request although its lines are not below the lines requested. -/
theorem subset_implies_match_order :
    let context := Context.new ⟨true, 8, 1⟩
    Reference.subset (.list .numberOrText) (.list .text) = false ∧
    context.Affirms (.subset FilledTy.order.1 FilledTy.request.1) ∧
    context.Settles (.typesMatch FilledTy.order.1 FilledTy.request.1) ∧
    context.Affirms (.typesMatch FilledTy.order.1 FilledTy.request.1) ∧
    context.Settles (.typesMatch FilledTy.order.1 FilledTy.order.1) ∧
    context.Affirms (.typesMatch FilledTy.order.1 FilledTy.order.1) ∧
    Ty.receivers.parameter 0 = some FilledTy.request.1 ∧
    context.SettlesCall .receivers [FilledTy.order.1] ∧
    ¬ RefusesArgument 0
      ((Check.call Query.queries .receivers [FilledTy.order.1]).run.run context).1 := by
  intro context
  have reached : context.Reached := Context.reached_new ⟨true, 8, 1⟩
  have below : context.Affirms (.subset FilledTy.order.1 FilledTy.request.1) := by cbv
  have settles : context.Settles (.typesMatch FilledTy.order.1 FilledTy.request.1) := by cbv
  have settlesSelf : context.Settles (.typesMatch FilledTy.order.1 FilledTy.order.1) := by cbv
  have parameter : Ty.receivers.parameter 0 = some FilledTy.request.1 := by cbv
  have settlesCall : context.SettlesCall .receivers [FilledTy.order.1] := by cbv
  obtain ⟨-, -, -, contexts⟩ := subset_implies_match .order .request
  obtain ⟨matched, self, accepted⟩ := contexts context context reached reached
  exact ⟨by cbv, below, settles, matched below settles, settlesSelf, self settlesSelf, parameter,
    settlesCall, accepted _ _ 0 rfl parameter below settlesCall⟩

end StructuralTypes
