import StructuralTypes.Proofs.Overlap

/-!
Widening a type does not break its matches. To be below and to match are decided by rules of
their own, and the argument follows both down three types at once: unions come down to three of
their branches and shapes to their parts. It rests on literals being of primitive types, so that
both sides of a match have the classifier that a literal widens to, and on the absence of
dictionaries, which may widen to one without keys and then match nothing.
-/

namespace StructuralTypes

namespace Ty

structure Simple (a : Ty) : Prop where
  literals : a.everywhere primitiveLiteral = true
  free : a.dictionaryFree = true

theorem dictionaryFree_of_mem_parts {a part : Ty} (free : a.dictionaryFree = true)
    (member : part ∈ a.parts) : part.dictionaryFree = true := by
  cases a with
  | literal value =>
      cases List.mem_singleton.mp member
      exact dictionaryFree_literal free
  | union branches => exact dictionaryFree_of_mem free member
  | resolved shape =>
      cases shape with
      | named name ps =>
          obtain ⟨p, inside, rfl⟩ := List.mem_map.mp member
          exact Parameter.dictionaryFree_of_mem free inside
      | function ps result =>
          simp only [dictionaryFree, Shape.dictionaryFree, Bool.and_eq_true] at free
          rcases List.mem_cons.mp member with rfl | parameter
          · exact free.2
          · obtain ⟨p, inside, rfl⟩ := List.mem_map.mp parameter
            exact Parameter.dictionaryFree_of_mem free.1 inside
      | list element =>
          cases List.mem_singleton.mp member
          exact free
      | tuple elements => exact dictionaryFree_of_mem free member
      | dictionary entries => cases free
      | _ => cases member

namespace Simple

variable {a : Ty}

theorem part (simple : a.Simple) {part : Ty} (member : part ∈ a.parts) : part.Simple :=
  ⟨everywhere_of_mem_parts simple.literals member, dictionaryFree_of_mem_parts simple.free member⟩

theorem branch (simple : a.Simple) {branch : Ty} (member : branch ∈ a.branches) : branch.Simple :=
  branch_of_hereditary (fun _ whole _ inside => whole.part inside) simple member

theorem tidy (simple : a.Simple) : a.Tidy := by
  refine ⟨simple.literals, ?_⟩
  induction a using Ty.induction_parts with
  | step a ih =>
      rw [everywhere_iff]
      constructor
      · have free := simple.free
        cases a with
        | resolved shape =>
            cases shape with
            | dictionary entries => cases free
            | _ => rfl
        | _ => rfl
      · exact fun part member => ih part member (simple.part member)

end Simple

end Ty

namespace Reference

variable {n : Nat}

/-- What matches a type matches the types above it, for types of joint height below `n`. -/
def WidensBelow (n : Nat) : Prop :=
  ∀ {a c b : Ty}, a.Simple → c.Simple → b.Simple → a.height + c.height + b.height < n →
    subset a c = true → typesMatch a b = true → typesMatch c b = true

theorem forall₂_widen {as cs bs : List Ty}
    (below : List.Forall₂ (fun a c => subset a c = true) as cs)
    (matched : List.Forall₂ (fun a b => typesMatch a b = true) as bs)
    (widens : ∀ a ∈ as, ∀ c ∈ cs, ∀ b ∈ bs, subset a c = true → typesMatch a b = true →
      typesMatch c b = true) : List.Forall₂ (fun c b => typesMatch c b = true) cs bs := by
  apply forall₂_compose below.flip matched
  intro c inC a inA b inB under holds
  exact widens a inA c inC b inB under holds

theorem WidensBelow.shapes (ih : WidensBelow n) {s r t : Shape} (simpleS : (Ty.resolved s).Simple)
    (simpleR : (Ty.resolved r).Simple) (simpleT : (Ty.resolved t).Simple)
    (low : s.height + r.height + t.height ≤ n) (below : ShapeBelow s r) (matched : ShapeMatch s t) :
    ShapeMatch r t := by
  have widens : ∀ a ∈ s.parts, ∀ c ∈ r.parts, ∀ b ∈ t.parts, subset a c = true →
      typesMatch a b = true → typesMatch c b = true := by
    intro a inS c inR b inT
    have first := Shape.height_of_mem_parts inS
    have second := Shape.height_of_mem_parts inR
    have third := Shape.height_of_mem_parts inT
    exact ih (simpleS.part inS) (simpleR.part inR) (simpleT.part inT) (by omega)
  cases below with
  | number | text | logic | void => exact matched
  | named one =>
      cases matched with
      | named two => exact .named (one.join simpleR.free simpleS.free simpleT.free two)
  | @function ps rs a c one result =>
      cases matched with
      | @function _ ts _ b two met =>
          -- parameters go both ways, and one of them is enough
          have types :
              List.Forall₂ (fun a c => subset a c = true) (ps.map (·.ty)) (rs.map (·.ty)) := by
            rw [List.forall₂_map_left_iff, List.forall₂_map_right_iff]
            exact one.imp fun p r equal => ((typeEqual_iff p.ty r.ty).mp equal.2).1
          have parameters := forall₂_widen types two fun x inP y inR z inT =>
            widens x (List.mem_cons_of_mem _ inP) y (List.mem_cons_of_mem _ inR) z
              (List.mem_cons_of_mem _ inT)
          exact .function parameters (widens a List.mem_cons_self c List.mem_cons_self b
            List.mem_cons_self result met)
  | list one =>
      cases matched with
      | list two =>
          exact .list
            (widens _ List.mem_cons_self _ List.mem_cons_self _ List.mem_cons_self one two)
  | tuple one =>
      cases matched with
      | tuple two => exact .tuple (forall₂_widen one two widens)
  | dictionary fields => cases simpleS.free

/-- Types that are no unions. Where a literal takes part its classifier is all there is, since
nothing else is above or below a primitive type. -/
theorem WidensBelow.single (ih : WidensBelow n) {a c b : Ty} (simpleA : a.Simple)
    (simpleC : c.Simple) (simpleB : b.Simple) (low : a.height + c.height + b.height < n + 1)
    (singleA : a.isUnion = false) (singleC : c.isUnion = false) (singleB : b.isUnion = false)
    (below : subset a c = true) (matched : typesMatch a b = true) : typesMatch c b = true := by
  cases a with
  | union parts => cases singleA
  | literal u =>
      have primitive := Ty.primitive_of_literal simpleA.literals
      cases c with
      | union parts => cases singleC
      | literal v =>
          obtain ⟨payloads, shapes⟩ := (subset_literals_iff u v).mp below
          have same := eq_of_primitive ((subset_resolved_iff _ _).mpr shapes) primitive
          cases b with
          | union parts => cases singleB
          | literal w =>
              rw [typesMatch_literals_iff] at matched ⊢
              exact ⟨same ▸ matched.1, PartialEquivBEq.trans (BEq.symm payloads) matched.2⟩
          | resolved t =>
              rw [typesMatch_literal_resolved] at matched ⊢
              exact same ▸ matched
      | resolved r =>
          rw [subset_literal_resolved] at below
          have same := eq_of_primitive below primitive
          cases b with
          | union parts => cases singleB
          | literal w =>
              have ground := ((typesMatch_literals_iff u w).mp matched).1
              have other := eq_of_primitive (subset_of_ground ground) primitive
              rw [typesMatch_resolved_literal, ← same, ← other]
              exact subset_refl _
          | resolved t =>
              rw [typesMatch_literal_resolved] at matched
              have other := eq_of_primitive matched primitive
              rw [typesMatch_resolved_iff, ← same, ← other]
              exact .of_primitive primitive
  | resolved s =>
      cases c with
      | union parts => cases singleC
      | literal v => exact absurd ((not_subset_literal s v).symm.trans below) Bool.false_ne_true
      | resolved r =>
          cases b with
          | union parts => cases singleB
          | literal w =>
              have primitive := Ty.primitive_of_literal simpleB.literals
              rw [typesMatch_resolved_literal] at matched ⊢
              have same := eq_of_primitive matched primitive
              have other := eq_of_primitive below (same ▸ primitive)
              exact other ▸ matched
          | resolved t =>
              have ground : ShapeBelow s r := by
                rcases (subset_resolved_iff s r).mp below with equal | step
                · apply ShapeBelow.of_equal equal
                  rintro entries rfl
                  cases simpleA.free
                · exact step
              rw [typesMatch_resolved_iff] at matched ⊢
              exact ih.shapes simpleA simpleC simpleB (Nat.le_of_lt_succ low) ground matched

theorem widensBelow (n : Nat) : WidensBelow n := by
  induction n with
  | zero => exact fun _ _ _ low => absurd low (Nat.not_lt_zero _)
  | succ n ih =>
      intro a c b simpleA simpleC simpleB low below matched
      obtain ⟨branch, inA, other, inB, holds⟩ := (typesMatch_iff a b).mp matched
      obtain ⟨above, inC, under⟩ := exists_branch_over below inA
      have first := Ty.height_of_mem_branches inA
      have second := Ty.height_of_mem_branches inC
      have third := Ty.height_of_mem_branches inB
      rw [typesMatch_iff]
      refine ⟨above, inC, other, inB, ?_⟩
      exact ih.single (simpleA.branch inA) (simpleC.branch inC) (simpleB.branch inB) (by omega)
        (Ty.isUnion_of_mem_branches inA) (Ty.isUnion_of_mem_branches inC)
        (Ty.isUnion_of_mem_branches inB) under holds

theorem typesMatch_widen {a c b : Ty} (simpleA : a.Simple) (simpleC : c.Simple) (simpleB : b.Simple)
    (below : subset a c = true) (matched : typesMatch a b = true) :
    typesMatch c b = true ∧ typesMatch b c = true := by
  have widened := widensBelow _ simpleA simpleC simpleB (Nat.lt_succ_self _) below matched
  exact ⟨widened, typesMatch_symm simpleC.tidy simpleB.tidy widened⟩

end Reference

abbrev SimpleTy := { ty : Ty // ty.Simple }

/-- What matches a type matches everything above it, from either side. Contexts agree if the
match asked last meets no cutoff. -/
theorem widening_keeps_match [PairKey] (a c b : SimpleTy) :
    (Reference.subset a.1 c.1 = true → Reference.typesMatch a.1 b.1 = true →
      Reference.typesMatch c.1 b.1 = true ∧ Reference.typesMatch b.1 c.1 = true) ∧
    ∀ first second third : Context, first.Reached → second.Reached → third.Reached →
      first.Affirms (.subset a.1 c.1) → second.Affirms (.typesMatch a.1 b.1) →
      (third.Settles (.typesMatch c.1 b.1) → third.Affirms (.typesMatch c.1 b.1)) ∧
      (third.Settles (.typesMatch b.1 c.1) → third.Affirms (.typesMatch b.1 c.1)) := by
  have widen := Reference.typesMatch_widen a.2 c.2 b.2
  refine ⟨widen, ?_⟩
  intro first second third reached reachedSecond reachedThird below matched
  have plain := widen (reached.plain_of_affirms rfl below)
    (reachedSecond.plain_of_affirms rfl matched)
  constructor
  · intro settles
    exact reachedThird.affirms_of_plain settles plain.1
  · intro settles
    exact reachedThird.affirms_of_plain settles plain.2

namespace SimpleTy

open BasicTy (box)

def pair : SimpleTy := ⟨.tuple [.two, box (.union [.number, .text])], ⟨by decide, by decide⟩⟩

def widePair : SimpleTy :=
  ⟨.union [.logic, .tuple [.number, box (.union [.text, .number])]], ⟨by decide, by decide⟩⟩

def offered : SimpleTy :=
  ⟨.tuple [.union [.literal (.text "hi"), .two],
    .union [.void, box (.union [.union [.text], .number])]], ⟨by decide, by decide⟩⟩

end SimpleTy

section

open SimpleTy

theorem widening_keeps_match_pair :
    let context := Context.new ⟨true, 8, 1⟩
    Reference.subset pair.1 widePair.1 = true ∧ Reference.typesMatch pair.1 offered.1 = true ∧
    Reference.typesMatch widePair.1 offered.1 = true ∧
    Reference.typesMatch offered.1 widePair.1 = true ∧
    context.Affirms (.subset pair.1 widePair.1) ∧ context.Affirms (.typesMatch pair.1 offered.1) ∧
    context.Settles (.typesMatch offered.1 widePair.1) ∧
    context.Affirms (.typesMatch offered.1 widePair.1) := by
  intro context
  have reached : context.Reached := Context.reached_new ⟨true, 8, 1⟩
  have below : Reference.subset pair.1 widePair.1 = true := by cbv
  have matched : Reference.typesMatch pair.1 offered.1 = true := by cbv
  have belowHere : context.Affirms (.subset pair.1 widePair.1) := by cbv
  have matchedHere : context.Affirms (.typesMatch pair.1 offered.1) := by cbv
  have settles : context.Settles (.typesMatch offered.1 widePair.1) := by cbv
  obtain ⟨plain, contexts⟩ := widening_keeps_match pair widePair offered
  obtain ⟨left, right⟩ := plain below matched
  obtain ⟨-, affirms⟩ :=
    contexts context context context reached reached reached belowHere matchedHere
  exact ⟨below, matched, left, right, belowHere, matchedHere, settles, affirms settles⟩

end

end StructuralTypes
