import StructuralTypes.Proofs.Samples
import StructuralTypes.Proofs.ValueEquality

/-!
Reducing a union, in any order of its branches. A fold of meets over ordinary types stays with
ordinary types, so it finds something exactly if the types have a sample in common, and a sample is
common to a list in any order. A single type is left as it is, also where it has no sample.
-/

namespace StructuralTypes

namespace Reference

variable {literals : Literals} {a b i : Ty}

theorem MeetsEach.exists_of_mem {as bs tys : List Ty} (meets : MeetsEach as bs tys) {ty : Ty}
    (member : ty ∈ tys) : ∃ a ∈ as, ∃ b ∈ bs, meet a b = some ty := by
  induction meets with
  | nil => cases member
  | @cons a b _ as bs _ first _ ih =>
      rcases List.mem_cons.mp member with rfl | later
      · exact ⟨a, List.mem_cons_self, b, List.mem_cons_self, first⟩
      · obtain ⟨x, inA, y, inB, found⟩ := ih later
        exact ⟨x, List.mem_cons_of_mem _ inA, y, List.mem_cons_of_mem _ inB, found⟩

theorem ordinary_collapse {parts : List Ty} (each : ∀ part ∈ parts, part.Ordinary literals)
    (collapsed : Ty.collapse parts = some i) : i.Ordinary literals := by
  induction parts generalizing i with
  | nil => cases collapsed
  | cons first rest ih =>
      obtain ⟨head, tail⟩ := List.forall_mem_cons.mp each
      simp only [Ty.collapse] at collapsed
      split at collapsed
      · cases collapsed
        exact head
      · next others found =>
          cases collapsed
          refine .union fun part member => ?_
          rcases List.mem_pair.mp member with rfl | rfl
          · exact head
          · exact ih tail found

theorem ordinary_of_branches (met : meet a b = some i)
    (each : ∀ x ∈ a.branches, ∀ y ∈ b.branches, ∀ ty, meet x y = some ty → ty.Ordinary literals) :
    i.Ordinary literals := by
  rw [meet_eq_collapse] at met
  refine ordinary_collapse (fun ty member => ?_) met
  obtain ⟨x, inA, y, inB, found⟩ := mem_branchMeets.mp member
  exact each x inA y inB ty found

theorem ordinary_of_literal {u : Value} (ordinary : (Ty.literal u).Ordinary literals)
    (met : meet (.literal u) b = some i) : i.Ordinary literals := by
  refine ordinary_of_branches met fun x inU y inB ty found => ?_
  cases List.mem_singleton.mp inU
  cases y with
  | union parts => cases Ty.isUnion_of_mem_branches inB
  | literal v =>
      rw [meet_literals, Option.ite_none_right_eq_some] at found
      exact Option.some.inj found.2 ▸ ordinary
  | resolved t =>
      rw [meet_literal_resolved, Option.ite_none_right_eq_some] at found
      exact Option.some.inj found.2 ▸ ordinary

theorem ordinary_of_shapes {s : Shape} (ordinary : b.Ordinary literals)
    (shapes : ∀ t shape, (Ty.resolved t).Ordinary literals → ShapeMeet s t shape →
      (Ty.resolved shape).Ordinary literals)
    (met : meet (.resolved s) b = some i) : i.Ordinary literals := by
  refine ordinary_of_branches met fun x inS y inB ty found => ?_
  cases List.mem_singleton.mp inS
  cases y with
  | union parts => cases Ty.isUnion_of_mem_branches inB
  | literal v =>
      rw [meet_resolved_literal, Option.ite_none_right_eq_some] at found
      exact Option.some.inj found.2 ▸ ordinary.branch inB
  | resolved t =>
      obtain ⟨shape, rfl, step⟩ := (meet_resolved_iff s t ty).mp found
      exact shapes t shape (ordinary.branch inB) step

theorem ordinary_meet (ordinaryA : a.Ordinary literals) (ordinaryB : b.Ordinary literals)
    (met : meet a b = some i) : i.Ordinary literals := by
  induction ordinaryA generalizing b i with
  | literal member => exact ordinary_of_literal (.literal member) met
  | union _ ih =>
      refine ordinary_of_branches met fun x inA y inB ty found => ?_
      obtain ⟨part, inside, there⟩ := Ty.mem_branches_of_union.mp inA
      -- the part and the branch meet in a type with this branch
      have pair : y ∈ y.branches := by
        rw [Ty.branches_of_single (Ty.isUnion_of_mem_branches inB)]
        exact List.mem_cons_self
      obtain ⟨j, step, member⟩ := exists_mem_meet_iff.mpr ⟨x, there, y, pair, found⟩
      exact (ih part inside (ordinaryB.branch inB) step).branch member
  | primitive primitive =>
      refine ordinary_of_shapes ordinaryB (fun t shape _ step => ?_) met
      cases step <;> first | exact .primitive rfl | cases primitive
  | named free =>
      refine ordinary_of_shapes ordinaryB (fun t shape _ step => ?_) met
      cases step with
      | named _ => exact .named free
  | function _ _ each whole =>
      refine ordinary_of_shapes ordinaryB (fun t shape ordinaryT step => ?_) met
      cases step with
      | function parameters result =>
          refine .function ?_ (whole ordinaryT.result result)
          rw [parameters.map_ty]
          intro ty member
          obtain ⟨x, inX, y, inY, found⟩ := parameters.exists_of_mem member
          exact each x inX (ordinaryT.arguments y inY) found
  | list _ ih =>
      refine ordinary_of_shapes ordinaryB (fun t shape ordinaryT step => ?_) met
      cases step with
      | list element => exact .list (ih ordinaryT.element element)
  | tuple _ ih =>
      refine ordinary_of_shapes ordinaryB (fun t shape ordinaryT step => ?_) met
      cases step with
      | tuple elements =>
          refine .tuple fun ty member => ?_
          obtain ⟨x, inX, y, inY, found⟩ := elements.exists_of_mem member
          exact ih x inX (ordinaryT.elements y inY) found
  | dictionary _ _ ih =>
      refine ordinary_of_shapes ordinaryB (fun t shape ordinaryT step => ?_) met
      cases step with
      | dictionary _ =>
          refine .dictionary (sorted_commonFields ordinaryT.sorted) fun key ty member => ?_
          obtain ⟨field, other, inside, found, common⟩ := mem_commonFields.mp member
          exact ih key field (Keyed.mem_of_get? found) (ordinaryT.field inside) common

theorem common_meet_iff (ordinaryA : a.Ordinary literals) (ordinaryB : b.Ordinary literals)
    (met : meet a b = some i) (rest : List Ty) (w : Sample) :
    (∀ ty ∈ i :: rest, w.In literals ty) ↔ ∀ ty ∈ a :: b :: rest, w.In literals ty := by
  have law : w.In literals i ↔ w.In literals a ∧ w.In literals b := by
    rw [← w.divides ordinaryA ordinaryB, met]
    simp
  simp only [List.forall_mem_cons, law, and_assoc]

/-- A fold of meets over ordinary types finds something if they have a sample in common, and over
one type always. -/
theorem meetFrom_isSome_iff {rest : List Ty} (ordinary : ∀ ty ∈ a :: rest, ty.Ordinary literals) :
    (Rules.meetFrom queries a rest).run.isSome = true ↔
      rest = [] ∨ ∃ w : Sample, ∀ ty ∈ a :: rest, w.In literals ty := by
  induction rest generalizing a with
  | nil => simp [Rules.meetFrom]
  | cons b rest ih =>
      obtain ⟨ordinaryA, others⟩ := List.forall_mem_cons.mp ordinary
      obtain ⟨ordinaryB, later⟩ := List.forall_mem_cons.mp others
      rw [meetFrom_cons]
      cases met : meet a b with
      | none =>
          have apart : ¬ ∃ w : Sample, ∀ ty ∈ a :: b :: rest, w.In literals ty := by
            rintro ⟨w, common⟩
            obtain ⟨i, found, -⟩ := (w.divides ordinaryA ordinaryB).mpr
              ⟨common a List.mem_cons_self, common b (List.mem_cons_of_mem _ List.mem_cons_self)⟩
            rw [met] at found
            cases found
          simp only [Option.bind_none, Option.isSome_none, Bool.false_eq_true, List.cons_ne_nil,
            false_or, apart]
      | some i =>
          have step := common_meet_iff ordinaryA ordinaryB met rest
          have ordinaryI := List.forall_mem_cons.mpr ⟨ordinary_meet ordinaryA ordinaryB met, later⟩
          simp only [Option.bind_some, ih ordinaryI, step, List.cons_ne_nil, false_or]
          constructor
          · rintro (rfl | common)
            -- at the end of the list the two have a sample because they match
            · obtain ⟨w, left, right⟩ := Sample.common_of_typesMatch ordinaryA ordinaryB
                (typesMatch_iff_meet.mpr ⟨i, met⟩)
              exact ⟨w, by simp [left, right]⟩
            · exact common
          · exact .inr

theorem reduce_isSome_iff (ordinary : a.Ordinary literals) :
    (reduce a).isSome = true ↔ a.branches.length = 1 ∨
      a.branches ≠ [] ∧ ∃ w : Sample, ∀ branch ∈ a.branches, w.In literals branch := by
  have each : ∀ branch ∈ a.branches, branch.Ordinary literals := fun _ => ordinary.branch
  rw [reduce, Rules.reduce_eq]
  cases branches : a.branches with
  | nil => simp
  | cons first rest =>
      rw [branches] at each
      rw [meetFrom_isSome_iff each]
      simp

end Reference

theorem Ty.branches_union_perm {as bs : List Ty} (perm : as.Perm bs) :
    (Ty.union as).branches.Perm (Ty.union bs).branches := by
  simp only [Ty.branches, Ty.branchesOf_eq_flatMap]
  exact perm.flatMap_right Ty.branches

/-- Whether ordinary types reduce to a type does not depend on their order. -/
theorem reduction_in_any_order [PairKey] (literals : Literals) {as bs : List Ty}
    (ordinary : ∀ ty ∈ as, ty.Ordinary literals) (perm : as.Perm bs) :
    (Question.reduce (.union as)).Concordant (.reduce (.union bs)) := by
  rw [Question.concordant_iff, Bool.eq_iff_iff]
  have first := Reference.reduce_isSome_iff (Ty.Ordinary.union ordinary)
  have second := Reference.reduce_isSome_iff
    (Ty.Ordinary.union fun ty member => ordinary ty (perm.mem_iff.mpr member))
  have branches := Ty.branches_union_perm perm
  refine first.trans (Iff.trans ?_ second.symm)
  simp only [branches.length_eq, branches.mem_iff, ← List.length_pos_iff_ne_nil]

def Literals.readings : Literals where
  mem | ⟨_, shape⟩ => shape.isPrimitive = true ∨ shape = .list .number
  solid := by
    rintro ⟨_, s⟩ (primitive | rfl)
    · exact .primitive primitive
    · exact .list (.primitive rfl)
  undirected := by
    rintro ⟨_, s⟩ ⟨_, t⟩ (primitive | rfl) (other | rfl) _ below
    · cases Reference.eq_of_primitive below primitive
      exact below
    · cases Reference.eq_of_primitive below primitive
      exact below
    · cases Reference.shapeBelow_of_solid (.list (.primitive rfl)) below
      cases other
    · exact below

namespace Ty

def tagged : Ty := .resolved (.dictionary [("id", .numberOrText), ("tags", .list .text)])

def measured : Ty :=
  .resolved (.dictionary [("id", .two), ("readings", .literal (.noneOf .number))])

def registered : Ty :=
  .union [.resolved (.dictionary [("id", .number), ("readings", .list .numberOrText)]),
    .union [.tagged]]

theorem ordinary_numberOrText : Ty.numberOrText.Ordinary .readings := by
  apply Ordinary.union
  rintro part (_ | ⟨_, _ | ⟨_, ⟨⟩⟩⟩)
  · exact .primitive rfl
  · exact .primitive rfl

theorem ordinary_tagged : Ty.tagged.Ordinary .readings := by
  apply Ordinary.dictionary (by decide)
  rintro key field (_ | ⟨_, _ | ⟨_, ⟨⟩⟩⟩)
  · exact ordinary_numberOrText
  · exact .list (.primitive rfl)

theorem ordinary_measured : Ty.measured.Ordinary .readings := by
  apply Ordinary.dictionary (by decide)
  rintro key field (_ | ⟨_, _ | ⟨_, ⟨⟩⟩⟩)
  · exact .literal (.inl rfl)
  · exact .literal (.inr rfl)

theorem ordinary_registered : Ty.registered.Ordinary .readings := by
  apply Ordinary.union
  rintro part (_ | ⟨_, _ | ⟨_, ⟨⟩⟩⟩)
  · apply Ordinary.dictionary (by decide)
    rintro key field (_ | ⟨_, _ | ⟨_, ⟨⟩⟩⟩)
    · exact .primitive rfl
    · exact .list ordinary_numberOrText
  · exact .union (List.forall_mem_singleton.mpr ordinary_tagged)

theorem perm_last (x y z : Ty) : [x, y, z].Perm [z, x, y] := List.perm_append_singleton z [x, y]

end Ty

section

open Ty

theorem reduction_in_any_order_readings :
    let context := Context.new ⟨false, 8, 0⟩
    let one := [tagged, measured, registered]
    let other := [registered, tagged, measured]
    (∀ ty ∈ one, ty.Ordinary .readings) ∧ one.Perm other ∧
    context.Settles (.reduce (.union one)) ∧ context.Settles (.reduce (.union other)) ∧
    context.Affirms (.reduce (.union one)) ∧ context.Affirms (.reduce (.union other)) := by
  intro context one other
  have ordinary : ∀ ty ∈ [tagged, measured, registered], ty.Ordinary .readings := by
    rintro ty (_ | ⟨_, _ | ⟨_, _ | ⟨_, ⟨⟩⟩⟩⟩)
    · exact ordinary_tagged
    · exact ordinary_measured
    · exact ordinary_registered
  have perm : one.Perm other := perm_last tagged measured registered
  have reached : context.Reached := Context.reached_new ⟨false, 8, 0⟩
  have settles : context.Settles (.reduce (.union one)) := by cbv
  have settlesOther : context.Settles (.reduce (.union other)) := by cbv
  have affirms : context.Affirms (.reduce (.union one)) := by cbv
  have both := (reduction_in_any_order .readings ordinary perm).asked context context reached
    reached settles settlesOther
  exact ⟨ordinary, perm, settles, settlesOther, affirms, both.mp affirms⟩

/-- Types that reduce in the one order and not in the other, without a cutoff in either. -/
structure OrderMatters (as bs : List Ty) : Prop where
  perm : as.Perm bs
  reduces : (Reference.reduce (.union as)).isSome = true
  fails : (Reference.reduce (.union bs)).isSome = false
  settles : (Context.new ⟨false, 8, 0⟩).Settles (.reduce (.union as))
  settlesOther : (Context.new ⟨false, 8, 0⟩).Settles (.reduce (.union bs))

namespace Ty

def recordOf (field : Ty) : Ty := .resolved (.dictionary [("kept", field)])

def recordWith (key : String) : Ty :=
  .resolved (.dictionary [("kept", .number), (key, .text)])

def countOf (argument : Ty) : Shape := .function [⟨"x", argument, none⟩] .number

end Ty

open Value BasicTy

/-- Each of the conditions is needed: a literal's classifier without records, functions, literals
and empty unions, no direction between two with one payload, and no records in named types. -/
theorem reduction_order_matters :
    let record := Ty.literal (keeping .number (.number ⟨0⟩))
    let count := Ty.literal ⟨.void, countOf .number⟩
    OrderMatters [recordWith "note", recordWith "tag", record]
      [record, recordWith "note", recordWith "tag"] ∧
    OrderMatters [.resolved (countOf .number), .resolved (countOf .numberOrText), count]
      [count, .resolved (countOf .number), .resolved (countOf .numberOrText)] ∧
    OrderMatters [.list .two, .literal (noneOf .two), .list (.union [.number, .number])]
      [.list (.union [.number, .number]), .list .two, .literal (noneOf .two)] ∧
    OrderMatters [.list .number, .literal (noneOf (.union [])), .list .text]
      [.list .text, .list .number, .literal (noneOf (.union []))] ∧
    OrderMatters [.literal (noneOf .number), .literal (noneOf .numberOrText)]
      [.literal (noneOf .numberOrText), .literal (noneOf .number)] ∧
    OrderMatters [box (recordOf .numberOrText), box (recordOf .number), box (recordOf .text)]
      [box (recordOf .text), box (recordOf .numberOrText), box (recordOf .number)] := by
  refine ⟨?_, ?_, ?_, ?_, ?_, ?_⟩
  · exact ⟨perm_last _ _ _, by cbv, by cbv, by cbv, by cbv⟩
  · exact ⟨perm_last _ _ _, by cbv, by cbv, by cbv, by cbv⟩
  · exact ⟨perm_last _ _ _, by cbv, by cbv, by cbv, by cbv⟩
  · exact ⟨perm_last _ _ _, by cbv, by cbv, by cbv, by cbv⟩
  · exact ⟨.swap _ _ _, by cbv, by cbv, by cbv, by cbv⟩
  · exact ⟨perm_last _ _ _, by cbv, by cbv, by cbv, by cbv⟩

end

end StructuralTypes
