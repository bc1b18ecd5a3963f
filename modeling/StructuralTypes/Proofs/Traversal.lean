import StructuralTypes.Proofs.Projection

/-!
The way of a reading through a type. A reading may keep a state, so it is seen which leaves it is
given and in what order: those of the unions that the type is built of, from left to right, each
once, up to the first that it refuses or up to the first union without branches. If there is
neither, the parts it gave stand in the places of the leaves. The unions are forgotten first: the
walk through a type is a walk along the list of its leaves, and what is called is a question about
that list.
-/

namespace StructuralTypes

namespace Ty

mutual

/-- The leaves that stand before the first union without branches. -/
def reachable : Ty → List Ty
  | .union parts => reachableOf parts
  | .literal value => [.literal value]
  | .resolved shape => [.resolved shape]

def reachableOf : List Ty → List Ty
  | [] => []
  | part :: rest =>
      if part.hollow then reachable part else reachable part ++ reachableOf rest

end

mutual

/-- The same unions, with the types of a list in the places of the leaves, in order. -/
def refilled : Ty → List Ty → Ty
  | .union parts, leaves => .union (refilledAll parts leaves)
  | .literal value, leaves => leaves.headD (.literal value)
  | .resolved shape, leaves => leaves.headD (.resolved shape)

def refilledAll : List Ty → List Ty → List Ty
  | [], _ => []
  | part :: rest, leaves =>
      refilled part (leaves.take part.branches.length) ::
        refilledAll rest (leaves.drop part.branches.length)

end

mutual

theorem reachable_of_full : ∀ {a : Ty}, a.hollow = false → a.reachable = a.branches
  | .literal _, _ => rfl
  | .resolved _, _ => rfl
  | .union parts, full => by
      simp only [hollow, Bool.or_eq_false_iff] at full
      simp only [reachable, branches, reachableOf_of_full full.2]

theorem reachableOf_of_full : ∀ {parts : List Ty}, anyHollow parts = false →
    reachableOf parts = branchesOf parts
  | [], _ => rfl
  | part :: rest, full => by
      simp only [anyHollow, Bool.or_eq_false_iff] at full
      rw [reachableOf, if_neg (Bool.eq_false_iff.mp full.1), branchesOf, reachable_of_full full.1,
        reachableOf_of_full full.2]

end

mutual

theorem reachable_starts_branches : ∀ a : Ty, a.reachable <+: a.branches
  | .literal _ => List.prefix_rfl
  | .resolved _ => List.prefix_rfl
  | .union parts => by
      simp only [reachable, branches]
      exact reachableOf_starts_branchesOf parts

theorem reachableOf_starts_branchesOf : ∀ parts : List Ty, reachableOf parts <+: branchesOf parts
  | [] => List.prefix_rfl
  | part :: rest => by
      rw [reachableOf, branchesOf]
      split
      · exact (reachable_starts_branches part).trans (List.prefix_append _ _)
      · next full =>
          rw [reachable_of_full (Bool.eq_false_iff.mpr full), List.prefix_append_right_inj]
          exact reachableOf_starts_branchesOf rest

end

mutual

theorem refilled_branches : ∀ a : Ty, a.refilled a.branches = a
  | .literal _ => rfl
  | .resolved _ => rfl
  | .union parts => by simp only [refilled, branches, refilledAll_branchesOf parts]

theorem refilledAll_branchesOf : ∀ parts : List Ty, refilledAll parts (branchesOf parts) = parts
  | [] => rfl
  | part :: rest => by
      rw [refilledAll, branchesOf, List.take_left, List.drop_left, refilled_branches,
        refilledAll_branchesOf]

end

mutual

theorem branches_refilled : ∀ (a : Ty) {leaves : List Ty}, leaves.length = a.branches.length →
    (a.refilled leaves).branches = leaves.flatMap branches
  | .literal _, [leaf], _ => by
      simp only [refilled, List.headD_cons, List.flatMap_cons, List.flatMap_nil, List.append_nil]
  | .resolved _, [leaf], _ => by
      simp only [refilled, List.headD_cons, List.flatMap_cons, List.flatMap_nil, List.append_nil]
  | .union parts, leaves, enough => by
      simp only [branches] at enough
      simp only [refilled, branches, branchesOf_refilledAll parts enough]

theorem branchesOf_refilledAll : ∀ (parts : List Ty) {leaves : List Ty},
    leaves.length = (branchesOf parts).length →
    branchesOf (refilledAll parts leaves) = leaves.flatMap branches
  | [], leaves, enough => by
      rw [List.length_eq_zero_iff.mp enough]
      rfl
  | part :: rest, leaves, enough => by
      rw [branchesOf, List.length_append] at enough
      have first : (leaves.take part.branches.length).length = part.branches.length := by
        rw [List.length_take]
        omega
      have others : (leaves.drop part.branches.length).length = (branchesOf rest).length := by
        rw [List.length_drop]
        omega
      rw [refilledAll, branchesOf, branches_refilled part first, branchesOf_refilledAll rest others,
        ← List.flatMap_append, List.take_append_drop]

end

end Ty

namespace Reading

open Ty

variable {σ : Type} (read : Ty → StateM σ (Option Ty))

def consult : List Ty → StateM σ (Option (List Ty))
  | [] => pure (some [])
  | leaf :: rest => do
      match ← read leaf with
      | none => pure none
      | some part =>
          match ← consult rest with
          | none => pure none
          | some parts => pure (some (part :: parts))

/-- From one state to the other, the reading gives a part for each leaf of a list. -/
inductive Accepts : σ → List Ty → List Ty → σ → Prop where
  | none (s : σ) : Accepts s [] [] s
  | next {s t u : σ} {leaf part : Ty} {leaves parts : List Ty}
      (given : (read leaf).run s = (some part, t)) (rest : Accepts t leaves parts u) :
      Accepts s (leaf :: leaves) (part :: parts) u

/-- What a reading is given of a type, in order, the answer that comes of it and the last state. -/
inductive Traversal (a : Ty) (s : σ) : List Ty → Option Ty → σ → Prop where
  -- a leaf is refused, and none after it is looked at
  | refused {before after parts : List Ty} {leaf : Ty} {t u : σ}
      (order : a.reachable = before ++ leaf :: after) (accepted : Accepts read s before parts t)
      (refusal : (read leaf).run t = (none, u)) : Traversal a s (before ++ [leaf]) none u
  -- an empty union is reached
  | gap {parts : List Ty} {t : σ} (hollow : a.hollow = true)
      (accepted : Accepts read s a.reachable parts t) : Traversal a s a.reachable none t
  | complete {parts : List Ty} {t : σ} (full : a.hollow = false)
      (accepted : Accepts read s a.branches parts t) :
      Traversal a s a.branches (some (a.refilled parts)) t

def noted (leaf : Ty) : StateM (σ × List Ty) (Option Ty) := fun (s, calls) =>
  let (part, t) := (read leaf).run s
  (part, t, calls ++ [leaf])

variable {read}

theorem bind_run {α β : Type} (x : StateM σ α) (f : α → StateM σ β) (s : σ) :
    (x >>= f).run s = (f (x.run s).1).run (x.run s).2 := rfl

theorem consult_next {leaf part : Ty} {s t : σ} (given : (read leaf).run s = (some part, t))
    (rest : List Ty) : (consult read (leaf :: rest)).run s =
      (((consult read rest).run t).1.map (part :: ·), ((consult read rest).run t).2) := by
  rw [consult, bind_run, given]
  simp only [bind_run]
  cases ((consult read rest).run t).1 <;> rfl

theorem consult_refused {leaf : Ty} {s t : σ} (refusal : (read leaf).run s = (none, t))
    (rest : List Ty) : (consult read (leaf :: rest)).run s = (none, t) := by
  rw [consult, bind_run, refusal]
  rfl

theorem accepts_iff {s t : σ} {leaves parts : List Ty} :
    Accepts read s leaves parts t ↔ (consult read leaves).run s = (some parts, t) := by
  constructor
  · intro accepted
    induction accepted with
    | none s => rfl
    | next given _ ih => rw [consult_next given, ih]; rfl
  · intro consulted
    induction leaves generalizing s parts with
    | nil =>
        cases consulted
        exact .none _
    | cons leaf rest ih =>
        rcases called : (read leaf).run s with ⟨_ | part, u⟩
        · rw [consult_refused called] at consulted
          cases consulted
        · rw [consult_next called] at consulted
          obtain ⟨found, state⟩ := Prod.mk.inj consulted
          obtain ⟨others, later, rfl⟩ := Option.map_eq_some_iff.mp found
          exact .next called (ih (Prod.ext later state))

theorem consult_eq_none_iff {s u : σ} {leaves : List Ty} :
    (consult read leaves).run s = (none, u) ↔ ∃ before leaf after parts t,
      leaves = before ++ leaf :: after ∧ Accepts read s before parts t ∧
        (read leaf).run t = (none, u) := by
  constructor
  · intro consulted
    induction leaves generalizing s with
    | nil => cases consulted
    | cons leaf rest ih =>
        rcases called : (read leaf).run s with ⟨_ | part, t⟩
        · rw [consult_refused called] at consulted
          cases consulted
          exact ⟨[], leaf, rest, [], s, rfl, .none s, called⟩
        · rw [consult_next called] at consulted
          obtain ⟨found, state⟩ := Prod.mk.inj consulted
          obtain ⟨before, last, after, parts, v, rfl, accepted, refusal⟩ :=
            ih (Prod.ext (Option.map_eq_none_iff.mp found) state)
          exact ⟨leaf :: before, last, after, part :: parts, v, rfl, .next called accepted, refusal⟩
  · rintro ⟨before, leaf, after, parts, t, rfl, accepted, refusal⟩
    induction accepted with
    | none s => exact consult_refused refusal after
    | next given _ ih => rw [List.cons_append, consult_next given, ih refusal]; rfl

theorem Accepts.length {s t : σ} {leaves parts : List Ty}
    (accepted : Accepts read s leaves parts t) : parts.length = leaves.length := by
  induction accepted with
  | none s => rfl
  | next _ _ ih => rw [List.length_cons, List.length_cons, ih]

theorem consult_append {s t : σ} {leaves parts : List Ty}
    (accepted : Accepts read s leaves parts t) (rest : List Ty) :
    (consult read (leaves ++ rest)).run s =
      (((consult read rest).run t).1.map (parts ++ ·), ((consult read rest).run t).2) := by
  induction accepted with
  | none s =>
      simp only [List.nil_append, Option.map_id']
      rfl
  | next given _ ih =>
      rw [List.cons_append, consult_next given, ih, Option.map_map]
      rfl

theorem consult_single (leaf : Ty) (s : σ) : (read leaf).run s =
    (((consult read [leaf]).run s).1.bind fun parts => some (parts.headD leaf),
      ((consult read [leaf]).run s).2) := by
  rcases called : (read leaf).run s with ⟨_ | part, t⟩
  · rw [consult_refused called]
    rfl
  · rw [consult_next called]
    rfl

mutual

theorem projectM_run : ∀ (a : Ty) (s : σ), (a.projectM read).run s =
    (((consult read a.reachable).run s).1.bind fun parts =>
      if a.hollow then none else some (a.refilled parts), ((consult read a.reachable).run s).2)
  | .literal value, s => consult_single (.literal value) s
  | .resolved shape, s => consult_single (.resolved shape) s
  | .union [], s => rfl
  | .union (first :: rest), s => by
      simp only [projectM, bind_run, projectAllM_run (first :: rest) s]
      simp only [reachable, hollow, List.isEmpty_cons, Bool.false_or, refilled]
      cases ((consult read (reachableOf (first :: rest))).run s).1 <;>
        cases anyHollow (first :: rest) <;> rfl

theorem projectAllM_run : ∀ (parts : List Ty) (s : σ), (projectAllM read parts).run s =
    (((consult read (reachableOf parts)).run s).1.bind fun found =>
      if anyHollow parts then none else some (refilledAll parts found),
      ((consult read (reachableOf parts)).run s).2)
  | [], s => rfl
  | part :: rest, s => by
      have head := projectM_run part s
      rw [projectAllM, bind_run, head]
      by_cases empty : part.hollow = true
      -- the walk ends inside the first part
      · simp only [reachableOf, anyHollow, empty, if_pos, Bool.true_or]
        cases ((consult read part.reachable).run s).1 <;> rfl
      · have full : part.hollow = false := Bool.eq_false_iff.mpr empty
        simp only [reachableOf, anyHollow, full, Bool.false_or, if_neg Bool.false_ne_true]
        rcases walked : (consult read part.reachable).run s with ⟨_ | found, t⟩
        · obtain ⟨before, leaf, after, parts, u, order, accepted, refusal⟩ :=
            consult_eq_none_iff.mp walked
          have stopped : (consult read (part.reachable ++ reachableOf rest)).run s = (none, t) :=
            consult_eq_none_iff.mpr ⟨before, leaf, after ++ reachableOf rest, parts, u,
              by rw [order, List.append_assoc, List.cons_append], accepted, refusal⟩
          rw [stopped]
          rfl
        · have accepted := accepts_iff.mpr walked
          have length : found.length = part.branches.length := by
            rw [accepted.length, reachable_of_full full]
          rw [consult_append accepted]
          simp only [Option.bind_some, bind_run, projectAllM_run rest t]
          cases ((consult read (reachableOf rest)).run t).1 with
          | none => rfl
          | some others =>
              simp only [Option.bind_some, Option.map_some, refilledAll, ← length, List.take_left,
                List.drop_left]
              cases anyHollow rest <;> rfl

end

variable {a : Ty} {s t : σ} {calls : List Ty} {answer : Option Ty}

theorem Traversal.run (traversal : Traversal read a s calls answer t) :
    (a.projectM read).run s = (answer, t) := by
  cases traversal with
  | refused order accepted refusal =>
      rw [projectM_run, consult_eq_none_iff.mpr ⟨_, _, _, _, _, order, accepted, refusal⟩]
      rfl
  | gap hollow accepted =>
      rw [projectM_run, accepts_iff.mp accepted]
      simp only [hollow, if_pos, Option.bind_some]
  | complete full accepted =>
      rw [← reachable_of_full full] at accepted
      rw [projectM_run, accepts_iff.mp accepted]
      simp only [full, if_neg Bool.false_ne_true, Option.bind_some]

theorem exists_traversal (read : Ty → StateM σ (Option Ty)) (a : Ty) (s : σ) :
    ∃ calls answer t, Traversal read a s calls answer t := by
  rcases walked : (consult read a.reachable).run s with ⟨_ | parts, t⟩
  · obtain ⟨before, leaf, after, parts, u, order, accepted, refusal⟩ :=
      consult_eq_none_iff.mp walked
    exact ⟨_, _, _, .refused order accepted refusal⟩
  · have accepted := accepts_iff.mpr walked
    by_cases empty : a.hollow = true
    · exact ⟨_, _, _, .gap empty accepted⟩
    · have full := Bool.eq_false_iff.mpr empty
      exact ⟨_, _, _, .complete full (reachable_of_full full ▸ accepted)⟩

theorem noted_eq_iff {leaf : Ty} {p q : σ × List Ty} {part : Option Ty} :
    (noted read leaf).run p = (part, q) ↔
      (read leaf).run p.1 = (part, q.1) ∧ q.2 = p.2 ++ [leaf] := by
  change ((((read leaf).run p.1).1, ((read leaf).run p.1).2, p.2 ++ [leaf]) : _ × _ × _) = _ ↔ _
  rw [Prod.ext_iff, Prod.ext_iff, Prod.ext_iff, and_assoc, eq_comm (a := q.2)]

theorem Accepts.noted {leaves parts : List Ty} (accepted : Accepts read s leaves parts t)
    (before : List Ty) :
    Accepts (noted read) (s, before) leaves parts (t, before ++ leaves) := by
  induction accepted generalizing before with
  | none s =>
      rw [List.append_nil]
      exact .none _
  | @next s t u leaf part leaves parts given _ ih =>
      have later := ih (before ++ [leaf])
      rw [List.append_assoc, List.singleton_append] at later
      exact .next (noted_eq_iff.mpr ⟨given, rfl⟩) later

theorem Traversal.noted (traversal : Traversal read a s calls answer t) :
    Traversal (noted read) a (s, []) calls answer (t, calls) := by
  cases traversal with
  | refused order accepted refusal =>
      exact .refused order (accepted.noted []) (noted_eq_iff.mpr ⟨refusal, rfl⟩)
  | gap hollow accepted => exact .gap hollow (accepted.noted [])
  | complete full accepted => exact .complete full (accepted.noted [])

theorem Traversal.calls_start_branches (traversal : Traversal read a s calls answer t) :
    calls <+: a.branches := by
  cases traversal with
  | @refused before after _ leaf _ _ order accepted refusal =>
      have reached : before ++ [leaf] <+: a.reachable :=
        ⟨after, by rw [order, List.append_assoc, List.singleton_append]⟩
      exact reached.trans (reachable_starts_branches a)
  | gap hollow accepted => exact reachable_starts_branches a
  | complete full accepted => exact List.prefix_rfl

theorem traversal_iff : Traversal read a s calls answer t ↔
    (a.projectM (noted read)).run (s, []) = (answer, t, calls) := by
  constructor
  · exact fun traversal => traversal.noted.run
  · intro run
    obtain ⟨others, other, u, traversal⟩ := exists_traversal read a s
    rw [traversal.noted.run] at run
    cases run
    exact traversal

theorem answer_isSome_iff : ((a.projectM read).run s).1.isSome = true ↔
    a.hollow = false ∧ ∃ parts t, Accepts read s a.branches parts t := by
  constructor
  · intro found
    obtain ⟨calls, answer, t, traversal⟩ := exists_traversal read a s
    rw [traversal.run] at found
    cases traversal with
    | refused => cases found
    | gap => cases found
    | complete full accepted => exact ⟨full, _, _, accepted⟩
  · rintro ⟨full, parts, t, accepted⟩
    rw [(Traversal.complete full accepted).run]
    rfl

end Reading

section

open Reading

/-- A reading with a state, whatever it does, is given a prefix of the leaves of a type, in order:
it ends with the leaf that is refused, or before the first union without branches, or with the last
leaf. The type has the part exactly if no union in it is without branches and no leaf is refused;
then it is the same unions with the parts in the places of the leaves, and so its branches are those
of the parts one after the other. -/
theorem readings_go_leaf_by_leaf {σ : Type} (read : Ty → StateM σ (Option Ty)) (a : Ty) (s : σ) :
    (∀ calls answer t, (a.projectM (noted read)).run (s, []) = (answer, t, calls) ↔
      Traversal read a s calls answer t) ∧
    (∀ calls answer t, Traversal read a s calls answer t →
      (a.projectM read).run s = (answer, t) ∧ calls <+: a.branches) ∧
    (((a.projectM read).run s).1.isSome = true ↔
      a.hollow = false ∧ ∃ parts t, Accepts read s a.branches parts t) ∧
    (∀ parts t, a.hollow = false → Accepts read s a.branches parts t →
      (a.projectM read).run s = (some (a.refilled parts), t) ∧
      (a.refilled parts).branches = parts.flatMap Ty.branches) ∧
    a.refilled a.branches = a := by
  refine ⟨fun calls answer t => traversal_iff.symm, fun calls answer t traversal => ?_,
    answer_isSome_iff, fun parts t full accepted => ?_, Ty.refilled_branches a⟩
  · exact ⟨traversal.run, traversal.calls_start_branches⟩
  · exact ⟨(Traversal.complete full accepted).run, Ty.branches_refilled a accepted.length⟩

end

namespace Reading

def rationed (leaf : Ty) : StateM Nat (Option Ty) := fun
  | 0 => (none, 0)
  | left + 1 => (some (.list leaf), left)

def nested : Ty := .union [.number, .union [.text, .logic]]

def listed : Ty := .union [.list .number, .union [.list .text, .list .logic]]

def gapped : Ty := .union [.number, .union [.union []], .text]

/-- The second leaf is the last to be given if only one part is left, and it is not given at all
beyond an empty union. -/
theorem readings_go_leaf_by_leaf_rationed :
    Traversal rationed nested 1 [.number, .text] none 0 ∧
    (nested.projectM rationed).run 1 = (none, 0) ∧ [Ty.number, .text] <+: nested.branches ∧
    Traversal rationed gapped 5 [.number] none 4 ∧
    nested.hollow = false ∧
    Accepts rationed 5 nested.branches [.list .number, .list .text, .list .logic] 2 ∧
    (nested.projectM rationed).run 5 = (some listed, 2) ∧
    listed.branches = [.list .number, .list .text, .list .logic].flatMap Ty.branches := by
  obtain ⟨refused, run, -⟩ := readings_go_leaf_by_leaf rationed nested 1
  obtain ⟨stopped, -⟩ := readings_go_leaf_by_leaf rationed gapped 5
  obtain ⟨-, -, -, complete, -⟩ := readings_go_leaf_by_leaf rationed nested 5
  have traversal := (refused [.number, .text] none 0).mp rfl
  have full : nested.hollow = false := rfl
  have accepted : Accepts rationed 5 nested.branches [.list .number, .list .text, .list .logic] 2 :=
    .next rfl (.next rfl (.next rfl (.none 2)))
  obtain ⟨found, branches⟩ := complete _ _ full accepted
  exact ⟨traversal, (run _ _ _ traversal).1, (run _ _ _ traversal).2, (stopped _ _ _).mp rfl, full,
    accepted, found, branches⟩

end Reading

end StructuralTypes
