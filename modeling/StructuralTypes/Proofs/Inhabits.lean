import StructuralTypes.Proofs.FailClosed
import StructuralTypes.Ty.Inhabits
import StructuralTypes.Ty.Projection

/-!
What a type says about the payloads it admits. Unions admit by their branches, so a type all
of whose branches count as a primitive admits payloads of that one kind, and a member that
every branch has is in the payload whichever branch it came from.
-/

namespace StructuralTypes

mutual

theorem Ty.admits_iff_branch (payload : Payload) : ∀ a : Ty,
    a.admits payload = true ↔ ∃ branch ∈ a.branches, branch.admits payload = true
  | .union parts => by
      simp only [Ty.admits, Ty.branches]
      exact Ty.someAdmits_iff_branch payload parts
  | .literal value => by simp [Ty.branches]
  | .resolved shape => by simp [Ty.branches]

theorem Ty.someAdmits_iff_branch (payload : Payload) : ∀ parts : List Ty,
    Ty.someAdmits parts payload = true ↔
      ∃ branch ∈ Ty.branchesOf parts, branch.admits payload = true
  | [] => by simp [Ty.someAdmits, Ty.branchesOf]
  | part :: rest => by
      simp only [Ty.someAdmits, Ty.branchesOf, Bool.or_eq_true, List.mem_append, or_and_right,
        exists_or]
      exact or_congr (Ty.admits_iff_branch payload part) (Ty.someAdmits_iff_branch payload rest)

end

theorem Ty.carrier_admits {a : Ty} {payload : Payload} (admits : a.admits payload = true) :
    a.carrier.admits payload = true := by
  cases a with
  | literal value =>
      obtain ⟨_, shape⟩ := value
      simp only [Ty.admits, Bool.and_eq_true] at admits
      exact admits.2
  | union parts => exact admits
  | resolved shape => exact admits

theorem Ty.CountsAs.admits {ty single : Ty} (counts : ty.CountsAs single) {payload : Payload}
    (admits : ty.admits payload = true) : single.admits payload = true := by
  obtain ⟨branch, member, inside⟩ := (Ty.admits_iff_branch payload ty).mp admits
  rw [← counts branch member]
  exact Ty.carrier_admits inside

theorem Ty.number_admits {payload : Payload} (admits : Ty.number.admits payload = true) :
    ∃ value, payload = .number value := by
  cases payload <;> first | exact ⟨_, rfl⟩ | exact absurd admits Bool.false_ne_true

theorem Ty.text_admits {payload : Payload} (admits : Ty.text.admits payload = true) :
    ∃ value, payload = .text value := by
  cases payload <;> first | exact ⟨_, rfl⟩ | exact absurd admits Bool.false_ne_true

theorem Ty.get?_of_entriesAdmit {entries : List (String × Ty)} {fields : List (String × Payload)}
    (all : Ty.entriesAdmit entries fields = true) {key : String} {ty : Ty}
    (member : (key, ty) ∈ entries) :
    ∃ payload, Keyed.get? key fields = some payload ∧ ty.admits payload = true := by
  induction entries with
  | nil => cases member
  | cons entry rest ih =>
      obtain ⟨name, first⟩ := entry
      simp only [Ty.entriesAdmit] at all
      split at all
      · exact absurd all Bool.false_ne_true
      · next payload found =>
          rw [Bool.and_eq_true] at all
          rcases List.mem_cons.mp member with same | member
          · cases same
            exact ⟨payload, found, all.1⟩
          · exact ih all.2 member

namespace Ty

def projectAll (read : Ty → Option Ty) (as : List Ty) : Option (List Ty) :=
  Id.run (projectAllM (fun leaf => pure (read leaf)) as)

theorem project_union (read : Ty → Option Ty) (first : Ty) (rest : List Ty) :
    (Ty.union (first :: rest)).project read = (projectAll read (first :: rest)).map Ty.union := by
  simp only [Ty.project, projectAll, projectM]
  generalize projectAllM (m := Id) (fun leaf => pure (read leaf)) (first :: rest) = found
  cases found <;> rfl

theorem projectAll_cons (read : Ty → Option Ty) (first : Ty) (rest : List Ty) :
    projectAll read (first :: rest) =
      (first.project read).bind fun part => (projectAll read rest).map (part :: ·) := by
  simp only [Ty.project, projectAll, projectAllM]
  generalize projectM (m := Id) (fun leaf => pure (read leaf)) first = head
  generalize projectAllM (m := Id) (fun leaf => pure (read leaf)) rest = tail
  cases head with
  | none => rfl
  | some part => cases tail <;> rfl

variable {read : Ty → Option Ty} {select : Payload → Option Payload} {payload : Payload}

mutual

/-- If each leaf of a union gives a type for what is selected from the payloads of the leaf,
so does the union for its payloads. -/
theorem project_admits
    (leaf : ∀ {a part : Ty}, read a = some part → a.admits payload = true →
      ∃ selected, select payload = some selected ∧ part.admits selected = true) :
    ∀ {a part : Ty}, a.project read = some part → a.admits payload = true →
      ∃ selected, select payload = some selected ∧ part.admits selected = true
  | .literal _, _, found, admits => leaf found admits
  | .resolved _, _, found, admits => leaf found admits
  | .union [], _, found, _ => nomatch found
  | .union (first :: rest), part, found, admits => by
      rw [project_union] at found
      obtain ⟨parts, all, rfl⟩ := Option.map_eq_some_iff.mp found
      exact projectAll_admits leaf all admits

theorem projectAll_admits
    (leaf : ∀ {a part : Ty}, read a = some part → a.admits payload = true →
      ∃ selected, select payload = some selected ∧ part.admits selected = true) :
    ∀ {as parts : List Ty}, projectAll read as = some parts → someAdmits as payload = true →
      ∃ selected, select payload = some selected ∧ someAdmits parts selected = true
  | [], _, _, admits => absurd admits Bool.false_ne_true
  | first :: rest, parts, found, admits => by
      rw [projectAll_cons, Option.bind_eq_some_iff] at found
      obtain ⟨part, head, tail⟩ := found
      obtain ⟨others, all, rfl⟩ := Option.map_eq_some_iff.mp tail
      simp only [someAdmits, Bool.or_eq_true] at admits ⊢
      rcases admits with here | there
      · obtain ⟨selected, chosen, inside⟩ := project_admits leaf head here
        exact ⟨selected, chosen, .inl inside⟩
      · obtain ⟨selected, chosen, inside⟩ := projectAll_admits leaf all there
        exact ⟨selected, chosen, .inr inside⟩

end

end Ty

def Payload.entry? (key : String) : Payload → Option Payload
  | .dictionary fields => Keyed.get? key fields
  | _ => none

/-- A member that a type has is there in its payloads, and is of the member's type. -/
theorem Ty.member_admits {ty part : Ty} {key : String} {payload : Payload}
    (found : ty.member key = some part) (admits : ty.admits payload = true) :
    ∃ selected, payload.entry? key = some selected ∧ part.admits selected = true := by
  refine Ty.project_admits (fun {leaf piece} read inside => ?_) found admits
  split at read
  · next entries =>
      cases payload <;> first | exact absurd inside Bool.false_ne_true | skip
      next fields => exact Ty.get?_of_entriesAdmit inside (Keyed.mem_of_get? read)
  · cases read

end StructuralTypes
