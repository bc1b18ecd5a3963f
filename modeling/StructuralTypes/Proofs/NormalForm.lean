import StructuralTypes.Proofs.Commutation
import StructuralTypes.Proofs.Distribution

/-!
The form that meets have, from any context. Whatever was cut short or remembered, a meet is a single
type or a chain of unions to the right, no longer than the pairs of branches it was made from, with
no empty record in it and the keys of each in order; and so on at every place inside it. Which keys
the meet of two records has is known as long as nothing was cut short.
-/

namespace StructuralTypes

namespace Ty

def TidyRecord (a : Ty) : Prop :=
  ∀ entries, a = .resolved (.dictionary entries) → entries ≠ [] ∧ Keyed.Sorted entries

/-- The normal form of a meet of two types, here and at every place inside, where what stands in the
meet was made from what stands in a branch of each of the two. -/
def NormalMeet (a b ty : Ty) : Prop :=
  ty.Chain ∧ ty.branches.length ≤ a.branches.length * b.branches.length ∧
  ∀ branch ∈ ty.branches, branch.TidyRecord ∧
    ∀ place part, branch.part? place = some part → ∃ x ∈ a.branches, ∃ y ∈ b.branches,
      ∃ p q, x.part? place = some p ∧ y.part? place = some q ∧ NormalMeet p q part
termination_by ty.height
decreasing_by exact height_of_part? ‹_› ‹_›

theorem Joined.tidyRecord {x y ty : Ty} (joined : Joined x y ty) : ty.TidyRecord := by
  rintro entries rfl
  cases joined with
  | atom plain same atomic => cases atomic
  | shape left right order keys kept =>
      constructor
      · rintro rfl
        exact kept rfl
      · cases right with
        | dictionary => exact List.Pairwise.sublist keys (order _ rfl)

theorem PartialMeet.normalMeet {a b ty : Ty} (met : PartialMeet a b ty) : NormalMeet a b ty := by
  induction ty using induction_places generalizing a b with
  | step ty ih =>
      rw [PartialMeet] at met
      rw [NormalMeet]
      obtain ⟨chain, few, each⟩ := met
      refine ⟨chain, few, fun branch member => ?_⟩
      obtain ⟨x, inA, y, inB, joined, parts⟩ := each branch member
      refine ⟨joined.tidyRecord, fun place part found => ?_⟩
      obtain ⟨p, q, here, there, deeper⟩ := parts place part found
      exact ⟨x, inA, y, inB, p, q, here, there, ih branch member place part found deeper⟩

end Ty

def SharedKey (entries others : List (String × Ty)) (key : String) : Prop :=
  ∃ field other, Keyed.get? key entries = some field ∧ Keyed.get? key others = some other ∧
    (Reference.meet field other).isSome = true

namespace Reference

variable {entries others : List (String × Ty)}

theorem mem_keys_commonFields (order : Keyed.Sorted others) {key : String} :
    key ∈ Keyed.keys (commonFields entries others) ↔ SharedKey entries others key := by
  constructor
  · intro member
    obtain ⟨⟨_, ty⟩, inside, rfl⟩ := List.mem_map.mp member
    obtain ⟨field, other, there, here, met⟩ := mem_commonFields.mp inside
    exact ⟨field, other, here, Keyed.get?_of_mem order there, Option.isSome_of_eq_some met⟩
  · rintro ⟨field, other, here, there, met⟩
    obtain ⟨ty, found⟩ := Option.isSome_iff_exists.mp met
    have inside := mem_commonFields.mpr ⟨field, other, Keyed.mem_of_get? there, here, found⟩
    exact List.mem_map_of_mem inside

theorem meet_dictionaries (entries others : List (String × Ty)) :
    meet (.resolved (.dictionary entries)) (.resolved (.dictionary others)) =
      if commonFields entries others = [] then none
      else some (.resolved (.dictionary (commonFields entries others))) := by
  by_cases empty : commonFields entries others = []
  · rw [if_pos empty, Option.eq_none_iff_forall_not_mem]
    intro ty found
    obtain ⟨shape, -, met⟩ := (meet_resolved_iff _ _ ty).mp found
    cases met with
    | dictionary shared => exact shared empty
  · rw [if_neg empty]
    exact (meet_resolved_iff _ _ _).mpr ⟨_, rfl, .dictionary empty⟩

end Reference

namespace Context

variable [PairKey]

def foundAll (context : Context) (as bs : List Ty) : Option Ty :=
  ((Rules.meetAll Query.queries as bs).run context).1

variable {context : Context} {a b ty : Ty}

theorem Reached.partialMeet (reached : context.Reached) (ordered : b.Ordered)
    (found : context.found a b = some ty) : a.PartialMeet b ty := by
  obtain ⟨config, requests, rfl⟩ := reached
  have obeys := Request.reached_cautious config requests
  exact (Query.queries_cautious.meet a b _ obeys).2.met ordered ty found

theorem Reached.partialMeet_all (reached : context.Reached) {as bs : List Ty}
    (ordered : (Ty.union bs).Ordered) (found : context.foundAll as bs = some ty) :
    (Ty.union as).PartialMeet (.union bs) ty := by
  obtain ⟨config, requests, rfl⟩ := reached
  have obeys := Request.reached_cautious config requests
  exact (Query.queries_cautious.meetAll as bs _ obeys).2.met ordered ty found

/-- Without a cutoff two records keep the keys that they share with types that meet, and all of
these. -/
theorem Reached.found_records (reached : context.Reached) {entries others : List (String × Ty)}
    (order : Keyed.Sorted others)
    (settles : context.Settles
      (.meet (.resolved (.dictionary entries)) (.resolved (.dictionary others)))) :
    (∀ ty, context.found (.resolved (.dictionary entries)) (.resolved (.dictionary others)) =
        some ty → ∃ fields, ty = .resolved (.dictionary fields) ∧
          ∀ key, key ∈ Keyed.keys fields ↔ SharedKey entries others key) ∧
    (context.found (.resolved (.dictionary entries)) (.resolved (.dictionary others)) = none →
      ∀ key, ¬ SharedKey entries others key) := by
  have plain := reached.found_plain settles
  rw [Reference.meet_dictionaries] at plain
  have shared := fun key => @Reference.mem_keys_commonFields entries others order key
  by_cases empty : Reference.commonFields entries others = []
  · rw [if_pos empty] at plain
    constructor
    · intro ty found
      rw [found] at plain
      cases plain
    · intro _ key both
      have member := (shared key).mpr both
      rw [empty] at member
      cases member
  · rw [if_neg empty] at plain
    constructor
    · intro ty found
      rw [found] at plain
      have same : ty == .resolved (.dictionary (Reference.commonFields entries others)) := plain
      cases Ty.alike_of_equal same with
      | resolved shape =>
          cases (@Precision.shape_iff .equality _ _).mp shape with
          | @dictionary fields _ equal =>
              refine ⟨fields, rfl, fun key => ?_⟩
              rw [keys_equal equal, shared key]
    · intro missing
      rw [missing] at plain
      cases plain

end Context

/-- A meet of well-formed types is in normal form on any settings and after any history, of two
types and of two lists of alternatives; and two records meet in the keys that they share with types
that meet, if no cutoff is met. -/
theorem meets_in_normal_form [PairKey] {context : Context} (reached : context.Reached) :
    (∀ a b ty : Ty, b.wellFormed = true → context.found a b = some ty → a.NormalMeet b ty) ∧
    (∀ (as bs : List Ty) (ty : Ty), Ty.allWellFormed bs = true →
      context.foundAll as bs = some ty → (Ty.union as).NormalMeet (.union bs) ty) ∧
    ∀ entries others : List (String × Ty), Keyed.Sorted others →
      context.Settles (.meet (.resolved (.dictionary entries)) (.resolved (.dictionary others))) →
      (∀ ty, context.found (.resolved (.dictionary entries)) (.resolved (.dictionary others)) =
          some ty → ∃ fields, ty = .resolved (.dictionary fields) ∧
            ∀ key, key ∈ Keyed.keys fields ↔ SharedKey entries others key) ∧
      (context.found (.resolved (.dictionary entries)) (.resolved (.dictionary others)) = none →
        ∀ key, ¬ SharedKey entries others key) := by
  refine ⟨?_, ?_, ?_⟩
  · intro a b ty formed found
    exact (reached.partialMeet (Ty.ordered_of_wellFormed formed) found).normalMeet
  · intro as bs ty formed found
    have whole : (Ty.union bs).wellFormed = true := by
      rw [Ty.wellFormed]
      exact formed
    exact (reached.partialMeet_all (Ty.ordered_of_wellFormed whole) found).normalMeet
  · intro entries others order settles
    exact reached.found_records order settles

def Ty.deepRecord : Ty :=
  .resolved (.dictionary [("x", .list (.list (.list .number))), ("y", .numberOrText)])

def Ty.keptRecord : Ty := .resolved (.dictionary [("y", .numberOrText)])

def Context.threeLevels : Context :=
  Request.history [.ask (.meet .numberOrText .numberOrText)] (Context.new ⟨true, 3, 4096⟩)

/-- On three levels a record has no meet with itself in the field that is nested too deep, and what
is left is in normal form. Two records that need no more levels meet in the key that they share. -/
theorem meets_in_normal_form_on_three_levels :
    let entries : List (String × Ty) := [("y", .text)]
    let others : List (String × Ty) := [("y", .numberOrText), ("z", .number)]
    Context.threeLevels.found Ty.deepRecord Ty.deepRecord = some Ty.keptRecord ∧
    Ty.deepRecord.NormalMeet Ty.deepRecord Ty.keptRecord ∧
    Context.threeLevels.foundAll [Ty.deepRecord, .text] [.text, Ty.deepRecord] =
      some (.union [Ty.keptRecord, .text]) ∧
    (Ty.union [Ty.deepRecord, .text]).NormalMeet (.union [.text, Ty.deepRecord])
      (.union [Ty.keptRecord, .text]) ∧
    Context.threeLevels.Settles
      (.meet (.resolved (.dictionary entries)) (.resolved (.dictionary others))) ∧
    ∀ key, key ∈ ["y"] ↔ SharedKey entries others key := by
  have reached : Context.threeLevels.Reached := ⟨_, _, rfl⟩
  obtain ⟨types, alternatives, records⟩ := meets_in_normal_form reached
  have formed : Ty.allWellFormed [.text, Ty.deepRecord] = true := by cbv
  have found : Context.threeLevels.found Ty.deepRecord Ty.deepRecord = some Ty.keptRecord := by cbv
  have all : Context.threeLevels.foundAll [Ty.deepRecord, .text] [.text, Ty.deepRecord] =
      some (.union [Ty.keptRecord, .text]) := by cbv
  have settles : Context.threeLevels.Settles (.meet (.resolved (.dictionary [("y", .text)]))
      (.resolved (.dictionary [("y", .numberOrText), ("z", .number)]))) := by
    rw [Context.Settles]
    cbv
  have shared : Context.threeLevels.found (.resolved (.dictionary [("y", .text)]))
      (.resolved (.dictionary [("y", .numberOrText), ("z", .number)])) =
      some (.resolved (.dictionary [("y", .text)])) := by cbv
  have order : Keyed.Sorted [("y", Ty.numberOrText), ("z", Ty.number)] :=
    of_decide_eq_true (by cbv)
  obtain ⟨fields, same, keys⟩ := (records _ _ order settles).1 _ shared
  cases same
  have one := (Ty.allWellFormed_iff _).mp formed Ty.deepRecord (by simp)
  exact ⟨found, types _ _ _ one found, all, alternatives _ _ _ formed all, settles, keys⟩

end StructuralTypes
