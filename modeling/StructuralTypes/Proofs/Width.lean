import StructuralTypes.Proofs.Matching

/-!
A record against the same record with fewer fields. The row rule asks of each field that is
left that it matches itself, and of the fields that are gone nothing. A field of a type that does
not match itself, such as a record without fields, is therefore not covered by its own copy; if no
field is gone the two records are equal, and the rule is not asked.
-/

namespace StructuralTypes

structure Record where
  entries : List (String × Ty)
  sorted : Keyed.Sorted entries

namespace Record

def ty (record : Record) : Ty := .resolved (.dictionary record.entries)

def restrict (record : Record) (kept : String → Bool) : Record where
  entries := record.entries.filter fun entry => kept entry.1
  sorted := List.Pairwise.sublist (List.filter_sublist.map Prod.fst) record.sorted

def SelfMatching (record : Record) : Prop :=
  ∀ key field, (key, field) ∈ record.entries → Reference.typesMatch field field = true

variable (record : Record) (kept : String → Bool)

theorem mem_restrict {key : String} {field : Ty} :
    (key, field) ∈ (record.restrict kept).entries ↔
      (key, field) ∈ record.entries ∧ kept key = true :=
  List.mem_filter

theorem ground_restrict_iff :
    Reference.ShapeBelow (.dictionary record.entries)
      (.dictionary (record.restrict kept).entries) ↔ (record.restrict kept).SelfMatching := by
  constructor
  · intro below key field member
    cases below with
    | dictionary fields =>
        obtain ⟨copy, found, matched⟩ := fields key field member
        have inside := ((record.mem_restrict kept).mp member).1
        rw [Keyed.get?_of_mem record.sorted inside] at found
        cases found
        exact matched
  · intro matching
    refine .dictionary fun key needed member => ?_
    have inside := ((record.mem_restrict kept).mp member).1
    exact ⟨needed, Keyed.get?_of_mem record.sorted inside, matching key needed member⟩

theorem ground_self_iff :
    Reference.ShapeBelow (.dictionary record.entries) (.dictionary record.entries) ↔
      record.SelfMatching := by
  have all : record.restrict (fun _ => true) = record := by simp [restrict]
  have whole := record.ground_restrict_iff fun _ => true
  rwa [all] at whole

theorem equal_restrict_iff :
    (Shape.dictionary record.entries == Shape.dictionary (record.restrict kept).entries) = true ↔
      ∀ key ∈ Keyed.keys record.entries, kept key = true := by
  constructor
  · intro same key member
    obtain ⟨entry, inside, rfl⟩ := List.mem_map.mp member
    cases (@Precision.shape_iff .equality _ _).mp same with
    | dictionary equal =>
        have lengths := ((list_equal_iff _ _).mp equal).length_eq
        exact List.length_filter_eq_length_iff.mp lengths.symm entry inside
  · intro all
    have whole : (record.restrict kept).entries = record.entries :=
      List.filter_eq_self.mpr fun entry member => all entry.1 (List.mem_map_of_mem member)
    rw [whole]
    exact BEq.refl _

theorem subset_restrict_iff :
    Reference.subset record.ty (record.restrict kept).ty = true ↔
      (∀ key ∈ Keyed.keys record.entries, kept key = true) ∨
        (record.restrict kept).SelfMatching := by
  rw [ty, ty, Reference.subset_resolved_iff, equal_restrict_iff, ground_restrict_iff]

end Record

/-- A record is below what is left of it if no field is gone or if every field left matches
itself, and only then; the fields that are gone may have any types. The row rule, asked for
itself, wants the second also of a record and itself. Fields with nothing empty in them are fine. -/
theorem record_below_restriction [PairKey] (record : Record) (kept : String → Bool) :
    (Reference.subset record.ty (record.restrict kept).ty = true ↔
      (∀ key ∈ Keyed.keys record.entries, kept key = true) ∨
        (record.restrict kept).SelfMatching) ∧
    ((Rules.resolvedEqual Reference.queries record.ty (record.restrict kept).ty).run = true ↔
      (record.restrict kept).SelfMatching) ∧
    ((∀ key field, (key, field) ∈ (record.restrict kept).entries → field.Filled) →
      (record.restrict kept).SelfMatching) ∧
    ∀ context : Context, context.Reached →
      context.Settles (.subset record.ty (record.restrict kept).ty) →
      (context.Affirms (.subset record.ty (record.restrict kept).ty) ↔
        (∀ key ∈ Keyed.keys record.entries, kept key = true) ∨
          (record.restrict kept).SelfMatching) := by
  have plain := record.subset_restrict_iff kept
  refine ⟨plain, ?_, ?_, ?_⟩
  · rw [← record.ground_restrict_iff kept]
    exact Reference.shapeSubset_iff (.dictionary record.entries)
      (.dictionary (record.restrict kept).entries)
  · intro filled key field member
    exact Reference.typesMatch_self (filled key field member)
  · intro context reached settles
    rw [reached.affirms_iff settles]
    exact plain

def Record.withBlank : Record :=
  ⟨[("blank", .resolved (.dictionary [])), ("id", .two), ("lines", .list .numberOrText)],
    by decide⟩

/-- The blank field is no obstacle if it is the one that goes. -/
theorem record_below_restriction_without_blank :
    let kept := fun key => key != "blank"
    let context := Context.new ⟨true, 6, 1⟩
    (Record.withBlank.restrict kept).SelfMatching ∧
    Reference.subset Record.withBlank.ty (Record.withBlank.restrict kept).ty = true ∧
    context.Settles (.subset Record.withBlank.ty (Record.withBlank.restrict kept).ty) ∧
    context.Affirms (.subset Record.withBlank.ty (Record.withBlank.restrict kept).ty) := by
  intro kept context
  obtain ⟨plain, -, filled, contexts⟩ := record_below_restriction .withBlank kept
  have matching : (Record.withBlank.restrict kept).SelfMatching := by
    apply filled
    have left : (Record.withBlank.restrict kept).entries =
        [("id", .two), ("lines", .list .numberOrText)] := by cbv
    rw [left]
    intro key field member
    rcases List.mem_cons.mp member with same | later
    · cases same
      constructor <;> cbv
    · cases List.mem_singleton.mp later
      constructor <;> cbv
  have settles : context.Settles
      (.subset Record.withBlank.ty (Record.withBlank.restrict kept).ty) := by cbv
  have reached : context.Reached := Context.reached_new ⟨true, 6, 1⟩
  exact ⟨matching, plain.mpr (.inr matching), settles,
    (contexts context reached settles).mpr (.inr matching)⟩

/-- If another field goes, the record is not below what is left. -/
theorem record_with_blank_not_below_restriction :
    let kept := fun key => key != "lines"
    let question := Question.subset Record.withBlank.ty (Record.withBlank.restrict kept).ty
    Reference.subset Record.withBlank.ty (Record.withBlank.restrict kept).ty = false ∧
    (Context.new {}).Settles question ∧ ¬ (Context.new {}).Affirms question ∧
    (Rules.resolvedEqual Reference.queries Record.withBlank.ty Record.withBlank.ty).run =
      false := by
  intro kept question
  have denied : (question.ask.run (Context.new {})).1.positive = false := by cbv
  exact ⟨by cbv, by cbv, Bool.eq_false_iff.mp denied, by cbv⟩

end StructuralTypes
