import StructuralTypes.Proofs.Depth
import StructuralTypes.Proofs.Flattening
import StructuralTypes.Proofs.Histories
import StructuralTypes.Proofs.Variance

/-!
Types without branches: the union of nothing, and every union built of such unions only. They are
the least types. They are below everything, a literal included, and nothing that has a branch is
below them; they meet nothing, not even themselves, and nothing is read out of them. As one branch
more of a union such a type is not noticed.
-/

namespace StructuralTypes

/-- A question that is not affirmed plainly and by no context, whether it meets a cutoff or not. -/
structure Question.Denied [PairKey] (question : Question) : Prop where
  plain : question.answer.positive = false
  asked : ∀ context : Context, context.Reached → ¬ context.Affirms question

theorem Question.Denied.of_plain [PairKey] {question : Question} (single : question.reduces = false)
    (plain : question.answer.positive = false) : question.Denied := by
  refine ⟨plain, fun context reached affirms => ?_⟩
  rw [reached.plain_of_affirms single affirms] at plain
  cases plain

namespace Ty

/-- The same type, or a union and the union with one branch more. -/
inductive Padded (extra : Ty) : Ty → Ty → Prop where
  | same (a : Ty) : Padded extra a a
  | inserted (before after : List Ty) :
      Padded extra (.union (before ++ after)) (.union (before ++ extra :: after))

variable {e : Ty}

theorem ne_literal_of_empty (empty : e.branches = []) : ∀ value, e ≠ .literal value := by
  rintro value rfl
  cases empty

theorem exists_union_of_empty (empty : e.branches = []) :
    ∃ parts, e = .union parts ∧ branchesOf parts = [] := by
  cases e with
  | union parts => exact ⟨parts, rfl, by simpa only [branches] using empty⟩
  | literal value => cases empty
  | resolved shape => cases empty

theorem hollow_of_empty (empty : e.branches = []) : e.hollow = true := by
  by_contra full
  exact branches_ne_nil_of_full (Bool.eq_false_iff.mpr full) empty

theorem branchesOf_insert (empty : e.branches = []) (before after : List Ty) :
    branchesOf (before ++ e :: after) = branchesOf (before ++ after) := by
  simp only [branchesOf_eq_flatMap, List.flatMap_append, List.flatMap_cons, empty, List.nil_append]

end Ty

namespace Reference

variable {e : Ty}

theorem subset_of_empty (empty : e.branches = []) (t : Ty) : subset e t = true := by
  have left := Ty.ne_literal_of_empty empty
  rcases t.literal_or_other with ⟨value, rfl⟩ | right
  · exact (subset_literal_iff left value).mpr empty
  · rw [subset_iff_branches left right, empty]
    exact List.forall_mem_nil _

theorem subset_empty_iff (empty : e.branches = []) (t : Ty) :
    subset t e = true ↔ t.branches = [] := by
  have right := Ty.ne_literal_of_empty empty
  have others : ∀ {a : Ty}, (∀ value, a ≠ .literal value) →
      (subset a e = true ↔ a.branches = []) := by
    intro a left
    rw [subset_iff_branches left right, empty]
    simp only [List.not_mem_nil, false_and, exists_false, ← List.eq_nil_iff_forall_not_mem]
  rcases t.literal_or_other with ⟨value, rfl⟩ | left
  -- the classifier of a literal is no union, so it has a branch too
  · rw [subset_literal_left value right, others (Ty.resolved_ne_literal _)]
    simp only [Ty.branches, List.cons_ne_nil]
  · exact others left

theorem meet_empty_left (empty : e.branches = []) (t : Ty) : meet e t = none := by
  rw [meet_eq_collapse, branchMeets, empty]
  rfl

theorem meet_empty_right (empty : e.branches = []) (t : Ty) : meet t e = none := by
  rw [meet_eq_collapse, branchMeets, empty]
  simp only [List.filterMap_nil, List.flatMap_eq_nil_iff.mpr fun _ _ => rfl]
  rfl

end Reference

namespace Ty.Padded

variable {e a b c d : Ty}

theorem branches (padded : Padded e a c) (empty : e.branches = []) : a.branches = c.branches := by
  cases padded with
  | same => rfl
  | inserted before after => simp only [Ty.branches, branchesOf_insert empty]

theorem subset (left : Padded e a c) (right : Padded e b d) (empty : e.branches = []) :
    Reference.subset a b = Reference.subset c d := by
  have first : Reference.subset a b = Reference.subset c b := by
    cases left with
    | same => rfl
    | inserted before after =>
        exact Reference.subset_left_of_branches (union_ne_literal _) (union_ne_literal _)
          ((inserted before after).branches empty) b
  have second : Reference.subset c b = Reference.subset c d := by
    cases right with
    | same => rfl
    | inserted before after =>
        exact Reference.subset_right_of_branches (union_ne_literal _) (union_ne_literal _)
          ((inserted before after).branches empty) c
  exact first.trans second

theorem reduce (padded : Padded e a c) (empty : e.branches = []) :
    Reference.reduce a = Reference.reduce c := by
  cases padded with
  | same => rfl
  | inserted before after =>
      simp only [Reference.reduce, Rules.reduce, branchesOf_insert empty]

end Ty.Padded

namespace Query

variable [PairKey]

/-- One level is enough to find a type without branches below another. -/
theorem subset_of_empty_roomy {e : Ty} (empty : e.branches = []) (t : Ty) :
    Roomy 1 (subset e t) := by
  obtain ⟨parts, rfl, bare⟩ := Ty.exists_union_of_empty empty
  obtain ⟨steps, height⟩ : ∃ steps, (Ty.union parts).height + t.height = steps + 1 := by
    simp only [Ty.height]
    exact ⟨Ty.tallest parts + t.height, by omega⟩
  have rule : Rules.subset (within steps) (.union parts) t = pure true := by
    cases t <;> simp only [Rules.subset, bare, List.isEmpty_nil, if_pos]
  change Roomy 1 ((within _).subset (.union parts) t)
  rw [height]
  simp only [within, rule]
  split
  · exact .pure true
  · exact .remembered subsets_still (subsets_lawful .plain) _ _ ((Roomy.pure true).deeper false)

end Query

theorem Context.Reached.settles_subset_of_empty [PairKey] {context : Context}
    (reached : context.Reached) (room : 1 ≤ context.config.maxDepth) {e : Ty} (empty : e.branches = []) (t : Ty) :
    context.Settles (.subset e t) := by
  apply (Query.subset_of_empty_roomy empty t).clean context
  rw [reached.depth]
  omega

theorem Question.reduce_denied [PairKey] {e : Ty} (empty : e.branches = []) :
    (Question.reduce e).Denied := by
  obtain ⟨parts, rfl, bare⟩ := Ty.exists_union_of_empty empty
  have rule : ∀ {m : Type → Type} [Monad m] (q : Queries m),
      Rules.reduce q (.union parts) = pure none := by
    intro m _ q
    simp only [Rules.reduce, bare]
  constructor
  · simp only [answer, answerBy, rule]
    rfl
  · intro context _ affirms
    simp only [Context.Affirms, ask, answerBy, rule] at affirms
    cases affirms

/-- A type without branches is below every type, and only such types are below it; it meets none and
has no common shape and no parts. One level is enough to see that it is below another. As a further
branch of a union, anywhere in it and on either side or both, it changes no answer. -/
theorem empty_type_is_least [PairKey] {e : Ty} (empty : e.branches = []) :
    (∀ t : Ty, (Question.subset e t).Upheld ∧
      (t.branches = [] → (Question.subset t e).Upheld) ∧
      (t.branches ≠ [] → (Question.subset t e).Denied) ∧
      (Question.meet e t).Denied ∧ (Question.meet t e).Denied ∧
      ∀ context : Context, context.Reached → 1 ≤ context.config.maxDepth →
        context.Affirms (.subset e t)) ∧
    (Question.reduce e).Denied ∧
    (∀ key, e.member key = none) ∧ e.result = none ∧ (∀ index, e.parameter index = none) ∧
    e.arity = none ∧
    ∀ a b c d : Ty, Ty.Padded e a c → Ty.Padded e b d →
      (Question.subset a b).Alike (.subset c d) ∧ (Question.meet a b).Alike (.meet c d) ∧
      (Question.reduce a).Alike (.reduce c) := by
  have hollow := Ty.hollow_of_empty empty
  refine ⟨fun t => ?_, Question.reduce_denied empty, fun key => Ty.project_of_hollow _ hollow,
    Ty.project_of_hollow _ hollow, fun index => Ty.project_of_hollow _ hollow,
    Ty.arity_of_hollow hollow, ?_⟩
  · have below := Reference.subset_of_empty empty t
    refine ⟨.of_plain below, fun none => ?_, fun some => ?_, ?_, ?_, fun context reached room => ?_⟩
    · exact .of_plain (Reference.subset_of_empty none e)
    · apply Question.Denied.of_plain rfl
      exact Bool.eq_false_iff.mpr fun under => some ((Reference.subset_empty_iff empty t).mp under)
    · exact .of_plain rfl (congrArg Option.isSome (Reference.meet_empty_left empty t))
    · exact .of_plain rfl (congrArg Option.isSome (Reference.meet_empty_right empty t))
    · exact reached.affirms_of_plain (reached.settles_subset_of_empty room empty t) below
  · intro a b c d left right
    refine ⟨?_, ?_, ?_⟩
    · exact Question.alike_iff.mpr (congrArg Answer.truth (left.subset right empty))
    · exact Question.alike_iff.mpr (congrArg Answer.type
        (Reference.meet_of_branches (left.branches empty) (right.branches empty)))
    · exact Question.alike_iff.mpr (congrArg Answer.type (left.reduce empty))

namespace Ty

def nothing : Ty := .union [.union [], .union [.union []]]

def twoOrText : Ty := .union [two, text]

def twoNothingText : Ty := .union [two, nothing, text]

theorem twoOrText_padded : Padded nothing twoOrText twoNothingText := .inserted [two] [text]

end Ty

/-- A literal is above the empty type and not below it, and a union in which it stands between two
branches is compared, also with itself, and reduced as the union of the two. -/
theorem empty_type_is_least_nested :
    Ty.nothing.branches = [] ∧
    (Question.subset .nothing .two).Upheld ∧ (Question.subset .nothing (.union [])).Upheld ∧
    Ty.two.branches ≠ [] ∧ (Question.subset .two .nothing).Denied ∧
    (Question.meet .nothing .nothing).Denied ∧
    (Context.new ⟨true, 1, 1⟩).Affirms (.subset .nothing .two) ∧
    Ty.nothing.arity = none ∧
    (Question.subset .twoOrText .numberOrText).Alike (.subset .twoNothingText .numberOrText) ∧
    (Question.meet .twoOrText .twoOrText).Alike (.meet .twoNothingText .twoNothingText) ∧
    (Question.reduce .twoOrText).Alike (.reduce .twoNothingText) := by
  have empty : Ty.nothing.branches = [] := by cbv
  have some : Ty.two.branches ≠ [] := List.cons_ne_nil _ _
  obtain ⟨least, -, -, -, -, arity, padding⟩ := empty_type_is_least empty
  obtain ⟨belowTwo, -, denied, -, -, shallow⟩ := least .two
  have padded := Ty.twoOrText_padded
  have mixed := padding _ _ _ _ padded (.same .numberOrText)
  have both := padding _ _ _ _ padded padded
  exact ⟨empty, belowTwo, (least (.union [])).1, some, denied some, (least .nothing).2.2.2.1,
    shallow _ (Context.reached_new _) (Nat.le_refl 1), arity, mixed.1, both.2.1, both.2.2⟩

end StructuralTypes
