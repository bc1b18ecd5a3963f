import StructuralTypes.Proofs.Meet
import StructuralTypes.Proofs.Preorder

/-!
A union counts by its branches. A meet is the collapsed list of the meets of the branches,
whatever the nesting of the two sides. The subset relation goes by branches too, unless one of
its sides is a literal: a literal is compared before the branches of the other side are, so a
union of one branch stands for that branch everywhere but beside a literal.
-/

namespace StructuralTypes

instance : PartialEquivBEq Answer where
  symm {x y} same := by
    cases x <;> cases y <;> first | exact absurd same Bool.false_ne_true | skip
    · exact BEq.symm (α := Bool) same
    · exact BEq.symm (α := Option Ty) same
  trans {x y z} first second := by
    cases x <;> cases y <;> first | exact absurd first Bool.false_ne_true | skip
    all_goals cases z <;> first | exact absurd second Bool.false_ne_true | skip
    · exact PartialEquivBEq.trans (α := Bool) first second
    · exact PartialEquivBEq.trans (α := Option Ty) first second

def Context.found [PairKey] (context : Context) (a b : Ty) : Option Ty :=
  ((Query.meet a b).run context).1

theorem Context.Reached.found_plain [PairKey] {context : Context} (reached : context.Reached)
    {a b : Ty} (settles : context.Settles (.meet a b)) : context.found a b == Reference.meet a b :=
  reached.answers settles

/-- Two questions with one answer, plainly and from contexts that meet no cutoff. -/
structure Question.Alike [PairKey] (p q : Question) : Prop where
  plain : p.answer = q.answer
  asked : ∀ first second : Context, first.Reached → second.Reached → first.Settles p →
    second.Settles q → (p.ask.run first).1 == (q.ask.run second).1

theorem Question.alike_iff [PairKey] {p q : Question} : p.Alike q ↔ p.answer = q.answer := by
  constructor
  · exact Alike.plain
  · intro plain
    refine ⟨plain, fun first second reached reachedSecond settles settlesSecond => ?_⟩
    have left := reached.answers settles
    have right := BEq.symm (reachedSecond.answers settlesSecond)
    rw [plain] at left
    exact PartialEquivBEq.trans left right

structure Question.Concordant [PairKey] (p q : Question) : Prop where
  plain : p.answer.positive = q.answer.positive
  asked : ∀ first second : Context, first.Reached → second.Reached → first.Settles p →
    second.Settles q → (first.Affirms p ↔ second.Affirms q)

theorem Question.concordant_iff [PairKey] {p q : Question} :
    p.Concordant q ↔ p.answer.positive = q.answer.positive := by
  constructor
  · exact Concordant.plain
  · intro plain
    refine ⟨plain, fun first second reached reachedSecond settles settlesSecond => ?_⟩
    rw [reached.affirms_iff settles, reachedSecond.affirms_iff settlesSecond, plain]

theorem Ty.union_ne_literal (parts : List Ty) : ∀ v, Ty.union parts ≠ .literal v := nofun

theorem Ty.resolved_ne_literal (shape : Shape) : ∀ v, Ty.resolved shape ≠ .literal v := nofun

theorem Ty.branches_one (t : Ty) : (Ty.union [t]).branches = t.branches := by
  simp only [Ty.branches, Ty.branchesOf, List.append_nil]

namespace Reference

theorem subset_iff_branches {a b : Ty} (left : ∀ v, a ≠ .literal v) (right : ∀ v, b ≠ .literal v) :
    subset a b = true ↔
      ∀ branch ∈ a.branches, ∃ other ∈ b.branches, subset branch other = true := by
  cases a with
  | literal u => exact absurd rfl (left u)
  | union parts =>
      rw [subset_union_left parts right]
      simp only [Ty.branches]
  | resolved s =>
      constructor
      · intro below branch member
        exact exists_branch_above left right below member
      · intro each
        obtain ⟨other, there, below⟩ := each (.resolved s) (List.mem_singleton_self _)
        rw [subset_resolved_branch] at below ⊢
        obtain ⟨t, inside, under⟩ := below
        rw [Ty.branches_of_single (Ty.isUnion_of_mem_branches there)] at inside
        exact ⟨t, List.mem_singleton.mp inside ▸ there, under⟩

theorem subset_literal_iff {a : Ty} (other : ∀ u, a ≠ .literal u) (v : Value) :
    subset a (.literal v) = true ↔ a.branches = [] := by
  cases a with
  | literal u => exact absurd rfl (other u)
  | union parts =>
      rw [subset_union_literal]
      simp only [Ty.branches]
  | resolved s => simp [not_subset_literal, Ty.branches]

theorem subset_left_of_branches {a c : Ty} (first : ∀ v, a ≠ .literal v)
    (second : ∀ v, c ≠ .literal v) (same : a.branches = c.branches) (b : Ty) :
    subset a b = subset c b := by
  rw [Bool.eq_iff_iff]
  rcases b.literal_or_other with ⟨v, rfl⟩ | other
  · rw [subset_literal_iff first, subset_literal_iff second, same]
  · rw [subset_iff_branches first other, subset_iff_branches second other, same]

theorem subset_right_of_branches {a c : Ty} (first : ∀ v, a ≠ .literal v)
    (second : ∀ v, c ≠ .literal v) (same : a.branches = c.branches) (b : Ty) :
    subset b a = subset b c := by
  have below : ∀ {b : Ty}, (∀ v, b ≠ .literal v) → subset b a = subset b c := by
    intro b other
    rw [Bool.eq_iff_iff, subset_iff_branches other first, subset_iff_branches other second, same]
  rcases b.literal_or_other with ⟨u, rfl⟩ | other
  · rw [subset_literal_left u first, subset_literal_left u second]
    exact below (Ty.resolved_ne_literal u.shape)
  · exact below other

/-- A literal that a type has among its branches, though its classifier is not below the type. -/
def HeldAsLiteral (t s : Ty) : Prop :=
  ∃ u v, t = .literal u ∧ .literal v ∈ s.branches ∧ subset t (.literal v) = true ∧
    subset (.resolved u.shape) s = false

/-- A literal that is above all branches of a type, of which there are some. -/
def CoversAsLiteral (t s : Ty) : Prop :=
  ∃ v, t = .literal v ∧ s.branches ≠ [] ∧ ∀ branch ∈ s.branches, subset branch t = true

theorem subset_literal_resolved (u : Value) (t : Shape) :
    subset (.literal u) (.resolved t) = subset (.resolved u.shape) (.resolved t) :=
  subset_literal_left u (Ty.resolved_ne_literal t)

theorem not_subset_literal_one (u v : Value) :
    subset (.union [.literal u]) (.literal v) = false := by
  rw [Bool.eq_false_iff, ne_eq, subset_literal_iff (Ty.union_ne_literal _), Ty.branches_one]
  exact List.cons_ne_nil _ _

theorem subset_literal_one (u v : Value) : subset (.literal u) (.union [.literal v]) = false := by
  rw [subset_literal_left u (Ty.union_ne_literal _), Bool.eq_false_iff, ne_eq,
    subset_resolved_branch, Ty.branches_one]
  simp [Ty.branches]

/-- A literal is below what its classifier is below, and below the literals among the branches
if it stands in a union. -/
theorem subset_one_literal_iff (u : Value) {s : Ty} (other : ∀ v, s ≠ .literal v) :
    subset (.union [.literal u]) s = true ↔ subset (.resolved u.shape) s = true ∨
      ∃ v, .literal v ∈ s.branches ∧ subset (.literal u) (.literal v) = true := by
  rw [subset_iff_branches (Ty.union_ne_literal _) other, Ty.branches_one]
  constructor
  · intro each
    obtain ⟨branch, member, below⟩ := each (.literal u) (List.mem_singleton_self _)
    cases branch with
    | literal v => exact .inr ⟨v, member, below⟩
    | union parts => cases Ty.isUnion_of_mem_branches member
    | resolved t =>
        rw [subset_literal_resolved] at below
        exact .inl ((subset_resolved_branch u.shape s).mpr ⟨t, member, below⟩)
  · intro held branch inside
    cases List.mem_singleton.mp inside
    rcases held with below | ⟨v, member, below⟩
    · obtain ⟨t, member, under⟩ := (subset_resolved_branch u.shape s).mp below
      rw [← subset_literal_resolved] at under
      exact ⟨.resolved t, member, under⟩
    · exact ⟨.literal v, member, below⟩

theorem subset_one_left (t s : Ty) :
    subset (.union [t]) s = subset t s ↔ ¬ HeldAsLiteral t s := by
  rcases t.literal_or_other with ⟨u, rfl⟩ | single
  · rcases s.literal_or_other with ⟨v, rfl⟩ | other
    -- the union is refused beside a literal, so equal values make the difference
    · rw [not_subset_literal_one]
      constructor
      · rintro never ⟨_, w, same, member, below, -⟩
        cases List.mem_singleton.mp member
        rw [below] at never
        cases never
      · intro alone
        refine (Bool.eq_false_iff.mpr fun below => ?_).symm
        exact alone ⟨u, v, rfl, List.mem_singleton_self _, below, not_subset_literal _ _⟩
    -- alone the literal goes by its classifier, in the union also by the literals opposite
    · rw [subset_literal_left u other, Bool.eq_iff_iff, subset_one_literal_iff u other]
      constructor
      · rintro same ⟨_, v, ⟨⟩, member, below, apart⟩
        have inside := same.mp (.inr ⟨v, member, below⟩)
        rw [apart] at inside
        cases inside
      · intro alone
        constructor
        · rintro (below | ⟨v, member, below⟩)
          · exact below
          · by_contra apart
            exact alone ⟨u, v, rfl, member, below, Bool.eq_false_iff.mpr apart⟩
        · exact .inl
  · constructor
    · rintro - ⟨u, -, rfl, -⟩
      exact single u rfl
    · intro _
      exact subset_left_of_branches (Ty.union_ne_literal _) single (Ty.branches_one t) s

theorem subset_one_right (t s : Ty) :
    subset s (.union [t]) = subset s t ↔ ¬ CoversAsLiteral t s := by
  rcases t.literal_or_other with ⟨v, rfl⟩ | single
  · rcases s.literal_or_other with ⟨u, rfl⟩ | other
    -- the classifier is never below a union of literals
    · rw [subset_literal_one]
      constructor
      · rintro never ⟨_, ⟨⟩, -, below⟩
        rw [below _ (List.mem_singleton_self _)] at never
        cases never
      · intro alone
        refine (Bool.eq_false_iff.mpr fun below => ?_).symm
        refine alone ⟨v, rfl, List.cons_ne_nil _ _, fun branch member => ?_⟩
        rw [List.mem_singleton.mp member]
        exact below
    -- below the literal itself is only what has no branches
    · rw [Bool.eq_iff_iff, subset_literal_iff other,
        subset_iff_branches other (Ty.union_ne_literal _), Ty.branches_one]
      constructor
      · rintro same ⟨_, ⟨⟩, some, below⟩
        exact some (same.mp fun branch member =>
          ⟨_, List.mem_singleton_self _, below branch member⟩)
      · intro alone
        constructor
        · intro each
          by_contra some
          refine alone ⟨v, rfl, some, fun branch member => ?_⟩
          obtain ⟨above, there, below⟩ := each branch member
          cases List.mem_singleton.mp there
          exact below
        · intro none branch member
          rw [none] at member
          cases member
  · constructor
    · rintro - ⟨v, rfl, -⟩
      exact single v rfl
    · intro _
      exact subset_right_of_branches (Ty.union_ne_literal _) single (Ty.branches_one t) s

theorem meet_of_branches {a b c d : Ty} (left : a.branches = c.branches)
    (right : b.branches = d.branches) : meet a b = meet c d := by
  rw [meet_eq_collapse, meet_eq_collapse, branchMeets, branchMeets, left, right]

theorem reduce_one (t : Ty) : reduce (.union [t]) = reduce t := by
  cases t with
  | literal u => rfl
  | union parts => simp only [reduce, Rules.reduce, Ty.branchesOf, Ty.branches, List.append_nil]
  | resolved s => rfl

theorem typesMatch_iff (a b : Ty) : typesMatch a b = true ↔
    ∃ branch ∈ a.branches, ∃ other ∈ b.branches, typesMatch branch other = true := by
  have matching : ∀ a b, typesMatch a b = true ↔ branchMeets a b ≠ [] := by
    intro a b
    change (meet a b).isSome = true ↔ _
    rw [Option.isSome_iff_ne_none, ne_eq, meet_eq_none_iff]
  constructor
  · intro holds
    obtain ⟨ty, member⟩ := List.exists_mem_of_ne_nil _ ((matching a b).mp holds)
    obtain ⟨branch, inside, other, there, found⟩ := mem_branchMeets.mp member
    exact ⟨branch, inside, other, there, Option.isSome_iff_exists.mpr ⟨ty, found⟩⟩
  · rintro ⟨branch, inside, other, there, holds⟩
    obtain ⟨ty, found⟩ := Option.isSome_iff_exists.mp holds
    rw [matching]
    exact List.ne_nil_of_mem (mem_branchMeets.mpr ⟨branch, inside, other, there, found⟩)

theorem meetAll_eq (as bs : List Ty) :
    (Rules.meetAll queries as bs).run = meet (.union as) (.union bs) := by
  rw [meetAll_run, meet_eq_collapse]

end Reference

/-- A union of one branch counts as that branch, whatever the branch, in every meet and when
reduced. It does so in the subset relation too, but for two cases with a literal branch: a union
on the right that holds the literal as a branch, and branches on the left that are all below the
literal. -/
theorem one_branch_union_counts_as_branch [PairKey] (t s : Ty) :
    (Question.meet (.union [t]) s).Alike (.meet t s) ∧
    (Question.meet s (.union [t])).Alike (.meet s t) ∧
    (Question.reduce (.union [t])).Alike (.reduce t) ∧
    ((Question.subset (.union [t]) s).Alike (.subset t s) ↔ ¬ Reference.HeldAsLiteral t s) ∧
    ((Question.subset s (.union [t])).Alike (.subset s t) ↔ ¬ Reference.CoversAsLiteral t s) := by
  have truth : ∀ a b c d : Ty, (Question.subset a b).Alike (.subset c d) ↔
      Reference.subset a b = Reference.subset c d := by
    intro a b c d
    rw [Question.alike_iff]
    exact Iff.of_eq (Answer.truth.injEq _ _)
  refine ⟨?_, ?_, ?_, ?_, ?_⟩
  · exact Question.alike_iff.mpr (congrArg Answer.type
      (Reference.meet_of_branches (Ty.branches_one t) rfl))
  · exact Question.alike_iff.mpr (congrArg Answer.type
      (Reference.meet_of_branches rfl (Ty.branches_one t)))
  · exact Question.alike_iff.mpr (congrArg Answer.type (Reference.reduce_one t))
  · rw [truth, Reference.subset_one_left]
  · rw [truth, Reference.subset_one_right]

def Ty.two : Ty := .literal (.number ⟨0x4000000000000000⟩)

/-- The two cases in which a union of one literal is not taken for the literal. -/
theorem one_branch_union_of_literal :
    Reference.subset (.union [.two]) .two = false ∧ Reference.subset .two (.union [.two]) = false ∧
    Reference.subset .two .two = true ∧
    Query.once (Query.subset (.union [.two]) .two) = false ∧
    Query.once (Query.subset .two (.union [.two])) = false ∧
    Query.once (Query.subset .two .two) = true := by
  refine ⟨?_, ?_, ?_, ?_, ?_, ?_⟩ <;> cbv

instance : EquivBEq (List Ty) := equivBEq_of_form (List.map Ty.canonical) Ty.list_equal_iff_map

theorem filterMap_equal {α : Type} {xs : List α} {f g : α → Option Ty}
    (same : ∀ x ∈ xs, f x == g x) : xs.filterMap f == xs.filterMap g := by
  induction xs with
  | nil => rfl
  | cons x rest ih =>
      have tail := ih fun y member => same y (List.mem_cons_of_mem x member)
      have head := same x List.mem_cons_self
      rcases @Precision.option_cases .equality _ _ _ _ head with
        ⟨left, right⟩ | ⟨a, b, left, right, equal⟩
      · simpa only [List.filterMap_cons, left, right] using tail
      · simp only [List.filterMap_cons, left, right]
        exact (@Precision.cons_iff .equality _ _ _ _ _ _).mpr ⟨equal, tail⟩

theorem flatMap_equal {α : Type} {xs : List α} {f g : α → List Ty}
    (same : ∀ x ∈ xs, f x == g x) : xs.flatMap f == xs.flatMap g := by
  induction xs with
  | nil => rfl
  | cons x rest ih =>
      have tail := ih fun y member => same y (List.mem_cons_of_mem x member)
      have head := same x List.mem_cons_self
      rw [list_equal_iff] at head tail ⊢
      exact List.rel_append head tail

namespace Context

variable [PairKey]

/-- Every pair of branches is put to a context of its own, which meets no cutoff on it. -/
def SettlePairs (asked : Ty → Ty → Context) (a b : Ty) (question : Ty → Ty → Question) : Prop :=
  ∀ branch ∈ a.branches, ∀ other ∈ b.branches,
    (asked branch other).Reached ∧ (asked branch other).Settles (question branch other)

def foundPairs (asked : Ty → Ty → Context) (a b : Ty) : List Ty :=
  a.branches.flatMap fun branch =>
    b.branches.filterMap fun other => (asked branch other).found branch other

theorem foundPairs_plain {asked : Ty → Ty → Context} {a b : Ty}
    (settled : SettlePairs asked a b .meet) :
    foundPairs asked a b == Reference.branchMeets a b := by
  apply flatMap_equal
  intro branch inside
  apply filterMap_equal
  intro other there
  obtain ⟨reached, settles⟩ := settled branch inside other there
  exact reached.found_plain settles

end Context

theorem elim_branches_equal {x y : Option Ty} (same : x == y) :
    x.elim [] Ty.branches == y.elim [] Ty.branches := by
  rcases @Precision.option_cases .equality _ _ _ _ same with ⟨rfl, rfl⟩ | ⟨a, b, rfl, rfl, equal⟩
  · rfl
  · exact Ty.branches_equal equal

theorem Reference.elim_branches_meet (a b : Ty) :
    (meet a b).elim [] Ty.branches = branchMeets a b := by
  cases found : meet a b with
  | none => exact ((meet_eq_none_iff a b).mp found).symm
  | some ty => exact branches_of_meet found

/-- Meets distribute over the branches of both sides: a meet is the collapsed list of the meets
that the pairs of branches have, in order, and its branches are that list. So a meet depends on
the branches only, types match if two of their branches do, and lists of alternatives meet as
the unions of them. All of this holds of any contexts that meet no cutoff. -/
theorem meet_distributes_over_branches [PairKey] :
    (∀ a b : Ty, Reference.meet a b = Ty.collapse (Reference.branchMeets a b) ∧
      (Reference.meet a b).elim [] Ty.branches = Reference.branchMeets a b ∧
      (Reference.typesMatch a b = true ↔
        ∃ s ∈ a.branches, ∃ p ∈ b.branches, Reference.typesMatch s p = true)) ∧
    (∀ a b c d : Ty, a.branches = c.branches → b.branches = d.branches →
      (Question.meet a b).Alike (.meet c d)) ∧
    (∀ as bs : List Ty, (Question.meetAll as bs).Alike (.meet (.union as) (.union bs))) ∧
    ∀ (context : Context) (asked : Ty → Ty → Context) (a b : Ty), context.Reached →
      (context.Settles (.meet a b) → Context.SettlePairs asked a b .meet →
        context.found a b == Ty.collapse (Context.foundPairs asked a b) ∧
        (context.found a b).elim [] Ty.branches == Context.foundPairs asked a b) ∧
      (context.Settles (.typesMatch a b) → Context.SettlePairs asked a b .typesMatch →
        (context.Affirms (.typesMatch a b) ↔
          ∃ s ∈ a.branches, ∃ p ∈ b.branches, (asked s p).Affirms (.typesMatch s p))) := by
  refine ⟨fun a b => ?_, fun a b c d left right => ?_, fun as bs => ?_, ?_⟩
  · exact ⟨Reference.meet_eq_collapse a b, Reference.elim_branches_meet a b,
      Reference.typesMatch_iff a b⟩
  · exact Question.alike_iff.mpr (congrArg Answer.type (Reference.meet_of_branches left right))
  · exact Question.alike_iff.mpr (congrArg Answer.type (Reference.meetAll_eq as bs))
  · intro context asked a b reached
    constructor
    · intro settles settled
      have plain := reached.found_plain settles
      have pairs := BEq.symm (Context.foundPairs_plain settled)
      constructor
      · rw [Reference.meet_eq_collapse] at plain
        exact PartialEquivBEq.trans plain (Ty.collapse_equal pairs)
      · have branches := elim_branches_equal plain
        rw [Reference.elim_branches_meet] at branches
        exact PartialEquivBEq.trans branches pairs
    · intro settles settled
      rw [reached.affirms_iff settles]
      change Reference.typesMatch a b = true ↔ _
      rw [Reference.typesMatch_iff]
      refine exists_congr fun s => and_congr_right fun inside => exists_congr fun p =>
        and_congr_right fun there => ?_
      obtain ⟨reachedPair, settlesPair⟩ := settled s inside p there
      exact (reachedPair.affirms_iff settlesPair).symm

def Ty.numberTwoText : Ty := .union [.number, .union [.two, .union [.text]]]

def Ty.textNumbers : Ty := .union [.union [.text, .number], .number]

def Ty.numbersTwosText : Ty :=
  .union [.number, .union [.number, .union [.two, .union [.two, .text]]]]

def Context.afresh (_ _ : Ty) : Context := Context.new ⟨false, 3, 0⟩

theorem meet_distributes_over_branches_nested :
    Reference.meet .numberTwoText .textNumbers = some .numbersTwosText ∧
    (Context.new ⟨true, 4, 1⟩).found .numberTwoText .textNumbers == some .numbersTwosText ∧
    (Context.new ⟨true, 4, 1⟩).Affirms (.typesMatch .numberTwoText .textNumbers) := by
  obtain ⟨plain, -, -, contexts⟩ := meet_distributes_over_branches
  have left : Ty.numberTwoText.branches = [.number, .two, .text] := by cbv
  have right : Ty.textNumbers.branches = [.text, .number, .number] := by cbv
  obtain ⟨found, matching⟩ := contexts (Context.new ⟨true, 4, 1⟩) Context.afresh .numberTwoText
    .textNumbers (Context.reached_new _)
  have settled : Context.SettlePairs Context.afresh .numberTwoText .textNumbers .meet := by
    intro s inside p there
    refine ⟨Context.reached_new _, ?_⟩
    simp only [left, right, List.mem_cons, List.not_mem_nil, or_false, or_self] at inside there
    rcases inside with rfl | rfl | rfl <;> rcases there with rfl | rfl <;> cbv
  have settledMatch : Context.SettlePairs Context.afresh .numberTwoText .textNumbers .typesMatch :=
    settled
  refine ⟨?_, ?_, ?_⟩
  · rw [(plain _ _).1]
    cbv
  · have pairs : Ty.collapse (Context.foundPairs Context.afresh .numberTwoText .textNumbers) =
        some .numbersTwosText := by cbv
    exact pairs ▸ (found (by cbv) settled).1
  · refine (matching (by cbv) settledMatch).mpr ⟨.two, ?_, .number, ?_, ?_⟩
    · simp [left]
    · simp [right]
    · cbv

end StructuralTypes
