import StructuralTypes.Proofs.Levels
import StructuralTypes.Proofs.Preorder

/-!
How deep questions nest. The rank of a question, which its operands' joint height bounds, goes
down with every level, so a context with as many levels left as the rank meets no cutoff,
whatever it remembers. The same bound serves the rules without any limit: unfolded as often as
the operands are high together, they never reach the end of the unfolding.
-/

namespace StructuralTypes

namespace Query

variable [PairKey]

/-- With `room` levels left no cutoff falls. -/
structure Roomy (room : Nat) {α : Type} (work : Query α) : Prop where
  steady : Steady work
  clean : ∀ context : Context, context.depth + room ≤ context.config.maxDepth →
    (work.run context).2.cutoffs = context.cutoffs

namespace Roomy

variable {α β : Type} {room : Nat}

theorem pure (x : α) : Roomy room (pure x : Query α) := ⟨.pure x, fun _ _ => rfl⟩

theorem bind {work : Query α} {f : α → Query β} (first : Roomy room work)
    (rest : ∀ u, Roomy room (f u)) : Roomy room (work >>= f) := by
  constructor
  · exact first.steady.bind fun u => (rest u).steady
  · intro context enough
    have after : (work.run context).2.depth + room ≤ (work.run context).2.config.maxDepth := by
      rw [first.steady.depth, first.steady.config]
      exact enough
    rw [bind_run]
    exact ((rest _).clean _ after).trans (first.clean context enough)

theorem deeper {work : Query α} (fallback : α) (roomy : Roomy room work) :
    Roomy (room + 1) (deeper fallback work) := by
  constructor
  · exact .deeper fallback roomy.steady
  · intro context enough
    have below : ¬ context.config.maxDepth ≤ context.depth := by omega
    have inside : context.depth + 1 + room ≤ context.config.maxDepth := by omega
    rw [deeper_run, if_neg below]
    exact roomy.clean { context with depth := context.depth + 1 } inside

theorem remembered {table : Table α} {policy : Policy} {fits : Ty → Ty → α → Prop}
    (still : table.Still) (lawful : table.Lawful policy fits) (a b : Ty) {work : Query α}
    (roomy : Roomy room work) : Roomy room (remembered table a b work) := by
  constructor
  · exact .remembered still a b roomy.steady
  · intro context enough
    have looked := lawful.look_cutoffs a b context
    rw [remembered_run]
    by_cases memoize : context.config.memoize = true
    · rw [if_pos memoize]
      cases found : ((table.look a b).run context).1 with
      | some answer =>
          simp only [found]
          exact looked
      | none =>
          have after : ((table.look a b).run context).2.depth + room ≤
              ((table.look a b).run context).2.config.maxDepth := by
            rw [(still.look a b).depth, (still.look a b).config]
            exact enough
          have worked := roomy.clean _ after
          simp only [found, if_pos worked, lawful.record_cutoffs]
          exact worked.trans looked
    · rw [if_neg memoize]
      exact roomy.clean context enough

end Roomy

def rooms (room : Nat) : Lockstep Query Id where
  precision := .equality
  agree work _ := Roomy room work
  pure _ := .pure _
  bind first rest := first.bind fun u => rest u u (BEq.refl u)

/-- A question needs as many levels as its rank. -/
theorem within_roomy (bound : Nat) : ∀ steps, bound ≤ steps →
    Agreement (rooms bound) (within steps) Reference.queries bound := by
  induction bound with
  | zero => exact fun _ _ => .zero
  | succ bound ih =>
      intro steps enough
      obtain ⟨k, rfl⟩ : ∃ k, steps = k + 1 := ⟨steps - 1, by omega⟩
      have below := ih k (by omega)
      constructor
      · intro a b c d left right low
        change Roomy (bound + 1) (if a == b then pure true
          else remembered subsets a b (Query.deeper false (Rules.subset (within k) a b)))
        have rules : Roomy bound (Rules.subset (within k) a b) := below.subsetRule left right low
        split
        · exact .pure true
        · exact .remembered subsets_still (subsets_lawful .plain) a b (rules.deeper false)
      · intro a b c d left right low
        have rules : Roomy bound (Rules.meet (within k) a b) := below.meetRule left right low
        exact .remembered meets_still (meets_lawful .plain) a b (rules.deeper none)

def identity : Lockstep Query Query where
  precision := .letter
  agree work other := work = other
  pure same := congrArg _ same
  bind {_ _ _ _ _ x y f g} first rest := by
    have next : f = g := funext fun u => rest u u rfl
    rw [first, next]

theorem within_same {bound steps more : Nat} (enough : bound ≤ steps) (enoughMore : bound ≤ more) :
    Agreement identity (within steps) (within more) bound := by
  apply Agreement.tower _ _ enough enoughMore
  · intro k l a b c d left right _ _ rules
    cases left
    cases right
    have same : Rules.subset (within k) a b = Rules.subset (within l) a b := rules
    change (within (k + 1)).subset a b = (within (l + 1)).subset a b
    simp only [within, same]
  · intro k l a b c d left right _ _ rules
    cases left
    cases right
    have same : Rules.meet (within k) a b = Rules.meet (within l) a b := rules
    change (within (k + 1)).meet a b = (within (l + 1)).meet a b
    simp only [within, same]

theorem queries_roomy (bound : Nat) :
    Agreement (rooms bound) queries Reference.queries bound := by
  have roomy := within_roomy bound bound (Nat.le_refl bound)
  constructor
  · intro a b c d left right low
    have same : queries.subset a b = (within bound).subset a b :=
      (within_same (Ty.subsetRank_le a b) low).subset rfl rfl (Nat.le_refl _)
    rw [same]
    exact roomy.subset left right low
  · intro a b c d left right low
    have same : queries.meet a b = (within bound).meet a b :=
      (within_same (Nat.le_refl _) low).meet rfl rfl (Nat.le_refl _)
    rw [same]
    exact roomy.meet left right low

end Query

/-- The rules unfolded `times` times, with no limit and nothing remembered. A question that
comes to the end of the unfolding has no answer, and neither has one that needs it. -/
def unfolded : Nat → Queries Option
  | 0 => { subset := fun _ _ => none, meet := fun _ _ => none }
  | times + 1 =>
      { subset := fun a b => if a == b then pure true else Rules.subset (unfolded times) a b
        meet := fun a b => Rules.meet (unfolded times) a b }

def answered : Lockstep Option Id where
  precision := .letter
  agree work plain := work = some plain.run
  pure same := congrArg some same
  bind {_ _ _ _ _ x y f g} first rest := by
    rw [first]
    exact rest _ _ rfl

theorem unfolded_answers (times : Nat) :
    Agreement answered (unfolded times) Reference.queries times := by
  apply Agreement.tower (R := fun _ => Reference.queries) _ _ (Nat.le_refl times)
    (Nat.le_refl times)
  · intro k _ a b c d left right _ _ rules
    cases left
    cases right
    change (if a == b then some true else Rules.subset (unfolded k) a b) =
      some (Reference.subset a b)
    rw [Reference.subset_eq]
    by_cases same : (a == b) = true
    · rw [if_pos same, same, Bool.true_or]
    · rw [if_neg same, Bool.eq_false_iff.mpr same, Bool.false_or]
      exact rules
  · intro k _ a b c d left right _ _ rules
    cases left
    cases right
    change Rules.meet (unfolded k) a b = some (Reference.meet a b)
    rw [Reference.meet_eq]
    exact rules

theorem Request.history_roomy [PairKey] {config : Config} (requests : List Request) {room : Nat}
    (enough : room ≤ config.maxDepth) {α : Type} {work : Query α} (roomy : Query.Roomy room work) :
    (work.run (history requests (Context.new config))).2.cutoffs =
      (history requests (Context.new config)).cutoffs := by
  apply roomy.clean
  rw [history_depth, history_config]
  change 0 + room ≤ config.maxDepth
  omega

/-- A limit as high as two types together cuts none of the questions about them short,
whatever was asked before and is remembered. Without a limit every question comes to an end:
the rules unfolded that often answer it. The steps that a context is given are of no account
either, as more of them make no difference. -/
theorem recursion_bounded_by_nesting [PairKey] (a b : Ty) :
    (∀ (config : Config) (requests : List Request), a.height + b.height ≤ config.maxDepth →
      let context := Request.history requests (Context.new config)
      context.Settles (.subset a b) ∧ context.Settles (.meet a b) ∧
      context.Settles (.typeEqual a b) ∧ context.Settles (.typesMatch a b)) ∧
    ∀ times, a.height + b.height ≤ times →
      (unfolded times).subset a b = some (Reference.subset a b) ∧
      (unfolded times).meet a b = some (Reference.meet a b) ∧
      Rules.typeEqual (unfolded times) a b = some (Reference.typeEqual a b) ∧
      Rules.typesMatch (unfolded times) a b = some (Reference.typesMatch a b) ∧
      (Query.within times).subset a b = Query.subset a b ∧
      (Query.within times).meet a b = Query.meet a b := by
  constructor
  · intro config requests enough
    have roomy := Query.queries_roomy (a.height + b.height)
    have below := Request.history_roomy requests enough
      (roomy.subset_of_height (BEq.refl a) (BEq.refl b) (Nat.le_refl _))
    have met := Request.history_roomy requests enough
      (roomy.meet (BEq.refl a) (BEq.refl b) (Nat.le_refl _))
    have equal := Request.history_roomy requests enough
      (roomy.typeEqual (BEq.refl a) (BEq.refl b) (Nat.le_refl _))
    have matching := Request.history_roomy requests enough
      (roomy.typesMatch (BEq.refl a) (BEq.refl b) (Nat.le_refl _))
    exact ⟨below, met, equal, matching⟩
  · intro times enough
    have answers := unfolded_answers times
    have steps := Query.within_same enough (Nat.le_refl (a.height + b.height))
    refine ⟨?_, ?_, ?_, ?_, ?_, ?_⟩
    · exact answers.subset_of_height rfl rfl enough
    · exact answers.meet rfl rfl enough
    · exact answers.typeEqual rfl rfl enough
    · exact answers.typesMatch rfl rfl enough
    · exact steps.subset_of_height rfl rfl (Nat.le_refl _)
    · exact steps.meet rfl rfl (Nat.le_refl _)

def Ty.greetingRecord : Ty := .resolved (.dictionary [("name", .literal (.text "hi"))])

def Ty.nameRecord : Ty := .resolved (.dictionary [("name", .numberOrText)])

def Context.sevenLevels : Context :=
  Request.history
    [.ask (.subset (Nat.repeat Ty.list 8 .number) (Nat.repeat Ty.list 8 .numberOrText))]
    (Context.new ⟨true, 7, 1⟩)

/-- The row rule goes from one question to the other, and the literal asks the first again. -/
theorem recursion_bounded_by_nesting_records :
    0 < Context.sevenLevels.cutoffs ∧
    Ty.greetingRecord.height + Ty.nameRecord.height = 7 ∧
    Context.sevenLevels.Settles (.subset .greetingRecord .nameRecord) ∧
    Context.sevenLevels.Settles (.typesMatch .greetingRecord .nameRecord) ∧
    Context.sevenLevels.Affirms (.subset .greetingRecord .nameRecord) ∧
    (unfolded 3).subset .greetingRecord .nameRecord = none ∧
    (unfolded 7).subset .greetingRecord .nameRecord = some true := by
  have cut : 0 < Context.sevenLevels.cutoffs := by cbv
  have high : Ty.greetingRecord.height + Ty.nameRecord.height = 7 := by cbv
  obtain ⟨settles, unfolds⟩ := recursion_bounded_by_nesting .greetingRecord .nameRecord
  obtain ⟨below, -, -, matching⟩ := settles ⟨true, 7, 1⟩ [.ask (.subset
    (Nat.repeat Ty.list 8 .number) (Nat.repeat Ty.list 8 .numberOrText))] (Nat.le_of_eq high)
  have plain : Reference.subset .greetingRecord .nameRecord = true := by cbv
  have answer := (unfolds 7 (Nat.le_of_eq high)).1
  rw [plain] at answer
  exact ⟨cut, high, below, matching, by cbv, by cbv, answer⟩

end StructuralTypes
