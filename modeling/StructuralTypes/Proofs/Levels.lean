import StructuralTypes.Proofs.Context
import StructuralTypes.Proofs.Lockstep

/-!
Where a computation leaves its context. Whatever was cut off, found in a table or cut short
by a failed test, a question ends on the settings and at the level it started from, so
every history of requests leads back to the outermost level.
-/

namespace StructuralTypes

variable [PairKey]

namespace Query

/-- The settings and the level are the same before and after. -/
structure Steady {α : Type} (work : Query α) : Prop where
  config : ∀ context : Context, (work.run context).2.config = context.config
  depth : ∀ context : Context, (work.run context).2.depth = context.depth

theorem Steady.pure {α : Type} (x : α) : Steady (pure x : Query α) :=
  ⟨fun _ => rfl, fun _ => rfl⟩

theorem Steady.read {α : Type} (read : Context → α) :
    Steady (do return read (← get) : Query α) :=
  ⟨fun _ => rfl, fun _ => rfl⟩

theorem Steady.bind {α β : Type} {work : Query α} {f : α → Query β} (first : Steady work)
    (rest : ∀ u, Steady (f u)) : Steady (work >>= f) := by
  constructor
  · intro context
    rw [bind_run]
    exact ((rest _).config _).trans (first.config context)
  · intro context
    rw [bind_run]
    exact ((rest _).depth _).trans (first.depth context)

theorem Steady.deeper {α : Type} {work : Query α} (fallback : α) (steady : Steady work) :
    Steady (deeper fallback work) := by
  constructor
  · intro context
    rw [deeper_run]
    split
    · rfl
    · exact steady.config { context with depth := context.depth + 1 }
  · intro context
    rw [deeper_run]
    split
    · rfl
    · exact congrArg (· - 1) (steady.depth { context with depth := context.depth + 1 })

structure Table.Still {α : Type} (table : Table α) : Prop where
  look : ∀ a b, Steady (table.look a b)
  record : ∀ a b answer, Steady (table.record a b answer)

theorem subsets_still : subsets.Still :=
  ⟨fun _ _ => ⟨fun _ => rfl, fun _ => rfl⟩, fun _ _ _ => ⟨fun _ => rfl, fun _ => rfl⟩⟩

theorem meets_still : meets.Still :=
  ⟨fun _ _ => ⟨fun _ => rfl, fun _ => rfl⟩, fun _ _ _ => ⟨fun _ => rfl, fun _ => rfl⟩⟩

theorem Steady.remembered {α : Type} {table : Table α} (still : table.Still) (a b : Ty)
    {work : Query α} (steady : Steady work) : Steady (remembered table a b work) := by
  unfold Query.remembered
  refine (Steady.read fun context => context.config.memoize).bind fun memoize => ?_
  -- the answer is recorded or not, and is given either way
  cases memoize with
  | false => exact steady
  | true =>
      refine (still.look a b).bind fun found => ?_
      cases found with
      | some answer => exact .pure answer
      | none =>
          refine (Steady.read Context.cutoffs).bind fun before => steady.bind fun answer => ?_
          refine (Steady.read Context.cutoffs).bind fun after => ?_
          simp only
          split
          · exact (still.record a b answer).bind fun _ => .pure answer
          · exact .pure answer

/-- Steadiness as a comparison: no answer matters to it, so it compares with anything. -/
def levels : Lockstep Query Id where
  precision := .equality
  agree work _ := Steady work
  pure _ := .pure _
  bind first rest := first.bind fun u => rest u u (BEq.refl u)

theorem within_steady (steps : Nat) : Agreement levels (within steps) Reference.queries steps := by
  apply Agreement.tower (R := fun _ => Reference.queries) _ _ (Nat.le_refl steps)
    (Nat.le_refl steps)
  · intro _ _ a b _ _ _ _ _ _ rules
    change Steady (if a == b then pure true else remembered subsets a b (deeper false _))
    split
    · exact .pure true
    · exact .remembered subsets_still a b (.deeper false rules)
  · intro _ _ a b _ _ _ _ _ _ rules
    exact .remembered meets_still a b (.deeper none rules)

theorem queries_steady : Agree levels queries Reference.queries := by
  intro bound
  constructor
  · intro a b _ _ left right _
    exact (within_steady _).subset left right (Ty.subsetRank_le a b)
  · intro a b _ _ left right _
    exact (within_steady _).meet left right (Nat.le_refl _)

theorem ask_steady (question : Question) : Steady question.ask :=
  queries_steady.answerBy question

end Query

namespace Request

theorem perform_steady (request : Request) : Query.Steady request.perform := by
  cases request with
  | ask question => exact (Query.ask_steady question).bind fun _ => .pure ()
  | forget => exact ⟨fun _ => rfl, fun _ => rfl⟩

theorem history_config (requests : List Request) (start : Context) :
    (history requests start).config = start.config := by
  induction requests generalizing start with
  | nil => rfl
  | cons request rest ih => exact (ih _).trans (request.perform_steady.config start)

theorem history_depth (requests : List Request) (start : Context) :
    (history requests start).depth = start.depth := by
  induction requests generalizing start with
  | nil => rfl
  | cons request rest ih => exact (ih _).trans (request.perform_steady.depth start)

end Request

end StructuralTypes
