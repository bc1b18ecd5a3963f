import StructuralTypes.Proofs.Levels
import StructuralTypes.Proofs.Preorder

/-!
Remembering answers is transparent. Two contexts run the same rules under the same limit, and
one of them remembers nothing. Their runs differ, since a hit skips all the questions below it,
but each question that both ask is asked at the same level. So if the context that works out
everything meets no cutoff, neither does the one that remembers: it goes down where the other
went down, or not at all. `Mirrors` says this of a computation and is carried through the
rules by `Lockstep`.
-/

namespace StructuralTypes

section

variable [PairKey]

/-- A context and one that remembers nothing, at the same level under the same limit. -/
structure Context.Beside (context bare : Context) : Prop where
  limit : context.config.maxDepth = bare.config.maxDepth
  level : context.depth = bare.depth
  forgets : bare.config.memoize = false
  sound : context.cache.Sound
  soundBare : bare.cache.Sound

theorem Context.Beside.deeper {context bare : Context} (beside : context.Beside bare) :
    Beside { context with depth := context.depth + 1 } { bare with depth := bare.depth + 1 } :=
  { beside with level := congrArg (· + 1) beside.level }

namespace Query

/-- Where `bare` meets no cutoff on a context that remembers nothing, `work` meets none beside
it, and answers the same. -/
structure Mirrors {α : Type} [BEq α] (work bare : Query α) : Prop where
  grows : ∀ context : Context, context.cutoffs ≤ (bare.run context).2.cutoffs
  clean : ∀ {first second : Context}, first.Beside second →
    (bare.run second).2.cutoffs = second.cutoffs → (work.run first).2.cutoffs = first.cutoffs
  answers : ∀ {first second : Context}, first.Beside second →
    (bare.run second).2.cutoffs = second.cutoffs → (work.run first).1 == (bare.run second).1
  beside : ∀ {first second : Context}, first.Beside second →
    (bare.run second).2.cutoffs = second.cutoffs → (work.run first).2.Beside (bare.run second).2

/-- Mirroring as a comparison: as long as no cutoff falls, the answers are equal and so are
the steps that follow. -/
def mirroring : Lockstep Query Query where
  precision := .equality
  agree work bare := Mirrors work bare
  pure same := ⟨fun _ => Nat.le_refl _, fun _ _ => rfl, fun _ _ => same, fun beside _ => beside⟩
  bind {α β} _ _ _ x y f g head rest := by
    have later : ∀ v context, context.cutoffs ≤ ((g v).run context).2.cutoffs :=
      fun v => (rest v v (BEq.refl v)).grows
    -- a clean run is clean in both parts
    have split : ∀ context : Context, ((y >>= g).run context).2.cutoffs = context.cutoffs →
        (y.run context).2.cutoffs = context.cutoffs ∧
        ((g (y.run context).1).run (y.run context).2).2.cutoffs = (y.run context).2.cutoffs := by
      intro context clean
      have before := head.grows context
      have after := later (y.run context).1 (y.run context).2
      rw [bind_run] at clean
      omega
    constructor
    · intro context
      exact Nat.le_trans (head.grows context) (later _ _)
    · intro first second beside clean
      obtain ⟨cleanHead, cleanRest⟩ := split second clean
      have next := rest _ _ (head.answers beside cleanHead)
      exact (next.clean (head.beside beside cleanHead) cleanRest).trans
        (head.clean beside cleanHead)
    · intro first second beside clean
      obtain ⟨cleanHead, cleanRest⟩ := split second clean
      have next := rest _ _ (head.answers beside cleanHead)
      exact next.answers (head.beside beside cleanHead) cleanRest
    · intro first second beside clean
      obtain ⟨cleanHead, cleanRest⟩ := split second clean
      have next := rest _ _ (head.answers beside cleanHead)
      exact next.beside (head.beside beside cleanHead) cleanRest

theorem Mirrors.of_tracks {α : Type} [BEq α] [PartialEquivBEq α] {work bare : Query α}
    {plain : Id α} (tracks : Tracks work plain) (tracksBare : Tracks bare plain)
    (steady : Steady work) (steadyBare : Steady bare)
    (clean : ∀ {first second : Context}, first.Beside second →
      (bare.run second).2.cutoffs = second.cutoffs → (work.run first).2.cutoffs = first.cutoffs) :
    Mirrors work bare := by
  constructor
  · exact tracksBare.grows
  · exact clean
  · intro first second beside cleanBare
    exact PartialEquivBEq.trans (tracks.answers first beside.sound (clean beside cleanBare))
      (BEq.symm (tracksBare.answers second beside.soundBare cleanBare))
  · intro first second beside cleanBare
    constructor
    · rw [steady.config, steadyBare.config]
      exact beside.limit
    · rw [steady.depth, steadyBare.depth]
      exact beside.level
    · rw [steadyBare.config]
      exact beside.forgets
    · exact tracks.keeps first beside.sound
    · exact tracksBare.keeps second beside.soundBare

theorem Mirrors.deeper_clean {α : Type} [BEq α] {work bare : Query α} (fallback : α)
    (mirrors : Mirrors work bare) {first second : Context} (beside : first.Beside second)
    (clean : ((deeper fallback bare).run second).2.cutoffs = second.cutoffs) :
    ((deeper fallback work).run first).2.cutoffs = first.cutoffs := by
  rw [deeper_run] at clean ⊢
  by_cases limit : second.config.maxDepth ≤ second.depth
  · rw [if_pos limit] at clean
    exact absurd clean (Nat.succ_ne_self _)
  · rw [if_neg limit] at clean
    rw [beside.limit, beside.level, if_neg limit, ← beside.level]
    exact mirrors.clean beside.deeper clean

/-- A hit meets no cutoff. A miss goes on beside the context that remembers nothing. -/
theorem Mirrors.remembered_clean {α : Type} [BEq α] {table : Table α} (still : table.Still)
    {fits : Ty → Ty → α → Prop} (lawful : table.Lawful .plain fits) (a b c d : Ty)
    {work bare : Query α}
    (clean : ∀ {first second : Context}, first.Beside second →
      (bare.run second).2.cutoffs = second.cutoffs → (work.run first).2.cutoffs = first.cutoffs)
    {first second : Context} (beside : first.Beside second)
    (cleanBare : ((remembered table c d bare).run second).2.cutoffs = second.cutoffs) :
    ((remembered table a b work).run first).2.cutoffs = first.cutoffs := by
  have forgets : ¬ second.config.memoize = true := Bool.eq_false_iff.mp beside.forgets
  rw [remembered_run, if_neg forgets] at cleanBare
  rw [remembered_run]
  have looked := lawful.look_cutoffs a b first
  by_cases memoize : first.config.memoize = true
  · rw [if_pos memoize]
    cases found : ((table.look a b).run first).1 with
    | some answer =>
        simp only [found]
        exact looked
    | none =>
        -- the look counted a miss and changed nothing that the other context is compared by
        have besideLooked : ((table.look a b).run first).2.Beside second :=
          { beside with
            limit := by rw [(still.look a b).config]; exact beside.limit
            level := by rw [(still.look a b).depth]; exact beside.level
            sound := lawful.look_obeys a b first beside.sound }
        have worked := clean besideLooked cleanBare
        simp only [found, if_pos worked, lawful.record_cutoffs]
        exact worked.trans looked
  · rw [if_neg memoize]
    exact clean beside cleanBare

theorem within_mirrors {bound steps more : Nat} (enough : bound ≤ steps)
    (enoughMore : bound ≤ more) : Agreement mirroring (within steps) (within more) bound := by
  apply Agreement.tower _ _ enough enoughMore
  · intro k l a b c d left right low lowOther rules
    have tests : (a == b) = (c == d) := Precision.beq_congr left right
    refine Mirrors.of_tracks ((within_tracks (k + 1)).subset left right low)
      ((within_tracks (l + 1)).subset (BEq.refl c) (BEq.refl d) lowOther)
      ((within_steady (k + 1)).subset left right low)
      ((within_steady (l + 1)).subset (BEq.refl c) (BEq.refl d) lowOther) ?_
    -- equal operands are answered before either context goes down
    simp only [within, tests]
    split
    · exact (mirroring.refl true).clean
    · exact Mirrors.remembered_clean subsets_still (subsets_lawful .plain) a b c d
        (rules.deeper_clean false)
  · intro k l a b c d left right low lowOther rules
    refine Mirrors.of_tracks ((within_tracks (k + 1)).meet left right low)
      ((within_tracks (l + 1)).meet (BEq.refl c) (BEq.refl d) lowOther)
      ((within_steady (k + 1)).meet left right low)
      ((within_steady (l + 1)).meet (BEq.refl c) (BEq.refl d) lowOther) ?_
    exact Mirrors.remembered_clean meets_still (meets_lawful .plain) a b c d
      (rules.deeper_clean none)

theorem queries_mirror : Agree mirroring queries queries := by
  intro bound
  constructor
  · intro a b c d left right _
    have rank := Ty.subsetRank_equal left right
    exact (within_mirrors (Ty.subsetRank_le a b)
      (rank ▸ Ty.subsetRank_le c d)).subset left right (Nat.le_refl _)
  · intro a b c d left right _
    have heights := congrArg₂ (· + ·) (Ty.height_equal left) (Ty.height_equal right)
    exact (within_mirrors (Nat.le_refl _) (Nat.le_of_eq heights)).meet left right (Nat.le_refl _)

theorem ask_mirrors (question : Question) : Mirrors question.ask question.ask :=
  queries_mirror.answerBy question

end Query

theorem Request.histories_beside (config bare : Config) (limit : config.maxDepth = bare.maxDepth)
    (forgets : bare.memoize = false) (requests others : List Request) :
    (history requests (Context.new config)).Beside (history others (Context.new bare)) := by
  constructor
  · rw [history_config, history_config]
    exact limit
  · rw [history_depth, history_depth]
    rfl
  · rw [history_config]
    exact forgets
  · exact reached_sound config requests
  · exact reached_sound bare others

/-- A question that meets no cutoff on a context that remembers nothing, after any history,
meets none on a context that remembers, under the same limit, after any other history, and
gets an equal answer there. -/
theorem memoization_transparent (limit capacity otherCapacity : Nat)
    (requests others : List Request) (question : Question) :
    let bare := Request.history requests (Context.new ⟨false, limit, capacity⟩)
    let context := Request.history others (Context.new ⟨true, limit, otherCapacity⟩)
    bare.Settles question →
      context.Settles question ∧ (question.ask.run context).1 == (question.ask.run bare).1 := by
  intro bare context settles
  have beside : context.Beside bare :=
    Request.histories_beside ⟨true, limit, otherCapacity⟩ ⟨false, limit, capacity⟩ rfl rfl
      others requests
  have mirrors := Query.ask_mirrors question
  exact ⟨mirrors.clean beside settles, mirrors.answers beside settles⟩

end

def Context.crowded : Context :=
  Request.history
    [.ask (.subset (.list (.list .numberOrText)) (.list (.list .scalar))),
      .ask (.meet .numberOrText .scalar), .ask (.subset .numberOrText .scalar)]
    (Context.new ⟨true, 3, 1⟩)

theorem memoization_transparent_crowded :
    (Context.new ⟨false, 3, 0⟩).Settles .scalarLists ∧
    0 < Context.crowded.cutoffs ∧ 0 < Context.crowded.cache.stats.flushes ∧
    (Question.scalarLists.ask.run Context.crowded).2.cache.stats.hits =
      Context.crowded.cache.stats.hits + 1 ∧
    Context.crowded.Settles .scalarLists ∧
    (Question.scalarLists.ask.run Context.crowded).1 ==
      (Question.scalarLists.ask.run (Context.new ⟨false, 3, 0⟩)).1 := by
  have settles : (Context.new ⟨false, 3, 0⟩).Settles .scalarLists := by cbv
  have cut : 0 < Context.crowded.cutoffs := by cbv
  have flushed : 0 < Context.crowded.cache.stats.flushes := by cbv
  have hit : (Question.scalarLists.ask.run Context.crowded).2.cache.stats.hits =
      Context.crowded.cache.stats.hits + 1 := by cbv
  exact ⟨settles, cut, flushed, hit, memoization_transparent 3 0 1 [] _ .scalarLists settles⟩

end StructuralTypes
