import StructuralTypes.Proofs.Context
import StructuralTypes.Proofs.Reference

/-!
What a context remembers is right. `Cache.Sound` says that every entry of the two tables
holds the plain answer to its operands, and `Tracks` that a computation keeps this, never
takes a cutoff back, and gives the plain answer if no cutoff falls. Both are carried through
the rules by `Lockstep`; what has to be shown here is that going one level down and looking
up or recording an answer track. An answer that was found under a cutoff is wrong in general,
and it is the comparison of cutoffs that keeps it out of the tables.
-/

namespace StructuralTypes

def Policy.plain : Policy where
  subset a b x := x == Reference.subset a b
  meet a b x := x == Reference.meet a b
  subset_congr {a b c d _} left right same := by
    have equal : Reference.subset a b = Reference.subset c d := Reference.subset_congr left right
    rwa [← equal]
  meet_congr left right same := PartialEquivBEq.trans same (Reference.meet_congr left right)

abbrev Cache.Sound {key : Ty → Ty → UInt64} (cache : Cache key) : Prop := cache.Obeys .plain

namespace Query

variable [PairKey]

/-- A computation keeps what is remembered right, and answers as `plain` does unless a
cutoff falls. -/
structure Tracks {α : Type} [BEq α] (work : Query α) (plain : Id α) : Prop where
  keeps : ∀ context : Context, context.cache.Sound → (work.run context).2.cache.Sound
  grows : ∀ context : Context, context.cutoffs ≤ (work.run context).2.cutoffs
  answers : ∀ context : Context, context.cache.Sound →
    (work.run context).2.cutoffs = context.cutoffs → (work.run context).1 == plain.run

/-- Tracking as a comparison of computations: a step that was cut off is followed by
steps on an answer that no plain computation gives, and these still keep the tables right. -/
def tracking : Lockstep Query Id where
  precision := .equality
  agree work plain := Tracks work plain
  pure same := ⟨fun _ sound => sound, fun _ => Nat.le_refl _, fun _ _ _ => same⟩
  bind {α β} _ _ _ x y f g first rest := by
    have next : ∀ u, Tracks (f u) (g u) := fun u => rest u u (BEq.refl u)
    constructor
    · intro context sound
      exact (next _).keeps _ (first.keeps context sound)
    · intro context
      exact Nat.le_trans (first.grows context) ((next _).grows _)
    · intro context sound clean
      -- cutoffs only grow, so none fell in either part
      have before := first.grows context
      have after := (next (x.run context).1).grows (x.run context).2
      rw [bind_run] at clean
      have cleanFirst : (x.run context).2.cutoffs = context.cutoffs := by omega
      have cleanNext : ((f (x.run context).1).run (x.run context).2).2.cutoffs =
          (x.run context).2.cutoffs := by omega
      exact (rest _ _ (first.answers context sound cleanFirst)).answers _
        (first.keeps context sound) cleanNext

theorem Tracks.congr {α : Type} [BEq α] [PartialEquivBEq α] {work : Query α} {x y : Id α}
    (tracks : Tracks work x) (same : x.run == y.run) : Tracks work y :=
  ⟨tracks.keeps, tracks.grows, fun context sound clean =>
    PartialEquivBEq.trans (tracks.answers context sound clean) same⟩

theorem Tracks.deeper {α : Type} [BEq α] {work : Query α} {plain : Id α} (fallback : α)
    (tracks : Tracks work plain) : Tracks (deeper fallback work) plain := by
  constructor
  · intro context sound
    rw [deeper_run]
    split
    · exact sound
    · exact tracks.keeps _ sound
  · intro context
    rw [deeper_run]
    split
    · exact Nat.le_succ _
    · exact tracks.grows { context with depth := context.depth + 1 }
  · intro context sound clean
    rw [deeper_run] at clean ⊢
    split at clean
    · exact absurd clean (Nat.succ_ne_self _)
    · next below =>
        rw [if_neg below]
        exact tracks.answers _ sound clean

/-- A hit is right whatever fell before it. A miss records what it works out only if no
cutoff fell meanwhile, and then the answer is the plain one. -/
theorem Tracks.remembered {α : Type} [BEq α] {table : Table α} {truth : Ty → Ty → α}
    (lawful : table.Lawful .plain fun a b x => x == truth a b) (a b : Ty) {work : Query α}
    (tracks : Tracks work (truth a b)) : Tracks (remembered table a b work) (truth a b) := by
  constructor
  · intro context sound
    rw [remembered_run]
    have soundLook := lawful.look_obeys a b context sound
    split
    · simp only
      split
      · exact soundLook
      · split
        · next clean =>
            exact lawful.record_obeys _ _ _ _ (tracks.keeps _ soundLook)
              (tracks.answers _ soundLook clean)
        · exact tracks.keeps _ soundLook
    · exact tracks.keeps context sound
  · intro context
    rw [remembered_run]
    have same := lawful.look_cutoffs a b context
    have later := tracks.grows ((table.look a b).run context).2
    split
    · simp only
      split
      · exact Nat.le_of_eq same.symm
      · split
        · rw [lawful.record_cutoffs]
          omega
        · omega
    · exact tracks.grows context
  · intro context sound clean
    rw [remembered_run] at clean ⊢
    have soundLook := lawful.look_obeys a b context sound
    have same := lawful.look_cutoffs a b context
    split at clean
    · next memoize =>
        simp only [memoize, if_true] at clean ⊢
        cases found : ((table.look a b).run context).1 with
        | some answer => exact lawful.hit a b context answer sound found
        | none =>
            simp only [found] at clean ⊢
            split at clean
            · next kept =>
                rw [if_pos kept]
                exact tracks.answers _ soundLook kept
            · next fell => exact absurd (clean.trans same.symm) fell
    · next plain =>
        rw [if_neg plain]
        exact tracks.answers context sound clean

theorem within_tracks (steps : Nat) :
    Agreement tracking (within steps) Reference.queries steps := by
  apply Agreement.tower (R := fun _ => Reference.queries) _ _ (Nat.le_refl steps)
    (Nat.le_refl steps)
  · intro _ _ a b c d left right _ _ rules
    have same : Reference.subset a b = Reference.subset c d := Reference.subset_congr left right
    change Tracks (if a == b then pure true else remembered subsets a b (deeper false _))
      (Reference.subset c d)
    rw [← same]
    split
    · next equal =>
        rw [Reference.subset_of_equal equal]
        exact tracking.refl true
    · next unequal =>
        apply Tracks.remembered (subsets_lawful .plain) a b
        apply Tracks.deeper false
        have unfolded : Reference.subset c d = Rules.subset Reference.queries c d := by
          have test : (c == d) = false := by
            rw [← Precision.beq_congr left right]
            exact Bool.eq_false_iff.mpr unequal
          rw [Reference.subset_eq, test]
          rfl
        rw [same, unfolded]
        exact rules
  · intro k _ a b c d left right _ _ rules
    have same : Reference.meet a b == Reference.meet c d := Reference.meet_congr left right
    change Tracks (remembered meets a b (deeper none _)) (Reference.meet c d)
    refine Tracks.congr (Tracks.remembered (meets_lawful .plain) a b (Tracks.deeper none ?_)) same
    have tracked : Tracks (Rules.meet (within k) a b) (Reference.meet c d) := by
      rw [Reference.meet_eq]
      exact rules
    exact Tracks.congr tracked (BEq.symm same)

theorem queries_track : Agree tracking queries Reference.queries := by
  intro bound
  constructor
  · intro a b c d left right _
    exact (within_tracks _).subset left right (Ty.subsetRank_le a b)
  · intro a b c d left right _
    exact (within_tracks _).meet left right (Nat.le_refl _)

theorem ask_tracks (question : Question) :
    Tracks question.ask (question.answerBy Reference.queries) :=
  queries_track.answerBy question

end Query

theorem Request.reached_sound [PairKey] (config : Config) (requests : List Request) :
    (history requests (Context.new config)).cache.Sound :=
  history_obeys (fun question => (Query.ask_tracks question).keeps) config requests

/-- After any history, on any settings, everything remembered is the plain answer to its
operands, and a question that meets no cutoff gets its plain answer. -/
theorem remembered_answers_plain [PairKey] (config : Config) (requests : List Request) :
    let context := Request.history requests (Context.new config)
    (∀ entry, context.cache.subsets.Holds entry →
      entry.answer = Reference.subset entry.left entry.right) ∧
    (∀ entry, context.cache.meets.Holds entry →
      entry.answer == Reference.meet entry.left entry.right) ∧
    ∀ question : Question, (question.ask.run context).2.cutoffs = context.cutoffs →
      (question.ask.run context).1 == question.answer := by
  have sound := Request.reached_sound config requests
  refine ⟨?_, ?_, ?_⟩
  · intro entry held
    exact eq_of_beq (sound.subsets entry held)
  · intro entry held
    exact sound.meets entry held
  · intro question clean
    exact (Query.ask_tracks question).answers _ sound clean

def Ty.numberOrText : Ty := .union [.number, .text]

def Ty.scalar : Ty := .union [.text, .number, .logic]

def Question.scalarLists : Question := .subset (.list .numberOrText) (.list .scalar)

def Context.cutShort : Context :=
  Request.history [.ask .scalarLists, .ask (.subset .numberOrText .scalar)]
    (Context.new ⟨true, 2, 4096⟩)

/-- The question that was cut short is answered once its elements are remembered. -/
theorem remembered_answers_plain_after_cutoff :
    Context.cutShort.cutoffs = 1 ∧
    Context.cutShort.cache.subsets.Holds ⟨.numberOrText, .scalar, true⟩ ∧
    Reference.subset .numberOrText .scalar = true ∧
    (Question.scalarLists.ask.run Context.cutShort).2.cutoffs = 1 ∧
    (Question.scalarLists.ask.run Context.cutShort).1 == Question.scalarLists.answer := by
  have cut : Context.cutShort.cutoffs = 1 := by cbv
  have held : Context.cutShort.cache.subsets.Holds ⟨.numberOrText, .scalar, true⟩ := by
    refine ⟨Ty.pairKey .numberOrText .scalar, ?_⟩
    cbv
    exact List.Mem.head _
  have clean : (Question.scalarLists.ask.run Context.cutShort).2.cutoffs = 1 := by cbv
  obtain ⟨stored, -, answered⟩ := remembered_answers_plain ⟨true, 2, 4096⟩
    [.ask .scalarLists, .ask (.subset .numberOrText .scalar)]
  exact ⟨cut, held, (stored _ held).symm, clean, answered _ (clean.trans cut.symm)⟩

end StructuralTypes
