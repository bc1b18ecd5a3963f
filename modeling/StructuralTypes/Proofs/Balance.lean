import StructuralTypes.Proofs.Levels
import StructuralTypes.Proofs.Memo

/-!
Every point of a run. A watched computation does what the computation on a context does and
notes each move with the context before and after it, so statements about all moves are
statements about all states that a run goes through. The moves of a run form a journey: each
starts where the one before it ended, and a level that is entered is left again by the same
computation. Hence no run goes below the limit or above the level where it started, which is
what forbids to leave the outermost level.
-/

namespace StructuralTypes

section

variable [PairKey]

inductive Move where
  | enter
  | leave
  | look
  | record
  | clear
  deriving DecidableEq

def Move.quiet : Move → Bool
  | .enter | .leave => false
  | _ => true

structure Moment where
  move : Move
  before : Context
  after : Context

namespace Context

def lowered (context : Context) : Context := { context with depth := context.depth + 1 }

def raised (context : Context) : Context := { context with depth := context.depth - 1 }

def refused (context : Context) : Context := { context with cutoffs := context.cutoffs + 1 }

end Context

/-- A context with the moves it went through, the first one first. -/
structure Watch where
  context : Context
  moments : List Moment

abbrev Watched := StateM Watch

namespace Watched

def note {α : Type} (move : Move) (work : Query α) : Watched α :=
  modifyGet fun watch =>
    let (answer, after) := work.run watch.context
    (answer, ⟨after, watch.moments ++ [⟨move, watch.context, after⟩]⟩)

def read {α : Type} (view : Context → α) : Watched α := do return view (← get).context

def deeper {α : Type} (fallback : α) (work : Watched α) : Watched α := do
  if ← note .enter Query.enter then
    let answer ← work
    note .leave Query.leave
    pure answer
  else pure fallback

def remembered {α : Type} (table : Query.Table α) (a b : Ty) (work : Watched α) : Watched α := do
  if ← read (·.config.memoize) then
    match ← note .look (table.look a b) with
    | some answer => pure answer
    | none =>
        let before ← read (·.cutoffs)
        let answer ← work
        let after ← read (·.cutoffs)
        if after = before then note .record (table.record a b answer)
        pure answer
  else work

def within : Nat → Queries Watched
  | 0 => { subset := fun _ _ => pure false, meet := fun _ _ => pure none }
  | steps + 1 =>
      { subset := fun a b =>
          if a == b then pure true
          else remembered Query.subsets a b (deeper false (Rules.subset (within steps) a b))
        meet := fun a b =>
          remembered Query.meets a b (deeper none (Rules.meet (within steps) a b)) }

def queries : Queries Watched where
  subset a b := (within (a.height + b.height)).subset a b
  meet a b := (within (a.height + b.height)).meet a b

end Watched

namespace Request

def watched : Request → Watched Unit
  | .ask question => do
      let _ ← question.answerBy Watched.queries
      pure ()
  | .forget => Watched.note .clear Query.clearCache

def watchedHistory (requests : List Request) (start : Context) : Watch :=
  requests.foldl (fun watch request => (request.watched.run watch).2) ⟨start, []⟩

end Request

namespace Watched

/-- Watching changes neither the answer nor the context. -/
def Shows {α : Type} (work : Watched α) (plain : Query α) : Prop :=
  ∀ watch : Watch, ((work.run watch).1, (work.run watch).2.context) = plain.run watch.context

namespace Shows

variable {α β : Type}

theorem pure (x : α) : Shows (pure x) (pure x) := fun _ => rfl

theorem note (move : Move) (work : Query α) : Shows (note move work) work := fun _ => rfl

theorem read (view : Context → α) : Shows (read view) (do return view (← get)) := fun _ => rfl

theorem bind {work : Watched α} {plain : Query α} {f : α → Watched β} {g : α → Query β}
    (first : Shows work plain) (rest : ∀ u, Shows (f u) (g u)) :
    Shows (work >>= f) (plain >>= g) := by
  intro watch
  have same := first watch
  have next := rest (work.run watch).1 (work.run watch).2
  rw [Query.bind_run, ← same]
  exact next

theorem deeper (fallback : α) {work : Watched α} {plain : Query α} (shows : Shows work plain) :
    Shows (deeper fallback work) (Query.deeper fallback plain) := by
  apply (note .enter Query.enter).bind
  intro entered
  cases entered with
  | false => exact pure fallback
  | true => exact shows.bind fun answer => (note .leave Query.leave).bind fun _ => pure answer

theorem remembered (table : Query.Table α) (a b : Ty) {work : Watched α} {plain : Query α}
    (shows : Shows work plain) :
    Shows (remembered table a b work) (Query.remembered table a b plain) := by
  apply (read (·.config.memoize)).bind
  intro memoize
  cases memoize with
  | false => exact shows
  | true =>
      apply (note .look (table.look a b)).bind
      intro found
      cases found with
      | some answer => exact pure answer
      | none =>
          apply (read (·.cutoffs)).bind
          intro before
          apply shows.bind
          intro answer
          apply (read (·.cutoffs)).bind
          intro after
          by_cases clean : after = before
          · simp only [clean]
            exact (note .record (table.record a b answer)).bind fun _ => pure answer
          · simp only [clean]
            exact pure answer

end Shows

def showing : Lockstep Watched Query where
  precision := .letter
  agree work plain := Shows work plain
  pure same := by
    cases same
    exact .pure _
  bind first rest := first.bind fun u => rest u u rfl

theorem within_shows (steps : Nat) :
    Agreement showing (within steps) (Query.within steps) steps := by
  induction steps with
  | zero => exact .zero
  | succ steps ih =>
      constructor
      · intro a b c d left right low
        cases left
        cases right
        have rules :
            Shows (Rules.subset (within steps) a b) (Rules.subset (Query.within steps) a b) :=
          ih.subsetRule rfl rfl low
        change Shows (if a == b then Pure.pure true else Watched.remembered _ a b _)
          (if a == b then Pure.pure true else Query.remembered _ a b _)
        split
        · exact .pure true
        · exact .remembered Query.subsets a b (.deeper false rules)
      · intro a b c d left right low
        cases left
        cases right
        have rules : Shows (Rules.meet (within steps) a b) (Rules.meet (Query.within steps) a b) :=
          ih.meetRule rfl rfl low
        exact .remembered Query.meets a b (.deeper none rules)

theorem queries_show : Agree showing queries Query.queries := by
  intro bound
  constructor
  · intro a b c d left right _
    cases left
    cases right
    exact (within_shows _).subset rfl rfl (Ty.subsetRank_le a b)
  · intro a b c d left right _
    cases left
    cases right
    exact (within_shows _).meet rfl rfl (Nat.le_refl _)

end Watched

/-- From one context to another by moves. A level is entered if the limit allows it and is left
at the end of the journey inside; otherwise a cutoff is counted. Every other move keeps all but
the memo tables. -/
inductive Journey : Context → List Moment → Context → Prop where
  | done (context : Context) : Journey context [] context
  | still {start next finish : Context} {move : Move} {rest : List Moment}
      (quiet : move.quiet = true) (config : next.config = start.config)
      (depth : next.depth = start.depth) (cutoffs : next.cutoffs = start.cutoffs)
      (onward : Journey next rest finish) : Journey start (⟨move, start, next⟩ :: rest) finish
  | cutOff {start finish : Context} {rest : List Moment}
      (full : start.config.maxDepth ≤ start.depth) (onward : Journey start.refused rest finish) :
      Journey start (⟨.enter, start, start.refused⟩ :: rest) finish
  | nested {start low finish : Context} {inside rest : List Moment}
      (room : start.depth < start.config.maxDepth) (down : Journey start.lowered inside low)
      (onward : Journey low.raised rest finish) :
      Journey start
        (⟨.enter, start, start.lowered⟩ :: (inside ++ ⟨.leave, low, low.raised⟩ :: rest)) finish

structure Moment.Balanced (moment : Moment) (start : Context) : Prop where
  config : moment.before.config = start.config ∧ moment.after.config = start.config
  cutoffs : moment.before.cutoffs ≤ moment.after.cutoffs
  -- neither above the level of the start nor below the limit
  depth : start.depth ≤ moment.before.depth ∧ start.depth ≤ moment.after.depth
  limit : start.depth ≤ start.config.maxDepth →
    moment.before.depth ≤ start.config.maxDepth ∧ moment.after.depth ≤ start.config.maxDepth
  leave : moment.move = .leave →
    start.depth < moment.before.depth ∧ moment.after.depth + 1 = moment.before.depth

theorem Moment.Balanced.of_start {moment : Moment} {start other : Context}
    (balanced : moment.Balanced other) (config : other.config = start.config)
    (above : start.depth ≤ other.depth)
    (limit : start.depth ≤ start.config.maxDepth → other.depth ≤ start.config.maxDepth) :
    moment.Balanced start := by
  have settings := balanced.config
  have inside := balanced.limit
  rw [config] at settings inside
  constructor
  · exact settings
  · exact balanced.cutoffs
  · exact ⟨Nat.le_trans above balanced.depth.1, Nat.le_trans above balanced.depth.2⟩
  · intro enough
    exact inside (limit enough)
  · intro leaves
    exact ⟨Nat.lt_of_le_of_lt above (balanced.leave leaves).1, (balanced.leave leaves).2⟩

namespace Journey

variable {start middle finish : Context} {first second moments : List Moment}

theorem append (one : Journey start first middle) (two : Journey middle second finish) :
    Journey start (first ++ second) finish := by
  induction one with
  | done context => exact two
  | still quiet config depth cutoffs _ ih => exact .still quiet config depth cutoffs (ih two)
  | cutOff full _ ih => exact .cutOff full (ih two)
  | nested room down _ _ ih =>
      have whole := nested room down (ih two)
      simpa only [List.cons_append, List.append_assoc] using whole

theorem steady (journey : Journey start moments finish) :
    finish.config = start.config ∧ finish.depth = start.depth ∧ start.cutoffs ≤ finish.cutoffs := by
  induction journey with
  | done context => exact ⟨rfl, rfl, Nat.le_refl _⟩
  | still _ config depth cutoffs _ ih =>
      exact ⟨ih.1.trans config, ih.2.1.trans depth, cutoffs ▸ ih.2.2⟩
  | cutOff _ _ ih => exact ⟨ih.1, ih.2.1, Nat.le_of_succ_le ih.2.2⟩
  | nested _ _ _ below ih =>
      have level := ih.2.1.trans (congrArg (· - 1) below.2.1)
      exact ⟨ih.1.trans below.1, level, Nat.le_trans below.2.2 ih.2.2⟩

theorem balanced (journey : Journey start moments finish) :
    ∀ moment ∈ moments, moment.Balanced start := by
  induction journey with
  | done context => simp
  | @still start next finish move rest quiet config depth cutoffs _ ih =>
      have here : Moment.Balanced ⟨move, start, next⟩ start := by
        constructor
        · exact ⟨rfl, config⟩
        · exact Nat.le_of_eq cutoffs.symm
        · exact ⟨Nat.le_refl _, Nat.le_of_eq depth.symm⟩
        · intro enough
          exact ⟨enough, depth.symm ▸ enough⟩
        · rintro rfl
          cases quiet
      intro moment member
      rcases List.mem_cons.mp member with rfl | later
      · exact here
      · exact (ih moment later).of_start config (Nat.le_of_eq depth.symm) fun enough =>
          depth.symm ▸ enough
  | @cutOff start finish rest _ _ ih =>
      have here : Moment.Balanced ⟨.enter, start, start.refused⟩ start := by
        constructor
        · exact ⟨rfl, rfl⟩
        · exact Nat.le_succ _
        · exact ⟨Nat.le_refl _, Nat.le_refl _⟩
        · intro enough
          exact ⟨enough, enough⟩
        · nofun
      intro moment member
      rcases List.mem_cons.mp member with rfl | later
      · exact here
      · exact (ih moment later).of_start rfl (Nat.le_refl _) fun enough => enough
  | @nested start low finish inside rest room down onward below ih =>
      have bottom := down.steady
      have level : low.depth = start.depth + 1 := bottom.2.1
      have settings : low.config = start.config := bottom.1
      have raised : low.raised.depth = start.depth := congrArg (· - 1) level
      have entering : Moment.Balanced ⟨.enter, start, start.lowered⟩ start := by
        constructor
        · exact ⟨rfl, rfl⟩
        · exact Nat.le_refl _
        · exact ⟨Nat.le_refl _, Nat.le_succ _⟩
        · intro enough
          exact ⟨enough, room⟩
        · nofun
      have leaving : Moment.Balanced ⟨.leave, low, low.raised⟩ start := by
        constructor
        · exact ⟨settings, settings⟩
        · exact Nat.le_refl _
        · exact ⟨level ▸ Nat.le_succ _, Nat.le_of_eq raised.symm⟩
        · intro enough
          exact ⟨level ▸ room, raised ▸ enough⟩
        · intro _
          exact ⟨level ▸ Nat.lt_succ_self _, level ▸ congrArg (· + 1) raised⟩
      intro moment member
      rcases List.mem_cons.mp member with rfl | later
      · exact entering
      rcases List.mem_append.mp later with deep | after
      · exact (below moment deep).of_start rfl (Nat.le_succ _) fun _ => room
      rcases List.mem_cons.mp after with rfl | last
      · exact leaving
      · exact (ih moment last).of_start settings (Nat.le_of_eq raised.symm) fun enough =>
          raised.symm ▸ enough

end Journey

namespace Watched

theorem bind_run {α β : Type} (x : Watched α) (f : α → Watched β) (watch : Watch) :
    (x >>= f).run watch = (f (x.run watch).1).run (x.run watch).2 := rfl

theorem note_run {α : Type} (move : Move) (work : Query α) (watch : Watch) :
    (note move work).run watch =
      let done := work.run watch.context
      (done.1, ⟨done.2, watch.moments ++ [⟨move, watch.context, done.2⟩]⟩) := rfl

theorem deeper_run {α : Type} (fallback : α) (work : Watched α) (watch : Watch) :
    (deeper fallback work).run watch =
      let context := watch.context
      if context.config.maxDepth ≤ context.depth then
        (fallback, ⟨context.refused, watch.moments ++ [⟨.enter, context, context.refused⟩]⟩)
      else
        let inner :=
          work.run ⟨context.lowered, watch.moments ++ [⟨.enter, context, context.lowered⟩]⟩
        let low := inner.2.context
        (inner.1, ⟨low.raised, inner.2.moments ++ [⟨.leave, low, low.raised⟩]⟩) := by
  rw [deeper, bind_run, note_run, Query.enter_run]
  by_cases full : watch.context.config.maxDepth ≤ watch.context.depth
  · simp only [if_pos full]
    rfl
  · simp only [if_neg full]
    rfl

def Travels {α : Type} (work : Watched α) : Prop :=
  ∀ watch : Watch, ∃ moments, (work.run watch).2.moments = watch.moments ++ moments ∧
    Journey watch.context moments (work.run watch).2.context

namespace Travels

variable {α β : Type}

theorem read (view : Context → α) : Travels (read view) := fun watch =>
  ⟨[], (List.append_nil _).symm, .done watch.context⟩

theorem pure (x : α) : Travels (pure x) := read fun _ => x

theorem bind {work : Watched α} {f : α → Watched β} (first : Travels work)
    (rest : ∀ u, Travels (f u)) : Travels (work >>= f) := by
  intro watch
  obtain ⟨one, noted, journey⟩ := first watch
  obtain ⟨two, notedNext, onward⟩ := rest (work.run watch).1 (work.run watch).2
  refine ⟨one ++ two, ?_, journey.append onward⟩
  rw [← List.append_assoc, ← noted]
  exact notedNext

theorem note {move : Move} {work : Query α} (quiet : move.quiet = true)
    (steady : Query.Steady work)
    (cutoffs : ∀ context : Context, (work.run context).2.cutoffs = context.cutoffs) :
    Travels (note move work) := by
  intro watch
  refine ⟨[⟨move, watch.context, (work.run watch.context).2⟩], rfl, ?_⟩
  exact .still quiet (steady.config _) (steady.depth _) (cutoffs _) (.done _)

/-- At the limit nothing is entered, so nothing has to be left. -/
theorem deeper (fallback : α) {work : Watched α} (travels : Travels work) :
    Travels (deeper fallback work) := by
  intro watch
  rw [deeper_run]
  by_cases full : watch.context.config.maxDepth ≤ watch.context.depth
  · rw [if_pos full]
    exact ⟨_, rfl, .cutOff full (.done _)⟩
  · rw [if_neg full]
    obtain ⟨inside, noted, down⟩ := travels
      ⟨watch.context.lowered, watch.moments ++ [⟨.enter, watch.context, watch.context.lowered⟩]⟩
    refine ⟨_, ?_, .nested (Nat.lt_of_not_le full) down (.done _)⟩
    simp only [noted, List.append_assoc, List.cons_append, List.nil_append]

theorem remembered {table : Query.Table α} {policy : Policy} {fits : Ty → Ty → α → Prop}
    (still : table.Still) (lawful : table.Lawful policy fits) (a b : Ty) {work : Watched α}
    (travels : Travels work) : Travels (remembered table a b work) := by
  apply (read (·.config.memoize)).bind
  intro memoize
  cases memoize with
  | false => exact travels
  | true =>
      have looks : Travels (Watched.note .look (table.look a b)) :=
        note rfl (still.look a b) (lawful.look_cutoffs a b)
      apply looks.bind
      intro found
      cases found with
      | some answer => exact pure answer
      | none =>
          apply (read (·.cutoffs)).bind
          intro before
          apply travels.bind
          intro answer
          apply (read (·.cutoffs)).bind
          intro after
          have records : Travels (Watched.note .record (table.record a b answer)) :=
            note rfl (still.record a b answer) (lawful.record_cutoffs a b answer)
          by_cases clean : after = before
          · simp only [clean]
            exact records.bind fun _ => pure answer
          · simp only [clean]
            exact pure answer

end Travels

def travelling : Lockstep Watched Id where
  precision := .equality
  agree work _ := Travels work
  pure _ := .pure _
  bind first rest := first.bind fun u => rest u u (BEq.refl u)

theorem within_travels (steps : Nat) :
    Agreement travelling (within steps) Reference.queries steps := by
  apply Agreement.tower (R := fun _ => Reference.queries) _ _ (Nat.le_refl steps)
    (Nat.le_refl steps)
  · intro _ _ a b _ _ _ _ _ _ rules
    change Travels (if a == b then Pure.pure true else Watched.remembered _ a b _)
    split
    · exact .pure true
    · exact .remembered Query.subsets_still (Query.subsets_lawful .plain) a b (.deeper false rules)
  · intro _ _ a b _ _ _ _ _ _ rules
    exact .remembered Query.meets_still (Query.meets_lawful .plain) a b (.deeper none rules)

theorem queries_travel : Agree travelling queries Reference.queries := by
  intro bound
  constructor
  · intro a b _ _ left right _
    exact (within_travels _).subset left right (Ty.subsetRank_le a b)
  · intro a b _ _ left right _
    exact (within_travels _).meet left right (Nat.le_refl _)

end Watched

namespace Request

theorem watched_shows (request : Request) : Watched.Shows request.watched request.perform := by
  cases request with
  | ask question =>
      have answers : Watched.Shows (question.answerBy Watched.queries) question.ask :=
        Watched.queries_show.answerBy question
      exact answers.bind fun _ => .pure ()
  | forget => exact .note .clear Query.clearCache

theorem watched_travels (request : Request) : Watched.Travels request.watched := by
  cases request with
  | ask question =>
      have travels : Watched.Travels (question.answerBy Watched.queries) :=
        Watched.queries_travel.answerBy question
      exact travels.bind fun _ => .pure ()
  | forget => exact .note rfl ⟨fun _ => rfl, fun _ => rfl⟩ fun _ => rfl

theorem perform_journey (request : Request) (context : Context) :
    ∃ moments, Journey context moments (request.perform.run context).2 := by
  obtain ⟨moments, -, journey⟩ := request.watched_travels ⟨context, []⟩
  have same := congrArg Prod.snd (request.watched_shows ⟨context, []⟩)
  exact ⟨moments, same ▸ journey⟩

theorem watchedHistory_journey (requests : List Request) (start : Context) :
    (watchedHistory requests start).context = history requests start ∧
      Journey start (watchedHistory requests start).moments (history requests start) := by
  have onward : ∀ (watch : Watch) (context : Context), watch.context = context →
      Journey start watch.moments context →
      let last := requests.foldl (fun watch request => (request.watched.run watch).2) watch
      last.context = history requests context ∧
        Journey start last.moments (history requests context) := by
    induction requests with
    | nil => exact fun watch context same journey => ⟨same, journey⟩
    | cons request rest ih =>
        intro watch context same journey
        subst same
        obtain ⟨moments, noted, next⟩ := request.watched_travels watch
        have shown := congrArg Prod.snd (request.watched_shows watch)
        apply ih _ _ shown
        rw [noted, ← shown]
        exact journey.append next
  exact onward ⟨start, []⟩ start rfl (.done start)

end Request

/-- On any settings and after any history, every move that a context went through was made and
ended no deeper than the limit, on the settings it was given, and took no cutoff back, and no
level was left at the outermost one. The context is back there afterwards. Every request, made of
any context whatsoever, ends at the level and on the settings it found. -/
theorem every_run_balanced (config : Config) (requests : List Request) :
    let watch := Request.watchedHistory requests (Context.new config)
    watch.context = Request.history requests (Context.new config) ∧
    Journey (Context.new config) watch.moments watch.context ∧
    (∀ moment ∈ watch.moments,
      moment.before.depth ≤ config.maxDepth ∧ moment.after.depth ≤ config.maxDepth ∧
      (moment.move = .leave →
        0 < moment.before.depth ∧ moment.after.depth + 1 = moment.before.depth) ∧
      moment.before.cutoffs ≤ moment.after.cutoffs ∧
      moment.before.config = config ∧ moment.after.config = config) ∧
    watch.context.depth = 0 ∧ watch.context.config = config ∧
    ∀ (request : Request) (context : Context),
      let after := (request.perform.run context).2
      after.depth = context.depth ∧ context.cutoffs ≤ after.cutoffs ∧
      after.config = context.config := by
  intro watch
  have shown := Request.watchedHistory_journey requests (Context.new config)
  have journey : Journey (Context.new config) watch.moments watch.context :=
    shown.1.symm ▸ shown.2
  have steady := journey.steady
  refine ⟨shown.1, journey, ?_, steady.2.1, steady.1, ?_⟩
  · intro moment member
    have balanced := journey.balanced moment member
    have limit := balanced.limit (Nat.zero_le _)
    exact ⟨limit.1, limit.2, balanced.leave, balanced.cutoffs, balanced.config⟩
  · intro request context
    obtain ⟨moments, onward⟩ := request.perform_journey context
    have kept := onward.steady
    exact ⟨kept.2.1, kept.2.2, kept.1⟩

end

/-- One level and room for one answer: the elements of two lists are not compared, and the cutoff
keeps the answer out of the table, which is then emptied by hand. -/
def Watch.oneLevel : Watch :=
  Request.watchedHistory
    [.ask (.subset (.list .number) (.list .numberOrText)), .forget, .ask (.typesMatch .text .text)]
    (Context.new ⟨true, 1, 1⟩)

theorem every_run_balanced_one_level :
    Watch.oneLevel.moments.map
        (fun moment => (moment.move, moment.before.depth, moment.after.depth)) =
      [(.look, 0, 0), (.enter, 0, 1), (.look, 1, 1), (.enter, 1, 1), (.leave, 1, 0), (.clear, 0, 0),
        (.look, 0, 0), (.enter, 0, 1), (.leave, 1, 0), (.record, 0, 0)] ∧
    Watch.oneLevel.context.cutoffs = 1 ∧
    (∃ moment ∈ Watch.oneLevel.moments, moment.move = .leave ∧ 0 < moment.before.depth ∧
      moment.before.depth ≤ 1 ∧ moment.after.config = ⟨true, 1, 1⟩) ∧
    Watch.oneLevel.context.depth = 0 := by
  have moves : Watch.oneLevel.moments.map
      (fun moment => (moment.move, moment.before.depth, moment.after.depth)) =
      [(.look, 0, 0), (.enter, 0, 1), (.look, 1, 1), (.enter, 1, 1), (.leave, 1, 0), (.clear, 0, 0),
        (.look, 0, 0), (.enter, 0, 1), (.leave, 1, 0), (.record, 0, 0)] := by cbv
  obtain ⟨-, -, moments, outermost, -⟩ := every_run_balanced ⟨true, 1, 1⟩
    [.ask (.subset (.list .number) (.list .numberOrText)), .forget, .ask (.typesMatch .text .text)]
  have left : (Move.leave, 1, 0) ∈ Watch.oneLevel.moments.map
      (fun moment => (moment.move, moment.before.depth, moment.after.depth)) := by
    rw [moves]
    decide
  obtain ⟨moment, member, shape⟩ := List.mem_map.mp left
  have leaves : moment.move = .leave := congrArg Prod.fst shape
  obtain ⟨limit, -, leave, -, -, settings⟩ := moments moment member
  exact ⟨moves, by cbv, ⟨moment, member, leaves, (leave leaves).1, limit, settings⟩, outermost⟩

end StructuralTypes
