import StructuralTypes.Proofs.Balance
import StructuralTypes.Proofs.Ledger

/-!
What the memo tables hold at every point of a run. An answer is recorded at the end of the
question that missed it, after all that was asked in between, and nothing looks whether an equal
pair was recorded meanwhile. It never was: the questions in between are of lower rank, so none of
them is equal to the one under way. Every entry was missed before it was recorded, and unless a
cutoff falls every miss is made good by one entry. The key of the tables is any that gives equal
pairs the same code.
-/

namespace StructuralTypes

namespace CacheStats

variable {α : Type} {hit : Option α} (stats : CacheStats)

theorem misses_le_count (hit : Bool) : stats.misses ≤ (stats.count hit).misses := by
  cases hit with
  | true => exact Nat.le_refl _
  | false => exact Nat.le_succ _

end CacheStats

namespace Ledger

variable {α : Type} {limit : Nat} {listed : List (PairEntry α)} {entry : PairEntry α}

def Distinct (listed : List (PairEntry α)) : Prop :=
  listed.Pairwise fun entry other => ¬ entry.isFor other.left other.right = true

theorem first?_eq_none_iff {a b : Ty} :
    first? a b listed = none ↔ ∀ entry ∈ listed, ¬ entry.isFor a b = true := by
  rw [first?_eq_find?, Option.map_eq_none_iff, List.find?_eq_none]

theorem Distinct.add (distinct : Distinct listed)
    (lacks : first? entry.left entry.right listed = none) : Distinct (add limit listed entry) := by
  unfold Ledger.add
  split
  · exact List.pairwise_singleton _ _
  · refine List.pairwise_append.mpr ⟨distinct, List.pairwise_singleton _ _, ?_⟩
    intro old member new last
    rw [List.mem_singleton.mp last]
    exact first?_eq_none_iff.mp lacks old member

end Ledger

section

variable [PairKey]

namespace PairTable

variable {α : Type} {limit : Nat} {table : PairTable α} {a b c d : Ty}

def Kept (table : PairTable α) (limit : Nat) : Prop :=
  ∃ listed, table.Lists PairKey.code limit listed ∧ Ledger.Distinct listed

def Lacks (table : PairTable α) (a b : Ty) : Prop := table.find? (PairKey.code a b) a b = none

theorem Kept.record (kept : table.Kept limit) (respects : RespectsEquality PairKey.code)
    (positive : 0 < limit) (lacks : table.Lacks a b) (answer : α) :
    (table.record limit (PairKey.code a b) a b answer).Kept limit := by
  obtain ⟨listed, lists, distinct⟩ := kept
  have absent : Ledger.first? a b listed = none := lists.find? respects a b ▸ lacks
  exact ⟨_, lists.record positive a b answer, distinct.add absent⟩

end PairTable

namespace Cache

variable {key : Ty → Ty → UInt64}

/-- One of the tables holds one entry more, or that entry alone if it was full, and the other
table is as it was. -/
def Records (limit : Nat) (before after : Cache key) : Prop :=
  (∃ entry, after.subsets.entries.Perm (Ledger.add limit before.subsets.entries entry) ∧
    after.meets = before.meets) ∨
  ∃ entry, after.meets.entries.Perm (Ledger.add limit before.meets.entries entry) ∧
    after.subsets = before.subsets

/-- Entries may leave the tables, and none goes in. -/
def GainsNone (before after : Cache key) : Prop :=
  after.subsets.entries.Sublist before.subsets.entries ∧
    after.meets.entries.Sublist before.meets.entries

end Cache

namespace Context

/-- The tables are in order and no more was recorded than missed. A context that does not
memoize has the tables and counters of a new one. -/
structure InOrder (context : Context) (recorded : Nat) : Prop where
  capacity : context.cache.capacity = max context.config.cacheCapacity 1
  subsets : context.cache.subsets.Kept context.cache.capacity
  meets : context.cache.meets.Kept context.cache.capacity
  recorded : recorded ≤ context.cache.stats.misses
  idle : context.config.memoize = false → context.cache = Cache.new context.config.cacheCapacity

theorem InOrder.of_tables {before after : Context} {recorded : Nat}
    (order : before.InOrder recorded) (cache : after.cache = before.cache)
    (config : after.config = before.config) : after.InOrder recorded := by
  obtain ⟨capacity, subsets, meets, recorded, idle⟩ := order
  rw [← cache] at capacity subsets meets recorded idle
  rw [← config] at capacity idle
  exact ⟨capacity, subsets, meets, recorded, idle⟩

theorem InOrder.positive {context : Context} {recorded : Nat} (order : context.InOrder recorded) :
    0 < context.cache.capacity := by
  rw [order.capacity]
  exact Nat.lt_of_lt_of_le Nat.zero_lt_one (Nat.le_max_right _ 1)

theorem InOrder.counted {context : Context} {recorded : Nat} (order : context.InOrder recorded)
    (memoize : context.config.memoize = true) (hit : Bool) :
    let cache := { context.cache with stats := context.cache.stats.count hit }
    ({ context with cache := cache } : Context).InOrder recorded where
  capacity := order.capacity
  subsets := order.subsets
  meets := order.meets
  recorded := Nat.le_trans order.recorded (context.cache.stats.misses_le_count hit)
  idle idle := nomatch memoize.symm.trans idle

structure LearnsBelow (bound : Nat) (before after : Context) : Prop where
  subsets : ∀ a b, bound < a.subsetRank b → before.cache.subsets.Lacks a b →
    after.cache.subsets.Lacks a b
  meets : ∀ a b, bound < a.height + b.height → before.cache.meets.Lacks a b →
    after.cache.meets.Lacks a b

namespace LearnsBelow

variable {bound more : Nat} {first second third : Context}

theorem of_cache (same : second.cache = first.cache) : LearnsBelow bound first second :=
  ⟨fun _ _ _ lacks => same ▸ lacks, fun _ _ _ lacks => same ▸ lacks⟩

theorem trans (one : LearnsBelow bound first second) (two : LearnsBelow bound second third) :
    LearnsBelow bound first third :=
  ⟨fun a b above lacks => two.subsets a b above (one.subsets a b above lacks),
    fun a b above lacks => two.meets a b above (one.meets a b above lacks)⟩

theorem mono (learns : LearnsBelow bound first second) (within : bound ≤ more) :
    LearnsBelow more first second :=
  ⟨fun a b above => learns.subsets a b (Nat.lt_of_le_of_lt within above),
    fun a b above => learns.meets a b (Nat.lt_of_le_of_lt within above)⟩

end LearnsBelow

end Context

namespace Query

/-- What looks and records do to the books. `rank` is that of the questions that the table
remembers and `lacks` says which of them it does not. -/
structure Table.Booked {α : Type} (table : Table α) (rank : Ty → Ty → Nat)
    (lacks : Context → Ty → Ty → Prop) : Prop where
  look_order : ∀ {a b} {context : Context} {recorded}, context.config.memoize = true →
    context.InOrder recorded → ((table.look a b).run context).2.InOrder recorded
  look_gains : ∀ {a b} {context : Context},
    context.cache.GainsNone ((table.look a b).run context).2.cache
  look_learns : ∀ {a b} {context : Context} {bound},
    context.LearnsBelow bound ((table.look a b).run context).2
  hit : ∀ {a b answer} {context : Context}, ((table.look a b).run context).1 = some answer →
    ((table.look a b).run context).2.cache.stats.misses = context.cache.stats.misses
  miss : ∀ {a b} {context : Context}, ((table.look a b).run context).1 = none →
    ((table.look a b).run context).2.cache.stats.misses = context.cache.stats.misses + 1 ∧
      lacks ((table.look a b).run context).2 a b
  unlearnt : ∀ {a b} {before after : Context} {bound}, before.LearnsBelow bound after →
    bound < rank a b → lacks before a b → lacks after a b
  record_order : ∀ {a b answer} {context : Context} {recorded}, context.config.memoize = true →
    context.InOrder recorded → recorded < context.cache.stats.misses → lacks context a b →
    ((table.record a b answer).run context).2.InOrder (recorded + 1)
  record_records : ∀ {a b answer} {context : Context} {recorded}, context.InOrder recorded →
    context.cache.Records (max context.config.cacheCapacity 1)
      ((table.record a b answer).run context).2.cache
  record_learns : ∀ {a b answer} {context : Context} {recorded bound}, context.InOrder recorded →
    rank a b ≤ bound → context.LearnsBelow bound ((table.record a b answer).run context).2
  record_misses : ∀ {a b answer} {context : Context},
    ((table.record a b answer).run context).2.cache.stats.misses = context.cache.stats.misses

end Query

namespace Moment

def reached (start : Context) (moments : List Moment) : Context :=
  (moments.getLast?.map (·.after)).getD start

/-- One entry goes into the tables if the move is to record, and none otherwise. -/
def Counted (limit : Nat) (moment : Moment) : Prop :=
  if moment.move = .record then moment.before.cache.Records limit moment.after.cache
  else moment.before.cache.GainsNone moment.after.cache

/-- How many of some moves are to record. -/
def recorded (moments : List Moment) : Nat := moments.countP (·.move = .record)

theorem reached_concat (start : Context) (moments : List Moment) (moment : Moment) :
    reached start (moments ++ [moment]) = moment.after := by
  simp only [reached, List.getLast?_concat, Option.map_some, Option.getD_some]

theorem recorded_concat (moments : List Moment) (moment : Moment) :
    recorded (moments ++ [moment]) =
      recorded moments + if moment.move = .record then 1 else 0 := by
  simp only [recorded, List.countP_append, List.countP_singleton, decide_eq_true_eq]

end Moment

namespace Watch

def misses (watch : Watch) : Nat := watch.context.cache.stats.misses

def recorded (watch : Watch) : Nat := Moment.recorded watch.moments

structure Audited (start : Context) (watch : Watch) : Prop where
  current : watch.context = Moment.reached start watch.moments
  linked : ∀ moments moment, moments ++ [moment] <+: watch.moments →
    moment.before = Moment.reached start moments
  counted : ∀ moment ∈ watch.moments, moment.Counted (max moment.before.config.cacheCapacity 1)
  order : ∀ moments, moments <+: watch.moments →
    (Moment.reached start moments).InOrder (Moment.recorded moments)

variable {start : Context} {watch : Watch}

theorem Audited.here (audited : watch.Audited start) : watch.context.InOrder watch.recorded := by
  have order := audited.order watch.moments List.prefix_rfl
  rwa [← audited.current] at order

end Watch

namespace Watched

theorem recorded_note {α : Type} (move : Move) (work : Query α) (watch : Watch) :
    ((note move work).run watch).2.recorded =
      watch.recorded + if move = .record then 1 else 0 :=
  Moment.recorded_concat watch.moments ⟨move, watch.context, (work.run watch.context).2⟩

end Watched

namespace Watch

variable {start : Context} {watch : Watch} {bound : Nat}

theorem Audited.note (audited : watch.Audited start) {α : Type} {move : Move} {work : Query α}
    (counted : Moment.Counted (max watch.context.config.cacheCapacity 1)
      ⟨move, watch.context, (work.run watch.context).2⟩)
    (order : (work.run watch.context).2.InOrder
      (watch.recorded + if move = .record then 1 else 0)) :
    ((Watched.note move work).run watch).2.Audited start where
  current := (Moment.reached_concat start watch.moments ⟨move, watch.context, _⟩).symm
  linked moments moment before := by
    rcases List.prefix_concat_iff.mp before with whole | earlier
    · obtain ⟨rfl, last⟩ := List.append_inj' whole rfl
      rw [List.singleton_inj.mp last]
      exact audited.current
    · exact audited.linked moments moment earlier
  counted moment member := by
    rcases List.mem_append.mp member with earlier | last
    · exact audited.counted moment earlier
    · exact List.mem_singleton.mp last ▸ counted
  order moments before := by
    rcases List.prefix_concat_iff.mp before with rfl | earlier
    · rw [Moment.reached_concat, Moment.recorded_concat]
      exact order
    · exact audited.order moments earlier

/-- The books are kept from one point to a later one. No more is recorded than missed, and exactly
that unless a cutoff falls. -/
structure Advances (start : Context) (before after : Watch) : Prop where
  config : after.context.config = before.context.config
  audited : before.Audited start → after.Audited start
  cutoffs : before.context.cutoffs ≤ after.context.cutoffs
  missed : before.misses + after.recorded ≤ after.misses + before.recorded
  settled : after.context.cutoffs = before.context.cutoffs →
    after.misses + before.recorded = before.misses + after.recorded

structure AdvancesBelow (start : Context) (bound : Nat) (before after : Watch) : Prop
    extends Advances start before after where
  learns : before.Audited start → before.context.LearnsBelow bound after.context

variable {first second third : Watch}

theorem Advances.refl (watch : Watch) : Advances start watch watch where
  config := rfl
  audited audited := audited
  cutoffs := Nat.le_refl _
  missed := Nat.le_refl _
  settled _ := rfl

theorem Advances.trans (one : Advances start first second) (two : Advances start second third) :
    Advances start first third where
  config := two.config.trans one.config
  audited audited := two.audited (one.audited audited)
  cutoffs := Nat.le_trans one.cutoffs two.cutoffs
  missed := by
    have before := one.missed
    have after := two.missed
    omega
  settled clean := by
    -- cutoffs only grow, so none fell in either part
    have before := one.cutoffs
    have after := two.cutoffs
    have kept := one.settled (by omega)
    have keptNext := two.settled (by omega)
    omega

theorem AdvancesBelow.trans (one : AdvancesBelow start bound first second)
    (two : AdvancesBelow start bound second third) : AdvancesBelow start bound first third where
  toAdvances := one.toAdvances.trans two.toAdvances
  learns audited := (one.learns audited).trans (two.learns (one.audited audited))

theorem AdvancesBelow.mono {more : Nat} (advances : AdvancesBelow start bound first second)
    (within : bound ≤ more) : AdvancesBelow start more first second where
  toAdvances := advances.toAdvances
  learns audited := (advances.learns audited).mono within

end Watch

namespace Watched

def Books (start : Context) (bound : Nat) {α : Type} (work : Watched α) : Prop :=
  ∀ watch : Watch, watch.AdvancesBelow start bound (work.run watch).2

theorem remembered_run {α : Type} (table : Query.Table α) (a b : Ty) (work : Watched α)
    (watch : Watch) :
    (remembered table a b work).run watch =
      if watch.context.config.memoize = true then
        let looked := (note .look (table.look a b)).run watch
        match looked.1 with
        | some answer => (answer, looked.2)
        | none =>
            let done := work.run looked.2
            if done.2.context.cutoffs = looked.2.context.cutoffs then
              (done.1, ((note .record (table.record a b done.1)).run done.2).2)
            else done
      else work.run watch := by
  rw [remembered, bind_run]
  change (if watch.context.config.memoize = true then _ else work : Watched α).run watch = _
  split
  · rw [bind_run]
    simp only
    cases looked : ((note .look (table.look a b)).run watch).1 with
    | some answer => rfl
    | none =>
        change (if (work.run _).2.context.cutoffs = _ then note .record _ >>= fun _ => pure _
          else pure _ : Watched α).run (work.run _).2 = _
        split <;> rfl
  · rfl

namespace Books

variable {start : Context} {bound : Nat} {α β : Type}

theorem read (view : Context → α) : Books start bound (read view) := fun watch =>
  ⟨.refl watch, fun _ => .of_cache rfl⟩

theorem pure (x : α) : Books start bound (pure x) := read fun _ => x

theorem bind {work : Watched α} {f : α → Watched β} (first : Books start bound work)
    (rest : ∀ u, Books start bound (f u)) : Books start bound (work >>= f) :=
  fun watch => (first watch).trans (rest _ _)

theorem note {move : Move} {work : Query α} (other : move ≠ .record)
    (cache : ∀ context : Context, (work.run context).2.cache = context.cache)
    (config : ∀ context : Context, (work.run context).2.config = context.config)
    (cutoffs : ∀ context : Context, context.cutoffs ≤ (work.run context).2.cutoffs) :
    Books start bound (note move work) := by
  intro watch
  have recorded := recorded_note move work watch
  rw [if_neg other] at recorded
  have misses : ((Watched.note move work).run watch).2.misses = watch.misses :=
    congrArg (·.stats.misses) (cache watch.context)
  refine ⟨⟨config watch.context, ?_, cutoffs watch.context, by omega, fun _ => by omega⟩, ?_⟩
  · intro audited
    apply audited.note
    · rw [Moment.Counted, if_neg other, cache watch.context]
      exact ⟨.refl _, .refl _⟩
    · rw [if_neg other]
      exact audited.here.of_tables (cache _) (config _)
  · exact fun _ => .of_cache (cache watch.context)

theorem deeper (fallback : α) {work : Watched α} (books : Books start bound work) :
    Books start bound (deeper fallback work) := by
  have enters : Books start bound (Watched.note .enter Query.enter) := by
    apply note (by decide)
    · intro context
      rw [Query.enter_run]
      split <;> rfl
    · intro context
      rw [Query.enter_run]
      split <;> rfl
    · intro context
      rw [Query.enter_run]
      split
      · exact Nat.le_succ _
      · exact Nat.le_refl _
  have leaves : Books start bound (Watched.note .leave Query.leave) :=
    note (by decide) (fun _ => rfl) (fun _ => rfl) (fun _ => Nat.le_refl _)
  apply enters.bind
  intro entered
  cases entered with
  | false => exact pure fallback
  | true => exact books.bind fun answer => leaves.bind fun _ => pure answer

end Books

section Remembered

variable {α : Type} {start : Context} {bound : Nat} {table : Query.Table α} {rank : Ty → Ty → Nat}
  {lacks : Context → Ty → Ty → Prop} {policy : Policy} {fits : Ty → Ty → α → Prop} {a b : Ty}
  {watch done : Watch}

def looked (table : Query.Table α) (a b : Ty) (watch : Watch) : Watch :=
  ((note .look (table.look a b)).run watch).2

theorem looked_audited (booked : table.Booked rank lacks)
    (memoize : watch.context.config.memoize = true) (audited : watch.Audited start) :
    (looked table a b watch).Audited start :=
  audited.note booked.look_gains (booked.look_order memoize audited.here)

theorem looked_recorded : (looked table a b watch).recorded = watch.recorded :=
  recorded_note .look (table.look a b) watch

theorem looked_config (still : table.Still) :
    (looked table a b watch).context.config = watch.context.config :=
  (still.look a b).config watch.context

theorem looked_cutoffs (lawful : table.Lawful policy fits) :
    (looked table a b watch).context.cutoffs = watch.context.cutoffs :=
  lawful.look_cutoffs a b watch.context

theorem advances_of_hit (booked : table.Booked rank lacks) (still : table.Still)
    (lawful : table.Lawful policy fits) (memoize : watch.context.config.memoize = true) {answer : α}
    (found : ((table.look a b).run watch.context).1 = some answer) :
    watch.AdvancesBelow start bound (looked table a b watch) := by
  have recorded : (looked table a b watch).recorded = watch.recorded := looked_recorded
  have misses : (looked table a b watch).misses = watch.misses := booked.hit found
  refine ⟨⟨looked_config still, looked_audited booked memoize, ?_, ?_, ?_⟩, ?_⟩
  · exact Nat.le_of_eq (looked_cutoffs lawful).symm
  · omega
  · intro _
    omega
  · exact fun _ => booked.look_learns

theorem advances_of_cut (booked : table.Booked rank lacks) (still : table.Still)
    (lawful : table.Lawful policy fits) (memoize : watch.context.config.memoize = true)
    (missed : ((table.look a b).run watch.context).1 = none)
    (work : (looked table a b watch).AdvancesBelow start bound done)
    (fell : ¬ done.context.cutoffs = (looked table a b watch).context.cutoffs) :
    watch.AdvancesBelow start bound done := by
  have recorded : (looked table a b watch).recorded = watch.recorded := looked_recorded
  have misses : (looked table a b watch).misses = watch.misses + 1 := (booked.miss missed).1
  have cutoffs : (looked table a b watch).context.cutoffs = watch.context.cutoffs :=
    looked_cutoffs lawful
  have inside := work.missed
  refine ⟨⟨?_, ?_, cutoffs ▸ work.cutoffs, ?_, ?_⟩, ?_⟩
  · exact work.config.trans (looked_config still)
  · exact fun audited => work.audited (looked_audited booked memoize audited)
  · omega
  · intro clean
    exact absurd (clean.trans cutoffs.symm) fell
  · intro audited
    exact booked.look_learns.trans (work.learns (looked_audited booked memoize audited))

/-- A miss that is made good by an entry. The pair was not recorded in between, because it is of
higher rank than all that was. -/
theorem advances_of_record (booked : table.Booked rank lacks) (still : table.Still)
    (lawful : table.Lawful policy fits) (memoize : watch.context.config.memoize = true)
    (height : rank a b = bound + 1) (missed : ((table.look a b).run watch.context).1 = none)
    (work : (looked table a b watch).AdvancesBelow start bound done)
    (clean : done.context.cutoffs = (looked table a b watch).context.cutoffs) (answer : α) :
    watch.AdvancesBelow start (bound + 1)
      ((note .record (table.record a b answer)).run done).2 := by
  have recorded : (looked table a b watch).recorded = watch.recorded := looked_recorded
  have misses : (looked table a b watch).misses = watch.misses + 1 := (booked.miss missed).1
  have inside := work.settled clean
  have config : done.context.config = watch.context.config :=
    work.config.trans (looked_config still)
  have cutoffs : done.context.cutoffs = watch.context.cutoffs :=
    clean.trans (looked_cutoffs lawful)
  have added := recorded_note .record (table.record a b answer) done
  rw [if_pos rfl] at added
  have kept : ((note .record (table.record a b answer)).run done).2.misses = done.misses :=
    booked.record_misses
  refine ⟨⟨?_, ?_, ?_, by omega, fun _ => by omega⟩, ?_⟩
  · exact ((still.record a b answer).config done.context).trans config
  · intro audited
    have before : (looked table a b watch).Audited start := looked_audited booked memoize audited
    -- the miss under way is not made good yet
    have room : done.recorded < done.misses := by
      have all : watch.recorded ≤ watch.misses := audited.here.recorded
      omega
    have absent : lacks done.context a b :=
      booked.unlearnt (work.learns before) (height ▸ Nat.lt_succ_self bound) (booked.miss missed).2
    apply (work.audited before).note
    · exact booked.record_records (work.audited before).here
    · exact booked.record_order (config ▸ memoize) (work.audited before).here room absent
  · exact Nat.le_of_eq ((lawful.record_cutoffs a b answer done.context).trans cutoffs).symm
  · intro audited
    have before : (looked table a b watch).Audited start := looked_audited booked memoize audited
    have between := booked.look_learns.trans ((work.learns before).mono (Nat.le_succ bound))
    have order := (work.audited before).here
    exact between.trans (booked.record_learns order (Nat.le_of_eq height))

end Remembered

theorem Books.remembered {α : Type} {start : Context} {bound : Nat} {table : Query.Table α}
    {rank : Ty → Ty → Nat} {lacks : Context → Ty → Ty → Prop} (booked : table.Booked rank lacks)
    (still : table.Still) {policy : Policy} {fits : Ty → Ty → α → Prop}
    (lawful : table.Lawful policy fits) {a b : Ty} (height : rank a b = bound + 1)
    {work : Watched α} (books : Books start bound work) :
    Books start (bound + 1) (remembered table a b work) := by
  intro watch
  rw [remembered_run]
  by_cases memoize : watch.context.config.memoize = true
  · rw [if_pos memoize]
    have inside := books (looked table a b watch)
    simp only
    cases found : ((Watched.note .look (table.look a b)).run watch).1 with
    | some answer => exact advances_of_hit booked still lawful memoize found
    | none =>
        simp only
        split
        · next clean =>
            exact advances_of_record booked still lawful memoize height found inside clean _
        · next fell =>
            have unsettled := advances_of_cut booked still lawful memoize found inside fell
            exact unsettled.mono (Nat.le_succ bound)
  · rw [if_neg memoize]
    exact (books watch).mono (Nat.le_succ bound)

end Watched

namespace Request

end Request

end

/-- Room for one answer. The second question is nested in the first and asked again on its own,
when the table holds the first one only. -/
def Request.narrow : List Request :=
  [.ask (.subset (.list .number) (.list .numberOrText)), .ask (.subset .number .numberOrText),
    .ask (.meet .number .number)]

def Watch.narrow (memoize : Bool) : Watch :=
  Request.watchedHistory Request.narrow (Context.new ⟨memoize, 8, 1⟩)

end StructuralTypes
