import StructuralTypes.Algebra.Question
import StructuralTypes.Proofs.Equality

/-!
What a context does around the rules: it looks an answer up, goes one level down and
records an answer. The laws of the memo tables are for any `Policy` that says what an entry
may hold, as long as the policy is the same for equal operands, since it is by equality
that a hit is found.
-/

namespace StructuralTypes

namespace PairTable

variable {α : Type}

def Holds (table : PairTable α) (entry : PairEntry α) : Prop :=
  ∃ key, entry ∈ table.bucket key

def Fits (table : PairTable α) (fits : Ty → Ty → α → Prop) : Prop :=
  ∀ entry, table.Holds entry → fits entry.left entry.right entry.answer

variable {fits : Ty → Ty → α → Prop} {table : PairTable α}

theorem fits_empty : (empty : PairTable α).Fits fits := by
  rintro entry ⟨key, member⟩
  simp [empty, bucket] at member

theorem fits_insert (old : table.Fits fits) (key : UInt64) {a b : Ty} {answer : α}
    (new : fits a b answer) : (table.insert key a b answer).Fits fits := by
  rintro entry ⟨other, member⟩
  simp only [insert, bucket, Std.TreeMap.getD_insert] at member
  split at member
  · rcases List.mem_append.mp member with before | added
    · exact old entry ⟨key, before⟩
    · cases List.mem_singleton.mp added
      exact new
  · exact old entry ⟨other, member⟩

theorem fits_record (old : table.Fits fits) (capacity : Nat) (key : UInt64) {a b : Ty}
    {answer : α} (new : fits a b answer) : (table.record capacity key a b answer).Fits fits := by
  unfold record
  split
  · exact fits_insert fits_empty key new
  · exact fits_insert old key new

theorem find?_fits (old : table.Fits fits)
    (congr : ∀ {a b c d : Ty} {x : α}, a == c → b == d → fits a b x → fits c d x)
    {key : UInt64} {a b : Ty} {answer : α} (hit : table.find? key a b = some answer) :
    fits a b answer := by
  simp only [find?, Option.map_eq_some_iff] at hit
  obtain ⟨entry, found, rfl⟩ := hit
  have member := List.mem_of_find?_eq_some found
  have operands := List.find?_some found
  simp only [PairEntry.isFor, Bool.and_eq_true] at operands
  exact congr operands.1 operands.2 (old entry ⟨key, member⟩)

end PairTable

/-- What the entries of the two tables may hold. -/
structure Policy where
  subset : Ty → Ty → Bool → Prop
  meet : Ty → Ty → Option Ty → Prop
  subset_congr : ∀ {a b c d : Ty} {x : Bool}, a == c → b == d → subset a b x → subset c d x
  meet_congr : ∀ {a b c d : Ty} {x : Option Ty}, a == c → b == d → meet a b x → meet c d x

structure Cache.Obeys {key : Ty → Ty → UInt64} (cache : Cache key) (policy : Policy) : Prop where
  subsets : cache.subsets.Fits policy.subset
  meets : cache.meets.Fits policy.meet

namespace Cache

variable {key : Ty → Ty → UInt64} (policy : Policy)

theorem obeys_new (capacity : Nat) : (Cache.new capacity : Cache key).Obeys policy :=
  ⟨PairTable.fits_empty, PairTable.fits_empty⟩

theorem obeys_clear (cache : Cache key) : cache.clear.Obeys policy :=
  ⟨PairTable.fits_empty, PairTable.fits_empty⟩

end Cache

namespace Query

variable [PairKey]

theorem bind_run {α β : Type} (x : Query α) (f : α → Query β) (context : Context) :
    (x >>= f).run context = (f (x.run context).1).run (x.run context).2 := rfl

theorem enter_run (context : Context) :
    enter.run context =
      if context.config.maxDepth ≤ context.depth then
        (false, { context with cutoffs := context.cutoffs + 1 })
      else (true, { context with depth := context.depth + 1 }) := rfl

theorem deeper_run {α : Type} (fallback : α) (work : Query α) (context : Context) :
    (deeper fallback work).run context =
      if context.config.maxDepth ≤ context.depth then
        (fallback, { context with cutoffs := context.cutoffs + 1 })
      else
        let inner := work.run { context with depth := context.depth + 1 }
        (inner.1, { inner.2 with depth := inner.2.depth - 1 }) := by
  rw [deeper, bind_run, enter_run]
  split <;> rfl

/-- The laws of a memo table: a look at it changes no entry, a hit is as the policy says, and
so may be an answer that is recorded. Neither counts a cutoff. -/
structure Table.Lawful {α : Type} (table : Table α) (policy : Policy)
    (fits : Ty → Ty → α → Prop) : Prop where
  look_cutoffs : ∀ a b (context : Context),
    ((table.look a b).run context).2.cutoffs = context.cutoffs
  look_obeys : ∀ a b (context : Context), context.cache.Obeys policy →
    ((table.look a b).run context).2.cache.Obeys policy
  hit : ∀ a b (context : Context) answer, context.cache.Obeys policy →
    ((table.look a b).run context).1 = some answer → fits a b answer
  record_cutoffs : ∀ a b answer (context : Context),
    ((table.record a b answer).run context).2.cutoffs = context.cutoffs
  record_obeys : ∀ a b answer (context : Context), context.cache.Obeys policy → fits a b answer →
    ((table.record a b answer).run context).2.cache.Obeys policy

theorem subsets_lawful (policy : Policy) : subsets.Lawful policy policy.subset where
  look_cutoffs _ _ _ := rfl
  look_obeys _ _ _ obeys := ⟨obeys.subsets, obeys.meets⟩
  hit _ _ _ _ obeys found := PairTable.find?_fits obeys.subsets policy.subset_congr found
  record_cutoffs _ _ _ _ := rfl
  record_obeys _ _ _ _ obeys new := ⟨PairTable.fits_record obeys.subsets _ _ new, obeys.meets⟩

theorem meets_lawful (policy : Policy) : meets.Lawful policy policy.meet where
  look_cutoffs _ _ _ := rfl
  look_obeys _ _ _ obeys := ⟨obeys.subsets, obeys.meets⟩
  hit _ _ _ _ obeys found := PairTable.find?_fits obeys.meets policy.meet_congr found
  record_cutoffs _ _ _ _ := rfl
  record_obeys _ _ _ _ obeys new := ⟨obeys.subsets, PairTable.fits_record obeys.meets _ _ new⟩

theorem remembered_run {α : Type} (table : Table α) (a b : Ty) (work : Query α)
    (context : Context) :
    (remembered table a b work).run context =
      if context.config.memoize = true then
        let looked := (table.look a b).run context
        match looked.1 with
        | some answer => (answer, looked.2)
        | none =>
            let done := work.run looked.2
            if done.2.cutoffs = looked.2.cutoffs then
              (done.1, ((table.record a b done.1).run done.2).2)
            else done
      else work.run context := by
  rw [remembered, bind_run]
  change (if context.config.memoize = true then _ else work : Query α).run context = _
  split
  · rw [bind_run]
    simp only
    cases looked : ((table.look a b).run context).1 with
    | some answer => rfl
    | none =>
        change (if (work.run _).2.cutoffs = _ then table.record a b _ >>= fun _ => pure _
          else pure _ : Query α).run (work.run _).2 = _
        split <;> rfl
  · rfl

end Query

/-- If no question breaks a policy, no history of requests does. -/
theorem Request.history_obeys [PairKey] {policy : Policy}
    (keeps : ∀ (question : Question) (context : Context), context.cache.Obeys policy →
      (question.ask.run context).2.cache.Obeys policy)
    (config : Config) (requests : List Request) :
    (history requests (Context.new config)).cache.Obeys policy := by
  have start : (Context.new config).cache.Obeys policy := Cache.obeys_new policy _
  unfold history
  generalize Context.new config = context at start ⊢
  induction requests generalizing context with
  | nil => exact start
  | cons request rest ih =>
      apply ih
      cases request with
      | ask question => exact keeps question context start
      | forget => exact context.cache.obeys_clear policy

end StructuralTypes
