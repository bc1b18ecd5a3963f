import StructuralTypes.Algebra.Cache
import StructuralTypes.Proofs.Hashing

/-!
The memo tables as two plain lists. A ledger keeps the entries of each table in the order in
which they were recorded and looks for the first one that fits; a list that is full is emptied
before the next entry goes in. Whatever is done to the tables, they show what the ledger shows,
for every key function that gives equal operand pairs the same key: a bucket holds the entries of
its key in their order, so the first that fits in the bucket is the first that fits at all.
-/

namespace StructuralTypes

/-- Equal operand pairs have the same key. Others may share it. -/
def RespectsEquality (key : Ty → Ty → UInt64) : Prop :=
  ∀ a b c d : Ty, a == c → b == d → key a b = key c d

inductive Access where
  | subset (a b : Ty)
  | recordSubset (a b : Ty) (answer : Bool)
  | meet (a b : Ty)
  | recordMeet (a b : Ty) (answer : Option Ty)
  | clear

inductive Reply where
  | subset (hit : Option Bool)
  | meet (hit : Option (Option Ty))
  | done

/-- The reply to an access, and what can be read off the tables after it. -/
structure Observation where
  reply : Reply
  size : Nat
  isEmpty : Bool
  stats : CacheStats

structure Memory (σ : Type) where
  access : σ → Access → Reply × σ
  size : σ → Nat
  isEmpty : σ → Bool
  stats : σ → CacheStats

namespace Memory

variable {σ : Type} (memory : Memory σ)

def seen (done : Reply × σ) : Observation :=
  ⟨done.1, memory.size done.2, memory.isEmpty done.2, memory.stats done.2⟩

def observe : σ → List Access → List Observation
  | _, [] => []
  | state, access :: rest =>
      let done := memory.access state access
      memory.seen done :: observe done.2 rest

end Memory

def Cache.memory {key : Ty → Ty → UInt64} : Memory (Cache key) where
  access cache
    | .subset a b =>
        let (hit, next) := cache.subset? a b
        (.subset hit, next)
    | .recordSubset a b answer => (.done, cache.recordSubset a b answer)
    | .meet a b =>
        let (hit, next) := cache.meet? a b
        (.meet hit, next)
    | .recordMeet a b answer => (.done, cache.recordMeet a b answer)
    | .clear => (.done, cache.clear)
  size := Cache.size
  isEmpty := Cache.isEmpty
  stats := Cache.stats

/-- The entries of the two tables, the oldest first, with the counters they share. -/
structure Ledger where
  subsets : List (PairEntry Bool)
  meets : List (PairEntry (Option Ty))
  limit : Nat
  stats : CacheStats

namespace Ledger

variable {α : Type}

def new (capacity : Nat) : Ledger where
  subsets := []
  meets := []
  limit := max capacity 1
  stats := {}

def first? (a b : Ty) : List (PairEntry α) → Option α
  | [] => none
  | entry :: later =>
      if entry.left == a && entry.right == b then some entry.answer else first? a b later

def add (limit : Nat) (entries : List (PairEntry α)) (entry : PairEntry α) : List (PairEntry α) :=
  if entries.length = limit then [entry] else entries ++ [entry]

def looked (ledger : Ledger) (hit : Option α) : Ledger :=
  match hit with
  | some _ => { ledger with stats := { ledger.stats with hits := ledger.stats.hits + 1 } }
  | none => { ledger with stats := { ledger.stats with misses := ledger.stats.misses + 1 } }

def filled (ledger : Ledger) (entries : List (PairEntry α)) : CacheStats :=
  if entries.length = ledger.limit then
    { ledger.stats with flushes := ledger.stats.flushes + 1 }
  else ledger.stats

def memory : Memory Ledger where
  access ledger
    | .subset a b =>
        let hit := first? a b ledger.subsets
        (.subset hit, ledger.looked hit)
    | .recordSubset a b answer =>
        (.done, { ledger with
          subsets := add ledger.limit ledger.subsets ⟨a, b, answer⟩
          stats := ledger.filled ledger.subsets })
    | .meet a b =>
        let hit := first? a b ledger.meets
        (.meet hit, ledger.looked hit)
    | .recordMeet a b answer =>
        (.done, { ledger with
          meets := add ledger.limit ledger.meets ⟨a, b, answer⟩
          stats := ledger.filled ledger.meets })
    | .clear => (.done, { ledger with subsets := [], meets := [] })
  size ledger := ledger.subsets.length + ledger.meets.length
  isEmpty ledger := ledger.subsets.isEmpty && ledger.meets.isEmpty
  stats := stats

theorem first?_eq_find? (a b : Ty) (entries : List (PairEntry α)) :
    first? a b entries = (entries.find? (·.isFor a b)).map (·.answer) := by
  induction entries with
  | nil => rfl
  | cons entry later ih =>
      simp only [first?, List.find?_cons, PairEntry.isFor]
      cases entry.left == a && entry.right == b with
      | true => rfl
      | false => exact ih

end Ledger

namespace PairTable

variable {α : Type} {key : Ty → Ty → UInt64} {limit : Nat} {table : PairTable α}
  {listed : List (PairEntry α)}

def entries (table : PairTable α) : List (PairEntry α) := table.buckets.toList.flatMap (·.2)

theorem entries_split (table : PairTable α) (code : UInt64) :
    table.entries.Perm (table.bucket code ++
      (table.buckets.toList.filter fun pair => ¬ code == pair.1).flatMap (·.2)) := by
  by_cases known : code ∈ table.buckets
  · -- to put the bucket in again changes nothing
    have same : (table.buckets.insert code (table.bucket code)).Equiv table.buckets := by
      refine .of_forall_constGet?_eq fun other => ?_
      rw [Std.TreeMap.getElem?_insert]
      split
      · next equal =>
          cases Std.LawfulEqCmp.eq_of_compare equal
          exact (Std.TreeMap.getElem?_eq_some_getD known).symm
      · rfl
    have split := Std.TreeMap.toList_insert_perm (t := table.buckets) (k := code)
      (v := table.bucket code)
    rw [same.toList_eq] at split
    exact split.flatMap_right (·.2)
  · have none : table.bucket code = [] := Std.TreeMap.getD_eq_fallback known
    have others : (table.buckets.toList.filter fun pair => ¬ code == pair.1) =
        table.buckets.toList := by
      refine List.filter_eq_self.mpr fun pair member => ?_
      obtain ⟨other, bucket⟩ := pair
      have found := Std.TreeMap.mem_toList_iff_getElem?_eq_some.mp member
      refine decide_eq_true fun equal => known ?_
      rw [eq_of_beq equal, Std.TreeMap.mem_iff_isSome_getElem?, found]
      rfl
    rw [none, others]
    exact .refl _

theorem entries_insert (table : PairTable α) (code : UInt64) (a b : Ty) (answer : α) :
    (table.insert code a b answer).entries.Perm (table.entries ++ [⟨a, b, answer⟩]) := by
  have inserted := Std.TreeMap.toList_insert_perm (t := table.buckets) (k := code)
    (v := table.bucket code ++ [⟨a, b, answer⟩])
  refine (inserted.flatMap_right (·.2)).trans ?_
  rw [List.flatMap_cons, List.append_assoc]
  refine (List.perm_append_comm.append_left _).trans ?_
  rw [← List.append_assoc]
  exact (table.entries_split code).symm.append_right _

/-- The table holds the listed entries, those of a key in its bucket and in their order. -/
structure Lists (table : PairTable α) (key : Ty → Ty → UInt64) (limit : Nat)
    (listed : List (PairEntry α)) : Prop where
  size : table.size = listed.length
  room : listed.length ≤ limit
  buckets : ∀ code, table.bucket code =
    listed.filter fun entry => key entry.left entry.right == code
  stored : table.entries.Perm listed

theorem lists_empty : (empty : PairTable α).Lists key limit [] where
  size := rfl
  room := Nat.zero_le limit
  buckets _ := rfl
  stored := .refl _

theorem Lists.insert (lists : table.Lists key limit listed) (free : listed.length < limit)
    (a b : Ty) (answer : α) :
    (table.insert (key a b) a b answer).Lists key limit (listed ++ [⟨a, b, answer⟩]) where
  size := by rw [List.length_append, ← lists.size]; rfl
  room := by rw [List.length_append]; exact free
  buckets code := by
    simp only [PairTable.insert, bucket, Std.TreeMap.getD_insert, List.filter_append]
    split
    · next same =>
        cases Std.LawfulEqCmp.eq_of_compare same
        have kept : table.buckets.getD (key a b) [] = _ := lists.buckets (key a b)
        rw [kept]
        simp
    · next different =>
        have kept : table.buckets.getD code [] = _ := lists.buckets code
        rw [kept]
        have apart : ¬ key a b = code := by
          rintro rfl
          exact different Std.ReflCmp.compare_self
        simp [apart]
  stored := (table.entries_insert (key a b) a b answer).trans (lists.stored.append_right _)

theorem Lists.record (lists : table.Lists key limit listed) (positive : 0 < limit) (a b : Ty)
    (answer : α) :
    (table.record limit (key a b) a b answer).Lists key limit
      (Ledger.add limit listed ⟨a, b, answer⟩) := by
  rw [PairTable.record, Ledger.add, lists.size]
  by_cases full : listed.length = limit
  · rw [if_pos (Nat.le_of_eq full.symm), if_pos full]
    exact lists_empty.insert positive a b answer
  · have free : listed.length < limit := Nat.lt_of_le_of_ne lists.room full
    rw [if_neg (Nat.not_le.mpr free), if_neg full]
    exact lists.insert free a b answer

/-- The first entry that fits is the first of its bucket that does. -/
theorem Lists.find? (lists : table.Lists key limit listed) (respects : RespectsEquality key)
    (a b : Ty) : table.find? (key a b) a b = Ledger.first? a b listed := by
  have fitting : ∀ entry : PairEntry α,
      decide ((key entry.left entry.right == key a b) = true ∧ entry.isFor a b = true) =
        entry.isFor a b := by
    intro entry
    cases fits : entry.isFor a b with
    | false => simp
    | true =>
        have operands := fits
        rw [PairEntry.isFor, Bool.and_eq_true] at operands
        simp [respects _ _ _ _ operands.1 operands.2]
  rw [PairTable.find?, lists.buckets, List.find?_filter, Ledger.first?_eq_find?, funext fitting]

theorem Lists.flushesAt (lists : table.Lists key limit listed) :
    table.flushesAt limit = if listed.length = limit then 1 else 0 := by
  have full : limit ≤ listed.length ↔ listed.length = limit :=
    ⟨Nat.le_antisymm lists.room, fun same => Nat.le_of_eq same.symm⟩
  simp only [PairTable.flushesAt, lists.size, full]

end PairTable

namespace Cache

variable {key : Ty → Ty → UInt64}

structure Keeps (cache : Cache key) (ledger : Ledger) : Prop where
  limit : cache.capacity = ledger.limit
  positive : 0 < ledger.limit
  stats : cache.stats = ledger.stats
  subsets : cache.subsets.Lists key ledger.limit ledger.subsets
  meets : cache.meets.Lists key ledger.limit ledger.meets

theorem keeps_new (capacity : Nat) : (Cache.new capacity : Cache key).Keeps (.new capacity) where
  limit := rfl
  positive := Nat.lt_of_lt_of_le Nat.zero_lt_one (Nat.le_max_right capacity 1)
  stats := rfl
  subsets := PairTable.lists_empty
  meets := PairTable.lists_empty

namespace Keeps

variable {cache : Cache key} {ledger : Ledger} {α : Type}

theorem size (keeps : cache.Keeps ledger) : cache.size = Ledger.memory.size ledger :=
  congrArg₂ (· + ·) keeps.subsets.size keeps.meets.size

theorem isEmpty (keeps : cache.Keeps ledger) : cache.isEmpty = Ledger.memory.isEmpty ledger := by
  have lengths : cache.size = ledger.subsets.length + ledger.meets.length := keeps.size
  rw [Cache.isEmpty, lengths]
  change _ = (ledger.subsets.isEmpty && ledger.meets.isEmpty)
  cases ledger.subsets <;> cases ledger.meets <;> simp

theorem looked (keeps : cache.Keeps ledger) (hit : Option α) :
    ({ cache with stats := cache.stats.count hit.isSome } : Cache key).Keeps
      (ledger.looked hit) := by
  obtain ⟨limit, positive, stats, subsets, meets⟩ := keeps
  cases hit with
  | none => exact ⟨limit, positive, by rw [stats]; rfl, subsets, meets⟩
  | some answer => exact ⟨limit, positive, by rw [stats]; rfl, subsets, meets⟩

theorem filled (keeps : cache.Keeps ledger) {table : PairTable α} {listed : List (PairEntry α)}
    (lists : table.Lists key ledger.limit listed) :
    { cache.stats with flushes := cache.stats.flushes + table.flushesAt cache.capacity } =
      ledger.filled listed := by
  rw [keeps.limit, lists.flushesAt, keeps.stats, Ledger.filled]
  split <;> rfl

theorem recorded (keeps : cache.Keeps ledger) {table : PairTable α} {listed : List (PairEntry α)}
    (lists : table.Lists key ledger.limit listed) (a b : Ty) (answer : α) :
    (table.record cache.capacity (key a b) a b answer).Lists key ledger.limit
      (Ledger.add ledger.limit listed ⟨a, b, answer⟩) := by
  rw [keeps.limit]
  exact lists.record keeps.positive a b answer

theorem access (keeps : cache.Keeps ledger) (respects : RespectsEquality key) (access : Access) :
    (memory.access cache access).1 = (Ledger.memory.access ledger access).1 ∧
      (memory.access cache access).2.Keeps (Ledger.memory.access ledger access).2 := by
  cases access with
  | subset a b =>
      have same := keeps.subsets.find? respects a b
      simp only [memory, Ledger.memory, Cache.subset?, same]
      exact ⟨trivial, keeps.looked _⟩
  | meet a b =>
      have same := keeps.meets.find? respects a b
      simp only [memory, Ledger.memory, Cache.meet?, same]
      exact ⟨trivial, keeps.looked _⟩
  | recordSubset a b answer =>
      exact ⟨rfl, keeps.limit, keeps.positive, keeps.filled keeps.subsets,
        keeps.recorded keeps.subsets a b answer, keeps.meets⟩
  | recordMeet a b answer =>
      exact ⟨rfl, keeps.limit, keeps.positive, keeps.filled keeps.meets, keeps.subsets,
        keeps.recorded keeps.meets a b answer⟩
  | clear =>
      exact ⟨rfl, keeps.limit, keeps.positive, keeps.stats, PairTable.lists_empty,
        PairTable.lists_empty⟩

theorem seen {done : Reply × Cache key} {other : Reply × Ledger} (reply : done.1 = other.1)
    (keeps : done.2.Keeps other.2) : memory.seen done = Ledger.memory.seen other := by
  change Observation.mk done.1 done.2.size done.2.isEmpty done.2.stats = _
  rw [reply, keeps.size, keeps.isEmpty, keeps.stats]
  rfl

theorem observe (keeps : cache.Keeps ledger) (respects : RespectsEquality key)
    (accesses : List Access) :
    memory.observe cache accesses = Ledger.memory.observe ledger accesses := by
  induction accesses generalizing cache ledger with
  | nil => rfl
  | cons first rest ih =>
      obtain ⟨reply, next⟩ := keeps.access respects first
      exact congrArg₂ List.cons (seen reply next) (ih next)

end Keeps

end Cache

/-- Memo tables of any capacity, under any key function that gives equal operand pairs the same
key, show what two plain lists show, whatever is done to them. -/
theorem tables_refine_lists {key : Ty → Ty → UInt64} (respects : RespectsEquality key)
    (capacity : Nat) (accesses : List Access) :
    Cache.memory.observe (Cache.new capacity : Cache key) accesses =
      Ledger.memory.observe (Ledger.new capacity) accesses :=
  (Cache.keeps_new capacity).observe respects accesses

def Ty.crowded (_ _ : Ty) : UInt64 := 0

def Ty.zero : Ty := .literal (.number ⟨0⟩)

def Ty.negativeZero : Ty := .literal (.number ⟨0x8000000000000000⟩)

/-- The second answer to one question is never found, and the third recording of subsets, which
finds two, loses both and leaves the meets. -/
theorem tables_refine_lists_crowded :
    RespectsEquality Ty.crowded ∧
    Cache.memory.observe (Cache.new 2 : Cache Ty.crowded)
      [.recordSubset .zero .text false, .recordSubset .negativeZero .text true,
        .subset .negativeZero .text, .recordMeet .zero .text none, .recordSubset .text .text true,
        .subset .zero .text, .meet .negativeZero .text, .meet .text .text, .clear] =
      [⟨.done, 1, false, ⟨0, 0, 0⟩⟩, ⟨.done, 2, false, ⟨0, 0, 0⟩⟩,
        ⟨.subset (some false), 2, false, ⟨1, 0, 0⟩⟩, ⟨.done, 3, false, ⟨1, 0, 0⟩⟩,
        ⟨.done, 2, false, ⟨1, 0, 1⟩⟩, ⟨.subset none, 2, false, ⟨1, 1, 1⟩⟩,
        ⟨.meet (some none), 2, false, ⟨2, 1, 1⟩⟩, ⟨.meet none, 2, false, ⟨2, 2, 1⟩⟩,
        ⟨.done, 0, true, ⟨2, 2, 1⟩⟩] := by
  have respects : RespectsEquality Ty.crowded := fun _ _ _ _ _ _ => rfl
  refine ⟨respects, ?_⟩
  rw [tables_refine_lists respects]
  cbv

end StructuralTypes
