import Std.Data.TreeMap
import StructuralTypes.Ty.Equality

/-!
Memo tables on operand pairs. A table groups its entries in buckets by a key of the
pair and confirms a hit by equality, so the answer first recorded for an equal pair is
found whatever the key function does beyond giving equal pairs equal keys. A table that
is full is emptied before the next entry goes in. The key function is a parameter: no
particular hash is modelled and nothing is assumed of it here. Buckets stand in a sorted
map, since no answer shows their order, and the counters have no greatest value.
-/

namespace StructuralTypes

structure PairEntry (α : Type) where
  left : Ty
  right : Ty
  answer : α

def PairEntry.isFor {α : Type} (entry : PairEntry α) (a b : Ty) : Bool :=
  entry.left == a && entry.right == b

/-- Entries in buckets, the oldest first in each. -/
structure PairTable (α : Type) where
  buckets : Std.TreeMap UInt64 (List (PairEntry α))
  size : Nat

namespace PairTable

variable {α : Type}

def empty : PairTable α := ⟨∅, 0⟩

def bucket (table : PairTable α) (key : UInt64) : List (PairEntry α) :=
  table.buckets.getD key []

def find? (table : PairTable α) (key : UInt64) (a b : Ty) : Option α :=
  ((table.bucket key).find? (·.isFor a b)).map (·.answer)

def insert (table : PairTable α) (key : UInt64) (a b : Ty) (answer : α) : PairTable α where
  buckets := table.buckets.insert key (table.bucket key ++ [⟨a, b, answer⟩])
  size := table.size + 1

/-- Records an answer, in an emptied table if `capacity` entries are there already. -/
def record (table : PairTable α) (capacity : Nat) (key : UInt64) (a b : Ty) (answer : α) :
    PairTable α :=
  if capacity ≤ table.size then empty.insert key a b answer else table.insert key a b answer

def flushesAt (table : PairTable α) (capacity : Nat) : Nat :=
  if capacity ≤ table.size then 1 else 0

end PairTable

structure CacheStats where
  hits : Nat := 0
  misses : Nat := 0
  flushes : Nat := 0
  deriving DecidableEq

def CacheStats.count (stats : CacheStats) (hit : Bool) : CacheStats :=
  if hit then { stats with hits := stats.hits + 1 }
  else { stats with misses := stats.misses + 1 }

structure Cache (key : Ty → Ty → UInt64) where
  subsets : PairTable Bool
  meets : PairTable (Option Ty)
  capacity : Nat
  stats : CacheStats

namespace Cache

variable {key : Ty → Ty → UInt64}

/-- A table holds one entry even if the capacity asked for is zero. -/
def new (capacity : Nat) : Cache key where
  subsets := .empty
  meets := .empty
  capacity := max capacity 1
  stats := {}

def subset? (cache : Cache key) (a b : Ty) : Option Bool × Cache key :=
  let hit := cache.subsets.find? (key a b) a b
  (hit, { cache with stats := cache.stats.count hit.isSome })

def recordSubset (cache : Cache key) (a b : Ty) (answer : Bool) : Cache key :=
  { cache with
    subsets := cache.subsets.record cache.capacity (key a b) a b answer
    stats := { cache.stats with
      flushes := cache.stats.flushes + cache.subsets.flushesAt cache.capacity } }

/-- The recorded answer to a meet question, which may be that there is no meet. -/
def meet? (cache : Cache key) (a b : Ty) : Option (Option Ty) × Cache key :=
  let hit := cache.meets.find? (key a b) a b
  (hit, { cache with stats := cache.stats.count hit.isSome })

def recordMeet (cache : Cache key) (a b : Ty) (answer : Option Ty) : Cache key :=
  { cache with
    meets := cache.meets.record cache.capacity (key a b) a b answer
    stats := { cache.stats with
      flushes := cache.stats.flushes + cache.meets.flushesAt cache.capacity } }

def size (cache : Cache key) : Nat := cache.subsets.size + cache.meets.size

def isEmpty (cache : Cache key) : Bool := cache.size == 0

def clear (cache : Cache key) : Cache key :=
  { cache with subsets := .empty, meets := .empty }

end Cache

end StructuralTypes
