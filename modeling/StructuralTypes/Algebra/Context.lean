import StructuralTypes.Algebra.Cache
import StructuralTypes.Algebra.Config
import StructuralTypes.Algebra.Rules
import StructuralTypes.Ty.Height

/-!
Questions asked of a context. The context remembers answers by operand pair and
limits how deep questions nest: at the limit a question answers `false` or no meet
and a cutoff is counted. An answer found while a cutoff fell is not remembered, since
it need not be the answer of the rules. `PairKey` leaves the key of the memo tables open,
and the instance at the end is what a program runs with. The steps of `within` stand for
unbounded recursion, which the height of the operands bounds. What a context logs, and
the stack of the machine that it would run on, are left out.
-/

namespace StructuralTypes

/-- The key by which memo tables group operand pairs. -/
class PairKey where
  code : Ty → Ty → UInt64

section

variable [PairKey]

structure Context where
  config : Config
  cache : Cache PairKey.code
  -- questions under way
  depth : Nat
  -- questions answered at the limit
  cutoffs : Nat

def Context.new (config : Config) : Context where
  config := config
  cache := Cache.new config.cacheCapacity
  depth := 0
  cutoffs := 0

abbrev Query := StateM Context

namespace Query

def enter : Query Bool :=
  modifyGet fun context =>
    if context.config.maxDepth ≤ context.depth then
      (false, { context with cutoffs := context.cutoffs + 1 })
    else (true, { context with depth := context.depth + 1 })

def leave : Query Unit :=
  modify fun context => { context with depth := context.depth - 1 }

/-- Works one level down; at the limit the answer is `fallback`. -/
def deeper {α : Type} (fallback : α) (work : Query α) : Query α := do
  if ← enter then
    let answer ← work
    leave
    pure answer
  else pure fallback

structure Table (α : Type) where
  look : Ty → Ty → Query (Option α)
  record : Ty → Ty → α → Query Unit

def subsets : Table Bool where
  look a b := modifyGet fun context =>
    let (hit, cache) := context.cache.subset? a b
    (hit, { context with cache := cache })
  record a b answer := modify fun context =>
    { context with cache := context.cache.recordSubset a b answer }

def meets : Table (Option Ty) where
  look a b := modifyGet fun context =>
    let (hit, cache) := context.cache.meet? a b
    (hit, { context with cache := cache })
  record a b answer := modify fun context =>
    { context with cache := context.cache.recordMeet a b answer }

def memoizes : Query Bool := do return (← get).config.memoize

def cutoffs : Query Nat := do return (← get).cutoffs

/-- Looks the answer up, or works it out and records it if no cutoff fell meanwhile. -/
def remembered {α : Type} (table : Table α) (a b : Ty) (work : Query α) : Query α := do
  if ← memoizes then
    match ← table.look a b with
    | some answer => pure answer
    | none =>
        let before ← cutoffs
        let answer ← work
        let after ← cutoffs
        if after = before then table.record a b answer
        pure answer
  else work

/-- The rules on a context, nested at most `steps` deep. Equal operands are subsets of
each other without a look at tables or limit. -/
def within : Nat → Queries Query
  | 0 => { subset := fun _ _ => pure false, meet := fun _ _ => pure none }
  | steps + 1 =>
      { subset := fun a b =>
          if a == b then pure true
          else remembered subsets a b (deeper false (Rules.subset (within steps) a b))
        meet := fun a b =>
          remembered meets a b (deeper none (Rules.meet (within steps) a b)) }

def queries : Queries Query where
  subset a b := (within (a.height + b.height)).subset a b
  meet a b := (within (a.height + b.height)).meet a b

def subset (a b : Ty) : Query Bool := queries.subset a b

def meet (a b : Ty) : Query (Option Ty) := queries.meet a b

def typeEqual (a b : Ty) : Query Bool := Rules.typeEqual queries a b

def resolvedEqual (a b : Ty) : Query Bool := Rules.resolvedEqual queries a b

def valueEqual (u v : Value) : Query Bool := Rules.valueEqual queries u v

def parametersEqual (ps rs : List Parameter) : Query Bool := Rules.parametersEqual queries ps rs

def meetAll (as bs : List Ty) : Query (Option Ty) := Rules.meetAll queries as bs

def typesMatch (a b : Ty) : Query Bool := Rules.typesMatch queries a b

def reduce (ty : Ty) : Query (Option Ty) := Rules.reduce queries ty

def clearCache : Query Unit :=
  modify fun context => { context with cache := context.cache.clear }

def once {α : Type} (question : Query α) : α :=
  (question.run (Context.new {})).1

end Query

end

-- statements on fixed inputs are about this key, all others about any
instance : PairKey := ⟨Ty.pairKey⟩

end StructuralTypes
