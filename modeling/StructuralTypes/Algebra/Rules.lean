import StructuralTypes.Ty.Branches
import StructuralTypes.Ty.Equality

/-!
The rules for the two questions on types, whether one is a subset of another and
what their meet is. Each rule is one step: parts are answered by the `Queries` it is
given, in any monad, so the same rules serve the plain answers and the context that
remembers and counts. The order of the questions asked is part of the rules. Limits,
memo tables, counters and logs are not: they belong to the context. Dictionaries are
taken to be in key order, with each key once, and the rules do not check it.
-/

namespace StructuralTypes

structure Queries (m : Type → Type) where
  subset : Ty → Ty → m Bool
  meet : Ty → Ty → m (Option Ty)

namespace Rules

variable {m : Type → Type} [Monad m] (q : Queries m)

def typeEqual (a b : Ty) : m Bool := do
  if ← q.subset a b then q.subset b a else pure false

/-- Parameter lists agree by position in name and type; defaults do not matter. -/
def parametersEqual (ps rs : List Parameter) : m Bool :=
  if ps.length = rs.length then
    (ps.zip rs).allM fun (p, r) =>
      if p.name = r.name then typeEqual q p.ty r.ty else pure false
  else pure false

/-- The ground step of the subset relation. Parameters are invariant, results,
elements and positions follow the relation, and a dictionary needs every required key,
with a type that meets the required one. -/
def shapeSubset : Shape → Shape → m Bool
  | .number, .number => pure true
  | .text, .text => pure true
  | .logic, .logic => pure true
  | .void, .void => pure true
  | .named name ps, .named other rs =>
      if name = other then parametersEqual q ps rs else pure false
  | .function ps result, .function rs other => do
      if ← parametersEqual q ps rs then q.subset result other else pure false
  | .list element, .list other => q.subset element other
  | .tuple elements, .tuple others =>
      if elements.length = others.length then
        (elements.zip others).allM fun (element, other) => q.subset element other
      else pure false
  | .dictionary entries, .dictionary required =>
      required.allM fun (key, needed) =>
        match Keyed.get? key entries with
        | none => pure false
        | some field => do
            let common ← q.meet field needed
            pure common.isSome
  | _, _ => pure false

def resolvedEqual : Ty → Ty → m Bool
  | .resolved a, .resolved b => shapeSubset q a b
  | _, _ => pure false

def valueEqual (u v : Value) : m Bool := do
  if ← shapeSubset q u.shape v.shape then pure (u.payload == v.payload) else pure false

def covered (subs sups : List Ty) : m Bool :=
  subs.allM fun sub => sups.anyM fun sup => q.subset sub sup

/-- A union without branches is a subset of everything. A literal is a subset of an
equal literal and of whatever its classifier is a subset of, and nothing else is a
subset of a literal. With a union on either side branches are compared one by one. -/
def subset (a b : Ty) : m Bool :=
  match a, b with
  | .union parts, .literal _ => pure (Ty.branchesOf parts).isEmpty
  | .union parts, b =>
      if (Ty.branchesOf parts).isEmpty then pure true
      else covered q (Ty.branchesOf parts) b.branches
  | .literal u, .literal v => valueEqual q u v
  | .literal u, b => q.subset (.resolved u.shape) b
  | .resolved _, .literal _ => pure false
  | .resolved a, .union parts => covered q [.resolved a] (Ty.branchesOf parts)
  | .resolved a, .resolved b => shapeSubset q a b

def meetSome : List (Ty × Ty) → m (List Ty)
  | [] => pure []
  | (a, b) :: rest => do
      match ← q.meet a b with
      | none => meetSome rest
      | some ty =>
          let others ← meetSome rest
          pure (ty :: others)

def meetEach : List (Ty × Ty) → m (Option (List Ty))
  | [] => pure (some [])
  | (a, b) :: rest => do
      match ← q.meet a b with
      | none => pure none
      | some ty =>
          match ← meetEach rest with
          | none => pure none
          | some others => pure (some (ty :: others))

def meetFields (entries : List (String × Ty)) : List (String × Ty) → m (List (String × Ty))
  | [] => pure []
  | (key, other) :: rest =>
      match Keyed.get? key entries with
      | none => meetFields entries rest
      | some field => do
          match ← q.meet field other with
          | none => meetFields entries rest
          | some ty =>
              let others ← meetFields entries rest
              pure ((key, ty) :: others)

def crossPairs (as bs : List Ty) : List (Ty × Ty) :=
  as.flatMap fun a => bs.map fun b => (a, b)

/-- The meet of two lists of alternatives: every pair of branches is tried and the
pairs that meet are collapsed into one type. -/
def meetAll (as bs : List Ty) : m (Option Ty) := do
  let found ← meetSome q (crossPairs (Ty.branchesOf as) (Ty.branchesOf bs))
  pure (Ty.collapse found)

/-- Names and defaults are the first function's. -/
def meetFunctions (ps : List Parameter) (result : Ty) (rs : List Parameter) (other : Ty) :
    m (Option Shape) :=
  if ps.length = rs.length then do
    match ← meetEach q ((ps.map (·.ty)).zip (rs.map (·.ty))) with
    | none => pure none
    | some tys =>
        match ← q.meet result other with
        | none => pure none
        | some ty =>
            let parameters := ps.zipWith (fun p ty => { p with ty := ty }) tys
            pure (some (.function parameters ty))
  else pure none

/-- Shapes of different kinds have no meet, and named ones are never merged. -/
def meetShapes : Shape → Shape → m (Option Shape)
  | .number, .number => pure (some .number)
  | .text, .text => pure (some .text)
  | .logic, .logic => pure (some .logic)
  | .void, .void => pure (some .void)
  | .named name ps, .named other rs => do
      if ← shapeSubset q (.named name ps) (.named other rs) then pure (some (.named name ps))
      else pure none
  | .function ps result, .function rs other => meetFunctions q ps result rs other
  | .list element, .list other => do
      match ← q.meet element other with
      | none => pure none
      | some ty => pure (some (.list ty))
  | .tuple elements, .tuple others =>
      if elements.length = others.length then do
        match ← meetEach q (elements.zip others) with
        | none => pure none
        | some tys => pure (some (.tuple tys))
      else pure none
  | .dictionary entries, .dictionary others => do
      match ← meetFields q entries others with
      | [] => pure none
      | fields => pure (some (.dictionary fields))
  | _, _ => pure none

/-- A literal meets an equal literal and every type that contains it. -/
def meet (a b : Ty) : m (Option Ty) :=
  match a, b with
  | .union parts, b => meetAll q [.union parts] [b]
  | a, .union parts => meetAll q [a] [.union parts]
  | .literal u, .literal v => do
      if ← valueEqual q u v then pure (some (.literal u)) else pure none
  | .literal u, .resolved b => do
      if ← q.subset (.literal u) (.resolved b) then pure (some (.literal u)) else pure none
  | .resolved a, .literal v => do
      if ← q.subset (.literal v) (.resolved a) then pure (some (.literal v)) else pure none
  | .resolved a, .resolved b => do
      match ← meetShapes q a b with
      | none => pure none
      | some shape => pure (some (.resolved shape))

def typesMatch (a b : Ty) : m Bool := do
  let common ← q.meet a b
  pure common.isSome

def meetFrom (ty : Ty) : List Ty → m (Option Ty)
  | [] => pure (some ty)
  | next :: rest => do
      match ← q.meet ty next with
      | none => pure none
      | some common => meetFrom common rest

def reduce (ty : Ty) : m (Option Ty) :=
  match ty with
  | .union parts =>
      match Ty.branchesOf parts with
      | [] => pure none
      | first :: rest => meetFrom q first rest
  | ty => pure (some ty)

end Rules

end StructuralTypes
