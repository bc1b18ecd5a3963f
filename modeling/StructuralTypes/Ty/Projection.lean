import StructuralTypes.Ty.Basic

/-!
Reading a part out of a type. Through a union every branch has to give the part,
and the parts form a union of the same build; a union without branches gives none.
-/

namespace StructuralTypes

namespace Ty

variable {m : Type → Type} [Monad m]

mutual

/-- Applies a partial, effectful reading to each leaf of a union, left to right,
and stops at the first failure. -/
def projectM (read : Ty → m (Option Ty)) : Ty → m (Option Ty)
  | .union branches =>
      match branches with
      | [] => pure none
      | _ => do
          match ← projectAllM read branches with
          | none => pure none
          | some parts => pure (some (.union parts))
  | .literal value => read (.literal value)
  | .resolved shape => read (.resolved shape)

def projectAllM (read : Ty → m (Option Ty)) : List Ty → m (Option (List Ty))
  | [] => pure (some [])
  | ty :: rest => do
      match ← projectM read ty with
      | none => pure none
      | some part =>
          match ← projectAllM read rest with
          | none => pure none
          | some parts => pure (some (part :: parts))

end

def project (read : Ty → Option Ty) (ty : Ty) : Option Ty :=
  Id.run (projectM (fun leaf => pure (read leaf)) ty)

def member (key : String) : Ty → Option Ty :=
  project fun
    | .resolved (.dictionary entries) => Keyed.get? key entries
    | _ => none

def result : Ty → Option Ty :=
  project fun
    | .resolved (.function _ result) => some result
    | _ => none

def parameter (index : Nat) : Ty → Option Ty :=
  project fun
    | .resolved (.function parameters _) => parameters[index]?.map (·.ty)
    | _ => none

mutual

/-- The number of parameters, on which all branches of a union have to agree. -/
def arity : Ty → Option Nat
  | .resolved (.function parameters _) => some parameters.length
  | .union branches => arityOf branches
  | _ => none

def arityOf : List Ty → Option Nat
  | [] => none
  | ty :: rest =>
      match arity ty with
      | none => none
      | some count => if agrees count rest then some count else none

def agrees (count : Nat) : List Ty → Bool
  | [] => true
  | ty :: rest => arity ty == some count && agrees count rest

end

end Ty

end StructuralTypes
