import StructuralTypes.Algebra.Rules
import StructuralTypes.Binding.Error
import StructuralTypes.Binding.Operator
import StructuralTypes.Ty.Projection

/-!
Static checks of calls, member reads, operators and template chunks. A check asks the
`Queries` it is given, so it can be made with the plain answers or on a context; the
answers given stay known to the context even if the check fails.
-/

namespace StructuralTypes.Check

variable {m : Type → Type} [Monad m] (q : Queries m)

def arguments (callee : Ty) (index : Nat) : List Ty → ExceptT BindError m Unit
  | [] => pure ()
  | argument :: rest =>
      match callee.parameter index with
      | none => throw (.unresolvedParameter index callee)
      | some parameter => do
          if ← ExceptT.lift (Rules.typesMatch q argument parameter) then
            arguments callee (index + 1) rest
          else throw (.argumentMismatch index parameter argument)

/-- The type of a call: every branch of the callee is a function of as many
parameters as there are arguments, and each argument meets its parameter. -/
def call (callee : Ty) (args : List Ty) : ExceptT BindError m Ty :=
  match callee.arity with
  | none => throw (.notCallable callee)
  | some expected =>
      if expected = args.length then do
        arguments q callee 0 args
        match callee.result with
        | none => throw (.unresolvedReturn callee)
        | some result => pure result
      else throw (.arityMismatch expected args.length)

def member (object : Ty) (key : String) : ExceptT BindError m Ty :=
  match object.member key with
  | none => throw (.noMember object key)
  | some ty => pure ty

/-- What an operand counts as: the common type of its branches, a literal as its
classifier. -/
def operand (ty : Ty) : ExceptT BindError m Ty := do
  match ← ExceptT.lift (Rules.reduce q ty) with
  | none => throw (.irreducibleOperand ty)
  | some reduced => pure reduced.carrier

def binary (operator : Operator) (left right : Ty) : ExceptT BindError m Ty := do
  let left ← operand q left
  let right ← operand q right
  match operator.resultType left right with
  | none => throw (.invalidOperands operator left right)
  | some ty => pure ty

def chunk (ty : Ty) : ExceptT BindError m Ty := do
  match (← ExceptT.lift (Rules.reduce q ty)).map Ty.carrier with
  | some (.resolved .text) => pure .text
  | some (.resolved .number) => pure .number
  | _ => throw (.notDisplayable ty)

end StructuralTypes.Check
