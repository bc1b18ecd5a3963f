import StructuralTypes.Binding.Check
import StructuralTypes.Binding.Scope

/-!
Evaluation of operations on bindings: each is checked on the static types first and
then carried out on the payloads. What the host does in a call is a parameter, of which
nothing is assumed here; its effects beside the payload it gives are left out.
-/

namespace StructuralTypes.Eval

variable {m : Type → Type} [Monad m] (q : Queries m)

def binary (operator : Operator) (left right : Binding) : ExceptT BindError m Binding := do
  let _ ← Check.binary q operator left.ty right.ty
  match operator.apply left right with
  | .ok result => pure result
  | .error error => throw error

def call (callee : Binding) (args : List Binding)
    (host : List Binding → Except BindError Payload) : ExceptT BindError m Binding := do
  let ty ← Check.call q callee.ty (args.map (·.ty))
  match host args with
  | .ok payload => pure ⟨payload, ty⟩
  | .error error => throw error

/-- A member read, which needs the member in the payload too. -/
def member (object : Binding) (key : String) : ExceptT BindError m Binding := do
  let ty ← Check.member object.ty key
  match object.payload with
  | .dictionary entries =>
      match Keyed.get? key entries with
      | some payload => pure ⟨payload, ty⟩
      | none => throw (.invalidPayload "Dictionary with the member")
  | _ => throw (.invalidPayload "Dictionary")

def chunks : List Binding → ExceptT BindError m String
  | [] => pure ""
  | binding :: rest => do
      let _ ← Check.chunk q binding.ty
      match binding.payload.chunk with
      | .error error => throw error
      | .ok text =>
          let others ← chunks rest
          pure (text ++ others)

def template (parts : List Binding) : ExceptT BindError m Binding := do
  let text ← chunks q parts
  pure ⟨.text text, .text⟩

end StructuralTypes.Eval
