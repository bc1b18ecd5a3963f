import StructuralTypes.Algebra.Context
import StructuralTypes.Binding.Evaluation

/-!
A run of the evaluator: a scope, and a context on which everything is checked. An
action either binds something or fails; a failing action leaves the scope as it was,
while the context keeps what it learnt. There are no expressions: an action is given the
bindings that it works on.
-/

namespace StructuralTypes

structure Session [PairKey] where
  scope : Scope
  context : Context

abbrev Host := List Binding → Except BindError Payload

inductive Action where
  | define (name : String) (binding : Binding)
  | lookup (name : String)
  | binary (operator : Operator) (left right : Binding)
  | member (object : Binding) (key : String)
  | template (parts : List Binding)
  | call (callee : Binding) (args : List Binding) (host : Host)

namespace Session

variable [PairKey]

def onContext {α : Type} (work : ExceptT BindError Query α) (session : Session) :
    Except BindError α × Session :=
  let (outcome, context) := work.run.run session.context
  (outcome, { session with context := context })

def define (name : String) (binding : Binding) (session : Session) :
    Except BindError Unit × Session :=
  match session.scope.define name binding with
  | .ok scope => (.ok (), { session with scope := scope })
  | .error error => (.error error, session)

/-- The binding an action gives; a definition gives the binding it defines. -/
def perform (action : Action) (session : Session) : Except BindError Binding × Session :=
  match action with
  | .define name binding =>
      let (outcome, session) := session.define name binding
      (outcome.map fun _ => binding, session)
  | .lookup name => (session.scope.lookup name, session)
  | .binary operator left right => session.onContext (Eval.binary Query.queries operator left right)
  | .member object key => session.onContext (Eval.member object key)
  | .template parts => session.onContext (Eval.template Query.queries parts)
  | .call callee args host => session.onContext (Eval.call Query.queries callee args host)

/-- An action whose result is also given a name; a name that is taken fails it. -/
def performAs (name : String) (action : Action) (session : Session) :
    Except BindError Binding × Session :=
  match session.perform action with
  | (.error error, session) => (.error error, session)
  | (.ok binding, session) => session.perform (.define name binding)

def run : List Action → Session → List (Except BindError Binding) × Session
  | [], session => ([], session)
  | action :: rest, session =>
      let (outcome, session) := session.perform action
      let (outcomes, session) := run rest session
      (outcome :: outcomes, session)

end Session

end StructuralTypes
