import StructuralTypes.Algebra.Context
import StructuralTypes.Algebra.Reference

/-!
Everything that can be asked about types, as data. A question has one answer by any
`Queries`: the plain one, and the one a context gives, which may differ only where the
context cuts a question short. A context also takes the request to forget what it
remembers.
-/

namespace StructuralTypes

inductive Question where
  | subset (a b : Ty)
  | typeEqual (a b : Ty)
  | resolvedEqual (a b : Ty)
  | valueEqual (u v : Value)
  | parametersEqual (ps rs : List Parameter)
  | meet (a b : Ty)
  | meetAll (as bs : List Ty)
  | reduce (ty : Ty)
  | typesMatch (a b : Ty)

inductive Answer where
  | truth (holds : Bool)
  | type (ty : Option Ty)

/-- Answers are compared up to the equality of types. -/
def Answer.beq : Answer → Answer → Bool
  | .truth holds, .truth other => holds == other
  | .type ty, .type other => ty == other
  | _, _ => false

instance : BEq Answer := ⟨Answer.beq⟩

namespace Question

variable {m : Type → Type} [Monad m]

def answerBy (q : Queries m) : Question → m Answer
  | .subset a b => .truth <$> q.subset a b
  | .typeEqual a b => .truth <$> Rules.typeEqual q a b
  | .resolvedEqual a b => .truth <$> Rules.resolvedEqual q a b
  | .valueEqual u v => .truth <$> Rules.valueEqual q u v
  | .parametersEqual ps rs => .truth <$> Rules.parametersEqual q ps rs
  | .meet a b => .type <$> q.meet a b
  | .meetAll as bs => .type <$> Rules.meetAll q as bs
  | .reduce ty => .type <$> Rules.reduce q ty
  | .typesMatch a b => .truth <$> Rules.typesMatch q a b

def answer (question : Question) : Answer := (question.answerBy Reference.queries).run

def ask [PairKey] (question : Question) : Query Answer := question.answerBy Query.queries

end Question

inductive Request where
  | ask (question : Question)
  | forget

namespace Request

variable [PairKey]

def perform : Request → Query Unit
  | .ask question => do
      let _ ← question.ask
      pure ()
  | .forget => Query.clearCache

def history (requests : List Request) (start : Context) : Context :=
  requests.foldl (fun context request => (request.perform.run context).2) start

end Request

end StructuralTypes
