import StructuralTypes.Ty.Display

/-!
What can go wrong with names and operations on bindings, and how it is reported.
-/

namespace StructuralTypes

inductive Operator where
  -- sum of numbers, or one text after the other
  | add
  -- product of numbers, or a text repeated
  | multiply
  deriving DecidableEq

def Operator.symbol : Operator → String
  | .add => "+"
  | .multiply => "*"

inductive BindError where
  | alreadyDefined (name : String)
  | neverDefined (name : String)
  | notCallable (ty : Ty)
  | arityMismatch (expected actual : Nat)
  | unresolvedParameter (index : Nat) (callee : Ty)
  | argumentMismatch (index : Nat) (expected actual : Ty)
  | unresolvedReturn (callee : Ty)
  | noMember (ty : Ty) (key : String)
  | irreducibleOperand (ty : Ty)
  | invalidOperands (operator : Operator) (left right : Ty)
  | notDisplayable (ty : Ty)
  | repeatTooLarge (length : Nat) (count : Number)
  | invalidPayload (expected : String)

def BindError.message : BindError → String
  | .alreadyDefined name => "'" ++ name ++ "' is already defined"
  | .neverDefined name => "'" ++ name ++ "' was never defined"
  | .notCallable ty => "A value of type " ++ ty.render ++ " is not callable"
  | .arityMismatch expected actual =>
      "Expected " ++ Nat.repr expected ++ " argument(s), got " ++ Nat.repr actual
  | .unresolvedParameter index callee =>
      "Cannot resolve the type of parameter " ++ Nat.repr index ++ " of " ++ callee.render
  | .argumentMismatch index expected actual =>
      "Argument " ++ Nat.repr index ++ " of type " ++ actual.render ++
        " does not match parameter type " ++ expected.render
  | .unresolvedReturn callee => "Cannot resolve the return type of " ++ callee.render
  | .noMember ty key => "Type " ++ ty.render ++ " has no member '" ++ key ++ "'"
  | .irreducibleOperand ty =>
      "Operand of type " ++ ty.render ++ " cannot be reduced to a single type"
  | .invalidOperands operator left right =>
      "Operator '" ++ operator.symbol ++ "' cannot be applied to " ++ left.render ++
        " and " ++ right.render
  | .notDisplayable ty =>
      "A value of type " ++ ty.render ++ " cannot be displayed in a template"
  | .repeatTooLarge length count =>
      "Repeating a text of " ++ Nat.repr length ++ " byte(s) " ++ count.text ++
        " times is too large"
  | .invalidPayload expected => "Expected a " ++ expected ++ " payload"

end StructuralTypes
