import StructuralTypes.Algebra.Rules
import StructuralTypes.Ty.Height

/-!
The plain answers: the rules applied again and again, with nothing remembered and
no limit. Each step goes down in the joint height of its operands, which therefore
bounds the number of steps. Nothing runs these for an answer: they are what the answers
of a context are compared with.
-/

namespace StructuralTypes.Reference

def within : Nat → Queries Id
  | 0 => { subset := fun _ _ => pure false, meet := fun _ _ => pure none }
  | steps + 1 =>
      { subset := fun a b => if a == b then pure true else Rules.subset (within steps) a b
        meet := fun a b => Rules.meet (within steps) a b }

def queries : Queries Id where
  subset a b := (within (a.height + b.height)).subset a b
  meet a b := (within (a.height + b.height)).meet a b

def subset (a b : Ty) : Bool := (queries.subset a b).run

def meet (a b : Ty) : Option Ty := (queries.meet a b).run

def typeEqual (a b : Ty) : Bool := (Rules.typeEqual queries a b).run

def typesMatch (a b : Ty) : Bool := (Rules.typesMatch queries a b).run

def reduce (ty : Ty) : Option Ty := (Rules.reduce queries ty).run

end StructuralTypes.Reference
