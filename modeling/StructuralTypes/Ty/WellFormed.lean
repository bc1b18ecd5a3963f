import StructuralTypes.Ty.Basic

/-!
Well-formed data: the entries of every dictionary, at any depth, stand in key order
with each key once. All ways to build a dictionary from outside keep this.
-/

namespace StructuralTypes

mutual

def Payload.wellFormed : Payload → Bool
  | .list items => Payload.allWellFormed items
  | .dictionary entries =>
      decide (Keyed.Sorted entries) && Payload.entriesWellFormed entries
  | _ => true

def Payload.allWellFormed : List Payload → Bool
  | [] => true
  | item :: rest => item.wellFormed && Payload.allWellFormed rest

def Payload.entriesWellFormed : List (String × Payload) → Bool
  | [] => true
  | (_, value) :: rest => value.wellFormed && Payload.entriesWellFormed rest

end

mutual

def Ty.wellFormed : Ty → Bool
  | .literal value => value.wellFormed
  | .union branches => Ty.allWellFormed branches
  | .resolved shape => shape.wellFormed

def Shape.wellFormed : Shape → Bool
  | .named _ parameters => Parameter.allWellFormed parameters
  | .function parameters result => Parameter.allWellFormed parameters && result.wellFormed
  | .list element => element.wellFormed
  | .tuple elements => Ty.allWellFormed elements
  | .dictionary entries => decide (Keyed.Sorted entries) && Ty.entriesWellFormed entries
  | _ => true

def Value.wellFormed : Value → Bool
  | ⟨payload, shape⟩ => payload.wellFormed && shape.wellFormed

def Parameter.wellFormed : Parameter → Bool
  | ⟨_, ty, default⟩ => ty.wellFormed && Value.defaultWellFormed default

def Value.defaultWellFormed : Option Value → Bool
  | none => true
  | some value => value.wellFormed

def Ty.allWellFormed : List Ty → Bool
  | [] => true
  | ty :: rest => ty.wellFormed && Ty.allWellFormed rest

def Parameter.allWellFormed : List Parameter → Bool
  | [] => true
  | parameter :: rest => parameter.wellFormed && Parameter.allWellFormed rest

def Ty.entriesWellFormed : List (String × Ty) → Bool
  | [] => true
  | (_, ty) :: rest => ty.wellFormed && Ty.entriesWellFormed rest

end

end StructuralTypes
