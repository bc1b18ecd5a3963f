import StructuralTypes.Ty.Basic

/-!
The values in a type, at any depth: those of its literals and those that its parameters default
to, and the values in their classifiers. Data is finite when every number in the payloads of
these values is.
-/

namespace StructuralTypes

mutual

def Payload.numbers : Payload → List Number
  | .number value => [value]
  | .list items => Payload.numbersAll items
  | .dictionary entries => Payload.numbersEntries entries
  | _ => []

def Payload.numbersAll : List Payload → List Number
  | [] => []
  | item :: rest => item.numbers ++ Payload.numbersAll rest

def Payload.numbersEntries : List (String × Payload) → List Number
  | [] => []
  | (_, value) :: rest => value.numbers ++ Payload.numbersEntries rest

end

mutual

def Ty.values : Ty → List Value
  | .literal value => value.values
  | .union branches => Ty.valuesAll branches
  | .resolved shape => shape.values

def Shape.values : Shape → List Value
  | .named _ parameters => Parameter.valuesAll parameters
  | .function parameters result => Parameter.valuesAll parameters ++ result.values
  | .list element => element.values
  | .tuple elements => Ty.valuesAll elements
  | .dictionary entries => Ty.valuesEntries entries
  | _ => []

def Value.values : Value → List Value
  | ⟨payload, shape⟩ => ⟨payload, shape⟩ :: shape.values

def Parameter.values : Parameter → List Value
  | ⟨_, ty, default⟩ => ty.values ++ Value.valuesDefault default

def Value.valuesDefault : Option Value → List Value
  | none => []
  | some value => value.values

def Ty.valuesAll : List Ty → List Value
  | [] => []
  | ty :: rest => ty.values ++ Ty.valuesAll rest

def Parameter.valuesAll : List Parameter → List Value
  | [] => []
  | parameter :: rest => parameter.values ++ Parameter.valuesAll rest

def Ty.valuesEntries : List (String × Ty) → List Value
  | [] => []
  | (_, ty) :: rest => ty.values ++ Ty.valuesEntries rest

end

def Payload.Finite (p : Payload) : Prop := ∀ n ∈ p.numbers, n.isFinite = true

def Ty.Finite (t : Ty) : Prop := ∀ value ∈ t.values, value.payload.Finite

def Value.Finite (v : Value) : Prop := ∀ value ∈ v.values, value.payload.Finite

def Parameter.Finite (p : Parameter) : Prop := ∀ value ∈ p.values, value.payload.Finite

instance (p : Payload) : Decidable p.Finite :=
  inferInstanceAs (Decidable (∀ n ∈ p.numbers, n.isFinite = true))

instance (t : Ty) : Decidable t.Finite :=
  inferInstanceAs (Decidable (∀ value ∈ t.values, value.payload.Finite))

instance (v : Value) : Decidable v.Finite :=
  inferInstanceAs (Decidable (∀ value ∈ v.values, value.payload.Finite))

instance (p : Parameter) : Decidable p.Finite :=
  inferInstanceAs (Decidable (∀ value ∈ p.values, value.payload.Finite))

end StructuralTypes
