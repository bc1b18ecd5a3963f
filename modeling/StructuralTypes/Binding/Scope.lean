import StructuralTypes.Binding.Basic
import StructuralTypes.Binding.Error

/-!
Names and their bindings. A name is defined once. What definitions log is left out.
-/

namespace StructuralTypes

structure Scope where
  bindings : List (String × Binding)

namespace Scope

def empty : Scope := ⟨[]⟩

/-- A scope with the given names; the last binding of a repeated name counts. -/
def withGlobals (globals : List (String × Binding)) : Scope := ⟨Keyed.ofList globals⟩

def console : Binding where
  payload := .ofEntries [("log", .native "console.log")]
  ty := .dictionary [("log", .function [⟨"message", .union [.text, .number], none⟩] .void)]

def host : Scope := withGlobals [("console", console)]

def contains (scope : Scope) (name : String) : Bool :=
  (Keyed.get? name scope.bindings).isSome

def define (scope : Scope) (name : String) (binding : Binding) : Except BindError Scope :=
  if scope.contains name then .error (.alreadyDefined name)
  else .ok ⟨Keyed.insert name binding scope.bindings⟩

def lookup (scope : Scope) (name : String) : Except BindError Binding :=
  match Keyed.get? name scope.bindings with
  | some binding => .ok binding
  | none => .error (.neverDefined name)

def size (scope : Scope) : Nat := scope.bindings.length

def isEmpty (scope : Scope) : Bool := scope.bindings.isEmpty

end Scope

end StructuralTypes
