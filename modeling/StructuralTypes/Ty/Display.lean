import StructuralTypes.Ty.Basic

/-!
The printed form of types. A union or function inside a union is put in
parentheses, and a tuple of one element keeps a comma, so grouping can be read back.
-/

namespace StructuralTypes

def Ty.grouped (branch : Ty) (rendered : String) : String :=
  match branch with
  | .union _ => "(" ++ rendered ++ ")"
  | .resolved (.function _ _) => "(" ++ rendered ++ ")"
  | _ => rendered

mutual

def Ty.render : Ty → String
  | .literal value => value.payload.render
  | .union branches =>
      match branches with
      | [] => "never"
      | _ => " | ".intercalate (Ty.renderBranches branches)
  | .resolved shape => shape.render

def Shape.render : Shape → String
  | .number => "Number"
  | .text => "Text"
  | .logic => "Logic"
  | .void => "Void"
  | .named name parameters =>
      match parameters with
      | [] => name
      | _ => name ++ "<" ++ ", ".intercalate (Parameter.renderAll parameters) ++ ">"
  | .function parameters result =>
      "(" ++ ", ".intercalate (Parameter.renderAll parameters) ++ ") -> " ++ result.render
  | .list element => "[" ++ element.render ++ "]"
  | .tuple elements =>
      match Ty.renderAll elements with
      | [single] => "(" ++ single ++ ",)"
      | rendered => "(" ++ ", ".intercalate rendered ++ ")"
  | .dictionary entries => "\x7b" ++ ", ".intercalate (Ty.renderEntries entries) ++ "\x7d"

def Parameter.render : Parameter → String
  | ⟨name, ty, default⟩ =>
      let tail := match default with
        | some value => " = " ++ value.payload.render
        | none => ""
      name ++ ": " ++ ty.render ++ tail

def Ty.renderAll : List Ty → List String
  | [] => []
  | ty :: rest => ty.render :: Ty.renderAll rest

def Ty.renderBranches : List Ty → List String
  | [] => []
  | branch :: rest => branch.grouped branch.render :: Ty.renderBranches rest

def Parameter.renderAll : List Parameter → List String
  | [] => []
  | parameter :: rest => parameter.render :: Parameter.renderAll rest

def Ty.renderEntries : List (String × Ty) → List String
  | [] => []
  | (key, ty) :: rest => (key ++ ": " ++ ty.render) :: Ty.renderEntries rest

end

end StructuralTypes
