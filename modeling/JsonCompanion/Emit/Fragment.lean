import JsonCompanion.Text.Basic

/-!
# Fragments

A companion module is made of fragments, and each declares one name at the top of the module.

* `Fragment.text` writes a fragment down, and `Fragment.name` is the name that it declares.
-/

namespace JsonCompanion.Emit

/-- A declaration of a companion module: a function with the lines of its body, or an exported
constant. -/
inductive Fragment
  | function (isExported : Bool) (name : Text) (parameters lines : List Text)
  | constant (name value : Text)

namespace Fragment

/-- The name that a fragment declares. -/
def name : Fragment → Text
  | .function _ name _ _ => name
  | .constant name _ => name

/-- The first line of a function. -/
def signature (name : Text) (parameters : List Text) : Text :=
  "function " ++ name ++ "(" ++ Text.join ", " parameters ++ ") \x7b"

/-- The text of a fragment. -/
def text : Fragment → Text
  | .function isExported name parameters lines =>
    let head : Text := if isExported then "export " else []
    Text.join "\n" ((head ++ signature name parameters) :: lines ++ [("\x7d" : Text)])
  | .constant name value => "export const " ++ name ++ " = " ++ value ++ ";"

end Fragment

end JsonCompanion.Emit
