import ObjcBinding.Text.UpperCase

/-!
# Derived selectors

A method without a written selector gets one from its external signature: its name, then the
labels of the second and later parameters, each followed by a colon. A property with one
parameter is a setter: its name in upper case after `set`.

* `derivedText_nil`: a method without parameters is called by its name alone.
-/

namespace ObjcBinding.Selector

/-- The selector text of the setter of `property`. -/
def setterText (property : String) : String :=
  let name := match property.toList with
    | [] => []
    | c :: cs => Text.upperCase c ++ cs
  "set" ++ String.ofList name ++ ":"

/-- The selector text of a method, from its name and the labels of its parameters. -/
def derivedText (name : String) (labels : List (Option String)) (isProperty : Bool) : String :=
  if isProperty && labels.length == 1 then setterText name
  else match labels with
    | [] => name
    | _ :: rest => name ++ ":" ++ String.join (rest.map fun label => label.getD "" ++ ":")

theorem derivedText_nil (name : String) (isProperty : Bool) :
    derivedText name [] isProperty = name := by
  simp [derivedText]

end ObjcBinding.Selector
