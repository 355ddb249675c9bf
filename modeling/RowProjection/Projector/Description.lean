import RowProjection.Projector.Basic

namespace RowProjection.Projector

/-- An optional injector. -/
def injectorText : Option Injector → String
  | none => "None"
  | some injector => "Some(" ++ injector.description ++ ")"

/-- A list in brackets, with commas between its items. -/
def listText (items : List String) : String :=
  "[" ++ ", ".intercalate items ++ "]"

variable {κ ν : Type} [Target κ] [Target ν]

/-- The formats, injectors and null policy of a projector. -/
def description (projector : Projector κ ν) : String :=
  "KvProjector \x7b key_format: " ++ Text.quoted (Target.format projector.targets.key) ++
    ", value_format: " ++ Text.quoted (Target.format projector.targets.value) ++
    ", key_injectors: " ++ listText (projector.keyInjectors.map injectorText) ++
    ", value_injectors: " ++ listText (projector.valueInjectors.map injectorText) ++
    ", fail_on_nulls: " ++ (if projector.failOnNulls then "true" else "false") ++ " \x7d"

end RowProjection.Projector
