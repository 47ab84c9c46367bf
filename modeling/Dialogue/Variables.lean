import Dialogue.Template
import Dialogue.Failure

/-! # Variables

The variables of a conversation: values by name. A look-up tries the name itself and then reads it
as a path. -/

namespace Dialogue

/-- The variables of a conversation. -/
abbrev Variables := Fields

namespace Variables

/-- The value under a name or at a path. -/
def find? (vars : Variables) (name : String) : Option Json :=
  match vars.get? name with
  | some v => some v
  | none => (Json.obj vars).lookup? name

/-- The variables with a value given to one of them. -/
def set (vars : Variables) (name : String) (value : Json) : Variables :=
  Fields.insert name value vars

/-- The text with values put in for its placeholders. -/
def interpolate (vars : Variables) (text : String) : String :=
  Template.interpolate (.obj vars) text

/-- The value with all texts in it filled. -/
def interpolateJson (vars : Variables) (value : Json) : Json :=
  Template.interpolateJson (.obj vars) value

/-- The value under a name as a value of some type. -/
def read? {α : Type} (vars : Variables) (dec : Decoder α) (name : String) : Option α :=
  (vars.get? name).bind fun v => (dec (.ofJson v)).toOption

/-- The members of `after` that `before` does not have with the same value. -/
def delta (before after : Variables) : Variables :=
  after.filter fun f => !f.2.isSame (before.get? f.1)

end Variables

end Dialogue
