import CodeSample.Render.Output
import CodeSample.Target.CSharp

/-!
# Targets

The backends by the names of their targets, and the rendering of a sample for a target.

* `Target.backend` is the backend for a name, `Target.render` renders a sample for one.
-/

namespace CodeSample

/-- The indentation that a datum asks for; a truth value counts as zero or one. -/
def Layout.Indent.ofData : Data → Layout.Indent
  | .bool b => .blanks (if b then 1 else 0)
  | .int n => .blanks n
  | .float _ => .fraction
  | _ => .unfit

namespace Target

/-- The names of all targets. -/
def names : List String := [CSharp.name]

/-- What can be asked of the C# backend: whether object literals are structs, and how deep lines are
indented. Whatever is asked for is only looked at when it is needed. -/
structure Options where
  /-- An object literal of unknown type is rendered as a struct and not as a dictionary. -/
  preferStruct : Data := .bool true
  /-- What a line inside braces is indented by. -/
  indent : Layout.Indent := .blanks 4
deriving Inhabited

namespace Options

/-- The options with one of them replaced. -/
def set (o : Options) (option : String × Data) : Except Fault Options :=
  match option with
  | ("prefer_object_literal_as_struct", d) => .ok { o with preferStruct := d }
  | ("indent", d) => .ok { o with indent := .ofData d }
  | _ => .error .wrongSort

/-- Options by name. -/
def ofMembers (members : List (String × Data)) : Except Fault Options := members.foldlM set {}

end Options

/-- The backend for the name of a target. The name is looked at before the options. -/
def backend (target : Data) (options : List (String × Data)) :
    Except Fault (Backend CSharp.Flags) :=
  match target with
  | .list _ | .object _ => .error .wrongSort
  | _ =>
    if target = .text CSharp.name then do
      let o ← Options.ofMembers options
      return CSharp.backend o.indent o.preferStruct
    else .error (.unknownTarget target names)

/-- What a rendering is asked for in any case, so that no option has the name. -/
def reserved : List String := ["root", "target", "checker"]

/-- Renders a sample for a target. -/
def render (target : Data) (options : List (String × Data)) (checker : Checker) (root : Value) :
    Except Fault Rendering := do
  if options.any (reserved.contains ·.1) then .error .wrongSort
  else (← backend target options).render checker root

end Target

end CodeSample
