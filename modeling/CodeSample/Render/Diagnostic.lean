import CodeSample.Data.Display
import CodeSample.Fault
import CodeSample.Syntax.Node

/-!
# Diagnostics

A problem found while a node is rendered. It does not stop the rendering. The rules report texts; a
report from outside may be any datum.

* `Diagnostic.shown` is the problem on a line, with the place in front if it is known;
* `Diagnostic.toText` is that line as a text of its own, which without a place has to be a text.
-/

namespace CodeSample

/-- A problem and the node that it was found at. -/
structure Diagnostic where
  node : Node
  message : Data
deriving Inhabited

namespace Diagnostic

/-- The kind of the node. -/
def kind (d : Diagnostic) : Kind := d.node.kind

/-- The place of the node. -/
def pos (d : Diagnostic) : Pos := d.node.pos

/-- The problem on a line, with the place in front if it is known. -/
def shown (d : Diagnostic) : String :=
  if d.pos.isKnown then
    toString d.pos.line ++ ":" ++ toString d.pos.col ++ ": " ++ d.message.said
  else d.message.said

/-- The problem as a text. A datum that is none makes no text without a place in front. -/
def toText (d : Diagnostic) : Except Fault String :=
  if d.pos.isKnown || d.message.isText then .ok d.shown else .error .wrongSort

/-- A problem that is a text is shown with or without a place. -/
theorem toText_of_isText {d : Diagnostic} (h : d.message.isText = true) :
    d.toText = .ok d.shown := by
  rw [toText, h, Bool.or_true]
  rfl

end Diagnostic

end CodeSample
