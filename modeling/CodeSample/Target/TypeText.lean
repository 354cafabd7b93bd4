import CodeSample.Render.Checker
import CodeSample.Render.Run
import CodeSample.Target.Naming
import CodeSample.Ty.Depth
import CodeSample.Ty.Describe

/-!
# C# types

How a type is spelled where it is used. A union is spelled as its one member that is not absent,
with the mark of a nullable type; a union without exactly one such member is reported, and a
placeholder stands for it.

* `typeName` is the spelling of a type that is neither array nor map nor union;
* `renderType` is the spelling of any type, `renderAscription` that of an annotation in the source.
-/

namespace CodeSample.CSharp

/-- The spelling of a type by its name: a placeholder for a type that has none. -/
def typeName : Ty → Except Fault Value
  | .named name aliasName _ => .ok (.ofData (Ty.shownName name aliasName))
  | .primitive name => do return .text (← builtinNameOf name)
  | _ => .ok (.text unknownType)

/-- A spelling with the mark of a nullable type, unless it has it already. -/
def marked (v : Value) : Except Fault Value :=
  match v.text? with
  | some s => .ok (.text (withOptionalMarker s))
  | none => .error .noProperty

/-- A spelling with the mark of a nullable type if it is asked for. -/
def markedIf (nullable : Bool) (v : Value) : Except Fault Value :=
  if nullable then marked v else .ok v

/-- The problem with a union that has no single member. -/
def unionProblem (t : Ty) : Except Fault String :=
  match t.describe with
  | .ok (.text s) => .ok ("Type unions in examples are not supported: " ++ s)
  | _ => .error .wrongSort

/-- The spelling of a dictionary from strings to values of a type. -/
def dictionaryOf (element : Value) : Except Fault Value := do
  (← element.after "IDictionary<string, ").before ">"

/-- The spelling of a type; `nullable` asks for the mark of a nullable type even if the type does
not. Problems are reported on a node. -/
def renderType (n : Value) (t : Ty) (nullable : Bool) : Run Value :=
  match h : t.concrete? with
  | none => do
    Run.report n (.text (← unionProblem t))
    return .text unsupportedType
  | some (.map e) =>
    have := Ty.depth_lt_of_concrete?_map h
    do markedIf (t.admitsAbsent || nullable) (← dictionaryOf (← renderType n e false))
  | some (.array e) =>
    have := Ty.depth_lt_of_concrete?_array h
    do markedIf (t.admitsAbsent || nullable) (← (← renderType n e false).before "[]")
  | some u => do markedIf (t.admitsAbsent || nullable) (← typeName u)
termination_by t.depth

/-- The problem with an annotation that the checker cannot resolve. -/
def unresolvedProblem (written : Value) : Except Fault String :=
  match (written.orElse (.text "<unknown>")).text? with
  | some s => .ok ("Unable to resolve type annotation: " ++ s)
  | none => .error .wrongSort

/-- An annotation that the checker cannot resolve: it is reported, and a placeholder stands for
it. -/
def reportUnresolved (ascription : Value) : Run Value := do
  Run.report ascription (.text (← unresolvedProblem (← ascription.sourceText)))
  return .text unknownType

/-- The spelling of an annotation; `missing` stands where there is none. -/
def renderAscription (checker : Checker) (ascription : Value) (nullable : Bool)
    (missing : String) : Run Value :=
  if ascription.isNull then return .text missing
  else do
    match (← checker.typeOfAscription ascription) with
    | some t => renderType ascription t nullable
    | none => reportUnresolved ascription

end CodeSample.CSharp
