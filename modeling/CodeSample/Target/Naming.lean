import CodeSample.Syntax.Node
import CodeSample.Text.Literal
import CodeSample.Text.Uppercase

/-!
# C# names

How names of the samples are spelled in C#.

* `safeName` puts an `@` in front of a reserved word;
* `builtinName` is the C# name of a builtin type;
* `withOptionalMarker` appends the mark of a nullable type, once.
-/

namespace CodeSample.CSharp

/-! ### Identifiers -/

/-- The reserved words of C#. -/
def reservedWords : List String := [
  "abstract", "as", "base", "bool", "break", "byte", "case", "catch", "char", "checked", "class",
  "const", "continue", "decimal", "default", "delegate", "do", "double", "else", "enum", "event",
  "explicit", "extern", "false", "finally", "fixed", "float", "for", "foreach", "goto", "if",
  "implicit", "in", "int", "interface", "internal", "is", "lock", "long", "namespace", "new",
  "null", "object", "operator", "out", "override", "params", "private", "protected", "public",
  "readonly", "ref", "return", "sbyte", "sealed", "short", "sizeof", "stackalloc", "static",
  "string", "struct", "switch", "this", "throw", "true", "try", "typeof", "uint", "ulong",
  "unchecked", "unsafe", "ushort", "using", "virtual", "void", "volatile", "while"]

/-- A name that may be used as an identifier. -/
def safeName (s : String) : String := if reservedWords.contains s then "@" ++ s else s

/-- The spelling of a name. Only a text can be reserved, and a list cannot be looked up. -/
def nameOf : Value → Except Fault Value
  | .text s => .ok (.text (safeName s))
  | .list _ | .object _ => .error .wrongSort
  | v => .ok v

/-- A name with its first character in upper case. A value that does not count as true has the
empty name. -/
def capitalized (v : Value) : Except Fault String :=
  if v.truthy then
    match v with
    | .text s => .ok (Text.upperFirst s)
    | .list (w :: _) => .error (if w.text?.isSome then .wrongSort else .noProperty)
    | _ => .error .wrongSort
  else .ok ""

/-- A text as a string literal. -/
def literalOf (v : Value) : Except Fault String :=
  match v.text? with
  | some s => .ok (Text.quote s)
  | none => .error .noProperty

/-- A text between the holes of an interpolated string; what does not count as true is left out. -/
def interpolated (v : Value) : Except Fault String :=
  if v.truthy then
    match v.text? with
    | some s => .ok (Text.escapeInterpolated s)
    | none => .error .noProperty
  else .ok ""

/-! ### Types -/

/-- What stands for a type that is not known. -/
def unknownType : String := "???"

/-- What stands for a type that cannot be expressed. -/
def unsupportedType : String := "..."

/-- The builtin types of the samples and their C# names. -/
def builtinTypes : List (String × String) := [
  ("number", "int"), ("string", "string"), ("boolean", "bool"), ("void", "void"),
  ("any", "object"), ("object", "object"), ("undefined", "object"), ("null", "object")]

/-- The C# name of a builtin type. -/
def builtinName (s : String) : String := (builtinTypes.lookup s).getD unknownType

/-- The C# name of a builtin type by a name that may be no text; a list cannot be looked up. -/
def builtinNameOf : Data → Except Fault String
  | .text s => .ok (builtinName s)
  | .list _ | .object _ => .error .wrongSort
  | _ => .ok unknownType

/-- A type name with the mark of a nullable type, unless it has it already. -/
def withOptionalMarker (s : String) : String :=
  if s.toList.getLast? = some '?' then s else s ++ "?"

end CodeSample.CSharp
