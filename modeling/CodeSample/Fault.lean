import CodeSample.Data.Display
import CodeSample.Syntax.Kind
import CodeSample.Syntax.Position

/-!
# Faults

Why an operation gives no answer. `Malformed` says how a datum fails to describe a syntax tree or a
type, `Clash` how the parts of a type's spelling fail to make a text, and `Fault` joins them with
the faults of a run. The wording is in the three `message` functions and nowhere else.
-/

namespace CodeSample

/-! ### Parts that make no text -/

/-- How two values, or the items of an enumeration, fail to make a text. -/
inductive Clash where
  /-- A value with a text after it. -/
  | beforeText (left : Data)
  /-- A value after a text. -/
  | afterText (right : Data)
  /-- An item of an enumeration, counted from zero. -/
  | item (index : Nat) (value : Data)
deriving DecidableEq

namespace Clash

/-- The wording of a clash. -/
def message : Clash → String
  | beforeText (.list _) => "can only concatenate list (not \"str\") to list"
  | beforeText d => "unsupported operand type(s) for +: '" ++ d.sortName ++ "' and 'str'"
  | afterText d => "can only concatenate str (not \"" ++ d.sortName ++ "\") to str"
  | item i d =>
    "sequence item " ++ toString i ++ ": expected str instance, " ++ d.sortName ++ " found"

end Clash

/-! ### Data that describe nothing -/

/-- How a datum fails to describe a syntax tree or a type. -/
inductive Malformed where
  | typeExpected (got : Data)
  | typeKind (got : Data)
  | typeField (kind field : String)
  | shortUnion
  | unspelledType
  | nodeExpected (got : Data)
  | nodeKind (got : Data)
  | nodeField (kind : Kind) (key : String)
  | position (got : Data)
  | missing (kind : Kind) (fields : List Field)
  | ascription (clash : Clash)
deriving DecidableEq

namespace Malformed

/-- Names in quotes as an enumeration: two with "and", more with commas and a last "and". -/
def enumerate : List String → String
  | [] => ""
  | [a] => a
  | [a, b] => a ++ " and " ++ b
  | a :: rest => a ++ rest' rest
where
  /-- The names after the first of three or more. -/
  rest' : List String → String
  | [] => ""
  | [z] => ", and " ++ z
  | b :: rest => ", " ++ b ++ rest' rest

/-- The beginning of a message about a kind whose node cannot be made. -/
def invalidNode (kind : Kind) : String := "invalid " ++ kind.name ++ " node: "

/-- The wording of each cause. -/
def message : Malformed → String
  | typeExpected got => "expected a type object, got " ++ got.sortName
  | typeKind got => "unknown type kind: " ++ got.display
  | typeField kind field => kind ++ " type is missing field " ++ Text.quoted field
  | shortUnion => "union needs at least two members"
  | unspelledType => "cannot serialize type TypeRef()"
  | nodeExpected got => "expected a node object, got " ++ got.sortName
  | nodeKind got => "unknown node kind: " ++ got.display
  | nodeField kind key => kind.name ++ " has no field " ++ Text.quoted key
  | position got => "pos must be [line, col], got " ++ got.display
  | missing kind fields =>
    invalidNode kind ++ kind.recordName ++ ".__init__() missing " ++ toString fields.length ++
      " required positional argument" ++ (if fields.length = 1 then "" else "s") ++ ": " ++
      enumerate (fields.map fun f => Text.quoted f.key)
  | ascription clash => invalidNode .typeNode ++ clash.message

end Malformed

/-! ### All faults -/

/-- Why an operation gives no answer. -/
inductive Fault where
  /-- A datum describes no tree or type. -/
  | malformed (cause : Malformed)
  /-- No backend has the name. -/
  | unknownTarget (name : Data) (known : List String)
  /-- A visitor has no rule for the kind of a node. -/
  | unsupported (visitor : String) (kind : Kind) (pos : Pos)
  /-- A value is of the wrong sort for what is done with it. -/
  | wrongSort
  /-- A property is read that a value does not have. -/
  | noProperty
  /-- A text writes no whole number, or one of too many digits; or a number is none. -/
  | notWhole
  /-- An infinity has no whole part, or a whole number is too large for a binary64 one. -/
  | unbounded
  /-- A whole number has too many digits to be written. -/
  | tooLong
  /-- There is nothing at a place in a sequence. -/
  | outOfRange
deriving DecidableEq

namespace Fault

/-- The wording of the faults that have one. -/
def message? : Fault → Option String
  | malformed cause => some cause.message
  | unknownTarget name known =>
    some ("unknown target " ++ name.display ++ " (expected one of: " ++ ", ".intercalate known ++
      ")")
  | unsupported visitor kind pos =>
    some (visitor ++ " visitor has no rule for " ++ kind.name ++ " at line " ++ toString pos.line ++
      " col " ++ toString pos.col)
  | _ => none

end Fault

end CodeSample
