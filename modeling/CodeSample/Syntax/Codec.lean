import CodeSample.Number.Whole
import CodeSample.Syntax.Node
import CodeSample.Ty.Codec
import CodeSample.Ty.Describe

/-!
# Syntax trees in the exchanged form

A node is exchanged as an object with a `kind`, and optionally a place, a recorded source and a
type; its other members are fields of its kind, in any order. What stands in a field is not looked
at, but for objects: each is a node again. A node made without a recorded source may get one from
its text or its type.

* `Part` is one member of a node's object, and `Value.partsOf` reads all of them;
* `Node.ofParts` makes a node of its parts, and `Value.ofExchange` reads a field's content;
* `Node.ofData` reads a node and `Value.toData` writes one.
-/

namespace CodeSample

/-! ### Places -/

namespace Pos

/-- The whole number that a datum gives for a line or a column: fractions are cut off, truth values
count as zero and one, and a text has to write a whole number. -/
def coordinate : Data → Except Fault Int
  | .bool b => .ok (if b then 1 else 0)
  | .int n => .ok n
  | .float x => match x.toInt? with
    | some n => .ok n
    | none => .error (if x = .nan then .notWhole else .unbounded)
  | .text s => match Number.readWhole? s with
    | some n => .ok n
    | none => .error .notWhole
  | _ => .error .wrongSort

/-- Reads a place: a list of a line and a column. -/
def ofData : Data → Except Fault Pos
  | .list [line, col] => do
    let line ← coordinate line
    let col ← coordinate col
    return ⟨line, col⟩
  | d => .error (.malformed (.position d))

/-- Writes a place. -/
def toData (p : Pos) : Data := .list [.int p.line, .int p.col]

end Pos

/-! ### Making a node of its parts -/

/-- A member of a node's object, besides its kind. -/
inductive Part where
  | pos (p : Pos)
  | source (v : Value)
  | type (t? : Option Ty)
  | field (f : Field) (v : Value)

/-- What a member of a node's object is for. -/
inductive Role where
  | kind
  | pos
  | source
  | type
  | field (f : Field)
deriving DecidableEq

namespace Kind

/-- What a key is for in the object of a node of a kind, if it may stand there. -/
def role? (k : Kind) (key : String) : Option Role :=
  match key with
  | "kind" => some .kind
  | "pos" => some .pos
  | "source" => some .source
  | "typ" => if k.typed then some .type else none
  | _ => (k.slot? key).map fun slot => .field slot.field

end Kind

namespace Part

/-- The place among parts. -/
def pos? (parts : List Part) : Option Pos :=
  parts.findSome? fun | pos p => some p | _ => none

/-- The recorded source among parts. -/
def source? (parts : List Part) : Option Value :=
  parts.findSome? fun | source v => some v | _ => none

/-- The type among parts. -/
def type? (parts : List Part) : Option Ty :=
  (parts.findSome? fun | type t? => some t? | _ => none).join

/-- The content of a field among parts. -/
def field? (parts : List Part) (f : Field) : Option Value :=
  parts.findSome? fun | field g v => if g = f then some v else none | _ => none

end Part

namespace Default

/-- What stands in a field that is left out. -/
def value : Default → Value
  | null => .null
  | empty => .list []
  | no => .bool false
  | text s => .text s

end Default

namespace Slot

/-- The content of a slot's field: the part for it, or what stands there when it is left out. -/
def fill? (parts : List Part) (slot : Slot) : Option Value :=
  (Part.field? parts slot.field).or (slot.default?.map Default.value)

end Slot

/-- A text in double quotes, with backslashes and double quotes escaped: how a string literal is
taken to have been written. -/
def quotedSource (s : String) : String :=
  "\"" ++ String.ofList (s.toList.flatMap fun c =>
    if c = '\\' ∨ c = '"' then ['\\', c] else [c]) ++ "\""

namespace Node

/-- The source of a node whose parser recorded none: the text of an identifier or a number, the
quoted text of a string, the spelling of an annotation's type. -/
def defaultSource (n : Node) : Except Fault Value :=
  match n.kind with
  | .identifier | .numericLiteral => .ok (n.get .text)
  | .stringLiteral =>
    match n.get .text with
    | .text s => .ok (.text (quotedSource s))
    | _ => .error .noProperty
  | .typeNode =>
    match n.type? with
    | none => .ok n.source
    | some t =>
      match t.describe with
      | .ok d => .ok (.ofData d)
      | .error clash => .error (.malformed (.ascription clash))
  | _ => .ok n.source

/-- A node with a source in place of one that is empty. -/
def withSource (n : Node) : Except Fault Node :=
  if n.source.truthy then .ok n
  else do return { n with source := ← n.defaultSource }

/-- The fields of a kind that have to be there and are not among parts. -/
def missing (kind : Kind) (parts : List Part) : List Field :=
  (kind.slots.filter fun slot => (slot.fill? parts).isNone).map Slot.field

/-- Makes a node of its parts. -/
def ofParts (kind : Kind) (parts : List Part) : Except Fault Node :=
  match missing kind parts with
  | [] =>
    withSource {
      kind
      pos := (Part.pos? parts).getD .unknown
      source := (Part.source? parts).getD (.text "")
      type? := Part.type? parts
      fields := kind.slots.map fun slot => (slot.fill? parts).getD .null }
  | fields => .error (.malformed (.missing kind fields))

end Node

/-! ### Reading -/

namespace Kind

/-- The kind that an object's members name. -/
def ofMembers (members : List (String × Data)) : Except Fault Kind :=
  match Data.get? members "kind" with
  | some (.text s) =>
    match ofName? s with
    | some k => .ok k
    | none => .error (.malformed (.nodeKind (.text s)))
  | d? => .error (.malformed (.nodeKind (d?.getD .null)))

end Kind

/-- Reads a type that may be null. -/
def Ty.ofData? : Data → Except Fault (Option Ty)
  | .null => .ok none
  | d => do return some (← Ty.ofData d)

namespace Value

mutual

/-- Reads the content of a field: an object is a node, and all else stays as it is. -/
def ofExchange : Data → Except Fault Value
  | .object ms => do
    let kind ← Kind.ofMembers ms
    return (← Node.ofParts kind (← partsOf kind ms)).toValue
  | .list ds => do return list (← itemsOf ds)
  | .null => .ok null
  | .bool b => .ok (bool b)
  | .int n => .ok (int n)
  | .float x => .ok (float x)
  | .text s => .ok (text s)

/-- Reads the items of a list in a field. -/
def itemsOf : List Data → Except Fault (List Value)
  | [] => .ok []
  | d :: ds => do
    let v ← ofExchange d
    let vs ← itemsOf ds
    return v :: vs

/-- Reads the members of a node's object, in their order. -/
def partsOf (kind : Kind) : List (String × Data) → Except Fault (List Part)
  | [] => .ok []
  | (key, d) :: ms =>
    match kind.role? key with
    | none => .error (.malformed (.nodeField kind key))
    | some .kind => partsOf kind ms
    | some .pos => do
      let p ← Pos.ofData d
      return .pos p :: (← partsOf kind ms)
    | some .type => do
      let t? ← Ty.ofData? d
      return .type t? :: (← partsOf kind ms)
    | some .source => do
      let v ← ofExchange d
      return .source v :: (← partsOf kind ms)
    | some (.field f) => do
      let v ← ofExchange d
      return .field f v :: (← partsOf kind ms)

end

end Value

/-- Reads a node. -/
def Node.ofData (d : Data) : Except Fault Value :=
  match d with
  | .object _ => Value.ofExchange d
  | _ => .error (.malformed (.nodeExpected d))

/-! ### Writing -/

namespace Value

mutual

/-- A value without nodes as a datum; a recorded source is written only so. -/
def plain : Value → Except Fault Data
  | null => .ok .null
  | bool b => .ok (.bool b)
  | int n => .ok (.int n)
  | float x => .ok (.float x)
  | text s => .ok (.text s)
  | object ms => .ok (.object ms)
  | list vs => do return .list (← plainItems vs)
  | node .. => .error .wrongSort

/-- Values without nodes as data. -/
def plainItems : List Value → Except Fault (List Data)
  | [] => .ok []
  | v :: vs => do
    let d ← plain v
    let ds ← plainItems vs
    return d :: ds

end

/-- A value as part of an answer. A node is none, nor is a whole number of too many digits. -/
def shown : Value → Except Fault Data
  | int n => if Number.isWritable n then .ok (.int n) else .error .tooLong
  | v => v.plain

/-- The members that say where a node stands, how it was written and what type it has. An unknown
place, an empty source and no type are left out. -/
def headMembers (pos : Pos) (source : Value) (type? : Option Ty) :
    Except Fault (List (String × Data)) := do
  let place := if pos.isKnown then [("pos", pos.toData)] else []
  let written ← if source.truthy then do pure [("source", ← source.plain)] else pure []
  let typed ← match type? with
    | some t => do pure [("typ", ← t.toData)]
    | none => pure []
  return place ++ written ++ typed

mutual

/-- Writes the content of a field. -/
def toData : Value → Except Fault Data
  | null => .ok .null
  | bool b => .ok (.bool b)
  | int n => .ok (.int n)
  | float x => .ok (.float x)
  | text s => .ok (.text s)
  | object ms => .ok (.object ms)
  | list vs => do return .list (← toItems vs)
  | node kind pos source type? fields => do
    let head ← headMembers pos source type?
    let contents ← toItems fields
    let members := (kind.slots.map (·.field.key)).zip contents
    return .object (("kind", .text kind.name) :: head ++ members)

/-- Writes values one after the other. -/
def toItems : List Value → Except Fault (List Data)
  | [] => .ok []
  | v :: vs => do
    let d ← toData v
    let ds ← toItems vs
    return d :: ds

end

end Value

end CodeSample
