import CodeSample.Fault
import CodeSample.Ty.Basic

/-!
# Types in the exchanged form

A type is exchanged as an object with a `kind`. Reading takes its members in any order and passes
over those it does not know; the members of a union may stand in anything that can be enumerated.
Writing leaves out an alias that is null and a struct mark that is false.

* `ofData` reads a type;
* `toData` writes one.
-/

namespace CodeSample.Ty

/-! ### Reading -/

/-- The text at a name in an object, or nothing if another datum stands there. -/
def textMember? (members : List (String × Data)) (name : String) : Option String :=
  match Data.get? members name with
  | some (.text s) => some s
  | _ => none

/-- A member that a kind of type has to have. -/
def demand (kind field : String) (members : List (String × Data)) : Except Fault Data :=
  match Data.get? members field with
  | some d => .ok d
  | none => .error (.malformed (.typeField kind field))

/-- A union of at least two members. -/
def unionOf (ts : List Ty) : Except Fault Ty :=
  if ts.length < 2 then .error (.malformed .shortUnion) else .ok (union ts)

/-- Types read from texts: there are none, because a text describes no type. -/
def ofTexts : List String → Except Fault (List Ty)
  | [] => .ok []
  | s :: _ => .error (.malformed (.typeExpected (.text s)))

mutual

/-- Reads a type. -/
def ofData : Data → Except Fault Ty
  | .object ms =>
    match textMember? ms "kind" with
    | some "primitive" => do
      return primitive (← demand "primitive" "name" ms)
    | some "named" => do
      let name ← demand "named" "name" ms
      let aliasName := (Data.get? ms "alias").getD .null
      let struct := ((Data.get? ms "struct").getD (.bool false)).truthy
      return named name aliasName struct
    | some "array" => do return array (← ofElement "array" ms)
    | some "map" => do return map (← ofElement "map" ms)
    | some "union" => do unionOf (← ofUnion ms)
    | _ => .error (.malformed (.typeKind ((Data.get? ms "kind").getD .null)))
  | d => .error (.malformed (.typeExpected d))

/-- Reads the element type among the members of an array or a map. -/
def ofElement (kind : String) : List (String × Data) → Except Fault Ty
  | [] => .error (.malformed (.typeField kind "element"))
  | (k, d) :: ms => if "element" == k then ofData d else ofElement kind ms

/-- Reads the member types among the members of a union. -/
def ofUnion : List (String × Data) → Except Fault (List Ty)
  | [] => .error (.malformed (.typeField "union" "members"))
  | (k, d) :: ms => if "members" == k then ofEnumerable d else ofUnion ms

/-- Reads the types that a datum enumerates. A text enumerates its characters and an object its
names. -/
def ofEnumerable : Data → Except Fault (List Ty)
  | .list ds => ofItems ds
  | .text s => ofTexts (s.toList.map String.singleton)
  | .object ms => ofTexts (ms.map Prod.fst)
  | _ => .error .wrongSort

/-- Reads types one after the other. -/
def ofItems : List Data → Except Fault (List Ty)
  | [] => .ok []
  | d :: ds => do
    let t ← ofData d
    let ts ← ofItems ds
    return t :: ts

end

/-! ### Writing -/

/-- The object of a kind of type. -/
def tagged (kind : String) (members : List (String × Data)) : Data :=
  .object (("kind", .text kind) :: members)

mutual

/-- Writes a type. -/
def toData : Ty → Except Fault Data
  | primitive name => .ok (tagged "primitive" [("name", name)])
  | named name aliasName struct =>
    let shown := if aliasName = .null then [] else [("alias", aliasName)]
    let mark := if struct then [("struct", .bool true)] else []
    .ok (tagged "named" (("name", name) :: (shown ++ mark)))
  | array t => do return tagged "array" [("element", ← toData t)]
  | map t => do return tagged "map" [("element", ← toData t)]
  | union ts => do return tagged "union" [("members", .list (← toItems ts))]
  | unspelled => .error (.malformed .unspelledType)

/-- Writes types one after the other. -/
def toItems : List Ty → Except Fault (List Data)
  | [] => .ok []
  | t :: ts => do
    let d ← toData t
    let ds ← toItems ts
    return d :: ds

end

end CodeSample.Ty
