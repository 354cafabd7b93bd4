import CodeSample.Render.Context
import CodeSample.Syntax.Codec

/-!
# The context of the C# rules

The settings that the C# rules hand down to the parts of a node. All but the name are switches: a
switch stays the datum that it was set to, and a rule asks whether that counts as true.
-/

namespace CodeSample.CSharp

/-- The context of the C# rules: a name, and switches that say where a node stands. -/
structure Flags where
  /-- The name that constructors are rendered with; null outside of classes. -/
  className : Value := .null
  /-- Identifiers stand in the place of a member and are capitalised. -/
  memberPosition : Data := .bool false
  /-- The members belong to an interface that only holds data and is rendered as a class. -/
  dataInterface : Data := .bool false
  /-- Assignments to properties are rendered as pairs of a key and a value. -/
  keyValue : Data := .bool false
  /-- A string literal stands where an identifier is needed. -/
  stringAsIdentifier : Data := .bool false
  /-- An identifier stands where a string is needed. -/
  identifierAsString : Data := .bool false
  /-- An object literal of unknown type is rendered as a struct and not as a dictionary. -/
  preferStruct : Data := .bool true
deriving Inhabited

instance : Settings Flags where
  set? c name d :=
    match name with
    | "current_class_name" => some { c with className := .ofData d }
    | "property_or_method" => some { c with memberPosition := d }
    | "in_struct_interface" => some { c with dataInterface := d }
    | "in_key_value_list" => some { c with keyValue := d }
    | "string_as_identifier" => some { c with stringAsIdentifier := d }
    | "identifier_as_string" => some { c with identifierAsString := d }
    | "prefer_object_literal_as_struct" => some { c with preferStruct := d }
    | _ => none
  toMembers c := do
    return [("current_class_name", ← c.className.plain),
      ("property_or_method", c.memberPosition),
      ("in_struct_interface", c.dataInterface),
      ("in_key_value_list", c.keyValue),
      ("string_as_identifier", c.stringAsIdentifier),
      ("identifier_as_string", c.identifierAsString),
      ("prefer_object_literal_as_struct", c.preferStruct)]

end CodeSample.CSharp
