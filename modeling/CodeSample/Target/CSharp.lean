import CodeSample.Target.Flags
import CodeSample.Target.Neutral
import CodeSample.Target.TypeText

/-!
# The C# backend

The rules whose output is peculiar to C#. All other kinds are rendered by the neutral rules.

* the sections hold the rules for names and literals, functions, expressions, object literals,
  statements, and types with their members;
* `CSharp.rule?` is the table of rules for an indentation, `CSharp.backend` the backend.
-/

namespace CodeSample.CSharp

open Layout (Fragment Indent)
open Layout.Fragment (row line separated)

/-- What constructors are called outside of classes. -/
def placeholderClass : String := "MyClass"

/-- The struct that an object literal of unknown type makes. -/
def placeholderStruct : String := "Struct"

/-- The loop variable of a loop that declares none. -/
def unknownVariable : String := "???"

/-! ### Contexts of parts -/

/-- The view in the place of a member. -/
def asMember (view : View Flags) : View Flags :=
  view.withContext { view.context with memberPosition := .bool true }

/-- The view outside of the place of a member. -/
def notMember (view : View Flags) : View Flags :=
  view.withContext { view.context with memberPosition := .bool false }

/-- The view among the pairs of a dictionary. -/
def amongPairs (view : View Flags) : View Flags :=
  view.withContext { view.context with keyValue := .bool true }

/-- The view on the key of a pair. -/
def asPairKey (view : View Flags) : View Flags :=
  view.withContext
    { view.context with memberPosition := .bool false, identifierAsString := .bool true }

/-- The view on the value of a pair. -/
def asPairValue (view : View Flags) : View Flags :=
  view.withContext { view.context with keyValue := .bool false }

/-- The view on the name of a property that is assigned to. -/
def asPropertyName (view : View Flags) : View Flags :=
  view.withContext
    { view.context with memberPosition := .bool true, stringAsIdentifier := .bool true }

/-- The view on what initializes a variable. -/
def asInitializer (view : View Flags) : View Flags :=
  view.withContext { view.context with preferStruct := .bool false }

/-- The view on the members of a class. -/
def inClass (view : View Flags) (name : Value) : View Flags :=
  view.withContext { view.context with className := name }

/-- The view on the members of an interface. -/
def inInterface (view : View Flags) (data : Bool) : View Flags :=
  view.withContext { view.context with dataInterface := .bool data }

/-! ### Names and literals -/

/-- Identifiers, and string literals in their place. As a string the text is quoted; in the place of
a member it is capitalised; elsewhere the identifier `undefined` is null. -/
def identifier : Rule Flags := fun view n => do
  let text := n.get .text
  if view.context.identifierAsString.truthy then return row [.text (← literalOf text)]
  else if view.context.memberPosition.truthy then return row [.text (safeName (← capitalized text))]
  else if n.kind = .identifier ∧ text.isText "undefined" then return row [.text "null"]
  else return row [(← nameOf text).toFragment]

/-- Templates without holes, and string literals in their own place. -/
def quotedText : Rule Flags := fun _ n => return row [.text (← literalOf (n.get .text))]

/-- String literals. -/
def stringLiteral : Rule Flags := fun view n =>
  if view.context.stringAsIdentifier.truthy then identifier view n else quotedText view n

/-- One hole of a template and the text after it. The hole holds the source text. -/
def templateSpan (span : Value) : Except Fault String := do
  let hole ← (← span.property .expression).sourceText
  let hole ← hole.between "\x7b" "\x7d"
  return (hole.text?.getD "") ++ (← interpolated (← span.property .literal))

/-- A template as an interpolated string. -/
def templateText (n : Node) : Except Fault String := do
  let head ← interpolated (n.get .head)
  let spans ← (← (n.get .spans).items).mapM templateSpan
  return "$\"" ++ head ++ String.join spans ++ "\""

/-- Templates. -/
def templateExpression : Rule Flags := fun _ n => return row [.text (← templateText n)]

/-! ### Functions -/

/-- The parameters in parentheses and the body after a head. -/
def signature (view : View Flags) (n : Node) (head : List Fragment) : Run Fragment := do
  let parameters ← view.convertAll (n.get .parameters)
  let parameters := separated ", " parameters
  let body := n.get .body
  if body.isNull then return line (head ++ [.text "(", parameters, .text ");"])
  else
    return .tree (head ++ [.text "(", parameters, .text ") "]) [← view.convert body]
      { fresh := true }

/-- Functions and methods. -/
def function : Rule Flags := fun view n => do
  let name ← (asMember view).convert (n.get .name)
  let type ← renderAscription view.checker (n.get .type) false "void"
  signature view n [.text "public ", type.toFragment, .text " ", name]

/-- Constructors, by the name of their class. -/
def constructor : Rule Flags := fun view n =>
  signature view n
    [.text "public ", (view.context.className.orElse (.text placeholderClass)).toFragment]

/-- Whether a caller may leave out the argument for a parameter whose annotation has a type. -/
def isOptional (n : Node) (annotated : Option Ty) : Bool :=
  !(n.get .initializer).isNull || (n.get .questionToken).truthy ||
    annotated.any Ty.admitsAbsent

/-- Whether a caller may leave out the argument for a parameter, by the type that was recorded with
its annotation. -/
def isOptionalAsRecorded (n : Node) : Except Fault Bool := do
  let ascription := n.get .type
  return isOptional n (← if ascription.isNull then pure none else ascription.carriedType?)

/-- The spelling of a parameter's type: that of its annotation, else that of its initializer. -/
def parameterType (checker : Checker) (n : Node) : Run Value := do
  let inferred ← checker.inferred? (n.get .initializer)
  let nullable := (n.get .questionToken).truthy
  if (n.get .type).isNull then
    match inferred with
    | some t => renderType n.toValue t nullable
    | none => return .text "object"
  else renderAscription checker (n.get .type) nullable "void"

/-- The default of a parameter that may be left out: its initializer, or null. -/
def parameterDefault (view : View Flags) (n : Node) (annotated : Option Ty) :
    Run (List Fragment) :=
  if !isOptional n annotated then return []
  else if (n.get .initializer).isNull then return [.text " = ", .text "null"]
  else return [.text " = ", ← view.convert (n.get .initializer)]

/-- Parameters. -/
def parameter : Rule Flags := fun view n => do
  let annotated ← view.checker.ascribed? (n.get .type)
  let type ← parameterType view.checker n
  let default ← parameterDefault view n annotated
  let name ← view.convert (n.get .name)
  return row ([type.toFragment, .text " ", name] ++ default)

/-! ### Expressions -/

/-- How many things a value enumerates. -/
def count (v : Value) : Except Fault Nat := do return (← v.items).length

/-- Calls that print. Several arguments become the holes of one interpolated string. -/
def printCall : Rule Flags := fun view n => do
  let arguments := n.get .arguments
  if (← count arguments) ≤ 1 then
    return row ([.text "Console.WriteLine("] ++ (← view.convertAll arguments) ++ [.text ")"])
  else
    let holes := (← view.convertAll arguments).map fun a =>
      row [.text "\x7b", a, .text "\x7d"]
    return row [.text "Console.WriteLine(", .text "$\"", separated " " holes, .text "\"",
      .text ")"]

/-- All other calls. The callee stands in the place of a member. -/
def regularCall : Rule Flags := fun view n => do
  let callee ← (asMember view).convert (n.get .expression)
  let arguments ← view.convertAll (n.get .arguments)
  return row [callee, .text "(", separated ", " arguments, .text ")"]

/-- Whether a value is or reads `this`. -/
def isThis (v : Value) : Except Fault Bool :=
  if v.isKind .thisKeyword then return true else do return (← v.sourceText).isText "this"

/-- The receiver of a property access and the point; `this` is left out. -/
def receiver (view : View Flags) (v : Value) : Run (List Fragment) := do
  if ← isThis v then return []
  else return [← (notMember view).convert v, .text "."]

/-- Property accesses. -/
def propertyAccess : Rule Flags := fun view n => do
  let receiver ← receiver view (n.get .expression)
  let name ← (asMember view).convert (n.get .name)
  return row (receiver ++ [name])

/-- Casts. -/
def asExpression : Rule Flags := fun view n => do
  let type ← renderAscription view.checker (n.get .type) false "void"
  let expression ← view.convert (n.get .expression)
  return row [.text "(", type.toFragment, .text ")", expression]

/-! ### Object and array literals -/

/-- What a literal makes, and its parts in braces. -/
def initializerList (indent : Indent) (head : List Fragment) (parts : List Fragment) : Fragment :=
  if parts.all Fragment.isEmpty then row (head ++ [.text " \x7b \x7d"])
  else
    .tree (head ++ [.text " \x7b "]) parts
      { indent, separator := some ", ", closing := some " \x7d" }

/-- Array literals. -/
def arrayLiteral (indent : Indent) : Rule Flags := fun view n => do
  return initializerList indent [.text "new []"] (← view.convertAll (n.get .elements))

/-- The name of what a literal makes. -/
def made (v : Value) : Except Fault Value := v.after "new "

/-- Object literals of a struct type. -/
def structLiteral (indent : Indent) (t : Ty) : Rule Flags := fun view n => do
  let head ← made (← typeName t)
  return initializerList indent [head.toFragment] (← view.convertAll (n.get .properties))

/-- The spelling of the type of a node's values, or of any value if it is not known. -/
def valueType (n : Node) : Option Ty → Run Value
  | some t => renderType n.toValue t false
  | none => return .text "object"

/-- Object literals as dictionaries, of values of a type if it is known. -/
def keyedLiteral (indent : Indent) (element : Option Ty) : Rule Flags := fun view n => do
  let value ← valueType n element
  let entries ← (amongPairs view).convertAll (n.get .properties)
  let head ← value.between "new Dictionary<string, " ">"
  return initializerList indent [head.toFragment] entries

/-- Object literals of unknown type: structs or dictionaries, as the context prefers. -/
def untypedLiteral (indent : Indent) : Rule Flags := fun view n =>
  if view.context.preferStruct.truthy then do
    return initializerList indent [.text ("new " ++ placeholderStruct)]
      (← view.convertAll (n.get .properties))
  else keyedLiteral indent none view n

/-- A key and a value: a pair of a dictionary, or an assignment to a property. -/
def assignment (view : View Flags) (key value : Value) : Run Fragment :=
  if view.context.keyValue.truthy then do
    let key ← (asPairKey view).convert key
    let value ← (asPairValue view).convert value
    return line [.text "\x7b ", key, .text ", ", value, .text " \x7d"]
  else do
    let key ← (asPropertyName view).convert key
    let value ← view.convert value
    return line [key, .text " = ", value]

/-- Properties with a value. -/
def propertyAssignment : Rule Flags := fun view n =>
  assignment view (n.get .name) (n.get .initializer)

/-- Properties whose value is the variable of their name. -/
def shorthandAssignment : Rule Flags := fun view n => assignment view (n.get .name) (n.get .name)

/-! ### Statements -/

/-- Blocks in braces. -/
def blockStatement (indent : Indent) : Rule Flags := fun view n => do
  return .tree [.text "\n\x7b"] (← view.convertAll (n.get .statements))
    { indent, closing := some "\n\x7d" }

/-- Expressions as statements. -/
def expressionStatement : Rule Flags := fun view n => do
  return line [← view.convert (n.get .expression), .text ";"]

/-- The indentation of the body of a statement; a block brings its own. -/
def bodyIndent (indent : Indent) (body : Value) : Indent :=
  if body.isNull || body.isKind .block then .blanks 0 else indent

/-- A head and a body on a line of their own. -/
def withBody (indent : Indent) (head : List Fragment) (body : Value) (rendered : Fragment) :
    Fragment :=
  .tree head [rendered] { indent := bodyIndent indent body, fresh := true }

/-- Conditionals. An alternative that is a conditional again stands on the line of its `else`. -/
def ifStatement (indent : Indent) : Rule Flags := fun view n => do
  let condition ← view.convert (n.get .expression)
  let consequence := n.get .thenStatement
  let consequence :=
    withBody indent [.text "if (", condition, .text ") "] consequence (← view.convert consequence)
  let alternative := n.get .elseStatement
  if alternative.isNull then return consequence
  else
    let rendered ← view.convert alternative
    let alternative :=
      if alternative.isKind .ifStatement then line [.text "else ", rendered]
      else withBody indent [.text "else "] alternative rendered
    return .tree [] [consequence, alternative] { separator := some "\n", fresh := true }

/-- The declarations of the head of a loop, if it declares exactly one variable. -/
def soleDeclaration? (v : Value) : Except Fault (Option Value) :=
  if v.isKind .variableDeclarationList then do
    match (← (← v.property .declarations).items) with
    | [declaration] => return some declaration
    | _ => return none
  else return none

/-- The problem with a loop that does not declare exactly one variable. -/
def loopProblem : String :=
  "Unrecognized for-of loop shape, expected a single declared variable"

/-- The variable of a loop. -/
def loopVariable (v : Value) : Run Value := do
  match ← soleDeclaration? v with
  | some declaration => (← declaration.property .name).sourceText
  | none => do
    Run.report v (.text loopProblem)
    return .text unknownVariable

/-- Loops over the elements of something. -/
def forOfStatement (indent : Indent) : Rule Flags := fun view n => do
  let variableName ← loopVariable (n.get .initializer)
  let expression ← view.convert (n.get .expression)
  let body := n.get .statement
  return withBody indent
    [.text "foreach (var ", variableName.toFragment, .text " in ", expression, .text ") "] body
    (← view.convert body)

/-- A text without the question marks at its end. -/
def withoutMarkers (s : String) : String :=
  String.ofList ((s.toList.reverse.dropWhile (· = '?')).reverse)

/-- The spelling of the type of a variable; one that says nothing is left to inference. -/
def variableType (v : Value) : Except Fault Value :=
  match v.text? with
  | some s => .ok (.text (if withoutMarkers s = "object" then "var" else s))
  | none => .error .noProperty

/-- The type of a declared variable or property: that of its annotation, else that of its
initializer. An annotation that the checker cannot resolve is reported. -/
def declaredType (checker : Checker) (n : Node) : Run (Option Ty) := do
  match (← checker.ascribed? (n.get .type)) with
  | some t => return some t
  | none =>
    if (n.get .type).isNull then checker.inferred? (n.get .initializer)
    else do
      let _ ← reportUnresolved (n.get .type)
      checker.inferred? (n.get .initializer)

/-- The spelling of a declared type; `missing` stands where there is none. -/
def declaredTypeText (checker : Checker) (n : Node) (nullable : Bool) (missing : String) :
    Run Value := do
  match (← declaredType checker n) with
  | some t => renderType n.toValue t nullable
  | none => return .text missing

/-- Declarations of variables. -/
def variableDeclaration : Rule Flags := fun view n => do
  let type ← variableType (← declaredTypeText view.checker n false "var")
  let initializer := n.get .initializer
  let name ← view.convert (n.get .name)
  if initializer.isNull then
    -- nothing to infer a type from
    let type := if type.isText "var" then .text "object" else type
    return line [type.toFragment, .text " ", name, .text ";"]
  else
    let value ← (asInitializer view).convert initializer
    return line [type.toFragment, .text " ", name, .text " = ", value, .text ";"]

/-! ### Types and members -/

/-- One of the types in a heritage clause. -/
def heritageType (view : View Flags) (t : Value) : Run Fragment := do
  view.convert (← t.property .expression)

/-- The types in a heritage clause. -/
def heritageClause (view : View Flags) (clause : Value) : Run (List Fragment) := do
  (← (← clause.property .types).items).mapM (heritageType view)

/-- The types that a class or an interface extends or implements. -/
def heritage (view : View Flags) (n : Node) : Run (List Fragment) := do
  let types := (← (← (n.get .heritageClauses).items).mapM (heritageClause view)).flatten
  if types.isEmpty then return [] else return [.text " : ", separated ", " types]

/-- A class or an interface: a word, the name, what it extends, and the members in braces. -/
def declaration (indent : Indent) (word : String) (view inside : View Flags) (n : Node) :
    Run Fragment := do
  let name ← view.convert (n.get .name)
  let extended ← heritage view n
  let members ← inside.convertAll (n.get .members)
  return .tree ([.text word, name] ++ extended ++ [.text "\n\x7b"]) members
    { indent, fresh := true, closing := some "\n\x7d" }

/-- Classes. -/
def classDeclaration (indent : Indent) : Rule Flags := fun view n => do
  let name ← (n.get .name).sourceText
  declaration indent "class " view (inClass view name) n

/-- Interfaces that only hold data, as classes. -/
def dataInterface (indent : Indent) : Rule Flags := fun view n =>
  declaration indent "class " view (inInterface view true) n

/-- All other interfaces. -/
def behaviourInterface (indent : Indent) : Rule Flags := fun view n =>
  declaration indent "interface " view (inInterface view false) n

/-- Properties of interfaces. -/
def propertySignature : Rule Flags := fun view n => do
  let type ← renderAscription view.checker (n.get .type) (n.get .questionToken).truthy "object"
  let name ← (asMember view).convert (n.get .name)
  if view.context.dataInterface.truthy then
    return line [.text "public ", type.toFragment, .text " ", name,
      .text " \x7b get; set; \x7d"]
  else return line [type.toFragment, .text " ", name, .text " \x7b get; \x7d"]

/-- Methods of interfaces. -/
def methodSignature : Rule Flags := fun view n => do
  let type ← renderAscription view.checker (n.get .type) false "void"
  let name ← (asMember view).convert (n.get .name)
  let parameters ← view.convertAll (n.get .parameters)
  return line [type.toFragment, .text " ", name, .text "(", separated ", " parameters, .text ");"]

/-- The initial value of a property. -/
def initialValue (view : View Flags) (initializer : Value) : Run (List Fragment) :=
  if initializer.isNull then return []
  else return [.text " = ", ← view.convert initializer, .text ";"]

/-- Properties of classes. -/
def propertyDeclaration : Rule Flags := fun view n => do
  let nullable := (n.get .questionToken).truthy
  let type ← declaredTypeText view.checker n nullable "object"
  let name ← (asMember view).convert (n.get .name)
  let value ← initialValue view (n.get .initializer)
  return line ([.text "public ", type.toFragment, .text " ", name,
    .text " \x7b get; set; \x7d"] ++ value)

/-! ### The backend -/

/-- What reports call the backend. -/
def name : String := "csharp"

/-- The rules of the C# backend, for an indentation. -/
def rule? (indent : Indent) : Kind → Option (Rule Flags)
  | .identifier => some identifier
  | .stringLiteral => some stringLiteral
  | .noSubstitutionTemplateLiteral => some quotedText
  | .templateExpression => some templateExpression
  | .functionDeclaration | .methodDeclaration => some function
  | .constructor => some constructor
  | .parameter => some parameter
  | .callExpression => some (Dispatch.call printCall regularCall)
  | .propertyAccessExpression => some propertyAccess
  | .asExpression => some asExpression
  | .arrayLiteralExpression => some (arrayLiteral indent)
  | .objectLiteralExpression =>
    some (Dispatch.objectLiteral (structLiteral indent) (keyedLiteral indent)
      (untypedLiteral indent))
  | .propertyAssignment => some propertyAssignment
  | .shorthandPropertyAssignment => some shorthandAssignment
  | .block => some (blockStatement indent)
  | .expressionStatement => some expressionStatement
  | .ifStatement => some (ifStatement indent)
  | .forOfStatement => some (forOfStatement indent)
  | .variableDeclaration => some variableDeclaration
  | .classDeclaration => some (classDeclaration indent)
  | .interfaceDeclaration =>
    some (Dispatch.interface (dataInterface indent) (behaviourInterface indent))
  | .propertySignature => some propertySignature
  | .methodSignature => some methodSignature
  | .propertyDeclaration => some propertyDeclaration
  | kind => Neutral.rule? name kind

/-- The C# backend, for an indentation and what object literals of unknown type become. -/
def backend (indent : Indent) (preferStruct : Data) : Backend Flags :=
  ⟨name, { preferStruct }, rule? indent⟩

end CodeSample.CSharp
