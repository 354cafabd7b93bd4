/-!
# Kinds of syntax nodes

The closed vocabulary of the syntax trees that a parser hands over: the kinds of nodes, and for
each kind its fields in order, with the ones that may be left out and what stands there then.

* `Kind.name` and `Field.key` are the spellings in the exchanged form, read back by `Kind.ofName?`
  and `Field.ofKey?`;
* `Kind.ofName?_name`: every kind is read back from its name;
* `Kind.slots` is the table of fields, and `Kind.index?` is where a kind keeps a field.
-/

namespace CodeSample

/-- The kind of a syntax node. -/
inductive Kind where
  | sourceFile | block | expressionStatement | variableStatement | variableDeclarationList |
  variableDeclaration | ifStatement | forOfStatement | returnStatement | functionDeclaration |
  methodDeclaration | constructor | parameter | classDeclaration | interfaceDeclaration |
  propertySignature | methodSignature | propertyDeclaration | heritageClause |
  expressionWithTypeArguments | typeNode | identifier | stringLiteral | numericLiteral |
  trueKeyword | falseKeyword | nullKeyword | thisKeyword | templateExpression | templateSpan |
  noSubstitutionTemplateLiteral | propertyAccessExpression | elementAccessExpression |
  callExpression | newExpression | objectLiteralExpression | propertyAssignment |
  shorthandPropertyAssignment | arrayLiteralExpression | asExpression | parenthesizedExpression |
  binaryExpression | prefixUnaryExpression | conditionalExpression
deriving DecidableEq, Repr, Inhabited

/-- A field of a syntax node, besides the position, the recorded source and the type. -/
inductive Field where
  | statements | fileName | expression | declarationList | declarations | flags | name | type |
  initializer | thenStatement | elseStatement | statement | parameters | body | questionToken |
  heritageClauses | members | token | types | text | head | spans | literal | argument | arguments
  | properties | elements | left | operator | right | operand | condition | whenTrue | whenFalse
deriving DecidableEq, Repr, Inhabited

/-! ### Fields -/

namespace Field

/-- All fields. -/
def all : List Field := [
    .statements, .fileName, .expression, .declarationList, .declarations, .flags, .name, .type,
    .initializer, .thenStatement, .elseStatement, .statement, .parameters, .body, .questionToken,
    .heritageClauses, .members, .token, .types, .text, .head, .spans, .literal, .argument,
    .arguments, .properties, .elements, .left, .operator, .right, .operand, .condition, .whenTrue,
    .whenFalse]

/-- The key of a field in the exchanged form. -/
def key : Field → String
  | .statements => "statements"
  | .fileName => "file_name"
  | .expression => "expression"
  | .declarationList => "declaration_list"
  | .declarations => "declarations"
  | .flags => "flags"
  | .name => "name"
  | .type => "type"
  | .initializer => "initializer"
  | .thenStatement => "then_statement"
  | .elseStatement => "else_statement"
  | .statement => "statement"
  | .parameters => "parameters"
  | .body => "body"
  | .questionToken => "question_token"
  | .heritageClauses => "heritage_clauses"
  | .members => "members"
  | .token => "token"
  | .types => "types"
  | .text => "text"
  | .head => "head"
  | .spans => "spans"
  | .literal => "literal"
  | .argument => "argument"
  | .arguments => "arguments"
  | .properties => "properties"
  | .elements => "elements"
  | .left => "left"
  | .operator => "operator"
  | .right => "right"
  | .operand => "operand"
  | .condition => "condition"
  | .whenTrue => "when_true"
  | .whenFalse => "when_false"

/-- The field with a key. -/
def ofKey? (s : String) : Option Field := all.find? (·.key == s)

/-- A field is found by its key. -/
theorem ofKey?_key (f : Field) : ofKey? f.key = some f := by
  cases f <;> decide +kernel

end Field

/-- What a field holds when it is left out. -/
inductive Default where
  | null
  | empty
  | no
  | text (s : String)
deriving DecidableEq, Repr

/-- A field of a kind, and what it holds when it is left out; nothing if it has to be there. -/
structure Slot where
  field : Field
  default? : Option Default
deriving DecidableEq, Repr

namespace Slot

/-- A field that has to be there. -/
abbrev required (f : Field) : Slot := ⟨f, none⟩

/-- A field that is null when it is left out. -/
abbrev absent (f : Field) : Slot := ⟨f, some .null⟩

/-- A field that is an empty list when it is left out. -/
abbrev empty (f : Field) : Slot := ⟨f, some .empty⟩

/-- A field that is false when it is left out. -/
abbrev flag (f : Field) : Slot := ⟨f, some .no⟩

/-- A field that is a text when it is left out. -/
abbrev text (f : Field) (s : String) : Slot := ⟨f, some (.text s)⟩

end Slot

/-! ### Kinds -/

namespace Kind

/-- All kinds. -/
def all : List Kind := [
    .sourceFile, .block, .expressionStatement, .variableStatement, .variableDeclarationList,
    .variableDeclaration, .ifStatement, .forOfStatement, .returnStatement, .functionDeclaration,
    .methodDeclaration, .constructor, .parameter, .classDeclaration, .interfaceDeclaration,
    .propertySignature, .methodSignature, .propertyDeclaration, .heritageClause,
    .expressionWithTypeArguments, .typeNode, .identifier, .stringLiteral, .numericLiteral,
    .trueKeyword, .falseKeyword, .nullKeyword, .thisKeyword, .templateExpression, .templateSpan,
    .noSubstitutionTemplateLiteral, .propertyAccessExpression, .elementAccessExpression,
    .callExpression, .newExpression, .objectLiteralExpression, .propertyAssignment,
    .shorthandPropertyAssignment, .arrayLiteralExpression, .asExpression,
    .parenthesizedExpression, .binaryExpression, .prefixUnaryExpression, .conditionalExpression]

/-- The name of a kind in the exchanged form and in messages. -/
def name : Kind → String
  | .sourceFile => "SourceFile"
  | .block => "Block"
  | .expressionStatement => "ExpressionStatement"
  | .variableStatement => "VariableStatement"
  | .variableDeclarationList => "VariableDeclarationList"
  | .variableDeclaration => "VariableDeclaration"
  | .ifStatement => "IfStatement"
  | .forOfStatement => "ForOfStatement"
  | .returnStatement => "ReturnStatement"
  | .functionDeclaration => "FunctionDeclaration"
  | .methodDeclaration => "MethodDeclaration"
  | .constructor => "Constructor"
  | .parameter => "Parameter"
  | .classDeclaration => "ClassDeclaration"
  | .interfaceDeclaration => "InterfaceDeclaration"
  | .propertySignature => "PropertySignature"
  | .methodSignature => "MethodSignature"
  | .propertyDeclaration => "PropertyDeclaration"
  | .heritageClause => "HeritageClause"
  | .expressionWithTypeArguments => "ExpressionWithTypeArguments"
  | .typeNode => "TypeNode"
  | .identifier => "Identifier"
  | .stringLiteral => "StringLiteral"
  | .numericLiteral => "NumericLiteral"
  | .trueKeyword => "TrueKeyword"
  | .falseKeyword => "FalseKeyword"
  | .nullKeyword => "NullKeyword"
  | .thisKeyword => "ThisKeyword"
  | .templateExpression => "TemplateExpression"
  | .templateSpan => "TemplateSpan"
  | .noSubstitutionTemplateLiteral => "NoSubstitutionTemplateLiteral"
  | .propertyAccessExpression => "PropertyAccessExpression"
  | .elementAccessExpression => "ElementAccessExpression"
  | .callExpression => "CallExpression"
  | .newExpression => "NewExpression"
  | .objectLiteralExpression => "ObjectLiteralExpression"
  | .propertyAssignment => "PropertyAssignment"
  | .shorthandPropertyAssignment => "ShorthandPropertyAssignment"
  | .arrayLiteralExpression => "ArrayLiteralExpression"
  | .asExpression => "AsExpression"
  | .parenthesizedExpression => "ParenthesizedExpression"
  | .binaryExpression => "BinaryExpression"
  | .prefixUnaryExpression => "PrefixUnaryExpression"
  | .conditionalExpression => "ConditionalExpression"

/-- The kind with a name. -/
def ofName? (s : String) : Option Kind := all.find? (·.name == s)

/-- A kind is found by its name. -/
theorem ofName?_name (k : Kind) : ofName? k.name = some k := by
  cases k <;> decide +kernel

/-- All kinds are listed. -/
theorem mem_all (k : Kind) : k ∈ all := by
  cases k <;> decide

/-- The name under which a kind's fields are demanded; it differs from the kind's name once. -/
def recordName : Kind → String
  | .constructor => "ConstructorDeclaration"
  | k => k.name

/-- Whether nodes of a kind may carry a type: expressions and annotations do. -/
def typed : Kind → Bool
  | .typeNode | .identifier | .stringLiteral | .numericLiteral | .trueKeyword | .falseKeyword |
    .nullKeyword | .thisKeyword | .templateExpression | .noSubstitutionTemplateLiteral |
    .propertyAccessExpression | .elementAccessExpression | .callExpression | .newExpression |
    .objectLiteralExpression | .arrayLiteralExpression | .asExpression | .parenthesizedExpression
    | .binaryExpression | .prefixUnaryExpression | .conditionalExpression => true
  | _ => false

/-- The fields of a kind in the order of their declaration. -/
def slots : Kind → List Slot
  | .sourceFile => [.empty .statements, .text .fileName ""]
  | .block => [.empty .statements]
  | .expressionStatement => [.required .expression]
  | .variableStatement => [.required .declarationList]
  | .variableDeclarationList => [.required .declarations, .text .flags "const"]
  | .variableDeclaration => [.required .name, .absent .type, .absent .initializer]
  | .ifStatement => [.required .expression, .required .thenStatement, .absent .elseStatement]
  | .forOfStatement => [.required .initializer, .required .expression, .required .statement]
  | .returnStatement => [.absent .expression]
  | .functionDeclaration => [.required .name, .empty .parameters, .absent .type, .absent .body]
  | .methodDeclaration => [.required .name, .empty .parameters, .absent .type, .absent .body]
  | .constructor => [.empty .parameters, .absent .body]
  | .parameter => [.required .name, .absent .type, .absent .initializer, .flag .questionToken]
  | .classDeclaration => [.required .name, .empty .heritageClauses, .empty .members]
  | .interfaceDeclaration => [.required .name, .empty .heritageClauses, .empty .members]
  | .propertySignature => [.required .name, .absent .type, .flag .questionToken]
  | .methodSignature => [.required .name, .empty .parameters, .absent .type]
  | .propertyDeclaration => [.required .name, .absent .type, .absent .initializer,
    .flag .questionToken]
  | .heritageClause => [.required .token, .empty .types]
  | .expressionWithTypeArguments => [.required .expression]
  | .typeNode => []
  | .identifier => [.required .text]
  | .stringLiteral => [.required .text]
  | .numericLiteral => [.required .text]
  | .trueKeyword => []
  | .falseKeyword => []
  | .nullKeyword => []
  | .thisKeyword => []
  | .templateExpression => [.required .head, .required .spans]
  | .templateSpan => [.required .expression, .required .literal]
  | .noSubstitutionTemplateLiteral => [.required .text]
  | .propertyAccessExpression => [.required .expression, .required .name]
  | .elementAccessExpression => [.required .expression, .required .argument]
  | .callExpression => [.required .expression, .empty .arguments]
  | .newExpression => [.required .expression, .empty .arguments]
  | .objectLiteralExpression => [.empty .properties]
  | .propertyAssignment => [.required .name, .required .initializer]
  | .shorthandPropertyAssignment => [.required .name]
  | .arrayLiteralExpression => [.empty .elements]
  | .asExpression => [.required .expression, .required .type]
  | .parenthesizedExpression => [.required .expression]
  | .binaryExpression => [.required .left, .required .operator, .required .right]
  | .prefixUnaryExpression => [.required .operator, .required .operand]
  | .conditionalExpression => [.required .condition, .required .whenTrue, .required .whenFalse]

/-- The slot of a kind whose field has a key. -/
def slot? (k : Kind) (s : String) : Option Slot := k.slots.find? (·.field.key == s)

/-- Where a kind keeps a field. -/
def index? (k : Kind) (f : Field) : Option Nat := k.slots.findIdx? (·.field == f)

end Kind

end CodeSample
