import CodeSample.Proofs.TypeNames
import CodeSample.Syntax.Walk
import Mathlib.Data.List.Forall2

/-!
# The grammar of the samples' language

What the fields of each kind of node hold in a tree that a parser of the samples' language makes.
A field holds a text, a mark, one node, perhaps a node, or a list of nodes, and for nodes there is a
list of admitted kinds.

* `Grammar.declared` is the table of what the fields are declared to hold: lists of statements and
  of members, and the heads of loops, may hold nodes of any kind. `Grammar.source` narrows those
  entries down to what stands there in a program.
* `Node.isShaped` checks one node against a table, `Value.all` checks every node of a tree, and
  `Value.IsShaped` joins the two.
* `holds_get`: a shaped node has in each of its fields what the table says, and `all_get`: what
  stands in a field of a tree that passes a check passes it;
* `isShaped_declared`: what is shaped as in a program is shaped as it is declared to be;
* `fields_eq_map_get`: a shaped node holds its fields in the order of its kind.
-/

namespace CodeSample

/-! ### The table -/

namespace Kind

/-- A kind keeps each field where its table has it. -/
theorem index?_slot (k : Kind) (i : Fin k.slots.length) : k.index? k.slots[i].field = some i := by
  cases k <;> decide +revert

/-- The kinds of expressions. -/
def expressions : List Kind := [
  .identifier, .stringLiteral, .numericLiteral, .trueKeyword, .falseKeyword, .nullKeyword,
  .thisKeyword, .templateExpression, .noSubstitutionTemplateLiteral, .propertyAccessExpression,
  .elementAccessExpression, .callExpression, .newExpression, .objectLiteralExpression,
  .arrayLiteralExpression, .asExpression, .parenthesizedExpression, .binaryExpression,
  .prefixUnaryExpression, .conditionalExpression]

/-- The kinds of statements. -/
def statements : List Kind := [
  .block, .expressionStatement, .variableStatement, .ifStatement, .forOfStatement,
  .returnStatement, .functionDeclaration, .classDeclaration, .interfaceDeclaration]

/-- The kinds of what gives a property of an object literal its value. -/
def assignments : List Kind := [.propertyAssignment, .shorthandPropertyAssignment]

/-- The kinds of members of a class. -/
def classMembers : List Kind := [.propertyDeclaration, .methodDeclaration, .constructor]

/-- The kinds of members of an interface. -/
def interfaceMembers : List Kind := [.propertySignature, .methodSignature]

/-- The kinds that only other constructs read, and that are not rendered by themselves. -/
def inner : List Kind := [.typeNode, .heritageClause, .templateSpan]

end Kind

/-- What may stand in a field. -/
inductive Content where
  /-- A text. -/
  | text
  /-- A truth value. -/
  | mark
  /-- A node of one of some kinds. -/
  | one (kinds : List Kind)
  /-- Null, or a node of one of some kinds. -/
  | maybe (kinds : List Kind)
  /-- A list of nodes of some kinds. -/
  | many (kinds : List Kind)
deriving DecidableEq, Repr

namespace Value

/-- Whether a value is a node of one of some kinds. -/
def isOneOf (kinds : List Kind) (v : Value) : Bool := v.kind?.any kinds.contains

end Value

/-- Whether a value is what may stand in a field. The parts of nodes are not looked at. -/
def Content.holds : Content → Value → Bool
  | .text, .text _ => true
  | .mark, .bool _ => true
  | .one kinds, v => v.isOneOf kinds
  | .maybe kinds, v => v.isNull || v.isOneOf kinds
  | .many kinds, .list vs => vs.all (·.isOneOf kinds)
  | _, _ => false

/-- What the fields of each kind hold, in the order of the fields. -/
abbrev Grammar := Kind → List Content

namespace Grammar

open Kind

/-- What the fields of each kind are declared to hold. -/
def declared : Grammar
  | .sourceFile => [.many Kind.all, .text]
  | .block => [.many Kind.all]
  | .expressionStatement => [.one expressions]
  | .variableStatement => [.one [.variableDeclarationList]]
  | .variableDeclarationList => [.many [.variableDeclaration], .text]
  | .variableDeclaration => [.one [.identifier], .maybe [.typeNode], .maybe expressions]
  | .ifStatement => [.one expressions, .one statements, .maybe statements]
  | .forOfStatement => [.one Kind.all, .one expressions, .one statements]
  | .returnStatement => [.maybe expressions]
  | .functionDeclaration | .methodDeclaration =>
    [.one [.identifier], .many [.parameter], .maybe [.typeNode], .maybe [.block]]
  | .constructor => [.many [.parameter], .maybe [.block]]
  | .parameter => [.one [.identifier], .maybe [.typeNode], .maybe expressions, .mark]
  | .classDeclaration | .interfaceDeclaration =>
    [.one [.identifier], .many [.heritageClause], .many Kind.all]
  | .propertySignature => [.one [.identifier], .maybe [.typeNode], .mark]
  | .methodSignature => [.one [.identifier], .many [.parameter], .maybe [.typeNode]]
  | .propertyDeclaration => [.one [.identifier], .maybe [.typeNode], .maybe expressions, .mark]
  | .heritageClause => [.text, .many [.expressionWithTypeArguments]]
  | .expressionWithTypeArguments => [.one expressions]
  | .identifier | .stringLiteral | .numericLiteral | .noSubstitutionTemplateLiteral => [.text]
  | .typeNode | .trueKeyword | .falseKeyword | .nullKeyword | .thisKeyword => []
  | .templateExpression => [.text, .many [.templateSpan]]
  | .templateSpan => [.one expressions, .text]
  | .propertyAccessExpression => [.one expressions, .one [.identifier]]
  | .elementAccessExpression => [.one expressions, .one expressions]
  | .callExpression | .newExpression => [.one expressions, .many expressions]
  | .objectLiteralExpression => [.many assignments]
  | .propertyAssignment => [.one [.identifier, .stringLiteral], .one expressions]
  | .shorthandPropertyAssignment => [.one [.identifier]]
  | .arrayLiteralExpression => [.many expressions]
  | .asExpression => [.one expressions, .one [.typeNode]]
  | .parenthesizedExpression => [.one expressions]
  | .binaryExpression => [.one expressions, .text, .one expressions]
  | .prefixUnaryExpression => [.text, .one expressions]
  | .conditionalExpression => [.one expressions, .one expressions, .one expressions]

/-- What the fields of each kind hold in a program: lists of statements hold statements, classes and
interfaces hold their members, and a loop declares variables or names an expression. -/
def source : Grammar
  | .sourceFile => [.many statements, .text]
  | .block => [.many statements]
  | .forOfStatement =>
    [.one (.variableDeclarationList :: expressions), .one expressions, .one statements]
  | .classDeclaration => [.one [.identifier], .many [.heritageClause], .many classMembers]
  | .interfaceDeclaration => [.one [.identifier], .many [.heritageClause], .many interfaceMembers]
  | kind => declared kind

/-- The table of programs has an entry for each field of a kind. -/
theorem length_source (kind : Kind) : (source kind).length = kind.slots.length := by
  cases kind <;> rfl

/-- The table of the classes has an entry for each field of a kind. -/
theorem length_declared (kind : Kind) : (declared kind).length = kind.slots.length := by
  cases kind <;> rfl

/-- What a field of a kind holds. -/
def content? (g : Grammar) (kind : Kind) (f : Field) : Option Content :=
  (kind.index? f).bind ((g kind)[·]?)

end Grammar

/-! ### Shaped nodes and trees -/

/-- Whether a node is one of the language: its source is a text, it carries a type only if its kind
does and one whose names are texts, and its fields hold what the table says. -/
def Node.isShaped (g : Grammar) (n : Node) : Bool :=
  n.source.text?.isSome && n.type?.all (fun t => n.kind.typed && t.names.all Data.isText) &&
    (g n.kind).length == n.fields.length &&
    ((g n.kind).zip n.fields).all fun (content, v) => content.holds v

namespace Value

mutual

/-- Whether all nodes of a tree pass a check. -/
def all (p : Node → Bool) : Value → Bool
  | node kind pos source type? fields =>
    p ⟨kind, pos, source, type?, fields⟩ && allOf p fields
  | list vs => allOf p vs
  | _ => true

/-- Whether all nodes of several trees pass a check. -/
def allOf (p : Node → Bool) : List Value → Bool
  | [] => true
  | v :: vs => all p v && allOf p vs

end

/-- A tree of the language: a node all whose nodes are shaped as a table says. -/
def IsShaped (g : Grammar) (v : Value) : Prop := v.kind?.isSome ∧ v.all (·.isShaped g)

instance (g : Grammar) (v : Value) : Decidable (v.IsShaped g) :=
  inferInstanceAs (Decidable (v.kind?.isSome = true ∧ v.all (·.isShaped g) = true))

/-! ### The parts of a tree that passes a check -/

variable {p : Node → Bool}

/-- Several trees pass a check if each of them does. -/
theorem allOf_iff (vs : List Value) : allOf p vs = true ↔ ∀ v ∈ vs, v.all p = true := by
  induction vs with
  | nil => simp [allOf]
  | cons v vs ih => simp [allOf, ih]

mutual

/-- A check that all nodes pass is passed by every tree. -/
theorem all_of_forall (h : ∀ n, p n = true) (v : Value) : v.all p = true := by
  match v with
  | node kind pos source type? fields =>
    rw [all, h, Bool.true_and]
    exact allOf_of_forall h fields
  | list vs =>
    rw [all]
    exact allOf_of_forall h vs
  | null | bool _ | int _ | float _ | text _ | object _ => rw [all] <;> simp

/-- A check that all nodes pass is passed by any number of trees. -/
theorem allOf_of_forall (h : ∀ n, p n = true) (vs : List Value) : allOf p vs = true := by
  match vs with
  | [] => rw [allOf]
  | v :: vs => rw [allOf, all_of_forall h v, allOf_of_forall h vs, Bool.and_self]

end

mutual

/-- A tree that passes a check passes a weaker one. -/
theorem all_mono {q : Node → Bool} (hpq : ∀ n, p n = true → q n = true) {v : Value}
    (h : v.all p = true) : v.all q = true := by
  match v with
  | node kind pos source type? fields =>
    rw [all, Bool.and_eq_true] at h ⊢
    exact ⟨hpq _ h.1, allOf_mono hpq h.2⟩
  | list vs =>
    rw [all] at h ⊢
    exact allOf_mono hpq h
  | null | bool _ | int _ | float _ | text _ | object _ => rw [all] <;> simp

/-- Trees that pass a check pass a weaker one. -/
theorem allOf_mono {q : Node → Bool} (hpq : ∀ n, p n = true → q n = true) {vs : List Value}
    (h : allOf p vs = true) : allOf q vs = true := by
  match vs with
  | [] => rw [allOf]
  | v :: vs =>
    rw [allOf, Bool.and_eq_true] at h ⊢
    exact ⟨all_mono hpq h.1, allOf_mono hpq h.2⟩

end

/-- A tree passes a check if its root does and all that its fields hold. -/
theorem all_toValue (n : Node) :
    n.toValue.all p = true ↔ p n = true ∧ ∀ v ∈ n.fields, v.all p = true := by
  simp only [Node.toValue, all, Bool.and_eq_true, allOf_iff]

/-- What is listed in a tree that passes a check passes it. -/
theorem all_of_mem {v : Value} {vs : List Value} (h : (list vs).all p = true) (hv : v ∈ vs) :
    v.all p = true := by
  rw [all, allOf_iff] at h
  exact h v hv

/-- What stands in a field of a tree that passes a check passes it. -/
theorem all_get {n : Node} (h : n.toValue.all p = true) (f : Field) :
    (n.get f).all p = true := by
  rw [Node.get]
  cases hv : (n.kind.index? f).bind (n.fields[·]?) with
  | none => rfl
  | some v =>
    obtain ⟨i, _, hi⟩ := Option.bind_eq_some_iff.1 hv
    exact ((all_toValue n).1 h).2 v (List.mem_of_getElem? hi)

/-- What is a node of one of some kinds is a node, and its kind is one of them. -/
theorem exists_of_isOneOf {kinds : List Kind} {v : Value} (h : v.isOneOf kinds = true) :
    ∃ n : Node, v = n.toValue ∧ n.kind ∈ kinds := by
  unfold isOneOf kind? at h
  cases hn : v.node? with
  | none => simp [hn] at h
  | some n =>
    refine ⟨n, (toValue_of_node? hn).symm, ?_⟩
    simpa [hn] using h

end Value

/-- A content that may stand wherever another one may. -/
def Content.Within (c c' : Content) : Prop := ∀ v, c.holds v = true → c'.holds v = true

/-- A node of one of some kinds is a node of some kind. -/
theorem Value.isOneOf_all {kinds : List Kind} {v : Value} (h : v.isOneOf kinds = true) :
    v.isOneOf Kind.all = true := by
  obtain ⟨n, rfl, -⟩ := Value.exists_of_isOneOf h
  simpa [Value.isOneOf, Value.kind?] using n.kind.mem_all

/-- A node of some kinds may stand where a node of any kind may. -/
theorem Content.one_within_all (kinds : List Kind) : (one kinds).Within (one Kind.all) :=
  fun _ h => Value.isOneOf_all h

/-- A list of nodes of some kinds may stand where a list of nodes of any kind may. -/
theorem Content.many_within_all (kinds : List Kind) : (many kinds).Within (many Kind.all) := by
  intro v h
  cases v with
  | list vs =>
    rw [holds, List.all_eq_true] at h ⊢
    exact fun w hw => Value.isOneOf_all (h w hw)
  | _ => cases h

/-- The table for programs narrows the declared one down. -/
theorem Grammar.widens_declared (kind : Kind) :
    List.Forall₂ Content.Within (source kind) (declared kind) := by
  have same (cs : List Content) : List.Forall₂ Content.Within cs cs :=
    List.forall₂_same.2 fun _ _ _ h => h
  cases kind
  case sourceFile | block => exact .cons (Content.many_within_all _) (same _)
  case forOfStatement => exact .cons (Content.one_within_all _) (same _)
  case classDeclaration | interfaceDeclaration =>
    exact .cons (fun _ h => h) (.cons (fun _ h => h) (.cons (Content.many_within_all _) .nil))
  all_goals exact same _

/-! ### The fields of a shaped node -/

namespace Node

variable {g : Grammar} {n : Node}

/-- A node with as many fields as its kind has them in the order of the kind. -/
theorem fields_eq_map_get (h : n.fields.length = n.kind.slots.length) :
    n.fields = n.kind.slots.map fun slot => n.get slot.field := by
  refine List.ext_getElem (by simpa using h) fun i hi hi' => ?_
  have hslot : i < n.kind.slots.length := h ▸ hi
  have hindex : n.kind.index? n.kind.slots[i].field = some i := n.kind.index?_slot ⟨i, hslot⟩
  rw [List.getElem_map, get, hindex, Option.bind_some, List.getElem?_eq_getElem hi,
    Option.getD_some]

/-- A node is shaped if its source is a text, its type is one that it may carry, and its fields hold
what the table says, entry by entry. -/
theorem isShaped_iff : n.isShaped g = true ↔
    (∃ s, n.source = .text s) ∧ (∀ t ∈ n.type?, n.kind.typed = true ∧ t.Spelled) ∧
      (g n.kind).length = n.fields.length ∧
      ∀ x ∈ (g n.kind).zip n.fields, x.1.holds x.2 = true := by
  have hsource : n.source.text?.isSome = true ↔ ∃ s, n.source = .text s := by
    cases n.source <;> simp [Value.text?]
  have htype : n.type?.all (fun t => n.kind.typed && t.names.all Data.isText) = true ↔
      ∀ t ∈ n.type?, n.kind.typed = true ∧ t.Spelled := by
    cases n.type? <;> simp [Ty.spelled_iff]
  simp only [isShaped, Bool.and_eq_true, hsource, htype, beq_iff_eq, List.all_eq_true, and_assoc]

/-- A shaped node has as many fields as its kind. -/
theorem length_of_isShaped (h : n.isShaped g = true)
    (hg : ∀ kind, (g kind).length = kind.slots.length) : n.fields.length = n.kind.slots.length := by
  rw [← hg, (isShaped_iff.1 h).2.2.1]

/-- The source of a shaped node is a text. -/
theorem source_of_isShaped (h : n.isShaped g = true) : ∃ s, n.source = .text s :=
  (isShaped_iff.1 h).1

/-- The names in the type of a shaped node are texts. -/
theorem spelled_of_isShaped (h : n.isShaped g = true) : ∀ t ∈ n.type?, t.Spelled :=
  fun t ht => ((isShaped_iff.1 h).2.1 t ht).2

/-- A shaped node has in each of its fields what the table says. -/
theorem holds_get (h : n.isShaped g = true) {f : Field} {content : Content}
    (hf : g.content? n.kind f = some content) : content.holds (n.get f) = true := by
  obtain ⟨i, hi, hc⟩ := Option.bind_eq_some_iff.1 hf
  obtain ⟨-, -, hlength, hall⟩ := isShaped_iff.1 h
  have hlt : i < n.fields.length := by
    rw [← hlength]
    exact (List.getElem?_eq_some_iff.1 hc).1
  have hget : n.get f = n.fields[i] := by
    rw [get, hi, Option.bind_some, List.getElem?_eq_getElem hlt, Option.getD_some]
  rw [hget]
  refine hall (content, n.fields[i]) ?_
  refine List.mem_of_getElem? (i := i) ?_
  rw [List.getElem?_zip_eq_some]
  exact ⟨hc, List.getElem?_eq_getElem hlt⟩

/-- A shaped node has nothing in a field of which the table says nothing. -/
theorem get_of_content?_eq_none (h : n.isShaped g = true) {f : Field}
    (hf : g.content? n.kind f = none) : n.get f = .null := by
  obtain ⟨-, -, hlength, -⟩ := isShaped_iff.1 h
  unfold Grammar.content? at hf
  unfold get
  cases hi : n.kind.index? f with
  | none => rfl
  | some i =>
    rw [hi, Option.bind_some, List.getElem?_eq_none_iff, hlength] at hf
    rw [Option.bind_some, List.getElem?_eq_none hf, Option.getD_none]

/-- A node has the properties of its kind. -/
theorem property_toValue {f : Field} (hf : (n.kind.index? f).isSome = true) :
    n.toValue.property f = .ok (n.get f) := by
  rw [Value.property, Value.node?_toValue]
  exact if_pos hf

/-- A shaped node has a text where the table says so. -/
theorem text_of_isShaped (h : n.isShaped g = true) {f : Field}
    (hf : g.content? n.kind f = some .text) : ∃ s, n.get f = .text s := by
  have := holds_get h hf
  cases hv : n.get f <;> simp_all [Content.holds]

/-- A shaped node has a node of the right kind where the table says so. -/
theorem one_of_isShaped (h : n.isShaped g = true) {f : Field} {kinds : List Kind}
    (hf : g.content? n.kind f = some (.one kinds)) :
    ∃ m : Node, n.get f = m.toValue ∧ m.kind ∈ kinds :=
  Value.exists_of_isOneOf (holds_get h hf)

/-- A shaped node has null or a node of the right kind where the table says so. -/
theorem maybe_of_isShaped (h : n.isShaped g = true) {f : Field} {kinds : List Kind}
    (hf : g.content? n.kind f = some (.maybe kinds)) :
    n.get f = .null ∨ ∃ m : Node, n.get f = m.toValue ∧ m.kind ∈ kinds := by
  have := holds_get h hf
  rw [Content.holds, Bool.or_eq_true] at this
  rcases this with hnull | hone
  · left
    cases hv : n.get f <;> simp_all [Value.isNull]
  · exact Or.inr (Value.exists_of_isOneOf hone)

/-- A shaped node has a list of nodes of the right kinds where the table says so. -/
theorem many_of_isShaped (h : n.isShaped g = true) {f : Field} {kinds : List Kind}
    (hf : g.content? n.kind f = some (.many kinds)) :
    ∃ vs : List Value, n.get f = .list vs ∧
      ∀ v ∈ vs, ∃ m : Node, v = m.toValue ∧ m.kind ∈ kinds := by
  have := holds_get h hf
  cases hv : n.get f with
  | list vs =>
    rw [hv, Content.holds, List.all_eq_true] at this
    exact ⟨vs, rfl, fun v hmem => Value.exists_of_isOneOf (this v hmem)⟩
  | _ => simp [hv, Content.holds] at this

/-- What stands in a field of a program is what the field is declared to hold. -/
theorem isShaped_declared (h : n.isShaped .source = true) : n.isShaped .declared = true := by
  have hcontents := Grammar.widens_declared n.kind
  rw [isShaped_iff] at h ⊢
  obtain ⟨hsource, htype, hlength, hholds⟩ := h
  refine ⟨hsource, htype, hcontents.length_eq.symm.trans hlength, ?_⟩
  clear hlength
  generalize Grammar.source n.kind = cs, Grammar.declared n.kind = cs' at hcontents hholds ⊢
  generalize n.fields = vs at hholds ⊢
  induction hcontents generalizing vs with
  | nil => exact fun _ hx => by cases hx
  | cons hc _ ih =>
    cases vs with
    | nil => exact fun _ hx => by cases hx
    | cons v vs =>
      rw [List.zip_cons_cons, List.forall_mem_cons] at hholds ⊢
      exact ⟨hc v hholds.1, ih vs hholds.2⟩

/-! ### The parts of a tree that passes a check -/

variable {p : Node → Bool} (hp : ∀ m, p m = true → m.isShaped g = true)
include hp

/-- The root of a tree that passes a check stronger than the table is shaped. -/
theorem isShaped_of_all (h : n.toValue.all p = true) : n.isShaped g = true :=
  hp n ((Value.all_toValue n).1 h).1

/-- Where the table says so, a tree that passes such a check has a subtree that does. -/
theorem one_of_all (h : n.toValue.all p = true) {f : Field} {kinds : List Kind}
    (hf : g.content? n.kind f = some (.one kinds)) :
    ∃ m : Node, n.get f = m.toValue ∧ m.toValue.all p = true ∧ m.kind ∈ kinds := by
  obtain ⟨m, hm, hk⟩ := one_of_isShaped (isShaped_of_all hp h) hf
  exact ⟨m, hm, hm ▸ Value.all_get h f, hk⟩

/-- Where the table says so, a tree that passes such a check has null or a subtree that does. -/
theorem maybe_of_all (h : n.toValue.all p = true) {f : Field} {kinds : List Kind}
    (hf : g.content? n.kind f = some (.maybe kinds)) :
    n.get f = .null ∨
      ∃ m : Node, n.get f = m.toValue ∧ m.toValue.all p = true ∧ m.kind ∈ kinds := by
  rcases maybe_of_isShaped (isShaped_of_all hp h) hf with hnull | ⟨m, hm, hk⟩
  · exact Or.inl hnull
  · exact Or.inr ⟨m, hm, hm ▸ Value.all_get h f, hk⟩

/-- Where the table says so, a tree that passes such a check lists subtrees that do. -/
theorem many_of_all (h : n.toValue.all p = true) {f : Field} {kinds : List Kind}
    (hf : g.content? n.kind f = some (.many kinds)) :
    ∃ vs : List Value, n.get f = .list vs ∧
      ∀ v ∈ vs, ∃ m : Node, v = m.toValue ∧ m.toValue.all p = true ∧ m.kind ∈ kinds := by
  obtain ⟨vs, hvs, hall⟩ := many_of_isShaped (isShaped_of_all hp h) hf
  refine ⟨vs, hvs, fun v hv => ?_⟩
  obtain ⟨m, rfl, hk⟩ := hall v hv
  exact ⟨m, rfl, Value.all_of_mem (hvs ▸ Value.all_get h f) hv, hk⟩

end Node

end CodeSample
