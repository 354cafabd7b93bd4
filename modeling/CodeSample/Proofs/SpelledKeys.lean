import CodeSample.Proofs.Noninterference

/-!
# Keys of object literals spelled out

The key of a property may be an identifier or a string literal, and a property whose value is the
variable of its name may leave the value out. A tree with all of this spelled out has a string
literal as every key and a value for every property.

* `Value.Respelled` relates two trees that differ in how the properties of object literals are
  spelled; where a value stands with regard to object literals is its `Seat`;
* `Value.spelledOut` is the tree with all properties spelled out, and `Respelled.spelledOut_eq`:
  trees that differ in nothing else are the same when they are spelled out;
* `Node.get_spelledOut`, `items_spelledOut`, `sourceText_spelledOut` and the lemmas near them are
  what rules read of a tree that is spelled out;
* `Checker.IgnoresSpelling` are the checkers that answer the same for it, those that answer from the
  nodes or from tables among them.
-/

namespace CodeSample

/-! ### Where values stand -/

/-- Where a value stands with regard to object literals. -/
inductive Seat where
  /-- Among the properties of an object literal. -/
  | property
  /-- The key of a property. -/
  | key
  /-- The value of a property. -/
  | value
  /-- Anywhere else. -/
  | other
deriving DecidableEq, Repr

/-- Where what stands in the fields of a node of a kind has its seat. -/
def Kind.seat : Kind → Seat
  | .objectLiteralExpression => .property
  | _ => .other

/-- The kinds of nodes that have other spellings in a seat. -/
def Seat.kinds : Seat → List Kind
  | property => Kind.assignments
  | key => [.identifier, .stringLiteral]
  | value => [.identifier]
  | other => []

/-- The kind that stands for those in a seat. -/
def Seat.spelling : Seat → Kind
  | property => .propertyAssignment
  | key => .stringLiteral
  | value | other => .identifier

namespace Value

/-! ### Trees that differ in spelling -/

mutual

/-- Two trees differ in nothing but how the properties of object literals are spelled. Of a key only
the text counts, of a property its key and its value, and a property without a value has the
variable of its name as value. All other nodes are recorded in the same way. -/
inductive Respelled : Seat → Value → Value → Prop where
  | same (seat : Seat) (v : Value) : Respelled seat v v
  | node {seat : Seat} {kind : Kind} {pos : Pos} {source : Value} {type? : Option Ty}
      {fields' fields : List Value} (hkind : kind ∉ seat.kinds)
      (h : RespelledAll kind.seat fields' fields) :
      Respelled seat (.node kind pos source type? fields') (.node kind pos source type? fields)
  | list {seat : Seat} {vs' vs : List Value} (h : RespelledAll seat vs' vs) :
      Respelled seat (.list vs') (.list vs)
  | key {kind' kind : Kind} {pos' pos : Pos} {source' source : Value} {type?' type? : Option Ty}
      {fields : List Value} (hkind' : kind' ∈ Seat.key.kinds) (hkind : kind ∈ Seat.key.kinds) :
      Respelled .key (.node kind' pos' source' type?' fields) (.node kind pos source type? fields)
  | variable {pos' pos : Pos} {source' source : Value} {type?' type? : Option Ty}
      {fields : List Value} :
      Respelled .value (.node .identifier pos' source' type?' fields)
        (.node .identifier pos source type? fields)
  | property {pos' pos : Pos} {source' source : Value} {type?' type? : Option Ty}
      {key' key value' value : Value} (hkey : Respelled .key key' key)
      (hvalue : Respelled .value value' value) :
      Respelled .property (.node .propertyAssignment pos' source' type?' [key', value'])
        (.node .propertyAssignment pos source type? [key, value])
  | expanded {pos' pos : Pos} {source' source : Value} {type?' type? : Option Ty}
      {key value name : Value} (hkey : Respelled .key key name)
      (hvalue : Respelled .value value name) :
      Respelled .property (.node .propertyAssignment pos' source' type?' [key, value])
        (.node .shorthandPropertyAssignment pos source type? [name])
  | contracted {pos' pos : Pos} {source' source : Value} {type?' type? : Option Ty}
      {key value name : Value} (hkey : Respelled .key name key)
      (hvalue : Respelled .value name value) :
      Respelled .property (.node .shorthandPropertyAssignment pos' source' type?' [name])
        (.node .propertyAssignment pos source type? [key, value])

/-- The trees of two lists differ in nothing but how properties are spelled. -/
inductive RespelledAll : Seat → List Value → List Value → Prop where
  | nil {seat : Seat} : RespelledAll seat [] []
  | cons {seat : Seat} {v' v : Value} {vs' vs : List Value} (h : Respelled seat v' v)
      (hs : RespelledAll seat vs' vs) : RespelledAll seat (v' :: vs') (v :: vs)

end

/-! ### Trees that are spelled out -/

mutual

/-- A tree with the properties of all object literals spelled out, in its seat. -/
def spelledOut : Seat → Value → Value
  | seat, node kind pos source type? fields =>
    if kind ∈ seat.kinds then
      bare seat.spelling (if seat = .property then spelledOutPair fields else fields)
    else node kind pos source type? (spelledOutAll kind.seat fields)
  | seat, list vs => list (spelledOutAll seat vs)
  | _, v => v

/-- The key and the value of a property, spelled out. -/
def spelledOutPair : List Value → List Value
  | [] => []
  | [name] => [spelledOut .key name, spelledOut .value name]
  | key :: value :: _ => [spelledOut .key key, spelledOut .value value]

/-- Several trees that are spelled out. -/
def spelledOutAll : Seat → List Value → List Value
  | _, [] => []
  | seat, v :: vs => spelledOut seat v :: spelledOutAll seat vs

end

/-- All of some values are spelled out one by one. -/
theorem spelledOutAll_eq_map (seat : Seat) (vs : List Value) :
    spelledOutAll seat vs = vs.map (spelledOut seat) := by
  induction vs with
  | nil => rfl
  | cons v vs ih => rw [spelledOutAll, ih, List.map_cons]

/-- A list is spelled out item by item. -/
theorem spelledOut_list (seat : Seat) (vs : List Value) :
    (list vs).spelledOut seat = list (vs.map (spelledOut seat)) := by
  rw [spelledOut, spelledOutAll_eq_map]

end Value

/-- A node whose parts are spelled out. -/
def Node.spelledOut (n : Node) : Node :=
  { n with fields := n.fields.map (Value.spelledOut n.kind.seat) }

/-- Spelling the parts of a node out keeps its kind. -/
@[simp] theorem Node.kind_spelledOut (n : Node) : n.spelledOut.kind = n.kind := rfl

namespace Value

variable {seat : Seat} {n : Node}

/-- A node that has no other spelling in its seat only has its parts spelled out. -/
theorem spelledOut_toValue (hk : n.kind ∉ seat.kinds) :
    n.toValue.spelledOut seat = n.spelledOut.toValue := by
  rw [Node.toValue, spelledOut, if_neg hk, spelledOutAll_eq_map]
  rfl

/-- A node whose parts are spelled out is the value of the node spelled out, outside of object
literals. -/
theorem toValue_spelledOut (n : Node) : n.spelledOut.toValue = n.toValue.spelledOut .other :=
  (spelledOut_toValue (by simp [Seat.kinds])).symm

/-- A node that has other spellings in its seat is spelled as the kind that stands for them. -/
theorem spelledOut_of_mem (hk : n.kind ∈ seat.kinds) :
    n.toValue.spelledOut seat = Node.toValue ⟨seat.spelling, .unknown, .text "", none,
      if seat = .property then spelledOutPair n.fields else n.fields⟩ :=
  if_pos hk

/-- A node stays a node, and nothing else becomes one. -/
theorem spelledOut_node (seat : Seat) (n : Node) :
    ∃ m : Node, n.toValue.spelledOut seat = m.toValue := by
  by_cases hk : n.kind ∈ seat.kinds
  · exact ⟨_, spelledOut_of_mem hk⟩
  · exact ⟨_, spelledOut_toValue hk⟩

/-- What is no node is none when it is spelled out. -/
theorem node?_spelledOut_eq_none (seat : Seat) {v : Value} (h : v.node? = none) :
    (v.spelledOut seat).node? = none := by
  cases v with
  | node _ _ _ _ _ => cases h
  | _ => rfl

mutual

/-- Trees that differ in how properties are spelled are the same when these are spelled out. -/
theorem Respelled.spelledOut_eq : ∀ {seat : Seat} {v' v : Value}, Respelled seat v' v →
    v'.spelledOut seat = v.spelledOut seat
  | _, _, _, .same _ _ => rfl
  | _, _, _, .node hkind h => by
    rw [spelledOut, spelledOut, if_neg hkind, if_neg hkind, h.spelledOutAll_eq]
  | _, _, _, .list h => by rw [spelledOut, spelledOut, h.spelledOutAll_eq]
  | _, _, _, .key hkind' hkind => by rw [spelledOut, spelledOut, if_pos hkind', if_pos hkind]
  | _, _, _, .variable => rfl
  | _, _, _, .property hkey hvalue => by
    show bare _ [_, _] = bare _ [_, _]
    rw [hkey.spelledOut_eq, hvalue.spelledOut_eq]
  | _, _, _, .expanded hkey hvalue => by
    show bare _ [_, _] = bare _ [_, _]
    rw [hkey.spelledOut_eq, hvalue.spelledOut_eq]
  | _, _, _, .contracted hkey hvalue => by
    show bare _ [_, _] = bare _ [_, _]
    rw [hkey.spelledOut_eq, hvalue.spelledOut_eq]

/-- Lists of trees that differ in spelling only are the same when they are spelled out. -/
theorem RespelledAll.spelledOutAll_eq : ∀ {seat : Seat} {vs' vs : List Value},
    RespelledAll seat vs' vs → spelledOutAll seat vs' = spelledOutAll seat vs
  | _, _, _, .nil => rfl
  | _, _, _, .cons h hs => by
    rw [spelledOutAll, spelledOutAll, h.spelledOut_eq, hs.spelledOutAll_eq]

end

/-! ### What is read of a tree -/

/-- The node that a value is when it is spelled out is its node with the parts spelled out. -/
theorem node?_spelledOut (v : Value) :
    (v.spelledOut .other).node? = v.node?.map Node.spelledOut := by
  cases v with
  | node kind pos source type? fields =>
    rw [spelledOut, if_neg (by simp [Seat.kinds]), spelledOutAll_eq_map]
    rfl
  | _ => rfl

/-- Spelling a value out keeps its kind, outside of object literals. -/
theorem kind?_spelledOut (v : Value) : (v.spelledOut .other).kind? = v.kind? := by
  rw [kind?, kind?, node?_spelledOut, Option.map_map]
  rfl

/-- Spelling a value out keeps whether it is a node of a kind, outside of object literals. -/
theorem isKind_spelledOut (v : Value) (k : Kind) :
    (v.spelledOut .other).isKind k = v.isKind k := by
  rw [isKind, isKind, kind?_spelledOut]

/-- Spelling a value out keeps the type that is recorded with it, outside of object literals. -/
theorem type?_spelledOut (v : Value) : (v.spelledOut .other).type? = v.type? := by
  rw [type?, type?, node?_spelledOut, Option.bind_map]
  rfl

/-- Spelling a value out keeps whether it is null, in all seats. -/
theorem isNull_spelledOut (seat : Seat) (v : Value) : (v.spelledOut seat).isNull = v.isNull := by
  cases v with
  | node kind pos source type? fields =>
    obtain ⟨m, hm⟩ : ∃ m : Node, (node kind pos source type? fields).spelledOut seat = m.toValue :=
      spelledOut_node seat ⟨kind, pos, source, type?, fields⟩
    rw [hm]
    rfl
  | _ => rfl

/-- What a value enumerates when it is spelled out is what it enumerates, spelled out. -/
theorem items_spelledOut (seat : Seat) (v : Value) :
    (v.spelledOut seat).items = v.items.map (List.map (spelledOut seat)) := by
  cases v with
  | node kind pos source type? fields =>
    obtain ⟨m, hm⟩ : ∃ m : Node, (node kind pos source type? fields).spelledOut seat = m.toValue :=
      spelledOut_node seat ⟨kind, pos, source, type?, fields⟩
    rw [hm]
    rfl
  | list vs =>
    rw [spelledOut_list]
    rfl
  | text s =>
    show Except.ok _ = Except.ok _
    rw [List.map_map]
    rfl
  | object ms =>
    show Except.ok _ = Except.ok _
    rw [List.map_map]
    rfl
  | _ => rfl

end Value

/-- The seat of what stands in a field. -/
def Field.seat : Field → Seat
  | .properties => .property
  | _ => .other

namespace Node

variable {n : Node} {f : Field}

/-- Only object literals have properties, and they have nothing else. -/
theorem seat_of_index? {i : Nat} (h : n.kind.index? f = some i) : n.kind.seat = f.seat := by
  revert h
  cases n.kind <;> cases f <;> decide +revert

/-- The content of a field of a node that is spelled out is its content, spelled out in the seat of
the field. -/
theorem get_spelledOut (n : Node) (f : Field) :
    n.spelledOut.get f = (n.get f).spelledOut f.seat := by
  rw [get, get, kind_spelledOut]
  cases hi : n.kind.index? f with
  | none => rfl
  | some i =>
    rw [Option.bind_some, Option.bind_some, spelledOut, List.getElem?_map, seat_of_index? hi]
    cases n.fields[i]? <;> rfl

end Node

/-- A property of a value that is spelled out is its property, spelled out. -/
theorem Value.property_spelledOut (v : Value) {f : Field} (hf : f.seat = .other) :
    (v.spelledOut .other).property f = (v.property f).map (spelledOut .other) := by
  rw [property, property, node?_spelledOut]
  cases v.node? with
  | none => rfl
  | some n =>
    show (if (n.kind.index? f).isSome then Except.ok (n.spelledOut.get f) else _) = _
    rw [Node.get_spelledOut, hf]
    dsimp only
    split <;> rfl

/-! ### Fields without anything to spell out -/

/-- Whether nothing can be spelled out in a field: there stands a text, a mark or an annotation. -/
def Field.isFixed : Field → Bool
  | .text | .operator | .head | .literal | .questionToken | .type => true
  | _ => false

/-- Whether nothing can be spelled out in a content. -/
def Content.isFixed : Content → Bool
  | .text | .mark => true
  | .one kinds | .maybe kinds => kinds == [.typeNode]
  | .many _ => false

/-- The grammar of the classes admits only fixed contents in a fixed field. -/
theorem Grammar.isFixed_declared (kind : Kind) {f : Field} (hf : f.isFixed = true) :
    ∀ content ∈ declared.content? kind f, content.isFixed = true := by
  cases f
  case text | operator | head | literal | questionToken | type => cases kind <;> decide
  all_goals cases hf

/-- Annotations have no parts. -/
theorem Node.spelledOut_annotation {n : Node} (hn : n.isShaped .declared = true)
    (hk : n.kind = .typeNode) : n.toValue.spelledOut .other = n.toValue := by
  obtain ⟨-, -, hlength, -⟩ := Node.isShaped_iff.1 hn
  rw [hk] at hlength
  have hfields : n.fields = [] := List.length_eq_zero_iff.1 hlength.symm
  rw [Value.spelledOut_toValue (by simp [Seat.kinds]), spelledOut, hfields, List.map_nil, toValue,
    toValue, hfields]

/-- A value that a fixed content admits stays as it is. -/
theorem Value.spelledOut_of_isFixed {content : Content} {v : Value}
    (hfixed : content.isFixed = true) (hv : v.isDeclared = true) (h : content.holds v = true) :
    v.spelledOut .other = v := by
  have annotation {kinds : List Kind} (hkinds : kinds = [.typeNode])
      (hone : v.isOneOf kinds = true) : v.spelledOut .other = v := by
    obtain ⟨m, rfl, hk⟩ := Value.exists_of_isOneOf hone
    rw [hkinds, List.mem_singleton] at hk
    exact Node.spelledOut_annotation ((Value.all_toValue m).1 hv).1 hk
  cases content with
  | text => cases v <;> first | rfl | cases h
  | mark => cases v <;> first | rfl | cases h
  | one kinds => exact annotation (eq_of_beq hfixed) h
  | maybe kinds =>
    rw [Content.holds, Bool.or_eq_true] at h
    rcases h with hnull | hone
    · cases v <;> first | rfl | cases hnull
    · exact annotation (eq_of_beq hfixed) hone
  | many kinds => cases hfixed

namespace Node

variable {n : Node} {f : Field}

/-- What stands in a fixed field stays as it is. -/
theorem spelledOut_get_of_isFixed (hn : n.toValue.isDeclared = true) (hf : f.isFixed = true) :
    (n.get f).spelledOut .other = n.get f := by
  have hshaped := ((Value.all_toValue n).1 hn).1
  cases hcontent : Grammar.declared.content? n.kind f with
  | some content =>
    exact Value.spelledOut_of_isFixed (Grammar.isFixed_declared n.kind hf content hcontent)
      (Value.all_get hn f) (Node.holds_get hshaped hcontent)
  | none =>
    rw [get_of_content?_eq_none hshaped hcontent]
    rfl

/-- A fixed field keeps its content when the node is spelled out. -/
theorem get_spelledOut_of_isFixed (hn : n.toValue.isDeclared = true) (hf : f.isFixed = true) :
    n.spelledOut.get f = n.get f := by
  have hseat : f.seat = .other := by cases f <;> first | rfl | cases hf
  rw [get_spelledOut, hseat, spelledOut_get_of_isFixed hn hf]

end Node

/-- A property by a fixed field keeps its content when the value is spelled out. -/
theorem Value.property_spelledOut_of_isFixed {v : Value} {f : Field} (hv : v.isDeclared = true)
    (hf : f.isFixed = true) : (v.spelledOut .other).property f = v.property f := by
  rw [property, property, node?_spelledOut]
  cases hn : v.node? with
  | none => rfl
  | some n =>
    obtain rfl := toValue_of_node? hn
    show (if (n.kind.index? f).isSome then Except.ok (n.spelledOut.get f) else _) = _
    rw [Node.get_spelledOut_of_isFixed hv hf]

/-! ### Source texts and checkers -/

namespace Value

/-- The source texts of values are the same when they are spelled out, if that holds of each. -/
theorem sourceTexts_spelledOut {vs : List Value}
    (h : ∀ v ∈ vs, (v.spelledOut .other).sourceText = v.sourceText) :
    sourceTexts (vs.map (spelledOut .other)) = sourceTexts vs := by
  induction vs with
  | nil => rfl
  | cons v vs ih =>
    rw [List.map_cons, sourceTexts, sourceTexts, h v (by simp), ih fun w hw => h w (by simp [hw])]

/-- The source text of a node that is put together from its parts. -/
theorem sourceText_spelledOut_composed {n : Node} (hn : n.toValue.isDeclared = true)
    (hsource : n.source.truthy = false)
    (ih : ∀ v : Value, v.isDeclared = true → v.depth < n.toValue.depth →
      (v.spelledOut .other).sourceText = v.sourceText) :
    n.spelledOut.toValue.sourceText = n.toValue.sourceText := by
  have part (f : Field) (hf : f.seat = .other) :
      (n.spelledOut.get f).sourceText = (n.get f).sourceText := by
    rw [Node.get_spelledOut, hf]
    exact ih _ (all_get hn f) (depth_get_lt n f)
  have hlength := Node.length_of_isShaped ((all_toValue n).1 hn).1 Grammar.length_declared
  have hlength' : n.spelledOut.fields.length = n.spelledOut.kind.slots.length := by
    rw [Node.spelledOut, List.length_map]
    exact hlength
  have hsource' : n.spelledOut.source.truthy = false := hsource
  cases hk : n.kind
  case propertyAccessExpression =>
    have hname : (n.spelledOut.get .name).property .text = (n.get .name).property .text := by
      rw [Node.get_spelledOut]
      exact property_spelledOut_of_isFixed (all_get hn .name) rfl
    rw [sourceText_eq_propertyAccess hsource hlength hk,
      sourceText_eq_propertyAccess hsource' hlength' hk, part .expression rfl, hname]
  case elementAccessExpression =>
    rw [sourceText_eq_elementAccess hsource hlength hk,
      sourceText_eq_elementAccess hsource' hlength' hk, part .expression rfl, part .argument rfl]
  case callExpression =>
    have harguments : sourceTextsOf (n.spelledOut.get .arguments) =
        sourceTextsOf (n.get .arguments) := by
      rw [Node.get_spelledOut, show Field.arguments.seat = .other from rfl]
      obtain ⟨vs, hvs, -⟩ := Node.many_of_isShaped ((all_toValue n).1 hn).1 (f := .arguments)
        (by rw [hk]; rfl)
      have hall := all_get hn .arguments
      have hlt := depth_get_lt n .arguments
      rw [hvs] at hall hlt ⊢
      rw [spelledOut_list, sourceTextsOf, sourceTextsOf]
      exact sourceTexts_spelledOut fun v hv => ih v (all_of_mem hall hv)
        (Nat.lt_of_le_of_lt (depth_le_depthOf hv) hlt)
    rw [sourceText_eq_call hsource hlength hk, sourceText_eq_call hsource' hlength' hk,
      part .expression rfl, harguments]
  case parenthesizedExpression =>
    rw [sourceText_eq_parenthesized hsource hlength hk,
      sourceText_eq_parenthesized hsource' hlength' hk, part .expression rfl]
  case binaryExpression =>
    rw [sourceText_eq_binary hsource hlength hk, sourceText_eq_binary hsource' hlength' hk,
      part .left rfl, part .right rfl, Node.get_spelledOut_of_isFixed hn rfl]
  case prefixUnaryExpression =>
    rw [sourceText_eq_prefixUnary hsource hlength hk,
      sourceText_eq_prefixUnary hsource' hlength' hk, part .operand rfl,
      Node.get_spelledOut_of_isFixed hn rfl]
  all_goals
    rw [sourceText_eq_keyword hsource hlength (by rw [hk]; decide),
      sourceText_eq_keyword hsource' hlength' (by rw [Node.kind_spelledOut, hk]; decide),
      Node.kind_spelledOut]

/-- Spelling properties out leaves the source text of a node as it is. -/
theorem sourceText_spelledOut {v : Value} (hv : v.isDeclared = true) :
    (v.spelledOut .other).sourceText = v.sourceText := by
  induction hd : v.depth using Nat.strongRecOn generalizing v with | _ depth ih
  subst hd
  cases hn : v.node? with
  | none =>
    cases v with
    | node _ _ _ _ _ => cases hn
    | _ => simp only [spelledOut, sourceText]
  | some n =>
    obtain rfl := toValue_of_node? hn
    rw [spelledOut_toValue (by simp [Seat.kinds])]
    by_cases hsource : n.source.truthy = true
    · unfold Node.toValue sourceText
      rw [if_pos hsource, if_pos (show n.spelledOut.source.truthy = true from hsource)]
      rfl
    · exact sourceText_spelledOut_composed hv (Bool.eq_false_iff.2 hsource)
        fun w hw hlt => ih _ hlt hw rfl

end Value

namespace Checker

variable {checker : Checker}

/-- A checker answers for an expression as if all properties in it were spelled out. -/
def IgnoresSpelling (checker : Checker) : Prop :=
  ∀ v : Value, v.isDeclared = true →
    checker.typeOfExpression (v.spelledOut .other) = checker.typeOfExpression v

/-- What is recorded of an expression does not depend on how properties in it are spelled. -/
theorem ignoresSpelling_recorded : recorded.IgnoresSpelling := by
  intro v _
  show Except.ok _ = Except.ok _
  rw [Value.type?_spelledOut]

/-- Neither does what tables say of its source text. -/
theorem ignoresSpelling_ofTables (ascriptions expressions : List (String × Ty)) :
    (ofTables ascriptions expressions).IgnoresSpelling := by
  intro v hv
  show lookUp expressions _ = lookUp expressions _
  rw [lookUp, lookUp, Value.sourceText_spelledOut hv, Value.type?_spelledOut]

/-- A checker that answers from tables ignores spellings. -/
theorem IsTabled.ignoresSpelling (h : checker.IsTabled) : checker.IgnoresSpelling := by
  rcases h with rfl | ⟨ascriptions, expressions, rfl, -⟩
  · exact ignoresSpelling_recorded
  · exact ignoresSpelling_ofTables ascriptions expressions

/-- A checker that ignores spellings infers the same types when values are spelled out. -/
theorem IgnoresSpelling.inferred? (h : checker.IgnoresSpelling) {v : Value}
    (hv : v.isDeclared = true) : checker.inferred? (v.spelledOut .other) = checker.inferred? v := by
  rw [Checker.inferred?, Checker.inferred?, Value.isNull_spelledOut, h v hv]

end Checker

end CodeSample
