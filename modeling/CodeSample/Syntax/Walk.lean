import CodeSample.Syntax.Node

/-!
# Walking a syntax tree

The children of a node are the nodes that stand in its fields or in lists there, in order.

* `Node.children` are the children, `Value.walk` is the tree in preorder with depths;
* `walk_node`: a node comes before its children, which are one deeper;
* `Node.declaredName?` is the name that a declaration introduces.
-/

namespace CodeSample

namespace Value

/-- The nodes that stand in a field: one that is the content, or the items of a list. -/
def nodes : Value → List Node
  | list vs => vs.filterMap node?
  | v => v.node?.toList

mutual

/-- The nodes of a tree in preorder, with their depths below a given one. -/
def walk (depth : Nat) : Value → List (Nat × Node)
  | node kind pos source type? fields =>
    (depth, ⟨kind, pos, source, type?, fields⟩) :: walkFields (depth + 1) fields
  | _ => []

/-- The nodes of the trees in fields. -/
def walkFields (depth : Nat) : List Value → List (Nat × Node)
  | [] => []
  | list vs :: fields => walkItems depth vs ++ walkFields depth fields
  | v :: fields => walk depth v ++ walkFields depth fields

/-- The nodes of the trees in a list. -/
def walkItems (depth : Nat) : List Value → List (Nat × Node)
  | [] => []
  | v :: vs => walk depth v ++ walkItems depth vs

end

end Value

namespace Node

/-- The children of a node. -/
def children (n : Node) : List Node := n.fields.flatMap Value.nodes

/-- The text of the identifier or string literal that stands in a node's name field. -/
def declaredName? (n : Node) : Option Value :=
  match (n.get .name).node? with
  | some m => if m.kind = .identifier ∨ m.kind = .stringLiteral then some (m.get .text) else none
  | none => none

end Node

namespace Value

/-- A walk finds nothing in a value that is no node. -/
theorem walk_of_node?_eq_none {v : Value} (depth : Nat) (h : v.node? = none) :
    walk depth v = [] := by
  cases v <;> simp_all [node?, walk]

/-- The tree of a value is that of the node that it is. -/
theorem walk_eq (depth : Nat) (v : Value) :
    walk depth v = v.node?.toList.flatMap fun n => walk depth n.toValue := by
  cases v <;> simp [node?, walk, Node.toValue]

/-- The trees in a list are those of the nodes there. -/
theorem walkItems_eq (depth : Nat) (vs : List Value) :
    walkItems depth vs = (vs.filterMap node?).flatMap fun n => walk depth n.toValue := by
  induction vs with
  | nil => rfl
  | cons v vs ih =>
    rw [walkItems, ih, walk_eq]
    cases h : v.node? <;> simp [h]

/-- The trees in fields are those of the nodes that stand there. -/
theorem walkFields_eq (depth : Nat) (fields : List Value) :
    walkFields depth fields =
      (fields.flatMap nodes).flatMap fun n => walk depth n.toValue := by
  induction fields with
  | nil => rfl
  | cons v fields ih =>
    rw [List.flatMap_cons, List.flatMap_append, ← ih]
    cases v with
    | list vs => rw [walkFields, walkItems_eq, nodes]
    | _ => rw [walkFields, walk_eq, nodes] <;> simp

/-- The trees in the first field come before those in the others. -/
theorem walkFields_cons (depth : Nat) (v : Value) (fields : List Value) :
    walkFields depth (v :: fields) = walkFields depth [v] ++ walkFields depth fields := by
  rw [walkFields_eq, walkFields_eq, walkFields_eq, List.flatMap_cons, List.flatMap_append,
    List.flatMap_singleton]

/-- A node comes first, then the trees of its children, one deeper. -/
theorem walk_node (depth : Nat) (n : Node) :
    walk depth n.toValue =
      (depth, n) :: n.children.flatMap fun c => walk (depth + 1) c.toValue := by
  rw [Node.toValue, walk, walkFields_eq]
  rfl

end Value

end CodeSample
