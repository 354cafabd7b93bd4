import CodeSample.Syntax.Node

/-!
# Rebuilt trees

What becomes of a tree that is written in the exchanged form and read again. A place that is not
known is not written, and neither is a source that is null: the one comes back as `Pos.unknown`,
the other as the empty text. Everything else stays.

* `Value.rebuilt` is the tree that is read back, `Node.rebuilt` the same for a node;
* `Node.get_rebuilt`, `Value.node?_rebuilt`, `truthy_rebuilt`, …: what is asked of a value does not
  tell whether it was rebuilt, and its parts are the rebuilt ones.
-/

namespace CodeSample

/-- A place as it is read back. -/
def Pos.rebuilt (p : Pos) : Pos := if p.isKnown then p else .unknown

/-- A place is known when it is read back exactly if it was. -/
theorem Pos.isKnown_rebuilt (p : Pos) : p.rebuilt.isKnown = p.isKnown := by
  unfold rebuilt
  split
  · rfl
  · rename_i h
    rw [Bool.not_eq_true] at h
    rw [h]
    rfl

/-- A place that is known is read back as it is. -/
theorem Pos.rebuilt_of_isKnown {p : Pos} (h : p.isKnown = true) : p.rebuilt = p := if_pos h

namespace Value

mutual

/-- A value as it is read back: places that are not known are `Pos.unknown`, and sources that are
null are empty. -/
def rebuilt : Value → Value
  | list vs => list (rebuiltAll vs)
  | node kind pos source type? fields =>
    node kind pos.rebuilt (if source.isNull then text "" else rebuilt source) type?
      (rebuiltAll fields)
  | v => v

/-- Values as they are read back. -/
def rebuiltAll : List Value → List Value
  | [] => []
  | v :: vs => rebuilt v :: rebuiltAll vs

end

/-- Values are read back one by one. -/
theorem rebuiltAll_eq_map (vs : List Value) : rebuiltAll vs = vs.map rebuilt := by
  induction vs with
  | nil => rfl
  | cons v vs ih => rw [rebuiltAll, ih, List.map_cons]

/-- Null is read back as it is. -/
@[simp] theorem rebuilt_null : null.rebuilt = null := rfl

/-- A truth value is read back as it is. -/
@[simp] theorem rebuilt_bool (b : Bool) : (bool b).rebuilt = bool b := rfl

/-- A whole number is read back as it is. -/
@[simp] theorem rebuilt_int (n : Int) : (int n).rebuilt = int n := rfl

/-- A number is read back as it is. -/
@[simp] theorem rebuilt_float (x : Double) : (float x).rebuilt = float x := rfl

/-- A text is read back as it is. -/
@[simp] theorem rebuilt_text (s : String) : (text s).rebuilt = text s := rfl

/-- An object of data is read back as it is. -/
@[simp] theorem rebuilt_object (ms : List (String × Data)) : (object ms).rebuilt = object ms := rfl

/-- A list is read back item by item. -/
@[simp] theorem rebuilt_list (vs : List Value) : (list vs).rebuilt = list (vs.map rebuilt) := by
  rw [rebuilt, rebuiltAll_eq_map]

end Value

namespace Node

/-- The source of a node as it is read back: an empty text for null. -/
def rebuiltSource (n : Node) : Value := if n.source.isNull then .text "" else n.source.rebuilt

/-- A node as it is read back. -/
def rebuilt (n : Node) : Node :=
  { n with pos := n.pos.rebuilt, source := n.rebuiltSource, fields := n.fields.map Value.rebuilt }

/-- A node is read back with its kind. -/
@[simp] theorem kind_rebuilt (n : Node) : n.rebuilt.kind = n.kind := rfl

/-- The place of a node is read back as places are. -/
@[simp] theorem pos_rebuilt (n : Node) : n.rebuilt.pos = n.pos.rebuilt := rfl

/-- A node is read back with its type. -/
@[simp] theorem type?_rebuilt (n : Node) : n.rebuilt.type? = n.type? := rfl

/-- The fields of a rebuilt node are the rebuilt fields. -/
@[simp] theorem get_rebuilt (n : Node) (f : Field) : n.rebuilt.get f = (n.get f).rebuilt := by
  unfold get rebuilt
  cases h : n.kind.index? f with
  | none => rfl
  | some i =>
    show ((n.fields.map Value.rebuilt)[i]?).getD .null = ((n.fields[i]?).getD .null).rebuilt
    rw [List.getElem?_map]
    cases n.fields[i]? <;> rfl

end Node

namespace Value

/-! ### What a rebuilt value is -/

/-- Reading a node back as a value is reading it back as a node. -/
theorem rebuilt_toValue (n : Node) : n.toValue.rebuilt = n.rebuilt.toValue := by
  unfold Node.toValue
  rw [rebuilt, rebuiltAll_eq_map]
  rfl

/-- What is read back is a node if the value was one, and that node read back. -/
@[simp] theorem node?_rebuilt (v : Value) : v.rebuilt.node? = v.node?.map Node.rebuilt := by
  cases h : v.node? with
  | none => cases v <;> simp_all [node?]
  | some n =>
    obtain rfl := toValue_of_node? h
    rw [rebuilt_toValue]
    rfl

/-- A value is read back with the type that it carries. -/
@[simp] theorem type?_rebuilt (v : Value) : v.rebuilt.type? = v.type? := by
  unfold type?
  rw [node?_rebuilt]
  cases v.node? <;> rfl

/-- Only null is read back as null. -/
@[simp] theorem isNull_rebuilt (v : Value) : v.rebuilt.isNull = v.isNull := by
  cases v <;> rfl

/-- Reading a value back does not change whether it counts as true. -/
@[simp] theorem truthy_rebuilt (v : Value) : v.rebuilt.truthy = v.truthy := by
  cases v with
  | list vs => cases vs <;> rfl
  | _ => rfl

/-- Reading a source back does not change whether it counts as true: null and the empty text do not.
-/
theorem truthy_rebuiltSource (n : Node) : n.rebuiltSource.truthy = n.source.truthy := by
  unfold Node.rebuiltSource
  split
  · rename_i h
    cases hs : n.source <;> simp_all [isNull]
    rfl
  · exact truthy_rebuilt n.source

end Value

end CodeSample
