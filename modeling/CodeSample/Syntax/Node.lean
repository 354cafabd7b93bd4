import CodeSample.Fault
import CodeSample.Ty.Basic

/-!
# Syntax trees

A node has a kind, a place, a recorded source, a type if its kind carries one, and a value for each
field of its kind. A field may hold any value: another node, a plain datum, or a list of values. No
rule may rely on the grammar of the samples' language; reading a property that is not there, or
walking what cannot be enumerated, is a fault.

* `Value` are the contents of fields, `Node` is the view of a value that is a node;
* `Node.get` is a field of a node, `Value.property` that of a value which may be no node;
* `Value.items` is what a value enumerates, and `Value.depth` how deep nodes stand in one another;
* `depth_get_lt`, `depth_le_of_items`, `depth_le_of_property`: no part is deeper than the whole.
-/

namespace CodeSample

/-- What a field of a node holds. An object is kept as it was read. -/
inductive Value where
  | null
  | bool (b : Bool)
  | int (n : Int)
  | float (x : Double)
  | text (s : String)
  | list (items : List Value)
  | object (members : List (String × Data))
  | node (kind : Kind) (pos : Pos) (source : Value) (type? : Option Ty) (fields : List Value)
deriving Inhabited

/-- A syntax node. Its fields are those of its kind, in their order. -/
structure Node where
  kind : Kind
  pos : Pos
  source : Value
  type? : Option Ty
  fields : List Value
deriving Inhabited

namespace Node

/-- A node as the content of a field. -/
def toValue (n : Node) : Value := .node n.kind n.pos n.source n.type? n.fields

/-- What a node has in a field; null in one that its kind does not have. -/
def get (n : Node) (f : Field) : Value := ((n.kind.index? f).bind (n.fields[·]?)).getD .null

end Node

namespace Value

/-! ### Sorts of values -/

/-- The node that a value is. -/
def node? : Value → Option Node
  | node kind pos source type? fields => some ⟨kind, pos, source, type?, fields⟩
  | _ => none

/-- A node is recovered from the value that it is. -/
@[simp] theorem node?_toValue (n : Node) : n.toValue.node? = some n := rfl

/-- The kind of a value that is a node. -/
def kind? (v : Value) : Option Kind := v.node?.map Node.kind

/-- Whether a value is a node of a kind. -/
def isKind (v : Value) (k : Kind) : Bool := v.kind? == some k

/-- Whether a value is null. -/
def isNull : Value → Bool
  | null => true
  | _ => false

/-- The text that a value is. -/
def text? : Value → Option String
  | text s => some s
  | _ => none

/-- Whether a value is a certain text. -/
def isText (v : Value) (s : String) : Bool := v.text? == some s

/-- The type that a node carries; no other value carries one. -/
def type? (v : Value) : Option Ty := v.node?.bind Node.type?

/-- The type that a value carries which has to be a node of a kind that carries types. -/
def carriedType? (v : Value) : Except Fault (Option Ty) :=
  match v.node? with
  | some n => if n.kind.typed then .ok n.type? else .error .noProperty
  | none => .error .noProperty

/-- Whether a value counts as true: all but null, false, zero and what is empty. -/
def truthy : Value → Bool
  | null => false
  | bool b => b
  | int n => n != 0
  | float x => !x.isZero
  | text s => s != ""
  | list vs => !vs.isEmpty
  | object ms => !ms.isEmpty
  | node .. => true

/-- A value, or another one if it does not count as true. -/
def orElse (v w : Value) : Value := if v.truthy then v else w

mutual

/-- A datum as a value. -/
def ofData : Data → Value
  | .null => null
  | .bool b => bool b
  | .int n => int n
  | .float x => float x
  | .text s => text s
  | .list ds => list (ofItems ds)
  | .object ms => object ms

/-- Data as values. -/
def ofItems : List Data → List Value
  | [] => []
  | d :: ds => ofData d :: ofItems ds

end

/-! ### Depth -/

mutual

/-- How deep nodes stand in the fields of one another. -/
def depth : Value → Nat
  | list vs => depthOf vs
  | node _ _ _ _ fields => depthOf fields + 1
  | _ => 0

/-- The greatest depth of several values. -/
def depthOf : List Value → Nat
  | [] => 0
  | v :: vs => max (depth v) (depthOf vs)

end

/-- A value in a list is no deeper than the list. -/
theorem depth_le_depthOf {v : Value} {vs : List Value} (h : v ∈ vs) : v.depth ≤ depthOf vs := by
  induction vs with
  | nil => simp at h
  | cons w ws ih =>
    rw [depthOf]
    rcases List.mem_cons.1 h with rfl | h
    · exact Nat.le_max_left ..
    · exact Nat.le_trans (ih h) (Nat.le_max_right ..)

/-! ### Properties and enumeration -/

/-- What a value that has to be a node has in a field that its kind has to have. -/
def property (v : Value) (f : Field) : Except Fault Value :=
  match v.node? with
  | some n => if (n.kind.index? f).isSome then .ok (n.get f) else .error .noProperty
  | none => .error .noProperty

/-- The values that a value enumerates: the items of a list, or the characters of a text. -/
def items : Value → Except Fault (List Value)
  | list vs => .ok vs
  | text s => .ok (s.toList.map fun c => text (String.singleton c))
  | object ms => .ok (ms.map fun m => text m.1)
  | _ => .error .wrongSort

/-! ### Depth of parts -/

/-- What stands in a field is less deep than the node. -/
theorem depth_get_lt (n : Node) (f : Field) : (n.get f).depth < n.toValue.depth := by
  rw [Node.get, Node.toValue, depth]
  cases h : (n.kind.index? f).bind (n.fields[·]?) with
  | none => simp [depth]
  | some v =>
    obtain ⟨i, _, hi⟩ := Option.bind_eq_some_iff.1 h
    have := depth_le_depthOf (List.mem_of_getElem? hi)
    simp only [Option.getD_some]
    omega

/-- The items of a value are no deeper than the value. -/
theorem depth_le_of_items {v w : Value} {vs : List Value} (h : v.items = .ok vs) (hw : w ∈ vs) :
    w.depth ≤ v.depth := by
  cases v with
  | list _ =>
    rw [items, Except.ok.injEq] at h
    subst h
    rw [depth]
    exact depth_le_depthOf hw
  | text _ | object _ =>
    rw [items, Except.ok.injEq] at h
    subst h
    obtain ⟨_, _, rfl⟩ := List.mem_map.1 hw
    simp [depth]
  | _ => cases h

/-- A value that is a node is that node as a value. -/
theorem toValue_of_node? {v : Value} {n : Node} (h : v.node? = some n) : n.toValue = v := by
  cases v <;> simp_all [node?]
  subst h
  rfl

/-- The properties of a value are no deeper than the value. -/
theorem depth_le_of_property {v w : Value} {f : Field} (h : v.property f = .ok w) :
    w.depth ≤ v.depth := by
  rw [property] at h
  split at h
  · rename_i n hn
    split at h
    · rw [Except.ok.injEq] at h
      rw [← h, ← toValue_of_node? hn]
      exact Nat.le_of_lt (depth_get_lt n f)
    · cases h
  · cases h

/-! ### Joining texts -/

/-- A text after a value. -/
def before (v : Value) (s : String) : Except Fault Value :=
  match v with
  | text t => .ok (text (t ++ s))
  | _ => .error .wrongSort

/-- A value after a text. -/
def after (s : String) (v : Value) : Except Fault Value :=
  match v with
  | text t => .ok (text (s ++ t))
  | _ => .error .wrongSort

/-- The texts that values are. -/
def texts : List Value → Except Fault (List String)
  | [] => .ok []
  | text s :: vs => do
    let ss ← texts vs
    return s :: ss
  | _ :: _ => .error .wrongSort

/-- Texts with a separator between them. -/
def join (separator : String) (vs : List Value) : Except Fault Value := do
  let ss ← texts vs
  return text (separator.intercalate ss)

/-! ### Sums -/

/-- The whole number that a value is; a truth value counts as zero or one. -/
def whole? : Value → Option Int
  | bool b => some (if b then 1 else 0)
  | int n => some n
  | _ => none

/-- Whether a value is a number or a truth value. -/
def isNumber : Value → Bool
  | bool _ | int _ | float _ => true
  | _ => false

/-- The binary64 number nearest to a number; a whole number may be too large to have one. -/
def double (v : Value) : Except Fault Double :=
  match v, v.whole? with
  | float x, _ => .ok x
  | _, some n => match Double.ofInt? n with
    | some x => .ok x
    | none => .error .unbounded
  | _, none => .error .wrongSort

/-- The sum of two numbers, or two texts or lists one after the other. -/
def add (v w : Value) : Except Fault Value :=
  match v, w with
  | text s, text t => .ok (text (s ++ t))
  | list vs, list ws => .ok (list (vs ++ ws))
  | _, _ =>
    match v.whole?, w.whole? with
    | some m, some n => .ok (int (m + n))
    | _, _ =>
      if v.isNumber && w.isNumber then do return float ((← v.double).add (← w.double))
      else .error .wrongSort

end Value

end CodeSample
