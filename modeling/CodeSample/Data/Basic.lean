import CodeSample.Number.Double

/-!
# Data

What a parser in another process hands over, before it is known to describe a tree or a type: null,
truth values, whole and binary64 numbers, texts, lists, and objects whose members keep their order.

* `decEq`: equality is decidable;
* `key` is a normal form under which `1`, `1.0` and `true` coincide and the order of an object's
  members does not count, and `alike` compares by it.
-/

namespace CodeSample

/-- A datum. An object's members have distinct names and keep their order. -/
inductive Data where
  | null
  | bool (b : Bool)
  | int (n : Int)
  | float (x : Double)
  | text (s : String)
  | list (items : List Data)
  | object (members : List (String × Data))
deriving Inhabited

namespace Data

/-! ### Decidable equality -/

mutual

/-- Whether two data are equal. -/
def beq : Data → Data → Bool
  | null, null => true
  | bool a, bool b => a == b
  | int m, int n => m == n
  | float x, float y => x == y
  | text s, text t => s == t
  | list xs, list ys => beqItems xs ys
  | object ms, object ns => beqMembers ms ns
  | _, _ => false

/-- Whether two lists of data are equal. -/
def beqItems : List Data → List Data → Bool
  | [], [] => true
  | x :: xs, y :: ys => beq x y && beqItems xs ys
  | _, _ => false

/-- Whether two lists of members are equal. -/
def beqMembers : List (String × Data) → List (String × Data) → Bool
  | [], [] => true
  | (k, x) :: ms, (l, y) :: ns => k == l && beq x y && beqMembers ms ns
  | _, _ => false

end

mutual

/-- Data that are found equal are equal. -/
theorem eq_of_beq : ∀ {a b : Data}, beq a b = true → a = b
  | null, b, h => by cases b <;> simp_all [beq]
  | bool _, b, h => by cases b <;> simp_all [beq]
  | int _, b, h => by cases b <;> simp_all [beq]
  | float _, b, h => by cases b <;> simp_all [beq]
  | text _, b, h => by cases b <;> simp_all [beq]
  | list xs, b, h => by
    cases b <;> simp only [beq, Bool.false_eq_true] at h
    rw [eq_of_beqItems h]
  | object ms, b, h => by
    cases b <;> simp only [beq, Bool.false_eq_true] at h
    rw [eq_of_beqMembers h]

/-- Items that are found equal are equal. -/
theorem eq_of_beqItems : ∀ {xs ys : List Data}, beqItems xs ys = true → xs = ys
  | [], ys, h => by cases ys <;> simp_all [beqItems]
  | x :: xs, ys, h => by
    cases ys with
    | nil => simp [beqItems] at h
    | cons y ys =>
      simp only [beqItems, Bool.and_eq_true] at h
      rw [eq_of_beq h.1, eq_of_beqItems h.2]

/-- Members that are found equal are equal. -/
theorem eq_of_beqMembers : ∀ {ms ns : List (String × Data)}, beqMembers ms ns = true → ms = ns
  | [], ns, h => by cases ns <;> simp_all [beqMembers]
  | (k, x) :: ms, ns, h => by
    cases ns with
    | nil => simp [beqMembers] at h
    | cons n ns =>
      obtain ⟨l, y⟩ := n
      simp only [beqMembers, Bool.and_eq_true, beq_iff_eq] at h
      rw [h.1.1, eq_of_beq h.1.2, eq_of_beqMembers h.2]

end

mutual

/-- Every datum is found equal to itself. -/
theorem beq_self : ∀ a : Data, beq a a = true
  | null | bool _ | int _ | float _ | text _ => by simp [beq]
  | list xs => by rw [beq]; exact beqItems_self xs
  | object ms => by rw [beq]; exact beqMembers_self ms

/-- All items are found equal to themselves. -/
theorem beqItems_self : ∀ xs : List Data, beqItems xs xs = true
  | [] => by simp [beqItems]
  | x :: xs => by simp [beqItems, beq_self x, beqItems_self xs]

/-- All members are found equal to themselves. -/
theorem beqMembers_self : ∀ ms : List (String × Data), beqMembers ms ms = true
  | [] => by simp [beqMembers]
  | (k, x) :: ms => by simp [beqMembers, beq_self x, beqMembers_self ms]

end

instance decEq : DecidableEq Data := fun a b =>
  if h : beq a b = true then isTrue (eq_of_beq h)
  else isFalse fun hab => h (hab ▸ beq_self a)

/-! ### Queries -/

/-- The member of an object with a name. -/
def get? (members : List (String × Data)) (name : String) : Option Data := members.lookup name

/-- Whether a datum is a text. -/
def isText : Data → Bool
  | text _ => true
  | _ => false

/-- Whether a datum counts as true: all but null, false, zero and what is empty. -/
def truthy : Data → Bool
  | null => false
  | bool b => b
  | int n => n != 0
  | float x => !x.isZero
  | text s => s != ""
  | list xs => !xs.isEmpty
  | object ms => !ms.isEmpty

/-- The name of a datum's sort in messages. -/
def sortName : Data → String
  | null => "NoneType"
  | bool _ => "bool"
  | int _ => "int"
  | float _ => "float"
  | text _ => "str"
  | list _ => "list"
  | object _ => "dict"

/-! ### Comparison by value -/

/-- A member put into its place among members in order of their names. -/
def insertMember (m : String × Data) : List (String × Data) → List (String × Data)
  | [] => [m]
  | n :: ns => if m.1 ≤ n.1 then m :: n :: ns else n :: insertMember m ns

mutual

/-- The normal form of a datum: a truth value or a number without a fraction is a whole number, and
an object's members stand in the order of their names. -/
def key : Data → Data
  | bool b => int (if b then 1 else 0)
  | float x => match x.exactInt? with
    | some n => int n
    | none => float x
  | list xs => list (keyItems xs)
  | object ms => object (keyMembers ms)
  | d => d

/-- The normal forms of items. -/
def keyItems : List Data → List Data
  | [] => []
  | x :: xs => key x :: keyItems xs

/-- The normal forms of members, in the order of their names. -/
def keyMembers : List (String × Data) → List (String × Data)
  | [] => []
  | (k, x) :: ms => insertMember (k, key x) (keyMembers ms)

end

/-- Whether two data are equal in value. -/
def alike (a b : Data) : Bool := key a == key b

/-- A text is its own key. -/
@[simp] theorem key_text (s : String) : key (text s) = text s := rfl

/-- Null is its own key. -/
@[simp] theorem key_null : key null = null := rfl

/-- Texts are alike only if they are equal. -/
theorem alike_text {s t : String} : alike (text s) (text t) = true ↔ s = t := by
  simp [alike]

end Data

end CodeSample
