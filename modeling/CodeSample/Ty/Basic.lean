import CodeSample.Data.Basic

/-!
# Types

What the parser's checker knows about an expression or an annotation: builtin types, user-declared
types, arrays, string-keyed maps and unions. A name is whatever datum the parser recorded; every
parser records texts.

* `leaves` are the members of a union through nested unions, and `members` gathers them without
  repetition;
* `isAbsent`, `concrete?`, `admitsAbsent`, `element?` answer what a backend asks of a type.
-/

namespace CodeSample

/-- A type. The alias of a named type is null when it was not reached through one. -/
inductive Ty where
  | primitive (name : Data)
  | named (name aliasName : Data) (struct : Bool)
  | array (element : Ty)
  | map (element : Ty)
  | union (members : List Ty)
  | unspelled
deriving Inhabited

namespace Ty

/-- The builtin type of the value that is not there. -/
def undefined : Ty := primitive (.text "undefined")

/-- The builtin type of the null value. -/
def null : Ty := primitive (.text "null")

/-- A type or nothing. -/
def optional (t : Ty) : Ty := union [t, undefined]

/-! ### Decidable equality -/

mutual

/-- Whether two types are equal. -/
def beq : Ty → Ty → Bool
  | primitive a, primitive b => a == b
  | named a b s, named c d t => a == c && b == d && s == t
  | array a, array b => beq a b
  | map a, map b => beq a b
  | union as, union bs => beqMembers as bs
  | unspelled, unspelled => true
  | _, _ => false

/-- Whether two lists of types are equal. -/
def beqMembers : List Ty → List Ty → Bool
  | [], [] => true
  | a :: as, b :: bs => beq a b && beqMembers as bs
  | _, _ => false

end

mutual

/-- Types that are found equal are equal. -/
theorem eq_of_beq : ∀ {a b : Ty}, beq a b = true → a = b
  | primitive _, b, h => by cases b <;> simp_all [beq]
  | named .., b, h => by
    cases b <;> simp only [beq, Bool.and_eq_true, beq_iff_eq, Bool.false_eq_true] at h
    obtain ⟨⟨rfl, rfl⟩, rfl⟩ := h
    rfl
  | array _, b, h => by
    cases b <;> simp only [beq, Bool.false_eq_true] at h
    rw [eq_of_beq h]
  | map _, b, h => by
    cases b <;> simp only [beq, Bool.false_eq_true] at h
    rw [eq_of_beq h]
  | union _, b, h => by
    cases b <;> simp only [beq, Bool.false_eq_true] at h
    rw [eq_of_beqMembers h]
  | unspelled, b, h => by cases b <;> simp_all [beq]

/-- Members that are found equal are equal. -/
theorem eq_of_beqMembers : ∀ {as bs : List Ty}, beqMembers as bs = true → as = bs
  | [], bs, h => by cases bs <;> simp_all [beqMembers]
  | a :: as, bs, h => by
    cases bs with
    | nil => simp [beqMembers] at h
    | cons b bs =>
      simp only [beqMembers, Bool.and_eq_true] at h
      rw [eq_of_beq h.1, eq_of_beqMembers h.2]

end

mutual

/-- Every type is found equal to itself. -/
theorem beq_self : ∀ a : Ty, beq a a = true
  | primitive _ | unspelled => by simp [beq]
  | named .. => by simp [beq]
  | array a | map a => by rw [beq]; exact beq_self a
  | union as => by rw [beq]; exact beqMembers_self as

/-- All members are found equal to themselves. -/
theorem beqMembers_self : ∀ as : List Ty, beqMembers as as = true
  | [] => by simp [beqMembers]
  | a :: as => by simp [beqMembers, beq_self a, beqMembers_self as]

end

instance decEq : DecidableEq Ty := fun a b =>
  if h : beq a b = true then isTrue (eq_of_beq h)
  else isFalse fun hab => h (hab ▸ beq_self a)

/-! ### Comparison by value -/

mutual

/-- The normal form of a type: its names compared by value. -/
def key : Ty → Ty
  | primitive name => primitive name.key
  | named name aliasName struct => named name.key aliasName.key struct
  | array t => array (key t)
  | map t => map (key t)
  | union ts => union (keys ts)
  | unspelled => unspelled

/-- The normal forms of types. -/
def keys : List Ty → List Ty
  | [] => []
  | t :: ts => key t :: keys ts

end

/-- Whether two types are the same: equal, with names compared by value. -/
def same (a b : Ty) : Bool := key a == key b

/-- Every type is the same as itself. -/
theorem same_refl (a : Ty) : same a a = true := by simp [same]

/-- Being the same goes both ways. -/
theorem same_symm {a b : Ty} (h : same a b = true) : same b a = true := by
  simp only [same, beq_iff_eq] at h ⊢
  exact h.symm

/-- Types that are the same as a third one are the same. -/
theorem same_trans {a b c : Ty} (h : same a b = true) (h' : same b c = true) :
    same a c = true := by
  simp only [same, beq_iff_eq] at h h' ⊢
  exact h.trans h'

/-! ### Members of a union -/

/-- Whether a type is a union. -/
def isUnion : Ty → Bool
  | union _ => true
  | _ => false

mutual

/-- The types that are reached through unions only, in the order of the source. -/
def leaves : Ty → List Ty
  | union ts => leavesOf ts
  | t => [t]

/-- The leaves of several types, one after the other. -/
def leavesOf : List Ty → List Ty
  | [] => []
  | t :: ts => leaves t ++ leavesOf ts

end

/-- Types that were found before, and after them those of others that are not the same as one found
by then. -/
def gather (found : List Ty) : List Ty → List Ty
  | [] => found
  | t :: ts => gather (if found.any (same t) then found else found ++ [t]) ts

mutual

/-- The members of a union with nested unions flattened and repetitions dropped. Any other type is
its own single member. -/
def members : Ty → List Ty
  | union ts => membersOf [] ts
  | t => [t]

/-- What was found before, and after it the members of several types that are new. -/
def membersOf (found : List Ty) : List Ty → List Ty
  | [] => found
  | t :: ts => membersOf (gather found (members t)) ts

end

/-! ### Queries -/

/-- Whether a type means that there is no value. -/
def isAbsent (t : Ty) : Bool := t == undefined || t == null

/-- The one member of a union that is not absent, if there is exactly one; any other type itself. -/
def concrete? (t : Ty) : Option Ty :=
  match t with
  | union _ =>
    match t.members.filter (!·.isAbsent) with
    | [u] => some u
    | _ => none
  | t => some t

/-- Whether a type admits that there is no value. -/
def admitsAbsent (t : Ty) : Bool := t.members.any isAbsent

/-- The type of the elements of a map. -/
def element? : Ty → Option Ty
  | map t => some t
  | _ => none

/-- The name of a builtin type. -/
def builtin? : Ty → Option Data
  | primitive name => some name
  | _ => none

/-- Whether a type is builtin. -/
def isPrimitive : Ty → Bool
  | primitive _ => true
  | _ => false

/-- Whether a type is declared by the user and only holds data. -/
def isStruct : Ty → Bool
  | named _ _ struct => struct
  | _ => false

end Ty

end CodeSample
