import CodeSample.Fault

/-!
# Rendering contexts

Settings that are handed down the tree while it is rendered. A context is never changed: what is
derived for a subtree is a new one.

* `Settings` are the settings of a kind of context by name;
* `merge` derives a context, replacing exactly the settings of an update;
* `merge_nil`, `merge_append`: no update changes nothing, and two updates in a row are one.
-/

namespace CodeSample

/-- A kind of context whose settings have names. -/
class Settings (C : Type) where
  /-- The context with a setting replaced, if it has one of that name. -/
  set? : C → String → Data → Option C
  /-- The settings by name. -/
  toMembers : C → Except Fault (List (String × Data))

/-- A context without any settings. -/
structure Plain where
deriving DecidableEq, Inhabited

instance : Settings Plain where
  set? _ _ _ := none
  toMembers _ := .ok []

namespace Settings

variable {C : Type} [Settings C]

/-- The context with one setting replaced. -/
def set (c : C) (setting : String × Data) : Except Fault C :=
  match set? c setting.1 setting.2 with
  | some c => .ok c
  | none => .error .wrongSort

/-- The context with the settings of an update replaced. A name that is no setting of the context is
a fault. -/
def merge (c : C) (update : List (String × Data)) : Except Fault C := update.foldlM set c

/-- An empty update leaves a context as it is. -/
@[simp] theorem merge_nil (c : C) : merge c [] = .ok c := rfl

/-- An update may be made in two parts. -/
theorem merge_append (c : C) (update later : List (String × Data)) :
    merge c (update ++ later) = (do merge (← merge c update) later) := by
  simp [merge]

/-- A context as a datum. -/
def toData (c : C) : Except Fault Data := do return .object (← toMembers c)

end Settings

end CodeSample
