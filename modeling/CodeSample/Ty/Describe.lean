import CodeSample.Fault
import CodeSample.Ty.Basic

/-!
# The source spelling of a type

How the language of the samples writes a type. A name that is no text stands for itself; inside a
larger spelling it is a clash.

* `describe` is the spelling;
* `Spelled` says that all names are texts, and `spelling` is the text of such a type;
* `describe_of_spelled`: then `describe` is the `spelling`.
-/

namespace CodeSample

namespace Data

/-- A text after a value. -/
def before (d : Data) (s : String) : Except Clash Data :=
  match d with
  | text t => .ok (text (t ++ s))
  | _ => .error (.beforeText d)

/-- A value after a text. -/
def after (s : String) (d : Data) : Except Clash Data :=
  match d with
  | text t => .ok (text (s ++ t))
  | _ => .error (.afterText d)

/-- The texts of an enumeration, numbered from `i`. -/
def textsFrom (i : Nat) : List Data → Except Clash (List String)
  | [] => .ok []
  | text s :: ds => do
    let ss ← textsFrom (i + 1) ds
    return s :: ss
  | d :: _ => .error (.item i d)

/-- Texts with a separator between them. -/
def join (separator : String) (ds : List Data) : Except Clash Data := do
  let ss ← textsFrom 0 ds
  return text (separator.intercalate ss)

end Data

namespace Ty

/-- The name by which a user-declared type is shown: its alias, if it has one. -/
def shownName (name aliasName : Data) : Data := if aliasName.truthy then aliasName else name

/-- The spelling of an array type, from whether its elements are of a union type and their
spelling. -/
def describeArray (isUnion : Bool) (element : Data) : Except Clash Data := do
  let inner ← if isUnion then do (← Data.after "(" element).before ")" else pure element
  inner.before "[]"

/-- The spelling of a map type, from the spelling of its element type. -/
def describeMap (element : Data) : Except Clash Data := do
  (← Data.after "\x7b [key: string]: " element).before " \x7d"

mutual

/-- The spelling of a type. -/
def describe : Ty → Except Clash Data
  | primitive name => .ok name
  | named name aliasName _ => .ok (shownName name aliasName)
  | array t => do describeArray t.isUnion (← describe t)
  | map t => do describeMap (← describe t)
  | union ts => do Data.join " | " (← describeAll ts)
  | unspelled => .ok (.text "unknown")

/-- The spellings of several types. -/
def describeAll : List Ty → Except Clash (List Data)
  | [] => .ok []
  | t :: ts => do
    let d ← describe t
    let ds ← describeAll ts
    return d :: ds

end

/-! ### Types whose names are texts -/

/-- The text of a datum, empty if it is none. -/
def textOf : Data → String
  | .text s => s
  | _ => ""

mutual

/-- All names in a type are texts, and its aliases are texts or null. -/
def Spelled : Ty → Prop
  | primitive name => ∃ s, name = .text s
  | named name aliasName _ =>
    (∃ s, name = .text s) ∧ (aliasName = .null ∨ ∃ s, aliasName = .text s)
  | array t => Spelled t
  | map t => Spelled t
  | union ts => AllSpelled ts
  | unspelled => True

/-- All names in several types are texts. -/
def AllSpelled : List Ty → Prop
  | [] => True
  | t :: ts => Spelled t ∧ AllSpelled ts

end

/-- The text of an array type, from whether its elements are of a union type and their text. -/
def arraySpelling (isUnion : Bool) (element : String) : String :=
  (if isUnion then "(" ++ element ++ ")" else element) ++ "[]"

/-- The text of a map type, from the text of its element type. -/
def mapSpelling (element : String) : String := "\x7b [key: string]: " ++ element ++ " \x7d"

mutual

/-- The text of a type whose names are texts. -/
def spelling : Ty → String
  | primitive name => textOf name
  | named name aliasName _ => textOf (shownName name aliasName)
  | array t => arraySpelling t.isUnion (spelling t)
  | map t => mapSpelling (spelling t)
  | union ts => " | ".intercalate (spellings ts)
  | unspelled => "unknown"

/-- The texts of several types. -/
def spellings : List Ty → List String
  | [] => []
  | t :: ts => spelling t :: spellings ts

end

/-- A type with texts for names is shown by a text. -/
theorem shownName_text {name aliasName : Data} (hn : ∃ s, name = .text s)
    (ha : aliasName = .null ∨ ∃ s, aliasName = .text s) :
    shownName name aliasName = .text (textOf (shownName name aliasName)) := by
  obtain ⟨s, rfl⟩ := hn
  rcases ha with rfl | ⟨t, rfl⟩
  · simp [shownName, Data.truthy, textOf]
  · by_cases h : t = "" <;> simp [shownName, Data.truthy, textOf, h]

/-- A list of texts is read as these texts. -/
theorem textsFrom_map_text (i : Nat) (ss : List String) :
    Data.textsFrom i (ss.map .text) = .ok ss := by
  induction ss generalizing i with
  | nil => rfl
  | cons s ss ih =>
    rw [List.map_cons, Data.textsFrom, ih]
    rfl

/-- An array of elements with a text is described by its spelling. -/
theorem describeArray_text (isUnion : Bool) (s : String) :
    describeArray isUnion (.text s) = .ok (.text (arraySpelling isUnion s)) := by
  cases isUnion <;> rfl

/-- And so is a map. -/
theorem describeMap_text (s : String) : describeMap (.text s) = .ok (.text (mapSpelling s)) := rfl

mutual

/-- A type whose names are texts has its spelling as its description. -/
theorem describe_of_spelled (t : Ty) (h : t.Spelled) : t.describe = .ok (.text t.spelling) := by
  match t with
  | primitive name =>
    simp only [Spelled] at h
    obtain ⟨s, rfl⟩ := h
    simp only [describe, spelling, textOf]
  | named name aliasName struct =>
    simp only [Spelled] at h
    simp only [describe, spelling]
    rw [← shownName_text h.1 h.2]
  | array t =>
    simp only [Spelled] at h
    simp only [describe, spelling, describe_of_spelled t h]
    exact describeArray_text t.isUnion t.spelling
  | map t =>
    simp only [Spelled] at h
    simp only [describe, spelling, describe_of_spelled t h]
    exact describeMap_text t.spelling
  | union ts =>
    simp only [Spelled] at h
    simp only [describe, spelling, describeAll_of_allSpelled ts h]
    simp [Data.join, textsFrom_map_text, bind, Except.bind, pure, Except.pure]
  | unspelled => simp only [describe, spelling]

/-- So it is for several types. -/
theorem describeAll_of_allSpelled (ts : List Ty) (h : AllSpelled ts) :
    describeAll ts = .ok ((spellings ts).map .text) := by
  match ts with
  | [] => simp [describeAll, spellings]
  | t :: ts =>
    simp only [AllSpelled] at h
    simp only [describeAll, spellings, describe_of_spelled t h.1,
      describeAll_of_allSpelled ts h.2]
    rfl

end

end Ty

end CodeSample
