/-!
# Output as structure

Generated code is a tree of fragments. A tree says how far its children are indented relative to it,
what separates them, and whether it may start on a line of its own; it says nothing about columns.
Fragments that are not there are passed over, among the children also those that write nothing.

* `Fragment.isSilent` are the fragments that are passed over among children;
* `Fragment.isEmpty` says that a tree has nothing to write;
* `Fragment.isPlain` says that a fragment holds only texts and is indented by whole numbers;
* `Fragment.flat` is the text without any layout.
-/

namespace CodeSample.Layout

/-- What is added to every line break inside the children of a tree. -/
inductive Indent where
  /-- A whole number of blanks; a negative one takes blanks away. -/
  | blanks (n : Int)
  /-- A number with a fraction: no line can break inside the children. -/
  | fraction
  /-- No number: there cannot be any children. -/
  | unfit
deriving DecidableEq, Repr, Inhabited

namespace Indent

/-- How many blanks are added. -/
def columns : Indent → Int
  | blanks n => n
  | _ => 0

/-- Whether it is a whole number of blanks. -/
def isWhole : Indent → Bool
  | blanks _ => true
  | _ => false

end Indent

/-- How the children of a tree are laid out. -/
structure Style where
  /-- What is added to every line break inside the children. -/
  indent : Indent := .blanks 0
  /-- What stands between the children; without one they are laid out as a block. -/
  separator : Option String := none
  /-- What follows the children. -/
  closing : Option String := none
  /-- Whether the tree starts on a line of its own among the children of a block. -/
  fresh : Bool := false
deriving DecidableEq, Repr, Inhabited

/-- A piece of output. -/
inductive Fragment where
  /-- Nothing. -/
  | nothing
  /-- A text. -/
  | text (s : String)
  /-- A value that is no text and cannot be written. -/
  | alien
  /-- A tree: fragments in front, children, and how they are laid out. -/
  | tree (front children : List Fragment) (style : Style)
deriving Inhabited

namespace Fragment

/-- Whether a fragment is one at all. -/
def isThere : Fragment → Bool
  | nothing => false
  | _ => true

/-- Whether a text is there and not empty. -/
def isWritten : Option String → Bool
  | some s => s != ""
  | none => false

mutual

/-- Whether a fragment is passed over among children: one that is not there, an empty text, or a
tree with nothing to write. -/
def isSilent : Fragment → Bool
  | nothing => true
  | text s => s == ""
  | alien => false
  | tree front children style =>
    !front.any isThere && allSilent children && !isWritten style.closing

/-- Whether all fragments are passed over among children. -/
def allSilent : List Fragment → Bool
  | [] => true
  | f :: fs => isSilent f && allSilent fs

end

/-- Whether a tree has nothing to write: no fragment in front, no child and nothing after them. -/
def isEmpty (f : Fragment) : Bool := isSilent f

/-- Whether a fragment starts on a line of its own among the children of a block. -/
def isFresh : Fragment → Bool
  | tree _ _ style => style.fresh
  | _ => false

mutual

/-- Whether a fragment holds only texts, and is indented by whole numbers of blanks. -/
def isPlain : Fragment → Bool
  | nothing => true
  | text _ => true
  | alien => false
  | tree front children style => allPlain front && allPlain children && style.indent.isWhole

/-- Whether all fragments hold only texts and are indented by whole numbers of blanks. -/
def allPlain : List Fragment → Bool
  | [] => true
  | f :: fs => isPlain f && allPlain fs

end

/-! ### Common trees -/

/-- The tree that writes nothing. -/
def empty : Fragment := tree [] [] {}

/-- Fragments one after the other. -/
def row (front : List Fragment) : Fragment := tree front [] {}

/-- Fragments one after the other, on a line of their own. -/
def line (front : List Fragment) : Fragment := tree front [] { fresh := true }

/-- Children as a block. -/
def block (children : List Fragment) : Fragment := tree [] children {}

/-- Children with a separator between them. -/
def separated (separator : String) (children : List Fragment) : Fragment :=
  tree [] children { separator := some separator }

/-- The empty fragment is found to be empty. -/
@[simp] theorem isEmpty_empty : isEmpty empty = true := by decide

/-! ### Text without layout -/

mutual

/-- The text of a fragment without any layout. -/
def flat : Fragment → String
  | nothing => ""
  | text s => s
  | alien => ""
  | tree front children style =>
    flats front ++ flatChildren style.separator true children ++ style.closing.getD ""

/-- The texts of fragments one after the other. -/
def flats : List Fragment → String
  | [] => ""
  | f :: fs => flat f ++ flats fs

/-- The texts of children with a separator between those that are not passed over; `first` says
that none has been written yet. -/
def flatChildren (separator : Option String) (first : Bool) : List Fragment → String
  | [] => ""
  | f :: fs =>
    if isSilent f then flatChildren separator first fs
    else (if first then "" else separator.getD "") ++ flat f ++ flatChildren separator false fs

end

end Fragment

end CodeSample.Layout
