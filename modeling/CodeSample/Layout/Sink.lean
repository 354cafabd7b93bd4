import CodeSample.Layout.Fragment
import CodeSample.Text.Blank

/-!
# Layout

A sink collects text and keeps track of the indentation. After each line break it writes as many
blanks as the current level asks for. When all is written, blanks and tabs at line ends are dropped.

* `Sink.put` writes a text, `Sink.write` a fragment;
* `Sink.freshLine` breaks the line unless it is blank;
* `Sink.push` and `Sink.pop?` change the level and undo the last change;
* `Sink.write?` finds out whether a fragment can be written, `write?_of_isPlain` says when it can;
* `Sink.step?` takes any of these steps;
* `Sink.text` is what has been written, without blanks at line ends, and `Fragment.render` what a
  fragment writes into an empty sink.
-/

namespace CodeSample.Layout

/-- What has been written, the part of it on the current line, and the levels of indentation: the
current one first, below it those that are restored. -/
structure Sink where
  level : Int := 0
  outer : List Int := []
  written : String := ""
  line : String := ""
deriving DecidableEq, Repr, Inhabited

namespace Sink

/-! ### Writing text -/

/-- The blanks after a line break at a level; none at a negative one. -/
def margin (level : Int) : String := String.ofList (List.replicate level.toNat ' ')

/-- Writes a character, and after a line break the blanks of the current level. -/
def putChar (s : Sink) (c : Char) : Sink :=
  if c = '\n' then
    { s with written := (s.written.push '\n') ++ margin s.level, line := margin s.level }
  else { s with written := s.written.push c, line := s.line.push c }

/-- Writes a text. -/
def put (s : Sink) (t : String) : Sink := t.toList.foldl putChar s

/-- Breaks the line unless nothing but white space stands on it. -/
def freshLine (s : Sink) : Sink := if s.line.toList.all Text.isBlank then s else s.put "\n"

/-! ### Levels -/

/-- Changes the level. -/
def push (s : Sink) (delta : Int) : Sink :=
  { s with level := s.level + delta, outer := s.level :: s.outer }

/-- Undoes the last change of the level that has not been undone. -/
def pop? (s : Sink) : Option Sink :=
  match s.outer with
  | [] => none
  | level :: outer => some { s with level, outer }

/-- Undoes the last change of the level, if there is one. -/
def pop (s : Sink) : Sink := s.pop?.getD s

/-! ### Writing fragments -/

mutual

/-- Writes a fragment. -/
def write (s : Sink) : Fragment → Sink
  | .nothing => s
  | .text t => s.put t
  | .alien => s
  | .tree front children style =>
    let s := s.writeAll front
    let s := s.push (if Fragment.allSilent children then 0 else style.indent.columns)
    let s := s.writeChildren style.separator true children
    s.pop.put (style.closing.getD "")

/-- Writes fragments one after the other. -/
def writeAll (s : Sink) : List Fragment → Sink
  | [] => s
  | f :: fs => (s.write f).writeAll fs

/-- Writes the children that are not passed over. Those of a block that ask for a line of their own
get one; `first` says that none has been written yet. -/
def writeChildren (s : Sink) (separator : Option String) (first : Bool) : List Fragment → Sink
  | [] => s
  | f :: fs =>
    if f.isSilent then s.writeChildren separator first fs
    else
      let s := if first then s else s.put (separator.getD "")
      let s := if separator.isNone && f.isFresh then s.freshLine else s
      (s.write f).writeChildren separator false fs

end

/-! ### What cannot be written -/

/-- What keeps something from being done to a sink. -/
inductive Obstacle where
  /-- A value is no text. -/
  | alien
  /-- An indentation is no whole number. -/
  | indent
  /-- No change of the level is left to undo. -/
  | noChange
deriving DecidableEq, Repr, Inhabited

/-- Writes a text. Lines break only where they are `breakable`. -/
def put? (s : Sink) (breakable : Bool) (t : String) : Except Obstacle Sink :=
  if breakable || !t.toList.contains '\n' then .ok (s.put t) else .error .indent

/-- Breaks the line unless nothing but white space stands on it. -/
def freshLine? (s : Sink) (breakable : Bool) : Except Obstacle Sink :=
  if s.line.toList.all Text.isBlank then .ok s else s.put? breakable "\n"

mutual

/-- Writes a fragment, up to the first thing in it that cannot be written. -/
def write? (s : Sink) (breakable : Bool) : Fragment → Except Obstacle Sink
  | .nothing => .ok s
  | .text t => s.put? breakable t
  | .alien => .error .alien
  | .tree front children style => do
    let s ← s.writeAll? breakable front
    let silent := Fragment.allSilent children
    if !silent && style.indent = .unfit then .error .indent
    else
      let s := s.push (if silent then 0 else style.indent.columns)
      let breakableInside := breakable && style.indent ≠ .fraction
      let s ← s.writeChildren? breakableInside style.separator true children
      s.pop.put? breakable (style.closing.getD "")

/-- Writes fragments one after the other. -/
def writeAll? (s : Sink) (breakable : Bool) : List Fragment → Except Obstacle Sink
  | [] => .ok s
  | f :: fs => do
    let s ← s.write? breakable f
    s.writeAll? breakable fs

/-- Writes the children that are not passed over, each on a line of its own if it asks for one. -/
def writeChildren? (s : Sink) (breakable : Bool) (separator : Option String) (first : Bool) :
    List Fragment → Except Obstacle Sink
  | [] => .ok s
  | f :: fs =>
    if f.isSilent then s.writeChildren? breakable separator first fs
    else do
      let s ← (if first then .ok s else s.put? breakable (separator.getD ""))
      let s ← (if separator.isNone && f.isFresh then s.freshLine? breakable else .ok s)
      let s ← s.write? breakable f
      s.writeChildren? breakable separator false fs

end

/-- Texts can be put into a breakable sink. -/
theorem put?_true (s : Sink) (t : String) : s.put? true t = .ok (s.put t) := rfl

/-- So can line breaks. -/
theorem freshLine?_true (s : Sink) : s.freshLine? true = .ok s.freshLine := by
  rw [freshLine?, freshLine]
  split <;> rfl

/-- Fragments are written one after the other. -/
theorem writeAll?_append (s : Sink) (breakable : Bool) (fs gs : List Fragment) :
    s.writeAll? breakable (fs ++ gs) =
      s.writeAll? breakable fs >>= fun s => s.writeAll? breakable gs := by
  induction fs generalizing s with
  | nil => rw [List.nil_append, writeAll?]; rfl
  | cons f fs ih =>
    rw [List.cons_append, writeAll?, writeAll?, bind_assoc]
    exact bind_congr fun s => ih s

mutual

/-- A fragment that holds only texts and is indented by whole numbers can be written. -/
theorem write?_of_isPlain (s : Sink) : ∀ {f : Fragment}, f.isPlain = true →
    s.write? true f = .ok (s.write f)
  | .nothing, _ => by rw [write?, write]
  | .text t, _ => by rw [write?, write, put?_true]
  | .alien, h => by simp [Fragment.isPlain] at h
  | .tree front children style, h => by
    rw [Fragment.isPlain, Bool.and_eq_true, Bool.and_eq_true] at h
    obtain ⟨⟨hfront, hchildren⟩, hindent⟩ := h
    have hunfit : style.indent ≠ .unfit := fun he => by simp [he, Indent.isWhole] at hindent
    have hfraction : style.indent ≠ .fraction := fun he => by simp [he, Indent.isWhole] at hindent
    rw [write?, write, writeAll?_of_allPlain s hfront]
    simp [bind, Except.bind, hunfit, hfraction, writeChildren?_of_allPlain _ _ _ hchildren,
      put?_true]

/-- Plain fragments can be written one after the other. -/
theorem writeAll?_of_allPlain (s : Sink) : ∀ {fs : List Fragment}, Fragment.allPlain fs = true →
    s.writeAll? true fs = .ok (s.writeAll fs)
  | [], _ => by rw [writeAll?, writeAll]
  | f :: fs, h => by
    rw [Fragment.allPlain, Bool.and_eq_true] at h
    rw [writeAll?, writeAll, write?_of_isPlain s h.1]
    exact writeAll?_of_allPlain _ h.2

/-- And so they can as the children of a tree. -/
theorem writeChildren?_of_allPlain (s : Sink) (separator : Option String) (first : Bool) :
    ∀ {fs : List Fragment}, Fragment.allPlain fs = true →
    s.writeChildren? true separator first fs = .ok (s.writeChildren separator first fs)
  | [], _ => by rw [writeChildren?, writeChildren]
  | f :: fs, h => by
    rw [Fragment.allPlain, Bool.and_eq_true] at h
    rw [writeChildren?, writeChildren]
    split
    · exact writeChildren?_of_allPlain _ _ _ h.2
    · cases first <;> cases separator.isNone && f.isFresh <;>
        simp [bind, Except.bind, put?_true, freshLine?_true, write?_of_isPlain _ h.1,
          writeChildren?_of_allPlain _ _ _ h.2]

end

/-! ### Steps -/

/-- Something that is done to a sink. -/
inductive Step where
  /-- To write a fragment. -/
  | write (f : Fragment)
  /-- To break the line unless it is blank. -/
  | freshLine
  /-- To change the level. -/
  | push (delta : Int)
  /-- To undo the last change of the level. -/
  | pop

/-- Takes a step. Not every fragment can be written, and a change of the level that was not made
cannot be undone. -/
def step? (s : Sink) : Step → Except Obstacle Sink
  | .write f => s.write? true f
  | .freshLine => .ok s.freshLine
  | .push delta => .ok (s.push delta)
  | .pop =>
    match s.pop? with
    | some s => .ok s
    | none => .error .noChange

/-! ### Line ends -/

/-- Drops the blanks and tabs that stand at the end of a line. -/
def stripLineEnds (cs : List Char) : List Char :=
  cs.foldr (fun c rest =>
    if (c = ' ' ∨ c = '\t') ∧ (rest = [] ∨ rest.head? = some '\n') then rest else c :: rest) []

/-- What has been written, without blanks and tabs at line ends. -/
def text (s : Sink) : String := String.ofList (stripLineEnds s.written.toList)

end Sink

/-- The text that a fragment writes into an empty sink. -/
def Fragment.render (f : Fragment) : String := (Sink.write {} f).text

end CodeSample.Layout
