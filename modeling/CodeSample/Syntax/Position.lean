/-!
# Places in the source

Where a node stands, as its parser told. `Pos.unknown` is the place of a node about which nothing
was told; a place without a positive line is not shown in messages and not written.
-/

namespace CodeSample

/-- A place in the source: lines count from one and columns from zero. A line that is not positive
says that the place is not known. -/
structure Pos where
  line : Int
  col : Int
deriving DecidableEq, Repr, Inhabited

namespace Pos

/-- The place of a node whose parser recorded none. -/
def unknown : Pos := ⟨0, 0⟩

/-- Whether a place is known. -/
def isKnown (p : Pos) : Bool := 0 < p.line

end Pos

end CodeSample
