/-!
# White space

The characters that count as blank when a line of output is asked whether anything stands on it,
and around a whole number written as text. It is the Unicode property `White_Space` together with
the four information separators U+001C to U+001F.

* `isBlank_of_isWhitespace`: every blank of core is one of them.
-/

namespace CodeSample.Text

/-- Whether a character is white space. -/
def isBlank (c : Char) : Bool :=
  let n := c.toNat
  (9 ≤ n && n ≤ 13) || (28 ≤ n && n ≤ 32) || n == 0x85 || n == 0xa0 || n == 0x1680 ||
    (0x2000 ≤ n && n ≤ 0x200a) || n == 0x2028 || n == 0x2029 || n == 0x202f || n == 0x205f ||
    n == 0x3000

/-- What is whitespace is blank. -/
theorem isBlank_of_isWhitespace {c : Char} (h : c.isWhitespace = true) : isBlank c = true := by
  simp only [Char.isWhitespace, Bool.or_eq_true, decide_eq_true_eq] at h
  rcases h with ((rfl | rfl) | rfl) | rfl <;> decide

/-- A space is blank. -/
theorem isBlank_space : isBlank ' ' = true := by decide

/-- A line break is blank. -/
theorem isBlank_newline : isBlank '\n' = true := by decide

end CodeSample.Text
