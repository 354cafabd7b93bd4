import CodeSample.Text.Blank

/-!
# Whole numbers written as text

The grammar: blanks, an optional sign, digits with single underscores between them, blanks. The
digits may be those of any script. A text that is ASCII throughout allows the six blanks of ASCII
around the number; any other text allows white space of every kind beyond ASCII too. No number of
more than 4300 digits is read or written.

* `digitValue?` is the value of a decimal digit;
* `readWhole?` reads a text;
* `isWritable` says whether a number has few enough digits to be written.
-/

namespace CodeSample.Number

open CodeSample.Text

/-- The zeros of the scripts that have decimal digits; the digits one to nine follow each. -/
def digitZeros : List Nat := [
  0x30, 0x660, 0x6f0, 0x7c0, 0x966, 0x9e6, 0xa66, 0xae6, 0xb66, 0xbe6, 0xc66, 0xce6, 0xd66, 0xde6,
  0xe50, 0xed0, 0xf20, 0x1040, 0x1090, 0x17e0, 0x1810, 0x1946, 0x19d0, 0x1a80, 0x1a90, 0x1b50,
  0x1bb0, 0x1c40, 0x1c50, 0xa620, 0xa8d0, 0xa900, 0xa9d0, 0xa9f0, 0xaa50, 0xabf0, 0xff10, 0x104a0,
  0x10d30, 0x11066, 0x110f0, 0x11136, 0x111d0, 0x112f0, 0x11450, 0x114d0, 0x11650, 0x116c0,
  0x11730, 0x118e0, 0x11950, 0x11c50, 0x11d50, 0x11da0, 0x16a60, 0x16ac0, 0x16b50, 0x1d7ce,
  0x1d7d8, 0x1d7e2, 0x1d7ec, 0x1d7f6, 0x1e140, 0x1e2f0, 0x1e950, 0x1fbf0]

/-- The value of a decimal digit of any script. -/
def digitValue? (c : Char) : Option Nat :=
  (digitZeros.find? fun z => z ≤ c.toNat && c.toNat < z + 10).map (c.toNat - ·)

/-- A blank that may stand around a number: one of ASCII's six, or white space beyond ASCII. -/
def isMargin (c : Char) : Bool :=
  c == ' ' || (9 ≤ c.toNat && c.toNat ≤ 13) || (127 < c.toNat && isBlank c)

/-- Reads digits with single underscores between them, after the value so far. -/
def readDigits? (value : Nat) : List Char → Option Nat
  | [] => some value
  | '_' :: c :: cs => do
    let d ← digitValue? c
    readDigits? (10 * value + d) cs
  | c :: cs => do
    let d ← digitValue? c
    readDigits? (10 * value + d) cs

/-- The greatest number of digits, zeros at the front included. -/
def digitLimit : Nat := 4300

/-- Reads a number without a sign. -/
def readMagnitude? (cs : List Char) : Option Nat :=
  if digitLimit < (cs.filter (· != '_')).length then none
  else match cs with
    | [] => none
    | c :: cs => do
      let d ← digitValue? c
      readDigits? d cs

/-- Reads a number with an optional sign. -/
def readSigned? : List Char → Option Int
  | '-' :: cs => (readMagnitude? cs).map fun n => -(n : Int)
  | '+' :: cs => (readMagnitude? cs).map Int.ofNat
  | cs => (readMagnitude? cs).map Int.ofNat

/-- The whole number that a text writes, or nothing if it writes none. -/
def readWhole? (s : String) : Option Int :=
  readSigned? (((s.toList.dropWhile isMargin).reverse.dropWhile isMargin).reverse)

/-- Whether a number has few enough digits to be written. -/
def isWritable (n : Int) : Bool := n.natAbs < Nat.pow 10 digitLimit

end CodeSample.Number
