import CodeSample.Data.Basic

/-!
# JSON text

Data are exchanged as JSON. A number without a fraction and an exponent is a whole number of any
size, every other number is binary64; the infinities and what is not a number have names. Of two
members with one name the later value counts, at the place of the earlier. Written text is ASCII.

* `ofJson?` reads a text that holds one datum and nothing else but blanks;
* `toJson` writes a datum.
-/

namespace CodeSample.Data

/-! ### Reading -/

/-- The four blanks that may stand between tokens. -/
def isJsonBlank (c : Char) : Bool := c == ' ' || c == '\t' || c == '\n' || c == '\r'

/-- What follows the blanks at the front. -/
def skipBlanks (cs : List Char) : List Char := cs.dropWhile isJsonBlank

/-- The value of a hexadecimal digit. -/
def hexValue? (c : Char) : Option Nat :=
  if c.isDigit then some (c.toNat - '0'.toNat)
  else if 'a' ≤ c ∧ c ≤ 'f' then some (c.toNat - 'a'.toNat + 10)
  else if 'A' ≤ c ∧ c ≤ 'F' then some (c.toNat - 'A'.toNat + 10)
  else none

/-- The number that four hexadecimal digits write, and what follows them. -/
def readUnit? : List Char → Option (Nat × List Char)
  | a :: b :: c :: d :: cs => do
    let a ← hexValue? a
    let b ← hexValue? b
    let c ← hexValue? c
    let d ← hexValue? d
    some (((a * 16 + b) * 16 + c) * 16 + d, cs)
  | _ => none

/-- The character after a `\u`: a high and a low surrogate together are one character, and a
surrogate that stands alone is replaced. -/
def readEscapedUnit? (cs : List Char) : Option (Char × List Char) := do
  let (high, rest) ← readUnit? cs
  if 0xd800 ≤ high ∧ high < 0xdc00 then
    match rest with
    | '\\' :: 'u' :: rest' =>
      let (low, rest'') ← readUnit? rest'
      if 0xdc00 ≤ low ∧ low < 0xe000 then
        some (Char.ofNat (0x10000 + (high - 0xd800) * 0x400 + (low - 0xdc00)), rest'')
      else some ('\ufffd', rest)
    | _ => some ('\ufffd', rest)
  else if 0xdc00 ≤ high ∧ high < 0xe000 then some ('\ufffd', rest)
  else some (Char.ofNat high, rest)

/-- The character that a one-letter escape stands for. -/
def shortEscape? : Char → Option Char
  | '"' => some '"'
  | '\\' => some '\\'
  | '/' => some '/'
  | 'b' => some '\x08'
  | 'f' => some '\x0c'
  | 'n' => some '\n'
  | 'r' => some '\r'
  | 't' => some '\t'
  | _ => none

/-- The characters up to the closing quote, last first, and what follows it. The fuel is more than
the length. -/
def readText? : Nat → List Char → List Char → Option (List Char × List Char)
  | 0, _, _ => none
  | fuel + 1, seen, cs =>
    match cs with
    | '"' :: rest => some (seen, rest)
    | '\\' :: 'u' :: rest => do
      let (c, rest) ← readEscapedUnit? rest
      readText? fuel (c :: seen) rest
    | '\\' :: e :: rest => do
      let c ← shortEscape? e
      readText? fuel (c :: seen) rest
    | c :: rest => readText? fuel (c :: seen) rest
    | [] => none

/-- The number that decimal digits write. -/
def ofDigits (cs : List Char) : Nat := cs.foldl (fun n c => 10 * n + (c.toNat - '0'.toNat)) 0

/-- The digits at the front, at least one, and what follows them. -/
def takeDigits? (cs : List Char) : Option (List Char × List Char) :=
  match cs.takeWhile Char.isDigit with
  | [] => none
  | ds => some (ds, cs.dropWhile Char.isDigit)

/-- The digits of a fraction, if a point follows, and what follows them. -/
def readFraction? : List Char → Option (List Char × List Char)
  | '.' :: cs => takeDigits? cs
  | cs => some ([], cs)

/-- The digits of an exponent after its letter and sign. -/
def readExponentDigits? (negative : Bool) (cs : List Char) : Option (Option Int × List Char) :=
  (takeDigits? cs).map fun (ds, rest) =>
    (some (if negative then -(ofDigits ds : Int) else ofDigits ds), rest)

/-- The exponent, if a letter for one follows, and what follows it. -/
def readExponent? : List Char → Option (Option Int × List Char)
  | c :: cs =>
    if c = 'e' ∨ c = 'E' then
      match cs with
      | '-' :: ds => readExponentDigits? true ds
      | '+' :: ds => readExponentDigits? false ds
      | ds => readExponentDigits? false ds
    else some (none, c :: cs)
  | [] => some (none, [])

/-- A number after its sign, and what follows it. -/
def readNumber? (negative : Bool) (cs : List Char) : Option (Data × List Char) := do
  let (whole, rest) ← takeDigits? cs
  let (fraction, rest) ← readFraction? rest
  let (exponent, rest) ← readExponent? rest
  if fraction.isEmpty && exponent.isNone then
    let n : Int := ofDigits whole
    some (int (if negative then -n else n), rest)
  else
    let scale := exponent.getD 0 - fraction.length
    some (float (Double.ofDecimal negative (ofDigits (whole ++ fraction)) scale), rest)

/-- A member added to an object: a name that is there keeps its place and takes the value. -/
def putMember (members : List (String × Data)) (name : String) (value : Data) :
    List (String × Data) :=
  if members.any (·.1 == name) then
    members.map fun m => if m.1 == name then (name, value) else m
  else members ++ [(name, value)]

mutual

/-- A datum at the front of a text, and what follows it. The fuel is more than twice the length, as
a character that opens a list costs two steps. -/
def readDatum? : Nat → List Char → Option (Data × List Char)
  | 0, _ => none
  | fuel + 1, cs =>
    match skipBlanks cs with
    | 'n' :: 'u' :: 'l' :: 'l' :: rest => some (null, rest)
    | 't' :: 'r' :: 'u' :: 'e' :: rest => some (bool true, rest)
    | 'f' :: 'a' :: 'l' :: 's' :: 'e' :: rest => some (bool false, rest)
    | '"' :: rest => do
      let (s, rest) ← readText? fuel [] rest
      some (text (String.ofList s.reverse), rest)
    | '[' :: rest =>
      match skipBlanks rest with
      | ']' :: rest => some (list [], rest)
      | rest => readItems? fuel [] rest
    | '\x7b' :: rest =>
      match skipBlanks rest with
      | '\x7d' :: rest => some (object [], rest)
      | rest => readMembers? fuel [] rest
    | 'N' :: 'a' :: 'N' :: rest => some (float .nan, rest)
    | 'I' :: 'n' :: 'f' :: 'i' :: 'n' :: 'i' :: 't' :: 'y' :: rest =>
      some (float (.infinite false), rest)
    | '-' :: 'I' :: 'n' :: 'f' :: 'i' :: 'n' :: 'i' :: 't' :: 'y' :: rest =>
      some (float (.infinite true), rest)
    | '-' :: rest => readNumber? true rest
    | rest => readNumber? false rest

/-- The items of a list from one of them on, after those already read, last first. -/
def readItems? : Nat → List Data → List Char → Option (Data × List Char)
  | 0, _, _ => none
  | fuel + 1, seen, cs => do
    let (d, rest) ← readDatum? fuel cs
    match skipBlanks rest with
    | ',' :: rest => readItems? fuel (d :: seen) rest
    | ']' :: rest => some (list (d :: seen).reverse, rest)
    | _ => none

/-- The members of an object from one of them on, after those already read. -/
def readMembers? : Nat → List (String × Data) → List Char → Option (Data × List Char)
  | 0, _, _ => none
  | fuel + 1, seen, cs =>
    match skipBlanks cs with
    | '"' :: rest => do
      let (name, rest) ← readText? fuel [] rest
      match skipBlanks rest with
      | ':' :: rest =>
        let (d, rest) ← readDatum? fuel rest
        let seen := putMember seen (String.ofList name.reverse) d
        match skipBlanks rest with
        | ',' :: rest => readMembers? fuel seen rest
        | '\x7d' :: rest => some (object seen, rest)
        | _ => none
      | _ => none
    | _ => none

end

/-- The datum that a text holds. -/
def ofJson? (s : String) : Option Data :=
  let cs := s.toList
  match readDatum? (2 * cs.length + 1) cs with
  | some (d, rest) => if (skipBlanks rest).isEmpty then some d else none
  | none => none

/-! ### Writing -/

/-- Four hexadecimal digits after `\u`. -/
def writeUnit (n : Nat) : List Char :=
  let ds := Nat.toDigits 16 n
  '\\' :: 'u' :: (List.replicate (4 - ds.length) '0' ++ ds)

/-- A character of a text: printable ASCII as it is but for the quote and the backslash, all else
by its one or two UTF-16 units. -/
def writeChar (c : Char) : List Char :=
  if c = '"' ∨ c = '\\' then ['\\', c]
  else if ' ' ≤ c ∧ c ≤ '~' then [c]
  else if c.toNat < 0x10000 then writeUnit c.toNat
  else
    let n := c.toNat - 0x10000
    writeUnit (0xd800 + n / 0x400) ++ writeUnit (0xdc00 + n % 0x400)

/-- A text in quotes. -/
def writeText (s : String) : String := "\"" ++ String.ofList (s.toList.flatMap writeChar) ++ "\""

/-- Numbers are written as messages show them, but for the names of the special ones. -/
def jsonNumbers : Double.NumberStyle :=
  { Double.displayStyle with infinity := "Infinity", notNumber := "NaN" }

mutual

/-- A datum as JSON. -/
def toJson : Data → String
  | null => "null"
  | bool b => if b then "true" else "false"
  | int n => toString n
  | float x => x.toTextIn jsonNumbers
  | text s => writeText s
  | list xs => "[" ++ itemsToJson xs ++ "]"
  | object ms => "\x7b" ++ membersToJson ms ++ "\x7d"

/-- Items between commas. -/
def itemsToJson : List Data → String
  | [] => ""
  | [x] => toJson x
  | x :: xs => toJson x ++ "," ++ itemsToJson xs

/-- Members between commas. -/
def membersToJson : List (String × Data) → String
  | [] => ""
  | [(k, x)] => writeText k ++ ":" ++ toJson x
  | (k, x) :: ms => writeText k ++ ":" ++ toJson x ++ "," ++ membersToJson ms

end

end CodeSample.Data
