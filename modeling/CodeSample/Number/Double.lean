/-!
# Binary64 numbers, exactly

A number that is written with a fraction or an exponent is a binary64 number. It is kept as its
exact value `± m · 2^e`, so that cutting off the fraction, adding and printing are arithmetic on
whole numbers.

* `ofRatio` and `ofDecimal` round to the nearest value, a tie to the even mantissa;
* `toInt?` cuts off the fraction;
* `ofInt?` is the value nearest to a whole number that is not too large;
* `shortest` gives the fewest decimal digits that round back to a value, and of those the nearest;
* `toText` writes them: positional for decimal exponents from -4 to 15, else with an exponent.
-/

namespace CodeSample

/-- A binary64 number: `± mantissa · 2^exponent`, an infinity, or what is not a number. -/
inductive Double where
  | finite (negative : Bool) (mantissa : Nat) (exponent : Int)
  | infinite (negative : Bool)
  | nan
deriving DecidableEq, Inhabited

namespace Double

/-! ### Rounding a ratio -/

/-- The ratio `num / den` in units of `2^e`, as a ratio again. -/
def inUnits (num den : Nat) : Int → Nat × Nat
  | .ofNat k => (num, den * Nat.pow 2 k)
  | .negSucc k => (num * Nat.pow 2 (k + 1), den)

/-- A ratio rounded to the nearest whole number, a tie to the even one. -/
def roundHalfEven (num den : Nat) : Nat :=
  let whole := num / den
  let rest := num % den
  if 2 * rest < den then whole
  else if den < 2 * rest then whole + 1
  else whole + whole % 2

/-- The value nearest to `± num / den`. A mantissa has at most 53 bits; the exponent is at least
-1074, and above 971 the value is an infinity. -/
def ofRatio (negative : Bool) (num den : Nat) : Double :=
  if num = 0 then finite negative 0 0
  else
    let guess := max ((num.log2 : Int) - den.log2 - 53) (-1074)
    let coarse := inUnits num den guess
    let e := if coarse.1 / coarse.2 < Nat.pow 2 53 then guess else guess + 1
    let fine := inUnits num den e
    let m := roundHalfEven fine.1 fine.2
    if m = 0 then finite negative 0 0
    else if m = Nat.pow 2 53 then
      if 970 < e then infinite negative else finite negative (Nat.pow 2 52) (e + 1)
    else if 971 < e then infinite negative
    else finite negative m e

/-- The value nearest to `± digits · 10^exponent`. -/
def ofDecimal (negative : Bool) (digits : Nat) (exponent : Int) : Double :=
  let size : Int := (Nat.toDigits 10 digits).length + exponent
  if digits = 0 ∨ size < -330 then finite negative 0 0
  else if 330 < size then infinite negative
  else match exponent with
    | .ofNat k => ofRatio negative (digits * Nat.pow 10 k) 1
    | .negSucc k => ofRatio negative digits (Nat.pow 10 (k + 1))

/-- The value nearest to a whole number, if that is no infinity. -/
def ofInt? (n : Int) : Option Double :=
  match ofRatio (n < 0) n.natAbs 1 with
  | infinite _ => none
  | x => some x

/-! ### Reading a value -/

/-- Whether the value is zero, of either sign. -/
def isZero : Double → Bool
  | finite _ m _ => m == 0
  | _ => false

/-- The whole number that is left when the fraction is cut off; only a finite value has one. -/
def toInt? : Double → Option Int
  | finite negative m e =>
    let size : Nat := match e with
      | .ofNat k => m * Nat.pow 2 k
      | .negSucc k => m / Nat.pow 2 (k + 1)
    some (if negative then -(size : Int) else size)
  | _ => none

/-- The whole number that is equal to the value, if there is one. -/
def exactInt? (x : Double) : Option Int :=
  match x, x.toInt? with
  | finite _ m (.negSucc k), some n => if m % Nat.pow 2 (k + 1) = 0 then some n else none
  | _, n => n

/-- The nearest value to the sum. Two infinities of different signs have none. -/
def add : Double → Double → Double
  | nan, _ => nan
  | _, nan => nan
  | infinite s, infinite t => if s = t then infinite s else nan
  | infinite s, finite _ _ _ => infinite s
  | finite _ _ _, infinite t => infinite t
  | finite s m e, finite t n f =>
    let unit := min e f
    let left : Int := (if s then -1 else 1) * (m * Nat.pow 2 (e - unit).toNat)
    let right : Int := (if t then -1 else 1) * (n * Nat.pow 2 (f - unit).toNat)
    let sum := left + right
    if sum = 0 then finite (s && t) 0 0
    else match unit with
      | .ofNat k => ofRatio (sum < 0) (sum.natAbs * Nat.pow 2 k) 1
      | .negSucc k => ofRatio (sum < 0) sum.natAbs (Nat.pow 2 (k + 1))

/-! ### The fewest digits that round back -/

/-- Whether `10^d` is at most `num / den`. -/
def powTenLe (num den : Nat) : Int → Bool
  | .ofNat k => Nat.pow 10 k * den ≤ num
  | .negSucc k => den ≤ num * Nat.pow 10 (k + 1)

/-- The greatest `d` with `10^d` at most `num / den`. The binary sizes give it up to one. -/
def decimalExponent (num den : Nat) : Int :=
  let guess := ((num.log2 : Int) - den.log2) * 30103 / 100000
  if powTenLe num den (guess + 1) then guess + 1
  else if powTenLe num den guess then guess
  else guess - 1

/-- The ratio `num / den` in units of `10^p`, as a ratio again. -/
def inTens (num den : Nat) : Int → Nat × Nat
  | .ofNat k => (num, den * Nat.pow 10 k)
  | .negSucc k => (num * Nat.pow 10 (k + 1), den)

/-- Of the two neighbours of a value on a decimal grid, the one that rounds back to it; of two, the
nearer, and the even one if they are equally near. `low`, `value` and `high` are numerators over
`den` in units of the grid, the bounds of what rounds to the value and the value itself; the bounds
count when `closed`. -/
def neighbour? (low value high den : Nat) (closed : Bool) : Option Nat :=
  let below := value / den
  let above := below + 1
  let belowHits := low < below * den || (closed && low == below * den)
  let aboveHits := above * den < high || (closed && above * den == high)
  if belowHits && aboveHits then some (roundHalfEven value den)
  else if belowHits then some below
  else if aboveHits then some above
  else none

/-- The fewest decimal digits that round back to `m · 2^e`, and the exponent of ten of the last. -/
def shortest (m : Nat) (e : Int) : Nat × Int :=
  -- quarters of a unit, because the gap below a power of two is half as wide
  let quarters (q : Nat) : Nat × Nat := match e - 2 with
    | .ofNat k => (q * Nat.pow 2 k, 1)
    | .negSucc k => (q, Nat.pow 2 (k + 1))
  let lowGap := if m = Nat.pow 2 52 ∧ -1074 < e then 1 else 2
  let value := quarters (4 * m)
  let low := quarters (4 * m - lowGap)
  let high := quarters (4 * m + 2)
  let top := decimalExponent value.1 value.2
  let grid (places : Nat) : Option (Nat × Int) :=
    let p := top - places
    let v := inTens value.1 value.2 p
    let l := inTens low.1 low.2 p
    let h := inTens high.1 high.2 p
    (neighbour? l.1 v.1 h.1 v.2 (m % 2 == 0)).map (·, p)
  ((List.range 17).findSome? grid).getD (0, 0)

/-! ### Text -/

/-- How decimal digits are laid out. -/
structure NumberStyle where
  /-- The least exponent that is written positionally. -/
  leastPositional : Int
  /-- The greatest exponent that is written positionally. -/
  greatestPositional : Int
  /-- The least number of digits of a written exponent. -/
  exponentWidth : Nat
  /-- What stands for an infinity. -/
  infinity : String
  /-- What stands for what is not a number. -/
  notNumber : String

/-- Numbers are positional from `0.0001` to below `10^16`, with a fraction always, and have
exponents of two digits at least. -/
def displayStyle : NumberStyle := ⟨-4, 15, 2, "inf", "nan"⟩

/-- Decimal digits of a number, padded with zeros on the left. -/
def padded (width n : Nat) : String :=
  let ds := Nat.toDigits 10 n
  String.ofList (List.replicate (width - ds.length) '0' ++ ds)

/-- Lays out digits without trailing zeros whose first one stands for `10^top`. -/
def layOut (style : NumberStyle) (digits : List Char) (top : Int) : String :=
  if style.leastPositional ≤ top ∧ top ≤ style.greatestPositional then
    match top with
    | .ofNat k =>
      let whole := digits.take (k + 1)
      let fraction := digits.drop (k + 1)
      String.ofList (whole ++ List.replicate (k + 1 - digits.length) '0') ++ "." ++
        (if fraction.isEmpty then "0" else String.ofList fraction)
    | .negSucc k => "0." ++ String.ofList (List.replicate k '0' ++ digits)
  else
    let head := String.ofList (digits.take 1)
    let tail := digits.drop 1
    let mantissa := if tail.isEmpty then head else head ++ "." ++ String.ofList tail
    mantissa ++ (if top < 0 then "e-" else "e+") ++ padded style.exponentWidth top.natAbs

/-- The text of a number. -/
def toTextIn (style : NumberStyle) (x : Double) : String :=
  match x with
  | nan => style.notNumber
  | infinite negative => (if negative then "-" else "") ++ style.infinity
  | finite negative m e =>
    let sign := if negative then "-" else ""
    if m = 0 then sign ++ layOut style ['0'] 0
    else
      let (digits, last) := shortest m e
      let ds := Nat.toDigits 10 digits
      let top := last + (ds.length - 1 : Nat)
      sign ++ layOut style ((ds.reverse.dropWhile (· == '0')).reverse) top

/-- The text of a number as messages show it. -/
def toText (x : Double) : String := toTextIn displayStyle x

end Double

end CodeSample
