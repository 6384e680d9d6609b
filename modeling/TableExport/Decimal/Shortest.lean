/-!
# The fewest decimal digits that identify a binary number

A finite binary number `m · 2 ^ q` stands for all reals that round to it. Its shortest decimal is the one with the
fewest digits inside that interval, and of those the nearest. All arithmetic is on natural numbers.

- `Binary.ofBits` decodes the bits of a double.
- `Binary.identifiedBy` tests whether a decimal lies in the interval.
- `Binary.shortest` selects the decimal.
-/

namespace TableExport.Decimal

/-- A power of two. -/
def twoTo (n : Nat) : Nat := Nat.pow 2 n

/-- A power of ten. -/
def tenTo (n : Nat) : Nat := Nat.pow 10 n

/-- A finite non-negative double: `mantissa · 2 ^ exponent`. -/
structure Binary where
  mantissa : Nat
  /-- The exponent of two. -/
  exponent : Int
  /-- The neighbour below is only half as far away as the neighbour above. -/
  narrowBelow : Bool
deriving Repr, DecidableEq

/-- A decimal: `digits · 10 ^ exponent`. -/
structure Digits where
  digits : Nat
  exponent : Int
deriving Repr, DecidableEq

/-- Which of two equally near decimals is taken. -/
inductive Tie where
  /-- The one with an even last digit. -/
  | toEven
  /-- The larger one. -/
  | up
deriving Repr, DecidableEq

namespace Binary

/-- The number that the bits of a finite double stand for, without its sign. -/
def ofBits (bits : UInt64) : Binary :=
  let e := ((bits >>> 52) &&& 0x7FF).toNat
  let f := (bits &&& 0xFFFFFFFFFFFFF).toNat
  if e = 0 then ⟨f, -1074, false⟩
  else ⟨twoTo 52 + f, (e : Int) - 1075, f = 0 && e > 1⟩

/-- Compares `a · 10 ^ i` with `n · 2 ^ j`. -/
def compareScaled (a : Nat) (i : Int) (n : Nat) (j : Int) : Ordering :=
  compare (a * tenTo i.toNat * twoTo (-j).toNat) (n * twoTo j.toNat * tenTo (-i).toNat)

/-- The decimal lies in the interval of reals that round to the number; its ends belong to it exactly for an even
mantissa. -/
def identifiedBy (x : Binary) (d : Digits) : Bool :=
  let low := if x.narrowBelow then 4 * x.mantissa - 1 else 4 * x.mantissa - 2
  let high := 4 * x.mantissa + 2
  let closed := x.mantissa % 2 = 0
  let below := compareScaled d.digits d.exponent low (x.exponent - 2)
  let above := compareScaled d.digits d.exponent high (x.exponent - 2)
  (below = .gt || (closed && below = .eq)) && (above = .lt || (closed && above = .eq))

/-- The least `k` with the number below `10 ^ k`, for a number other than zero. -/
def magnitude (x : Binary) : Int :=
  let scaled := x.mantissa * twoTo x.exponent.toNat * tenTo 350 / twoTo (-x.exponent).toNat
  ((Nat.toDigits 10 scaled).length : Int) - 350

/-- The whole multiples of `10 ^ g` in the number. -/
def multiples (x : Binary) (g : Int) : Nat :=
  x.mantissa * twoTo x.exponent.toNat * tenTo (-g).toNat / (twoTo (-x.exponent).toNat * tenTo g.toNat)

/-- The decimal on the grid of `10 ^ g` that identifies the number; the nearer one if both neighbours do. -/
def onGrid? (tie : Tie) (x : Binary) (g : Int) : Option Digits :=
  let n := x.multiples g
  match x.identifiedBy ⟨n, g⟩, x.identifiedBy ⟨n + 1, g⟩ with
  | true, false => some ⟨n, g⟩
  | false, true => some ⟨n + 1, g⟩
  | false, false => none
  | true, true =>
    match compareScaled (2 * n + 1) g (2 * x.mantissa) x.exponent with
    | .gt => some ⟨n, g⟩
    | .lt => some ⟨n + 1, g⟩
    | .eq => some ⟨if tie = .toEven && n % 2 = 0 then n else n + 1, g⟩

/-- The decimal with the fewest digits that identifies the number. -/
def shortest (tie : Tie) (x : Binary) : Digits :=
  if x.mantissa = 0 then ⟨0, 0⟩
  else
    let k := x.magnitude
    ((List.range 17).findSome? fun (n : Nat) => x.onGrid? tie (k - (n + 1))).getD ⟨x.multiples (k - 17), k - 17⟩

end Binary

/-- The digits of a decimal without the zeros at their end, and the exponent of ten of the first digit. -/
def Digits.significant (d : Digits) : List Char × Int :=
  let ds := Nat.toDigits 10 d.digits
  let stripped := (ds.reverse.dropWhile (· = '0')).reverse
  (if stripped = [] then ['0'] else stripped, (ds.length : Int) - 1 + d.exponent)

/-- Positional text: at least one digit on each side of the point. -/
def positional (ds : List Char) (e : Int) : List Char :=
  if e < 0 then ['0', '.'] ++ List.replicate (-e - 1).toNat '0' ++ ds
  else
    let n := e.toNat + 1
    let whole := ds.take n ++ List.replicate (n - ds.length) '0'
    let fraction := ds.drop n
    whole ++ ['.'] ++ (if fraction = [] then ['0'] else fraction)

/-- Scientific text: one digit in front of the point, a signed exponent. -/
def scientific (ds : List Char) (e : Int) : List Char :=
  let mantissa :=
    match ds with
    | [] => []
    | [d] => [d]
    | d :: rest => d :: '.' :: rest
  mantissa ++ ['e', if e < 0 then '-' else '+'] ++ Nat.toDigits 10 e.natAbs

/-- The sign of a double in front of its text. -/
def signed (x : Float) (text : List Char) : List Char :=
  if x.toBits >>> 63 = 1 then '-' :: text else text

/-- The significant digits of a finite double. -/
def significantOf (tie : Tie) (x : Float) : List Char × Int :=
  ((Binary.ofBits x.toBits).shortest tie).significant

end TableExport.Decimal
