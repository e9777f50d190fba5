/-!
# Binary64 numbers written in decimal

A number is read as a decimal significand below 2^64 with a power of ten, scaled step by step in
binary64 arithmetic, and written with the fewest digits that read back to it.

`digits` works on the exact value: a finite positive number is `m * 2 ^ q`, and the reals that
round to it form an interval around it. On the grid of `k`-digit decimals the two neighbours of
the value are tried for `k = 1, 2, …`; the first grid with a neighbour inside the interval gives
the digits.
-/
namespace Keyline.Binary64

/-- Sign, significand and power of ten of a decimal. -/
structure Decimal where
  negative : Bool
  significand : Nat
  exponent : Int
  deriving Repr, DecidableEq

/-- The power of ten `10 ^ n` nearest in binary64; exact division and product use it up to 308. -/
def powerOfTen (n : Nat) : Float := Float.ofScientific 1 false n

/-- Divides by powers of ten until the exponent is within 308. -/
def scaleDown (f : Float) (n : Nat) : Float :=
  if n ≤ 308 then f / powerOfTen n
  else if f == 0 then f
  else scaleDown (f / powerOfTen 308) (n - 308)
termination_by n

/-- The magnitude `s * 10 ^ e`, or `none` if it is too large. -/
def scale (s : Nat) (e : Int) : Option Float :=
  let f := (UInt64.ofNat s).toFloat
  if e < 0 then some (scaleDown f (-e).toNat)
  else if e ≤ 308 then
    let g := f * powerOfTen e.toNat
    if g.isInf then none else some g
  else if f == 0 then some f
  else none

def ofDecimal? (d : Decimal) : Option Float :=
  (scale d.significand d.exponent).map fun f => if d.negative then -f else f

/-- The value `m * 2 ^ q` of a finite magnitude, and whether the gap below it is half as wide. -/
structure Parts where
  m : Nat
  q : Int
  narrowBelow : Bool
  deriving Repr, DecidableEq

def parts (f : Float) : Parts :=
  let bits := f.toBits.toNat
  let fraction : Nat := bits % 0x10000000000000
  let exponent : Nat := bits / 0x10000000000000 % 0x800
  if exponent = 0 then ⟨fraction, -1074, false⟩
  else ⟨0x10000000000000 + fraction, exponent - 1075, fraction = 0 && 1 < exponent⟩

/-- Compares `d * 10 ^ e` with `a / 4 * 2 ^ q`. -/
def compareScaled (d : Nat) (e : Int) (a : Nat) (q : Int) : Ordering :=
  let left := 4 * d * Nat.pow 10 e.toNat * Nat.pow 2 (-q).toNat
  let right := a * Nat.pow 2 q.toNat * Nat.pow 10 (-e).toNat
  compare left right

/-- Whether `d * 10 ^ e` rounds to the number; the ends of the interval do so if `m` is even. -/
def Parts.reads (p : Parts) (d : Nat) (e : Int) : Bool :=
  let low := 4 * p.m - (if p.narrowBelow then 1 else 2)
  let high := 4 * p.m + 2
  let even := p.m % 2 = 0
  let above := compareScaled d e low p.q
  let below := compareScaled d e high p.q
  (above == .gt || (even && above == .eq)) && (below == .lt || (even && below == .eq))

/-- Largest `d` with `d * 10 ^ e` at most `m * 2 ^ q`. -/
def Parts.floor (p : Parts) (e : Int) : Nat :=
  p.m * Nat.pow 2 p.q.toNat * Nat.pow 10 (-e).toNat /
    (Nat.pow 10 e.toNat * Nat.pow 2 (-p.q).toNat)

/-- Whether `d + 1` is nearer to the number than `d` on the grid of `10 ^ e`. -/
def Parts.nearerAbove (p : Parts) (d : Nat) (e : Int) : Bool :=
  match compareScaled (2 * d + 1) e (8 * p.m) p.q with
  | .lt => true
  | .eq => d % 2 = 1
  | .gt => false

/-- The better neighbour on the grid of `10 ^ e`, if one of the two reads back. -/
def Parts.onGrid (p : Parts) (e : Int) : Option Nat :=
  let d := p.floor e
  match p.reads d e, p.reads (d + 1) e with
  | true, true => some (if p.nearerAbove d e then d + 1 else d)
  | true, false => some d
  | false, true => some (d + 1)
  | false, false => none

/-- Number of decimal digits before the point, negative for leading zeros after it. -/
def Parts.magnitude (p : Parts) : Int :=
  let n := p.m * Nat.pow 2 p.q.toNat
  let d := Nat.pow 2 (-p.q).toNat
  if d ≤ n then (toString (n / d)).length
  else
    -- `n / d < 1`: count the zeros after the point.
    let digits : Int := (toString (d / n)).length
    if d = n * Nat.pow 10 (digits - 1).toNat then 2 - digits else 1 - digits

/-- Tries the grids of `k`, `k + 1`, … digits. -/
def Parts.firstGrid (p : Parts) (magnitude : Int) (k : Nat) : Nat → Nat × Int
  | 0 => (p.floor (magnitude - k), magnitude - k)
  | fuel + 1 =>
    match p.onGrid (magnitude - k) with
    | some d => (d, magnitude - k)
    | none => p.firstGrid magnitude (k + 1) fuel

def trim (d : Nat) (e : Int) : Nat × Int :=
  if h : d ≠ 0 ∧ d % 10 = 0 then trim (d / 10) (e + 1) else (d, e)
termination_by d
decreasing_by omega

/-- The fewest digits that read back to a finite number, as `d * 10 ^ e`. -/
def digits (f : Float) : Nat × Int :=
  let p := parts f
  if p.m = 0 then (0, 0)
  else
    let (d, e) := p.firstGrid p.magnitude 1 17
    trim d e

/-- Which decimals are written without an exponent: the point stands after at most `last` digits
and before at most `first` zeros. -/
structure Layout where
  first : Nat
  last : Nat
  deriving Repr, DecidableEq

/-- Positional from `0.00001` to below `10 ^ 16`. -/
def layout : Layout := ⟨4, 16⟩

def zeros (n : Nat) : String := String.ofList (List.replicate n '0')

/-- Digits `ds` of `d`, of value `d * 10 ^ e`, with a point; a whole number ends in `.0`. -/
def point (ds : String) (e : Int) : String :=
  let place : Int := ds.length + e
  if 0 ≤ e then ds ++ zeros e.toNat ++ ".0"
  else if 0 < place then
    String.ofList (ds.toList.take place.toNat) ++ "." ++ String.ofList (ds.toList.drop place.toNat)
  else "0." ++ zeros (-place).toNat ++ ds

/-- One digit, a point if more follow, and a signed exponent. -/
def scientific (ds : String) (e : Int) : String :=
  let head := String.ofList (ds.toList.take 1)
  let tail := String.ofList (ds.toList.drop 1)
  let exponent : Int := ds.length + e - 1
  head ++ (if tail = "" then "" else "." ++ tail) ++ "e" ++
    (if exponent < 0 then "-" else "+") ++ toString exponent.natAbs

def magnitudeText (d : Nat) (e : Int) : String :=
  let ds := toString d
  let place : Int := ds.length + e
  if d = 0 then "0.0"
  else if -(layout.first : Int) ≤ place ∧ place ≤ layout.last then point ds e
  else scientific ds e

def text (f : Float) : String :=
  let (d, e) := digits f
  (if UInt64.size / 2 ≤ f.toBits.toNat then "-" else "") ++ magnitudeText d e

end Keyline.Binary64
