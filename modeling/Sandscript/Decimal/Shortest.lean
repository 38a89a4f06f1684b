import Sandscript.Text.Basic

/-!
# Shortest decimal text of a binary number

A finite binary number stands for an interval: all reals that round to it. Its shortest decimal is
the decimal of fewest digits in that interval, and of these the one nearest to the number.

`Binary` takes a double apart, `Binary.shortest` finds the digits in exact arithmetic: for one
digit, two digits and so on it tries the two neighbours of the number on the grid of decimals with
so many digits. `Layout` then says how digits and exponent are written.
-/

namespace Sandscript

namespace Decimal

/-- The magnitude of a finite double, `mantissa * 2 ^ exponent`. -/
structure Binary where
  mantissa : Nat
  exponent : Int
  /-- The gap to the next smaller double is half the gap to the next larger one. -/
  narrowBelow : Bool
deriving Repr

/-- The magnitude in the bits of a double. -/
def Binary.ofBits (bits : Nat) : Binary :=
  let fraction := bits % Nat.pow 2 52
  let scale : Nat := bits / Nat.pow 2 52 % Nat.pow 2 11
  if scale = 0 then ⟨fraction, -1074, false⟩
  else ⟨Nat.pow 2 52 + fraction, (scale : Int) - 1075, fraction = 0 && scale > 1⟩

/-- Digits and the place of the point: `0.digits * 10 ^ point`. -/
structure Digits where
  digits : Text
  point : Int
deriving Repr

/-- Whether the fraction `n / d` lies in the interval of a number, all four times a common scale:
the number is `v / d`, and the interval reaches from `low` below it to `high` above it. -/
def inInterval (even : Bool) (v low high n : Nat) : Bool :=
  if even then v ≤ n + low && n ≤ v + high else v < n + low && n < v + high

/-- The number of decimal digits of `n / d` before the point; zero or less counts the zeros after
it. At most `fuel` zeros are looked for. -/
def magnitude (n d : Nat) : Nat → Int
  | 0 => 0
  | fuel + 1 =>
    if n ≥ d then (Nat.toDigits 10 (n / d)).length
    else if n * 10 ≥ d then 0
    else magnitude (n * 10) d fuel - 1

/-- The candidate on the grid whose step is `step`, given the value and its interval. -/
def onGrid (even : Bool) (v low high step : Nat) : Option Nat :=
  let below := v / step
  let above := below + 1
  let fitsBelow := below > 0 && inInterval even v low high (below * step)
  let fitsAbove := inInterval even v low high (above * step)
  match fitsBelow, fitsAbove with
  | true, true =>
    let down := v - below * step
    let up := above * step - v
    if down < up || (down = up && below % 2 = 0) then some below else some above
  | true, false => some below
  | false, true => some above
  | false, false => none

/-- Tries grids of `count` digits and more. The value is `v / d`; `point` is its magnitude. -/
def search (even : Bool) (v low high d : Nat) (point : Int) (count : Nat) : Nat → Nat × Int
  | 0 => (v / d, 0)
  | fuel + 1 =>
    -- the grid's step is `10 ^ (point - count)`
    let shift := point - count
    let (scale, step) :=
      if shift ≥ 0 then (1, d * Nat.pow 10 shift.toNat) else (Nat.pow 10 (-shift).toNat, d)
    match onGrid even (v * scale) (low * scale) (high * scale) step with
    | some n => (n, shift)
    | none => search even v low high d point (count + 1) fuel

/-- The shortest digits of a number that is not zero. -/
def Binary.shortest (b : Binary) : Digits :=
  -- four times the number, so that the ends of its interval are whole
  let (v, unit, d) :=
    if b.exponent ≥ 0 then
      (4 * b.mantissa * Nat.pow 2 b.exponent.toNat, Nat.pow 2 b.exponent.toNat, 4)
    else (4 * b.mantissa, 1, 4 * Nat.pow 2 (-b.exponent).toNat)
  let low := if b.narrowBelow then unit else 2 * unit
  let (n, shift) := search (b.mantissa % 2 = 0) v low (2 * unit) d (magnitude v d 400) 1 20
  let digits := Nat.toDigits 10 n
  let kept := (digits.reverse.dropWhile (· == '0')).reverse
  ⟨kept, digits.length + shift⟩

-- ---------------------------------------------------------------------------
-- Writing
-- ---------------------------------------------------------------------------

/-- How a number is written. -/
structure Layout where
  /-- The least power of ten that is written out. -/
  leastPlain : Int
  /-- The greatest power of ten that is written out. -/
  greatestPlain : Int
  /-- The least number of exponent digits. -/
  exponentDigits : Nat

/-- Digits with a point after `point` of them, filled up with zeros on either side. -/
def plain (digits : Text) (point : Int) : Text :=
  if point ≤ 0 then "0.".toList ++ List.replicate (-point).toNat '0' ++ digits
  else
    let n := point.toNat
    if digits.length ≤ n then digits ++ List.replicate (n - digits.length) '0' ++ ".0".toList
    else digits.take n ++ '.' :: digits.drop n

/-- Digits with a point after the first, and an exponent with its sign. -/
def scientific (exponentDigits : Nat) (digits : Text) (exponent : Int) : Text :=
  let power := Text.ofNat exponent.natAbs
  let mark := if exponent < 0 then "e-".toList else "e+".toList
  let front := match digits with
    | [] => []
    | [d] => [d]
    | d :: rest => d :: '.' :: rest
  front ++ mark ++ List.replicate (exponentDigits - power.length) '0' ++ power

/-- The text of a finite double. -/
def render (layout : Layout) (x : Float) : Text :=
  let bits := x.toBits.toNat
  let sign := if bits ≥ Nat.pow 2 63 then ['-'] else []
  let b := Binary.ofBits bits
  if b.mantissa = 0 then sign ++ "0.0".toList
  else
    let s := b.shortest
    let exponent := s.point - 1
    sign ++
      if layout.leastPlain ≤ exponent && exponent ≤ layout.greatestPlain then plain s.digits s.point
      else scientific layout.exponentDigits s.digits exponent

end Decimal

end Sandscript
