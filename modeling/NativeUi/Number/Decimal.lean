import NativeUi.Number.Double
import NativeUi.Text.Digits

/-!
# Decimals and their doubles

A decimal is `digits * 10 ^ exponent`. `Decimal.toDouble?` takes it to the nearest double and
`Double.shortest` finds, among the decimals with a given nearest double, one with the fewest digits,
and the nearest of these. If no short one served, every digit would be written.

`Decimal.read?` is the quick way from digits to a double: both the digits and the power of ten are
rounded, and so is their product or quotient. It may miss the nearest double by a little.
-/
namespace NativeUi

structure Decimal where
  digits : Nat
  exponent : Int
deriving DecidableEq

def decimalLength (n : Nat) : Nat := if n = 0 then 0 else (Text.decimalChars n).length

def stripZeros : Nat → Nat → Int → Decimal
  | 0, n, e => ⟨n, e⟩
  | fuel + 1, n, e => if n % 10 = 0 then stripZeros fuel (n / 10) (e + 1) else ⟨n, e⟩

namespace Decimal

/-- Rounds to the nearest double; none beyond the largest finite one. A decimal so large or so small
that no digit of it could matter is settled by its order of magnitude alone. -/
def toDouble? (negative : Bool) (d : Decimal) : Option Double :=
  let order := (decimalLength d.digits : Int) + d.exponent
  if d.digits = 0 ∨ order < -400 then some (Double.zero negative)
  else if 400 < order then none
  else if 0 ≤ d.exponent then
    Double.ofRatio negative (d.digits * 10 ^ d.exponent.toNat * 2 ^ 1074) 1
  else
    Double.ofRatio negative (d.digits * 2 ^ 1074) (10 ^ (-d.exponent).toNat)

/-- The text of a decimal other than zero: positional from five places below the point to sixteen
digits before it, scientific otherwise. -/
def spell (d : Decimal) : List Char :=
  let ds := Text.decimalChars d.digits
  let order : Int := ds.length + d.exponent - 1
  if order < -5 ∨ 15 < order then
    let fraction := ds.drop 1
    ds.take 1 ++ (if fraction.isEmpty then [] else '.' :: fraction) ++
      'e' :: (if order < 0 then '-' else '+') :: Text.decimalChars order.natAbs
  else if order < 0 then
    ['0', '.'] ++ List.replicate (-order - 1).toNat '0' ++ ds
  else
    let whole := order.toNat + 1
    ds.take whole ++ List.replicate (whole - ds.length) '0' ++
      '.' :: (if ds.length ≤ whole then ['0'] else ds.drop whole)

end Decimal

namespace Double

/-- Times or over a power of ten, each of them rounded; the powers go up to `10 ^ 308`. -/
def timesTenPow (x : Double) (k : Nat) : Option Double := do
  let power ← Decimal.toDouble? false ⟨1, k⟩
  ofRatio x.negative (x.magnitude * power.magnitude) (2 ^ 1074)

def overTenPow (x : Double) (k : Nat) : Option Double := do
  let power ← Decimal.toDouble? false ⟨1, k⟩
  ofRatio x.negative (x.magnitude * 2 ^ 1074) power.magnitude

/-- Over `10 ^ 308` so many times, and then over a smaller power of ten. -/
def shrink (k : Nat) : Nat → Double → Option Double
  | 0, x => x.overTenPow k
  | times + 1, x => if x.mantissa = 0 then some x else (x.overTenPow 308).bind (shrink k times)

end Double

def Decimal.read? (negative : Bool) (d : Decimal) : Option Double := do
  let x ← Double.ofRatio negative (d.digits * 2 ^ 1074) 1
  if 308 < d.exponent then if x.mantissa = 0 then some x else none
  else if 0 ≤ d.exponent then x.timesTenPow d.exponent.toNat
  else
    let k := (-d.exponent).toNat
    Double.shrink (k - (k - 1) / 308 * 308) ((k - 1) / 308) x

namespace Double

def order (x : Double) : Int :=
  let unit := 2 ^ 1074
  let v := x.magnitude
  if unit ≤ v then (decimalLength (v / unit) : Int) - 1
  else -(decimalLength ((unit + v - 1) / v - 1) : Int)

/-- The two neighbours of the number on the grid of `n` digits, the nearer first; of two equally
near ones the even. -/
def neighbours (x : Double) (n : Nat) : List Decimal :=
  let e := x.order - n + 1
  let num := if e < 0 then x.magnitude * 10 ^ (-e).toNat else x.magnitude
  let den := if e < 0 then 2 ^ 1074 else 2 ^ 1074 * 10 ^ e.toNat
  let below := num / den
  let near := roundDiv num den
  [⟨near, e⟩, ⟨if near = below then below + 1 else below, e⟩]

def exact (x : Double) : Decimal := ⟨x.magnitude * 5 ^ 1074, -1074⟩

def isNearest (x : Double) (d : Decimal) : Bool := d.toDouble? x.negative == some x

def shortest (x : Double) : Decimal :=
  let found := (List.range 17).findSome? fun n => (x.neighbours (n + 1)).find? x.isNearest
  found.getD x.exact

def text (x : Double) : List Char :=
  let d := x.shortest
  (if x.negative then ['-'] else []) ++
    if x.mantissa = 0 then ['0', '.', '0']
    else (stripZeros (decimalLength d.digits) d.digits d.exponent).spell

end Double

end NativeUi
