import NativeUi.Number

/-!
# Numerals

The parts of a number as a text spells it, and the number that they stand for.
-/
namespace NativeUi.Json

structure Numeral where
  negative : Bool
  whole : List Char
  fraction : List Char
  exponent : Option Int

namespace Numeral

def decimal (n : Numeral) : Decimal :=
  ⟨Text.digitsValue (n.whole ++ n.fraction), n.exponent.getD 0 - n.fraction.length⟩

/-- Puts digits behind a number as long as it has 64 bits, and tells how many are left. -/
def gather : Nat → List Char → Nat × Nat
  | n, [] => (n, 0)
  | n, c :: cs =>
    let next := 10 * n + Text.digitValue c
    if 2 ^ 64 ≤ next then (n, cs.length + 1) else gather next cs

def kept (n : Numeral) : Decimal :=
  let whole := gather 0 n.whole
  let all := gather whole.1 n.fraction
  ⟨all.1, whole.2 + all.2 + n.exponent.getD 0 - n.fraction.length⟩

def toDouble? (n : Numeral) : Option Number := (n.kept.read? n.negative).map .double

/-- Without a fraction and an exponent a numeral is an integer, if it is in range and not the
negative zero; all others are doubles, or no numbers at all if they are too large. -/
def number? (n : Numeral) : Option Number :=
  if n.fraction.isEmpty && n.exponent.isNone then
    let m := Text.digitsValue n.whole
    if n.negative && m = 0 then n.toDouble?
    else
      match Number.ofInt? (if n.negative then -(m : Int) else m) with
      | some i => some i
      | none => n.toDouble?
  else n.toDouble?

end Numeral

/-- A numeral and the rest of the text, or the fault that ends it: whether the text ends there. -/
abbrev NumeralResult := Except Bool (Numeral × List Char)

def spanDigits (cs : List Char) : List Char × List Char :=
  (cs.takeWhile Char.isDigit, cs.dropWhile Char.isDigit)

def scanExponentDigits (n : Numeral) (negative : Bool) (cs : List Char) : NumeralResult :=
  let (ds, rest) := spanDigits cs
  if ds.isEmpty then .error rest.isEmpty
  else
    let e : Int := Text.digitsValue ds
    .ok (⟨n.negative, n.whole, n.fraction, some (if negative then -e else e)⟩, rest)

def scanExponent (n : Numeral) : List Char → NumeralResult
  | '+' :: cs => scanExponentDigits n false cs
  | '-' :: cs => scanExponentDigits n true cs
  | cs => scanExponentDigits n false cs

def scanAfterFraction (n : Numeral) : List Char → NumeralResult
  | 'e' :: cs => scanExponent n cs
  | 'E' :: cs => scanExponent n cs
  | cs => .ok (n, cs)

def scanFraction (n : Numeral) : List Char → NumeralResult
  | '.' :: cs =>
    let (ds, rest) := spanDigits cs
    if ds.isEmpty then .error rest.isEmpty
    else scanAfterFraction ⟨n.negative, n.whole, ds, none⟩ rest
  | cs => scanAfterFraction n cs

def scanNumeral (negative : Bool) (cs : List Char) : NumeralResult :=
  let (ds, rest) := spanDigits cs
  match ds with
  | [] => .error rest.isEmpty
  | '0' :: _ :: _ => .error false
  | _ => scanFraction ⟨negative, ds, [], none⟩ rest

/-- Reads a whole text as a numeral in its free form: either sign may lead, so may zeros, and the
digits on one side of the point may be missing. -/
def Numeral.ofText? (s : String) : Option Numeral :=
  let (negative, cs) :=
    match s.toList with
    | '-' :: cs => (true, cs)
    | '+' :: cs => (false, cs)
    | cs => (false, cs)
  let (whole, rest) := spanDigits cs
  let (fraction, rest) :=
    match rest with
    | '.' :: cs => spanDigits cs
    | cs => ([], cs)
  if whole.isEmpty && fraction.isEmpty then none
  else
    match scanAfterFraction ⟨negative, whole, fraction, none⟩ rest with
    | .ok (n, []) => some n
    | _ => none

end NativeUi.Json
