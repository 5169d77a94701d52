import NativeUi.Instances

/-!
# Binary64 numbers

A finite double is `± mantissa * 2 ^ scale / 2 ^ 1074` in its one normal form. `Double.ofRatio`
rounds a non-negative ratio to the nearest double, a half to the even mantissa.
-/
namespace NativeUi

/-- The normal form: 53 bits, all used unless the number is below the normal range. -/
def Double.Canonical (mantissa scale : Nat) : Prop :=
  mantissa < 2 ^ 53 ∧ scale ≤ 2045 ∧ (2 ^ 52 ≤ mantissa ∨ scale = 0)

instance (mantissa scale : Nat) : Decidable (Double.Canonical mantissa scale) :=
  inferInstanceAs (Decidable (_ ∧ _))

structure Double where
  negative : Bool
  mantissa : Nat
  scale : Nat
  canonical : Double.Canonical mantissa scale
deriving DecidableEq

namespace Double

def zero (negative : Bool) : Double := ⟨negative, 0, 0, by decide⟩

def magnitude (x : Double) : Nat := x.mantissa * 2 ^ x.scale

def ofParts? (negative : Bool) (mantissa scale : Nat) : Option Double :=
  if h : Canonical mantissa scale then some ⟨negative, mantissa, scale, h⟩ else none

/-- The nearest natural number to `num / den`; a half goes to the even one. -/
def roundDiv (num den : Nat) : Nat :=
  let q := num / den
  let r := num % den
  if 2 * r < den then q
  else if den < 2 * r then q + 1
  else if q % 2 = 0 then q else q + 1

/-- The scale at which `num / den`, in units of the smallest double, has 53 bits. -/
def scaleOf (num den : Nat) : Nat := Nat.log2 (num / den) - 52

/-- Rounds `num / den` units of the smallest double; none beyond the largest finite one. -/
def ofRatio (negative : Bool) (num den : Nat) : Option Double :=
  let scale := scaleOf num den
  let mantissa := roundDiv num (den * 2 ^ scale)
  if mantissa = 2 ^ 53 then ofParts? negative (2 ^ 52) (scale + 1)
  else ofParts? negative mantissa scale

end Double

end NativeUi
