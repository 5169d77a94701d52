import NativeUi.Number.Decimal

/-!
# Numbers

A number is an integer of 64 bits, with or without a sign, or a finite double.
-/
namespace NativeUi

def IntegerRange (i : Int) : Prop := -2 ^ 63 ≤ i ∧ i < 2 ^ 64

instance (i : Int) : Decidable (IntegerRange i) := inferInstanceAs (Decidable (_ ∧ _))

inductive Number where
  | integer (i : Int) (inRange : IntegerRange i)
  | double (x : Double)
deriving DecidableEq

namespace Number

def ofInt? (i : Int) : Option Number :=
  if h : IntegerRange i then some (.integer i h) else none

def ofInt64 (i : Int64) : Number :=
  .integer i.toInt ⟨Int64.le_toInt i, Int.lt_trans (Int64.toInt_lt i) (by decide)⟩

def text : Number → List Char
  | .integer i _ =>
    if i < 0 then '-' :: Text.decimalChars i.natAbs else Text.decimalChars i.natAbs
  | .double x => x.text

def toNat? : Number → Option Nat
  | .integer i _ => if 0 ≤ i then some i.toNat else none
  | .double _ => none

end Number

end NativeUi
