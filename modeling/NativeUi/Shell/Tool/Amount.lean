import NativeUi.Shell.Tool.Basic

/-!
# Amounts

Numbers of octets as options give them, with a letter for their unit.
-/
namespace NativeUi.Shell.Tool.Amount

def unit? (cs : List Char) : Option Nat :=
  let power? (c : Char) : Option Nat :=
    "KMGTPE".toList.findIdx? (· = if c = 'k' then 'K' else if c = 'm' then 'M' else c)
  match cs with
  | [] => some 1
  | ['c'] => some 1
  | ['w'] => some 2
  | ['b'] => some 512
  | [c] => (power? c).map fun k => 1024 ^ (k + 1)
  | [c, 'B'] => (power? c).map fun k => 1000 ^ (k + 1)
  | [c, 'i', 'B'] => (power? c).map fun k => 1024 ^ (k + 1)
  | _ => none

def ofText? (s : String) : Option Nat := do
  let digits := s.toList.takeWhile Char.isDigit
  let n ← Text.natOf? digits
  let unit ← unit? (s.toList.drop digits.length)
  some (n * unit)

end NativeUi.Shell.Tool.Amount
