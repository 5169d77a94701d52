import NativeUi.Instances

/-!
# Reading UTF-8 with faults

Bytes are read as UTF-8. As many bytes as could still become a character, but do not, are one fault,
and a fault is shown as a replacement character.
-/
namespace NativeUi.Text

/-- The bounds of the bytes that have to follow a first byte; none if no character starts so. -/
def followers? (b : Nat) : Option (List (Nat × Nat)) :=
  let any : Nat × Nat := (0x80, 0xBF)
  if b < 0x80 then some []
  else if b < 0xC2 then none
  else if b < 0xE0 then some [any]
  else if b = 0xE0 then some [(0xA0, 0xBF), any]
  else if b = 0xED then some [(0x80, 0x9F), any]
  else if b < 0xF0 then some [any, any]
  else if b = 0xF0 then some [(0x90, 0xBF), any, any]
  else if b < 0xF4 then some [any, any, any]
  else if b = 0xF4 then some [(0x80, 0x8F), any, any]
  else none

def fitting : List (Nat × Nat) → List Nat → Nat
  | (low, high) :: bounds, b :: bs =>
    if low ≤ b && b ≤ high then fitting bounds bs + 1 else 0
  | _, _ => 0

def characterOf (first : Nat) (rest : List Nat) : Char :=
  let lead :=
    match rest.length with
    | 0 => first
    | 1 => first % 32
    | 2 => first % 16
    | _ => first % 8
  Char.ofNat (rest.foldl (fun n b => n * 64 + b % 64) lead)

def replacement : Char := '�'

def readBytes : Nat → List Nat → List Char
  | 0, _ => []
  | _, [] => []
  | fuel + 1, b :: bs =>
    match followers? b with
    | none => replacement :: readBytes fuel bs
    | some bounds =>
      let n := fitting bounds bs
      let c := if n = bounds.length then characterOf b (bs.take n) else replacement
      c :: readBytes fuel (bs.drop n)

def ofFaultyBytes (bytes : List Nat) : String := String.ofList (readBytes bytes.length bytes)

end NativeUi.Text
