import NativeUi.Instances

/-!
# Lines and classes of characters

A text is cut into lines at line feeds. A carriage return just before a line feed belongs to it,
and the feed that ends a text opens no further line.
-/
namespace NativeUi.Text

def splitLines : List Char → List (List Char)
  | [] => []
  | '\n' :: cs => [] :: splitLines cs
  | '\r' :: '\n' :: cs => [] :: splitLines cs
  | c :: cs =>
    match splitLines cs with
    | [] => [[c]]
    | line :: lines => (c :: line) :: lines

def lines (s : String) : List String := (splitLines s.toList).map String.ofList

def ofLines (lines : List String) : String := String.join (lines.map fun line => line ++ "\n")

def isBlank (c : Char) : Bool :=
  let n := c.toNat
  (0x09 ≤ n && n ≤ 0x0D) || n == 0x20 || n == 0x85 || n == 0xA0 || n == 0x1680 ||
    (0x2000 ≤ n && n ≤ 0x200A) || n == 0x2028 || n == 0x2029 || n == 0x202F || n == 0x205F ||
    n == 0x3000

def isControl (c : Char) : Bool :=
  let n := c.toNat
  n < 0x20 || (0x7F ≤ n && n ≤ 0x9F)

def allBlank (s : String) : Bool := s.toList.all isBlank

def spaces (n : Nat) : String := String.ofList (List.replicate n ' ')

def hex (n : Nat) : List Char := Nat.toDigits 16 n

def hex4 (n : Nat) : List Char :=
  let ds := hex n
  List.replicate (4 - ds.length) '0' ++ ds

end NativeUi.Text
