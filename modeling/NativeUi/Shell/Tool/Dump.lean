import NativeUi.Shell.Tool.Amount
import NativeUi.Shell.Tool.Digest

/-!
# Dumps

The octets of a text as numbers, one line for each block, behind the place of the block.
-/
namespace NativeUi.Shell.Tool.Dump

inductive Kind where
  | named
  | escaped
  | signed
  | unsigned
  | octal
  | hex
deriving DecidableEq

structure Column where
  kind : Kind
  size : Nat
  withText : Bool

def Column.width (c : Column) : Nat :=
  match c.kind with
  | .named | .escaped => 3
  | .hex => 2 * c.size
  | .octal => (8 * c.size + 2) / 3
  | .unsigned => (Text.decimal (2 ^ (8 * c.size) - 1)).length
  | .signed => (Text.decimal (2 ^ (8 * c.size - 1))).length + 1

def controlNames : List String := [
  "nul", "soh", "stx", "etx", "eot", "enq", "ack", "bel", "bs", "ht", "nl", "vt", "ff", "cr", "so",
  "si", "dle", "dc1", "dc2", "dc3", "dc4", "nak", "syn", "etb", "can", "em", "sub", "esc", "fs",
  "gs", "rs", "us", "sp"]

def filled (width : Nat) (base n : Nat) : String :=
  let digits := Nat.toDigits base n
  String.ofList (List.replicate (width - digits.length) '0' ++ digits)

def escapedText (n : Nat) : String :=
  match Char.ofNat n with
  | '\x00' => "\\0"
  | '\x07' => "\\a"
  | '\x08' => "\\b"
  | '\x0c' => "\\f"
  | '\n' => "\\n"
  | '\r' => "\\r"
  | '\t' => "\\t"
  | '\x0b' => "\\v"
  | c => if isShown c then c.toString else filled 3 8 n

def Column.member (c : Column) (octets : List Digest.Octet) : String :=
  let n := Digest.wordOf octets.reverse
  match c.kind with
  | .named =>
    let n := n % 128
    if n = 127 then "del" else (controlNames[n]?).getD (Char.ofNat n).toString
  | .escaped => escapedText n
  | .hex => filled c.width 16 n
  | .octal => filled c.width 8 n
  | .unsigned => Text.decimal n
  | .signed =>
    if n < 2 ^ (8 * c.size - 1) then Text.decimal n
    else "-" ++ Text.decimal (2 ^ (8 * c.size) - n)

def Column.fields (c : Column) (fields pad : Nat) : Nat → Nat → List String → String
  | _, _, [] => ""
  | remaining, place, m :: ms =>
    let next := pad * (place - 1) / fields
    padLeft (remaining - next + c.width) m ++ c.fields fields pad next (place - 1) ms

structure Layout where
  columns : List Column
  block : Nat
  base : Option Nat
  repeats : Bool

def Layout.place (l : Layout) (n : Nat) : String :=
  match l.base with
  | none => ""
  | some 16 => filled 6 16 n
  | some base => filled 7 base n

def Layout.width (l : Layout) : Nat :=
  (l.columns.map fun c => (c.width + 1) * (l.block / c.size)).foldl max 0

def Layout.unit (l : Layout) : Nat := (l.columns.map Column.size).foldl Nat.lcm 1

def shownText (octets : List Digest.Octet) : String :=
  let shown (n : Digest.Octet) : Char := if isShown (Char.ofNat n) then Char.ofNat n else '.'
  "  >" ++ String.ofList (octets.map shown) ++ "<"

/-- One column of a block. The last block may be short, and its last member may lack octets. -/
def Layout.columnText (l : Layout) (octets : List Digest.Octet) (c : Column) : String :=
  let fields := l.block / c.size
  let blank := (l.block - octets.length) / c.size
  let size := (fields - blank) * c.size
  let whole := octets ++ List.replicate (size - octets.length) 0
  let pad := l.width - c.width * fields
  c.fields fields pad pad fields ((Digest.pieces c.size (whole.length + 1) whole).map c.member) ++
    if c.withText then
      Text.spaces (blank * c.width + pad * blank / fields) ++ shownText octets
    else ""

def Layout.blockText (l : Layout) (n : Nat) (octets : List Digest.Octet) : List String :=
  let gap := Text.spaces (l.place n).length
  l.columns.zipIdx.map fun x => (if x.2 = 0 then l.place n else gap) ++ l.columnText octets x.1

def Layout.lines (l : Layout) (start : Nat) (last : Option (List Digest.Octet)) (starred : Bool) :
    List (List Digest.Octet) → List String
  | [] => []
  | b :: bs =>
    let next := start + b.length
    if !l.repeats && last = some b && b.length = l.block then
      (if starred then [] else ["*"]) ++ l.lines next last true bs
    else l.blockText start b ++ l.lines next (some b) false bs

def Layout.text (l : Layout) (start : Nat) (octets : List Digest.Octet) : String :=
  ofLines (l.lines start none false (Digest.pieces l.block (octets.length + 1) octets) ++
    if l.base.isSome then [l.place (start + octets.length)] else [])

/-! ### Options -/

def kindOf? (c : Char) : Option Kind :=
  match c with
  | 'd' => some .signed
  | 'u' => some .unsigned
  | 'o' => some .octal
  | 'x' => some .hex
  | _ => none

/-- The size of members at the start of a text, and what follows; the size if there is none such. -/
def sizeOf (cs : List Char) : Except Nat (Nat × List Char) :=
  match cs with
  | 'C' :: cs => .ok (1, cs)
  | 'S' :: cs => .ok (2, cs)
  | 'I' :: cs => .ok (4, cs)
  | 'L' :: cs => .ok (8, cs)
  | cs =>
    let digits := cs.takeWhile Char.isDigit
    match Text.natOf? digits with
    | none => .ok (4, cs)
    | some n => if [1, 2, 4, 8].contains n then .ok (n, cs.drop digits.length) else .error n

def withText (cs : List Char) : Bool × List Char :=
  match cs with
  | 'z' :: cs => (true, cs)
  | cs => (false, cs)

def columnsOf (whole : String) : Nat → List Char → Except String (List Column)
  | _, [] => .ok []
  | 0, _ => .ok []
  | fuel + 1, c :: cs => do
    let (kind, size, cs) ←
      match c with
      | 'a' => .ok (Kind.named, 1, cs)
      | 'c' => .ok (Kind.escaped, 1, cs)
      | c =>
        match kindOf? c, sizeOf cs with
        | none, _ =>
          .error ("invalid character '" ++ c.toString ++ "' in type string " ++ quote whole)
        | some kind, .ok (size, cs) => .ok (kind, size, cs)
        | some _, .error n =>
          .error ("invalid type string " ++ quote whole ++ ";\nthis system doesn't provide a " ++
            Text.decimal n ++ "-byte integral type")
    let (shows, cs) := withText cs
    let more ← columnsOf whole fuel cs
    .ok (⟨kind, size, shows⟩ :: more)

def letterColumn? (c : Char) : Option Column :=
  match c with
  | 'a' => some ⟨.named, 1, false⟩
  | 'b' => some ⟨.octal, 1, false⟩
  | 'c' => some ⟨.escaped, 1, false⟩
  | 'd' => some ⟨.unsigned, 2, false⟩
  | 'i' => some ⟨.signed, 4, false⟩
  | 'l' => some ⟨.signed, 8, false⟩
  | 'o' | 'B' => some ⟨.octal, 2, false⟩
  | 's' => some ⟨.signed, 2, false⟩
  | 'x' | 'h' => some ⟨.hex, 2, false⟩
  | 'D' => some ⟨.unsigned, 4, false⟩
  | 'X' | 'H' => some ⟨.hex, 4, false⟩
  | 'O' => some ⟨.octal, 4, false⟩
  | _ => none

def optionColumns (g : Given) : Except String (List Column) :=
  if g.1 = 't' then columnsOf g.2 (g.2.length + 1) g.2.toList
  else .ok (letterColumn? g.1).toList

def digitValue? (base : Nat) (c : Char) : Option Nat :=
  let n := c.toLower.toNat
  let v := if c.isDigit then n - '0'.toNat else if 'a'.toNat ≤ n then n - 'a'.toNat + 10 else base
  if v < base then some v else none

def amount? (s : String) : Option Nat :=
  let read (base : Nat) (cs : List Char) : Option Nat :=
    let digits := cs.takeWhile fun c => (digitValue? base c).isSome
    if digits.isEmpty then none
    else
      let n := digits.foldl (fun n c => n * base + (digitValue? base c).getD 0) 0
      (Amount.unit? (cs.drop digits.length)).map (n * ·)
  match s.toList with
  | '0' :: 'x' :: cs | '0' :: 'X' :: cs => read 16 cs
  | '0' :: cs => if cs.isEmpty then some 0 else read 8 ('0' :: cs)
  | cs => read 10 cs

def baseOf (given : List Given) : Except String (Option Nat) :=
  match valueOf? given 'A' with
  | none => .ok (some 8)
  | some v =>
    match v.toList.head? with
    | some 'd' => .ok (some 10)
    | some 'o' => .ok (some 8)
    | some 'x' => .ok (some 16)
    | some 'n' => .ok none
    | _ => .error ("invalid output address radix '" ++ v ++
      "'; it must be one character from [doxn]")

def options : Options :=
  (Options.flags "abcdilosxhvXHDOB" [("address-radix", 'A'), ("skip-bytes", 'j'),
    ("read-bytes", 'N'), ("format", 't'), ("output-duplicates", 'v'), ("width", 'w')]).withValues
    "AjNtw"

def settleWidth (a : String) : String := if a = "-w" || a = "--width" then "-w32" else a

def layoutOf (given : List Given) : Except String (Layout × Option String) := do
  let base ← baseOf given
  let columns ← given.mapM optionColumns
  let columns := if columns.flatten.isEmpty then [⟨.octal, 2, false⟩] else columns.flatten
  let l : Layout := ⟨columns, 16, base, has given 'v'⟩
  match valueOf? given 'w' with
  | none => .ok ({ l with block := max l.unit (16 / l.unit * l.unit) }, none)
  | some v =>
    match amount? v with
    | some n =>
      if 0 < n && n % l.unit = 0 then .ok ({ l with block := n }, none)
      else
        .ok ({ l with block := l.unit }, some ("warning: invalid width " ++ Text.decimal n ++
          "; using " ++ Text.decimal l.unit ++ " instead"))
    | none => .error ("invalid -w argument " ++ quote v)

end Dump

def od : Tool := fun c =>
  match Dump.options.sort true (c.arguments.map Dump.settleWidth) with
  | .error e => misuse c 1 e.message
  | .ok (given, operands) =>
    match Dump.layoutOf given with
    | .error message => failWith c 1 message
    | .ok (layout, warning) => do
      forM warning.toList (complain c)
      let (text, status) ← joinTexts c operands
      let skip := ((valueOf? given 'j').bind Dump.amount?).getD 0
      if text.length < skip then failWith c 1 "cannot skip past end of combined input"
      else if text.isEmpty && status ≠ 0 then return status
      else
        let octets := (text.toList.drop skip).map Char.toNat
        let octets :=
          match (valueOf? given 'N').bind Dump.amount? with
          | some n => octets.take n
          | none => octets
        print (layout.text skip octets)
        return status

end NativeUi.Shell.Tool
