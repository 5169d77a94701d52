import NativeUi.Shell.Tool.Amount
import NativeUi.Shell.Tool.Digest
import NativeUi.Shell.Tool.Names

/-!
# Pieces

Cutting a text into files, and copying a part of it block by block.
-/
namespace NativeUi.Shell.Tool

namespace Pieces

/-- The ends of the names of pieces: their digits, their length if it is fixed, the number of the
first, and what stands behind. -/
structure Suffixes where
  digits : List Char
  length : Option Nat
  start : Nat
  tail : String

def inDigits (digits : List Char) : Nat → Nat → List Char
  | 0, _ => []
  | width + 1, n =>
    inDigits digits width (n / digits.length) ++ [(digits[n % digits.length]?).getD 'a']

/-- The end of a name whose length grows: with its start full of last digits, two more digits
follow. -/
def growing (digits : List Char) : Nat → Nat → Nat → List Char
  | 0, _, n => inDigits digits 2 n
  | fuel + 1, lead, n =>
    let base := digits.length
    let room := (base - 1) * base ^ (lead + 1)
    if n < room then List.replicate lead (digits.getLastD 'z') ++ inDigits digits (lead + 2) n
    else growing digits fuel (lead + 1) (n - room)

def Suffixes.text? (s : Suffixes) (k : Nat) : Option String :=
  let n := s.start + k
  match s.length with
  | none => some (String.ofList (growing s.digits 8 0 n) ++ s.tail)
  | some length =>
    if s.digits.length ^ length ≤ n then none
    else some (String.ofList (inDigits s.digits length n) ++ s.tail)

def lineGroups (limit : Nat) : Nat → String → List String → List String
  | _, current, [] => if current.isEmpty then [] else [current]
  | 0, current, _ => [current]
  | fuel + 1, current, l :: ls =>
    if limit < l.length then
      let left := limit - current.length
      if current.isEmpty then
        String.ofList (l.toList.take left) ::
          lineGroups limit fuel "" (String.ofList (l.toList.drop left) :: ls)
      else current :: lineGroups limit fuel "" (l :: ls)
    else if limit < current.length + l.length then current :: lineGroups limit fuel l ls
    else lineGroups limit fuel (current ++ l) ls

def chunkSizes (size count : Nat) : List Nat :=
  (List.range count).map fun k => size / count + if k < size % count then 1 else 0

def cutSizes : List Nat → List Char → List String
  | [], _ => []
  | n :: ns, cs => String.ofList (cs.take n) :: cutSizes ns (cs.drop n)

def lineChunks (size count : Nat) (lines : List String) : List String :=
  let ends := ((chunkSizes size count).foldl (fun (e : List Nat) n => e ++ [e.getLastD 0 + n]) [])
  let rec place (start : Nat) : List String → List (Nat × String)
    | [] => []
    | l :: ls => ((ends.findIdx? (start < ·)).getD (count - 1), l) :: place (start + l.length) ls
  let placed := place 0 lines
  (List.range count).map fun k =>
    String.join ((placed.filter fun x => x.1 = k).map Prod.snd)

def dealt (count : Nat) (lines : List String) : List String :=
  (List.range count).map fun k =>
    String.join ((lines.zipIdx.filter fun x => x.2 % count = k).map Prod.fst)

inductive Cut where
  | lines (n : Nat)
  | octets (n : Nat)
  | lineOctets (n : Nat)
  | chunks (n : Nat)
  | lineChunks (n : Nat)
  | dealt (n : Nat)

def Cut.pieces (text : String) : Cut → List String
  | .lines n =>
    let ls := keptLines text
    (Digest.pieces n (ls.length + 1) ls).map String.join
  | .octets n => (Digest.pieces n (text.length + 1) text.toList).map String.ofList
  | .lineOctets n => lineGroups n (2 * text.length + 1) "" (keptLines text)
  | .chunks n => cutSizes (chunkSizes text.length n) text.toList
  | .lineChunks n => Pieces.lineChunks text.length n (keptLines text)
  | .dealt n => Pieces.dealt n (keptLines text)

def Cut.count? : Cut → Option Nat
  | .chunks n | .lineChunks n | .dealt n => some n
  | _ => none

def cutOf (g : Given) : Except String Cut :=
  let amount (what : String) (make : Nat → Cut) : Except String Cut :=
    match Amount.ofText? g.2 with
    | some (n + 1) => .ok (make (n + 1))
    | _ => .error ("invalid number of " ++ what ++ ": " ++ quote g.2)
  let chunks (text : String) (make : Nat → Cut) : Except String Cut :=
    match natural? text with
    | some (n + 1) => .ok (make (n + 1))
    | _ => .error ("invalid number of chunks: " ++ quote text)
  match g.1 with
  | 'l' => amount "lines" .lines
  | 'b' => amount "bytes" .octets
  | 'C' => amount "bytes" .lineOctets
  | _ =>
    match g.2.splitOn "/" with
    | ["l", n] => chunks n .lineChunks
    | ["r", n] => chunks n .dealt
    | _ => chunks g.2 .chunks

def enough (base count : Nat) : Nat → Nat → Nat
  | 0, length => length
  | fuel + 1, length =>
    if count ≤ base ^ length then length else enough base count fuel (length + 1)

def suffixesOf (given : List Given) (cut : Cut) : Suffixes :=
  let digits :=
    if has given 'd' then "0123456789".toList
    else if has given 'x' then "0123456789abcdef".toList
    else "abcdefghijklmnopqrstuvwxyz".toList
  let fixed := ((valueOf? given 'a').bind natural?).filter (0 < ·)
  let start := ((valueOf? given 'd' <|> valueOf? given 'x').bind natural?).getD 0
  let length :=
    match fixed, cut.count? with
    | some n, _ => some n
    | none, some count => some (enough digits.length (start + count) 64 2)
    | none, none => if start = 0 then none else some 2
  ⟨digits, length, start, (valueOf? given 's').getD ""⟩

def options : Options :=
  (Options.flags "dxevu" [("lines", 'l'), ("bytes", 'b'), ("line-bytes", 'C'), ("number", 'n'),
    ("suffix-length", 'a'), ("numeric-suffixes", 'd'), ("hex-suffixes", 'x'),
    ("additional-suffix", 's'), ("elide-empty-files", 'e'), ("verbose", 'v')]).withValues "lbCnas"

def write (c : Call) (given : List Given) (base : String) (s : Suffixes) :
    Nat → List String → Work Nat
  | _, [] => return 0
  | k, piece :: rest =>
    match s.text? k with
    | none => failWith c 1 "output file suffixes exhausted"
    | some suffix => do
      let name := base ++ suffix
      if has given 'v' then printLine ("creating file " ++ quote name)
      let t ← getTree
      match writeOctets c t (c.locate name) piece with
      | .ok t =>
        changeTree fun _ => t
        write c given base s (k + 1) rest
      | .error e => failWith c 1 (name ++ ": " ++ e.reason)

end Pieces

def settleCount (a : String) : String :=
  match a.toList with
  | '-' :: c :: _ => if c.isDigit then "-l" ++ String.ofList (a.toList.drop 1) else a
  | _ => a

def split : Tool := fun c =>
  match Pieces.options.sort true (c.arguments.map settleCount) with
  | .error e => misuse c 1 e.message
  | .ok (given, operands) =>
    let cuts := given.filter fun x => "lbCn".toList.contains x.1
    match cuts with
    | _ :: _ :: _ => misuse c 1 "cannot split in more than one way"
    | cuts =>
      match Pieces.cutOf (cuts.headD ('l', "1000")) with
      | .error message => failWith c 1 message
      | .ok cut =>
        match operands with
        | _ :: _ :: extra :: _ => misuse c 1 ("extra operand " ++ quote extra)
        | operands => do
          let name := operands.headD "-"
          let text ← readOperand c name
          match text with
          | .error .isADirectory => failWith c 1 (name ++ ": Is a directory")
          | .error e =>
            failWith c 1 ("cannot open " ++ quote name ++ " for reading: " ++ e.reason)
          | .ok text =>
            let pieces := cut.pieces text
            let pieces := if has given 'e' then pieces.filter (· ≠ "") else pieces
            Pieces.write c given (operands.tail.headD "x") (Pieces.suffixesOf given cut) 0 pieces

/-! ### Blocks -/

namespace Blocks

structure Plan where
  source : Option String
  target : Option String
  inSize : Nat
  outSize : Nat
  count : Option Nat
  skip : Nat
  seek : Nat
  changes : List String
  flags : List String
  status : String

def Plan.changesBy (p : Plan) (name : String) : Bool := p.changes.contains name

def number (s : String) : Except String Nat :=
  match (s.splitOn "x").mapM Amount.ofText? with
  | some ns => .ok (ns.foldl (· * ·) 1)
  | none => .error ("invalid number: " ++ quote s)

def positive (s : String) : Except String Nat := do
  let n ← number s
  if n = 0 then .error ("invalid number: " ++ quote s) else .ok n

def Plan.add (p : Plan) (operand : String) : Except String Plan := do
  let cs := operand.toList
  let name := String.ofList (cs.takeWhile (· ≠ '='))
  let value := String.ofList ((cs.dropWhile (· ≠ '=')).drop 1)
  if !cs.contains '=' then .error ("unrecognized operand " ++ quote operand)
  else
    match name with
    | "if" => .ok { p with source := some value }
    | "of" => .ok { p with target := some value }
    | "bs" => do
      let n ← positive value
      .ok { p with inSize := n, outSize := n }
    | "ibs" => do
      let n ← positive value
      .ok { p with inSize := n }
    | "obs" => do
      let n ← positive value
      .ok { p with outSize := n }
    | "cbs" => do
      let _ ← positive value
      .ok p
    | "count" => do
      let n ← number value
      .ok { p with count := some n }
    | "skip" | "iseek" => do
      let n ← number value
      .ok { p with skip := n }
    | "seek" | "oseek" => do
      let n ← number value
      .ok { p with seek := n }
    | "conv" => .ok { p with changes := p.changes ++ value.splitOn "," }
    | "iflag" | "oflag" => .ok { p with flags := p.flags ++ value.splitOn "," }
    | "status" => .ok { p with status := value }
    | _ => .error ("unrecognized operand " ++ quote operand)

def planOf (operands : List String) : Except String Plan :=
  operands.foldlM Plan.add ⟨none, none, 512, 512, none, 0, 0, [], [], ""⟩

def swapped : List Char → List Char
  | a :: b :: cs => b :: a :: swapped cs
  | cs => cs

def Plan.changed (p : Plan) (block : List Char) : List Char :=
  let block := if p.changesBy "swab" then swapped block else block
  let block := if p.changesBy "ucase" then block.map Char.toUpper else block
  let block := if p.changesBy "lcase" then block.map Char.toLower else block
  if p.changesBy "sync" then block ++ List.replicate (p.inSize - block.length) '\x00' else block

def records (size : Nat) (blocks : List (List Char)) : String :=
  let full := (blocks.filter fun b => b.length = size).length
  Text.decimal full ++ "+" ++ Text.decimal (blocks.length - full)

def Plan.read (p : Plan) (cs : List Char) : List (List Char) × Nat :=
  let skip := if p.flags.contains "skip_bytes" then p.skip else p.skip * p.inSize
  let limit := p.count.map fun n => if p.flags.contains "count_bytes" then n else n * p.inSize
  let rest := cs.drop skip
  let taken :=
    match limit with
    | some n => rest.take n
    | none => rest
  (Digest.pieces p.inSize (taken.length + 1) taken, skip + taken.length)

def Plan.placed (p : Plan) (old new : List Char) : List Char :=
  let start := if p.flags.contains "seek_bytes" then p.seek else p.seek * p.outSize
  let before := old.take start
  before ++ List.replicate (start - before.length) '\x00' ++ new ++
    if p.changesBy "notrunc" then old.drop (start + new.length) else []

def Plan.report (p : Plan) (input output : List (List Char)) (size : Nat) : String :=
  let unit := if size = 1 then " byte" else " bytes"
  if p.status = "none" then ""
  else
    records p.inSize input ++ " records in\n" ++ records p.outSize output ++ " records out\n" ++
      if p.status = "noxfer" then ""
      else
        Text.decimal size ++ unit ++ " copied, 0.0001 s, " ++ Text.decimal (size * 10) ++
          " kB/s\n"

end Blocks

def copyBlocks (c : Call) (plan : Blocks.Plan) (text : String) : Work Nat := do
  let (blocks, passed) := plan.read text.toList
  if plan.source.isNone then
    modify fun s => { s with input := String.ofList (s.input.toList.drop passed) }
  let changed := blocks.map plan.changed
  let out := changed.flatten
  let output :=
    if plan.inSize = plan.outSize then changed
    else Digest.pieces plan.outSize (out.length + 1) out
  let report := plan.report blocks output out.length
  match plan.target with
  | none =>
    print (String.ofList out)
    say .errors report
    return 0
  | some name =>
    let t ← getTree
    let old := (readOctets t (c.locate name)).toOption.getD ""
    match writeOctets c t (c.locate name) (String.ofList (plan.placed old.toList out)) with
    | .error e => failWith c 1 ("failed to open " ++ quote name ++ ": " ++ e.reason)
    | .ok t =>
      changeTree fun _ => t
      say .errors report
      return 0

def dd : Tool := fun c =>
  match Blocks.planOf (c.arguments.filter (· ≠ "--")) with
  | .error message =>
    if message.startsWith "unrecognized" then misuse c 1 message else failWith c 1 message
  | .ok plan => do
    let s ← get
    match plan.source with
    | none => copyBlocks c plan s.input
    | some name =>
      match readOctets s.tree (c.locate name) with
      | .ok text => copyBlocks c plan text
      | .error .isADirectory => do
        complain c ("error reading " ++ quote name ++ ": Is a directory")
        let _ ← copyBlocks c plan ""
        return 1
      | .error e => failWith c 1 ("failed to open " ++ quote name ++ ": " ++ e.reason)

end NativeUi.Shell.Tool
