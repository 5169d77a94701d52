import NativeUi.Shell.Tool.Texts

/-!
# Digests

Numbers that stand for a text. A digest pads the text to whole blocks and folds a round function
over the words of each block; a check sum folds over the octets.
-/
namespace NativeUi.Shell.Tool.Digest

abbrev Octet := Nat

/-! ### Words -/

def wrap (bits n : Nat) : Nat := n % 2 ^ bits

def rotateRight (bits count n : Nat) : Nat := wrap bits (n >>> count ||| n <<< (bits - count))

def rotateLeft (bits count n : Nat) : Nat := rotateRight bits (bits - count) n

def complement (bits n : Nat) : Nat := 2 ^ bits - 1 - n

def reversedOctets : Nat → Nat → List Octet
  | 0, _ => []
  | size + 1, n => n % 256 :: reversedOctets size (n / 256)

def octetsOf (size n : Nat) : List Octet := (reversedOctets size n).reverse

def wordOf (octets : List Octet) : Nat := octets.foldl (fun n x => n * 256 + x) 0

def pieces {α : Type} (size : Nat) : Nat → List α → List (List α)
  | 0, _ => []
  | fuel + 1, xs => if xs.isEmpty then [] else xs.take size :: pieces size fuel (xs.drop size)

def padded (block : Nat) (lengthOctets : Nat → List Octet) (octets : List Octet) :
    List (List Octet) :=
  let last := lengthOctets (8 * octets.length)
  let used := (octets.length + 1 + last.length) % block
  let all := octets ++ [128] ++ List.replicate ((block - used) % block) 0 ++ last
  pieces block (all.length + 1) all

/-! ### The family with eight registers -/

/-- How a member of the family works: the size of its words, the number of its rounds and the
distances of its rotations. The last of a small distance is a shift. -/
structure Family where
  bits : Nat
  rounds : Nat
  large0 : Nat × Nat × Nat
  large1 : Nat × Nat × Nat
  small0 : Nat × Nat × Nat
  small1 : Nat × Nat × Nat

def short : Family := ⟨32, 64, (2, 13, 22), (6, 11, 25), (7, 18, 3), (17, 19, 10)⟩

def long : Family := ⟨64, 80, (28, 34, 39), (14, 18, 41), (1, 8, 7), (19, 61, 6)⟩

def isPrime (n : Nat) : Bool := 2 ≤ n && (List.range n).all fun d => d < 2 || n % d ≠ 0

def primes : List Nat := (List.range 410).filter isPrime

def rootBelow (power n : Nat) : Nat → Nat → Nat
  | 0, found => found
  | bit + 1, found =>
    let next := found + 2 ^ bit
    rootBelow power n bit (if next ^ power ≤ n then next else found)

def rootFraction (power n : Nat) : Nat := wrap 64 (rootBelow power (n * 2 ^ (64 * power)) 70 0)

def roundConstants : List Nat := (primes.take 80).map (rootFraction 3)

def Family.constants (f : Family) : List Nat :=
  (roundConstants.take f.rounds).map fun k => k >>> (64 - f.bits)

def Family.rotated (f : Family) (d : Nat × Nat × Nat) (n : Nat) : Nat :=
  rotateRight f.bits d.1 n ^^^ rotateRight f.bits d.2.1 n ^^^ rotateRight f.bits d.2.2 n

def Family.shifted (f : Family) (d : Nat × Nat × Nat) (n : Nat) : Nat :=
  rotateRight f.bits d.1 n ^^^ rotateRight f.bits d.2.1 n ^^^ n >>> d.2.2

def Family.schedule (f : Family) (block : List Octet) : List Nat :=
  let words := ((pieces (f.bits / 8) 17 block).map wordOf).toArray
  let next (w : Array Nat) : Array Nat :=
    let old (k : Nat) : Nat := (w[w.size - k]?).getD 0
    w.push (wrap f.bits
      (f.shifted f.small1 (old 2) + old 7 + f.shifted f.small0 (old 15) + old 16))
  ((List.range (f.rounds - 16)).foldl (fun w _ => next w) words).toList

structure Registers where
  a : Nat
  b : Nat
  c : Nat
  d : Nat
  e : Nat
  f : Nat
  g : Nat
  h : Nat

def Registers.ofList : List Nat → Registers
  | [a, b, c, d, e, f, g, h] => ⟨a, b, c, d, e, f, g, h⟩
  | _ => ⟨0, 0, 0, 0, 0, 0, 0, 0⟩

def Registers.toList (r : Registers) : List Nat := [r.a, r.b, r.c, r.d, r.e, r.f, r.g, r.h]

def Family.round (f : Family) (r : Registers) (step : Nat × Nat) : Registers :=
  let choice := (r.e &&& r.f) ^^^ (complement f.bits r.e &&& r.g)
  let majority := (r.a &&& r.b) ^^^ (r.a &&& r.c) ^^^ (r.b &&& r.c)
  let first := r.h + f.rotated f.large1 r.e + choice + step.1 + step.2
  let second := f.rotated f.large0 r.a + majority
  ⟨wrap f.bits (first + second), r.a, r.b, r.c, wrap f.bits (r.d + first), r.e, r.f, r.g⟩

def addWords (bits : Nat) (as bs : List Nat) : List Nat :=
  (as.zip bs).map fun x => wrap bits (x.1 + x.2)

def Family.digest (f : Family) (start : List Nat) (octets : List Octet) : List Octet :=
  let size := f.bits / 8
  let constants := f.constants
  let fold (state : List Nat) (block : List Octet) : List Nat :=
    let final := (constants.zip (f.schedule block)).foldl f.round (.ofList state)
    addWords f.bits state final.toList
  ((padded (16 * size) (octetsOf (2 * size)) octets).foldl fold start).flatMap (octetsOf size)

def sha256 (octets : List Octet) : List Octet :=
  short.digest ((primes.take 8).map fun p => rootFraction 2 p >>> 32) octets

def sha224 (octets : List Octet) : List Octet :=
  (short.digest (((primes.drop 8).take 8).map fun p => wrap 32 (rootFraction 2 p)) octets).take 28

def sha512 (octets : List Octet) : List Octet :=
  long.digest ((primes.take 8).map (rootFraction 2)) octets

def sha384 (octets : List Octet) : List Octet :=
  (long.digest (((primes.drop 8).take 8).map (rootFraction 2)) octets).take 48

/-! ### The older ones -/

def mixedSchedule (block : List Octet) : List Nat :=
  let words := ((pieces 4 17 block).map wordOf).toArray
  let next (w : Array Nat) : Array Nat :=
    let old (k : Nat) : Nat := (w[w.size - k]?).getD 0
    w.push (rotateLeft 32 1 (old 3 ^^^ old 8 ^^^ old 14 ^^^ old 16))
  ((List.range 64).foldl (fun w _ => next w) words).toList

structure Five where
  a : Nat
  b : Nat
  c : Nat
  d : Nat
  e : Nat

def Five.round (r : Five) (step : Nat × Nat) : Five :=
  let parity := r.b ^^^ r.c ^^^ r.d
  let (mixed, constant) :=
    if step.1 < 20 then ((r.b &&& r.c) ||| (complement 32 r.b &&& r.d), 0x5a827999)
    else if step.1 < 40 then (parity, 0x6ed9eba1)
    else if step.1 < 60 then ((r.b &&& r.c) ||| (r.b &&& r.d) ||| (r.c &&& r.d), 0x8f1bbcdc)
    else (parity, 0xca62c1d6)
  ⟨wrap 32 (rotateLeft 32 5 r.a + mixed + r.e + constant + step.2), r.a, rotateLeft 32 30 r.b, r.c,
    r.d⟩

def sha1 (octets : List Octet) : List Octet :=
  let fold (s : Five) (block : List Octet) : Five :=
    let r := ((List.range 80).zip (mixedSchedule block)).foldl Five.round s
    ⟨wrap 32 (s.a + r.a), wrap 32 (s.b + r.b), wrap 32 (s.c + r.c), wrap 32 (s.d + r.d),
      wrap 32 (s.e + r.e)⟩
  let s := (padded 64 (octetsOf 8) octets).foldl fold
    ⟨0x67452301, 0xefcdab89, 0x98badcfe, 0x10325476, 0xc3d2e1f0⟩
  [s.a, s.b, s.c, s.d, s.e].flatMap (octetsOf 4)

/-- The first 32 bits behind the point of the sines of one to 64, without their signs. -/
def sines : List Nat := [
  0xd76aa478, 0xe8c7b756, 0x242070db, 0xc1bdceee, 0xf57c0faf, 0x4787c62a, 0xa8304613, 0xfd469501,
  0x698098d8, 0x8b44f7af, 0xffff5bb1, 0x895cd7be, 0x6b901122, 0xfd987193, 0xa679438e, 0x49b40821,
  0xf61e2562, 0xc040b340, 0x265e5a51, 0xe9b6c7aa, 0xd62f105d, 0x02441453, 0xd8a1e681, 0xe7d3fbc8,
  0x21e1cde6, 0xc33707d6, 0xf4d50d87, 0x455a14ed, 0xa9e3e905, 0xfcefa3f8, 0x676f02d9, 0x8d2a4c8a,
  0xfffa3942, 0x8771f681, 0x6d9d6122, 0xfde5380c, 0xa4beea44, 0x4bdecfa9, 0xf6bb4b60, 0xbebfbc70,
  0x289b7ec6, 0xeaa127fa, 0xd4ef3085, 0x04881d05, 0xd9d4d039, 0xe6db99e5, 0x1fa27cf8, 0xc4ac5665,
  0xf4292244, 0x432aff97, 0xab9423a7, 0xfc93a039, 0x655b59c3, 0x8f0ccc92, 0xffeff47d, 0x85845dd1,
  0x6fa87e4f, 0xfe2ce6e0, 0xa3014314, 0x4e0811a1, 0xf7537e82, 0xbd3af235, 0x2ad7d2bb, 0xeb86d391]

def turn (round : Nat) : Nat :=
  let turns : List Nat :=
    match round / 16 with
    | 0 => [7, 12, 17, 22]
    | 1 => [5, 9, 14, 20]
    | 2 => [4, 11, 16, 23]
    | _ => [6, 10, 15, 21]
  (turns[round % 4]?).getD 0

structure Four where
  a : Nat
  b : Nat
  c : Nat
  d : Nat

def Four.round (words : Array Nat) (r : Four) (step : Nat × Nat) : Four :=
  let i := step.1
  let (mixed, place) :=
    match i / 16 with
    | 0 => ((r.b &&& r.c) ||| (complement 32 r.b &&& r.d), i)
    | 1 => ((r.d &&& r.b) ||| (complement 32 r.d &&& r.c), 5 * i + 1)
    | 2 => (r.b ^^^ r.c ^^^ r.d, 3 * i + 5)
    | _ => (r.c ^^^ (r.b ||| complement 32 r.d), 7 * i)
  let sum := wrap 32 (mixed + r.a + step.2 + (words[place % 16]?).getD 0)
  ⟨r.d, wrap 32 (r.b + rotateLeft 32 (turn i) sum), r.b, r.c⟩

def md5 (octets : List Octet) : List Octet :=
  let fold (s : Four) (block : List Octet) : Four :=
    let words := ((pieces 4 17 block).map fun x => wordOf x.reverse).toArray
    let r := ((List.range 64).zip sines).foldl (Four.round words) s
    ⟨wrap 32 (s.a + r.a), wrap 32 (s.b + r.b), wrap 32 (s.c + r.c), wrap 32 (s.d + r.d)⟩
  let s := (padded 64 (reversedOctets 8) octets).foldl fold
    ⟨0x67452301, 0xefcdab89, 0x98badcfe, 0x10325476⟩
  [s.a, s.b, s.c, s.d].flatMap (reversedOctets 4)

/-! ### Check sums -/

def crcBits : Nat → Nat → Nat
  | 0, crc => crc
  | k + 1, crc =>
    crcBits k (if crc < 2 ^ 31 then 2 * crc else wrap 32 (2 * crc) ^^^ 0x04c11db7)

def crcOctet (crc : Nat) (x : Octet) : Nat := crcBits 8 (crc ^^^ x <<< 24)

def lengthOctets : Nat → Nat → List Octet
  | 0, _ => []
  | fuel + 1, n => if n = 0 then [] else n % 256 :: lengthOctets fuel (n / 256)

def crc (octets : List Octet) : Nat :=
  complement 32 ((octets ++ lengthOctets 8 octets.length).foldl crcOctet 0)

def turnedSum (octets : List Octet) : Nat :=
  octets.foldl (fun n x => wrap 16 (rotateRight 16 1 n + x)) 0

def foldedSum (octets : List Octet) : Nat :=
  let s := wrap 32 (octets.foldl (· + ·) 0)
  let r := s % 65536 + s / 65536
  r % 65536 + r / 65536

end Digest

/-! ### The tools -/

structure Digester where
  label : String
  digits : Nat
  digest : List Digest.Octet → List Digest.Octet

namespace Digester

def hexText (octets : List Digest.Octet) : String :=
  String.ofList (octets.flatMap fun x => Nat.toDigits 16 (x / 16) ++ Nat.toDigits 16 (x % 16))

def ofText (d : Digester) (text : String) : String :=
  hexText (d.digest (text.toList.map Char.toNat))

def escaped (name : String) : String :=
  String.ofList (name.toList.flatMap fun c =>
    if c = '\n' then ['\\', 'n'] else if c = '\r' then ['\\', 'r']
    else if c = '\\' then ['\\', '\\'] else [c])

def unescaped : List Char → List Char
  | '\\' :: 'n' :: cs => '\n' :: unescaped cs
  | '\\' :: 'r' :: cs => '\r' :: unescaped cs
  | '\\' :: '\\' :: cs => '\\' :: unescaped cs
  | c :: cs => c :: unescaped cs
  | [] => []

def line (d : Digester) (tagged binary ended : Bool) (name digest : String) : String :=
  let shown := if ended then name else escaped name
  (if shown = name then "" else "\\") ++
    if tagged then d.label ++ " (" ++ shown ++ ") = " ++ digest
    else digest ++ (if binary then " *" else "  ") ++ shown

def parseLine? (d : Digester) (text : String) : Option (String × String) :=
  let cs := (text.toList.dropWhile (· = ' '))
  let (isEscaped, cs) :=
    match cs with
    | '\\' :: cs => (true, cs)
    | cs => (false, cs)
  let name (cs : List Char) : String := String.ofList (if isEscaped then unescaped cs else cs)
  let isDigest (cs : List Char) : Bool :=
    cs.length = d.digits && cs.all fun c => c.isDigit || ('a' ≤ c.toLower && c.toLower ≤ 'f')
  let start := (d.label ++ " (").toList
  if start.isPrefixOf cs then
    let rest := (cs.drop start.length).reverse
    let digest := (rest.take d.digits).reverse
    match rest.drop d.digits with
    | ' ' :: '=' :: ' ' :: ')' :: named =>
      if isDigest digest then some (String.ofList digest, name named.reverse) else none
    | _ => none
  else
    let digest := cs.take d.digits
    match cs.drop d.digits with
    | ' ' :: c :: named =>
      if !isDigest digest || named.isEmpty && (c = ' ' || c = '*') then none
      else some (String.ofList digest, name (if c = ' ' || c = '*' then named else c :: named))
    | _ => none

structure Verdict where
  valid : Nat
  bad : Nat
  missing : Nat
  unread : Nat

def counted (n : Nat) (one many : String) : String :=
  "WARNING: " ++ Text.decimal n ++ " " ++ if n = 1 then one else many

def checkLine (d : Digester) (c : Call) (given : List Given) (list : String) (v : Verdict)
    (numbered : String × Nat) : Work Verdict := do
  let silent := has given 'S'
  match d.parseLine? numbered.1 with
  | none =>
    if has given 'w' then
      complain c (list ++ ": " ++ Text.decimal numbered.2 ++ ": improperly formatted " ++ d.label ++
        " checksum line")
    return { v with bad := v.bad + 1 }
  | some (digest, name) =>
    let shown := escaped name
    let mark := if shown = name then "" else "\\"
    let text ← readOperand c name
    match text with
    | .error e =>
      if has given 'I' && e == .notFound then return { v with valid := v.valid + 1 }
      complain c (name ++ ": " ++ e.reason)
      if !silent then printLine (mark ++ shown ++ ": FAILED open or read")
      return { v with valid := v.valid + 1, unread := v.unread + 1 }
    | .ok text =>
      if d.ofText text = String.ofList (digest.toList.map Char.toLower) then
        if !silent && !has given 'q' then printLine (mark ++ shown ++ ": OK")
        return { v with valid := v.valid + 1 }
      else
        if !silent then printLine (mark ++ shown ++ ": FAILED")
        return { v with valid := v.valid + 1, missing := v.missing + 1 }

def check (d : Digester) (c : Call) (given : List Given) (list text : String) : Work Nat := do
  let lines := ((linesOf text).zipIdx 1).filter fun x => x.1.toList.head? != some '#'
  let shown := if isInputName list then "'standard input'" else list
  let v ← lines.foldlM (d.checkLine c given list) ⟨0, 0, 0, 0⟩
  let warn (n : Nat) (one many : String) : Work Unit :=
    if n = 0 || has given 'S' then pure () else complain c (counted n one many)
  if v.valid = 0 then
    failWith c 1 (shown ++ ": no properly formatted checksum lines found")
  else
    warn v.bad "line is improperly formatted" "lines are improperly formatted"
    warn v.unread "listed file could not be read" "listed files could not be read"
    warn v.missing "computed checksum did NOT match" "computed checksums did NOT match"
    return if v.missing = 0 && v.unread = 0 && (v.bad = 0 || !has given 's') then 0 else 1

def options : Options :=
  .flags "bctwzTqSsI" [("binary", 'b'), ("check", 'c'), ("text", 't'), ("warn", 'w'), ("zero", 'z'),
    ("tag", 'T'), ("quiet", 'q'), ("status", 'S'), ("strict", 's'), ("ignore-missing", 'I')]

def tool (d : Digester) : Tool := withOptions options 1 fun c given operands =>
  overTexts c operands fun name text =>
    if has given 'c' then d.check c given name text
    else do
      let zero := has given 'z'
      print (d.line (has given 'T') (has given 'b') zero name (d.ofText text) ++
        if zero then "\x00" else "\n")
      return 0

end Digester

def digesters : List (String × Digester) := [
  ("md5", ⟨"MD5", 32, Digest.md5⟩), ("sha1", ⟨"SHA1", 40, Digest.sha1⟩),
  ("sha224", ⟨"SHA224", 56, Digest.sha224⟩), ("sha256", ⟨"SHA256", 64, Digest.sha256⟩),
  ("sha384", ⟨"SHA384", 96, Digest.sha384⟩), ("sha512", ⟨"SHA512", 128, Digest.sha512⟩)]

def digestTools : List (String × Tool) := digesters.map fun (name, d) => (name ++ "sum", d.tool)

def blocksOf (size : Nat) (text : String) : Nat := (text.length + size - 1) / size

def turnedLine (many : Bool) (name text : String) : String :=
  let sum := Text.decimal (Digest.turnedSum (text.toList.map Char.toNat))
  "".pushn '0' (5 - sum.length) ++ sum ++ " " ++ padLeft 5 (Text.decimal (blocksOf 1024 text)) ++
    if many then " " ++ name else ""

def foldedLine (operands : List String) (name text : String) : String :=
  Text.decimal (Digest.foldedSum (text.toList.map Char.toNat)) ++ " " ++
    Text.decimal (blocksOf 512 text) ++ if operands.isEmpty then "" else " " ++ name

def crcLine (operands : List String) (name text : String) : String :=
  Text.decimal (Digest.crc (text.toList.map Char.toNat)) ++ " " ++ Text.decimal text.length ++
    if operands.isEmpty then "" else " " ++ name

def sum : Tool := withOptions (.flags "rs" [("sysv", 's')]) 1 fun c given operands =>
  let folds := ((given.map Prod.fst).reverse.headD 'r') = 's'
  overTexts c operands fun name text => do
    printLine (if folds then foldedLine operands name text
      else turnedLine (!operands.isEmpty) name text)
    return 0

def cksum : Tool :=
  withOptions ((Options.flags "uTcwqSsIz" [("algorithm", 'a'), ("untagged", 'u'), ("tag", 'T'),
    ("check", 'c'), ("warn", 'w'), ("quiet", 'q'), ("status", 'S'), ("strict", 's'),
    ("ignore-missing", 'I'), ("zero", 'z')]).withValues "a") 1 fun c given operands =>
  let plain (f : String → String → String) : Work Nat :=
    overTexts c operands fun name text => do
      printLine (f name text)
      return 0
  match (valueOf? given 'a').getD "crc" with
  | "crc" => plain (crcLine operands)
  | "bsd" => plain (turnedLine (!operands.isEmpty))
  | "sysv" => plain (foldedLine operands)
  | name =>
    match digesters.find? fun x => x.1 == name with
    | none => misuse c 1 ("invalid argument " ++ quote name ++ " for '--algorithm'")
    | some (_, d) =>
      overTexts c operands fun name text =>
        if has given 'c' then d.check c given name text
        else do
          printLine (d.line (!has given 'u') false false name (d.ofText text))
          return 0

end NativeUi.Shell.Tool
