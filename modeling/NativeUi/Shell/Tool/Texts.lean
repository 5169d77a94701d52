import NativeUi.Shell.Tool.Format
import NativeUi.Shell.Tool.Names

/-!
# Tools for texts

Tools that pass texts on, whole or in part, or count what is in them.
-/
namespace NativeUi.Shell.Tool

/-! ### Whole texts -/

def caret (c : Char) : List Char :=
  let n := c.toNat
  if n = 127 then ['^', '?']
  else if n < 32 then ['^', Char.ofNat (n + 64)]
  else if n < 128 then [c]
  else
    let m := n - 128
    if m = 127 then ['M', '-', '^', '?']
    else if m < 32 then ['M', '-', '^', Char.ofNat (m + 64)]
    else ['M', '-', Char.ofNat m]

structure Numbering where
  next : Nat
  blanks : Nat

def decorate (given : List Given) : Numbering → List String → List String
  | _, [] => []
  | n, line :: lines =>
    let ended := endsInNewline line
    let body := if ended then line.toList.dropLast else line.toList
    let isBlank := body.isEmpty && ended
    let squeezed := has given 's' && isBlank && 0 < n.blanks
    let counted := has given 'b' && !isBlank || has given 'n' && !has given 'b'
    let tabs := has given 'T' || has given 'A' || has given 't'
    let hidden := has given 'v' || has given 'A' || has given 'e' || has given 't'
    let shown := body.flatMap fun c =>
      if c = '\t' then if tabs then ['^', 'I'] else [c]
      else if hidden then caret c else [c]
    let ends := has given 'E' || has given 'A' || has given 'e'
    let start := if counted then padLeft 6 (Text.decimal n.next) ++ "\t" else ""
    let text := start ++ String.ofList shown ++ (if ended then if ends then "$\n" else "\n" else "")
    let next : Numbering :=
      ⟨if counted then n.next + 1 else n.next, if isBlank then n.blanks + 1 else 0⟩
    if squeezed then decorate given next lines else text :: decorate given next lines

def cat : Tool :=
  withOptions (.flags "nbEsTAvetu"
    [("number", 'n'), ("number-nonblank", 'b'), ("show-ends", 'E'), ("squeeze-blank", 's'),
      ("show-tabs", 'T'), ("show-all", 'A'), ("show-nonprinting", 'v')])
    1 fun c given operands => do
    if given.all fun x => x.1 == 'u' then
      overTexts c operands fun _ text => do
        print text
        return 0
    else
      let (text, status) ← joinTexts c operands
      print (String.join (decorate given ⟨1, 0⟩ (keptLines text)))
      return status

def tac : Tool := withOptions (.flags "b" []) 1 fun c _ operands =>
  overTexts c operands fun _ text => do
    print (String.join (keptLines text).reverse)
    return 0

def rev : Tool := withOptions (.flags "" []) 1 fun c _ operands =>
  overTexts c operands fun _ text => do
    let reversed (line : String) : String :=
      let cs := line.toList
      if endsInNewline line then String.ofList (cs.dropLast.reverse ++ ['\n'])
      else String.ofList cs.reverse
    print (String.join ((keptLines text).map reversed))
    return 0

def tee : Tool := withOptions (.flags "aip" [("append", 'a')]) 1 fun c given operands => do
  let text ← takeInput
  let status ← forEach
    (fun name => do
      let t ← getTree
      let old :=
        if has given 'a' then (readOctets t (c.locate name)).toOption.getD "" else ""
      match writeOctets c t (c.locate name) (old ++ text) with
      | .ok t =>
        setTree t
        return 0
      | .error e => failWith c 1 (name ++ ": " ++ e.reason))
    operands
  print text
  return status

/-! ### Parts of texts -/

/-- How much of a text is wanted: so many of its units, all but so many, or all from one on. -/
inductive Amount where
  | first (n : Nat)
  | butLast (n : Nat)
  | last (n : Nat)
  | from_ (n : Nat)

def Amount.take {α : Type} : Amount → List α → List α
  | .first n, xs => xs.take n
  | .butLast n, xs => xs.take (xs.length - n)
  | .last n, xs => xs.drop (xs.length - n)
  | .from_ n, xs => xs.drop (n - 1)

def signedCount? (s : String) : Option (Option Char × Nat) :=
  let sized (cs : List Char) : Option Nat :=
    let digits := cs.takeWhile Char.isDigit
    let n := Text.digitsValue digits
    if digits.isEmpty then none
    else
      match cs.dropWhile Char.isDigit with
      | [] => some n
      | ['b'] => some (n * 512)
      | ['K'] => some (n * 1024)
      | ['k'] => some (n * 1024)
      | ['M'] => some (n * 1024 * 1024)
      | _ => none
  match s.toList with
  | '-' :: cs => (sized cs).map fun n => (some '-', n)
  | '+' :: cs => (sized cs).map fun n => (some '+', n)
  | cs => (sized cs).map fun n => (none, n)

def headAmount? (s : String) : Option Amount :=
  (signedCount? s).map fun x => if x.1 = some '-' then .butLast x.2 else .first x.2

def tailAmount? (s : String) : Option Amount :=
  (signedCount? s).map fun x => if x.1 = some '+' then .from_ x.2 else .last x.2

def shorthand? (plus : Bool) (a : String) : Option String :=
  match a.toList with
  | '-' :: c :: cs => if (c :: cs).all Char.isDigit then some (String.ofList (c :: cs)) else none
  | '+' :: c :: cs =>
    if plus && (c :: cs).all Char.isDigit then some ("+" ++ String.ofList (c :: cs)) else none
  | _ => none

def printParts (c : Call) (given : List Given) (names : List String) (part : String → String) :
    Bool → List String → Work Nat
  | _, [] => return 0
  | first, name :: rest => do
    let text ← readOperand c name
    let headed := (1 < names.length || has given 'v') && !has given 'q'
    let shown := if isInputName name then "standard input" else name
    let header := (if first then "" else "\n") ++ "==> " ++ shown ++ " <==\n"
    match text with
    | .error .isADirectory =>
      if headed then print header
      let status ← failWith c 1 ("error reading " ++ quote name ++ ": Is a directory")
      let more ← printParts c given names part false rest
      return max status more
    | .error e =>
      let status ← failWith c 1 ("cannot open " ++ quote name ++ " for reading: " ++ e.reason)
      let more ← printParts c given names part first rest
      return max status more
    | .ok text =>
      if headed then print header
      print (part text)
      printParts c given names part false rest

/-- Prints a part of each text; the first argument may be a number of lines in short. -/
def cutTool (amount? : String → Option Amount) (short : Option String) (default : Amount) : Tool :=
  fun c =>
  let arguments :=
    match short, c.arguments with
    | some n, _ :: rest => ("-n" ++ n) :: rest
    | _, arguments => arguments
  let options := (Options.flags "qvzfF"
    [("lines", 'n'), ("bytes", 'c'), ("quiet", 'q'), ("silent", 'q'), ("verbose", 'v')]).withValues
    "ncs"
  match options.sort true arguments with
  | .error e => misuse c 1 e.message
  | .ok (given, operands) =>
    let names := if operands.isEmpty then ["-"] else operands
    let run (part : String → String) : Work Nat := printParts c given names part true names
    match given.reverse.find? fun x => x.1 == 'n' || x.1 == 'c' with
    | none => run fun text => String.join (default.take (keptLines text))
    | some (letter, value) =>
      match amount? value with
      | none =>
        let counted := if letter = 'c' then "bytes" else "lines"
        failWith c 1 ("invalid number of " ++ counted ++ ": " ++ quote value)
      | some (.last 0) => return 0
      | some a =>
        if letter = 'c' then run fun text => String.ofList (a.take text.toList)
        else run fun text => String.join (a.take (keptLines text))

def head : Tool := fun c =>
  cutTool headAmount? (c.arguments.head?.bind (shorthand? false)) (.first 10) c

/-- The last part of each text. A number of lines in short is for one text only. -/
def tail : Tool := fun c =>
  match c.arguments.head?.bind (shorthand? true), c.arguments with
  | some n, a :: _ :: _ :: _ =>
    if a.toList.head? = some '+' then cutTool tailAmount? none (.last 10) c
    else failWith c 1 ("option used in invalid context -- " ++ String.ofList (n.toList.take 1))
  | short, _ => cutTool tailAmount? short (.last 10) c

/-! ### Counting -/

structure Counts where
  lines : Nat
  words : Nat
  bytes : Nat
  chars : Nat
  longest : Nat

def countWords : Bool → List Char → Nat
  | _, [] => 0
  | inside, c :: cs =>
    if Format.isSpace c then countWords false cs
    else (if inside then 0 else 1) + countWords true cs

def columnsOf (line : List Char) : Nat :=
  line.foldl (fun n c => if c = '\t' then n + 8 - n % 8 else n + 1) 0

def countsOf (text : String) : Counts :=
  let cs := text.toList
  ⟨cs.count '\n', countWords false cs, cs.length, cs.length,
    ((splitLines cs).map columnsOf).foldl max 0⟩

def Counts.plus (a b : Counts) : Counts :=
  ⟨a.lines + b.lines, a.words + b.words, a.bytes + b.bytes, a.chars + b.chars,
    max a.longest b.longest⟩

def chosenCounts (given : List Given) (n : Counts) : List Nat :=
  let all := !"lwcmL".toList.any (has given)
  (if all || has given 'l' then [n.lines] else []) ++
    (if all || has given 'w' then [n.words] else []) ++
    (if has given 'm' then [n.chars] else []) ++
    (if all || has given 'c' then [n.bytes] else []) ++
    (if has given 'L' then [n.longest] else [])

def countLine (given : List Given) (width : Nat) (n : Counts) (name : Option String) : String :=
  " ".intercalate ((chosenCounts given n).map fun x => padLeft width (Text.decimal x)) ++
    match name with
    | some s => " " ++ s ++ "\n"
    | none => "\n"

def wc : Tool :=
  withOptions (.flags "lwcmL"
    [("lines", 'l'), ("words", 'w'), ("bytes", 'c'), ("chars", 'm'), ("max-line-length", 'L')])
    1 fun c given operands => do
    let names := if operands.isEmpty then ["-"] else operands
    let s ← get
    let t := s.tree
    let sizes := names.map fun n =>
      if isInputName n then if c.fromFile then some s.input.length else none
      else (readOctets t (c.locate n)).toOption.map String.length
    let isPlain (n : String) : Bool :=
      if isInputName n then c.fromFile
      else
        match t.find (c.locate n) with
        | .ok (_, .directory) => false
        | _ => true
    let total := (sizes.filterMap id).foldl (· + ·) 0
    let least := if names.all isPlain then 1 else 7
    let single := names.length = 1 && (chosenCounts given ⟨0, 0, 0, 0, 0⟩).length = 1
    let width := if single then 1 else max least (Text.decimal total).length
    let shown (name : String) : Option String := if operands.isEmpty then none else some name
    let results ← names.mapM fun name => do
      let text ← readOperand c name
      match text with
      | .ok text =>
        let n := countsOf text
        print (countLine given width n (shown name))
        return (n, 0)
      | .error e =>
        complain c (name ++ ": " ++ e.reason)
        if e = .isADirectory then print (countLine given width ⟨0, 0, 0, 0, 0⟩ (shown name))
        return (⟨0, 0, 0, 0, 0⟩, 1)
    if 1 < names.length then
      let sum := (results.map Prod.fst).foldl Counts.plus ⟨0, 0, 0, 0, 0⟩
      print (countLine given width sum (some "total"))
    return (results.map Prod.snd).foldl max 0

/-! ### Lines side by side and in other widths -/

def numberLines (chosen : String → Bool) (mark : Nat → String) (empty : String) (step : Nat) :
    Nat → List String → List String
  | _, [] => []
  | n, line :: lines =>
    if chosen line then (mark n ++ line) :: numberLines chosen mark empty step (n + step) lines
    else (empty ++ line) :: numberLines chosen mark empty step n lines

def nl : Tool :=
  withOptions ((Options.flags "p" []).withValues "bwvsni") 1 fun c given operands => do
    let (text, status) ← joinTexts c operands
    let number (letter : Char) (default : Nat) : Nat :=
      ((valueOf? given letter).bind natural?).getD default
    let width := number 'w' 6
    let separator := (valueOf? given 's').getD "\t"
    let chosen (line : String) : Bool :=
      match valueOf? given 'b' with
      | some "a" => true
      | some "n" => false
      | _ => !line.isEmpty
    let mark (n : Nat) : String :=
      let digits := Text.decimal n
      let padding := width - digits.length
      let text :=
        match valueOf? given 'n' with
        | some "ln" => digits ++ Text.spaces padding
        | some "rz" => String.ofList (List.replicate padding '0') ++ digits
        | _ => Text.spaces padding ++ digits
      text ++ separator
    print (ofLines (numberLines chosen mark (Text.spaces (width + separator.length)) (number 'i' 1)
      (number 'v' 1) (linesOf text)))
    return status

def separatorAt (separators : List Char) (k : Nat) : String :=
  match separators[k % max separators.length 1]? with
  | some c => c.toString
  | none => ""

def joinInTurn (separators : List Char) : Nat → List String → String
  | _, [] => ""
  | _, [s] => s
  | k, s :: ss => s ++ separatorAt separators k ++ joinInTurn separators (k + 1) ss

def delimitersOf (s : String) : List Char :=
  (Format.unescape .program (s.length + 1) s.toList).1

def paste : Tool :=
  withOptions ((Options.flags "sz" [("serial", 's'), ("delimiters", 'd')]).withValues "d")
    1 fun c given operands => do
    let separators := delimitersOf ((valueOf? given 'd').getD "\t")
    let names := if operands.isEmpty then ["-"] else operands
    let texts ← names.mapM fun n => readOperand c n
    let faults := (names.zip texts).filterMap fun x =>
      match x.2 with
      | .error e => some (x.1 ++ ": " ++ e.reason)
      | .ok _ => none
    match faults with
    | message :: _ => failWith c 1 message
    | [] =>
      let columns := texts.map fun t => linesOf (t.toOption.getD "")
      if has given 's' then
        print (ofLines (columns.map (joinInTurn separators 0)))
      else
        let height := (columns.map List.length).foldl max 0
        let row (k : Nat) : String :=
          joinInTurn separators 0 (columns.map fun lines => (lines[k]?).getD "")
        print (ofLines ((List.range height).map row))
      return 0

def piecesOf (length : Nat) : Nat → List Char → List (List Char)
  | 0, cs => [cs]
  | fuel + 1, cs =>
    if cs.length ≤ length then [cs] else cs.take length :: piecesOf length fuel (cs.drop length)

def columnBehind (octets : Bool) (column : Nat) (c : Char) : Nat :=
  if octets then column + 1
  else
    match c with
    | '\x08' => column - 1
    | '\r' => 0
    | '\t' => column + 8 - column % 8
    | _ => column + 1

structure Folding where
  width : Nat
  octets : Bool
  atBlanks : Bool

/-- Cuts a line into pieces no wider than allowed, if it can behind a blank. The piece that is
being made stands in `piece` backwards. -/
def Folding.pieces (f : Folding) : Nat → List Char → Nat → List Char → List (List Char)
  | 0, piece, _, cs => [piece.reverse ++ cs]
  | _ + 1, piece, _, [] => if piece.isEmpty then [] else [piece.reverse]
  | fuel + 1, piece, column, c :: cs =>
    let next := columnBehind f.octets column c
    let behind := piece.takeWhile fun x => !isBlank x
    if next ≤ f.width || piece.isEmpty then f.pieces fuel (c :: piece) next cs
    else if f.atBlanks && behind.length < piece.length then
      (piece.drop behind.length).reverse ::
        f.pieces fuel behind (behind.reverse.foldl (columnBehind f.octets) 0) (c :: cs)
    else piece.reverse :: f.pieces fuel [] 0 (c :: cs)

def fold : Tool := fun c =>
  let arguments := c.arguments.map fun a =>
    match a.toList with
    | '-' :: d :: ds => if (d :: ds).all Char.isDigit then "-w" ++ String.ofList (d :: ds) else a
    | _ => a
  withOptions
    ((Options.flags "bs" [("width", 'w'), ("bytes", 'b'), ("spaces", 's')]).withValues "w")
    1 (fun c given operands =>
      match valueOf? given 'w', (valueOf? given 'w').bind natural? with
      | some w, none => failWith c 1 ("invalid number of columns: " ++ quote w)
      | some _, some 0 =>
        failWith c 1 ("invalid number of columns: " ++ quote "0" ++
          ": Numerical result out of range")
      | _, width? =>
        let f : Folding := ⟨width?.getD 80, has given 'b', has given 's'⟩
        overTexts c operands fun _ text => do
          let cut (line : String) : String :=
            let ended := endsInNewline line
            let body := if ended then line.toList.dropLast else line.toList
            "\n".intercalate ((f.pieces (3 * line.length + 1) [] 0 body).map String.ofList) ++
              if ended then "\n" else ""
          print (String.join ((keptLines text).map cut))
          return 0)
    { c with arguments := arguments }

/-! ### Numbers in sequence -/

def decimalOf? (s : String) : Option (Int × Nat) :=
  let (negative, cs) := Format.scanSign s.toList
  let whole := cs.takeWhile Char.isDigit
  let (fraction, rest) :=
    match cs.dropWhile Char.isDigit with
    | '.' :: more => (more.takeWhile Char.isDigit, more.dropWhile Char.isDigit)
    | rest => ([], rest)
  if !rest.isEmpty || (whole.isEmpty && fraction.isEmpty) then none
  else
    let n : Int := Text.digitsValue (whole ++ fraction)
    some (if negative then -n else n, fraction.length)

def scaled (x : Int × Nat) (places : Nat) : Int := x.1 * 10 ^ (places - x.2)

def decimalText (places : Nat) (i : Int) : String :=
  (if i < 0 then "-" else "") ++ Format.pointed false (Text.decimalChars i.natAbs) places

def steps (step last : Int) : Nat → Int → List Int
  | 0, _ => []
  | fuel + 1, i =>
    if (0 < step && last < i) || (step < 0 && i < last) then []
    else i :: steps step last fuel (i + step)

def seq : Tool := fun c =>
  let isNumber (a : String) : Bool := (decimalOf? a).isSome
  let options := (Options.flags "w"
    [("separator", 's'), ("equal-width", 'w'), ("format", 'f')]).withValues "sf"
  let numbers := (c.arguments.reverse.takeWhile isNumber).reverse
  let others := c.arguments.take (c.arguments.length - numbers.length)
  match options.sort false others with
  | .error e => misuse c 1 e.message
  | .ok (given, stray) =>
    let operands := stray ++ numbers
    match operands.find? fun a => !isNumber a with
    | some a => misuse c 1 ("invalid floating point argument: " ++ quote a)
    | none =>
      let run (first step last : String) : Work Nat := do
        let value (s : String) : Int × Nat := (decimalOf? s).getD (0, 0)
        let places := max (value first).2 (value step).2
        let all := max places (value last).2
        let a := scaled (value first) all
        let b := scaled (value step) all
        let z := scaled (value last) all
        if b = 0 then misuse c 1 ("invalid Zero increment value: " ++ quote step)
        else
          let count := ((z - a) / b).toNat + 1
          let plain := (steps b z (count + 1) a).map fun i =>
            decimalText places (Int.tdiv i (10 ^ (all - places)))
          let width := (plain.map String.length).foldl max 0
          let even (s : String) : String :=
            match s.toList with
            | '-' :: cs => "-" ++ String.ofList (List.replicate (width - s.length) '0' ++ cs)
            | cs => String.ofList (List.replicate (width - s.length) '0' ++ cs)
          let shown :=
            match valueOf? given 'f' with
            | some f => plain.map fun s => (Format.format .program f [s]).text
            | none => if has given 'w' then plain.map even else plain
          let separator := (valueOf? given 's').getD "\n"
          if shown.isEmpty then pure () else print (separator.intercalate shown ++ "\n")
          return 0
      match operands with
      | [] => misuse c 1 "missing operand"
      | [last] => run "1" "1" last
      | [first, last] => run first "1" last
      | [first, step, last] => run first step last
      | _ :: _ :: _ :: extra :: _ => misuse c 1 ("extra operand " ++ quote extra)

/-! ### Octets as letters -/

def base64Digits : List Char :=
  "ABCDEFGHIJKLMNOPQRSTUVWXYZabcdefghijklmnopqrstuvwxyz0123456789+/".toList

def base64Digit (n : Nat) : Char := (base64Digits[n % 64]?).getD 'A'

def base64Encode : List Char → List Char
  | a :: b :: c :: cs =>
    let n := a.toNat * 65536 + b.toNat * 256 + c.toNat
    [base64Digit (n / 262144), base64Digit (n / 4096), base64Digit (n / 64), base64Digit n] ++
      base64Encode cs
  | [a, b] =>
    let n := a.toNat * 65536 + b.toNat * 256
    [base64Digit (n / 262144), base64Digit (n / 4096), base64Digit (n / 64), '=']
  | [a] =>
    let n := a.toNat * 65536
    [base64Digit (n / 262144), base64Digit (n / 4096), '=', '=']
  | [] => []

def base64Value? (c : Char) : Option Nat := base64Digits.findIdx? (· = c)

def base64Decode : List Char → Option (List Char)
  | a :: b :: '=' :: '=' :: _ => do
    let x ← base64Value? a
    let y ← base64Value? b
    some [Format.octet (x * 4 + y / 16)]
  | a :: b :: c :: '=' :: _ => do
    let x ← base64Value? a
    let y ← base64Value? b
    let z ← base64Value? c
    some [Format.octet (x * 4 + y / 16), Format.octet (y * 16 + z / 4)]
  | a :: b :: c :: d :: cs => do
    let x ← base64Value? a
    let y ← base64Value? b
    let z ← base64Value? c
    let w ← base64Value? d
    let more ← base64Decode cs
    some ([Format.octet (x * 4 + y / 16), Format.octet (y * 16 + z / 4),
      Format.octet (z * 64 + w)] ++ more)
  | [] => some []
  | _ => none

def base64 : Tool :=
  withOptions ((Options.flags "di" [("decode", 'd'), ("wrap", 'w')]).withValues "w")
    1 fun c given operands =>
    overTexts c (operands.take 1) fun _ text => do
      if has given 'd' then
        match base64Decode (text.toList.filter (· ≠ '\n')) with
        | some cs =>
          print (String.ofList cs)
          return 0
        | none => failWith c 1 "invalid input"
      else
        let digits := base64Encode text.toList
        let width := ((valueOf? given 'w').bind natural?).getD 76
        if width = 0 then print (String.ofList digits)
        else if digits.isEmpty then pure ()
        else print (ofLines ((piecesOf width digits.length digits).map String.ofList))
        return 0

def base32Digits : List Char := "ABCDEFGHIJKLMNOPQRSTUVWXYZ234567".toList

def bitsOf : Nat → Nat → List Bool
  | 0, _ => []
  | width + 1, n => n.testBit width :: bitsOf width n

def ofBits (bits : List Bool) : Nat := bits.foldl (fun n b => 2 * n + if b then 1 else 0) 0

def bitGroups (size : Nat) : Nat → List Bool → List Nat
  | 0, _ => []
  | fuel + 1, bits =>
    if bits.isEmpty then []
    else
      let group := bits.take size
      ofBits (group ++ List.replicate (size - group.length) false) ::
        bitGroups size fuel (bits.drop size)

def base32Encode (cs : List Char) : List Char :=
  let bits := cs.flatMap fun c => bitsOf 8 c.toNat
  let digits := (bitGroups 5 (bits.length + 1) bits).map fun n => (base32Digits[n]?).getD 'A'
  digits ++ List.replicate ((8 - digits.length % 8) % 8) '='

def base32Decode (cs : List Char) : Option (List Char) := do
  let digits := cs.takeWhile (· ≠ '=')
  let rest := cs.drop digits.length
  let values ← digits.mapM fun c => base32Digits.findIdx? (· = c)
  let bits := values.flatMap (bitsOf 5)
  if cs.length % 8 ≠ 0 || rest.any (· ≠ '=') then none
  else
    let whole := bits.take (bits.length / 8 * 8)
    some ((bitGroups 8 (whole.length + 1) whole).map Char.ofNat)

def base32 : Tool :=
  withOptions ((Options.flags "di" [("decode", 'd'), ("wrap", 'w')]).withValues "w")
    1 fun c given operands =>
    overTexts c (operands.take 1) fun _ text => do
      if has given 'd' then
        match base32Decode (text.toList.filter (· ≠ '\n')) with
        | some cs =>
          print (String.ofList cs)
          return 0
        | none => failWith c 1 "invalid input"
      else
        let digits := base32Encode text.toList
        let width := ((valueOf? given 'w').bind natural?).getD 76
        if width = 0 then print (String.ofList digits)
        else if digits.isEmpty then pure ()
        else print (ofLines ((piecesOf width digits.length digits).map String.ofList))
        return 0

/-! ### Plain printing -/

def echo : Tool := fun c => do
  print (Format.echo .program c.arguments)
  return 0

def printf : Tool := fun c => do
  let arguments :=
    match c.arguments with
    | "--" :: rest => rest
    | rest => rest
  match arguments with
  | [] => misuse c 1 "missing operand"
  | template :: values =>
    let f := Format.format .program template values
    forM f.warnings fun w => complain c w
    print f.text
    match f.failure, f.leftOver with
    | some message, _ => failWith c 1 message
    | none, some extra =>
      failWith c (if f.warnings.isEmpty then 0 else 1)
        ("warning: ignoring excess arguments, starting with " ++ quote extra)
    | none, none => return if f.warnings.isEmpty then 0 else 1

def yes : Tool := fun c => do
  let line := if c.arguments.isEmpty then "y" else " ".intercalate c.arguments
  print (ofLines (List.replicate 100000 line))
  return 0

end NativeUi.Shell.Tool
