import NativeUi.Shell.Tool.Texts

/-!
# Ordering lines

Sorting lines by keys, and what can be said of sorted lines.
-/
namespace NativeUi.Shell.Tool

/-- How a key is compared. Blanks before the first and before the last character of a key are
left out apart from each other. -/
structure Comparison where
  numeric : Bool := false
  general : Bool := false
  human : Bool := false
  month : Bool := false
  version : Bool := false
  shuffled : Bool := false
  folds : Bool := false
  blanks : Bool := false
  lastBlanks : Bool := false
  dictionary : Bool := false
  printable : Bool := false
  reversed : Bool := false

namespace Comparison

def plain : Comparison := {}

def isPlain (c : Comparison) : Bool :=
  !(c.numeric || c.general || c.human || c.month || c.version || c.shuffled || c.folds ||
    c.blanks || c.lastBlanks || c.dictionary || c.printable || c.reversed)

def add? (c : Comparison) (letter : Char) : Option Comparison :=
  match letter with
  | 'n' => some { c with numeric := true }
  | 'g' => some { c with general := true }
  | 'h' => some { c with human := true }
  | 'M' => some { c with month := true }
  | 'V' => some { c with version := true }
  | 'R' => some { c with shuffled := true }
  | 'f' => some { c with folds := true }
  | 'd' => some { c with dictionary := true }
  | 'i' => some { c with printable := !c.dictionary }
  | 'r' => some { c with reversed := true }
  | _ => none

def clash? (c : Comparison) : Option String :=
  let given (b : Bool) (letter : String) : String := if b then letter else ""
  let ways := [c.numeric, c.general, c.human, c.month,
    c.version || c.shuffled || c.dictionary || c.printable]
  if (ways.filter id).length ≤ 1 then none
  else
    some (String.join
      [given c.dictionary "d", given c.folds "f", given c.general "g", given c.human "h",
        given c.printable "i", given c.month "M", given c.numeric "n", given c.shuffled "R",
        given c.version "V"])

end Comparison

/-- A position in a line: a field and a character in it, both counted from one; no character means
the end of the field. -/
structure KeyPlace where
  field : Nat
  char : Nat

structure Key where
  first : KeyPlace
  last : Option KeyPlace
  comparison : Comparison

def leadingNumber (cs : List Char) : Int :=
  let (negative, cs) :=
    match cs.dropWhile isBlank with
    | '-' :: rest => (true, rest)
    | cs => (false, cs)
  let whole := cs.takeWhile Char.isDigit
  let fraction :=
    match cs.dropWhile Char.isDigit with
    | '.' :: more => (more.takeWhile Char.isDigit).take 18
    | _ => []
  let n : Int := Text.digitsValue (whole ++ fraction ++ List.replicate (18 - fraction.length) '0')
  if negative then -n else n

/-- The number at the start of a text with its power of ten, if there is one. -/
def generalNumber? (cs : List Char) : Option (Int × Int) :=
  let (negative, cs) :=
    match cs.dropWhile isBlank with
    | '-' :: rest => (true, rest)
    | '+' :: rest => (false, rest)
    | cs => (false, cs)
  let whole := cs.takeWhile Char.isDigit
  let rest := cs.drop whole.length
  let fraction :=
    match rest with
    | '.' :: more => more.takeWhile Char.isDigit
    | _ => []
  let rest := if rest.head? = some '.' then rest.drop (fraction.length + 1) else rest
  let power : Int :=
    match rest with
    | e :: more =>
      if e = 'e' || e = 'E' then
        let (below, digits) :=
          match more with
          | '-' :: ds => (true, ds.takeWhile Char.isDigit)
          | '+' :: ds => (false, ds.takeWhile Char.isDigit)
          | ds => (false, ds.takeWhile Char.isDigit)
        let n : Int := min 5000 (Text.digitsValue digits)
        if below then -n else n
      else 0
    | [] => 0
  if whole.isEmpty && fraction.isEmpty then none
  else
    let n : Int := Text.digitsValue (whole ++ fraction)
    some (if negative then -n else n, power - fraction.length)

def generalOrder (a b : List Char) : Ordering :=
  match generalNumber? a, generalNumber? b with
  | none, none => .eq
  | none, some _ => .lt
  | some _, none => .gt
  | some (m, p), some (n, q) =>
    let low := min p q
    compare (m * 10 ^ (p - low).toNat) (n * 10 ^ (q - low).toNat)

/-- The rank of the unit behind a number that is not zero, below zero for a negative number. -/
def unitRank (cs : List Char) : Int :=
  let cs := cs.dropWhile isBlank
  let negative := cs.head? = some '-'
  let cs := if negative then cs.tail else cs
  let whole := cs.takeWhile Char.isDigit
  let rest := cs.drop whole.length
  let fraction :=
    match rest with
    | '.' :: more => more.takeWhile Char.isDigit
    | _ => []
  let rest := if rest.head? = some '.' then rest.drop (fraction.length + 1) else rest
  let rank : Int :=
    match rest.head?.bind fun c => "KMGTPEZYRQ".toList.findIdx? (· = c) with
    | some i => i + 1
    | none => if rest.head? = some 'k' then 1 else 0
  if (whole ++ fraction).all (· = '0') then 0 else if negative then -rank else rank

def monthRank (cs : List Char) : Nat :=
  let name := String.ofList (((cs.dropWhile isBlank).take 3).map Char.toUpper)
  let names := ["JAN", "FEB", "MAR", "APR", "MAY", "JUN", "JUL", "AUG", "SEP", "OCT", "NOV", "DEC"]
  ((names.findIdx? (· = name)).map (· + 1)).getD 0

/-- The rank of the next character in a text with numbers: a tilde comes before the end, the end
before digits, digits before letters and letters before all else. -/
def versionRank : List Char → Int
  | [] => -1
  | c :: _ =>
    if c.isDigit then 0 else if c.isAlpha then c.toNat else if c = '~' then -2 else c.toNat + 256

def versionOrder : Nat → List Char → List Char → Ordering
  | 0, _, _ => .eq
  | fuel + 1, a, b =>
    let isNumber (cs : List Char) : Bool := cs.head?.all Char.isDigit
    if a.isEmpty && b.isEmpty then .eq
    else if isNumber a && isNumber b then
      let m := Text.digitsValue (a.takeWhile Char.isDigit)
      let n := Text.digitsValue (b.takeWhile Char.isDigit)
      (compare m n).then
        (versionOrder fuel (a.dropWhile Char.isDigit) (b.dropWhile Char.isDigit))
    else (compare (versionRank a) (versionRank b)).then (versionOrder fuel a.tail b.tail)

def stemLength : Nat → Nat → Nat → List Char → Nat
  | 0, stem, _, _ => stem
  | _ + 1, stem, _, [] => stem
  | fuel + 1, stem, place, cs =>
    match cs with
    | '.' :: c :: rest =>
      if 0 < place && (c.isAlpha || c = '~') then
        let n := (rest.takeWhile fun x => x.isAlphanum || x = '~').length
        stemLength fuel stem (place + n + 2) (rest.drop n)
      else stemLength fuel (place + 1) (place + 1) (c :: rest)
    | _ :: rest => stemLength fuel (place + 1) (place + 1) rest
    | [] => stem

/-- Compares file names by their versions: nothing comes first, then names that start with a dot;
endings count only between names that are the same without them. -/
def fileVersionOrder (a b : List Char) : Ordering :=
  let rank (cs : List Char) : Nat :=
    match cs with
    | [] => 0
    | ['.'] => 1
    | ['.', '.'] => 2
    | '.' :: _ => 3
    | _ => 4
  let stem (cs : List Char) : List Char := cs.take (stemLength (cs.length + 1) 0 0 cs)
  let fuel := a.length + b.length + 1
  (compare (rank a) (rank b)).then
    ((versionOrder fuel (stem a) (stem b)).then (versionOrder fuel a b))

def charsOrder : List Char → List Char → Ordering
  | [], [] => .eq
  | [], _ :: _ => .lt
  | _ :: _, [] => .gt
  | x :: xs, y :: ys => (compare x y).then (charsOrder xs ys)

namespace Comparison

def order (c : Comparison) (a b : List Char) : Ordering :=
  let prepare (cs : List Char) : List Char :=
    let cs := if c.dictionary then cs.filter fun x => x.isAlphanum || isBlank x else cs
    let cs := if c.printable then cs.filter fun x => ' ' ≤ x && x ≤ '~' else cs
    if c.folds then cs.map Char.toUpper else cs
  let result :=
    if c.human then
      (compare (unitRank a) (unitRank b)).then (compare (leadingNumber a) (leadingNumber b))
    else if c.general then generalOrder a b
    else if c.numeric then compare (leadingNumber a) (leadingNumber b)
    else if c.month then compare (monthRank a) (monthRank b)
    else if c.version then fileVersionOrder (prepare a) (prepare b)
    else charsOrder (prepare a) (prepare b)
  if c.reversed then result.swap else result

end Comparison

/-- The places at which the fields of a line start and end; without a separator, blanks belong to
the field behind them. -/
def fieldSpans (separator : Option Char) : Nat → Nat → List Char → List (Nat × Nat)
  | 0, _, _ => []
  | fuel + 1, place, cs =>
    match separator with
    | some s =>
      let field := cs.takeWhile (· ≠ s)
      match cs.drop field.length with
      | [] => [(place, place + field.length)]
      | _ :: rest =>
        (place, place + field.length) ::
          fieldSpans separator fuel (place + field.length + 1) rest
    | none =>
      let blanks := cs.takeWhile isBlank
      let field := (cs.drop blanks.length).takeWhile fun c => !isBlank c
      let n := blanks.length + field.length
      if n = 0 then []
      else (place, place + n) :: fieldSpans separator fuel (place + n) (cs.drop n)

def keyText (separator : Option Char) (k : Key) (line : List Char) : List Char :=
  let spans := fieldSpans separator (line.length + 1) 0 line
  let skipped (skips : Bool) (start : Nat) : Nat :=
    if skips then start + ((line.drop start).takeWhile isBlank).length else start
  let first :=
    match spans[k.first.field - 1]? with
    | some (start, _) => min (skipped k.comparison.blanks start + (k.first.char - 1)) line.length
    | none => line.length
  let last :=
    match k.last with
    | none => line.length
    | some p =>
      match spans[p.field - 1]? with
      | some (start, stop) =>
        if p.char = 0 then stop
        else min (skipped k.comparison.lastBlanks start + p.char) line.length
      | none => line.length
  (line.drop first).take (last - first)

inductive KeyFault where
  | noNumber (place rest : String)
  | zeroField
  | zeroChar
  | stray

namespace KeyFault

def message (whole : String) : KeyFault → String
  | noNumber place rest =>
    "invalid number " ++ place ++ ": invalid count at start of " ++ quote rest
  | zeroField => "field number is zero: invalid field specification " ++ quote whole
  | zeroChar => "character offset is zero: invalid field specification " ++ quote whole
  | stray => "stray character in field spec: invalid field specification " ++ quote whole

end KeyFault

def keyNumber (place : String) (cs : List Char) : Except KeyFault (Nat × List Char) :=
  let digits := cs.takeWhile Char.isDigit
  if digits.isEmpty then .error (.noNumber place (String.ofList cs))
  else .ok (Text.digitsValue digits, cs.drop digits.length)

def keyPlace (place : String) (char : Nat) (cs : List Char) :
    Except KeyFault (KeyPlace × List Char) := do
  let (field, rest) ← keyNumber place cs
  if field = 0 then throw .zeroField
  match rest with
  | '.' :: rest =>
    let (char, rest) ← keyNumber "after '.'" rest
    return (⟨field, char⟩, rest)
  | rest => return (⟨field, char⟩, rest)

def keyLetters (atEnd : Bool) (c : Comparison) : List Char → Comparison × List Char
  | [] => (c, [])
  | 'b' :: rest =>
    let c := if atEnd then { c with lastBlanks := true } else { c with blanks := true }
    keyLetters atEnd c rest
  | x :: rest =>
    match c.add? x with
    | some c => keyLetters atEnd c rest
    | none => (c, x :: rest)

def keyOf (s : String) : Except KeyFault Key := do
  let (first, rest) ← keyPlace "at field start" 1 s.toList
  if first.char = 0 then throw .zeroChar
  match keyLetters false .plain rest with
  | (c, []) => return ⟨first, none, c⟩
  | (c, ',' :: rest) =>
    let (last, rest) ← keyPlace "after ','" 0 rest
    match keyLetters true c rest with
    | (c, []) => return ⟨first, some last, c⟩
    | _ => throw .stray
  | _ => throw .stray

structure Sorting where
  keys : List Key
  whole : Comparison
  separator : Option Char
  stable : Bool
  unique : Bool

namespace Sorting

def ownKeys (s : Sorting) : List Key :=
  if s.keys.isEmpty then [⟨⟨1, 1⟩, none, s.whole⟩]
  else
    s.keys.map fun k =>
      ⟨k.first, k.last, if k.comparison.isPlain then s.whole else k.comparison⟩

def keyOrder (s : Sorting) (a b : List Char) : Ordering :=
  s.ownKeys.foldl
    (fun o k => o.then (k.comparison.order (keyText s.separator k a) (keyText s.separator k b)))
    .eq

def order (s : Sorting) (a b : List Char) : Ordering :=
  let o := s.keyOrder a b
  if s.stable || s.unique then o
  else o.then (if s.whole.reversed then (charsOrder a b).swap else charsOrder a b)

def sort (s : Sorting) (lines : List (List Char)) : List (List Char) :=
  lines.mergeSort fun a b => s.order a b ≠ .gt

def merge (s : Sorting) (groups : List (List (List Char))) : List (List Char) :=
  groups.foldl (fun as bs => as.merge bs fun a b => s.order a b ≠ .gt) []

def dropEqual (s : Sorting) : List (List Char) → List (List Char)
  | a :: b :: rest =>
    if s.keyOrder a b = .eq then dropEqual s (a :: rest) else a :: dropEqual s (b :: rest)
  | lines => lines
termination_by lines => lines.length

def disorder? (s : Sorting) : Nat → List (List Char) → Option (Nat × List Char)
  | n, a :: b :: rest =>
    let o := s.order a b
    if o = .gt || (s.unique && o = .eq) then some (n + 1, b) else disorder? s (n + 1) (b :: rest)
  | _, _ => none

end Sorting

def sortOptions : Options :=
  (Options.flags "nghVRfbdrusmcCziM"
    [("numeric-sort", 'n'), ("reverse", 'r'), ("unique", 'u'), ("stable", 's'), ("key", 'k'),
      ("field-separator", 't'), ("output", 'o'), ("check", 'c'), ("ignore-case", 'f'),
      ("ignore-leading-blanks", 'b'), ("human-numeric-sort", 'h'), ("dictionary-order", 'd'),
      ("general-numeric-sort", 'g'), ("merge", 'm'), ("month-sort", 'M'),
      ("ignore-nonprinting", 'i'), ("zero-terminated", 'z'), ("random-sort", 'R'),
      ("version-sort", 'V')]).withValues "ktoST"

def separatorOf (s : String) : Except String Char :=
  match s.toList with
  | [] => .error "empty tab"
  | [c] => .ok c
  | ['\\', '0'] => .ok '\x00'
  | _ => .error ("multi-character tab " ++ quote s)

def sortingOf (given : List (Char × String)) : Except String Sorting := do
  let add (w : Comparison) (x : Char × String) : Comparison :=
    if x.1 = 'b' then { w with blanks := true, lastBlanks := true } else (w.add? x.1).getD w
  let keyTexts := given.filterMap fun x => if x.1 = 'k' then some x.2 else none
  let keys ← keyTexts.mapM fun k => (keyOf k).mapError (·.message k)
  let separator ← (valueOf? given 't').mapM separatorOf
  let s : Sorting :=
    ⟨keys, given.foldl add .plain, separator, has given 's', has given 'u'⟩
  let clash (letters : String) : String := "options '-" ++ letters ++ "' are incompatible"
  match s.ownKeys.findSome? (·.comparison.clash?) with
  | some letters => throw (clash letters)
  | none =>
    if has given 'c' && has given 'C' then throw (clash "cC")
    if (has given 'c' || has given 'C') && has given 'o' then
      throw (clash ((if has given 'C' then "C" else "c") ++ "o"))
    return s

def sort : Tool := withOptions sortOptions 2 fun c given operands =>
  match sortingOf given with
  | .error message => failWith c 2 message
  | .ok s => do
    let names := if operands.isEmpty then ["-"] else operands
    let checks := has given 'c' || has given 'C'
    let texts ← names.mapM fun n => do
      let text ← readOperand c n
      return (n, text)
    let fault := texts.findSome? fun x =>
      match x.2 with
      | .error .isADirectory => some ("read failed: " ++ x.1 ++ ": Is a directory")
      | .error e =>
        some ((if checks then "open failed: " else "cannot read: ") ++ x.1 ++ ": " ++ e.reason)
      | .ok _ => none
    match checks, operands, fault with
    | true, _ :: extra :: _, _ =>
      failWith c 2 ("extra operand " ++ quote extra ++ " not allowed with -" ++
        if has given 'C' then "C" else "c")
    | _, _, some message => failWith c 2 message
    | _, _, none =>
      let ends := exchangeEnds (has given 'z')
      let groups := texts.map fun x => splitLines (ends (x.2.toOption.getD "")).toList
      let lines := groups.flatten
      if checks then
        match s.disorder? 1 lines with
        | none => return 0
        | some (n, line) =>
          if has given 'C' then return 1
          else
            failWith c 1
              (names.headD "-" ++ ":" ++ Text.decimal n ++ ": disorder: " ++ String.ofList line)
      else
        let sorted := if has given 'm' then s.merge groups else s.sort lines
        let sorted := if s.unique then s.dropEqual sorted else sorted
        let out := ends (ofLines (sorted.map String.ofList))
        match valueOf? given 'o' with
        | none =>
          print out
          return 0
        | some file =>
          let t ← getTree
          match writeOctets c t (c.locate file) out with
          | .ok t =>
            setTree t
            return 0
          | .error e => failWith c 2 ("open failed: " ++ file ++ ": " ++ e.reason)

/-! ### Equal lines -/

def runsOf (key : String → String) : List String → List (String × Nat)
  | [] => []
  | l :: ls =>
    match runsOf key ls with
    | (m, n) :: rest => if key l = key m then (l, n + 1) :: rest else (l, 1) :: (m, n) :: rest
    | [] => [(l, 1)]

def repeatedLines (key : String → String) (lines : List String) : List String :=
  let keys := lines.map key
  let before := none :: keys.map some
  let behind := keys.tail.map some ++ [none]
  ((lines.zip keys).zip (before.zip behind)).filterMap fun ((line, k), (b, a)) =>
    if b = some k || a = some k then some line else none

def dropFields : Nat → List Char → List Char
  | 0, cs => cs
  | n + 1, cs => dropFields n ((cs.dropWhile isBlank).dropWhile fun c => !isBlank c)

def uniq : Tool :=
  withOptions ((Options.flags "cduiDz"
    [("count", 'c'), ("repeated", 'd'), ("unique", 'u'), ("ignore-case", 'i'),
      ("skip-fields", 'f'), ("skip-chars", 's'), ("check-chars", 'w'),
      ("zero-terminated", 'z')]).withValues "fsw")
    1 fun c given operands => do
    let text ← readOperand c (operands.headD "-")
    let number (letter : Char) : Option Nat := (valueOf? given letter).bind natural?
    match text with
    | .error e => failWith c 1 (operands.headD "-" ++ ": " ++ e.reason)
    | .ok text =>
      let key (line : String) : String :=
        let cs := (dropFields ((number 'f').getD 0) line.toList).drop ((number 's').getD 0)
        let cs := cs.take ((number 'w').getD cs.length)
        String.ofList (if has given 'i' then cs.map Char.toLower else cs)
      let ends := exchangeEnds (has given 'z')
      let lines := linesOf (ends text)
      let runs := runsOf key lines
      let kept := runs.filter fun r =>
        (!has given 'd' || 1 < r.2) && (!has given 'u' || r.2 = 1)
      let line (r : String × Nat) : String :=
        if has given 'c' then padLeft 7 (Text.decimal r.2) ++ " " ++ r.1 else r.1
      let out := ends (ofLines (if has given 'D' then repeatedLines key lines else kept.map line))
      match operands with
      | [_, target] =>
        let t ← getTree
        match writeOctets c t (c.locate target) out with
        | .ok t =>
          setTree t
          return 0
        | .error e => failWith c 1 (target ++ ": " ++ e.reason)
      | _ =>
        print out
        return 0

/-! ### Lines in common -/

structure Side where
  lines : List String
  last : Option String
  warned : Bool

def Side.ofText (text : String) : Side := ⟨linesOf text, none, false⟩

/-- Goes on by a line, and tells if the lines turn out not to be sorted. At the end the last two
lines count. -/
def Side.next (checks : Bool) (s : Side) : Side × Bool :=
  match s.lines with
  | [] => (s, false)
  | x :: rest =>
    let pair : Option (String × String) :=
      match rest, s.last with
      | y :: _, _ => some (x, y)
      | [], some p => some (p, x)
      | [], none => none
    let disorder := checks && !s.warned &&
      match pair with
      | some (a, b) => charsOrder a.toList b.toList == .gt
      | none => false
    (⟨rest, some x, s.warned || disorder⟩, disorder)

/-- What a comparison of two sorted texts meets: a line of the first, of the second or of both, or
a text that is not sorted. -/
inductive Meeting where
  | line (column : Nat) (text : String)
  | disorder (file : Nat)

inductive OrderCheck where
  | always
  | never
  | ifUnpaired
deriving DecidableEq

def meetings (check : OrderCheck) : Nat → Bool → Side → Side → List Meeting
  | 0, _, _, _ => []
  | fuel + 1, unpaired, a, b =>
    let column? : Option (Nat × String) :=
      match a.lines, b.lines with
      | [], [] => none
      | [], y :: _ => some (2, y)
      | x :: _, [] => some (1, x)
      | x :: _, y :: _ =>
        match charsOrder x.toList y.toList with
        | .lt => some (1, x)
        | .gt => some (2, y)
        | .eq => some (3, y)
    match column? with
    | none => []
    | some (column, text) =>
      let unpaired := unpaired || column ≠ 3
      let checks := check = .always || check = .ifUnpaired && unpaired
      let (a, wrongA) := if column = 2 then (a, false) else a.next checks
      let (b, wrongB) := if column = 1 then (b, false) else b.next checks
      let faults := (if wrongA then [1] else []) ++ if wrongB then [2] else []
      .line column text :: faults.map .disorder ++
        if check = .always && !faults.isEmpty then [] else meetings check fuel unpaired a b

def comm : Tool :=
  withOptions
    ((Options.flags "123zkKt" [("check-order", 'k'), ("nocheck-order", 'K'), ("total", 't'),
      ("output-delimiter", 'd')]).withValues "d")
    1 fun c given operands =>
    match operands with
    | [a, b] => do
      let x ← readOperand c a
      let y ← readOperand c b
      match x, y with
      | .error e, _ => failWith c 1 (a ++ ": " ++ e.reason)
      | _, .error e => failWith c 1 (b ++ ": " ++ e.reason)
      | .ok x, .ok y =>
        let check : OrderCheck :=
          if has given 'k' then .always else if has given 'K' then .never else .ifUnpaired
        let found := meetings check (x.length + y.length + 1) false (.ofText x) (.ofText y)
        let delimiter := (valueOf? given 'd').getD "\t"
        let shows (k : Nat) : Bool := !has given (Char.ofNat ('0'.toNat + k))
        let gap (k : Nat) : String := if shows k then delimiter else ""
        forM found fun m =>
          match m with
          | .disorder k => complain c ("file " ++ Text.decimal k ++ " is not in sorted order")
          | .line k text =>
            if !shows k then pure ()
            else if k = 1 then printLine text
            else if k = 2 then printLine (gap 1 ++ text)
            else printLine (gap 1 ++ gap 2 ++ text)
        let count (k : Nat) : String := Text.decimal ((found.filter fun m =>
          match m with
          | .line j _ => j == k
          | .disorder _ => false).length)
        let wrong := found.any fun m =>
          match m with
          | .disorder _ => true
          | .line _ _ => false
        if wrong && check = .always then return 1
        else
          if has given 't' then
            printLine (delimiter.intercalate [count 1, count 2, count 3, "total"])
          if wrong then failWith c 1 "input is not in sorted order" else return 0
    | [] => misuse c 1 "missing operand"
    | [a] => misuse c 1 ("missing operand after " ++ quote a)
    | _ :: _ :: extra :: _ => misuse c 1 ("extra operand " ++ quote extra)

end NativeUi.Shell.Tool
