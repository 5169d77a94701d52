import NativeUi.Number.Double
import NativeUi.Shell.Arithmetic
import NativeUi.Shell.Tool.Basic

/-!
# Formats

Texts with directives that stand for arguments. The shell and the program of the same name differ in
some escapes and in their messages.
-/
namespace NativeUi.Shell

inductive Dialect where
  | shell
  | program
deriving DecidableEq

namespace Format

/-! ### Escapes -/

def simpleEscape? (c : Char) : Option Char :=
  match c with
  | '\\' => some '\\'
  | 'a' => some '\x07'
  | 'b' => some '\x08'
  | 'e' => some '\x1b'
  | 'f' => some '\x0c'
  | 'n' => some '\n'
  | 'r' => some '\r'
  | 't' => some '\t'
  | 'v' => some '\x0b'
  | _ => none

def octet (n : Nat) : Char := Char.ofNat (n % 256)

def octalEscape (cs : List Char) : Char × List Char :=
  let digits := (cs.take 3).takeWhile Expr.isOctalDigit
  (octet (Expr.valueIn 8 digits), cs.drop digits.length)

def hexDigits (most : Nat) (cs : List Char) : List Char := (cs.take most).takeWhile Expr.isHexDigit

def characterOctets (n : Nat) : List Char := (Octets.ofString (Char.ofNat n).toString).toList

def escape (d : Dialect) (cs : List Char) : List Char × List Char :=
  match cs with
  | [] => (['\\'], [])
  | c :: rest =>
    match simpleEscape? c with
    | some x => ([x], rest)
    | none =>
      if Expr.isOctalDigit c then
        let (x, rest) := octalEscape cs
        ([x], rest)
      else if d = .program then
        let hex (most : Nat) (write : Nat → List Char) : List Char × List Char :=
          let digits := hexDigits most rest
          if digits.isEmpty then (['\\', c], rest)
          else (write (Expr.valueIn 16 digits), rest.drop digits.length)
        if c = 'x' then hex 2 fun n => [octet n]
        else if c = 'u' then hex 4 characterOctets
        else if c = 'U' then hex 8 characterOctets
        else if c = '"' then (['"'], rest)
        else (['\\', c], rest)
      else (['\\'], cs)

/-- A text with escapes, up to one that ends all output. An octal number follows a zero here. -/
def unescape (d : Dialect) : Nat → List Char → List Char × Bool
  | 0, _ => ([], false)
  | _, [] => ([], false)
  | fuel + 1, '\\' :: cs =>
    match cs with
    | 'c' :: _ => ([], true)
    | cs =>
      let digits :=
        match cs with
        | '0' :: x :: rest => if Expr.isOctalDigit x then x :: rest else cs
        | cs => cs
      let (first, rest) := escape d digits
      let (more, stops) := unescape d fuel rest
      (first ++ more, stops)
  | fuel + 1, c :: cs =>
    let (more, stops) := unescape d fuel cs
    (c :: more, stops)

def unescapeText (d : Dialect) (s : String) : String × Bool :=
  let (cs, stops) := unescape d (s.length + 1) s.toList
  (String.ofList cs, stops)

/-! ### Directives -/

structure Directive where
  flags : List Char
  width : Nat
  precision : Option Nat

namespace Directive

def has (d : Directive) (c : Char) : Bool := d.flags.contains c

def fill (d : Directive) (zeros : Bool) (sign body : String) : String :=
  let missing := d.width - (sign.length + body.length)
  if d.has '-' then sign ++ body ++ Text.spaces missing
  else if zeros && d.has '0' then sign ++ String.ofList (List.replicate missing '0') ++ body
  else Text.spaces missing ++ sign ++ body

def signOf (d : Directive) (negative : Bool) : String :=
  if negative then "-" else if d.has '+' then "+" else if d.has ' ' then " " else ""

def text (d : Directive) (s : String) : String :=
  let s :=
    match d.precision with
    | some p => String.ofList (s.toList.take p)
    | none => s
  d.fill false "" s

def atLeast (d : Directive) (digits : String) : String :=
  match d.precision with
  | some 0 => if digits = "0" then "" else digits
  | some p => String.ofList (List.replicate (p - digits.length) '0') ++ digits
  | none => digits

def signed (d : Directive) (i : Int) : String :=
  d.fill d.precision.isNone (d.signOf (i < 0)) (d.atLeast (Text.decimal i.natAbs))

def unsigned (d : Directive) (conversion : Char) (n : Nat) : String :=
  let digits (base : Nat) : String := String.ofList (Nat.toDigits base n)
  match conversion with
  | 'o' =>
    let body := d.atLeast (digits 8)
    let body := if d.has '#' && body.toList.head? != some '0' then "0" ++ body else body
    d.fill d.precision.isNone "" body
  | 'x' =>
    d.fill d.precision.isNone (if d.has '#' && n ≠ 0 then "0x" else "") (d.atLeast (digits 16))
  | 'X' =>
    d.fill d.precision.isNone (if d.has '#' && n ≠ 0 then "0X" else "")
      (d.atLeast (digits 16).toUpper)
  | _ => d.fill d.precision.isNone "" (d.atLeast (digits 10))

end Directive

/-! ### Numbers with a fraction -/

inductive Real where
  | ratio (negative : Bool) (num den : Nat)
  | infinite (negative : Bool)
  | undefined (negative : Bool)

def roundBits (bits num den : Nat) : Nat × Nat :=
  if num = 0 then (0, 1)
  else
    let up := Nat.log2 den + bits
    let q := num * 2 ^ up / den
    let down := Nat.log2 q + 1 - bits
    (Double.roundDiv (num * 2 ^ up) (den * 2 ^ down) * 2 ^ down, 2 ^ up)

def pointed (alternate : Bool) (digits : List Char) (places : Nat) : String :=
  let digits := List.replicate (places + 1 - digits.length) '0' ++ digits
  let whole := digits.take (digits.length - places)
  let rest := digits.drop (digits.length - places)
  String.ofList (if rest.isEmpty && !alternate then whole else whole ++ '.' :: rest)

def fixed (alternate : Bool) (places num den : Nat) : String :=
  pointed alternate (Text.decimalChars (Double.roundDiv (num * 10 ^ places) den)) places

def exponentOf (num den : Nat) : Int :=
  if den ≤ num then ((Text.decimalChars (num / den)).length : Int) - 1
  else
    let zeros := (List.range (Nat.log2 den + 2)).find? (fun k => den ≤ num * 10 ^ k)
    Int.neg (zeros.getD 0 : Nat)

def scientificDigits (places num den : Nat) : List Char × Int :=
  if num = 0 then (List.replicate (places + 1) '0', 0)
  else
    let x := exponentOf num den
    let shift : Int := places - x
    let n :=
      if 0 ≤ shift then Double.roundDiv (num * 10 ^ shift.toNat) den
      else Double.roundDiv num (den * 10 ^ (-shift).toNat)
    let digits := Text.decimalChars n
    if places + 1 < digits.length then (digits.take (places + 1), x + 1) else (digits, x)

def exponentText (mark : Char) (x : Int) : String :=
  let digits := Text.decimal x.natAbs
  let digits := if digits.length < 2 then "0" ++ digits else digits
  mark.toString ++ (if x < 0 then "-" else "+") ++ digits

def scientific (alternate : Bool) (mark : Char) (places num den : Nat) : String :=
  let (digits, x) := scientificDigits places num den
  pointed alternate digits places ++ exponentText mark x

def trimFraction (s : String) : String :=
  if s.toList.contains '.' then
    let cs := s.toList.reverse.dropWhile (· = '0')
    let cs := if cs.head? = some '.' then cs.tail else cs
    String.ofList cs.reverse
  else s

def general (alternate : Bool) (mark : Char) (precision num den : Nat) : String :=
  let p := max precision 1
  let (digits, x) := scientificDigits (p - 1) num den
  let trim (s : String) : String := if alternate then s else trimFraction s
  if -4 ≤ x && x < p then trim (fixed alternate (p - 1 - x).toNat num den)
  else trim (pointed alternate digits (p - 1)) ++ exponentText mark x

def Directive.real (d : Directive) (conversion : Char) (v : Real) : String :=
  let upper := conversion.isUpper
  let name (s : String) : String := if upper then s.toUpper else s
  match v with
  | .infinite negative => d.fill false (d.signOf negative) (name "inf")
  | .undefined negative => d.fill false (d.signOf negative) (name "nan")
  | .ratio negative num den =>
    let p := d.precision.getD 6
    let mark := if upper then 'E' else 'e'
    let body :=
      match conversion.toLower with
      | 'e' => scientific (d.has '#') mark p num den
      | 'g' => general (d.has '#') mark p num den
      | _ => fixed (d.has '#') p num den
    d.fill true (d.signOf negative) body

/-! ### Arguments -/

def isSpace (c : Char) : Bool := c = ' ' || (9 ≤ c.toNat && c.toNat ≤ 13)

def scanSign (cs : List Char) : Bool × List Char :=
  match cs with
  | '-' :: rest => (true, rest)
  | '+' :: rest => (false, rest)
  | cs => (false, cs)

def scanReal? (cs : List Char) : Option (Nat × Nat × List Char) :=
  let whole := cs.takeWhile Char.isDigit
  let rest := cs.dropWhile Char.isDigit
  let (fraction, rest) :=
    match rest with
    | '.' :: more =>
      if whole.isEmpty && (more.takeWhile Char.isDigit).isEmpty then ([], rest)
      else (more.takeWhile Char.isDigit, more.dropWhile Char.isDigit)
    | rest => ([], rest)
  if whole.isEmpty && fraction.isEmpty then none
  else
    let num := Text.digitsValue (whole ++ fraction)
    let den := 10 ^ fraction.length
    match rest with
    | e :: more =>
      let (negative, digits) := scanSign more
      let exponent := digits.takeWhile Char.isDigit
      if (e = 'e' || e = 'E') && !exponent.isEmpty then
        let x := min (Text.digitsValue exponent) 5000
        let rest := digits.dropWhile Char.isDigit
        if negative then some (num, den * 10 ^ x, rest) else some (num * 10 ^ x, den, rest)
      else some (num, den, rest)
    | [] => some (num, den, rest)

def dropWord? (word : String) (cs : List Char) : Option (List Char) :=
  if (cs.take word.length).map Char.toLower = word.toList then some (cs.drop word.length) else none

/-- A number at the start of a text, and the rest; none if there is no number. -/
def realOf? (bits : Nat) (s : String) : Option (Real × List Char) :=
  let (negative, cs) := scanSign (s.toList.dropWhile isSpace)
  match scanReal? cs with
  | some (num, den, rest) =>
    let (num, den) := roundBits bits num den
    some (.ratio negative num den, rest)
  | none =>
    match dropWord? "infinity" cs with
    | some rest => some (.infinite negative, rest)
    | none =>
      match dropWord? "inf" cs with
      | some rest => some (.infinite negative, rest)
      | none => (dropWord? "nan" cs).map fun rest => (.undefined negative, rest)

def integerAt? (s : String) : Option (Int × List Char) :=
  let (negative, cs) := scanSign (s.toList.dropWhile isSpace)
  (Expr.scanInteger? cs).map fun (n, rest) => (if negative then -(n : Int) else n, rest)

/-! ### Whole formats -/

structure Sheet where
  written : List String
  arguments : List String
  taken : Bool
  warnings : List String
  stopped : Bool
  failure : Option String

abbrev Writing := StateM Sheet

def write (s : String) : Writing Unit := modify fun t => { t with written := s :: t.written }

def warn (s : String) : Writing Unit := modify fun t => { t with warnings := s :: t.warnings }

def stop : Writing Unit := modify fun t => { t with stopped := true }

def fail (s : String) : Writing Unit :=
  modify fun t => { t with stopped := true, failure := some s }

def takeArgument? : Writing (Option String) := do
  let t ← get
  match t.arguments with
  | [] => return none
  | a :: rest =>
    set { t with arguments := rest, taken := true }
    return some a

def shown (d : Dialect) (s : String) : String :=
  match d with
  | .shell => s
  | .program => Tool.quote s

def checkRest (d : Dialect) (s : String) (found : Bool) (rest : List Char) : Writing Unit :=
  if !found then
    warn (shown d s ++
      match d with
      | .shell => ": expected numeric value"
      | .program => ": expected a numeric value")
  else if rest.isEmpty then pure ()
  else
    warn (shown d s ++
      match d with
      | .shell => ": not completely converted"
      | .program => ": value not completely converted")

def rangeWarning (d : Dialect) (s : String) : Writing Unit :=
  warn (shown d s ++ ": Numerical result out of range")

def quotedNumber? (s : String) : Option Nat :=
  match s.toList with
  | '"' :: rest => some ((rest.head?.map Char.toNat).getD 0)
  | '\x27' :: rest => some ((rest.head?.map Char.toNat).getD 0)
  | _ => none

def takeInteger (d : Dialect) (signed : Bool) : Writing Int := do
  let a ← takeArgument?
  match a with
  | none => return 0
  | some a =>
    match quotedNumber? a with
    | some n =>
      if d = .program && a.length < 2 then checkRest d a false []
      return n
    | none =>
      match integerAt? a with
      | none =>
        if d = .shell && a.isEmpty then return 0
        else
          checkRest d a false []
          return 0
      | some (i, rest) =>
        checkRest d a true rest
        if signed then
          if i < -2 ^ 63 || 2 ^ 63 ≤ i then
            rangeWarning d a
            return if i < 0 then -2 ^ 63 else 2 ^ 63 - 1
          else return i
        else if 2 ^ 64 ≤ i || i ≤ -2 ^ 64 then
          rangeWarning d a
          return 2 ^ 64 - 1
        else return i % 2 ^ 64

def bitsOf : Dialect → Nat
  | .shell => 53
  | .program => 64

def takeReal (d : Dialect) : Writing Real := do
  let a ← takeArgument?
  match a with
  | none => return .ratio false 0 1
  | some a =>
    match quotedNumber? a with
    | some n => return .ratio false n 1
    | none =>
      match realOf? (bitsOf d) a with
      | some (v, rest) =>
        checkRest d a true rest
        return v
      | none =>
        if d = .shell && a.isEmpty then return .ratio false 0 1
        else
          checkRest d a false []
          return .ratio false 0 1

def scanCount (d : Dialect) (cs : List Char) : Writing (Option Int × List Char) := do
  match cs with
  | '*' :: rest =>
    let i ← takeInteger d true
    return (some i, rest)
  | cs =>
    let digits := cs.takeWhile Char.isDigit
    return (if digits.isEmpty then none else some (Text.digitsValue digits),
      cs.dropWhile Char.isDigit)

def isFlag (c : Char) : Bool := "#-+ 0".toList.contains c

def convert (d : Dialect) (x : Directive) (spelling : List Char) (c : Char) : Writing Unit := do
  if c = 's' then
    let a ← takeArgument?
    write (x.text (a.getD ""))
  else if c = 'b' then
    let a ← takeArgument?
    let (s, stops) := unescapeText d (a.getD "")
    write (x.text s)
    if stops then stop
  else if c = 'c' then
    let a ← takeArgument?
    match d, (a.getD "").toList with
    | _, y :: _ => write (x.fill false "" y.toString)
    | .shell, [] => write (x.fill false "" "\x00")
    | .program, [] => write (x.fill false "" "")
  else if c = 'd' || c = 'i' then
    let i ← takeInteger d true
    write (x.signed i)
  else if "ouxX".toList.contains c then
    let i ← takeInteger d false
    write (x.unsigned c i.toNat)
  else if "eEfFgG".toList.contains c then
    let v ← takeReal d
    write (x.real c v)
  else
    let spelt := String.ofList spelling
    match d with
    | .shell => fail (spelt ++ ": invalid directive")
    | .program => fail (spelt ++ ": invalid conversion specification")

def directive (d : Dialect) (cs : List Char) : Writing (List Char) := do
  let flags := cs.takeWhile isFlag
  let (width, rest) ← scanCount d (cs.dropWhile isFlag)
  let (precision, rest) ←
    match rest with
    | '.' :: more => do
      let (p, more) ← scanCount d more
      pure (some (p.getD 0), more)
    | rest => pure (none, rest)
  let width := width.getD 0
  let flags := if width < 0 then '-' :: flags else flags
  let precision := precision.bind fun p => if p < 0 then none else some p.toNat
  let rest := if d = .program then rest.dropWhile fun c => "hlLjzt".toList.contains c else rest
  match rest with
  | [] =>
    match d with
    | .shell => fail "missing format character"
    | .program => fail (String.ofList ('%' :: cs) ++ ": invalid conversion specification")
    return []
  | c :: rest =>
    let spelling := '%' :: cs.take (cs.length - rest.length)
    convert d ⟨flags, width.natAbs, precision⟩ spelling c
    return rest

def pass (d : Dialect) : Nat → List Char → Writing Unit
  | 0, _ => pure ()
  | fuel + 1, cs => do
    let t ← get
    if t.stopped then pure ()
    else
      match cs with
      | [] => pure ()
      | '\\' :: 'c' :: rest =>
        if d = .program then stop
        else
          write "\\"
          pass d fuel ('c' :: rest)
      | '\\' :: rest =>
        let (x, rest) := escape d rest
        write (String.ofList x)
        pass d fuel rest
      | '%' :: '%' :: rest =>
        write "%"
        pass d fuel rest
      | '%' :: rest =>
        let rest ← directive d rest
        pass d fuel rest
      | c :: rest =>
        write c.toString
        pass d fuel rest

def passes (d : Dialect) (cs : List Char) : Nat → Writing Unit
  | 0 => pure ()
  | fuel + 1 => do
    modify fun t => { t with taken := false }
    pass d (cs.length + 1) cs
    let t ← get
    if t.taken && !t.arguments.isEmpty && !t.stopped then passes d cs fuel else pure ()

structure Formatted where
  text : String
  warnings : List String
  failure : Option String
  leftOver : Option String

def format (d : Dialect) (template : String) (arguments : List String) : Formatted :=
  let start := ⟨[], arguments, false, [], false, none⟩
  let (_, t) := passes d template.toList (arguments.length + 1) start
  ⟨String.join t.written.reverse, t.warnings.reverse, t.failure,
    if t.stopped then none else t.arguments.head?⟩

/-! ### Echoes -/

def echo (d : Dialect) (arguments : List String) : String :=
  let joined (escapes newline : Bool) (words : List String) : String :=
    let text := " ".intercalate words
    let (text, stops) := if escapes then unescapeText d text else (text, false)
    if newline && !stops then text ++ "\n" else text
  match d with
  | .shell =>
    match arguments with
    | "-n" :: words => joined true false words
    | words => joined true true words
  | .program =>
    let isOption (s : String) : Bool :=
      match s.toList with
      | '-' :: c :: cs => (c :: cs).all fun x => "neE".toList.contains x
      | _ => false
    let options := (arguments.takeWhile isOption).flatMap fun s => s.toList.drop 1
    let escapes := (options.filter fun c => c != 'n').getLast? == some 'e'
    joined escapes (!options.contains 'n') (arguments.dropWhile isOption)

end Format

end NativeUi.Shell
