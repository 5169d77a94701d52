import NativeUi.Shell.Script

/-!
# Arithmetic

The expressions between double parentheses: integers of 64 bits with a sign, and variables, which
may be assigned to.
-/
namespace NativeUi.Shell

inductive BinaryOp where
  | mul
  | div
  | rem
  | add
  | sub
  | shiftLeft
  | shiftRight
  | less
  | lessEq
  | greater
  | greaterEq
  | eq
  | ne
  | bitAnd
  | bitXor
  | bitOr
deriving DecidableEq

inductive UnaryOp where
  | plus
  | minus
  | not
  | complement

inductive Expr where
  | number (i : Int)
  | name (x : String)
  | unary (op : UnaryOp) (e : Expr)
  | binary (op : BinaryOp) (a b : Expr)
  | both (a b : Expr)
  | either (a b : Expr)
  | choice (condition whenTrue whenFalse : Expr)
  | assign (x : String) (op : Option BinaryOp) (e : Expr)

inductive ExprFault where
  | expectingPrimary
  | expectingEnd
  | expectingParen
  | expectingColon
  | divisionByZero

def ExprFault.message : ExprFault → String
  | .expectingPrimary => "expecting primary"
  | .expectingEnd => "expecting EOF"
  | .expectingParen => "expecting ')'"
  | .expectingColon => "expecting ':'"
  | .divisionByZero => "division by zero"

def wrap (i : Int) : Int := Int.bmod i (2 ^ 64)

namespace Expr

def skipSpaces (cs : List Char) : List Char :=
  cs.dropWhile fun c => isBlank c || c = '\n'

def hexValue (c : Char) : Nat :=
  if c.isDigit then Text.digitValue c else c.toLower.toNat - 'a'.toNat + 10

def isHexDigit (c : Char) : Bool :=
  c.isDigit || ('a' ≤ c && c ≤ 'f') || ('A' ≤ c && c ≤ 'F')

def valueIn (base : Nat) (cs : List Char) : Nat := cs.foldl (fun n c => base * n + hexValue c) 0

def isOctalDigit (c : Char) : Bool := '0' ≤ c && c ≤ '7'

def scanInteger? (cs : List Char) : Option (Nat × List Char) :=
  match cs with
  | '0' :: x :: d :: rest =>
    if (x = 'x' || x = 'X') && isHexDigit d then
      some (valueIn 16 ((d :: rest).takeWhile isHexDigit), (d :: rest).dropWhile isHexDigit)
    else some (valueIn 8 (cs.takeWhile isOctalDigit), cs.dropWhile isOctalDigit)
  | '0' :: _ => some (valueIn 8 (cs.takeWhile isOctalDigit), cs.dropWhile isOctalDigit)
  | c :: _ =>
    if c.isDigit then some (valueIn 10 (cs.takeWhile Char.isDigit), cs.dropWhile Char.isDigit)
    else none
  | [] => none

def clamp (i : Int) : Int :=
  if i < -2 ^ 63 then -2 ^ 63 else if 2 ^ 63 - 1 < i then 2 ^ 63 - 1 else i

def scanOperator? (cs : List Char) : Option (Option BinaryOp × Nat × List Char) :=
  match cs with
  | '<' :: '<' :: '=' :: _ => none
  | '>' :: '>' :: '=' :: _ => none
  | '<' :: '<' :: rest => some (some .shiftLeft, 8, rest)
  | '>' :: '>' :: rest => some (some .shiftRight, 8, rest)
  | '<' :: '=' :: rest => some (some .lessEq, 7, rest)
  | '>' :: '=' :: rest => some (some .greaterEq, 7, rest)
  | '<' :: rest => some (some .less, 7, rest)
  | '>' :: rest => some (some .greater, 7, rest)
  | '=' :: '=' :: rest => some (some .eq, 6, rest)
  | '!' :: '=' :: rest => some (some .ne, 6, rest)
  | '&' :: '&' :: rest => some (none, 2, rest)
  | '|' :: '|' :: rest => some (none, 1, rest)
  | _ :: '=' :: _ => none
  | '*' :: rest => some (some .mul, 10, rest)
  | '/' :: rest => some (some .div, 10, rest)
  | '%' :: rest => some (some .rem, 10, rest)
  | '+' :: rest => some (some .add, 9, rest)
  | '-' :: rest => some (some .sub, 9, rest)
  | '&' :: rest => some (some .bitAnd, 5, rest)
  | '^' :: rest => some (some .bitXor, 4, rest)
  | '|' :: rest => some (some .bitOr, 3, rest)
  | _ => none

def scanAssign? (cs : List Char) : Option (Option BinaryOp × List Char) :=
  match cs with
  | '=' :: '=' :: _ => none
  | '=' :: rest => some (none, rest)
  | '*' :: '=' :: rest => some (some .mul, rest)
  | '/' :: '=' :: rest => some (some .div, rest)
  | '%' :: '=' :: rest => some (some .rem, rest)
  | '+' :: '=' :: rest => some (some .add, rest)
  | '-' :: '=' :: rest => some (some .sub, rest)
  | '<' :: '<' :: '=' :: rest => some (some .shiftLeft, rest)
  | '>' :: '>' :: '=' :: rest => some (some .shiftRight, rest)
  | '&' :: '=' :: rest => some (some .bitAnd, rest)
  | '^' :: '=' :: rest => some (some .bitXor, rest)
  | '|' :: '=' :: rest => some (some .bitOr, rest)
  | _ => none

abbrev Scan := List Char → Except ExprFault (Expr × List Char)

def primary (unaryInner whole : Scan) : Scan := fun cs =>
  let cs := skipSpaces cs
  let sign (op : UnaryOp) (rest : List Char) : Except ExprFault (Expr × List Char) := do
    let (e, rest) ← unaryInner rest
    .ok (.unary op e, rest)
  match cs with
  | '(' :: rest => do
    let (e, rest) ← whole rest
    match skipSpaces rest with
    | ')' :: rest => .ok (e, rest)
    | _ => .error .expectingParen
  | '+' :: rest => sign .plus rest
  | '-' :: rest => sign .minus rest
  | '!' :: rest => sign .not rest
  | '~' :: rest => sign .complement rest
  | c :: _ =>
    if isNameStart c then
      .ok (.name (String.ofList (cs.takeWhile isNameChar)), cs.dropWhile isNameChar)
    else
      match scanInteger? cs with
      | some (n, rest) => .ok (.number (clamp n), rest)
      | none => .error .expectingPrimary
  | [] => .error .expectingPrimary

def operators (operand : Nat → Scan) (least : Nat) : Nat → Expr → Scan
  | 0, e, cs => .ok (e, cs)
  | fuel + 1, e, cs =>
    match scanOperator? (skipSpaces cs) with
    | some (op, strength, rest) =>
      if least ≤ strength then do
        let (b, rest) ← operand (strength + 1) rest
        let e :=
          match op with
          | some op => .binary op e b
          | none => if strength = 2 then .both e b else .either e b
        operators operand least fuel e rest
      else .ok (e, cs)
    | none => .ok (e, cs)

def binaryScan (whole : Scan) : Nat → Nat → Scan
  | 0, _, _ => .error .expectingPrimary
  | fuel + 1, least, cs => do
    let (e, rest) ← primary (binaryScan whole fuel 11) whole cs
    operators (binaryScan whole fuel) least (cs.length + 1) e rest

def choiceScan (whole inner : Scan) : Scan := fun cs => do
  let (e, rest) ← binaryScan whole (cs.length + 1) 1 cs
  match skipSpaces rest with
  | '?' :: rest => do
    let (a, rest) ← whole rest
    match skipSpaces rest with
    | ':' :: rest => do
      let (b, rest) ← inner rest
      .ok (.choice e a b, rest)
    | _ => .error .expectingColon
  | _ => .ok (e, rest)

def scan : Nat → Scan
  | 0, _ => .error .expectingPrimary
  | fuel + 1, cs =>
    let start := skipSpaces cs
    let name := String.ofList (start.takeWhile isNameChar)
    match (if isName name then scanAssign? (skipSpaces (start.dropWhile isNameChar)) else none) with
    | some (op, rest) => do
      let (e, rest) ← scan fuel rest
      .ok (.assign name op e, rest)
    | none => choiceScan (scan fuel) (scan fuel) start

def parse (s : String) : Except ExprFault Expr := do
  let cs := s.toList
  let (e, rest) ← scan (cs.length + 1) cs
  if (skipSpaces rest).isEmpty then .ok e else .error .expectingEnd

end Expr

def bits (i : Int) : Nat := (i % 2 ^ 64).toNat

def ofBits (n : Nat) : Int := wrap n

def ofBool (b : Bool) : Int := if b then 1 else 0

def BinaryOp.apply (op : BinaryOp) (a b : Int) : Except ExprFault Int :=
  match op with
  | .mul => .ok (wrap (a * b))
  | .div => if b = 0 then .error .divisionByZero else .ok (wrap (Int.tdiv a b))
  | .rem => if b = 0 then .error .divisionByZero else .ok (wrap (Int.tmod a b))
  | .add => .ok (wrap (a + b))
  | .sub => .ok (wrap (a - b))
  | .shiftLeft => .ok (wrap (a * 2 ^ (b % 64).toNat))
  | .shiftRight => .ok (a / 2 ^ (b % 64).toNat)
  | .less => .ok (ofBool (a < b))
  | .lessEq => .ok (ofBool (a ≤ b))
  | .greater => .ok (ofBool (b < a))
  | .greaterEq => .ok (ofBool (b ≤ a))
  | .eq => .ok (ofBool (a = b))
  | .ne => .ok (ofBool (a ≠ b))
  | .bitAnd => .ok (ofBits (Nat.land (bits a) (bits b)))
  | .bitXor => .ok (ofBits (Nat.xor (bits a) (bits b)))
  | .bitOr => .ok (ofBits (Nat.lor (bits a) (bits b)))

def UnaryOp.apply (op : UnaryOp) (a : Int) : Int :=
  match op with
  | .plus => a
  | .minus => wrap (-a)
  | .not => ofBool (a = 0)
  | .complement => wrap (-a - 1)

def integerText (i : Int) : String :=
  if i < 0 then "-" ++ Text.decimal i.natAbs else Text.decimal i.natAbs

/-- An integer in a text, in any base if `free`, with blanks around it; none if there is anything
else. The empty text is zero only where the base is free. -/
def integerOf? (free : Bool) (s : String) : Option Int :=
  let isSpace (c : Char) : Bool := c = ' ' || (9 ≤ c.toNat && c.toNat ≤ 13)
  let cs := s.toList.dropWhile isSpace
  let (negative, cs) :=
    match cs with
    | '-' :: cs => (true, cs)
    | '+' :: cs => (false, cs)
    | cs => (false, cs)
  let scanned :=
    if free then Expr.scanInteger? cs
    else
      let digits := cs.takeWhile Char.isDigit
      if digits.isEmpty then none
      else some (Text.digitsValue digits, cs.dropWhile Char.isDigit)
  match scanned with
  | some (n, rest) =>
    if (rest.dropWhile isSpace).isEmpty then
      let i : Int := if negative then -n else n
      if i < -2 ^ 63 || 2 ^ 63 - 1 < i then none else some i
    else none
  | none => if free && (s.toList.dropWhile isSpace).isEmpty then some 0 else none

end NativeUi.Shell
