import NativeUi.Shell.Regex
import NativeUi.Shell.Tool.Condition

/-!
# Calculations

Expressions whose parts are arguments: numbers, texts, comparisons and matches.
-/
namespace NativeUi.Shell.Tool

namespace Calculation

inductive Fault where
  | missingAfter (word : String)
  | unexpected (word : String)
  | expectedClose (word : String)
  | notInteger
  | divisionByZero
  | expression (f : Regex.Fault)

def Fault.message : Fault → String
  | .missingAfter w => "syntax error: missing argument after " ++ quote w
  | .unexpected w => "syntax error: unexpected argument " ++ quote w
  | .expectedClose w =>
    if w.isEmpty then "syntax error: expecting ')'"
    else "syntax error: expecting ')' instead of " ++ quote w
  | .notInteger => "non-integer argument"
  | .divisionByZero => "division by zero"
  | .expression f => f.message

structure Read where
  value : String
  last : String
  rest : List String

abbrev Scan := String → List String → Except Fault Read

def integer? (s : String) : Option Int :=
  match s.toList with
  | '-' :: cs => (Text.natOf? cs).map fun n => -(n : Int)
  | cs => (Text.natOf? cs).map fun n => (n : Int)

def isNull (s : String) : Bool :=
  s.isEmpty ||
    match integer? s with
    | some i => i = 0
    | none => false

/-- The match at the start of a text: its first group if there is one, else its length. -/
def matched (s pattern : String) : Except Fault String :=
  match Regex.parse false pattern with
  | .error f => .error (.expression f)
  | .ok r =>
    let found := Regex.farthest (r.spots false (Regex.Spot.start [] s.toList))
    let grouped := 1 < (pattern.splitOn "\\(").length
    match found with
    | none => .ok (if grouped then "" else "0")
    | some spot =>
      let m : Regex.Match := ⟨0, spot⟩
      .ok (if grouped then String.ofList (m.groupText 1) else Text.decimal spot.place)

def primary (whole : Scan) (next : Scan) : Scan := fun last words =>
  match words with
  | [] => .error (.missingAfter last)
  | "(" :: rest => do
    let r ← whole "(" rest
    match r.rest with
    | ")" :: rest => .ok ⟨r.value, ")", rest⟩
    | [] => .error (.expectedClose "")
    | w :: _ => .error (.expectedClose w)
  | ")" :: _ => .error (.unexpected ")")
  | "+" :: w :: rest => .ok ⟨w, w, rest⟩
  | "length" :: rest => do
    let r ← next "length" rest
    .ok ⟨Text.decimal r.value.length, r.last, r.rest⟩
  | "match" :: rest => do
    let a ← next "match" rest
    let b ← next a.last a.rest
    let v ← matched a.value b.value
    .ok ⟨v, b.last, b.rest⟩
  | "index" :: rest => do
    let a ← next "index" rest
    let b ← next a.last a.rest
    let place := a.value.toList.findIdx? fun c => b.value.toList.contains c
    let n := (place.map fun k => k + 1).getD 0
    .ok ⟨Text.decimal n, b.last, b.rest⟩
  | "substr" :: rest => do
    let a ← next "substr" rest
    let b ← next a.last a.rest
    let d ← next b.last b.rest
    match integer? b.value, integer? d.value with
    | some i, some n =>
      if i ≤ 0 || n ≤ 0 then .ok ⟨"", d.last, d.rest⟩
      else
        .ok ⟨String.ofList ((a.value.toList.drop (i.toNat - 1)).take n.toNat), d.last, d.rest⟩
    | _, _ => .ok ⟨"", d.last, d.rest⟩
  | w :: rest => .ok ⟨w, w, rest⟩

def apply (op a b : String) : Except Fault String := do
  let numbers (f : Int → Int → Except Fault Int) : Except Fault String :=
    match integer? a, integer? b with
    | some i, some j => do
      let k ← f i j
      .ok (integerText k)
    | _, _ => .error .notInteger
  let order : Ordering :=
    match integer? a, integer? b with
    | some i, some j => compare i j
    | _, _ => compare a b
  let truth (t : Bool) : Except Fault String := .ok (if t then "1" else "0")
  match op with
  | ":" => matched a b
  | "*" => numbers fun i j => .ok (i * j)
  | "/" => numbers fun i j => if j = 0 then .error .divisionByZero else .ok (Int.tdiv i j)
  | "%" => numbers fun i j => if j = 0 then .error .divisionByZero else .ok (Int.tmod i j)
  | "+" => numbers fun i j => .ok (i + j)
  | "-" => numbers fun i j => .ok (i - j)
  | "<" => truth (order = .lt)
  | "<=" => truth (order ≠ .gt)
  | "=" => truth (order = .eq)
  | "==" => truth (order = .eq)
  | "!=" => truth (order ≠ .eq)
  | ">=" => truth (order ≠ .lt)
  | ">" => truth (order = .gt)
  | "&" => .ok (if isNull a || isNull b then "0" else a)
  | _ => .ok (if !isNull a then a else if !isNull b then b else "0")

def strengths : List (List String) := [
  ["|"], ["&"], ["<", "<=", "=", "==", "!=", ">=", ">"], ["+", "-"], ["*", "/", "%"], [":"]]

def operands (ops : List String) (one : Scan) : Nat → Read → Except Fault Read
  | 0, r => .ok r
  | fuel + 1, r =>
    match r.rest with
    | op :: rest =>
      if ops.contains op then do
        let b ← one op rest
        let v ← apply op r.value b.value
        operands ops one fuel ⟨v, b.last, b.rest⟩
      else .ok r
    | [] => .ok r

def level (base : Scan) : List (List String) → Scan
  | [] => base
  | ops :: stronger => fun last words => do
    let r ← level base stronger last words
    operands ops (level base stronger) (words.length + 1) r

def base : Nat → Scan
  | 0 => fun last _ => .error (.missingAfter last)
  | fuel + 1 => primary (level (base fuel) strengths) (base fuel)

def evaluate (words : List String) : Except Fault String := do
  let r ← level (base (words.length + 1)) strengths "" words
  match r.rest with
  | [] => .ok r.value
  | w :: _ => .error (.unexpected w)

end Calculation

def expr : Tool := fun c => do
  let words :=
    match c.arguments with
    | "--" :: rest => rest
    | words => words
  if words.isEmpty then misuse c 2 "missing operand"
  else
    match Calculation.evaluate words with
    | .error f => failWith c 2 f.message
    | .ok v =>
      printLine v
      return if Calculation.isNull v then 1 else 0

def factorsFrom : Nat → Nat → Nat → List Nat
  | 0, _, n => if n ≤ 1 then [] else [n]
  | fuel + 1, d, n =>
    if n ≤ 1 then []
    else if n < d * d then [n]
    else if n % d = 0 then d :: factorsFrom fuel d (n / d)
    else factorsFrom fuel (d + 1) n

def factor : Tool := fun c => do
  let s ← get
  let words ← if c.arguments.isEmpty then do
      set { s with input := "" }
      pure ((s.input.splitOn "\n").flatMap fun l => (l.splitOn " ").filter (· ≠ ""))
    else pure c.arguments
  forEach
    (fun word =>
      match natural? word with
      | none => failWith c 1 (quote word ++ " is not a valid positive integer")
      | some n => do
        let factors := factorsFrom (n.log2 + n.sqrt + 2) 2 n
        printLine (Text.decimal n ++ ":" ++
          String.join (factors.map fun p => " " ++ Text.decimal p))
        return 0)
    words

def test (bracket : Bool) : Tool := fun c => do
  let s ← get
  match Condition.test .program ⟨s.tree, c.dir⟩ bracket c.arguments with
  | .ok true => return 0
  | .ok false => return 1
  | .error message => failWith c 2 message

end NativeUi.Shell.Tool
