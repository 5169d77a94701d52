import NativeUi.Shell.Tool.Format

/-!
# Conditions

Tests of texts, numbers and files. The shell reads its tests from left to right with operators that
may also be operands; the program goes by the number of its arguments first.
-/
namespace NativeUi.Shell

structure Surroundings where
  tree : FileTree
  dir : String

namespace Condition

inductive Operator where
  | unary
  | binary
  | not
  | both
  | either
  | opens
  | closes
deriving DecidableEq

def unaryOperators : List String := [
  "-r", "-w", "-x", "-e", "-f", "-d", "-c", "-b", "-p", "-u", "-g", "-k", "-s", "-t", "-z", "-n",
  "-h", "-O", "-G", "-L", "-S"]

def binaryOperators : List String := [
  "=", "!=", "<", ">", "-eq", "-ne", "-ge", "-gt", "-le", "-lt", "-nt", "-ot", "-ef"]

def operator? (s : String) : Option Operator :=
  if unaryOperators.contains s then some .unary
  else if binaryOperators.contains s then some .binary
  else
    match s with
    | "!" => some .not
    | "-a" => some .both
    | "-o" => some .either
    | "(" => some .opens
    | ")" => some .closes
    | _ => none

def unary (w : Surroundings) (op a : String) : Bool :=
  let found := w.tree.find (locateFrom w.dir a)
  let isLink : Bool :=
    match w.tree.findNamed (locateFrom w.dir a) with
    | .ok (_, .link _) => true
    | _ => false
  match op with
  | "-z" => a.isEmpty
  | "-n" => !a.isEmpty
  | "-t" => false
  | "-h" => isLink
  | "-L" => isLink
  | "-p" => false
  | "-S" => false
  | "-b" => false
  | _ =>
    match found with
    | .error _ => false
    | .ok (place, entry) =>
      let isDevice := place = Tool.nullDevice
      match op, entry with
      | "-c", _ => isDevice
      | "-f", .file _ _ => !isDevice
      | "-f", _ => false
      | "-d", .file _ _ => false
      | "-u", .file _ rights => rights / 0o4000 % 2 = 1
      | "-u", _ => false
      | "-g", .file _ rights => rights / 0o2000 % 2 = 1
      | "-g", _ => false
      | "-k", .file _ rights => rights / 0o1000 % 2 = 1
      | "-k", _ => place = ["tmp"]
      | "-x", .file _ rights => rights.runs
      | "-s", .file content _ => 0 < content.size
      | _, _ => true

def sameFile (w : Surroundings) (a b : String) : Bool :=
  match w.tree.find (locateFrom w.dir a), w.tree.find (locateFrom w.dir b) with
  | .ok (p, _), .ok (q, _) => w.tree.sameFile p q
  | _, _ => false

def compare (op : String) (a b : Int) : Bool :=
  match op with
  | "-eq" => a = b
  | "-ne" => a ≠ b
  | "-ge" => b ≤ a
  | "-gt" => b < a
  | "-le" => a ≤ b
  | _ => a < b

def binary (d : Dialect) (w : Surroundings) (a op b : String) : Except String Bool := do
  let isThere (x : String) : Bool := w.tree.pathExists (locateFrom w.dir x)
  let number (s : String) : Except String Int :=
    match integerOf? false s, d with
    | some i, _ => .ok i
    | none, .shell => .error ("Illegal number: " ++ s)
    | none, .program => .error ("invalid integer " ++ Tool.quote s)
  match op with
  | "=" => .ok (a = b)
  | "==" => .ok (a = b)
  | "!=" => .ok (a ≠ b)
  | "<" => .ok (decide (a.toList < b.toList))
  | ">" => .ok (decide (b.toList < a.toList))
  | "-nt" => .ok (d = .program && isThere a && !isThere b)
  | "-ot" => .ok (d = .program && isThere b && !isThere a)
  | "-ef" => .ok (sameFile w a b)
  | op => do
    let i ← number a
    let j ← number b
    .ok (compare op i j)

/-! ### Tests of the shell -/

def leading? : List String → Option Operator
  | [] => none
  | s :: rest =>
    match operator? s, rest with
    | some .unary, [] => none
    | some .unary, [_] => some .unary
    | some .unary, t :: u :: _ =>
      if operator? t = some .binary && u ≠ ")" then none else some .unary
    | some .opens, [] => none
    | op, _ => op

abbrev Reading := Except String (Bool × List String)

def primary (w : Surroundings) (whole : List String → Reading) (words : List String) : Reading :=
  match words with
  | [] => .ok (false, [])
  | s :: rest =>
    match leading? words with
    | some .opens =>
      if leading? rest = some .closes then .ok (false, rest)
      else do
        let (value, rest) ← whole rest
        if leading? rest.tail = some .closes then .ok (value, rest.tail)
        else .error "closing paren expected"
    | some .unary =>
      match rest with
      | [] => .error (s ++ ": argument expected")
      | a :: _ => .ok (unary w s a, rest)
    | _ =>
      match rest with
      | op :: behind =>
        if leading? rest = some .binary then
          match behind with
          | [] => .error (op ++ ": argument expected")
          | b :: _ => do
            let value ← binary .shell w s op b
            .ok (value, behind)
        else .ok (!s.isEmpty, words)
      | [] => .ok (!s.isEmpty, words)

def negated (one : List String → Reading) : Nat → List String → Reading
  | 0, _ => .error "too deep"
  | fuel + 1, words =>
    if leading? words = some .not then do
      let (value, rest) ← negated one fuel words.tail
      .ok (!value, rest)
    else one words

def joined (op : Operator) (combine : Bool → Bool → Bool) (one : List String → Reading) :
    Nat → Bool → List String → Reading
  | 0, _, _ => .error "too deep"
  | fuel + 1, before, words => do
    let (value, rest) ← one words
    let value := combine before value
    if leading? rest.tail = some op then joined op combine one fuel value (rest.drop 2)
    else .ok (value, rest)

def nested (w : Surroundings) : Nat → List String → Reading
  | 0, _ => .error "too deep"
  | fuel + 1, words =>
    let n := words.length + 2
    joined .either (· || ·)
      (joined .both (· && ·) (negated (primary w (nested w fuel)) n) n true) n false words

def shellTest (w : Surroundings) (words : List String) : Except String Bool :=
  let whole (words : List String) : Except String Bool := do
    let (value, rest) ← nested w (words.length + 1) words
    match rest with
    | s :: _ :: _ => .error (s ++ ": unexpected operator")
    | _ => .ok value
  match words with
  | [a, op, b] =>
    if operator? op = some .binary then binary .shell w a op b
    else if a = "(" && b = ")" then whole [op]
    else whole words
  | [a, b, c, d] => if a = "(" && d = ")" then whole [b, c] else whole words
  | words => whole words

/-! ### Tests of the program -/

def isUnaryLike (s : String) : Bool :=
  match s.toList with
  | ['-', _] => true
  | _ => false

def isBinary (s : String) : Bool := s = "==" || binaryOperators.contains s

def missingAfter {α : Type} (s : String) : Except String α :=
  .error ("missing argument after " ++ Tool.quote s)

def programUnary (w : Surroundings) (op a : String) : Except String Bool :=
  if unaryOperators.contains op || op = "-N" then .ok (unary w op a)
  else .error (Tool.quote op ++ ": unary operator expected")

def programTerm (w : Surroundings) (last : String) (whole : List String → Reading) :
    Nat → List String → Reading
  | 0, _ => .error "too deep"
  | fuel + 1, words =>
    match words with
    | [] => missingAfter last
    | "!" :: rest => do
      let (value, rest) ← programTerm w last whole fuel rest
      .ok (!value, rest)
    | "(" :: rest => do
      let (value, rest) ← whole rest
      match rest with
      | ")" :: rest => .ok (value, rest)
      | s :: _ => .error ("')' expected, found " ++ s)
      | [] => .error "')' expected"
    | a :: op :: b :: rest =>
      if isBinary op then do
        let value ← binary .program w a op b
        .ok (value, rest)
      else if isUnaryLike a then do
        let value ← programUnary w a op
        .ok (value, b :: rest)
      else .ok (!a.isEmpty, op :: b :: rest)
    | [a, b] =>
      if isUnaryLike a then do
        let value ← programUnary w a b
        .ok (value, [])
      else .ok (!a.isEmpty, [b])
    | [a] => .ok (!a.isEmpty, [])

def programJoined (op : String) (combine : Bool → Bool → Bool) (one : List String → Reading) :
    Nat → Bool → List String → Reading
  | 0, _, _ => .error "too deep"
  | fuel + 1, before, words => do
    let (value, rest) ← one words
    let value := combine before value
    match rest with
    | s :: rest' =>
      if s = op then programJoined op combine one fuel value rest' else .ok (value, rest)
    | [] => .ok (value, [])

def programNested (w : Surroundings) (last : String) : Nat → List String → Reading
  | 0, _ => .error "too deep"
  | fuel + 1, words =>
    let n := words.length + 2
    programJoined "-o" (· || ·)
      (programJoined "-a" (· && ·) (programTerm w last (programNested w last fuel) n) n true)
      n false words

def programExpression (w : Surroundings) (words : List String) : Except String Bool := do
  let (value, rest) ← programNested w (words.getLastD "") (words.length + 2) words
  match rest with
  | [] => .ok value
  | s :: _ => .error ("extra argument " ++ Tool.quote s)

def programTest (w : Surroundings) : Nat → List String → Except String Bool
  | 0, _ => .error "too deep"
  | fuel + 1, words =>
    match words with
    | [] => .ok false
    | [a] => .ok (!a.isEmpty)
    | [a, b] =>
      if a = "!" then (programTest w fuel [b]).map not
      else if isUnaryLike a then programUnary w a b
      else missingAfter b
    | [a, op, b] =>
      if isBinary op then binary .program w a op b
      else if a = "!" then (programTest w fuel [op, b]).map not
      else if a = "(" && b = ")" then .ok (!op.isEmpty)
      else if op = "-a" || op = "-o" then programExpression w words
      else .error (Tool.quote op ++ ": binary operator expected")
    | [a, b, c, d] =>
      if a = "!" then (programTest w fuel [b, c, d]).map not
      else if a = "(" && d = ")" then programTest w fuel [b, c]
      else programExpression w words
    | words => programExpression w words

def test (d : Dialect) (w : Surroundings) (bracket : Bool) (arguments : List String) :
    Except String Bool := do
  let words ←
    if bracket then
      if arguments.getLast? = some "]" then .ok arguments.dropLast
      else
        match d with
        | .shell => .error "missing ]"
        | .program => .error "missing ']'"
    else .ok arguments
  match d with
  | .shell => shellTest w words
  | .program => programTest w (words.length + 2) words

end Condition

end NativeUi.Shell
