import NativeUi.Shell.Arithmetic
import NativeUi.Shell.Pattern
import Std.Data.HashSet

/-!
# Regular expressions

Expressions in the basic and the extended spelling. Of all matches the leftmost counts, and of those
the longest. A match is found by keeping all places that an expression may lead to from a place, so
that repetitions stay small.
-/
namespace NativeUi.Shell

inductive Regex where
  | nothing
  | any
  | oneOf (negated : Bool) (members : List Member)
  | chain (a b : Regex)
  | either (a b : Regex)
  | times (r : Regex) (least : Nat) (most : Option Nat)
  | group (number : Nat) (r : Regex)
  | again (number : Nat)
  | atStart
  | atEnd
  | wordStart
  | wordEnd
  | wordEdge (negated : Bool)

namespace Regex

inductive Fault where
  | openGroup
  | closeGroup
  | openSet
  | openCount
  | badCount
  | badRange
  | badClass
  | trailingBackslash
  | badReference

def Fault.message : Fault → String
  | .openGroup => "Unmatched ( or \\("
  | .closeGroup => "Unmatched ) or \\)"
  | .openSet => "Unmatched [, [^, [:, [., or [="
  | .openCount => "Unmatched \\\x7b"
  | .badCount => "Invalid content of \\\x7b\\\x7d"
  | .badRange => "Invalid range end"
  | .badClass => "Invalid character class name"
  | .trailingBackslash => "Trailing backslash"
  | .badReference => "Invalid back reference"

def char (c : Char) : Regex := .oneOf false [.range c c]

/-! ### Matching -/

/-- A place in a text: what lies behind it, what is left, and the groups that have been found. -/
structure Spot where
  before : List Char
  rest : List Char
  place : Nat
  groups : List (Nat × Nat × Nat)

namespace Spot

def start (before rest : List Char) : Spot := ⟨before, rest, before.length, []⟩

def advance (s : Spot) (c : Char) (rest : List Char) : Spot :=
  ⟨c :: s.before, rest, s.place + 1, s.groups⟩

def group? (s : Spot) (n : Nat) : Option (Nat × Nat) :=
  (s.groups.find? fun g => g.1 == n).map fun g => g.2

def between (s : Spot) (first last : Nat) : List Char :=
  ((s.before.drop (s.place - last)).take (last - first)).reverse

def isWordBehind (s : Spot) : Bool := (s.before.head?.map isNameChar).getD false

def isWordAhead (s : Spot) : Bool := (s.rest.head?.map isNameChar).getD false

def over? (folds : Bool) : List Char → Spot → Option Spot
  | [], s => some s
  | c :: cs, s =>
    match s.rest with
    | d :: rest =>
      if c = d || (folds && c.toLower = d.toLower) then over? folds cs (s.advance d rest) else none
    | [] => none

end Spot

def distinct : List Spot → Std.HashSet Nat → List Spot
  | [], _ => []
  | s :: ss, seen =>
    if seen.contains s.place then distinct ss seen else s :: distinct ss (seen.insert s.place)

/-- Repeats a step: the spots behind so many turns, the later turns first. Once there have been
enough, a place that has been reached before is not gone on from. -/
def repeated (step : Spot → List Spot) (least : Nat) (most : Option Nat) :
    Nat → Nat → Std.HashSet Nat → List Spot → List Spot
  | 0, _, _, _ => []
  | fuel + 1, turn, seen, spots =>
    if spots.isEmpty then []
    else
      let enough := least ≤ turn
      let stops := (most.map fun m => decide (m ≤ turn)).getD false
      let here := if enough then spots else []
      if stops then here
      else
        let seen := if enough then seen.insertMany (spots.map Spot.place) else ∅
        let more := distinct (spots.flatMap step) seen
        repeated step least most fuel (turn + 1) seen more ++ here

def holds (folds : Bool) (negated : Bool) (members : List Member) (c : Char) : Bool :=
  let found := members.any (Member.holds c) ||
    (folds && (members.any (Member.holds c.toLower) || members.any (Member.holds c.toUpper)))
  found != negated

def spots (folds : Bool) : Regex → Spot → List Spot
  | .nothing, s => [s]
  | .any, s =>
    match s.rest with
    | c :: rest => [s.advance c rest]
    | [] => []
  | .oneOf negated members, s =>
    match s.rest with
    | c :: rest => if holds folds negated members c then [s.advance c rest] else []
    | [] => []
  | .chain a b, s => distinct ((spots folds a s).flatMap (spots folds b)) ∅
  | .either a b, s => distinct (spots folds a s ++ spots folds b s) ∅
  | .times r least most, s =>
    distinct (repeated (spots folds r) least most (s.rest.length + least + 2) 0 ∅ [s]) ∅
  | .group n r, s =>
    (spots folds r s).map fun t =>
      { t with groups := (n, s.place, t.place) :: t.groups.filter fun g => g.1 != n }
  | .again n, s =>
    match s.group? n with
    | none => []
    | some (first, last) => ((s.over? folds (s.between first last)).map fun t => [t]).getD []
  | .atStart, s => if s.before.isEmpty then [s] else []
  | .atEnd, s => if s.rest.isEmpty then [s] else []
  | .wordStart, s => if !s.isWordBehind && s.isWordAhead then [s] else []
  | .wordEnd, s => if s.isWordBehind && !s.isWordAhead then [s] else []
  | .wordEdge negated, s => if (s.isWordBehind != s.isWordAhead) != negated then [s] else []

def farthest : List Spot → Option Spot
  | [] => none
  | s :: ss =>
    match farthest ss with
    | some t => if s.place < t.place then some t else some s
    | none => some s

structure Match where
  start : Nat
  spot : Spot

def findFrom (folds : Bool) (r : Regex) (keep : Match → Bool) : List Char → List Char → Option Match
  | before, [] =>
    let s := Spot.start before []
    ((farthest ((spots folds r s).filter fun t => keep ⟨s.place, t⟩))).map fun t => ⟨s.place, t⟩
  | before, c :: rest =>
    let s := Spot.start before (c :: rest)
    match farthest ((spots folds r s).filter fun t => keep ⟨s.place, t⟩) with
    | some t => some ⟨s.place, t⟩
    | none => findFrom folds r keep (c :: before) rest

def find? (folds : Bool) (r : Regex) (cs : List Char) : Option Match :=
  findFrom folds r (fun _ => true) [] cs

namespace Match

def text (m : Match) : List Char := m.spot.between m.start m.spot.place

def groupText (m : Match) (n : Nat) : List Char :=
  if n = 0 then m.text
  else
    match m.spot.group? n with
    | some (first, last) => m.spot.between first last
    | none => []

end Match

/-! ### Reading -/

abbrev Reading := Except Fault (Regex × Nat × List Char)

/-- The name of a class in a set, behind the bracket and the colon that open it. -/
def className? (cs : List Char) : Option (String × List Char) :=
  match cs.dropWhile Char.isAlpha with
  | ':' :: ']' :: rest => some (String.ofList (cs.takeWhile Char.isAlpha), rest)
  | _ => none

def classNames : List String := [
  "alpha", "digit", "alnum", "upper", "lower", "space", "blank", "punct", "print", "graph",
  "cntrl", "xdigit"]

def members : Nat → Bool → List Char → Except Fault (List Member × List Char)
  | 0, _, _ => .error .openSet
  | _, _, [] => .error .openSet
  | fuel + 1, first, c :: rest =>
    if c = ']' && !first then .ok ([], rest)
    else
      match c, rest with
      | '[', ':' :: more =>
        match className? more with
        | some (name, rest) =>
          if classNames.contains name then do
            let (ms, rest) ← members fuel false rest
            .ok (.named name :: ms, rest)
          else .error .badClass
        | none => .error .openSet
      | c, '-' :: ']' :: more => do
        let (ms, rest) ← members fuel false ('-' :: ']' :: more)
        .ok (.range c c :: ms, rest)
      | c, '-' :: d :: more =>
        if d < c then .error .badRange
        else do
          let (ms, rest) ← members fuel false more
          .ok (.range c d :: ms, rest)
      | c, rest => do
        let (ms, rest) ← members fuel false rest
        .ok (.range c c :: ms, rest)

def set (cs : List Char) : Except Fault (Regex × List Char) := do
  let (negated, cs) :=
    match cs with
    | '^' :: rest => (true, rest)
    | cs => (false, cs)
  let (ms, rest) ← members (cs.length + 1) true cs
  .ok (.oneOf negated ms, rest)

def count? (extended : Bool) (cs : List Char) :
    Except Fault (Nat × Option Nat × List Char) := do
  let close (rest : List Char) : Except Fault (List Char) :=
    match extended, rest with
    | true, '\x7d' :: rest => .ok rest
    | false, '\\' :: '\x7d' :: rest => .ok rest
    | _, [] => .error .openCount
    | _, _ => .error .badCount
  let low := cs.takeWhile Char.isDigit
  let rest := cs.dropWhile Char.isDigit
  match rest with
  | ',' :: rest =>
    let high := rest.takeWhile Char.isDigit
    let rest ← close (rest.dropWhile Char.isDigit)
    .ok (Text.digitsValue low, if high.isEmpty then none else some (Text.digitsValue high), rest)
  | rest =>
    if low.isEmpty then .error (if rest.isEmpty then .openCount else .badCount)
    else do
      let rest ← close rest
      .ok (Text.digitsValue low, some (Text.digitsValue low), rest)

def repetitions (extended : Bool) : Nat → Regex → List Char → Except Fault (Regex × List Char)
  | 0, r, cs => .ok (r, cs)
  | fuel + 1, r, cs =>
    let counted (rest : List Char) : Except Fault (Regex × List Char) := do
      let (least, most, rest) ← count? extended rest
      repetitions extended fuel (.times r least most) rest
    match cs, extended with
    | '*' :: rest, _ => repetitions extended fuel (.times r 0 none) rest
    | '+' :: rest, true => repetitions extended fuel (.times r 1 none) rest
    | '?' :: rest, true => repetitions extended fuel (.times r 0 (some 1)) rest
    | '\\' :: '+' :: rest, false => repetitions extended fuel (.times r 1 none) rest
    | '\\' :: '?' :: rest, false => repetitions extended fuel (.times r 0 (some 1)) rest
    | '\x7b' :: d :: rest, true =>
      if d.isDigit || d = ',' then counted (d :: rest) else .ok (r, cs)
    | '\\' :: '\x7b' :: rest, false => counted rest
    | _, _ => .ok (r, cs)

def wordMembers : List Member := [.range 'a' 'z', .range 'A' 'Z', .range '0' '9', .range '_' '_']

def escaped (groups : Nat) (c : Char) : Except Fault Regex :=
  match c with
  | 'n' => .ok (char '\n')
  | 't' => .ok (char '\t')
  | 'w' => .ok (.oneOf false wordMembers)
  | 'W' => .ok (.oneOf true wordMembers)
  | 's' => .ok (.oneOf false [.named "space"])
  | 'S' => .ok (.oneOf true [.named "space"])
  | 'b' => .ok (.wordEdge false)
  | 'B' => .ok (.wordEdge true)
  | '<' => .ok .wordStart
  | '>' => .ok .wordEnd
  | '\x60' => .ok .atStart
  | '\x27' => .ok .atEnd
  | c =>
    if '1' ≤ c && c ≤ '9' then
      if Text.digitValue c ≤ groups then .ok (.again (Text.digitValue c)) else .error .badReference
    else .ok (char c)

def endsBranch (extended : Bool) (deep : Bool) (cs : List Char) : Bool :=
  match extended, cs with
  | _, [] => true
  | true, '|' :: _ => true
  | true, ')' :: _ => deep
  | false, '\\' :: '|' :: _ => true
  | false, '\\' :: ')' :: _ => deep
  | _, _ => false

def atom (extended deep first : Bool) (inner : Nat → List Char → Reading) (groups : Nat)
    (cs : List Char) : Reading :=
  let grouped (rest : List Char) : Reading := do
    let n := groups + 1
    let (r, groups, rest) ← inner n rest
    match extended, rest with
    | true, ')' :: rest => .ok (.group n r, groups, rest)
    | false, '\\' :: ')' :: rest => .ok (.group n r, groups, rest)
    | _, _ => .error .openGroup
  match cs, extended with
  | [], _ => .ok (.nothing, groups, [])
  | '[' :: rest, _ => do
    let (r, rest) ← set rest
    .ok (r, groups, rest)
  | '.' :: rest, _ => .ok (.any, groups, rest)
  | '(' :: rest, true => grouped rest
  | '\\' :: '(' :: rest, false => grouped rest
  | '\\' :: ')' :: _, false => .error .closeGroup
  | '^' :: rest, true => .ok (.atStart, groups, rest)
  | '$' :: rest, true => .ok (.atEnd, groups, rest)
  | '^' :: rest, false => .ok (if first then .atStart else char '^', groups, rest)
  | '$' :: rest, false =>
    .ok (if endsBranch false deep rest then .atEnd else char '$', groups, rest)
  | ['\\'], _ => .error .trailingBackslash
  | '\\' :: c :: rest, _ => do
    let r ← escaped groups c
    .ok (r, groups, rest)
  | c :: rest, _ => .ok (char c, groups, rest)

def branch (extended deep : Bool) (inner : Nat → List Char → Reading) :
    Nat → Bool → Nat → List Char → Reading
  | 0, _, groups, cs => .ok (.nothing, groups, cs)
  | fuel + 1, first, groups, cs =>
    if endsBranch extended deep cs then .ok (.nothing, groups, cs)
    else do
      let starred :=
        match cs with
        | '*' :: _ => first
        | _ => false
      let (r, groups, rest) ←
        if starred then .ok (char '*', groups, cs.tail)
        else atom extended deep first inner groups cs
      let anchor :=
        match r with
        | .atStart => !extended
        | _ => false
      let (r, rest) ←
        if anchor then .ok (r, rest) else repetitions extended (rest.length + 1) r rest
      let (more, groups, rest) ← branch extended deep inner fuel anchor groups rest
      .ok (.chain r more, groups, rest)

def branches (extended deep : Bool) (inner : Nat → List Char → Reading) :
    Nat → Nat → List Char → Reading
  | 0, groups, cs => .ok (.nothing, groups, cs)
  | fuel + 1, groups, cs => do
    let (r, groups, rest) ← branch extended deep inner (cs.length + 1) true groups cs
    match extended, rest with
    | true, '|' :: rest => do
      let (more, groups, rest) ← branches extended deep inner fuel groups rest
      .ok (.either r more, groups, rest)
    | false, '\\' :: '|' :: rest => do
      let (more, groups, rest) ← branches extended deep inner fuel groups rest
      .ok (.either r more, groups, rest)
    | _, rest => .ok (r, groups, rest)

def nested (extended : Bool) : Nat → Nat → List Char → Reading
  | 0, _, _ => .error .openGroup
  | fuel + 1, groups, cs =>
    branches extended true (nested extended fuel) (cs.length + 1) groups cs

def parse (extended : Bool) (s : String) : Except Fault Regex := do
  let cs := s.toList
  let (r, _, rest) ←
    branches extended false (nested extended (cs.length + 1)) (cs.length + 1) 0 cs
  match rest with
  | [] => .ok r
  | _ => .error .closeGroup

def literal (s : String) : Regex := s.toList.foldr (fun c r => .chain (char c) r) .nothing

end Regex

end NativeUi.Shell
