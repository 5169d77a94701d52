import NativeUi.Shell.Regex
import NativeUi.Shell.Tool.Names

/-!
# Searching

Lines of texts that match some expression.
-/
namespace NativeUi.Shell.Tool

structure Query where
  expressions : List Regex
  folds : Bool
  words : Bool
  wholeLines : Bool
  inverted : Bool

namespace Query

def keeps (q : Query) (m : Regex.Match) : Bool :=
  let behind := (m.spot.before.drop (m.spot.place - m.start)).head?
  let isEdge (c : Option Char) : Bool := !(c.map isNameChar).getD false
  (!q.wholeLines || (m.start = 0 && m.spot.rest.isEmpty)) &&
    (!q.words || (isEdge behind && isEdge m.spot.rest.head?))

def matchFrom? (q : Query) (before rest : List Char) : Option Regex.Match :=
  let found := q.expressions.filterMap fun r => Regex.findFrom q.folds r q.keeps before rest
  found.foldl
    (fun best m =>
      match best with
      | none => some m
      | some b =>
        if m.start < b.start || (m.start = b.start && b.spot.place < m.spot.place) then some m
        else best)
    none

def selects (q : Query) (line : String) : Bool :=
  (q.matchFrom? [] line.toList).isSome != q.inverted

def matchesIn (q : Query) : Nat → List Char → List Char → List String
  | 0, _, _ => []
  | fuel + 1, before, rest =>
    match q.matchFrom? before rest with
    | none => []
    | some m =>
      let spot := m.spot
      if spot.place = m.start then
        match spot.rest with
        | [] => []
        | c :: rest => matchesIn q fuel (c :: spot.before) rest
      else String.ofList m.text :: matchesIn q fuel spot.before spot.rest

end Query

structure Showing where
  names : Bool
  numbers : Bool
  parts : Bool
  limit : Option Nat
  before : Nat
  after : Nat

def selectedLines (q : Query) (limit : Option Nat) (lines : List String) : List Nat :=
  let numbers := (lines.zipIdx 1).filterMap fun x => if q.selects x.1 then some x.2 else none
  match limit with
  | some n => numbers.take n
  | none => numbers

def lineStart (s : Showing) (name : String) (mark : String) (number : Nat) : String :=
  (if s.names then name ++ mark else "") ++ (if s.numbers then Text.decimal number ++ mark else "")

def showLines (q : Query) (s : Showing) (name : String) (lines : List String)
    (selected : List Nat) :
    List String :=
  let near (n : Nat) : Bool := selected.any fun k => k - s.before ≤ n && n ≤ k + s.after
  let context := 0 < s.before || 0 < s.after
  let shown := (lines.zipIdx 1).filter fun x => near x.2
  let out := shown.foldl
    (fun (acc : List String × Nat) x =>
      let (line, n) := x
      let gap := context && acc.2 ≠ 0 && acc.2 + 1 < n
      let isSelected := selected.contains n
      let start := lineStart s name (if isSelected then ":" else "-") n
      let text :=
        if s.parts then
          if isSelected then (q.matchesIn (line.length + 1) [] line.toList).map fun m => start ++ m
          else []
        else [start ++ line]
      (acc.1 ++ (if gap then ["--"] else []) ++ text, n))
    ([], 0)
  out.1

def searchFiles (c : Call) (recursive follows : Bool) (keeps : String → Bool)
    (names : List String) : Work (List (String × Except FileError String)) := do
  let t ← getTree
  let below (p : Place) : List (Place × Entry) :=
    if follows then
      (t.below (t.slots.length + 1) [p] p).mergeSort fun a b => a.1 ≤ b.1
    else entriesBelow t p
  let expand (name : String) : List (String × Bool) :=
    match recursive, t.find (c.locate name) with
    | true, .ok (p, .directory) =>
      (below p).filterMap fun x =>
        match x.2 with
        | .file _ _ =>
          let path := pathBelow name x.1
          if keeps (lastName path) then some (path, true) else none
        | _ => none
    | _, _ => [(name, false)]
  let inner := names.flatMap expand
  inner.mapM fun x => do
    let text ← readOperand c x.1
    return (x.1, text)

def grepOptions : Options :=
  (Options.flags "EFGPivwxclLqnhHosraRbzUT"
    [("extended-regexp", 'E'), ("fixed-strings", 'F'), ("basic-regexp", 'G'), ("ignore-case", 'i'),
      ("invert-match", 'v'), ("word-regexp", 'w'), ("line-regexp", 'x'), ("count", 'c'),
      ("files-with-matches", 'l'), ("files-without-match", 'L'), ("quiet", 'q'), ("silent", 'q'),
      ("line-number", 'n'), ("no-filename", 'h'), ("with-filename", 'H'), ("only-matching", 'o'),
      ("no-messages", 's'), ("recursive", 'r'), ("dereference-recursive", 'R'),
      ("text", 'a'), ("regexp", 'e'), ("file", 'f'),
      ("max-count", 'm'), ("after-context", 'A'), ("before-context", 'B'), ("context", 'C'),
      ("include", 'I'), ("color", 'T'), ("colour", 'T')]).withValues "efmABCI"

def patternsOf (c : Call) (given : List Given) (operands : List String) :
    Work (Except String (List String × List String)) := do
  let texts := given.filterMap fun x => if x.1 = 'e' then some x.2 else none
  let split (s : String) : List String := s.splitOn "\n"
  match valueOf? given 'f' with
  | some file =>
    let text ← readOperand c file
    match text with
    | .error e => return .error (file ++ ": " ++ e.reason)
    | .ok text => return .ok (texts.flatMap split ++ linesOf text, operands)
  | none =>
    if texts.isEmpty then
      match operands with
      | [] => return .error ""
      | p :: names => return .ok (split p, names)
    else return .ok (texts.flatMap split, operands)

def searchText (given : List Given) (q : Query) (s : Showing) (name text : String) : Work Bool := do
  let lines := linesOf text
  let selected := selectedLines q s.limit lines
  let found := !selected.isEmpty
  if has given 'q' then return found
  else if has given 'l' then
    if found then printLine name
    return found
  else if has given 'L' then
    if found then pure () else printLine name
    return !found
  else if has given 'c' then
    printLine ((if s.names then name ++ ":" else "") ++ Text.decimal selected.length)
    return found
  else
    if found && text.toList.contains '\x00' && !has given 'a' then
      printLine ("Binary file " ++ name ++ " matches")
    else print (ofLines (showLines q s name lines selected))
    return found

def grepWith (extended fixed : Bool) : Tool := fun c =>
  let isCount (a : String) : Bool :=
    match a.toList with
    | '-' :: d :: ds => (d :: ds).all Char.isDigit
    | _ => false
  let arguments := c.arguments.map fun a =>
    if isCount a then "-C" ++ String.ofList (a.toList.drop 1) else a
  match grepOptions.sort true arguments with
  | .error e =>
    failWith c 2 (e.message ++ "\nUsage: " ++ c.name ++ " [OPTION]... PATTERNS [FILE]..." ++ hint c)
  | .ok (given, operands) => do
    let patterns ← patternsOf c given operands
    match patterns with
    | .error "" =>
      say .errors ("Usage: " ++ c.name ++ " [OPTION]... PATTERNS [FILE]..." ++ hint c ++ "\n")
      return 2
    | .error message => failWith c 2 message
    | .ok (patterns, names) =>
      let fixed := (fixed || has given 'F') && !has given 'E'
      let extended := extended || has given 'E' || has given 'P'
      let compiled := patterns.mapM fun p =>
        if fixed then .ok (Regex.literal p) else Regex.parse extended p
      match compiled with
      | .error f => failWith c 2 f.message
      | .ok expressions =>
        let q : Query :=
          ⟨expressions, has given 'i', has given 'w', has given 'x', has given 'v'⟩
        let recursive := has given 'r' || has given 'R'
        let number (letter : Char) : Option Nat := (valueOf? given letter).bind natural?
        let around := (number 'C').getD 0
        let many := 1 < names.length || recursive
        let s : Showing :=
          ⟨(many || has given 'H') && !has given 'h', has given 'n', has given 'o', number 'm',
            (number 'B').getD around, (number 'A').getD around⟩
        let includes := given.filterMap fun x =>
          if x.1 = 'I' then some (Pattern.ofText x.2) else none
        let keeps (name : String) : Bool :=
          includes.isEmpty || includes.any fun p => p.accepts name.toList
        let top := names.isEmpty && recursive
        let searched := if names.isEmpty then [if recursive then "." else "-"] else names
        let texts ← searchFiles c recursive (has given 'R') keeps searched
        let results ← texts.mapM fun (name, text) => do
          let shown :=
            if isInputName name then "(standard input)"
            else if top then String.ofList (name.toList.drop 2)
            else name
          match text with
          | .error e =>
            if has given 's' then pure () else complain c (name ++ ": " ++ e.reason)
            return (false, true)
          | .ok text =>
            let found ← searchText given q s shown text
            return (found, false)
        let found := results.any Prod.fst
        let faulty := results.any Prod.snd
        if faulty && !(found && has given 'q') then return 2
        else return if found then 0 else 1

def grep : Tool := grepWith false false

def egrep : Tool := grepWith true false

def fgrep : Tool := grepWith false true

end NativeUi.Shell.Tool
