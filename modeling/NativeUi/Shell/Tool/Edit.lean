import NativeUi.Shell.Tool.Format
import NativeUi.Shell.Tool.Search

/-!
# Editing streams

A script of commands is run for every line of a text. Each command may be bound to lines by their
numbers or by what they hold.
-/
namespace NativeUi.Shell.Tool

namespace Edit

inductive Address where
  | line (n : Nat)
  | last
  | pattern (r : Option Regex) (folds : Bool)
  | every (first step : Nat)

inductive RangeEnd where
  | address (a : Address)
  | plus (n : Nat)
  | multiple (n : Nat)

structure Scope where
  first : Option Address
  last : Option RangeEnd
  negated : Bool

inductive Piece where
  | text (cs : List Char)
  | group (n : Nat)
  | upper
  | lower
  | upperNext
  | lowerNext
  | plain

structure Substitution where
  expression : Option Regex
  folds : Bool
  replacement : List Piece
  all : Bool
  occurrence : Nat
  prints : Bool
  file : Option String

inductive Action where
  | open_
  | close
  | number
  | append (text : String)
  | insert (text : String)
  | change (text : String)
  | label (name : String)
  | branch (name : String)
  | branchIf (name : String)
  | branchUnless (name : String)
  | delete
  | deleteFirst
  | getHeld
  | appendHeld
  | hold
  | appendToHeld
  | exchange
  | next
  | appendNext
  | print
  | printFirst
  | printEscaped (width : Nat)
  | clear
  | quit (status : Nat)
  | quitSilent (status : Nat)
  | readFile (name : String)
  | writeFile (name : String)
  | substitute (s : Substitution)
  | transliterate (pairs : List (Char × Char))

structure Instruction where
  scope : Scope
  action : Action

/-! ### Reading scripts -/

inductive Fault where
  | unknownCommand (c : Char)
  | missingCommand
  | unterminatedSubstitution
  | unterminatedTransliteration
  | unterminatedAddress
  | badOption
  | repeatedOption (c : Char)
  | repeatedNumber
  | zeroNumber
  | extraCharacters
  | expectedText
  | unmatchedOpen
  | unmatchedClose
  | lengthsDiffer
  | missingName
  | missingFile
  | badReference (n : Nat)
  | expression (f : Regex.Fault)
  | unexpectedComma
  | zeroAddress
  | repeatedNegation
  | oneAddress
  | noAddress (command : String)
  | commentAddress

def Fault.message : Fault → String
  | .unknownCommand c => "unknown command: \x60" ++ c.toString ++ "'"
  | .missingCommand => "missing command"
  | .unterminatedSubstitution => "unterminated \x60s' command"
  | .unterminatedTransliteration => "unterminated \x60y' command"
  | .unterminatedAddress => "unterminated address regex"
  | .badOption => "unknown option to \x60s'"
  | .repeatedOption c => "multiple \x60" ++ c.toString ++ "' options to \x60s' command"
  | .repeatedNumber => "multiple number options to \x60s' command"
  | .zeroNumber => "number option to \x60s' command may not be zero"
  | .extraCharacters => "extra characters after command"
  | .expectedText => "expected \\ after \x60a', \x60c' or \x60i'"
  | .unmatchedOpen => "unmatched \x60\x7b'"
  | .unmatchedClose => "unexpected \x60\x7d'"
  | .lengthsDiffer => "strings for \x60y' command are different lengths"
  | .missingName => "\":\" lacks a label"
  | .missingFile => "missing filename in r/R/w/W commands"
  | .badReference n => "invalid reference \\" ++ Text.decimal n ++ " on \x60s' command's RHS"
  | .expression f => f.message
  | .unexpectedComma => "unexpected \x60,'"
  | .zeroAddress => "invalid usage of line address 0"
  | .repeatedNegation => "multiple \x60!'s"
  | .oneAddress => "command only uses one address"
  | .noAddress command => command ++ " doesn't want any addresses"
  | .commentAddress => "comments don't accept any addresses"

abbrev Misread := Fault × List Char

def specialCharacter? (cs : List Char) : Option (Char × List Char) :=
  let coded (base most : Nat) (isDigit : Char → Bool) (rest : List Char) :
      Option (Char × List Char) :=
    let digits := (rest.take most).takeWhile isDigit
    if digits.isEmpty then none
    else some (Format.octet (Expr.valueIn base digits), rest.drop digits.length)
  match cs with
  | 'a' :: rest => some ('\x07', rest)
  | 'f' :: rest => some ('\x0c', rest)
  | 'n' :: rest => some ('\n', rest)
  | 'r' :: rest => some ('\r', rest)
  | 't' :: rest => some ('\t', rest)
  | 'v' :: rest => some ('\x0b', rest)
  | 'c' :: c :: rest => some (Format.octet (c.toUpper.toNat ^^^ 64), rest)
  | 'd' :: rest => coded 10 3 Char.isDigit rest
  | 'o' :: rest => coded 8 3 Expr.isOctalDigit rest
  | 'x' :: rest => coded 16 2 Expr.isHexDigit rest
  | _ => none

/-- A text up to an unprotected end mark on its line. A protected mark loses its backslash, and so
does a protected newline. What is left is the error if there is no such mark. -/
def delimited (mark : Char) : List Char → Except (List Char) (List Char × List Char)
  | [] => .error []
  | '\n' :: cs => .error ('\n' :: cs)
  | '\\' :: c :: cs => do
    let (inner, rest) ← delimited mark cs
    .ok (if c = mark && c != '&' then c :: inner else '\\' :: c :: inner, rest)
  | c :: cs =>
    if c = mark then .ok ([], cs)
    else do
      let (inner, rest) ← delimited mark cs
      .ok (c :: inner, rest)

def delimitedExpression (mark : Char) : Bool → List Char →
    Except (List Char) (List Char × List Char)
  | _, [] => .error []
  | _, '\n' :: cs => .error ('\n' :: cs)
  | false, '\\' :: c :: cs => do
    let (inner, rest) ← delimitedExpression mark false cs
    .ok (if c = mark then c :: inner else '\\' :: c :: inner, rest)
  | inside, c :: cs =>
    if c = mark && !inside then .ok ([], cs)
    else do
      let (inner, rest) ← delimitedExpression mark (if inside then c != ']' else c == '[') cs
      .ok (c :: inner, rest)

def resolved : Nat → List Char → List Char
  | 0, cs => cs
  | _, [] => []
  | fuel + 1, '\\' :: cs =>
    match specialCharacter? cs, cs with
    | some (c, rest), _ => c :: resolved fuel rest
    | none, c :: rest => '\\' :: c :: resolved fuel rest
    | none, [] => ['\\']
  | fuel + 1, c :: cs => c :: resolved fuel cs

def compile (extended : Bool) (cs rest : List Char) : Except Misread (Option Regex) :=
  if cs.isEmpty then .ok none
  else
    match Regex.parse extended (String.ofList (resolved cs.length cs)) with
    | .ok r => .ok (some r)
    | .error f => .error (.expression f, rest)

def skipBlanks (cs : List Char) : List Char := cs.dropWhile isBlank

def skipSeparators (cs : List Char) : List Char :=
  cs.dropWhile fun c => isBlank c || c = '\n' || c = ';'

def number (cs : List Char) : Nat × List Char :=
  (Text.digitsValue (cs.takeWhile Char.isDigit), cs.dropWhile Char.isDigit)

def address? (extended : Bool) (cs : List Char) : Except Misread (Option Address × List Char) := do
  let pattern (mark : Char) (rest : List Char) : Except Misread (Option Address × List Char) := do
    match delimitedExpression mark false rest with
    | .error rest => .error (.unterminatedAddress, rest)
    | .ok (inner, rest) => do
      let r ← compile extended inner rest
      match rest with
      | 'I' :: rest => .ok (some (.pattern r true), rest)
      | rest => .ok (some (.pattern r false), rest)
  match cs with
  | '$' :: rest => .ok (some .last, rest)
  | '/' :: rest => pattern '/' rest
  | '\\' :: mark :: rest => pattern mark rest
  | c :: _ =>
    if c.isDigit then
      let (n, rest) := number cs
      match rest with
      | '~' :: more =>
        let (step, rest) := number more
        .ok (some (.every n step), rest)
      | rest => .ok (some (.line n), rest)
    else .ok (none, cs)
  | [] => .ok (none, [])

def scope (extended : Bool) (cs : List Char) : Except Misread (Scope × List Char) := do
  let (first, rest) ← address? extended cs
  let rest := skipBlanks rest
  let (last, rest) ←
    match first, rest with
    | some _, ',' :: more => do
      let more := skipBlanks more
      match more with
      | '+' :: digits =>
        let (n, rest) := number digits
        .ok (some (.plus n), rest)
      | '~' :: digits =>
        let (n, rest) := number digits
        .ok (some (.multiple n), rest)
      | more => do
        let (a, rest) ← address? extended more
        match a with
        | some a => .ok (some (.address a), rest)
        | none => .error (.unexpectedComma, rest.tail)
    | _, rest => .ok (none, rest)
  let rest := skipBlanks rest
  let startsAtZero : Bool :=
    match first, last with
    | some (.line 0), some (.address (.pattern _ _)) => false
    | some (.line 0), _ => true
    | _, _ => false
  if startsAtZero then .error (.zeroAddress, rest.tail)
  else
    match rest with
    | '!' :: rest =>
      match skipBlanks rest with
      | '!' :: rest => .error (.repeatedNegation, rest)
      | rest => .ok (⟨first, last, true⟩, rest)
    | rest => .ok (⟨first, last, false⟩, rest)

def replacement : Nat → List Char → List Piece
  | 0, _ => []
  | _, [] => []
  | fuel + 1, '\\' :: c :: cs =>
    match specialCharacter? (c :: cs) with
    | some (x, rest) => .text [x] :: replacement fuel rest
    | none =>
      let piece :=
        match c with
        | 'U' => .upper
        | 'L' => .lower
        | 'u' => .upperNext
        | 'l' => .lowerNext
        | 'E' => .plain
        | c => if c.isDigit then .group (Text.digitValue c) else .text [c]
      piece :: replacement fuel cs
  | fuel + 1, '&' :: cs => .group 0 :: replacement fuel cs
  | fuel + 1, c :: cs => .text [c] :: replacement fuel cs

def fileArgument (cs : List Char) : Except Misread (String × List Char) :=
  let cs := skipBlanks cs
  let name := cs.takeWhile (· ≠ '\n')
  let rest := cs.dropWhile (· ≠ '\n')
  if name.isEmpty then .error (.missingFile, rest) else .ok (String.ofList name, rest)

def flags : Nat → Substitution → List Char → Except Misread (Substitution × List Char)
  | 0, s, cs => .ok (s, cs)
  | fuel + 1, s, cs =>
    match cs with
    | 'g' :: rest =>
      if s.all then .error (.repeatedOption 'g', rest)
      else flags fuel { s with all := true } rest
    | 'p' :: rest =>
      if s.prints then .error (.repeatedOption 'p', rest)
      else flags fuel { s with prints := true } rest
    | 'i' :: rest => flags fuel { s with folds := true } rest
    | 'I' :: rest => flags fuel { s with folds := true } rest
    | 'm' :: rest => flags fuel s rest
    | 'M' :: rest => flags fuel s rest
    | 'w' :: rest => do
      let (name, rest) ← fileArgument rest
      .ok ({ s with file := some name }, rest)
    | c :: rest =>
      if c.isDigit then
        if s.occurrence ≠ 0 then .error (.repeatedNumber, rest)
        else
          let (n, rest) := number cs
          if n = 0 then .error (.zeroNumber, rest)
          else flags fuel { s with occurrence := n } rest
      else if isBlank c then flags fuel s rest
      else if c = '\n' || c = ';' || c = '\x7d' || c = '#' then .ok (s, cs)
      else .error (.badOption, rest)
    | [] => .ok (s, [])

def groupsIn (extended : Bool) : List Char → Nat
  | '\\' :: c :: cs => (if c = '(' && !extended then 1 else 0) + groupsIn extended cs
  | c :: cs => (if c = '(' && extended then 1 else 0) + groupsIn extended cs
  | [] => 0

def substitution (extended : Bool) (cs : List Char) : Except Misread (Action × List Char) := do
  let unterminated (rest : List Char) : Misread := (.unterminatedSubstitution, rest)
  match cs with
  | [] => .error (unterminated [])
  | mark :: rest =>
    let (expression, rest) ← (delimitedExpression mark false rest).mapError unterminated
    let (new, rest) ← (delimited mark rest).mapError unterminated
    let pieces := replacement (new.length + 1) new
    let (s, rest) ← flags (rest.length + 1) ⟨none, false, pieces, false, 0, false, none⟩ rest
    let r ← compile extended expression rest
    let known := groupsIn extended expression
    let wrong := pieces.findSome? fun p =>
      match p with
      | .group n => if known < n && !expression.isEmpty then some n else none
      | _ => none
    match wrong with
    | some n => .error (.badReference n, rest)
    | none => .ok (.substitute { s with expression := r, occurrence := max s.occurrence 1 }, rest)

def listed : Nat → List Char → List Char
  | 0, _ => []
  | _, [] => []
  | fuel + 1, '\\' :: '\\' :: cs => '\\' :: listed fuel cs
  | fuel + 1, '\\' :: cs =>
    match specialCharacter? cs with
    | some (c, rest) => c :: listed fuel rest
    | none => '\\' :: listed fuel cs
  | fuel + 1, c :: cs => c :: listed fuel cs

def transliteration (cs : List Char) : Except Misread (Action × List Char) := do
  let unterminated (rest : List Char) : Misread := (.unterminatedTransliteration, rest)
  match cs with
  | [] => .error (unterminated [])
  | mark :: rest =>
    let (old, rest) ← (delimited mark rest).mapError unterminated
    let (new, rest) ← (delimited mark rest).mapError unterminated
    let old := listed (old.length + 1) old
    let new := listed (new.length + 1) new
    if old.length = new.length then .ok (.transliterate (old.zip new), rest)
    else .error (.lengthsDiffer, rest)

def textLines : Nat → List Char → List Char × List Char
  | 0, cs => ([], cs)
  | _, [] => ([], [])
  | fuel + 1, '\\' :: c :: cs =>
    let (x, rest) := (specialCharacter? (c :: cs)).getD (c, cs)
    let (text, rest) := textLines fuel rest
    (x :: text, rest)
  | _, '\n' :: cs => ([], cs)
  | fuel + 1, c :: cs =>
    let (text, rest) := textLines fuel cs
    (c :: text, rest)

def textArgument (cs : List Char) : Except Misread (String × List Char) :=
  let lines (cs : List Char) : Except Misread (String × List Char) :=
    let (text, rest) := textLines (cs.length + 1) cs
    .ok (String.ofList text ++ "\n", rest)
  match skipBlanks cs with
  | [] => .error (.expectedText, [])
  | ['\\'] => .ok ("", [])
  | '\\' :: rest =>
    match skipBlanks rest with
    | '\n' :: rest => lines rest
    | _ => lines rest
  | rest => lines rest

def nameArgument (cs : List Char) : String × List Char :=
  let cs := skipBlanks cs
  let ends (c : Char) : Bool := isBlank c || c = '\n' || c = ';' || c = '\x7d'
  (String.ofList (cs.takeWhile fun c => !ends c), cs.dropWhile fun c => !ends c)

def ended (a : Action) (cs : List Char) : Except Misread (Action × List Char) :=
  match skipBlanks cs with
  | [] => .ok (a, [])
  | '\n' :: rest => .ok (a, rest)
  | ';' :: rest => .ok (a, rest)
  | '\x7d' :: rest => .ok (a, '\x7d' :: rest)
  | '#' :: rest => .ok (a, '#' :: rest)
  | rest => .error (.extraCharacters, rest.tail)

def action (extended : Bool) (cs : List Char) : Except Misread (Action × List Char) := do
  match cs with
  | [] => .error (.missingCommand, [])
  | c :: rest =>
    let counted (default : Nat) (f : Nat → Action) : Except Misread (Action × List Char) :=
      let start := skipBlanks rest
      let (n, rest) := number start
      ended (f (if (start.takeWhile Char.isDigit).isEmpty then default else n)) rest
    let text (f : String → Action) : Except Misread (Action × List Char) := do
      let (s, rest) ← textArgument rest
      .ok (f s, rest)
    let name (f : String → Action) : Except Misread (Action × List Char) :=
      let (s, rest) := nameArgument rest
      .ok (f s, rest)
    let file (f : String → Action) : Except Misread (Action × List Char) := do
      let (s, rest) ← fileArgument rest
      .ok (f s, rest)
    match c with
    | '\x7b' => .ok (.open_, rest)
    | '\x7d' => ended .close rest
    | '=' => ended .number rest
    | 'a' => text .append
    | 'i' => text .insert
    | 'c' => text .change
    | ':' =>
      let (s, rest) := nameArgument rest
      if s.isEmpty then .error (.missingName, rest) else .ok (.label s, rest)
    | 'b' => name .branch
    | 't' => name .branchIf
    | 'T' => name .branchUnless
    | 'd' => ended .delete rest
    | 'D' => ended .deleteFirst rest
    | 'g' => ended .getHeld rest
    | 'G' => ended .appendHeld rest
    | 'h' => ended .hold rest
    | 'H' => ended .appendToHeld rest
    | 'x' => ended .exchange rest
    | 'n' => ended .next rest
    | 'N' => ended .appendNext rest
    | 'p' => ended .print rest
    | 'P' => ended .printFirst rest
    | 'l' => counted 70 .printEscaped
    | 'z' => ended .clear rest
    | 'q' => counted 0 .quit
    | 'Q' => counted 0 .quitSilent
    | 'r' => file .readFile
    | 'w' => file .writeFile
    | 's' => do
      let (a, rest) ← substitution extended rest
      ended a rest
    | 'y' => do
      let (a, rest) ← transliteration rest
      ended a rest
    | c => .error (.unknownCommand c, rest)

/-- What is wrong with a command in its place, so deep in blocks and with these lines. -/
def misplaced? (depth : Nat) (s : Scope) (command : Char) : Option Fault :=
  if command = '\x7d' then
    if depth = 0 then some .unmatchedClose
    else if s.first.isSome then some (.noAddress "\x60\x7d'")
    else none
  else if command = ':' && s.first.isSome then some (.noAddress ":")
  else if command = '#' then some .commentAddress
  else if (command = 'q' || command = 'Q') && s.last.isSome then some .oneAddress
  else none

def instructions (extended : Bool) : Nat → Nat → List Char → Except Misread (List Instruction)
  | 0, _, _ => .ok []
  | fuel + 1, depth, cs =>
    match skipSeparators cs with
    | [] => if depth = 0 then .ok [] else .error (.unmatchedOpen, [])
    | '#' :: rest => instructions extended fuel depth (rest.dropWhile (· ≠ '\n'))
    | cs => do
      let (s, rest) ← scope extended cs
      match rest.head?.bind (misplaced? depth s) with
      | some f => .error (f, rest.tail)
      | none => do
        let (a, rest) ← action extended rest
        let depth :=
          match a with
          | .open_ => depth + 1
          | .close => depth - 1
          | _ => depth
        let more ← instructions extended fuel depth rest
        .ok (⟨s, a⟩ :: more)

def labelsOf (is : List Instruction) : List String :=
  is.filterMap fun i =>
    match i.action with
    | .label name => some name
    | _ => none

def missingLabel? (is : List Instruction) : Option String :=
  let labels := labelsOf is
  is.findSome? fun i =>
    let check (name : String) : Option String :=
      if name.isEmpty || labels.contains name then none else some name
    match i.action with
    | .branch name => check name
    | .branchIf name => check name
    | .branchUnless name => check name
    | _ => none

/-- A part of a script: the file that holds it, if there is one, and its text. -/
structure Fragment where
  file : Option String
  text : String

/-- The place in a script behind so many characters. The parts that are no files are counted. -/
def placeIn (read : Nat) : Nat → List Fragment → String
  | _, [] => ""
  | k, p :: ps =>
    if read ≤ p.text.length || ps.isEmpty then
      match p.file with
      | none => "-e expression #" ++ Text.decimal k ++ ", char " ++ Text.decimal read
      | some name =>
        let line := ((p.text.toList.take read).filter (· == '\n')).length + 1
        "file " ++ name ++ " line " ++ Text.decimal line
    else placeIn (read - p.text.length - 1) (if p.file.isNone then k + 1 else k) ps

def parse (extended : Bool) (parts : List Fragment) : Except (Nat × String) (List Instruction) :=
  let cs := ("\n".intercalate (parts.map Fragment.text)).toList
  match instructions extended (cs.length + 1) 0 cs with
  | .error (f, rest) =>
    let read :=
      match f with
      | .unmatchedOpen => 0
      | _ => cs.length - rest.length
    .error (1, placeIn read 1 parts ++ ": " ++ f.message)
  | .ok is =>
    match missingLabel? is with
    | some name => .error (4, "can't find label for jump to \x60" ++ name ++ "'")
    | none => .ok is

/-! ### Running scripts -/

structure Output where
  printed : List String
  open_ : Bool

namespace Output

def empty : Output := ⟨[], false⟩

def write (o : Output) (text : String) : Output :=
  ⟨text :: (if o.open_ then "\n" :: o.printed else o.printed), false⟩

def writeLine (o : Output) (separator : Char) (ended : Bool) (cs : List Char) : Output :=
  if ended then o.write (String.ofList (cs ++ [separator]))
  else { o.write (String.ofList cs) with open_ := true }

def close (o : Output) : Output := if o.open_ then o.write "" else o

def text (o : Output) : String := String.join o.printed.reverse

end Output

/-- A script on its way through a text. A line may lack its end, and so may what is kept of it. -/
structure State where
  pattern : List Char
  ended : Bool
  held : List Char
  heldEnded : Bool
  lines : List (List Char)
  lineNumber : Nat
  lastEnded : Bool
  separator : Char
  queue : List String
  ranges : List (Nat × Option Nat)
  replaced : Bool
  used : Option (Regex × Bool)
  output : Output
  files : List (String × Output)

abbrev Editing := StateM State

inductive Outcome where
  | done
  | dropped
  | restarted
  | ended (status : Nat) (prints : Bool)

def isLast : Editing Bool := do
  let s ← get
  return s.lines.isEmpty

def emit (text : String) : Editing Unit := modify fun s => { s with output := s.output.write text }

def emitLine (cs : List Char) : Editing Unit :=
  modify fun s => { s with output := s.output.writeLine s.separator s.ended cs }

def flushQueue : Editing Unit :=
  modify fun s => { s with output := s.queue.foldl Output.write s.output, queue := [] }

def expressionOf (r : Option Regex) (folds : Bool) : Editing (Option (Regex × Bool)) := do
  match r with
  | some r =>
    modify fun s => { s with used := some (r, folds) }
    return some (r, folds)
  | none =>
    let s ← get
    return s.used

def addressHolds (a : Address) : Editing Bool := do
  let s ← get
  match a with
  | .line n => return s.lineNumber = n
  | .last => isLast
  | .every first step =>
    return if step = 0 then s.lineNumber = first
      else first ≤ s.lineNumber && (s.lineNumber - first) % step = 0
  | .pattern r folds =>
    let r ← expressionOf r folds
    match r with
    | some (r, folds) => return (r.find? folds s.pattern).isSome
    | none => return false

/-- The line at which a range that starts here ends; none if that is not known yet. -/
def rangeEnd (n : Nat) : RangeEnd → Option Nat
  | .plus k => some (n + k)
  | .multiple k => some (if k = 0 then n else (n + k - 1) / k * k)
  | .address (.line k) => some k
  | .address _ => none

/-- Whether a command with a range is run for this line; the range is known by its number. -/
def rangeHolds (index : Nat) (first : Address) (last : RangeEnd) : Editing Bool := do
  let s ← get
  let others := s.ranges.filter fun r => r.1 != index
  match s.ranges.find? fun r => r.1 == index with
  | some (_, some stop) =>
    if s.lineNumber < stop then return true
    else
      set { s with ranges := others }
      if s.lineNumber = stop then return true else addressHolds first
  | some (_, none) =>
    match last with
    | .address a =>
      let ended ← addressHolds a
      if ended then modify fun s => { s with ranges := others }
      return true
    | _ => return true
  | none =>
    let startsAtZero : Bool :=
      match first with
      | .line 0 => s.lineNumber = 1
      | _ => false
    let starts ← if startsAtZero then pure true else addressHolds first
    if starts then
      match rangeEnd s.lineNumber last with
      | some stop =>
        if s.lineNumber < stop then
          modify fun s => { s with ranges := (index, some stop) :: others }
      | none =>
        let ended ←
          match startsAtZero, last with
          | true, .address a => addressHolds a
          | false, .address .last => isLast
          | _, _ => pure false
        if ended then pure ()
        else modify fun s => { s with ranges := (index, none) :: others }
      return true
    else return false

def scopeHolds (index : Nat) (sc : Scope) : Editing Bool := do
  let holds ←
    match sc.first, sc.last with
    | none, _ => pure true
    | some a, none => addressHolds a
    | some a, some b => rangeHolds index a b
  return holds != sc.negated

structure Casing where
  all : Option Bool
  once : Option Bool

def cased (k : Casing) : List Char → List Char × Casing
  | [] => ([], k)
  | c :: cs =>
    let turn (up : Bool) (c : Char) : Char := if up then c.toUpper else c.toLower
    let inAll (c : Char) : Char :=
      match k.all with
      | some up => turn up c
      | none => c
    let first :=
      match k.once with
      | some up => turn up c
      | none => inAll c
    (first :: cs.map inAll, ⟨k.all, none⟩)

def replacementText (m : Regex.Match) : Casing → List Piece → List Char
  | _, [] => []
  | k, p :: ps =>
    match p with
    | .text cs =>
      let (out, k) := cased k cs
      out ++ replacementText m k ps
    | .group n =>
      let (out, k) := cased k (m.groupText n)
      out ++ replacementText m k ps
    | .upper => replacementText m ⟨some true, none⟩ ps
    | .lower => replacementText m ⟨some false, none⟩ ps
    | .plain => replacementText m ⟨none, none⟩ ps
    | .upperNext => replacementText m ⟨k.all, some true⟩ ps
    | .lowerNext => replacementText m ⟨k.all, some false⟩ ps

def replaceFrom (r : Regex) (folds : Bool) (s : Substitution) :
    Nat → Nat → Bool → List Char → List Char → List Char × Bool
  | 0, _, _, _, rest => (rest, false)
  | fuel + 1, k, justMatched, before, rest =>
    match Regex.findFrom folds r (fun _ => true) before rest with
    | none => (rest, false)
    | some m =>
      let skipped := rest.take (m.start - before.length)
      let isEmpty := m.spot.place = m.start
      let refused := isEmpty && justMatched && skipped.isEmpty
      let counts := !refused
      let chosen := counts && (k = s.occurrence || (s.all && s.occurrence ≤ k))
      let new := if chosen then replacementText m ⟨none, none⟩ s.replacement else m.text
      let k := if counts then k + 1 else k
      if chosen && !s.all then (skipped ++ new ++ m.spot.rest, true)
      else if isEmpty then
        match m.spot.rest with
        | [] => (skipped ++ new, chosen)
        | c :: more =>
          let (out, done) := replaceFrom r folds s fuel k false (c :: m.spot.before) more
          (skipped ++ new ++ c :: out, chosen || done)
      else
        let (out, done) := replaceFrom r folds s fuel k true m.spot.before m.spot.rest
        (skipped ++ new ++ out, chosen || done)

def writeLine (name : String) (cs : List Char) : Editing Unit :=
  if name = "/dev/stdout" then emitLine cs
  else
    modify fun s =>
      { s with files := s.files.map fun f =>
          if f.1 = name then (name, f.2.writeLine s.separator s.ended cs) else f }

def escapedCharacter (c : Char) : List Char :=
  match c with
  | '\\' => ['\\', '\\']
  | '\x07' => ['\\', 'a']
  | '\x08' => ['\\', 'b']
  | '\x0c' => ['\\', 'f']
  | '\n' => ['\\', 'n']
  | '\r' => ['\\', 'r']
  | '\t' => ['\\', 't']
  | '\x0b' => ['\\', 'v']
  | c =>
    if c.toNat < 32 || 126 < c.toNat then
      let digits := Nat.toDigits 8 c.toNat
      '\\' :: List.replicate (3 - digits.length) '0' ++ digits
    else [c]

def escapedLines (width : Nat) : Nat → List Char → List Char
  | _, [] => ['$', '\n']
  | column, c :: cs =>
    let piece := escapedCharacter c
    if width ≠ 0 && width ≤ column + piece.length then
      '\\' :: '\n' :: piece ++ escapedLines width piece.length cs
    else piece ++ escapedLines width (column + piece.length) cs

def substitute (s : Substitution) : Editing Unit := do
  let st ← get
  let r ← expressionOf s.expression s.folds
  match r with
  | none => pure ()
  | some (r, folds) =>
    let (text, done) :=
      replaceFrom r (folds || s.folds) s (st.pattern.length + 2) 1 false [] st.pattern
    if done then
      modify fun t => { t with pattern := text, replaced := true }
      if s.prints then emitLine text
      match s.file with
      | some name => writeLine name text
      | none => pure ()

def takeLine : Editing Unit :=
  modify fun s =>
    match s.lines with
    | [] => s
    | line :: rest =>
      { s with
        pattern := line, ended := !rest.isEmpty || s.lastEnded, lines := rest,
        lineNumber := s.lineNumber + 1 }

/-- What a command does to the way of the script: it goes on, jumps, or ends the cycle. -/
inductive Step where
  | goOn
  | jump (label : String)
  | finish (o : Outcome)

def perform (quiet : Bool) (read : String → String) : Action → Editing Step
  | .open_ => return .goOn
  | .close => return .goOn
  | .label _ => return .goOn
  | .number => do
    let s ← get
    emit (Text.decimal s.lineNumber ++ "\n")
    return .goOn
  | .append text => do
    modify fun s => { s with queue := s.queue ++ [text] }
    return .goOn
  | .insert text => do
    emit text
    return .goOn
  | .change text => do
    emit text
    return .finish .dropped
  | .branch name => return .jump name
  | .branchIf name => do
    let s ← get
    set { s with replaced := false }
    return if s.replaced then .jump name else .goOn
  | .branchUnless name => do
    let s ← get
    set { s with replaced := false }
    return if s.replaced then .goOn else .jump name
  | .delete => return .finish .dropped
  | .deleteFirst => do
    let s ← get
    match s.pattern.dropWhile (· ≠ s.separator) with
    | _ :: rest =>
      set { s with pattern := rest }
      return .finish .restarted
    | [] => return .finish .dropped
  | .getHeld => do
    modify fun s => { s with pattern := s.held, ended := s.heldEnded }
    return .goOn
  | .appendHeld => do
    modify fun s =>
      { s with pattern := s.pattern ++ s.separator :: s.held, ended := s.heldEnded }
    return .goOn
  | .hold => do
    modify fun s => { s with held := s.pattern, heldEnded := s.ended }
    return .goOn
  | .appendToHeld => do
    modify fun s =>
      { s with held := s.held ++ s.separator :: s.pattern, heldEnded := s.ended }
    return .goOn
  | .exchange => do
    modify fun s =>
      { s with
        pattern := s.held, ended := s.heldEnded, held := s.pattern, heldEnded := s.ended }
    return .goOn
  | .next => do
    let s ← get
    if s.lines.isEmpty then return .finish (.ended 0 true)
    else
      if quiet then pure () else emitLine s.pattern
      flushQueue
      takeLine
      return .goOn
  | .appendNext => do
    let s ← get
    if s.lines.isEmpty then return .finish (.ended 0 true)
    else
      flushQueue
      takeLine
      modify fun t => { t with pattern := s.pattern ++ s.separator :: t.pattern }
      return .goOn
  | .print => do
    let s ← get
    emitLine s.pattern
    return .goOn
  | .printFirst => do
    let s ← get
    if s.pattern.contains s.separator then
      emit (String.ofList (s.pattern.takeWhile (· ≠ s.separator) ++ [s.separator]))
    else emitLine s.pattern
    return .goOn
  | .printEscaped width => do
    let s ← get
    emit (String.ofList (escapedLines (if width = 1 then 2 else width) 1 s.pattern))
    return .goOn
  | .clear => do
    modify fun s => { s with pattern := [] }
    return .goOn
  | .quit n => do
    let s ← get
    if quiet then pure () else emitLine s.pattern
    flushQueue
    modify fun s => { s with output := s.output.close }
    return .finish (.ended n false)
  | .quitSilent n => return .finish (.ended n false)
  | .readFile name => do
    modify fun s => { s with queue := s.queue ++ [read name] }
    return .goOn
  | .writeFile name => do
    let s ← get
    writeLine name s.pattern
    return .goOn
  | .substitute s => do
    substitute s
    return .goOn
  | .transliterate pairs => do
    let change (c : Char) : Char := ((pairs.find? fun p => p.1 == c).map fun p => p.2).getD c
    modify fun s => { s with pattern := s.pattern.map change }
    return .goOn

def behindBlock : Nat → List (Instruction × Nat) → List (Instruction × Nat)
  | _, [] => []
  | depth, i :: is =>
    match i.1.action with
    | .open_ => behindBlock (depth + 1) is
    | .close => if depth ≤ 1 then is else behindBlock (depth - 1) is
    | _ => behindBlock depth is

def behindLabel (name : String) (program : List (Instruction × Nat)) : List (Instruction × Nat) :=
  if name.isEmpty then []
  else
    (program.dropWhile fun i =>
      match i.1.action with
      | .label x => x != name
      | _ => true).tail

def stepLimit : Nat := 100000

def cycle (quiet : Bool) (read : String → String) (program : List (Instruction × Nat)) :
    Nat → List (Instruction × Nat) → Editing Outcome
  | 0, _ => return .ended 1 false
  | _, [] => return .done
  | fuel + 1, (i, index) :: is => do
    let holds ← scopeHolds index i.scope
    if holds then
      let s ← get
      let inRange := i.scope.last.isSome && !i.scope.negated && s.ranges.any fun r => r.1 == index
      let step ←
        match i.action, inRange with
        | .change _, true => pure (.finish .dropped)
        | a, _ => perform quiet read a
      match step with
      | .goOn => cycle quiet read program fuel is
      | .jump name => cycle quiet read program fuel (behindLabel name program)
      | .finish o => return o
    else
      match i.action with
      | .open_ => cycle quiet read program fuel (behindBlock 1 is)
      | _ => cycle quiet read program fuel is

def cycles (quiet : Bool) (read : String → String) (program : List (Instruction × Nat)) :
    Nat → Bool → Editing Nat
  | 0, _ => return 1
  | fuel + 1, fresh => do
    let s ← get
    if fresh && s.lines.isEmpty then return 0
    else
      if fresh then takeLine
      modify fun s => { s with replaced := false }
      let o ← cycle quiet read program stepLimit program
      let s ← get
      match o with
      | .done =>
        if quiet then pure () else emitLine s.pattern
        flushQueue
        cycles quiet read program fuel true
      | .dropped =>
        flushQueue
        cycles quiet read program fuel true
      | .restarted =>
        flushQueue
        cycles quiet read program fuel false
      | .ended status prints =>
        if prints && !quiet then emitLine s.pattern
        flushQueue
        return status

def filesOf (is : List Instruction) : List String :=
  let names := is.filterMap fun i =>
    match i.action with
    | .writeFile name => some name
    | .substitute s => s.file
    | _ => none
  names.filter fun name => name != "/dev/stdout" && name != "/dev/stderr"

def piecesOf (separator : Char) (cs : List Char) : List (List Char) :=
  let (first, rest) :=
    cs.foldr
      (fun c (piece, rest) => if c = separator then ([], piece :: rest) else (c :: piece, rest))
      ([], [])
  let all := first :: rest
  if all.getLast? = some [] then all.dropLast else all

/-- Runs a script on a text: the status, what is printed and the files that are written. -/
def run (quiet : Bool) (separator : Char) (read : String → String) (is : List Instruction)
    (text : String) : Nat × String × List (String × String) :=
  let lines := piecesOf separator text.toList
  let ended := text.toList.getLast? == some separator
  let files := (filesOf is).map fun name => (name, Output.empty)
  let start : State :=
    ⟨[], true, [], true, lines, 0, ended, separator, [], [], false, none, .empty, files⟩
  let (status, s) := cycles quiet read is.zipIdx (text.length + lines.length + 2) true start
  (status, s.output.text, s.files.map fun f => (f.1, f.2.text))

end Edit

/-! ### The tool -/

def sedOptions : Options :=
  (Options.flags "nErsuzNF"
    [("quiet", 'n'), ("silent", 'n'), ("regexp-extended", 'E'), ("expression", 'e'), ("file", 'f'),
      ("in-place", 'i'), ("separate", 's'), ("null-data", 'z'), ("posix", 'N'),
      ("follow-symlinks", 'F')]).withValues "ef"

def splitInPlace (arguments : List String) : Option String × List String :=
  let inPlace? (a : String) : Option (String × Option String) :=
    match a.toList with
    | '-' :: '-' :: _ =>
      if a = "--in-place" then some ("", none)
      else if "--in-place=".toList.isPrefixOf a.toList then
        some (String.ofList (a.toList.drop 11), none)
      else none
    | '-' :: cs =>
      let flags := cs.takeWhile fun c => "nErsuz".toList.contains c
      match cs.drop flags.length with
      | 'i' :: suffix =>
        some (String.ofList suffix,
          if flags.isEmpty then none else some (String.ofList ('-' :: flags)))
      | _ => none
    | _ => none
  arguments.foldl
    (fun (suffix, rest) a =>
      match inPlace? a with
      | some (s, some flags) => (some s, rest ++ [flags])
      | some (s, none) => (some s, rest)
      | none => (suffix, rest ++ [a]))
    (none, [])

def sedUsage (c : Call) : String :=
  "Usage: " ++ c.name ++ " [OPTION]... \x7bscript-only-if-no-other-script\x7d [input-file]...\n"

def writeFiles (c : Call) : List (String × String) → Work (Option String)
  | [] => return none
  | f :: fs => do
    let t ← getTree
    match writeOctets c t (c.locate f.1) f.2 with
    | .ok t => do
      setTree t
      writeFiles c fs
    | .error e => return some ("couldn't open file " ++ f.1 ++ ": " ++ e.reason)

/-- Puts a new file in the place of an old one, which is kept under another path if that differs. A
link is replaced itself, unless it is followed. -/
def replaceFile (follows : Bool) (t : FileTree) (p kept : Path) (out : String) :
    Except FileError FileTree := do
  let (place, _) ← if follows then t.find p else t.findNamed p
  let (_, e) ← t.find p
  let other ← if kept = p then .ok place else t.newPlace kept
  let rights : Rights :=
    match e with
    | .file _ r => r
    | _ => .plain
  let t := if other = place then t else t.move place other
  .ok (t.put place (.file (Octets.toContent out) rights))

/-- Runs a script on each file and puts the result in its place, up to one that is no file. -/
def editInPlace (c : Call) (quiet follows : Bool) (separator : Char) (suffix : String)
    (is : List Edit.Instruction) : List String → Work Nat
  | [] => return 0
  | name :: names => do
    let t ← getTree
    match readOctets t (c.locate name) with
    | .error .isADirectory => failWith c 4 ("couldn't edit " ++ name ++ ": not a regular file")
    | .error e => do
      complain c ("can't read " ++ name ++ ": " ++ e.reason)
      let status ← editInPlace c quiet follows separator suffix is names
      return max status 2
    | .ok text => do
      let read (f : String) : String := (readOctets t (c.locate f)).toOption.getD ""
      let (status, out, files) := Edit.run quiet separator read is text
      let replaced := replaceFile follows t (c.locate name) (c.locate (name ++ suffix)) out
      setTree (replaced.toOption.getD t)
      let _ ← writeFiles c files
      if status = 0 then editInPlace c quiet follows separator suffix is names else return status

def joinFiles (separator : Char) : List String → String
  | [] => ""
  | [t] => t
  | t :: ts =>
    let rest := joinFiles separator ts
    if t.isEmpty || t.toList.getLast? == some separator || rest.isEmpty then t ++ rest
    else t.push separator ++ rest

/-- The texts of files up to one that cannot be read at all, and the status for what is missing. -/
def readInputs (c : Call) : List String → Work (List String × Nat)
  | [] => return ([], 0)
  | name :: names => do
    let text ← readOperand c name
    match text with
    | .ok text => do
      let (more, status) ← readInputs c names
      return (text :: more, status)
    | .error .isADirectory => do
      complain c ("read error on " ++ name ++ ": Is a directory")
      return ([], 4)
    | .error e => do
      complain c ("can't read " ++ name ++ ": " ++ e.reason)
      let (more, status) ← readInputs c names
      return (more, max status 2)

def sed : Tool := fun c =>
  let (inPlace, arguments) := splitInPlace c.arguments
  match sedOptions.sort true arguments with
  | .error e => do
    say .errors (c.name ++ ": " ++ e.message ++ "\n" ++ sedUsage c)
    return 1
  | .ok (given, operands) => do
    let parts ← (given.filter fun x => x.1 == 'e' || x.1 == 'f').mapM fun (letter, value) => do
      if letter = 'e' then return Except.ok (Edit.Fragment.mk none value)
      else
        let text ← readOperand c value
        return match text with
          | .ok text => Except.ok (Edit.Fragment.mk (some value) text)
          | .error e => Except.error ("couldn't open file " ++ value ++ ": " ++ e.reason)
    let (parts, names) :=
      match parts, operands with
      | [], s :: names => ([Except.ok (Edit.Fragment.mk none s)], names)
      | parts, names => (parts, names)
    match parts.mapM id with
    | .error message => failWith c 4 message
    | .ok [] => do
      say .errors (sedUsage c)
      return 1
    | .ok parts =>
      let commented : Bool :=
        match parts.head?.map fun p => p.text.toList with
        | some ('#' :: 'n' :: '\n' :: _) => true
        | some ['#', 'n'] => true
        | _ => false
      match Edit.parse (has given 'E' || has given 'r') parts with
      | .error (status, message) => failWith c status message
      | .ok is =>
        let quiet := has given 'n' || commented
        let separator := if has given 'z' then '\x00' else '\n'
        let fault ← writeFiles c ((Edit.filesOf is).map fun name => (name, ""))
        match fault, inPlace with
        | some message, _ => failWith c 4 message
        | none, some suffix => editInPlace c quiet (has given 'F') separator suffix is names
        | none, none =>
          let (texts, status) ← readInputs c (if names.isEmpty then ["-"] else names)
          let t ← getTree
          let read (f : String) : String := (readOctets t (c.locate f)).toOption.getD ""
          let (quitStatus, out, files) :=
            Edit.run quiet separator read is (joinFiles separator texts)
          print out
          let _ ← writeFiles c files
          return if quitStatus = 0 then status else quitStatus

end NativeUi.Shell.Tool
