import NativeUi.Shell.Octets
import NativeUi.Text.Lines

/-!
# Tools

A tool is a program that works on a file tree: it reads its input, prints, changes the tree and ends
with a status. All its texts are octets. The tree is that of a whole machine, so that a path may
start at the root as well as at the directory in which the tool is called.
-/
namespace NativeUi.Shell

inductive Stream where
  | output
  | errors
deriving DecidableEq

/-- What a running tool sees and changes. What has been printed is kept, the last piece first. -/
structure Scene where
  tree : FileTree
  input : String
  printed : List (Stream × String)

structure Call where
  name : String
  dir : String
  arguments : List String
  environment : List (String × String)
  mask : Rights
  fromFile : Bool

abbrev Work := StateM Scene

abbrev Tool := Call → Work Nat

def rooted (text : String) : Path := ⟨Octets.toText text⟩

def locateFrom (dir name : String) : Path :=
  match name.toList with
  | [] => ⟨""⟩
  | '/' :: _ => rooted name
  | _ => rooted (dir ++ "/" ++ name)

namespace Call

def locate (c : Call) (name : String) : Path := locateFrom c.dir name

def setting? (c : Call) (name : String) : Option String :=
  (c.environment.find? fun x => x.1 == name).map fun x => x.2

def newRights (c : Call) (r : Rights) : Rights := r.without c.mask

end Call

namespace Tool

def say (stream : Stream) (text : String) : Work Unit :=
  modify fun s => { s with printed := (stream, text) :: s.printed }

def print (text : String) : Work Unit := say .output text

def printLine (text : String) : Work Unit := say .output (text ++ "\n")

def complain (c : Call) (message : String) : Work Unit :=
  say .errors (c.name ++ ": " ++ message ++ "\n")

def failWith (c : Call) (status : Nat) (message : String) : Work Nat := do
  complain c message
  return status

def hint (c : Call) : String := "\nTry '" ++ c.name ++ " --help' for more information."

def misuse (c : Call) (status : Nat) (message : String) : Work Nat :=
  failWith c status (message ++ hint c)

def confirm (c : Call) (question : String) : Work Bool := do
  say .errors (c.name ++ ": " ++ question ++ "? ")
  let s ← get
  let answer := s.input.toList.takeWhile (· ≠ '\n')
  set { s with input := String.ofList (s.input.toList.drop (answer.length + 1)) }
  return answer.head? == some 'y' || answer.head? == some 'Y'

def takeInput : Work String := do
  let s ← get
  set { s with input := "" }
  return s.input

def forEach {α : Type} (f : α → Work Nat) : List α → Work Nat
  | [] => return 0
  | x :: xs => do
    let a ← f x
    let b ← forEach f xs
    return max a b

def escapeQuoted (c : Char) : List Char :=
  match c with
  | '\n' => ['\\', 'n']
  | '\t' => ['\\', 't']
  | '\r' => ['\\', 'r']
  | '\x07' => ['\\', 'a']
  | '\x08' => ['\\', 'b']
  | '\x0b' => ['\\', 'v']
  | '\x0c' => ['\\', 'f']
  | c =>
    let n := c.toNat
    '\\' :: [n / 64, n / 8 % 8, n % 8].map fun d => Char.ofNat ('0'.toNat + d)

def isShown (c : Char) : Bool := 32 ≤ c.toNat && c.toNat < 127

def quoteChars : Bool → List Char → List Char
  | true, [] => ['\x27']
  | false, [] => ['\x27']
  | shown, c :: cs =>
    if isShown c then
      (if shown then [] else ['\x27', '\x27']) ++
        (if c = '\x27' then ['\x27', '\\', '\x27', '\x27'] else [c]) ++ quoteChars true cs
    else (if shown then ['\x27', '$', '\x27'] else []) ++ escapeQuoted c ++ quoteChars false cs

def quote (s : String) : String :=
  let cs := s.toList
  if cs.contains '\x27' && cs.all fun c => isShown c && !"\"$\\`!".toList.contains c then
    "\"" ++ s ++ "\""
  else
    match cs with
    | c :: _ =>
      if isShown c then String.ofList ('\x27' :: quoteChars true cs)
      else String.ofList (['\x27', '\x27', '$', '\x27'] ++ quoteChars false cs)
    | [] => "''"

/-! ### Options -/

structure Options where
  letters : List (Char × Bool)
  names : List (String × Char)

abbrev Given := Char × String

inductive OptionFault where
  | unknownLetter (c : Char)
  | unknownName (s : String)
  | missingValue (c : Char)
  | missingNamedValue (s : String)

def OptionFault.message : OptionFault → String
  | .unknownLetter c => "invalid option -- '" ++ c.toString ++ "'"
  | .unknownName s => "unrecognized option '" ++ s ++ "'"
  | .missingValue c => "option requires an argument -- '" ++ c.toString ++ "'"
  | .missingNamedValue s => "option '" ++ s ++ "' requires an argument"

namespace Options

def takesValue? (o : Options) (c : Char) : Option Bool :=
  (o.letters.find? fun x => x.1 == c).map fun x => x.2

def letterOf? (o : Options) (name : String) : Option Char :=
  match o.names.find? fun x => x.1 == name with
  | some x => some x.2
  | none =>
    match o.names.filter fun x => name.toList.isPrefixOf x.1.toList with
    | [x] => some x.2
    | _ => none

def letterRun (o : Options) : List Char → Except OptionFault (List Given × Option Char)
  | [] => .ok ([], none)
  | c :: cs =>
    match o.takesValue? c with
    | none => .error (.unknownLetter c)
    | some true => if cs.isEmpty then .ok ([], some c) else .ok ([(c, String.ofList cs)], none)
    | some false => do
      let (given, waiting) ← letterRun o cs
      .ok ((c, "") :: given, waiting)

def longOption (o : Options) (text : String) : Except OptionFault (Char × Option String) :=
  let cs := text.toList.drop 2
  let name := String.ofList (cs.takeWhile (· ≠ '='))
  match o.letterOf? name with
  | none => .error (.unknownName text)
  | some c =>
    match cs.dropWhile (· ≠ '=') with
    | _ :: value => .ok (c, some (String.ofList value))
    | [] => .ok (c, none)

def isOption (a : String) : Bool :=
  match a.toList with
  | '-' :: _ :: _ => true
  | _ => false

/-- Sorts arguments into options and operands. With `permutes`, options may follow operands. An
option may wait for its value, with the fault that it is to have none. -/
def sortFrom (o : Options) (permutes : Bool) :
    Option (Char × OptionFault) → List String → Except OptionFault (List Given × List String)
  | some (_, fault), [] => .error fault
  | some (c, _), v :: rest => do
    let (given, operands) ← sortFrom o permutes none rest
    .ok ((c, v) :: given, operands)
  | none, [] => .ok ([], [])
  | none, "--" :: rest => .ok ([], rest)
  | none, a :: rest =>
    if !isOption a then
      if permutes then do
        let (given, operands) ← sortFrom o permutes none rest
        .ok (given, a :: operands)
      else .ok ([], a :: rest)
    else if ['-', '-'].isPrefixOf a.toList then do
      let (c, value) ← o.longOption a
      match value, o.takesValue? c with
      | none, some true => sortFrom o permutes (some (c, .missingNamedValue a)) rest
      | _, _ => do
        let (given, operands) ← sortFrom o permutes none rest
        .ok ((c, value.getD "") :: given, operands)
    else do
      let (run, waiting) ← o.letterRun (a.toList.drop 1)
      let (given, operands) ←
        sortFrom o permutes (waiting.map fun c => (c, .missingValue c)) rest
      .ok (run ++ given, operands)

def sort (o : Options) (permutes : Bool) (arguments : List String) :
    Except OptionFault (List Given × List String) :=
  o.sortFrom permutes none arguments

def flags (letters : String) (names : List (String × Char)) : Options :=
  ⟨letters.toList.map fun c => (c, false), names⟩

def withValues (o : Options) (letters : String) : Options :=
  ⟨o.letters ++ letters.toList.map fun c => (c, true), o.names⟩

end Options

def has (given : List Given) (c : Char) : Bool := given.any fun x => x.1 == c

def valueOf? (given : List Given) (c : Char) : Option String :=
  (given.reverse.find? fun x => x.1 == c).map fun x => x.2

def withOptions (o : Options) (status : Nat)
    (f : Call → List Given → List String → Work Nat) : Tool := fun c =>
  match o.sort true c.arguments with
  | .error e => misuse c status e.message
  | .ok (given, operands) => f c given operands

/-! ### Files -/

def readOctets (t : FileTree) (p : Path) : Except FileError String := do
  let (_, e) ← t.find p
  match e with
  | .file content _ => .ok (Octets.ofContent content)
  | _ => .error .isADirectory

def nullDevice : Place := ["dev", "null"]

def writeOctets (c : Call) (t : FileTree) (p : Path) (text : String) :
    Except FileError FileTree :=
  match t.find p with
  | .ok (place, .file _ rights) =>
    if place = nullDevice then .ok t else .ok (t.fill place (Octets.toContent text) rights)
  | _ => t.writeFileWith (c.newRights .open_) p (Octets.toContent text)

def isInputName (name : String) : Bool := name = "-" || name = "/dev/stdin"

def readOperand (c : Call) (name : String) : Work (Except FileError String) := do
  if isInputName name then
    let text ← takeInput
    return .ok text
  else
    let s ← get
    return readOctets s.tree (c.locate name)

def splitLines : List Char → List (List Char)
  | [] => []
  | '\n' :: cs => [] :: splitLines cs
  | c :: cs =>
    match splitLines cs with
    | [] => [[c]]
    | line :: lines => (c :: line) :: lines

def linesOf (s : String) : List String := (splitLines s.toList).map String.ofList

def endsInNewline (s : String) : Bool := s.toList.getLast? == some '\n'

def ofLines (lines : List String) : String := String.join (lines.map fun l => l ++ "\n")

def keptLines (s : String) : List String :=
  let lines := linesOf s
  if endsInNewline s then lines.map fun l => l ++ "\n"
  else
    match lines.reverse with
    | [] => []
    | last :: before => (before.reverse.map fun l => l ++ "\n") ++ [last]

/-- A text with the null characters and the line ends exchanged, if null characters are to end its
lines. -/
def exchangeEnds (exchanges : Bool) (s : String) : String :=
  if exchanges then
    s.map fun c => if c = '\n' then '\x00' else if c = '\x00' then '\n' else c
  else s

/-- Goes through operands, the input if there are none, with a message for those that cannot be
read. -/
def overTexts (c : Call) (names : List String) (f : String → String → Work Nat) : Work Nat :=
  forEach
    (fun name => do
      let text ← readOperand c name
      match text with
      | .ok text => f name text
      | .error e => failWith c 1 (name ++ ": " ++ e.reason))
    (if names.isEmpty then ["-"] else names)

def joinTexts (c : Call) (names : List String) : Work (String × Nat) := do
  let texts ← (if names.isEmpty then ["-"] else names).mapM fun name => do
    let text ← readOperand c name
    match text with
    | .ok text => return (text, 0)
    | .error e =>
      complain c (name ++ ": " ++ e.reason)
      return ("", 1)
  return (String.join (texts.map Prod.fst), (texts.map Prod.snd).foldl max 0)

def changeTree (f : FileTree → FileTree) : Work Unit :=
  modify fun s => { s with tree := f s.tree }

def natural? (s : String) : Option Nat := Text.natOf? s.toList

def padLeft (width : Nat) (s : String) : String := Text.spaces (width - s.length) ++ s

end Tool

end NativeUi.Shell
