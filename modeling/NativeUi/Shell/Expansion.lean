import NativeUi.Shell.Arithmetic
import NativeUi.Shell.Pattern
import NativeUi.Shell.Process

/-!
# Expansion

What the words of a command stand for: parameters, the output of commands and arithmetic are put in
their place, the result is split into fields, and patterns are replaced by the names of files.
-/
namespace NativeUi.Shell

/-- A piece of an expanded word: a character, the mark of a quotation that may be empty, or the gap
between two positional parameters. -/
inductive Piece where
  | char (c : Char) (quoted splits : Bool)
  | mark
  | gap

namespace Piece

def ofValue (quoted : Bool) (s : String) : List Piece :=
  if quoted then .mark :: s.toList.map fun c => .char c true false
  else s.toList.map fun c => .char c false true

def ofValues (quoted : Bool) : List String → List Piece
  | [] => []
  | [v] => ofValue quoted v
  | v :: vs => ofValue quoted v ++ .gap :: ofValues quoted vs

def glyphs (separator : List Char) : List Piece → Glyphs
  | [] => []
  | .char c quoted _ :: ps => ⟨c, quoted⟩ :: glyphs separator ps
  | .mark :: ps => glyphs separator ps
  | .gap :: ps => Glyphs.ofText true separator ++ glyphs separator ps

end Piece

/-! ### Fields -/

/-- What stood before a place in a word: nothing of a field, blanks behind a field, or a field. -/
inductive Before where
  | start
  | blanks
  | field
deriving DecidableEq

def isFieldBlank (c : Char) : Bool := isBlank c || c = '\n'

/-- Splits pieces into fields at some separators. Blanks separate once, however many they are; any
other separator ends a field each time. The field at hand is given in reverse. -/
def fieldsFrom (separators : List Char) : Before → Glyphs → List Piece → List Glyphs
  | .field, g, [] => [g.reverse]
  | _, _, [] => []
  | b, g, .mark :: ps =>
    fieldsFrom separators .field (if b = .field then g else []) ps
  | b, g, .gap :: ps =>
    if b = .field then g.reverse :: fieldsFrom separators .start [] ps
    else fieldsFrom separators .start [] ps
  | b, g, .char c quoted splits :: ps =>
    if splits && separators.contains c then
      if isFieldBlank c then
        if b = .field then g.reverse :: fieldsFrom separators .blanks [] ps
        else fieldsFrom separators b [] ps
      else if b = .blanks then fieldsFrom separators .start [] ps
      else (if b = .field then g.reverse else []) :: fieldsFrom separators .start [] ps
    else fieldsFrom separators .field (⟨c, quoted⟩ :: if b = .field then g else []) ps

def fields (separators : List Char) (ps : List Piece) : List Glyphs :=
  fieldsFrom separators .start [] ps

/-! ### Names of files -/

def namesIn (t : FileTree) (place : Place) : List String :=
  (t.children place).map fun x => Octets.ofString x.1

def components : Glyphs → List Glyphs
  | [] => [[]]
  | g :: gs =>
    if g.char = '/' then [] :: components gs
    else
      match components gs with
      | [] => [[g]]
      | c :: cs => (g :: c) :: cs

/-- The names of a directory that a component stands for. A leading dot has to be spelt. -/
def matching (t : FileTree) (dir : String) (start : String) (component : Glyphs) : List String :=
  match t.find (locateFrom dir (if start.isEmpty then "." else start)) with
  | .ok (place, .directory) =>
    let pattern := Pattern.ofGlyphs component
    let hidden :=
      match component with
      | g :: _ => g.char == '.'
      | [] => false
    ("." :: ".." :: namesIn t place).filter fun name =>
      (hidden || name.toList.head? != some '.') && pattern.accepts name.toList
  | _ => []

/-- Continues the starts of paths through components; a name without a pattern is taken as it is,
until it turns out that there is no such file. -/
def paths (t : FileTree) (dir : String) : List Glyphs → List String → List String
  | [], starts => starts
  | [c], starts =>
    if (Pattern.ofGlyphs c).isOpen then
      starts.flatMap fun s => (matching t dir s c).map fun name => s ++ name
    else
      (starts.map fun s => s ++ Glyphs.text c).filter fun p => (t.findNamed (locateFrom dir p)).isOk
  | c :: cs, starts =>
    let starts :=
      if (Pattern.ofGlyphs c).isOpen then
        starts.flatMap fun s => (matching t dir s c).map fun name => s ++ name
      else starts.map fun s => s ++ Glyphs.text c
    paths t dir cs (starts.map fun s => s ++ "/")

/-- A field as a list of names: those of the files that it stands for if it is a pattern. -/
def fileNames (t : FileTree) (dir : String) (field : Glyphs) : List String :=
  if (Pattern.ofGlyphs field).isOpen then
    match paths t dir (components field) [""] with
    | [] => [Glyphs.text field]
    | names => names.mergeSort fun a b => a.toList ≤ b.toList
  else [Glyphs.text field]

namespace Run

/-! ### Arithmetic -/

def failArithmetic {α : Type} (text : String) (f : ExprFault) : Run α :=
  failWith ("arithmetic expression: " ++ f.message ++ ": \"" ++ text ++ "\"")

def numberOf (name : String) : Run Int := do
  let v ← valueOr name ""
  match integerOf? true v with
  | some i => return i
  | none => failWith ("Illegal number: " ++ v)

def compute (text : String) : Expr → Run Int
  | .number i => return i
  | .name x => numberOf x
  | .unary op e => do
    let a ← compute text e
    return op.apply a
  | .binary op a b => do
    let a ← compute text a
    let b ← compute text b
    match op.apply a b with
    | .ok i => return i
    | .error f => failArithmetic text f
  | .both a b => do
    let a ← compute text a
    if a = 0 then return 0
    else
      let b ← compute text b
      return ofBool (b ≠ 0)
  | .either a b => do
    let a ← compute text a
    if a ≠ 0 then return 1
    else
      let b ← compute text b
      return ofBool (b ≠ 0)
  | .choice c a b => do
    let c ← compute text c
    if c ≠ 0 then compute text a else compute text b
  | .assign x op e => do
    let b ← compute text e
    let result ←
      match op with
      | none => pure b
      | some op => do
        let a ← numberOf x
        match op.apply a b with
        | .ok i => pure i
        | .error f => failArithmetic text f
    assign x (integerText result)
    return result

def arithmetic (text : String) : Run String := do
  match Expr.parse text with
  | .ok e =>
    let i ← compute text e
    return integerText i
  | .error f => failArithmetic text f

/-! ### Parameters -/

def joint : Run (List Char) := do
  let s ← separators
  return s.toList.take 1

def optionLetters : List Char := "ubaCEVvxsnmiIfe".toList

def parameter? (p : Parameter) : Run (Option String) := do
  let s ← get
  match p with
  | .named x => value? x
  | .positional 0 => return some s.name
  | .positional (n + 1) => return s.arguments[n]?
  | .count => return some (Text.decimal s.arguments.length)
  | .status => return some (Text.decimal s.status)
  | .process => return some (Text.decimal s.process)
  | .job => return s.background.getLast?.map fun b => Text.decimal b.process
  | .flags => return some (String.ofList (optionLetters.filter fun c => s.options.contains c))
  | _ =>
    let j ← joint
    return if s.arguments.isEmpty then none else some ((String.ofList j).intercalate s.arguments)

def parameterName : Parameter → String
  | .named x => x
  | .positional n => Text.decimal n
  | .all => "@"
  | .joined => "*"
  | .count => "#"
  | .status => "?"
  | .process => "$"
  | .job => "!"
  | .flags => "-"

def parameterValues (p : Parameter) (quoted : Bool) : Run (Option (List String)) := do
  let s ← get
  let v ← parameter? p
  let several := p = .all || (p = .joined && !quoted)
  return v.map fun v => if several then s.arguments else [v]

def failUnset {α : Type} (p : Parameter) (message : String) : Run α :=
  failWith (parameterName p ++ ": " ++ message)

def plainParameter (p : Parameter) (quoted : Bool) : Run (List Piece) := do
  let values ← parameterValues p quoted
  match values with
  | some vs => return Piece.ofValues quoted vs
  | none =>
    let strict ← hasOption 'u'
    if p = .all || p = .joined then
      return if quoted && p = .joined then [.mark] else []
    else if strict then failUnset p "parameter not set"
    else return Piece.ofValue quoted ""

def textOf (ps : List Piece) : Run String := do
  let j ← joint
  return Glyphs.text (Piece.glyphs j ps)

/-- A parameter in one of its forms; the argument of the form is expanded only if it is needed. -/
def formed (p : Parameter) (form : Form) (quoted : Bool) (argument : Run (List Piece)) :
    Run (List Piece) := do
  let value ← parameter? p
  let missing (alsoEmpty : Bool) : Bool :=
    match value with
    | none => true
    | some v => alsoEmpty && v.isEmpty
  let trimmed (trim : Pattern → List Char → List Char) : Run (List Piece) := do
    let values ← parameterValues p quoted
    match values with
    | none => plainParameter p quoted
    | some vs =>
      let ps ← argument
      let pattern := Pattern.ofGlyphs (Piece.glyphs [' '] ps)
      return Piece.ofValues quoted (vs.map fun v => String.ofList (trim pattern v.toList))
  match form with
  | .plain => plainParameter p quoted
  | .length =>
    let strict ← hasOption 'u'
    if value.isNone && strict then failUnset p "parameter not set"
    else return Piece.ofValue quoted (Text.decimal (value.getD "").length)
  | .default alsoEmpty => if missing alsoEmpty then argument else plainParameter p quoted
  | .alternative alsoEmpty =>
    if missing alsoEmpty then return if quoted then [.mark] else [] else argument
  | .assign alsoEmpty =>
    if missing alsoEmpty then
      match p with
      | .named x =>
        let ps ← argument
        let v ← textOf ps
        assign x v
        plainParameter p quoted
      | p => failUnset p "bad variable name"
    else plainParameter p quoted
  | .require alsoEmpty =>
    if missing alsoEmpty then
      let ps ← argument
      let message ← textOf ps
      if message.isEmpty then
        failUnset p (if alsoEmpty then "parameter not set or null" else "parameter not set")
      else failUnset p message
    else plainParameter p quoted
  | .trimStart longest => trimmed (Pattern.trimStart longest)
  | .trimEnd longest => trimmed (Pattern.trimEnd longest)
  | .bad => failWith "Bad substitution"

/-! ### Homes -/

def homeOf? (name : List Char) : Run (Option String) := do
  if name.isEmpty then value? "HOME"
  else return if name = "root".toList then some "/root" else none

/-- A text that starts with a tilde, up to the characters that end its name. `closed` says that
nothing is joined to the text. -/
def tilde (ends : Char → Bool) (closed : Bool) (cs : List Char) : Run (List Piece × List Char) := do
  match cs with
  | '~' :: rest =>
    let name := rest.takeWhile fun c => !ends c
    let behind := rest.dropWhile fun c => !ends c
    if behind.isEmpty && !closed then return ([], cs)
    else
      let home ← homeOf? name
      match home with
      | some h => return (Piece.ofValue true h, behind)
      | none => return ([], cs)
  | cs => return ([], cs)

/-- How the parts of a word are expanded: whether plain text may be split, whether it starts the
word, and whether it is the value of a variable, in which a tilde may follow a colon. -/
structure Manner where
  splits : Bool
  starts : Bool
  assigns : Bool

def plainPieces (m : Manner) (closed : Bool) : Nat → Bool → List Char → Run (List Piece)
  | 0, _, _ => return []
  | fuel + 1, starts, cs => do
    let ends (c : Char) : Bool := c = '/' || (m.assigns && c = ':')
    let (home, cs) ← if starts then tilde ends closed cs else pure ([], cs)
    let keep (cs : List Char) : List Piece := cs.map fun c => .char c false m.splits
    match m.assigns, cs.dropWhile (· ≠ ':') with
    | true, _ :: rest =>
      let more ← plainPieces m closed fuel true rest
      return home ++ keep (cs.takeWhile (· ≠ ':') ++ [':']) ++ more
    | _, _ => return home ++ keep cs

def textPieces (m : Manner) (closed : Bool) (cs : List Char) (quoted : Bool) : Run (List Piece) :=
  if quoted then return Piece.ofValue true (String.ofList cs)
  else plainPieces m closed (cs.length + 1) m.starts cs

/-! ### Words -/

def substitute (next : Engine) (c : Command) : Run String := do
  let text ← capture next (next.run ⟨false, true⟩ c)
  let cs := text.toList.filter (· ≠ '\x00')
  return String.ofList ((cs.reverse.dropWhile (· = '\n')).reverse)

mutual

def expandPart (next : Engine) (m : Manner) (closed : Bool) : Part → Run (List Piece)
  | .text cs quoted => textPieces m closed cs quoted
  | .substitution c quoted => do
    let text ← substitute next c
    return Piece.ofValue quoted text
  | .arithmetic expression quoted => do
    let ps ← expandParts next ⟨false, false, false⟩ expression
    let text ← textOf ps
    let value ← arithmetic text
    return Piece.ofValue quoted value
  | .parameter p form argument quoted =>
    formed p form quoted (expandParts next ⟨!quoted, !quoted, m.assigns⟩ argument)

def expandParts (next : Engine) (m : Manner) : List Part → Run (List Piece)
  | [] => return []
  | p :: ps => do
    let first ← expandPart next m ps.isEmpty p
    let more ← expandParts next ⟨m.splits, false, m.assigns⟩ ps
    return first ++ more

end

def expandWord (next : Engine) (w : Word) : Run (List String) := do
  let ps ← expandParts next ⟨false, true, false⟩ w
  let separators ← separators
  let s ← get
  let fs := fields separators.toList ps
  if s.options.contains 'f' then return fs.map Glyphs.text
  else return fs.flatMap (fileNames s.machine.tree s.dir)

def expandWords (next : Engine) : List Word → Run (List String)
  | [] => return []
  | w :: ws => do
    let first ← expandWord next w
    let more ← expandWords next ws
    return first ++ more

def expandGlyphs (next : Engine) (assigns : Bool) (w : Word) : Run Glyphs := do
  let ps ← expandParts next ⟨false, true, assigns⟩ w
  let j ← joint
  return Piece.glyphs j ps

def expandText (next : Engine) (assigns : Bool) (w : Word) : Run String := do
  let gs ← expandGlyphs next assigns w
  return Glyphs.text gs

end Run

end NativeUi.Shell
