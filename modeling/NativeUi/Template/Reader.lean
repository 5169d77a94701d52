import NativeUi.Json.Parser
import NativeUi.Template.Basic

/-!
# Reading templates

Two braces or three open a tag. A backslash before them makes them text. A tag that starts with an
exclamation mark is a comment; a comment that has a line to itself takes the line with it. A tilde
at either end of a tag takes the white space on that side.

What reads a tag gets a number that no text in it is longer than.
-/
namespace NativeUi.Template

def isSymbol (c : Char) : Bool :=
  c.isAlphanum || c = '_' || c = '-' || c = '$' || 0x80 ≤ c.toNat

def isSpace (c : Char) : Bool := c = ' ' || c = '\t' || c = '\n' || c = '\r'

def skipSpaces (cs : List Char) : List Char := cs.dropWhile isSpace

def afterText? (s : List Char) (cs : List Char) : Option (List Char) :=
  if s.isPrefixOf cs then some (cs.drop s.length) else none

def before (cs rest : List Char) : List Char := cs.take (cs.length - rest.length)

/-! ### Paths -/

def isSeparator (c : Char) : Bool := c = '/' || c = '.'

def scanName? (cs : List Char) : Option (String × List Char) :=
  let name := cs.takeWhile isSymbol
  if name.isEmpty then none else some (String.ofList name, cs.dropWhile isSymbol)

def scanItem? : List Char → Option (String × List Char)
  | '[' :: cs =>
    match cs.dropWhile (· ≠ ']') with
    | _ :: rest => some (String.ofList (cs.takeWhile (· ≠ ']')), rest)
    | [] => none
  | cs => scanName? cs

def scanItems : Nat → List Char → List String × List Char
  | fuel + 1, c :: cs =>
    if isSeparator c then
      match scanItem? cs with
      | some (name, rest) =>
        let (names, rest) := scanItems fuel rest
        (name :: names, rest)
      | none => ([], c :: cs)
    else ([], c :: cs)
  | _, cs => ([], cs)

def afterStep? (word : List Char) (cs : List Char) : Option (List Char) :=
  match afterText? word cs with
  | some (c :: rest) => if isSeparator c then some rest else none
  | _ => none

def skipUps : Nat → List Char → List Char
  | 0, cs => cs
  | fuel + 1, cs =>
    match afterStep? ['.', '.'] cs with
    | some rest => skipUps fuel rest
    | none => cs

def skipCurrent (cs : List Char) : List Char :=
  match afterText? ['.', '/'] cs, afterStep? "this".toList cs with
  | some rest, _ => rest
  | none, some rest => rest
  | none, none => cs

def skipRoot (cs : List Char) : List Char := (afterStep? "@root".toList cs).getD cs

def scanReference? (limit : Nat) (cs : List Char) : Option (Reference × List Char) :=
  let cs := skipRoot (skipCurrent cs)
  let (bound, cs) :=
    match cs with
    | '@' :: rest => (true, rest)
    | cs => (false, cs)
  match scanItem? (skipUps limit cs) with
  | none => none
  | some (name, rest) =>
    let (names, rest) := scanItems limit rest
    if bound then some (.bound name, rest)
    else some (.data ((name :: names).filter (· ≠ "this")), rest)

/-! ### Literals -/

def isHexDigit (c : Char) : Bool :=
  c.isDigit || ('a' ≤ c && c ≤ 'f') || ('A' ≤ c && c ≤ 'F')

def afterQuoted? (quote : Char) : List Char → Option (List Char)
  | '\\' :: 'u' :: a :: b :: c :: d :: cs =>
    if [a, b, c, d].all isHexDigit then afterQuoted? quote cs else none
  | '\\' :: c :: cs =>
    if c = quote || "\\/bfnrt".toList.contains c then afterQuoted? quote cs else none
  | c :: cs => if c = quote then some cs else afterQuoted? quote cs
  | [] => none

def afterExponent (cs : List Char) : List Char :=
  match cs with
  | 'E' :: rest =>
    let rest :=
      match rest with
      | '-' :: rest => rest
      | rest => rest
    if (rest.takeWhile Char.isDigit).isEmpty then cs else rest.dropWhile Char.isDigit
  | cs => cs

def endsWord (rest : List Char) : Bool :=
  match rest with
  | c :: _ => !isSymbol c
  | [] => true

def afterNumber? (cs : List Char) : Option (List Char) :=
  let cs :=
    match cs with
    | '-' :: cs => cs
    | cs => cs
  if (cs.takeWhile Char.isDigit).isEmpty then none
  else
    let rest :=
      match cs.dropWhile Char.isDigit with
      | '.' :: rest => rest.dropWhile Char.isDigit
      | rest => rest
    let rest := afterExponent rest
    if endsWord rest then some rest else none

def afterWord? (word : List Char) (cs : List Char) : Option (List Char) :=
  match afterText? word cs with
  | some rest => if endsWord rest then some rest else none
  | none => none

def afterMembers? (member : List Char → Option (List Char)) (close : Char) :
    Nat → List Char → Option (List Char)
  | 0, _ => none
  | fuel + 1, cs =>
    match skipSpaces cs with
    | ',' :: rest =>
      match member (skipSpaces rest) with
      | some rest => afterMembers? member close fuel rest
      | none => none
    | c :: rest => if c = close then some rest else none
    | [] => none

def afterPair? (value : List Char → Option (List Char)) : List Char → Option (List Char)
  | '"' :: cs =>
    match afterQuoted? '"' cs with
    | some rest =>
      match skipSpaces rest with
      | ':' :: rest => value (skipSpaces rest)
      | _ => none
    | none => none
  | _ => none

def afterLiteral? : Nat → List Char → Option (List Char)
  | 0, _ => none
  | fuel + 1, cs =>
    match cs with
    | '"' :: rest => afterQuoted? '"' rest
    | '\x27' :: rest => afterQuoted? '\x27' rest
    | '[' :: rest =>
      let rest := skipSpaces rest
      afterMembers? (afterLiteral? fuel) ']' (rest.length + 1)
        ((afterLiteral? fuel rest).getD rest)
    | '\x7b' :: rest =>
      let rest := skipSpaces rest
      afterMembers? (afterPair? (afterLiteral? fuel)) '\x7d' (rest.length + 1)
        ((afterPair? (afterLiteral? fuel) rest).getD rest)
    | cs =>
      match afterNumber? cs, afterWord? "null".toList cs with
      | some rest, _ => some rest
      | none, some rest => some rest
      | none, none =>
        match afterWord? "true".toList cs with
        | some rest => some rest
        | none => afterWord? "false".toList cs

def requote : List Char → List Char
  | '\\' :: '\x27' :: cs => '\x27' :: requote cs
  | '"' :: cs => '\\' :: '"' :: requote cs
  | c :: cs => c :: requote cs
  | [] => []

def literalText (span : List Char) : List Char :=
  match span with
  | '\x27' :: inner => '"' :: requote inner.dropLast ++ ['"']
  | span => span

def scanLiteral? (limit : Nat) (cs : List Char) : Option (Option Json × List Char) :=
  match afterLiteral? limit cs with
  | none => none
  | some rest =>
    match Json.parse (String.ofList (literalText (before cs rest))) with
    | .ok v => some (some v, rest)
    | .error _ => some (none, rest)

/-! ### Expressions -/

def isReserved (cs : List Char) : Bool :=
  ["as", "else"].any fun word =>
    match afterText? word.toList cs with
    | some rest => endsWord (skipSpaces rest)
    | none => false

structure Arguments where
  places : List Expression
  named : List (String × Expression)

def Arguments.isEmpty (a : Arguments) : Bool := a.places.isEmpty && a.named.isEmpty

def scanLabel? (cs : List Char) : Option (String × List Char) :=
  match scanName? cs with
  | some (name, rest) =>
    match skipSpaces rest with
    | '=' :: rest => some (name, skipSpaces rest)
    | _ => none
  | none => none

def scanArguments (one : List Char → Option (Expression × List Char)) :
    Nat → List Char → Arguments × List Char
  | 0, cs => (⟨[], []⟩, cs)
  | fuel + 1, cs =>
    let start := skipSpaces cs
    let labelled :=
      match scanLabel? start with
      | some (name, rest) =>
        match one rest with
        | some (e, rest) => some (name, e, rest)
        | none => none
      | none => none
    match labelled with
    | some (name, e, rest) =>
      let (more, rest) := scanArguments one fuel rest
      (⟨more.places, (name, e) :: more.named⟩, rest)
    | none =>
      match one start with
      | some (e, rest) =>
        let (more, rest) := scanArguments one fuel rest
        (⟨e :: more.places, more.named⟩, rest)
      | none => (⟨[], []⟩, cs)

def scanCall? (one : List Char → Option (Expression × List Char)) (limit : Nat) (cs : List Char) :
    Option (Expression × List Char) :=
  match scanName? cs with
  | none => none
  | some (name, rest) =>
    let (arguments, rest) := scanArguments one limit rest
    if arguments.isEmpty then none else some (.call name arguments.places arguments.named, rest)

def scanHelper? (cs : List Char) : Option (Expression × List Char) :=
  match scanName? cs with
  | some (name, rest) =>
    if isHelper name && (scanItems 1 rest).1.isEmpty then some (.call name [] [], rest) else none
  | none => none

def scanPlain? (limit : Nat) (cs : List Char) : Option (Expression × List Char) :=
  match scanHelper? cs with
  | some x => some x
  | none => (scanReference? limit cs).map fun (r, rest) => (.reference r, rest)

def scanArgument? : Nat → List Char → Option (Expression × List Char)
  | 0, _ => none
  | fuel + 1, cs =>
    if isReserved cs then none
    else
      match scanLiteral? fuel cs with
      | some (some v, rest) => some (.literal v, rest)
      | some (none, _) => none
      | none =>
        match cs with
        | '(' :: inner =>
          let inner := skipSpaces inner
          let call :=
            match scanCall? (scanArgument? fuel) fuel inner with
            | some x => some x
            | none =>
              (scanName? inner).map fun (name, rest) => (.call name [] [], rest)
          match call with
          | some (e, rest) =>
            match skipSpaces rest with
            | ')' :: rest => some (e, rest)
            | _ => none
          | none => none
        | cs => (scanReference? fuel cs).map fun (r, rest) => (.reference r, rest)

def scanExpression? (limit : Nat) (cs : List Char) : Option (Expression × List Char) :=
  match scanCall? (scanArgument? limit) limit cs with
  | some x => some x
  | none =>
    match cs with
    | '(' :: _ => scanArgument? limit cs
    | cs => scanPlain? limit cs

/-! ### Tags -/

inductive Piece where
  | text (cs : List Char)
  | comment
  | tag (e : Expression) (trimsBefore trimsAfter : Bool)

def scanTilde (cs : List Char) : Bool × List Char :=
  match cs with
  | '~' :: rest => (true, rest)
  | cs => (false, cs)

def opening : List Char := ['\x7b', '\x7b']

def closing : List Char := ['\x7d', '\x7d']

def scanEnd? (cs : List Char) : Option (Bool × List Char) :=
  let (trims, rest) := scanTilde (skipSpaces cs)
  (afterText? closing (skipSpaces rest)).map fun rest => (trims, rest)

def scanPlainTag? (limit : Nat) (cs : List Char) : Option (Piece × List Char) := do
  let (trimsBefore, cs) := scanTilde (skipSpaces cs)
  let (e, rest) ← scanExpression? limit (skipSpaces cs)
  let (trimsAfter, rest) ← scanEnd? rest
  some (.tag e trimsBefore trimsAfter, rest)

def scanAmpersandTag? (limit : Nat) (cs : List Char) : Option (Piece × List Char) := do
  let (trimsBefore, cs) := scanTilde (skipSpaces cs)
  let cs ← afterText? ['&'] (skipSpaces cs)
  let (e, rest) ← scanExpression? limit (skipSpaces cs)
  let (trimsAfter, rest) ← scanEnd? rest
  some (.tag e trimsBefore trimsAfter, rest)

def scanTripleTag? (limit : Nat) (cs : List Char) : Option (Piece × List Char) := do
  let cs ← afterText? ['\x7b'] cs
  let (trimsBefore, cs) := scanTilde (skipSpaces cs)
  let (e, rest) ← scanExpression? limit (skipSpaces cs)
  let (trimsAfter, rest) := scanTilde (skipSpaces rest)
  let rest ← afterText? ('\x7d' :: closing) (skipSpaces rest)
  some (.tag e trimsBefore trimsAfter, rest)

def scanNestedTag? (limit : Nat) (cs : List Char) : Option (Piece × List Char) := do
  let (trimsBefore, cs) := scanTilde (skipSpaces cs)
  let cs ← afterText? ['\x7b'] (skipSpaces cs)
  let (e, rest) ← scanExpression? limit (skipSpaces cs)
  let rest ← afterText? ['\x7d'] (skipSpaces rest)
  let (trimsAfter, rest) ← scanEnd? rest
  some (.tag e trimsBefore trimsAfter, rest)

def afterLine? (limit : Nat) (cs : List Char) : Option (List Char) :=
  (scanName? cs).map fun (_, rest) => (scanArguments (scanArgument? limit) limit rest).2

/-- The tag that parts the branches of a block, which no place is. The condition of a branch may
stand right behind the word. -/
def isElse (limit : Nat) (cs : List Char) : Bool :=
  let (_, cs) := scanTilde (skipSpaces cs)
  match afterText? "else".toList (skipSpaces cs) with
  | some rest =>
    (scanEnd? rest).isSome || ((afterLine? limit (skipSpaces rest)).bind scanEnd?).isSome
  | none => false

def after? (stop : List Char) : List Char → Option (List Char)
  | [] => none
  | c :: cs =>
    if stop.isPrefixOf (c :: cs) then some ((c :: cs).drop stop.length) else after? stop cs

def afterComment? (cs : List Char) : Option (List Char) :=
  let plain := after? closing cs
  match afterText? ['-', '-'] (skipSpaces cs) with
  | some inner =>
    match after? ('-' :: '-' :: closing) inner with
    | some rest => some rest
    | none => plain
  | none => plain

def scanTag (limit : Nat) (cs : List Char) : Except Fault (Piece × List Char) :=
  match cs with
  | '!' :: cs =>
    match afterComment? cs with
    | some rest => .ok (.comment, rest)
    | none => .error .badTag
  | cs =>
    match (if isElse limit cs then none else scanPlainTag? limit cs), scanTripleTag? limit cs with
    | some x, _ => .ok x
    | none, some x => .ok x
    | none, none =>
      match scanNestedTag? limit cs, scanAmpersandTag? limit cs with
      | some x, _ => .ok x
      | none, some x => .ok x
      | none, none => .error .badTag

/-! ### Texts between tags -/

def consText (c : Char) : List Piece → List Piece
  | .text cs :: rest => .text (c :: cs) :: rest
  | rest => .text [c] :: rest

/-- Backslashes at the start of a text that stand right before an opening tag, and what follows. -/
def backslashes? (cs : List Char) : Option (Nat × List Char) :=
  let run := cs.takeWhile (· = '\\')
  let rest := cs.dropWhile (· = '\\')
  if !run.isEmpty && opening.isPrefixOf rest then some (run.length, rest) else none

def escapedBraces (cs : List Char) : Nat :=
  if (List.replicate 4 '\x7b').isPrefixOf cs then 4 else 2

/-- Cuts a template into pieces. Every call takes a unit of fuel and a part of the text. -/
def pieces : Nat → List Char → Except Fault (List Piece)
  | 0, _ => .ok []
  | _ + 1, [] => .ok []
  | fuel + 1, '\x7b' :: '\x7b' :: cs => do
    let (p, rest) ← scanTag fuel cs
    let ps ← pieces fuel rest
    .ok (p :: ps)
  | fuel + 1, c :: cs =>
    match backslashes? (c :: cs) with
    | some (1, rest) => do
      let braces := escapedBraces rest
      let ps ← pieces fuel (rest.drop braces)
      .ok ((List.replicate braces '\x7b').foldr consText ps)
    | some (n, rest) => do
      let ps ← pieces fuel rest
      .ok ((List.replicate (n - 1) '\\').foldr consText ps)
    | none => do
      let ps ← pieces fuel cs
      .ok (consText c ps)

def isTab (c : Char) : Bool := c = ' ' || c = '\t'

def isLineEnd (c : Char) : Bool := c = '\n' || c = '\r'

def dropEndWhile (p : Char → Bool) (cs : List Char) : List Char :=
  (cs.reverse.dropWhile p).reverse

/-- The text ends where a line starts, blanks aside; `first` says that nothing stands before it. -/
def endsAtLineStart (first : Bool) (cs : List Char) : Bool :=
  match cs.reverse.dropWhile isTab with
  | c :: _ => isLineEnd c
  | [] => first

def startsAtLineEnd : List Piece → Bool
  | .text cs :: _ =>
    match cs.dropWhile isTab with
    | c :: _ => isLineEnd c
    | [] => false
  | _ => false

def dropLineEnd (cs : List Char) : List Char :=
  match cs.dropWhile isTab with
  | '\r' :: '\n' :: rest => rest
  | '\n' :: rest => rest
  | rest => rest

inductive Cut where
  | nothing
  | line
  | blanks

def Cut.apply : Cut → List Char → List Char
  | .nothing, cs => cs
  | .line, cs => dropLineEnd cs
  | .blanks, cs => cs.dropWhile Text.isBlank

/-- The end of a text before what follows: `alone` says whether a comment here has its line to
itself. -/
def cutEnd (alone : Bool) (following : List Piece) (cs : List Char) : List Char :=
  match following with
  | .comment :: rest => if alone && startsAtLineEnd rest then dropEndWhile isTab cs else cs
  | .tag _ true _ :: _ => dropEndWhile Text.isBlank cs
  | _ => cs

/-- Cuts the texts as their neighbours say. `lineStart` says whether a comment that comes now stands
first in its line, `trims` whether the last tag takes the white space behind it. -/
def arrange (lineStart first trims : Bool) (cut : Cut) : List Piece → List Segment
  | [] => []
  | .text cs :: rest =>
    let alone := endsAtLineStart first cs
    .text (cutEnd alone rest (cut.apply cs)) ::
      arrange alone false trims (if trims then .blanks else .nothing) rest
  | .comment :: rest =>
    let cut : Cut :=
      if trims then .blanks else if lineStart && startsAtLineEnd rest then .line else .nothing
    arrange false false trims cut rest
  | .tag e _ trims :: rest =>
    .place e :: arrange false false trims (if trims then .blanks else .nothing) rest

def parse (template : String) : Except Fault (List Segment) := do
  let cs := template.toList
  let ps ← pieces (cs.length + 1) cs
  .ok (arrange true true false .nothing ps)

end NativeUi.Template
