import NativeUi.Shell.Script

/-!
# Reading scripts

A script is read line by line, since a command may decide how the rest of it is read. Words that
stand first in a command may be keywords or aliases; the text of an alias is read in place of its
name. A here-document follows the line that announces it.
-/
namespace NativeUi.Shell

inductive Operator where
  | file (opening : Opening)
  | copy
  | document (stripsTabs : Bool)

inductive Token where
  | word (w : Word)
  | redirect (descriptor : Nat) (operator : Operator)
  | newline
  | semicolon
  | doubleSemicolon
  | ampersand
  | doubleAmpersand
  | bar
  | doubleBar
  | openParen
  | closeParen
  | endOfText

structure Announced where
  number : Nat
  delimiter : List Char
  literal : Bool
  stripsTabs : Bool

/-- An alias whose text is being read: its name, what is left to be read behind its text, and
whether the text ends in a blank. -/
structure Expanding where
  name : String
  behind : Nat
  blank : Bool

/-- A text of some size that is being read; a token may be held back. In the text of an alias, the
length of what was left at the start of the last token is kept, and whether an alias that ends in a
blank came right before it. -/
structure Source where
  size : Nat
  rest : List Char
  line : Nat
  held : Option Token
  announced : List Announced
  documents : Documents
  next : Nat
  aliases : Aliases
  expanding : List Expanding
  start : Nat
  behindBlank : Bool

def Source.room (s : Source) : Nat :=
  let size := (s.aliases.map fun x => x.2.length + 1).foldl (· + ·) 1
  (s.size + 2) * size * 2 ^ s.aliases.length

abbrev Reading := StateT Source (Except ScriptError)

namespace Reading

def fail {α : Type} (f : ScriptFault) : Reading α := do
  let s ← get
  throw ⟨s.line, f⟩

def advance (rest : List Char) (lines : Nat) : Reading Unit :=
  modify fun s => { s with rest := rest, line := s.line + lines }

def hold (t : Token) : Reading Unit := modify fun s => { s with held := some t }

def within {α : Type} (text : List Char) (r : Reading α) : Reading α := do
  let outer ← get
  set { outer with size := max outer.size text.length, rest := text, line := 1, held := none,
                   announced := [], expanding := [] }
  let a ← r
  modify fun s =>
    { s with size := outer.size, rest := outer.rest, line := outer.line, held := outer.held,
             announced := outer.announced, expanding := outer.expanding }
  return a

end Reading

open Reading

/-- How a list of commands ends: with its line, at a word that closes it, or so that it may be empty
as well. -/
inductive Ending where
  | line
  | closing
  | clause
deriving DecidableEq

structure Nested where
  list : Ending → Reading Command
  command : Reading Command

/-! ### Words -/

inductive Context where
  | plain
  | quoted
  | document
  | braces (quoted : Bool)
  | arithmetic (depth : Nat)

namespace Context

def isQuoted : Context → Bool
  | .plain => false
  | .braces q => q
  | _ => true

def escapes (c : Char) : Context → Bool
  | .plain => true
  | .braces false => true
  | .braces true => "$`\"\\\x7d".toList.contains c
  | .document => "$`\\".toList.contains c
  | _ => "$`\"\\".toList.contains c

end Context

def isMeta (c : Char) : Bool := isBlank c || "\n;&|<>()".toList.contains c

def newlinesIn (cs : List Char) : Nat := cs.count '\n'

def dropJoins : List Char → Nat → List Char × Nat
  | '\\' :: '\n' :: cs, n => dropJoins cs (n + 1)
  | cs, n => (cs, n)

def skipJoins : Reading Unit := do
  let s ← get
  let (rest, lines) := dropJoins s.rest 0
  advance rest lines

def consPart : Part → Word → Word
  | .text cs q, more => cs.foldr (fun c w => consChar c q w) more
  | p, more => p :: more

def special? (c : Char) : Option Parameter :=
  match c with
  | '@' => some .all
  | '*' => some .joined
  | '#' => some .count
  | '?' => some .status
  | '$' => some .process
  | '!' => some .job
  | '-' => some .flags
  | _ => none

def scanParameter (cs : List Char) : Option (Parameter × List Char) :=
  match cs with
  | [] => none
  | c :: rest =>
    if isNameStart c then
      some (.named (String.ofList (cs.takeWhile isNameChar)), cs.dropWhile isNameChar)
    else if c.isDigit then
      some (.positional (Text.digitsValue (cs.takeWhile Char.isDigit)), cs.dropWhile Char.isDigit)
    else (special? c).map fun p => (p, rest)

def scanForm (cs : List Char) : Form × List Char :=
  match cs with
  | ':' :: '-' :: rest => (.default true, rest)
  | ':' :: '=' :: rest => (.assign true, rest)
  | ':' :: '+' :: rest => (.alternative true, rest)
  | ':' :: '?' :: rest => (.require true, rest)
  | ':' :: '\x7d' :: rest => (.plain, '\x7d' :: rest)
  | '-' :: rest => (.default false, rest)
  | '=' :: rest => (.assign false, rest)
  | '+' :: rest => (.alternative false, rest)
  | '?' :: rest => (.require false, rest)
  | '#' :: '#' :: rest => (.trimStart true, rest)
  | '#' :: rest => (.trimStart false, rest)
  | '%' :: '%' :: rest => (.trimEnd true, rest)
  | '%' :: rest => (.trimEnd false, rest)
  | '\x7d' :: rest => (.plain, '\x7d' :: rest)
  | rest => (.bad, rest)

def scanBraced (cs : List Char) : Parameter × Form × List Char :=
  let simple : Parameter × Form × List Char :=
    match scanParameter cs with
    | some (p, rest) =>
      let (form, rest) := scanForm rest
      (p, form, rest)
    | none => (.count, .bad, cs)
  match cs with
  | '#' :: c :: rest =>
    if isNameChar c then
      match scanParameter (c :: rest) with
      | some (p, '\x7d' :: rest) => (p, .length, '\x7d' :: rest)
      | some (p, rest) => (p, .bad, rest)
      | none => simple
    else
      match special? c, rest with
      | some p, '\x7d' :: _ => if c = '\x7d' then simple else (p, .length, rest)
      | _, _ => simple
  | _ => simple

/-- Removes the backslashes that protect a text between backquotes; none if the text ends before
it does. -/
def scanBackquoted (quoted : Bool) : List Char → Option (List Char × List Char)
  | [] => none
  | '\x60' :: rest => some ([], rest)
  | '\\' :: '\n' :: cs => scanBackquoted quoted cs
  | '\\' :: c :: cs =>
    (scanBackquoted quoted cs).map fun (inner, rest) =>
      if c = '\\' || c = '\x60' || c = '$' || (quoted && c = '"') then (c :: inner, rest)
      else ('\\' :: c :: inner, rest)
  | c :: cs => (scanBackquoted quoted cs).map fun (inner, rest) => (c :: inner, rest)

def backquoted (nested : Nested) (quoted : Bool) : Reading Part := do
  let s ← get
  match scanBackquoted quoted s.rest with
  | none => fail .unclosedBackquote
  | some (inner, rest) =>
    let c ← within inner (nested.list .clause)
    advance rest (newlinesIn s.rest - newlinesIn rest)
    return .substitution c quoted

def parenthesized (nested : Nested) (quoted : Bool) : Reading Part := do
  let outer ← get
  set { outer with held := none, announced := [] }
  let c ← nested.list .clause
  let s ← get
  match s.held with
  | some .closeParen =>
    set { s with held := outer.held, announced := outer.announced }
    return .substitution c quoted
  | some .endOfText => fail (.unexpectedFor "end of file" "\")\"")
  | _ => fail (.unexpectedFor "word" "\")\"")

def dollar (nested : Nested) (inner : Context → Reading Word) (quoted : Bool) : Reading Part := do
  skipJoins
  let s ← get
  match s.rest with
  | '(' :: '(' :: rest =>
    advance rest 0
    let w ← inner (.arithmetic 0)
    return .arithmetic w quoted
  | '(' :: rest =>
    advance rest 0
    parenthesized nested quoted
  | '\x7b' :: rest =>
    let (p, form, rest) := scanBraced rest
    advance rest 0
    let pattern :=
      match form with
      | .trimStart _ => true
      | .trimEnd _ => true
      | _ => false
    let w ← inner (.braces (quoted && !pattern))
    return .parameter p form w quoted
  | c :: rest =>
    if isNameStart c then
      advance (s.rest.dropWhile isNameChar) 0
      return .parameter (.named (String.ofList (s.rest.takeWhile isNameChar))) .plain [] quoted
    else if c.isDigit then
      advance rest 0
      return .parameter (.positional (Text.digitValue c)) .plain [] quoted
    else
      match special? c with
      | some p =>
        advance rest 0
        return .parameter p .plain [] quoted
      | none => return .text ['$'] quoted
  | [] => return .text ['$'] quoted

def verbatim : Reading Part := do
  let s ← get
  let inner := s.rest.takeWhile (· ≠ '\x27')
  match s.rest.dropWhile (· ≠ '\x27') with
  | _ :: rest =>
    advance rest (newlinesIn inner)
    return .text inner true
  | [] =>
    advance [] (newlinesIn inner)
    fail .unclosedQuote

def endOfContext : Context → Reading Word
  | .plain => return []
  | .document => return []
  | .quoted => fail .unclosedQuote
  | .braces true => fail .unclosedQuote
  | .braces false => fail .unclosedBrace
  | .arithmetic _ => fail .unclosedArithmetic

def parts (nested : Nested) : Nat → Context → Reading Word
  | 0, _ => fail .tooDeep
  | fuel + 1, ctx => do
    let s ← get
    let keep (c : Char) (quoted : Bool) (rest : List Char) (ctx : Context) : Reading Word := do
      advance rest (if c = '\n' then 1 else 0)
      let more ← parts nested fuel ctx
      return consChar c quoted more
    let andMore (p : Part) : Reading Word := do
      let more ← parts nested fuel ctx
      return consPart p more
    let quotation (rest : List Char) : Reading Word := do
      advance rest 0
      let inner ← parts nested fuel .quoted
      let more ← parts nested fuel ctx
      return if inner.isEmpty then .text [] true :: more else inner ++ more
    let verbatimPart (rest : List Char) : Reading Word := do
      advance rest 0
      let p ← verbatim
      let more ← parts nested fuel ctx
      return p :: more
    match s.rest with
    | [] => endOfContext ctx
    | '\\' :: '\n' :: rest =>
      advance rest 1
      parts nested fuel ctx
    | ['\\'] => keep '\\' true [] ctx
    | '\\' :: c :: rest =>
      if ctx.escapes c then keep c true rest ctx else keep '\\' true (c :: rest) ctx
    | '$' :: rest =>
      advance rest 0
      let p ← dollar nested (parts nested fuel) ctx.isQuoted
      andMore p
    | '\x60' :: rest =>
      advance rest 0
      let p ← backquoted nested ctx.isQuoted
      andMore p
    | c :: rest =>
      match ctx with
      | .plain =>
        if c = '\x27' then verbatimPart rest
        else if c = '"' then quotation rest
        else if isMeta c then return []
        else keep c false rest ctx
      | .quoted =>
        if c = '"' then
          advance rest 0
          return []
        else keep c true rest ctx
      | .document => keep c true rest ctx
      | .braces quoted =>
        if c = '\x7d' then
          advance rest 0
          return []
        else if quoted then
          if c = '"' then
            advance rest 0
            parts nested fuel ctx
          else keep c true rest ctx
        else if c = '\x27' then verbatimPart rest
        else if c = '"' then quotation rest
        else keep c false rest ctx
      | .arithmetic depth =>
        if c = '(' then keep c true rest (.arithmetic (depth + 1))
        else if c = ')' then
          if 0 < depth then keep c true rest (.arithmetic (depth - 1))
          else
            match rest with
            | ')' :: rest =>
              advance rest 0
              return []
            | rest => keep c true rest ctx
        else if c = '"' then
          advance rest 0
          parts nested fuel ctx
        else keep c true rest ctx

def readParts (nested : Nested) (ctx : Context) : Reading Word := do
  let s ← get
  parts nested s.room ctx

/-! ### Here-documents -/

/-- The lines up to the one that ends a here-document, and what follows. A line that a backslash
joins to the one before it ends nothing. -/
def documentLines (a : Announced) : Nat → Bool → List Char → List Char × List Char
  | 0, _, cs => ([], cs)
  | fuel + 1, joined, cs =>
    let line := cs.takeWhile (· ≠ '\n')
    let shown := if a.stripsTabs then line.dropWhile (· = '\t') else line
    match cs.dropWhile (· ≠ '\n') with
    | [] => if shown = a.delimiter && !joined then ([], []) else (shown, [])
    | _ :: rest =>
      if shown = a.delimiter && !joined then ([], rest)
      else
        let joins := !a.literal && (shown.reverse.takeWhile (· = '\\')).length % 2 = 1
        let (more, rest) := documentLines a fuel joins rest
        (shown ++ '\n' :: more, rest)

def readDocument (nested : Nested) (a : Announced) : Reading Unit := do
  let s ← get
  let (text, rest) := documentLines a s.room false s.rest
  let w ← if a.literal then pure [.text text true] else within text (readParts nested .document)
  modify fun s => { s with documents := s.documents ++ [(a.number, w)] }
  advance rest (newlinesIn s.rest - newlinesIn rest)

def readDocuments (nested : Nested) : List Announced → Reading Unit
  | [] => pure ()
  | a :: as => do
    readDocument nested a
    readDocuments nested as

/-! ### Tokens -/

def scanOutput (cs : List Char) : Operator × List Char :=
  match cs with
  | '>' :: rest => (.file .append, rest)
  | '|' :: rest => (.file .overwrite, rest)
  | '&' :: rest => (.copy, rest)
  | rest => (.file .write, rest)

def scanInput (cs : List Char) : Operator × List Char :=
  match cs with
  | '<' :: '-' :: rest => (.document true, rest)
  | '<' :: rest => (.document false, rest)
  | '&' :: rest => (.copy, rest)
  | '>' :: rest => (.file .both, rest)
  | rest => (.file .read, rest)

def descriptorOf? : Word → Option (Option Nat)
  | [] => some none
  | [.text [c] false] => if c.isDigit then some (some (Text.digitValue c)) else none
  | _ => none

def wordToken (nested : Nested) : Reading Token := do
  let w ← readParts nested .plain
  let s ← get
  match descriptorOf? w, s.rest with
  | some d, '>' :: rest =>
    let (rest, lines) := dropJoins rest 0
    let (operator, rest) := scanOutput rest
    advance rest lines
    return .redirect (d.getD 1) operator
  | some d, '<' :: rest =>
    let (rest, lines) := dropJoins rest 0
    let (operator, rest) := scanInput rest
    advance rest lines
    return .redirect (d.getD 0) operator
  | _, _ => return .word w

def skipBlanks : Nat → Reading Unit
  | 0 => pure ()
  | fuel + 1 => do
    let s ← get
    match s.rest with
    | '\\' :: '\n' :: rest =>
      advance rest 1
      skipBlanks fuel
    | '#' :: rest => advance (rest.dropWhile (· ≠ '\n')) 0
    | c :: rest =>
      if isBlank c then
        advance rest 0
        skipBlanks fuel
    | [] => pure ()

def doubled (c : Char) (once twice : Token) (rest : List Char) : Reading Token := do
  let (rest, lines) := dropJoins rest 0
  match rest with
  | d :: more =>
    if d = c then
      advance more lines
      return twice
    else
      advance rest lines
      return once
  | [] =>
    advance rest lines
    return once

def markStart : Reading Unit :=
  modify fun s =>
    if s.expanding.isEmpty then { s with behindBlank := false }
    else
      let start := s.rest.length
      let (ended, left) := s.expanding.partition fun e => start ≤ e.behind
      { s with expanding := left, start := start, behindBlank := ended.any fun e => e.blank }

def freshToken (nested : Nested) : Reading Token := do
  let s ← get
  skipBlanks s.room
  markStart
  let s ← get
  match s.rest with
  | [] => return .endOfText
  | '\n' :: rest =>
    set { s with rest := rest, line := s.line + 1, announced := [] }
    readDocuments nested s.announced
    return .newline
  | '&' :: rest => doubled '&' .ampersand .doubleAmpersand rest
  | '|' :: rest => doubled '|' .bar .doubleBar rest
  | ';' :: rest => doubled ';' .semicolon .doubleSemicolon rest
  | '(' :: rest =>
    advance rest 0
    return .openParen
  | ')' :: rest =>
    advance rest 0
    return .closeParen
  | _ => wordToken nested

def keywords : List String := [
  "!", "case", "do", "done", "elif", "else", "esac", "fi", "for", "if", "in", "then", "until",
  "while", "\x7b", "\x7d"]

def closingKeywords : List String :=
  ["do", "done", "elif", "else", "esac", "fi", "then", "\x7d"]

namespace Token

def keyword? : Token → Option String
  | .word w =>
    match plainText? w with
    | some s => if keywords.contains s then some s else none
    | none => none
  | _ => none

def inQuotes (s : String) : String := "\"" ++ s ++ "\""

def text (t : Token) : String :=
  match t with
  | .word _ =>
    match t.keyword? with
    | some s => inQuotes s
    | none => "word"
  | .redirect _ _ => "redirection"
  | .newline => "newline"
  | .semicolon => inQuotes ";"
  | .doubleSemicolon => inQuotes ";;"
  | .ampersand => inQuotes "&"
  | .doubleAmpersand => inQuotes "&&"
  | .bar => inQuotes "|"
  | .doubleBar => inQuotes "||"
  | .openParen => inQuotes "("
  | .closeParen => inQuotes ")"
  | .endOfText => "end of file"

def endsList (t : Token) : Bool :=
  match t with
  | .endOfText => true
  | .closeParen => true
  | .doubleSemicolon => true
  | t =>
    match t.keyword? with
    | some s => closingKeywords.contains s
    | none => false

end Token

/-! ### Aliases -/

def Source.aliasOf? (s : Source) (t : Token) : Option (String × String) :=
  match t with
  | .word w =>
    match plainText? w, t.keyword? with
    | some name, none =>
      if s.expanding.any fun e => e.name == name && e.behind < s.start then none
      else s.aliases.find? fun x => x.1 == name
    | _, _ => none
  | _ => none

def expand (x : String × String) : Reading Unit :=
  modify fun s =>
    let blank := (x.2.toList.getLast?.map isBlank).getD false
    { s with rest := x.2.toList ++ s.rest, expanding := ⟨x.1, s.rest.length, blank⟩ :: s.expanding }

/-- Reads a token; `first` says that it may be an alias, since it stands first in a command. -/
def tokenWith (nested : Nested) (first : Bool) : Nat → Reading Token
  | 0 => fail .tooDeep
  | fuel + 1 => do
    let s ← get
    let t ←
      match s.held with
      | some t => do
        set { s with held := none }
        pure t
      | none => freshToken nested
    let s ← get
    match s.aliasOf? t with
    | some x =>
      if first || s.behindBlank then
        expand x
        tokenWith nested true fuel
      else return t
    | none => return t

def readToken (nested : Nested) : Reading Token := do
  let s ← get
  tokenWith nested false s.room

def readFirst (nested : Nested) : Reading Token := do
  let s ← get
  tokenWith nested true s.room

def tokenBehindNewlines (read : Reading Token) : Nat → Reading Token
  | 0 => read
  | fuel + 1 => do
    let t ← read
    match t with
    | .newline => tokenBehindNewlines read fuel
    | t => return t

def skipToToken (nested : Nested) : Reading Token := do
  let s ← get
  tokenBehindNewlines (readToken nested) s.room

def skipToFirst (nested : Nested) : Reading Token := do
  let s ← get
  tokenBehindNewlines (readFirst nested) s.room

def unexpected {α : Type} (t : Token) : Reading α := fail (.unexpected t.text)

def unexpectedFor {α : Type} (t : Token) (expected : String) : Reading α :=
  fail (.unexpectedFor t.text (Token.inQuotes expected))

def missingParen {α : Type} (t : Token) : Reading α :=
  match t with
  | .word _ => fail (.unexpectedFor "word" (Token.inQuotes ")"))
  | t => unexpectedFor t ")"

def expectKeyword (nested : Nested) (k : String) : Reading Unit := do
  let t ← readToken nested
  if t.keyword? = some k then pure () else unexpectedFor t k

/-! ### Commands -/

def delimiterOf (w : Word) : List Char × Bool :=
  w.foldl
    (fun (cs, quoted) p =>
      match p with
      | .text more q => (cs ++ more, quoted || q)
      | .parameter (.named name) .plain _ q => (cs ++ '$' :: name.toList, quoted || q)
      | _ => (cs, quoted))
    ([], false)

def readRedirection (nested : Nested) (d : Nat) (operator : Operator) : Reading Redirection := do
  let t ← readToken nested
  match t with
  | .word w =>
    match operator with
    | .file opening => return .file d opening w
    | .copy => return .copy d w
    | .document stripsTabs =>
      let s ← get
      let (delimiter, quoted) := delimiterOf w
      let a : Announced := ⟨s.next, delimiter, quoted, stripsTabs⟩
      set { s with next := s.next + 1, announced := s.announced ++ [a] }
      return .document d s.next
  | t => unexpected t

def readRedirections (nested : Nested) : Nat → Reading (List Redirection)
  | 0 => return []
  | fuel + 1 => do
    let t ← readToken nested
    match t with
    | .redirect d operator =>
      let r ← readRedirection nested d operator
      let rs ← readRedirections nested fuel
      return r :: rs
    | t =>
      hold t
      return []

def specialCommands : List String := [
  ".", ":", "break", "continue", "eval", "exec", "exit", "export", "local", "readonly", "return",
  "set", "shift", "times", "trap", "unset"]

def readFunction (nested : Nested) (w : Word) : Reading Command := do
  let t ← readToken nested
  match t with
  | .closeParen =>
    match plainText? w with
    | some name =>
      if isName name && !specialCommands.contains name then
        let t ← skipToToken nested
        hold t
        let s ← get
        let body ← nested.command
        return .function name s.line body
      else fail .badFunctionName
    | none => fail .badFunctionName
  | t => missingParen t

/-- The words, assignments and redirections of a simple command, in any order. The words before
stand in reverse. -/
def readSimple (nested : Nested) (line : Nat) : Nat → List (String × Word) → List Word →
    List Redirection → Reading Command
  | 0, _, _, _ => fail .tooDeep
  | fuel + 1, assignments, words, redirections => do
    let t ← if words.isEmpty then readFirst nested else readToken nested
    let finish : Reading Command := do
      hold t
      return .simple line assignments words.reverse redirections
    match t with
    | .word w =>
      match assignment? w, words with
      | some a, [] => readSimple nested line fuel (assignments ++ [a]) words redirections
      | _, words => readSimple nested line fuel assignments (w :: words) redirections
    | .redirect d operator =>
      let r ← readRedirection nested d operator
      readSimple nested line fuel assignments words (redirections ++ [r])
    | .openParen =>
      match words with
      | [w] =>
        if assignments.isEmpty && redirections.isEmpty then readFunction nested w else finish
      | _ => finish
    | _ => finish

def readBranches (nested : Nested) : Nat → Reading Command
  | 0 => fail .tooDeep
  | fuel + 1 => do
    let condition ← nested.list .closing
    expectKeyword nested "then"
    let whenTrue ← nested.list .closing
    let t ← readToken nested
    match t.keyword? with
    | some "elif" =>
      let whenFalse ← readBranches nested fuel
      return .branch condition whenTrue whenFalse
    | some "else" =>
      let whenFalse ← nested.list .closing
      return .branch condition whenTrue whenFalse
    | _ =>
      hold t
      return .branch condition whenTrue .nothing

def readWords (nested : Nested) : Nat → Reading (List Word)
  | 0 => return []
  | fuel + 1 => do
    let t ← readToken nested
    match t with
    | .word w =>
      let ws ← readWords nested fuel
      return w :: ws
    | .newline => return []
    | .semicolon => return []
    | t => unexpected t

def readLoopBody (nested : Nested) : Reading Command := do
  let t ← skipToFirst nested
  if t.keyword? = some "do" then nested.list .closing else unexpectedFor t "do"

def readEach (nested : Nested) (line : Nat) : Reading Command := do
  let t ← readToken nested
  let name :=
    match t with
    | .word w => (plainText? w).getD ""
    | _ => ""
  if isName name then
    let t ← skipToToken nested
    if t.keyword? = some "in" then
      let s ← get
      let words ← readWords nested s.room
      let body ← readLoopBody nested
      return .each line name words body
    else
      match t with
      | .semicolon => pure ()
      | t => hold t
      let body ← readLoopBody nested
      return .each line name [[.parameter .all .plain [] true]] body
  else fail .badLoopVariable

def readPatterns (nested : Nested) : Nat → Token → Reading (List Word)
  | 0, _ => fail .tooDeep
  | fuel + 1, t => do
    let w :=
      match t with
      | .word w => w
      | _ => []
    let t ← readToken nested
    match t with
    | .bar =>
      let t ← readToken nested
      let ws ← readPatterns nested fuel t
      return w :: ws
    | .closeParen => return [w]
    | t => missingParen t

def readCases (nested : Nested) : Nat → Reading (List (List Word × Command))
  | 0 => fail .tooDeep
  | fuel + 1 => do
    let t ← skipToToken nested
    if t.keyword? = some "esac" then return []
    else
      let t ←
        match t with
        | .openParen => readToken nested
        | t => pure t
      let s ← get
      let patterns ← readPatterns nested s.room t
      let body ← nested.list .clause
      let t ← skipToToken nested
      match t with
      | .doubleSemicolon =>
        let cases ← readCases nested fuel
        return (patterns, body) :: cases
      | t =>
        if t.keyword? = some "esac" then return [(patterns, body)] else unexpectedFor t ";;"

def readChoice (nested : Nested) (line : Nat) : Reading Command := do
  let t ← readToken nested
  match t with
  | .word subject =>
    let t ← skipToToken nested
    if t.keyword? = some "in" then
      let s ← get
      let cases ← readCases nested s.room
      return .choice line subject cases
    else unexpectedFor t "in"
  | t => fail (.unexpectedFor t.text "word")

def readCompound (nested : Nested) (line : Nat) (keyword : String) : Reading (Option Command) := do
  let s ← get
  match keyword with
  | "if" =>
    let c ← readBranches nested s.room
    expectKeyword nested "fi"
    return some c
  | "while" =>
    let condition ← nested.list .closing
    expectKeyword nested "do"
    let body ← nested.list .closing
    expectKeyword nested "done"
    return some (.loop false condition body)
  | "until" =>
    let condition ← nested.list .closing
    expectKeyword nested "do"
    let body ← nested.list .closing
    expectKeyword nested "done"
    return some (.loop true condition body)
  | "for" =>
    let c ← readEach nested line
    expectKeyword nested "done"
    return some c
  | "case" =>
    let c ← readChoice nested line
    return some c
  | "\x7b" =>
    let c ← nested.list .closing
    expectKeyword nested "\x7d"
    return some c
  | _ => return none

def withRedirections (line : Nat) (c : Command) (rs : List Redirection) : Command :=
  if rs.isEmpty then c
  else
    match c with
    | .subshell line c _ => .subshell line c rs
    | c => .redirected line c rs

def readCommand (nested : Nested) : Reading Command := do
  let t ← readFirst nested
  let s ← get
  let compound (c : Command) : Reading Command := do
    let s' ← get
    let rs ← readRedirections nested s'.room
    return withRedirections s.line c rs
  match t with
  | .openParen =>
    let c ← nested.list .closing
    let t ← readToken nested
    match t with
    | .closeParen => compound (.subshell s.line c [])
    | t => unexpectedFor t ")"
  | .word _ =>
    match t.keyword? with
    | some k =>
      let c ← readCompound nested s.line k
      match c with
      | some c => compound c
      | none => unexpected t
    | none =>
      hold t
      readSimple nested s.line s.room [] [] []
  | .redirect _ _ =>
    hold t
    readSimple nested s.line s.room [] [] []
  | t => unexpected t

def readStages (nested : Nested) : Nat → Reading (List Command)
  | 0 => return []
  | fuel + 1 => do
    let t ← readToken nested
    match t with
    | .bar =>
      let t ← skipToFirst nested
      hold t
      let c ← readCommand nested
      let cs ← readStages nested fuel
      return c :: cs
    | t =>
      hold t
      return []

def readPipeline (nested : Nested) : Reading Command := do
  let t ← readFirst nested
  let negated := t.keyword? = some "!"
  if negated then pure () else hold t
  let first ← readCommand nested
  let s ← get
  let more ← readStages nested s.room
  let c := if more.isEmpty then first else .pipeline (first :: more)
  return if negated then .negation c else c

def readConditional (nested : Nested) : Nat → Command → Reading Command
  | 0, c => return c
  | fuel + 1, c => do
    let t ← readToken nested
    match t with
    | .doubleAmpersand =>
      let t ← skipToFirst nested
      hold t
      let d ← readPipeline nested
      readConditional nested fuel (.both c d)
    | .doubleBar =>
      let t ← skipToFirst nested
      hold t
      let d ← readPipeline nested
      readConditional nested fuel (.either c d)
    | t =>
      hold t
      return c

def readAndOr (nested : Nested) : Reading Command := do
  let c ← readPipeline nested
  let s ← get
  readConditional nested s.room c

def readList (nested : Nested) (ending : Ending) : Nat → Bool → Command → Reading Command
  | 0, _, _ => fail .tooDeep
  | fuel + 1, started, before => do
    let t ← if ending = .line then readFirst nested else skipToFirst nested
    match t with
    | .newline => return before
    | .endOfText =>
      hold t
      return before
    | t =>
      hold t
      if ending ≠ .line && (started || ending = .clause) && t.endsList then return before
      else
        let c ← readAndOr nested
        let t ← readToken nested
        match t with
        | .endOfText =>
          hold t
          return before.andThen c
        | .newline =>
          if ending = .line then return before.andThen c
          else readList nested ending fuel true (before.andThen c)
        | .ampersand => readList nested ending fuel true (before.andThen (.background c))
        | .semicolon => readList nested ending fuel true (before.andThen c)
        | t =>
          if ending = .line then unexpected t
          else
            hold t
            return before.andThen c

def nesting : Nat → Nested
  | 0 => ⟨fun _ => fail .tooDeep, fail .tooDeep⟩
  | depth + 1 =>
    ⟨fun ending => do
      let s ← get
      readList (nesting depth) ending s.room false .nothing,
      readCommand (nesting depth)⟩

def nestingLimit : Nat := 1000

def readLine : Reading (Option Command) := do
  let t ← readFirst (nesting nestingLimit)
  match t with
  | .endOfText => return none
  | .newline => return some .nothing
  | t =>
    hold t
    let c ← (nesting nestingLimit).list .line
    return some c

def Source.ofText (text : String) : Source :=
  ⟨text.length, text.toList.filter fun c => c != '\x00', 1, none, [], [], 0, [], [], 0, false⟩

end NativeUi.Shell
