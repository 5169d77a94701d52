import NativeUi.Json.Draft
import NativeUi.Json.Numeral

/-!
# Reading JSON texts

`Document.parse` turns any text into a draft. A value is then drawn from the draft by a reader for
the type wanted, and nothing but blanks may follow it.
-/
namespace NativeUi.Json

def isSpace (c : Char) : Bool := c = ' ' || c = '\t' || c = '\n' || c = '\r'

def skipSpaces (cs : List Char) : List Char := cs.dropWhile isSpace

def depthLimit : Nat := 127

def hexValue? (c : Char) : Option Nat :=
  if c.isDigit then some (Text.digitValue c)
  else if 'a' ≤ c && c ≤ 'f' then some (c.toNat - 'a'.toNat + 10)
  else if 'A' ≤ c && c ≤ 'F' then some (c.toNat - 'A'.toNat + 10)
  else none

def hexUnit? (a b c d : Char) : Option Nat := do
  let a ← hexValue? a
  let b ← hexValue? b
  let c ← hexValue? c
  let d ← hexValue? d
  some (((a * 16 + b) * 16 + c) * 16 + d)

def unescape? (c : Char) : Option Char :=
  if c = '"' then some '"'
  else if c = '\\' then some '\\'
  else if c = '/' then some '/'
  else if c = 'b' then some '\x08'
  else if c = 'f' then some '\x0c'
  else if c = 'n' then some '\n'
  else if c = 'r' then some '\r'
  else if c = 't' then some '\t'
  else none

def byteLength (cs : List Char) : Nat := (String.ofList cs).utf8ByteSize

def hexFault (cs : List Char) : LiteralFault := if byteLength cs < 4 then .cut else .badHex

def Literal.cons (p : Piece) (r : Literal × List Char) : Literal × List Char :=
  (⟨p :: r.1.pieces, r.1.fault⟩, r.2)

def Literal.stop (f : LiteralFault) (cs : List Char) : Literal × List Char := (⟨[], some f⟩, cs)

def scanLiteral : List Char → Literal × List Char
  | [] => Literal.stop .cut []
  | '"' :: cs => (⟨[], none⟩, cs)
  | ['\\'] => Literal.stop .cut []
  | '\\' :: 'u' :: a :: b :: c :: d :: cs =>
    match hexUnit? a b c d with
    | some n => Literal.cons (.unit n) (scanLiteral cs)
    | none => Literal.stop .badHex cs
  | '\\' :: c :: cs =>
    if c = 'u' then Literal.stop (hexFault cs) []
    else
      match unescape? c with
      | some x => Literal.cons (.char x) (scanLiteral cs)
      | none => Literal.stop .badEscape cs
  | c :: cs =>
    if c.toNat < 0x20 then Literal.stop .controlCharacter cs
    else Literal.cons (.char c) (scanLiteral cs)

/-- Reads the rest of a word; the error tells whether the text ends in it. -/
def scanWord : List Char → List Char → Except Bool (List Char)
  | [], cs => .ok cs
  | _ :: _, [] => .error true
  | w :: ws, c :: cs => if c = w then scanWord ws cs else .error false

def wordDraft (d : Draft) (word cs : List Char) : Draft × List Char :=
  match scanWord word cs with
  | .ok rest => (d, rest)
  | .error cut => (.fault (.word cut), [])

def numberDraft (negative : Bool) (cs : List Char) : Draft × List Char :=
  match scanNumeral negative cs with
  | .ok (n, rest) => (.number n.number?, rest)
  | .error cut => (.fault (.number cut), [])

mutual

/-- Reads a value inside `depth` open lists and objects. Every call takes a unit of fuel; three
times the length of the text is enough of it. -/
def parseValue : Nat → Nat → List Char → Draft × List Char
  | 0, _, cs => (.fault .absent, cs)
  | fuel + 1, depth, cs =>
    match skipSpaces cs with
    | [] => (.fault .absent, [])
    | '"' :: rest =>
      let (l, rest) := scanLiteral rest
      (.string l, rest)
    | '[' :: rest =>
      let (items, ending, rest) := parseItems fuel (depth + 1) true rest
      (.list (depthLimit ≤ depth) items ending, rest)
    | '\x7b' :: rest =>
      let (members, ending, rest) := parseMembers fuel (depth + 1) true rest
      (.object (depthLimit ≤ depth) members ending, rest)
    | 'n' :: rest => wordDraft .null ['u', 'l', 'l'] rest
    | 't' :: rest => wordDraft (.bool true) ['r', 'u', 'e'] rest
    | 'f' :: rest => wordDraft (.bool false) ['a', 'l', 's', 'e'] rest
    | '-' :: rest => numberDraft true rest
    | c :: rest =>
      if c.isDigit then numberDraft false (c :: rest) else (.fault .noValue, c :: rest)
termination_by structural fuel => fuel

/-- Reads the items of a list up to its end; only the first one stands behind no comma. -/
def parseItems : Nat → Nat → Bool → List Char → List Draft × Ending × List Char
  | 0, _, _, cs => ([], .cut, cs)
  | fuel + 1, depth, first, cs =>
    match skipSpaces cs with
    | [] => ([], .cut, [])
    | ']' :: rest => ([], .closed, rest)
    | c :: rest =>
      if first then
        let (d, rest) := parseValue fuel depth (c :: rest)
        let (ds, ending, rest) := parseItems fuel depth false rest
        (d :: ds, ending, rest)
      else if c = ',' then
        match skipSpaces rest with
        | [] => ([], .commaThenCut, [])
        | ']' :: rest => ([], .commaThenClosed, rest)
        | c :: rest =>
          let (d, rest) := parseValue fuel depth (c :: rest)
          let (ds, ending, rest) := parseItems fuel depth false rest
          (d :: ds, ending, rest)
      else ([], .noComma, c :: rest)
termination_by structural fuel => fuel

def parseMembers : Nat → Nat → Bool → List Char → List (Literal × Draft) × Ending × List Char
  | 0, _, _, cs => ([], .cut, cs)
  | fuel + 1, depth, first, cs =>
    match skipSpaces cs with
    | [] => ([], .cut, [])
    | '\x7d' :: rest => ([], .closed, rest)
    | c :: rest =>
      if first then
        if c = '"' then parseMember fuel depth rest else ([], .badKey, c :: rest)
      else if c = ',' then
        match skipSpaces rest with
        | [] => ([], .commaThenCut, [])
        | '"' :: rest => parseMember fuel depth rest
        | '\x7d' :: rest => ([], .commaThenClosed, rest)
        | c :: rest => ([], .badKey, c :: rest)
      else ([], .noComma, c :: rest)
termination_by structural fuel => fuel

def parseMember : Nat → Nat → List Char → List (Literal × Draft) × Ending × List Char
  | 0, _, cs => ([], .cut, cs)
  | fuel + 1, depth, cs =>
    let (l, rest) := scanLiteral cs
    match skipSpaces rest with
    | [] => ([(l, .fault (.colon true))], .cut, [])
    | ':' :: rest =>
      let (d, rest) := parseValue fuel depth rest
      let (ms, ending, rest) := parseMembers fuel depth false rest
      ((l, d) :: ms, ending, rest)
    | c :: rest => ([(l, .fault (.colon false))], .cut, c :: rest)
termination_by structural fuel => fuel

end

structure Document where
  root : Draft
  trailing : Bool

def Document.parse (text : String) : Document :=
  let cs := text.toList
  let (root, rest) := parseValue (3 * cs.length + 3) 0 cs
  ⟨root, !(skipSpaces rest).isEmpty⟩

/-- Reads a text as a value of the type that `read` draws from a draft. -/
def readText {α : Type} (read : Draft → Except ReadError α) (text : String) :
    Except ReadError α := do
  let document := Document.parse text
  let a ← read document.root
  if document.trailing then .error .trailingCharacters
  .ok a

def parse (text : String) : Except ReadError Json := readText Draft.value text

end NativeUi.Json
