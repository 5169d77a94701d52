import NativeUi.Shell.Tool.Texts

/-!
# Filling paragraphs

Lines of one indentation are a paragraph. Its words are spread over new lines so that the sum of
some costs is least: lines should come near to a goal, differ little from the next one, and break
behind a sentence rather than within one.
-/
namespace NativeUi.Shell.Tool

namespace Filling

structure Token where
  text : List Char
  space : Nat
  opens : Bool
  stops : Bool
  period : Bool
  final : Bool

structure Manner where
  width : Nat
  goal : Nat
  uniform : Bool
  splitOnly : Bool
  crown : Bool
  tagged : Bool

def columnAfter (column : Nat) (blanks : List Char) : Nat :=
  blanks.foldl (fun n c => if c = '\t' then n + 8 - n % 8 else n + 1) column

def isGap (c : Char) : Bool := c = ' ' || c = '\t'

def isClosing (c : Char) : Bool := c = ')' || c = ']' || c = '\x27' || c = '"'

def isPunctuation (c : Char) : Bool := '!' ≤ c && c ≤ '~' && !c.isAlphanum

def tokenOf (text : List Char) : Token :=
  let last := text.getLastD ' '
  let ends := (text.tail.reverse.dropWhile isClosing).head?.getD (text.headD ' ')
  ⟨text, 0, "([\x27\x60\"".toList.contains (text.headD ' '), isPunctuation last,
    ".?!".toList.contains ends, false⟩

def tokens (m : Manner) : Nat → Nat → List Char → List Token
  | 0, _, _ => []
  | fuel + 1, column, cs =>
    let text := cs.takeWhile fun c => !isGap c
    if text.isEmpty then []
    else
      let rest := cs.drop text.length
      let blanks := rest.takeWhile isGap
      let start := column + text.length
      let next := columnAfter start blanks
      let more := rest.drop blanks.length
      let t := tokenOf text
      let final := t.period && (more.isEmpty || 1 < next - start)
      let space := if more.isEmpty || m.uniform then if final then 2 else 1 else next - start
      { t with space, final } :: tokens m fuel next more

/-- A line of input: its indentation and its words, and whether tabs stand before or behind the
first of them. -/
structure Line where
  indent : Nat
  words : List Token
  tabsBefore : Bool
  tabsBehind : Bool

def lineOf (m : Manner) (cs : List Char) : Line :=
  let blanks := cs.takeWhile isGap
  let column := columnAfter 0 blanks
  let rest := cs.drop blanks.length
  ⟨column, tokens m (cs.length + 1) column rest, blanks.contains '\t', rest.contains '\t'⟩

/-- A paragraph: the indentation of its first line and of the others, its words, and whether a tab
has been seen before it is written. -/
structure Paragraph where
  first : Nat
  other : Nat
  words : List Token
  tabs : Bool

def closed (words : List Token) : List Token :=
  match words.reverse with
  | t :: before => ({ t with period := true, final := true } :: before).reverse
  | [] => []

def otherIndent (m : Manner) (before first : Nat) (next : Option Line) : Nat :=
  if m.splitOnly then first
  else if m.crown then (next.map Line.indent).getD first
  else if m.tagged then
    match next with
    | some l => if l.indent ≠ first then l.indent else if before = first then
        if first = 0 then 3 else 0 else before
    | none => if before = first then if first = 0 then 3 else 0 else before
  else first

/-- The parts of a text: paragraphs, and blank lines between them. The line behind a paragraph has
been looked at up to its first word. -/
def parts (m : Manner) (tabs : Bool) : Nat → Nat → List Line → List (Option Paragraph)
  | 0, _, _ => []
  | _, _, [] => []
  | fuel + 1, before, l :: ls =>
    if l.words.isEmpty then none :: parts m (tabs || l.tabsBefore) fuel before ls
    else
      let next := ls.head?.filter fun n => !n.words.isEmpty
      let other := otherIndent m before l.indent next
      let goesOn := !m.splitOnly && !(m.tagged && next.all fun n => n.indent = l.indent)
      let more := if goesOn then
          ls.takeWhile fun n => !n.words.isEmpty && n.indent = other
        else []
      let left := ls.drop more.length
      let tabs := tabs || (l :: more).any (fun n => n.tabsBefore || n.tabsBehind) ||
        left.head?.any Line.tabsBefore
      some ⟨l.indent, other, closed (l.words ++ (more.map Line.words).flatten), tabs⟩ ::
        parts m tabs fuel other left

/-! ### Costs -/

def square (i : Int) : Int := i * i

/-- The best way on from a word: its cost, the words on the next line, and their length. -/
structure Way where
  cost : Int
  count : Nat
  length : Nat

/-- The cost of a line before a word: how far it is from the goal, and from the next line unless
that is the last one. -/
def lineCost (m : Manner) (length : Nat) (next : Option Way) (left : Nat) : Int :=
  match next with
  | none => 0
  | some w =>
    square ((m.goal - length : Int) * 10) +
      if w.count = left then 0 else square ((length - w.length : Int) * 10) / 2

def bestWay (m : Manner) : Nat → Nat → Option Way → List Token → List Way → Option Way
  | _, _, best, [], _ => best
  | count, length, best, t :: ts, ways =>
    let cost := lineCost m length ways.head? ts.length + ((ways.head?.map Way.cost).getD 0)
    let better := best.all fun b => cost < b.cost
    let best := if better then some ⟨cost, count, length⟩ else best
    match ts with
    | [] => best
    | n :: _ =>
      let longer := length + t.space + n.text.length
      if longer < m.width then bestWay m (count + 1) longer best ts ways.tail else best

def startCost (before : List Token) (t : Token) : Int :=
  let behind : Int :=
    match before with
    | p :: more =>
      if p.period then if p.final then -2500 else 360000
      else if p.stops then -1600
      else if more.head?.any Token.final then 40000 / (p.text.length + 2) else 0
    | [] => 0
  let own : Int :=
    if t.opens then -1600 else if t.final then 22500 / (t.text.length + 2) else 0
  4900 + behind + own

def ways (m : Manner) (p : Paragraph) : List Token → List Token → List Way
  | _, [] => []
  | before, t :: ts =>
    let later := ways m p (t :: before) ts
    let indent := if before.isEmpty then p.first else p.other
    match bestWay m 1 (indent + t.text.length) none (t :: ts) later with
    | some w => { w with cost := w.cost + startCost before t } :: later
    | none => later

/-! ### Lines -/

def gap (tabs : Bool) (column n : Nat) : List Char :=
  let target := column + n
  let stop := target / 8 * 8
  if tabs && column + 1 < stop then
    List.replicate (stop / 8 - column / 8) '\t' ++ List.replicate (target - stop) ' '
  else List.replicate n ' '

def lineText (tabs : Bool) : Nat → List Token → List Char
  | _, [] => []
  | _, [t] => t.text
  | column, t :: ts =>
    let behind := column + t.text.length
    t.text ++ gap tabs behind t.space ++ lineText tabs (behind + t.space) ts

def linesBy (tabs : Bool) (other : Nat) : Nat → Nat → List Token → List Way → List String
  | 0, _, _, _ => []
  | fuel + 1, indent, ts, ws =>
    match ws with
    | [] => []
    | w :: _ =>
      String.ofList (gap tabs 0 indent ++ lineText tabs indent (ts.take w.count)) ::
        linesBy tabs other fuel other (ts.drop w.count) (ws.drop w.count)

def fill (m : Manner) (text : String) : String :=
  let ls := (splitLines text.toList).map (lineOf m)
  let shown (part : Option Paragraph) : List String :=
    match part with
    | none => [""]
    | some p => linesBy p.tabs p.other (p.words.length + 1) p.first p.words (ways m p [] p.words)
  ofLines ((parts m false (ls.length + 1) 0 ls).map shown).flatten

end Filling

def fmt : Tool := fun c =>
  let arguments :=
    match c.arguments with
    | a :: rest =>
      match a.toList with
      | '-' :: d :: ds =>
        if (d :: ds).all Char.isDigit then ("-w" ++ String.ofList (d :: ds)) :: rest
        else a :: rest
      | _ => a :: rest
    | [] => []
  withOptions
    ((Options.flags "cstu" [("crown-margin", 'c'), ("split-only", 's'), ("tagged-paragraph", 't'),
      ("uniform-spacing", 'u'), ("width", 'w'), ("goal", 'g')]).withValues "wgp")
    1 (fun c given operands =>
      let number (letter : Char) : Option Nat := (valueOf? given letter).bind natural?
      let bad (letter : Char) : Bool := has given letter && (number letter).all (2500 < ·)
      if bad 'w' then failWith c 1 ("invalid width: " ++ quote ((valueOf? given 'w').getD ""))
      else if bad 'g' then
        failWith c 1 ("invalid goal: " ++ quote ((valueOf? given 'g').getD ""))
      else
        let width := (number 'w').getD (((number 'g').map (· + 10)).getD 75)
        let goal := (number 'g').getD (width * 187 / 200)
        let m : Filling.Manner :=
          ⟨width, goal, has given 'u', has given 's', has given 'c', has given 't'⟩
        overTexts c operands fun _ text => do
          print (Filling.fill m text)
          return 0)
    { c with arguments := arguments }

end NativeUi.Shell.Tool
