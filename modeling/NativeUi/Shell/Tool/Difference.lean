import NativeUi.Shell.Pattern
import NativeUi.Shell.Tool.Alignment
import NativeUi.Shell.Tool.Texts

/-!
# Differences

Comparing two files, by octets or by lines.
-/
namespace NativeUi.Shell.Tool

def signedMisuse (c : Call) (message : String) : Work Nat := do
  complain c message
  complain c ("Try '" ++ c.name ++ " --help' for more information.")
  return 2

/-! ### Octets -/

/-- The first place, counted from one, at which two texts differ, with the octets there and the
line; none if one is the start of the other. -/
def firstDifference? : Nat → Nat → List Char → List Char → Option (Nat × Nat × Char × Char)
  | place, line, a :: as, b :: bs =>
    if a = b then firstDifference? (place + 1) (if a = '\n' then line + 1 else line) as bs
    else some (place, line, a, b)
  | _, _, _, _ => none

def octal (c : Char) : String := padLeft 3 (String.ofList (Nat.toDigits 8 c.toNat))

def allDifferences : Nat → List Char → List Char → List (Nat × Char × Char)
  | place, a :: as, b :: bs =>
    if a = b then allDifferences (place + 1) as bs
    else (place, a, b) :: allDifferences (place + 1) as bs
  | _, _, _ => []

def skips (given : List Given) (rest : List String) : Nat × Nat :=
  let ofOption : List String :=
    match valueOf? given 'i' with
    | none => []
    | some v =>
      match v.splitOn ":" with
      | [one] => [one, one]
      | more => more
  let amount (k : Nat) : Nat := (((ofOption ++ rest)[k]?).bind natural?).getD 0
  (amount 0, amount 1)

def endText (name : String) (withLine : Bool) (cs : List Char) : String :=
  let lines := cs.count '\n'
  if cs.isEmpty then "EOF on " ++ name ++ " which is empty"
  else
    "EOF on " ++ name ++ " after byte " ++ Text.decimal cs.length ++
      (if !withLine then ""
      else if cs.getLast? = some '\n' then ", line " ++ Text.decimal lines
      else ", in line " ++ Text.decimal (lines + 1))

def cmpOctets (c : Call) (given : List Given) (first second : String) (as bs : List Char) :
    Work Nat := do
  let seen (x : Char) : String := String.ofList (caret x)
  let ended (withLine : Bool) : Work Nat :=
    if as.length < bs.length then failWith c 1 (endText first withLine as)
    else failWith c 1 (endText second withLine bs)
  if has given 'l' then
    let width := (Text.decimal (min as.length bs.length)).length
    forM (allDifferences 1 as bs) fun (place, a, b) =>
      printLine (padLeft width (Text.decimal place) ++ " " ++
        (if has given 'b' then
          octal a ++ " " ++ seen a ++ Text.spaces (5 - (seen a).length) ++ octal b ++ " " ++ seen b
        else octal a ++ " " ++ octal b))
    if as.length = bs.length then return 1 else ended false
  else
    match firstDifference? 1 1 as bs with
    | none => ended true
    | some (place, line, a, b) =>
      let where_ := Text.decimal place ++ ", line " ++ Text.decimal line
      if has given 'b' then
        printLine (first ++ " " ++ second ++ " differ: byte " ++ where_ ++ " is " ++
          octal a ++ " " ++ seen a ++ " " ++ octal b ++ " " ++ seen b)
      else printLine (first ++ " " ++ second ++ " differ: char " ++ where_)
      return 1

def cmp : Tool :=
  withOptions
    ((Options.flags "slb" [("silent", 's'), ("quiet", 's'), ("verbose", 'l'), ("bytes", 'n'),
      ("print-bytes", 'b'), ("ignore-initial", 'i')]).withValues "ni")
    2 fun c given operands => do
    match operands with
    | [] => signedMisuse c ("missing operand after " ++ quote c.name)
    | first :: others =>
      let second := others.headD "-"
      let a ← readOperand c first
      let b ← readOperand c second
      let quiet := has given 's'
      let (before, after) := skips given others.tail
      let limited (skip : Nat) (text : String) : List Char :=
        match (valueOf? given 'n').bind natural? with
        | some n => (text.toList.drop skip).take n
        | none => text.toList.drop skip
      match a, b with
      | .error e, _ => if quiet then return 2 else failWith c 2 (first ++ ": " ++ e.reason)
      | _, .error e => if quiet then return 2 else failWith c 2 (second ++ ": " ++ e.reason)
      | .ok a, .ok b =>
        let as := limited before a
        let bs := limited after b
        if as = bs then return 0
        else if quiet then return 1
        else cmpOctets c given first second as bs

/-! ### Lines -/

structure Hunk where
  before : Nat
  after : Nat
  removed : List String
  added : List String

def markedStart : List (String × Bool) → List String × List (String × Bool)
  | (l, true) :: ls =>
    let (more, rest) := markedStart ls
    (l :: more, rest)
  | ls => ([], ls)

def hunksFrom : Nat → Nat → Nat → List (String × Bool) → List (String × Bool) → List Hunk
  | 0, _, _, _, _ => []
  | fuel + 1, m, n, as, bs =>
    let (removed, as) := markedStart as
    let (added, bs) := markedStart bs
    let m' := m + removed.length
    let n' := n + added.length
    let rest := if as.isEmpty && bs.isEmpty then []
      else hunksFrom fuel (m' + 1) (n' + 1) as.tail bs.tail
    if removed.isEmpty && added.isEmpty then rest else ⟨m, n, removed, added⟩ :: rest

structure Likeness where
  folds : Bool
  dropsBlanks : Bool
  joinsBlanks : Bool
  dropsLastBlanks : Bool
  skipsEmpty : Bool
  skipsEnd : Bool

def joinBlanks : List Char → List Char
  | [] => []
  | c :: cs =>
    let rest := joinBlanks cs
    if c = ' ' || c = '\t' then
      match rest with
      | [] => []
      | d :: _ => if d = ' ' then rest else ' ' :: rest
    else c :: rest

def Likeness.key (o : Likeness) (l : String) : String :=
  let l := if o.folds then l.toLower else l
  if o.dropsBlanks then String.ofList (l.toList.filter fun c => c ≠ ' ' && c ≠ '\t')
  else if o.joinsBlanks then String.ofList (joinBlanks l.toList)
  else if o.dropsLastBlanks then
    String.ofList (l.toList.reverse.dropWhile fun c => c = ' ' || c = '\t').reverse
  else l

def missingEnd : String := "\n\\ No newline at end of file"

def bareLine (l : String) : String :=
  match l.splitOn missingEnd with
  | [l] => l ++ "\n"
  | ls => ls.headD ""

def markedLines (s : String) : List String :=
  let ls := linesOf s
  if s.isEmpty || endsInNewline s then ls else ls.dropLast ++ [ls.getLastD "" ++ missingEnd]

def numbersOf (keys all : List String) : Array Nat := (keys.map fun k => all.idxOf k).toArray

def Likeness.keys (o : Likeness) (s : String) : List String :=
  (if o.skipsEnd then linesOf s else markedLines s).map o.key

def hunks (o : Likeness) (horizon : Nat) (a b : String) (as bs : List String) : List Hunk :=
  let all := (o.keys a ++ o.keys b).eraseDups
  let lines := (as ++ bs).eraseDups
  let marks := Alignment.changed ⟨numbersOf as lines, numbersOf bs lines⟩
    ⟨numbersOf (o.keys a) all, numbersOf (o.keys b) all⟩ horizon
  let hs := hunksFrom (as.length + bs.length + 1) 0 0 (as.zip marks.left.toList)
    (bs.zip marks.right.toList)
  if o.skipsEmpty then hs.filter fun h => !(h.removed ++ h.added).all String.isEmpty else hs

def spanText (first count : Nat) : String :=
  if count ≤ 1 then Text.decimal first
  else Text.decimal first ++ "," ++ Text.decimal (first + count - 1)

def Hunk.command (h : Hunk) : String :=
  let old := h.removed.length
  let new := h.added.length
  if old = 0 then Text.decimal h.before ++ "a" ++ spanText (h.after + 1) new
  else if new = 0 then spanText (h.before + 1) old ++ "d" ++ Text.decimal h.after
  else spanText (h.before + 1) old ++ "c" ++ spanText (h.after + 1) new

def linesWith (start : String) (lines : List String) : String :=
  String.join (lines.map fun l => start ++ l ++ "\n")

def Hunk.text (h : Hunk) : String :=
  h.command ++ "\n" ++ linesWith "< " h.removed ++
    (if h.removed.isEmpty || h.added.isEmpty then "" else "---\n") ++ linesWith "> " h.added

def Hunk.editText (h : Hunk) : String :=
  let old := h.removed.length
  if h.added.isEmpty then spanText (h.before + 1) old ++ "d\n"
  else
    (if old = 0 then Text.decimal h.before ++ "a" else spanText (h.before + 1) old ++ "c") ++
      "\n" ++ linesWith "" h.added ++ ".\n"

def Hunk.stepText (h : Hunk) : String :=
  let step (letter : String) (place count : Nat) : String :=
    letter ++ Text.decimal place ++ " " ++ Text.decimal count ++ "\n"
  (if h.removed.isEmpty then "" else step "d" (h.before + 1) h.removed.length) ++
    if h.added.isEmpty then ""
    else step "a" (h.before + h.removed.length) h.added.length ++
      String.join (h.added.map bareLine)

/-! ### Hunks in their surroundings -/

def groupHunks (context : Nat) : List Hunk → List (List Hunk)
  | [] => []
  | h :: hs =>
    match groupHunks context hs with
    | (g :: gs) :: groups =>
      if g.before ≤ h.before + h.removed.length + 2 * context then (h :: g :: gs) :: groups
      else [h] :: (g :: gs) :: groups
    | groups => [h] :: groups

structure Stretch where
  first : Nat
  last : Nat

def stretchOf (context size : Nat) (place count : Hunk → Nat) (group : List Hunk) : Stretch :=
  match group.head?, group.getLast? with
  | some a, some b => ⟨place a - context, min (place b + count b + context) size⟩
  | _, _ => ⟨0, 0⟩

def oldStretch (context size : Nat) : List Hunk → Stretch :=
  stretchOf context size Hunk.before fun h => h.removed.length

def newStretch (context size : Nat) : List Hunk → Stretch :=
  stretchOf context size Hunk.after fun h => h.added.length

def slice (lines : List String) (start stop : Nat) : List String :=
  (lines.drop start).take (stop - start)

def Stretch.unified (s : Stretch) : String :=
  let n := s.last - s.first
  if n = 0 then Text.decimal s.first ++ ",0"
  else if n = 1 then Text.decimal (s.first + 1)
  else Text.decimal (s.first + 1) ++ "," ++ Text.decimal n

def unifiedLines (as : List String) (stop : Nat) : Nat → List Hunk → String
  | place, [] => linesWith " " (slice as place stop)
  | place, h :: hs =>
    linesWith " " (slice as place h.before) ++ linesWith "-" h.removed ++
      linesWith "+" h.added ++ unifiedLines as stop (h.before + h.removed.length) hs

def unifiedGroup (context : Nat) (as bs : List String) (group : List Hunk) : String :=
  let old := oldStretch context as.length group
  let new := newStretch context bs.length group
  "@@ -" ++ old.unified ++ " +" ++ new.unified ++ " @@\n" ++
    unifiedLines as old.last old.first group

def Stretch.parted (s : Stretch) : String :=
  if s.last ≤ s.first + 1 then Text.decimal s.last
  else Text.decimal (s.first + 1) ++ "," ++ Text.decimal s.last

def partLines (lines : List String) (stop : Nat) (place : Hunk → Nat) (own : Hunk → List String)
    (alone : String) : Nat → List Hunk → String
  | start, [] => linesWith "  " (slice lines start stop)
  | start, h :: hs =>
    let mark := if h.removed.isEmpty || h.added.isEmpty then alone else "! "
    linesWith "  " (slice lines start (place h)) ++ linesWith mark (own h) ++
      partLines lines stop place own alone (place h + (own h).length) hs

def partedGroup (context : Nat) (as bs : List String) (group : List Hunk) : String :=
  let old := oldStretch context as.length group
  let new := newStretch context bs.length group
  "***************\n*** " ++ old.parted ++ " ****\n" ++
    (if group.any fun h => !h.removed.isEmpty then
      partLines as old.last Hunk.before Hunk.removed "- " old.first group else "") ++
    "--- " ++ new.parted ++ " ----\n" ++
    (if group.any fun h => !h.added.isEmpty then
      partLines bs new.last Hunk.after Hunk.added "+ " new.first group else "")

/-! ### Files -/

def fileTime : String := "1970-01-01 00:00:00.000000000 +0000"

/-! ### Texts side by side -/

/-- The columns of two texts side by side: how wide each is, and where the second starts. -/
structure Sides where
  half : Nat
  second : Nat

def Sides.ofWidth (width : Nat) : Sides :=
  let middle := width / 2 + 5 + width % 2
  let second := middle - middle % 8
  let half := min (second - 3) (width - second)
  ⟨half, if half = 0 then width else second⟩

/-- As much of a line as goes into a column, and the place behind it; `inner` counts what would have
been written without a bound. -/
def halfLine (bound : Nat) : Nat → Nat → List Char → List Char × Nat
  | _, outer, [] => ([], outer)
  | inner, outer, c :: cs =>
    if c = '\n' then ([], outer)
    else if c = '\t' then
      let stop := inner + 8 - inner % 8
      if inner = outer && stop < bound then
        let (more, place) := halfLine bound stop stop cs
        (c :: more, place)
      else halfLine bound stop outer cs
    else if inner < bound then
      let (more, place) := halfLine bound (inner + 1) (inner + 1) cs
      (c :: more, place)
    else halfLine bound (inner + 1) outer cs

def columnGap (first last : Nat) : String :=
  let stop := last / 8 * 8
  if first < stop then
    String.ofList (List.replicate (stop / 8 - first / 8) '\t') ++ Text.spaces (last - stop)
  else Text.spaces (last - first)

structure SideRow where
  left : Option String
  mark : Char
  right : Option String

def SideRow.text (s : Sides) (r : SideRow) : String :=
  let (left, column) := halfLine s.half 0 0 ((r.left.getD "").toList)
  let leftEnds := r.left.any endsInNewline
  let rightEnds := r.right.any endsInNewline
  let mark :=
    if r.mark = '|' && leftEnds != rightEnds then if leftEnds then '/' else '\\' else r.mark
  let middle := (s.half + s.second - 1) / 2
  let (sign, column) :=
    if mark = ' ' then ("", column) else (columnGap column middle ++ mark.toString, middle + 1)
  let right :=
    match r.right with
    | none => ""
    | some l =>
      if l = "\n" then ""
      else columnGap column s.second ++ String.ofList (halfLine s.half 0 0 l.toList).1
  String.ofList left ++ sign ++ right ++ if leftEnds || rightEnds then "\n" else ""

def changedRows : List String → List String → List SideRow
  | a :: as, b :: bs => ⟨some a, '|', some b⟩ :: changedRows as bs
  | as, [] => as.map fun a => ⟨some a, '<', none⟩
  | [], bs => bs.map fun b => ⟨none, '>', some b⟩

def commonRows (as bs : List String) : List SideRow :=
  (as.zip bs).map fun x => ⟨some x.1, ' ', some x.2⟩

def sideRows (m n : Nat) (as bs : List String) : List Hunk → List SideRow
  | [] => commonRows as bs
  | h :: hs =>
    let old := h.removed.length
    let new := h.added.length
    let as' := as.drop (h.before - m)
    let bs' := bs.drop (h.after - n)
    commonRows (as.take (h.before - m)) (bs.take (h.after - n)) ++
      changedRows (as'.take old) (bs'.take new) ++
      sideRows (h.before + old) (h.after + new) (as'.drop old) (bs'.drop new) hs

def sidesText (given : List Given) (a b : String) (hs : List Hunk) : String :=
  let s := Sides.ofWidth (((valueOf? given 'W').bind natural?).getD 130)
  let rows := sideRows 0 0 (keptLines a) (keptLines b) hs
  let rows := if has given 'S' then rows.filter fun r => r.mark ≠ ' ' else rows
  let once (r : SideRow) : SideRow :=
    if r.mark = ' ' && has given 'l' then ⟨r.left, '(', none⟩ else r
  String.join (rows.map fun r => (once r).text s)

inductive Form where
  | plain
  | edits
  | steps
  | unified
  | parted
  | sides
deriving DecidableEq

def formOf? (c : Char) : Option Form :=
  match c with
  | 'u' | 'U' => some .unified
  | 'c' | 'C' => some .parted
  | 'e' => some .edits
  | 'n' => some .steps
  | 'M' => some .plain
  | 'y' => some .sides
  | _ => none

structure Presentation where
  form : Form
  context : Nat

def Presentation.horizon (s : Presentation) : Nat :=
  match s.form with
  | .unified | .parted => s.context
  | _ => 0

def presentationOf (given : List Given) : Except String Presentation := do
  let forms := (given.filterMap fun x => formOf? x.1).eraseDups
  let texts := (given.filter fun x => "uUcC".toList.contains x.1 && x.2 ≠ "").map Prod.snd
  let explicit ← texts.mapM fun v =>
    match natural? v with
    | some n => .ok n
    | none => .error ("invalid context length " ++ quote v)
  let digits := String.ofList ((given.filter fun x => x.1.isDigit).map Prod.fst)
  let usual := if given.any fun x => "uc".toList.contains x.1 && x.2 = "" then [3] else []
  let context := (explicit ++ usual).foldl max 0
  let context :=
    match natural? digits with
    | some n => if explicit.isEmpty then n else max n context
    | none => context
  match forms with
  | [] => .ok ⟨.plain, context⟩
  | [form] => .ok ⟨form, context⟩
  | _ => .error "conflicting output style options"

def fileHeader (given : List Given) (marks : String × String) (first second : String) : String :=
  let labels := (given.filter fun x => x.1 = 'L').map Prod.snd
  let shown (k : Nat) (name : String) : String := (labels[k]?).getD (name ++ "\t" ++ fileTime)
  marks.1 ++ shown 0 first ++ "\n" ++ marks.2 ++ shown 1 second ++ "\n"

def differenceText (given : List Given) (s : Presentation) (first second a b : String)
    (as bs : List String) (hs : List Hunk) : String :=
  match s.form with
  | .sides => sidesText given a b hs
  | .plain => String.join (hs.map Hunk.text)
  | .edits => String.join (hs.reverse.map Hunk.editText)
  | .steps => String.join (hs.map Hunk.stepText)
  | .unified =>
    fileHeader given ("--- ", "+++ ") first second ++
      String.join ((groupHunks s.context hs).map (unifiedGroup s.context as bs))
  | .parted =>
    fileHeader given ("*** ", "--- ") first second ++
      String.join ((groupHunks s.context hs).map (partedGroup s.context as bs))

def endFault (c : Call) (name text : String) : Work Nat :=
  if text.isEmpty || endsInNewline text then return 0
  else failWith c 2 (name ++ ": No newline at end of file\n")

structure Request where
  given : List Given
  presentation : Presentation
  options : String

def diffTexts (c : Call) (r : Request) (announced first second a b : String) : Work Nat := do
  let asked (x : Char) : Bool := has r.given x
  let edits := r.presentation.form = .edits
  let likeness : Likeness := ⟨asked 'i', asked 'w', asked 'b', asked 'Z', asked 'B',
    edits || asked 'w' || asked 'b' || asked 'Z'⟩
  let shown (text : String) : List String := if edits then linesOf text else markedLines text
  let hs := hunks likeness r.presentation.horizon a b (shown a) (shown b)
  let ended : Work Nat :=
    if !edits then return 0
    else do
      let x ← endFault c first a
      let y ← endFault c second b
      return max x y
  let same (hs : List Hunk) : Work Unit := do
    if r.presentation.form = .sides && !asked 'q' then print (sidesText r.given a b hs)
    if asked 's' then printLine ("Files " ++ first ++ " and " ++ second ++ " are identical")
  if a = b then
    same []
    return 0
  else if !asked 'a' && (a.toList ++ b.toList).contains '\x00' then
    printLine ((if asked 'q' then "Files " else "Binary files ") ++ first ++ " and " ++ second ++
      " differ")
    return 1
  else if hs.isEmpty then
    same hs
    ended
  else if asked 'q' then
    printLine ("Files " ++ first ++ " and " ++ second ++ " differ")
    return 1
  else
    print (announced ++
      differenceText r.given r.presentation first second a b (shown a) (shown b) hs)
    let status ← ended
    return max 1 status

def withoutReturns : List Char → List Char
  | '\r' :: '\n' :: cs => '\n' :: withoutReturns cs
  | c :: cs => c :: withoutReturns cs
  | [] => []

def diffFiles (c : Call) (r : Request) (announced first second : String) : Work Nat := do
  let read (name : String) : Work (Except FileError String) := do
    let text ← readOperand c name
    match text with
    | .error .notFound => return if has r.given 'N' then .ok "" else .error .notFound
    | .ok text =>
      return .ok (if has r.given 'R' then String.ofList (withoutReturns text.toList) else text)
    | .error e => return .error e
  let a ← read first
  let b ← if first = second then pure a else read second
  match a, b with
  | .ok a, .ok b => diffTexts c r announced first second a b
  | a, b =>
    let report (name : String) (x : Except FileError String) : Work Unit :=
      match x with
      | .error e => complain c (name ++ ": " ++ e.reason)
      | .ok _ => pure ()
    report first a
    report second b
    return 2

def namesInBoth (c : Call) (given : List Given) (t : FileTree) (first second : String) :
    List String :=
  let names (dir : String) : List String :=
    match t.find (c.locate dir) with
    | .ok (p, .directory) => childNames t p
    | _ => []
  let left := (given.filter fun x => x.1 = 'x').map fun x => Pattern.ofText x.2
  let all := (names first ++ names second).eraseDups.filter fun n =>
    !left.any fun p => p.accepts n.toList
  all.mergeSort fun a b => a.toList ≤ b.toList

def diffDirectories (c : Call) (r : Request) : Nat → String → String → Work Nat
  | 0, _, _ => return 0
  | fuel + 1, first, second => do
    let t ← getTree
    let isDirectory (n : String) : Bool := t.isDirectory (c.locate n)
    let isThere (n : String) : Bool := t.pathExists (c.locate n)
    let fills := has r.given 'N'
    forEach
      (fun name => do
        let a := joinName first name
        let b := joinName second name
        let both := isThere a && isThere b
        if both && isDirectory a && isDirectory b then
          if has r.given 'r' then diffDirectories c r fuel a b
          else
            printLine ("Common subdirectories: " ++ a ++ " and " ++ b)
            return 0
        else if both && (isDirectory a || isDirectory b) then
          let kind (n : String) : String := if isDirectory n then "directory" else
            match readOctets t (c.locate n) with
            | .ok "" => "regular empty file"
            | _ => "regular file"
          printLine ("File " ++ a ++ " is a " ++ kind a ++ " while file " ++ b ++ " is a " ++
            kind b)
          return 1
        else if both || (fills && !isDirectory a && !isDirectory b) then
          diffFiles c r ("diff" ++ r.options ++ " " ++ a ++ " " ++ b ++ "\n") a b
        else if fills && has r.given 'r' then diffDirectories c r fuel a b
        else
          printLine ("Only in " ++ (if isThere a then first else second) ++ ": " ++ name)
          return 1)
      (namesInBoth c r.given t first second)

def diffOptions : Options :=
  (Options.flags "qsuraNwbiBcetdnpTEZHM0123456789RylS"
    [("brief", 'q'), ("report-identical-files", 's'), ("unified", 'u'), ("recursive", 'r'),
      ("ignore-case", 'i'), ("ignore-all-space", 'w'), ("ignore-space-change", 'b'),
      ("ignore-blank-lines", 'B'), ("new-file", 'N'), ("text", 'a'), ("label", 'L'), ("ed", 'e'),
      ("context", 'c'), ("minimal", 'd'), ("strip-trailing-cr", 'R'), ("rcs", 'n'),
      ("normal", 'M'), ("show-c-function", 'p'), ("expand-tabs", 't'), ("initial-tab", 'T'),
      ("ignore-trailing-space", 'Z'), ("ignore-tab-expansion", 'E'), ("exclude", 'x'),
      ("speed-large-files", 'H'), ("color", 'H'), ("side-by-side", 'y'), ("width", 'W'),
      ("left-column", 'l'), ("suppress-common-lines", 'S')]).withValues "UCLxW"

def diff : Tool := withOptions diffOptions 2 fun c given operands => do
  let options := String.join ((c.arguments.filter fun a => Options.isOption a).map
    fun a => " " ++ a)
  match presentationOf given, operands with
  | .error message, _ => signedMisuse c message
  | .ok presentation, [first, second] => do
    let t ← getTree
    let request : Request := ⟨given, presentation, options⟩
    let isDirectory (n : String) : Bool := n ≠ "-" && t.isDirectory (c.locate n)
    let isMissing (n : String) : Bool := has given 'N' && !t.pathExists (c.locate n)
    let fuel := t.slots.length + 1
    match isDirectory first, isDirectory second with
    | true, true => diffDirectories c request fuel first second
    | true, false =>
      if isMissing second then diffDirectories c request fuel first second
      else diffFiles c request "" (joinName first (lastName second)) second
    | false, true =>
      if isMissing first then diffDirectories c request fuel first second
      else diffFiles c request "" first (joinName second (lastName first))
    | false, false => diffFiles c request "" first second
  | _, [] => signedMisuse c ("missing operand after " ++ quote c.name)
  | _, [a] => signedMisuse c ("missing operand after " ++ quote a)
  | _, _ :: _ :: extra :: _ => signedMisuse c ("extra operand " ++ quote extra)

end NativeUi.Shell.Tool
