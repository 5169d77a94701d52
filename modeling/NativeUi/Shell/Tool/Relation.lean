import NativeUi.Shell.Tool.Order

/-!
# Relations

Lines of two sorted texts that agree in a field. Both texts are read side by side; the lines of
equal fields are paired with each other, and those without a partner may be shown as well.
-/
namespace NativeUi.Shell.Tool.Relation

structure Row where
  text : String
  fields : List String

def isGap (c : Char) : Bool := c = ' ' || c = '\t'

def blankFields : Nat → List Char → List String
  | 0, _ => []
  | fuel + 1, cs =>
    let word := cs.takeWhile fun c => !isGap c
    match cs.drop word.length with
    | [] => [String.ofList word]
    | rest => String.ofList word :: blankFields fuel (rest.dropWhile isGap)

structure Rules where
  separator : Option Char
  first : Nat
  second : Nat
  folds : Bool
  filler : Option String
  shown : Option (List (Nat × Nat))

def Rules.row (r : Rules) (text : String) : Row :=
  ⟨text,
    match r.separator with
    | some c => if text.isEmpty then [] else text.splitOn c.toString
    | none =>
      match text.toList.dropWhile isGap with
      | [] => []
      | cs => blankFields (cs.length + 1) cs⟩

def Rules.key (r : Rules) (field : Nat) (row : Row) : List Char :=
  let text := (row.fields[field]?).getD ""
  (if r.folds then text.toLower else text).toList

def Rules.gap (r : Rules) : String := (r.separator.getD ' ').toString

def Rules.field (r : Rules) (row : Option Row) (field : Nat) : String :=
  match row.bind fun x => x.fields[field]? with
  | some text => if text.isEmpty then r.filler.getD "" else text
  | none => r.filler.getD ""

def othersOf (field : Nat) (row : Option Row) : List Nat :=
  match row with
  | none => []
  | some row => (List.range row.fields.length).filter (· ≠ field)

def Rules.line (r : Rules) (a b : Option Row) : String :=
  let common : String := if a.isSome then r.field a r.first else r.field b r.second
  match r.shown with
  | some fields =>
    r.gap.intercalate (fields.map fun (file, field) =>
      if file = 0 then common else if file = 1 then r.field a field else r.field b field)
  | none =>
    r.gap.intercalate (common :: (othersOf r.first a).map (r.field a) ++
      (othersOf r.second b).map (r.field b))

/-! ### Reading -/

/-- One of the texts: its name, the lines to come, how many have been read, and the last one. -/
structure Feed where
  name : String
  field : Nat
  lines : List String
  count : Nat
  last : Option Row
  warned : Bool

inductive Event where
  | line (text : String)
  | disorder (message : String)

def Feed.next (r : Rules) (checks : Bool) (f : Feed) : Option Row × Feed × List Event :=
  match f.lines with
  | [] => (none, f, [])
  | text :: lines =>
    let row := r.row text
    let disorder := checks && !f.warned &&
      match f.last with
      | some last => charsOrder (r.key f.field last) (r.key f.field row) == .gt
      | none => false
    let message := f.name ++ ":" ++ Text.decimal (f.count + 1) ++ ": is not sorted: " ++ text
    let warned := f.warned || disorder
    (some row, { f with lines, count := f.count + 1, last := some row, warned },
      if disorder then [.disorder message] else [])

def Feed.same (r : Rules) (checks : Bool) (key : List Char) :
    Nat → Feed → List Row × Option Row × Feed × List Event
  | 0, f => ([], none, f, [])
  | fuel + 1, f =>
    match f.next r checks with
    | (none, f, events) => ([], none, f, events)
    | (some row, f, events) =>
      if r.key f.field row = key then
        let (rows, next, f, more) := f.same r checks key fuel
        (row :: rows, next, f, events ++ more)
      else ([], some row, f, events)

structure Choice where
  pairs : Bool
  firstAlone : Bool
  secondAlone : Bool
  check : OrderCheck

def Choice.checks (c : Choice) (unpaired : Bool) : Bool :=
  c.check = .always || c.check = .ifUnpaired && unpaired

def Feed.drain (r : Rules) (c : Choice) (unpaired shows : Bool) (line : Row → String) :
    Nat → Feed → List Event
  | 0, _ => []
  | fuel + 1, f =>
    match f.next r (c.checks unpaired) with
    | (none, _, events) => events
    | (some row, f, events) =>
      events ++ (if shows then [.line (line row)] else []) ++
        if f.warned && !shows then [] else f.drain r c unpaired shows line fuel

def pairUp (r : Rules) (c : Choice) :
    Nat → Bool → Option Row × Feed → Option Row × Feed → List Event
  | 0, _, _, _ => []
  | fuel + 1, unpaired, (some a, f), (some b, g) =>
    match charsOrder (r.key r.first a) (r.key r.second b) with
    | .lt =>
      let (next, f, events) := f.next r (c.checks unpaired)
      (if c.firstAlone then [.line (r.line (some a) none)] else []) ++ events ++
        pairUp r c fuel true (next, f) (some b, g)
    | .gt =>
      let (next, g, events) := g.next r (c.checks unpaired)
      (if c.secondAlone then [.line (r.line none (some b))] else []) ++ events ++
        pairUp r c fuel true (some a, f) (next, g)
    | .eq =>
      let checks := c.checks unpaired
      let (as, nextA, f, eventsA) := f.same r checks (r.key r.second b) (f.lines.length + 1)
      let (bs, nextB, g, eventsB) := g.same r checks (r.key r.first a) (g.lines.length + 1)
      let lines := (a :: as).flatMap fun x =>
        (b :: bs).map fun y => Event.line (r.line (some x) (some y))
      eventsA ++ eventsB ++ (if c.pairs then lines else []) ++
        pairUp r c fuel unpaired (nextA, f) (nextB, g)
  | _, unpaired, (some a, f), (none, _) =>
    let line (x : Row) : String := r.line (some x) none
    (if c.firstAlone then [.line (line a)] else []) ++
      if !c.firstAlone && c.check = .never then []
      else f.drain r c unpaired c.firstAlone line (f.lines.length + 1)
  | _, unpaired, (none, _), (some b, g) =>
    let line (x : Row) : String := r.line none (some x)
    (if c.secondAlone then [.line (line b)] else []) ++
      if !c.secondAlone && c.check = .never then []
      else g.drain r c unpaired c.secondAlone line (g.lines.length + 1)
  | _, _, (none, _), (none, _) => []

def Rules.allFields (r : Rules) (a b : Option Row) : List (Nat × Nat) :=
  (0, 0) :: (othersOf r.first a).map (fun k => (1, k)) ++ (othersOf r.second b).map fun k => (2, k)

/-- Joins two texts; their first lines may be headings. With `fitted`, all lines have as many fields
as the first ones. -/
def joined (r : Rules) (c : Choice) (headings fitted : Bool) (f g : Feed) : List Event :=
  let (a, f, _) := f.next r false
  let (b, g, _) := g.next r false
  let r := if fitted then { r with shown := some (r.allFields a b) } else r
  let fuel := f.lines.length + g.lines.length + 3
  if headings && (a.isSome || b.isSome) then
    let (a', f, _) := Feed.next r false { f with last := none }
    let (b', g, _) := Feed.next r false { g with last := none }
    .line (r.line a b) :: pairUp r c fuel false (a', f) (b', g)
  else pairUp r c fuel false (a, f) (b, g)

/-! ### Options -/

def outputField (s : String) : Except String (Nat × Nat) :=
  match s.splitOn "." with
  | ["0"] => .ok (0, 0)
  | [file, field] =>
    if file = "1" || file = "2" then
      match natural? field with
      | some (n + 1) => .ok (if file = "1" then 1 else 2, n)
      | _ => .error ("invalid field number: " ++ quote field)
    else .error ("invalid file number in field spec: " ++ quote s)
  | _ => .error ("invalid field specifier: " ++ quote s)

def outputFields (given : List Given) : Except String (Option (List (Nat × Nat))) := do
  let texts := (given.filter fun x => x.1 = 'o').map Prod.snd
  if texts.isEmpty then .ok none
  else
    let words := (texts.flatMap fun t => (t.splitOn ",").flatMap fun w => w.splitOn " ").filter
      fun w => w ≠ ""
    let fields ← words.mapM outputField
    .ok (some fields)

def fieldOf (given : List Given) (letter : Char) : Except String Nat :=
  match valueOf? given letter, valueOf? given 'j' with
  | none, none => .ok 0
  | some v, _ | none, some v =>
    match natural? v with
    | some (n + 1) => .ok n
    | _ => .error ("invalid field number: " ++ quote v)

def separatorOf (given : List Given) : Except String (Option Char) :=
  match valueOf? given 't' with
  | none => .ok none
  | some v =>
    match v.toList with
    | [c] => .ok (some c)
    | ['\\', '0'] => .ok (some '\x00')
    | [] => .ok (some '\n')
    | _ => .error ("multi-character tab " ++ quote v)

def rulesOf (given : List Given) : Except String Rules := do
  let first ← fieldOf given '1'
  let second ← fieldOf given '2'
  let separator ← separatorOf given
  let shown ← if valueOf? given 'o' = some "auto" then .ok none else outputFields given
  .ok ⟨separator, first, second, has given 'i', valueOf? given 'e', shown⟩

def choiceOf (given : List Given) : Choice :=
  let asked (letter : Char) (n : String) : Bool := given.any fun x => x.1 = letter && x.2 = n
  ⟨!has given 'v', asked 'a' "1" || asked 'v' "1", asked 'a' "2" || asked 'v' "2",
    if has given 'k' then .always else if has given 'K' then .never else .ifUnpaired⟩

def options : Options :=
  (Options.flags "ikKhz" [("ignore-case", 'i'), ("check-order", 'k'), ("nocheck-order", 'K'),
    ("header", 'h'), ("zero-terminated", 'z')]).withValues "12jtaveo"

end Relation

def join : Tool := withOptions Relation.options 1 fun c given operands =>
  match operands, Relation.rulesOf given with
  | _, .error message => failWith c 1 message
  | [first, second], .ok rules => do
    let a ← readOperand c first
    let b ← readOperand c second
    let feed (name text : String) (field : Nat) : Relation.Feed :=
      ⟨name, field, linesOf text, 0, none, false⟩
    match a, b with
    | .error e, _ => failWith c 1 (first ++ ": " ++ e.reason)
    | _, .error e => failWith c 1 (second ++ ": " ++ e.reason)
    | .ok a, .ok b =>
      if isInputName first && isInputName second then
        failWith c 1 "both files cannot be standard input"
      else
        let choice := Relation.choiceOf given
        let automatic := valueOf? given 'o' == some "auto"
        let events := Relation.joined rules choice (has given 'h') automatic
          (feed first a rules.first) (feed second b rules.second)
        let rec tell (wrong : Bool) : List Relation.Event → Work Bool
          | [] => return wrong
          | .line text :: rest => do
            printLine text
            tell wrong rest
          | .disorder message :: rest => do
            complain c message
            if choice.check = .always then return true else tell true rest
        let wrong ← tell false events
        if !wrong then return 0
        else if choice.check = .always then return 1
        else failWith c 1 "input is not in sorted order"
  | [], _ => misuse c 1 "missing operand"
  | [a], _ => misuse c 1 ("missing operand after " ++ quote a)
  | _ :: _ :: extra :: _, _ => misuse c 1 ("extra operand " ++ quote extra)

end NativeUi.Shell.Tool
