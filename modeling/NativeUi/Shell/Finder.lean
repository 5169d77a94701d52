import NativeUi.Shell.Launcher
import NativeUi.Shell.Pattern
import NativeUi.Shell.Tool.Listing

/-!
# Finding files

Walks through directories and asks of every file what an expression asks.
-/
namespace NativeUi.Shell

namespace Finder

open Run

structure Amount where
  op : Option Char
  n : Nat

def Amount.accepts (a : Amount) (n : Nat) : Bool :=
  match a.op with
  | some '+' => a.n < n
  | some _ => n < a.n
  | none => n = a.n

inductive Condition where
  | always (b : Bool)
  | name (p : Pattern) (folds : Bool)
  | path (p : Pattern)
  | kind (c : Char)
  | empty
  | kindBehind (c : Char)
  | target (p : Pattern) (folds : Bool)
  | sameAs (path : String)
  | size (a : Amount) (unit : Char)
  | names (a : Amount)
  | age (a : Amount)
  | rights (op : Option Char) (r : Rights)
  | executable
  | print (ending : String)
  | format (text : String)
  | delete
  | prune
  | quit
  | exec (words : List String)
  | collect (words : List String)
  | not (c : Condition)
  | both (a b : Condition)
  | either (a b : Condition)

structure Limits where
  least : Nat
  most : Option Nat
  depthFirst : Bool
  follows : Bool

/-- An expression that is being read: the words left, the limits, and whether something is done with
the files. -/
structure Source where
  words : List String
  limits : Limits
  acts : Bool

abbrev Reading := StateT Source (Except String)

def fail {α : Type} (message : String) : Reading α := throw message

def take? : Reading (Option String) := do
  let s ← get
  match s.words with
  | [] => return none
  | w :: ws =>
    set { s with words := ws }
    return some w

def argument (predicate : String) : Reading String := do
  let w ← take?
  match w with
  | some w => return w
  | none => fail ("missing argument to \x60" ++ predicate ++ "'")

def numberArgument (predicate : String) : Reading Nat := do
  let a ← argument predicate
  match Tool.natural? a with
  | some n => return n
  | none =>
    fail ("Expected a positive decimal integer argument to " ++ predicate ++ ", but got " ++
      Tool.quote a)

def acting : Reading Unit := modify fun s => { s with acts := true }

def execWords (predicate : String) : Nat → List String → Reading (List String × Bool)
  | 0, _ => fail ("missing argument to \x60" ++ predicate ++ "'")
  | fuel + 1, before => do
    let w ← argument predicate
    if w = ";" then return (before, false)
    else if w = "+" && before.getLast? = some "\x7b\x7d" then return (before.dropLast, true)
    else execWords predicate fuel (before ++ [w])

def amountOf (a : String) : Amount × List Char × List Char :=
  let (op, cs) :=
    match a.toList with
    | '+' :: cs => (some '+', cs)
    | '-' :: cs => (some '-', cs)
    | cs => (none, cs)
  let digits := cs.takeWhile Char.isDigit
  (⟨op, Text.digitsValue digits⟩, digits, cs.drop digits.length)

def sizeCondition (a : String) : Reading Condition :=
  match amountOf a with
  | (amount, _ :: _, []) => return .size amount 'b'
  | (amount, _ :: _, [u]) => return .size amount u
  | _ => fail ("invalid -size type")

def amountArgument (predicate : String) : Reading Amount := do
  let a ← argument predicate
  match amountOf a with
  | (amount, _ :: _, []) => return amount
  | _ => fail ("invalid argument \x60" ++ a ++ "' to \x60" ++ predicate ++ "'")

def rightsCondition (a : String) : Reading Condition := do
  let (op, mode) :=
    match a.toList with
    | '-' :: cs => (some '-', String.ofList cs)
    | '/' :: cs => (some '/', String.ofList cs)
    | _ => (none, a)
  match Tool.applyMode 0 false mode 0 with
  | some r => return .rights op r
  | none => fail ("invalid mode " ++ Tool.quote a)

def kindArgument (predicate : String) : Reading Char := do
  let a ← argument predicate
  match a.toList with
  | [c] =>
    if "fdlbcps".toList.contains c then return c
    else fail ("Unknown argument to " ++ predicate ++ ": " ++ c.toString)
  | [] => fail ("Arguments to " ++ predicate ++ " should contain at least one letter")
  | _ => fail ("Must separate multiple arguments to " ++ predicate ++ " using: ','")

def predicate (w : String) : Reading Condition := do
  match w with
  | "-name" =>
    let a ← argument w
    return .name (Pattern.ofText a) false
  | "-iname" =>
    let a ← argument w
    return .name (Pattern.ofText a.toLower) true
  | "-path" =>
    let a ← argument w
    return .path (Pattern.ofText a)
  | "-wholename" =>
    let a ← argument w
    return .path (Pattern.ofText a)
  | "-type" =>
    let c ← kindArgument w
    return .kind c
  | "-xtype" =>
    let c ← kindArgument w
    return .kindBehind c
  | "-lname" =>
    let a ← argument w
    return .target (Pattern.ofText a) false
  | "-ilname" =>
    let a ← argument w
    return .target (Pattern.ofText a.toLower) true
  | "-samefile" =>
    let a ← argument w
    return .sameAs a
  | "-links" =>
    let a ← amountArgument w
    return .names a
  | "-mtime" | "-ctime" | "-atime" | "-mmin" | "-cmin" | "-amin" =>
    let a ← amountArgument w
    return .age a
  | "-perm" =>
    let a ← argument w
    rightsCondition a
  | "-printf" =>
    acting
    let a ← argument w
    return .format a
  | "-maxdepth" =>
    let n ← numberArgument w
    modify fun s => { s with limits := { s.limits with most := some n } }
    return .always true
  | "-mindepth" =>
    let n ← numberArgument w
    modify fun s => { s with limits := { s.limits with least := n } }
    return .always true
  | "-depth" =>
    modify fun s => { s with limits := { s.limits with depthFirst := true } }
    return .always true
  | "-empty" => return .empty
  | "-size" =>
    let a ← argument w
    sizeCondition a
  | "-executable" => return .executable
  | "-readable" | "-writable" => return .always true
  | "-true" => return .always true
  | "-false" => return .always false
  | "-print" =>
    acting
    return .print "\n"
  | "-print0" =>
    acting
    return .print "\x00"
  | "-delete" =>
    acting
    modify fun s => { s with limits := { s.limits with depthFirst := true } }
    return .delete
  | "-prune" => return .prune
  | "-quit" =>
    acting
    return .quit
  | "-exec" =>
    acting
    let s ← get
    let (words, together) ← execWords w (s.words.length + 1) []
    return if together then .collect words else .exec words
  | "-follow" =>
    modify fun s => { s with limits := { s.limits with follows := true } }
    return .always true
  | "-mount" => return .always true
  | "-xdev" => return .always true
  | "-noleaf" => return .always true
  | w => fail ("unknown predicate \x60" ++ w ++ "'")

def primary (whole : Reading Condition) : Nat → Reading Condition
  | 0 => fail "too deep"
  | fuel + 1 => do
    let w ← take?
    match w with
    | none => fail "invalid expression"
    | some w =>
      if w = "!" || w = "-not" then
        let c ← primary whole fuel
        return .not c
      else if w = "(" then
        let c ← whole
        let close ← take?
        if close = some ")" then return c
        else fail "invalid expression; I was expecting to find a ')' somewhere but did not see one."
      else predicate w

def conjunction (whole : Reading Condition) : Nat → Reading Condition
  | 0 => fail "too deep"
  | fuel + 1 => do
    let s ← get
    let a ← primary whole (s.words.length + 1)
    let s ← get
    match s.words with
    | [] => return a
    | w :: rest =>
      if w = "-o" || w = "-or" || w = ")" || w = "," then return a
      else
        if w = "-a" || w = "-and" then set { s with words := rest }
        let b ← conjunction whole fuel
        return .both a b

def disjunction (whole : Reading Condition) : Nat → Reading Condition
  | 0 => fail "too deep"
  | fuel + 1 => do
    let s ← get
    let a ← conjunction whole (s.words.length + 1)
    let s ← get
    match s.words with
    | w :: rest =>
      if w = "-o" || w = "-or" then
        set { s with words := rest }
        let b ← disjunction whole fuel
        return .either a b
      else return a
    | [] => return a

def expression : Nat → Reading Condition
  | 0 => fail "too deep"
  | fuel + 1 => do
    let s ← get
    disjunction (expression fuel) (s.words.length + 1)

/-! ### Walking -/

structure Visit where
  start : String
  path : String
  depth : Nat
  entry : Entry
  place : Place

structure Walk where
  pruned : Bool
  stopped : Bool
  collected : List String
  faulty : Bool

def isEmptyEntry (t : FileTree) (v : Visit) : Bool :=
  match v.entry with
  | .directory => (t.children v.place).isEmpty
  | .file content _ => content.size = 0
  | .link _ => false

def sizeHolds (a : Amount) (unit : Char) (v : Visit) : Bool :=
  let scale := match unit with
    | 'c' => 1
    | 'w' => 2
    | 'k' => 1024
    | 'M' => 1048576
    | 'G' => 1073741824
    | _ => 512
  a.accepts ((Tool.sizeOfEntry v.entry + scale - 1) / scale)

def rightsOf : Entry → Rights
  | .file _ r => r
  | .directory => 0o755
  | .link _ => 0o777

def rightsHold (op : Option Char) (r : Rights) (e : Entry) : Bool :=
  let own := rightsOf e
  match op with
  | none => own = r
  | some '-' => own &&& r = r
  | some _ => r = 0 || own &&& r ≠ 0

def kindLetter : Entry → String
  | .directory => "d"
  | .file _ _ => "f"
  | .link _ => "l"

def holdsKind (c : Char) (e : Entry) : Bool :=
  match e with
  | .directory => c = 'd'
  | .file _ _ => c = 'f'
  | .link _ => c = 'l'

def seen? (t : FileTree) (follows : Bool) (place : Place) : Option (Place × Entry) :=
  match t.get? place, t.follow true FileTree.linkLimit [] (place.map .name) with
  | some (.link target), .ok found => if follows then some found else some (place, .link target)
  | some e, _ => some (place, e)
  | none, _ => none

def fact (t : FileTree) (v : Visit) (c : Char) : String :=
  match c with
  | 'p' => v.path
  | 'f' => Tool.lastName v.path
  | 'h' =>
    if v.path.toList.contains '/' then
      String.ofList ((v.path.toList.reverse.dropWhile (· ≠ '/')).drop 1).reverse
    else "."
  | 'P' => String.ofList ((v.path.toList.drop v.start.length).dropWhile (· = '/'))
  | 'H' => v.start
  | 'd' => Text.decimal v.depth
  | 'y' => kindLetter v.entry
  | 'Y' => ((seen? t true v.place).map fun x => kindLetter x.2).getD "N"
  | 'm' => String.ofList (Nat.toDigits 8 (rightsOf v.entry))
  | 'M' => Tool.permissions v.entry
  | 's' => Text.decimal (Tool.sizeOfEntry v.entry)
  | 'n' => Text.decimal (Tool.nameCount t v.place v.entry)
  | 'l' =>
    match v.entry with
    | .link target => Octets.ofString target
    | _ => ""
  | 'u' | 'g' => "root"
  | 'U' | 'G' => "0"
  | '%' => "%"
  | c => "%" ++ c.toString

def formatted (t : FileTree) (v : Visit) : Nat → List Char → String
  | 0, _ => ""
  | _, [] => ""
  | fuel + 1, '%' :: c :: cs => fact t v c ++ formatted t v fuel cs
  | _ + 1, '\\' :: 'c' :: _ => ""
  | fuel + 1, '\\' :: cs =>
    let (out, rest) := Format.escape .shell cs
    String.ofList out ++ formatted t v fuel rest
  | fuel + 1, c :: cs => c.toString ++ formatted t v fuel cs

def runCommandFor (next : Engine) (name : String) (words : List String) : Run Bool := do
  let (_, status) ← fork next
    (Launcher.hand next words fun program e =>
      Launcher.complainAs name (Tool.quote program ++ ": " ++ e.reason))
  return status.isSuccess

def deleteFile (name : String) (v : Visit) : Run Bool := do
  let t ← getTree
  if v.path = "." then return true
  else
    match v.entry with
    | .directory =>
      if (t.children v.place).isEmpty then
        setTree (t.prune v.place)
        return true
      else
        Launcher.complainAs name ("cannot delete " ++ Tool.quote v.path ++ ": " ++
          FileError.notEmpty.reason)
        return false
    | _ =>
      setTree (t.prune v.place)
      return true

def ask (next : Engine) (name : String) (v : Visit) : Condition → Walk → Run (Bool × Walk)
  | .always b, w => return (b, w)
  | .name p folds, w =>
    let last := Tool.lastName v.path
    return (p.accepts (if folds then last.toLower else last).toList, w)
  | .path p, w => return (p.accepts v.path.toList, w)
  | .kind c, w => return (holdsKind c v.entry, w)
  | .empty, w => do
    let t ← getTree
    return (isEmptyEntry t v, w)
  | .kindBehind c, w => do
    let t ← getTree
    let other := seen? t (t.get? v.place = some v.entry) v.place
    return ((other.map fun x => holdsKind c x.2).getD false, w)
  | .target p folds, w =>
    match v.entry with
    | .link target =>
      let text := Octets.ofString target
      return (p.accepts (if folds then text.toLower else text).toList, w)
    | _ => return (false, w)
  | .sameAs path, w => do
    let t ← getTree
    let shell ← get
    let goal := (t.find (locateFrom shell.dir path)).toOption.map Prod.fst
    return ((goal.map fun p => p = v.place || t.sameFile p v.place).getD false, w)
  | .names a, w => do
    let t ← getTree
    return (a.accepts (Tool.nameCount t v.place v.entry), w)
  | .age a, w => return (a.accepts 0, w)
  | .rights op r, w => return (rightsHold op r v.entry, w)
  | .format text, w => do
    let t ← getTree
    print (formatted t v (text.length + 1) text.toList)
    return (true, w)
  | .size a unit, w => return (sizeHolds a unit v, w)
  | .executable, w => return (Tool.isExecutable v.entry, w)
  | .print ending, w => do
    print (v.path ++ ending)
    return (true, w)
  | .delete, w => do
    let done ← deleteFile name v
    return (done, if done then w else { w with faulty := true })
  | .prune, w => return (true, { w with pruned := true })
  | .quit, w => return (true, { w with stopped := true })
  | .exec words, w => do
    let done ← runCommandFor next name (Launcher.fillIn "\x7b\x7d" v.path words)
    return (done, w)
  | .collect _, w => return (true, { w with collected := w.collected ++ [v.path] })
  | .not c, w => do
    let (b, w) ← ask next name v c w
    return (!b, w)
  | .both a b, w => do
    let (x, w) ← ask next name v a w
    if x && !w.stopped then ask next name v b w else return (x, w)
  | .either a b, w => do
    let (x, w) ← ask next name v a w
    if x || w.stopped then return (x, w) else ask next name v b w

def loopAbove? (above : List (Place × String)) (place : Place) (e : Entry) : Option String :=
  match e with
  | .directory => (above.find? fun x => x.1 = place).map Prod.snd
  | _ => none

def walk (next : Engine) (name : String) (c : Condition) (limits : Limits) (top : String) :
    Nat → List (Place × String) → String → Place → Walk → Run Walk
  | 0, _, _, _, w => return w
  | fuel + 1, above, path, start, w => do
    let t ← getTree
    let depth := above.length
    match seen? t limits.follows start with
    | none => return w
    | some (place, entry) =>
      if let some other := loopAbove? above place entry then
        Launcher.complainAs name ("File system loop detected; " ++ Tool.quote path ++
          " is part of the same file system loop as " ++ Tool.quote other ++ ".")
        return { w with faulty := true }
      let visit (w : Walk) : Run Walk := do
        if w.stopped || depth < limits.least then return w
        else
          let (_, w) ← ask next name ⟨top, path, depth, entry, start⟩ c { w with pruned := false }
          return w
      let goesDeeper :=
        match limits.most with
        | some n => depth < n
        | none => true
      let below (w : Walk) : Run Walk := do
        let isDirectory : Bool :=
          match entry with
          | .directory => true
          | _ => false
        if isDirectory && goesDeeper && !w.stopped && !(w.pruned && !limits.depthFirst) then
          (Tool.childNames t place).foldlM
            (fun w child =>
              walk next name c limits top fuel ((place, path) :: above) (Tool.joinName path child)
                (place ++ [Octets.toText child]) { w with pruned := false })
            w
        else return w
      if limits.depthFirst then
        let w ← below w
        visit w
      else
        let w ← visit { w with pruned := false }
        below w

def collector? : Condition → Option (List String)
  | .collect words => some words
  | .not c => collector? c
  | .both a b => (collector? a).or (collector? b)
  | .either a b => (collector? a).or (collector? b)
  | _ => none

def isExpressionWord (w : String) : Bool :=
  w = "!" || w = "(" || (w.toList.head? = some '-' && 1 < w.length)

end Finder

open Run in
def Launcher.find : Launcher := fun next name arguments => do
  let isSetting (a : String) : Bool := ["-H", "-L", "-P"].contains a
  let settings := arguments.takeWhile isSetting
  let follows := settings.getLast? = some "-L"
  let arguments := arguments.dropWhile isSetting
  let paths := arguments.takeWhile fun w => !Finder.isExpressionWord w
  let words := arguments.drop paths.length
  let source : Finder.Source := ⟨words, ⟨0, none, false, follows⟩, false⟩
  let read : Finder.Reading Finder.Condition :=
    if words.isEmpty then return .always true else Finder.expression (words.length + 1)
  match read source with
  | .error message => failAs name 1 message
  | .ok (c, s) =>
    match s.words with
    | w :: _ => failAs name 1 ("paths must precede expression: \x60" ++ w ++ "'")
    | [] =>
      let c := if s.acts then c else .both c (.print "\n")
      let shell ← get
      let w ← (if paths.isEmpty then ["."] else paths).foldlM
        (fun (w : Finder.Walk) path => do
          let t ← getTree
          let followsFirst := s.limits.follows || settings.getLast? = some "-H"
          let goal := locateFrom shell.dir path
          let follow := followsFirst && t.pathExists goal
          match if follow then t.find goal else t.findNamed goal with
          | .error e =>
            complainAs name (Tool.quote path ++ ": " ++ e.reason)
            return { w with faulty := true }
          | .ok (place, _) =>
            if w.stopped then return w
            else Finder.walk next name c s.limits path (t.entries.length + 2) [] path place w)
        ⟨false, false, [], false⟩
      let done ←
        match Finder.collector? c, w.collected with
        | some words, _ :: _ => Finder.runCommandFor next name (words ++ w.collected)
        | _, _ => pure true
      setStatus (if w.faulty || !done then 1 else 0)

end NativeUi.Shell
