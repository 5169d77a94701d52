import NativeUi.Shell.Builtin.Catalog
import NativeUi.Shell.Tool.Texts

/-!
# Programs that run others

They change what another program finds when it starts, or say when and how often it runs. Such a
program runs in its process like a tool, but with the means of a shell.
-/
namespace NativeUi.Shell

abbrev Launcher := Engine → String → List String → Run Unit

namespace Launcher

open Run

def complainAs (name message : String) : Run Unit := printTo 2 (name ++ ": " ++ message ++ "\n")

def failAs (name : String) (status : Nat) (message : String) : Run Unit := do
  complainAs name message
  setStatus status

def hintFor (name : String) : String := "\nTry '" ++ name ++ " --help' for more information."

def misuseAs (name : String) (status : Nat) (message : String) : Run Unit :=
  failAs name status (message ++ hintFor name)

def faultStatus (e : FileError) : Nat := if e = .notFound then 127 else 126

def hand (next : Engine) (words : List String) (message : String → FileError → Run Unit) :
    Run Unit := do
  let e ← next.execute words
  message (words.headD "") e
  setStatus (faultStatus e)

def duration? (s : String) : Option Nat :=
  match Format.scanReal? s.toList with
  | none => none
  | some (num, den, rest) =>
    let inUnits (k : Nat) : Option Nat := some (num * 1000 * k / den)
    match rest with
    | [] => inUnits 1
    | ['s'] => inUnits 1
    | ['m'] => inUnits 60
    | ['h'] => inUnits 3600
    | ['d'] => inUnits 86400
    | _ => none

def sleep : Launcher := fun _ name arguments => do
  match (Tool.Options.flags "" []).sort true arguments with
  | .error e => misuseAs name 1 e.message
  | .ok (_, []) => misuseAs name 1 "missing operand"
  | .ok (_, arguments) =>
    match arguments.find? fun a => (duration? a).isNone with
    | some a => misuseAs name 1 ("invalid time interval " ++ Tool.quote a)
    | none =>
      sleepFor ((arguments.filterMap duration?).foldl (· + ·) 0)
      setStatus 0

/-! ### Other surroundings -/

def clearEnvironment : Run Unit :=
  modify fun s => { s with bindings := s.bindings.filter fun v => !v.exported }

def takeAssignments : List String → Run (List String)
  | [] => return []
  | w :: ws =>
    match splitArgument w with
    | (name, some value) => do
      replaceVariable ⟨name, some value, true, false⟩
      takeAssignments ws
    | _ => return w :: ws

def env : Launcher := fun next name arguments => do
  let options := (Tool.Options.flags "i0v"
    [("ignore-environment", 'i'), ("unset", 'u'), ("chdir", 'C'), ("split-string", 'S')]).withValues
    "uCS"
  match options.sort false arguments with
  | .error e => misuseAs name 125 e.message
  | .ok (given, operands) =>
    let (bare, operands) :=
      match operands with
      | "-" :: rest => (true, rest)
      | operands => (false, operands)
    if bare || Tool.has given 'i' then clearEnvironment
    forEachOf (fun x => if x.1 = 'u' then removeVariable x.2 else pure ()) given
    let s ← get
    let target := Tool.valueOf? given 'C'
    let missing := (target.map fun d => !s.machine.tree.isDirectory (locateFrom s.dir d)).getD false
    if missing then
      failAs name 125 ("cannot change directory to " ++ Tool.quote (target.getD "") ++ ": " ++
        FileError.notFound.reason)
    else
      match target with
      | some d => modify fun s => { s with dir := Builtin.absolutePath s.dir d }
      | none => pure ()
      let split := ((Tool.valueOf? given 'S').map fun t =>
        (t.splitOn " ").filter fun w => !w.isEmpty).getD []
      let words ← takeAssignments (split ++ operands)
      if words.isEmpty then
        let s ← get
        forEachOf (fun (x : String × String) => printLine (x.1 ++ "=" ++ x.2)) (environmentOf s)
        setStatus 0
      else
        hand next words fun program e =>
          complainAs name (Tool.quote program ++ ": " ++ e.reason)

def nohup : Launcher := fun next name arguments => do
  match arguments with
  | [] => misuseAs name 125 "missing operand"
  | words =>
    modify fun s => { s with traps := (1, "") :: s.traps.filter fun x => x.1 != 1 }
    hand next words fun program e =>
      complainAs name ("failed to run command " ++ Tool.quote program ++ ": " ++ e.reason)

def nice : Launcher := fun next name arguments => do
  match ((Tool.Options.flags "" [("adjustment", 'n')]).withValues "n").sort false arguments with
  | .error e => misuseAs name 125 e.message
  | .ok (_, []) =>
    printLine "0"
    setStatus 0
  | .ok (_, words) =>
    hand next words fun program e => complainAs name (Tool.quote program ++ ": " ++ e.reason)

/-! ### Time limits -/

def endLike (status : Status) : Run Unit := do
  let s ← get
  match status with
  | .exit n => setStatus n
  | .signal n => throw (.dies s.self n)

def signalOf? (s : String) : Option Nat :=
  if "SIG".toList.isPrefixOf s.toUpper.toList then
    signalNumber? (String.ofList (s.toList.drop 3))
  else signalNumber? s

def timeout : Launcher := fun next name arguments => do
  let options := (Tool.Options.flags "vfp"
    [("signal", 's'), ("kill-after", 'k'), ("preserve-status", 'p'), ("foreground", 'f'),
      ("verbose", 'v')]).withValues "sk"
  match options.sort false arguments with
  | .error e => misuseAs name 125 e.message
  | .ok (given, operands) =>
    let signal := ((Tool.valueOf? given 's').map signalOf?).getD (some 15)
    match signal, operands with
    | none, _ =>
      misuseAs name 125 (Tool.quote ((Tool.valueOf? given 's').getD "") ++ ": invalid signal")
    | some signal, limit :: word :: more =>
      match duration? limit with
      | none => misuseAs name 125 ("invalid time interval " ++ Tool.quote limit)
      | some limit =>
        let s ← get
        let start := s.machine.clock
        let (_, status) ← fork next (hand next (word :: more) fun program e =>
          complainAs name ("failed to run command " ++ Tool.quote program ++ ": " ++ e.reason))
        let s ← get
        if limit ≠ 0 && start + limit < s.machine.clock then
          set { s with machine := { s.machine with clock := start + limit } }
          if signal = 9 then throw (.dies s.self 9)
          else if Tool.has given 'p' then setStatus (128 + signal)
          else setStatus 124
        else endLike status
    | some _, _ =>
      printTo 2 ("Try '" ++ name ++ " --help' for more information.\n")
      setStatus 125

/-! ### Arguments from the input -/

structure Gathering where
  word : List Char
  started : Bool

/-- Splits a text into words at blanks; quotes and backslashes protect. None if a quote is left
open. -/
def quotedWords : Nat → Gathering → List Char → Except Char (List String)
  | 0, _, _ => .ok []
  | _, g, [] => .ok (if g.started then [String.ofList g.word.reverse] else [])
  | fuel + 1, g, c :: cs =>
    if isBlank c || c = '\n' then
      if g.started then do
        let ws ← quotedWords fuel ⟨[], false⟩ cs
        .ok (String.ofList g.word.reverse :: ws)
      else quotedWords fuel g cs
    else if c = '"' || c = '\x27' then
      let inner := cs.takeWhile fun x => x ≠ c && x ≠ '\n'
      match cs.drop inner.length with
      | d :: rest =>
        if d = c then quotedWords fuel ⟨inner.reverse ++ g.word, true⟩ rest else .error c
      | [] => .error c
    else if c = '\\' then
      match cs with
      | x :: rest => quotedWords fuel ⟨x :: g.word, true⟩ rest
      | [] => quotedWords fuel g []
    else quotedWords fuel ⟨c :: g.word, true⟩ cs

def inputWords (given : List Tool.Given) (text : String) : Except Char (List String) :=
  let split (c : Char) : List String :=
    let parts := text.splitOn c.toString
    if parts.getLast? = some "" then parts.dropLast else parts
  if Tool.has given '0' then .ok (split '\x00')
  else
    match Tool.valueOf? given 'd', Tool.has given 'I' with
    | some d, _ =>
      let d := (Format.unescape .program (d.length + 1) d.toList).1
      .ok (split (d.headD '\n'))
    | none, true =>
      .ok (((Tool.linesOf text).map fun l => String.ofList (l.toList.dropWhile isBlank)).filter
        fun l => !l.isEmpty)
    | none, false => quotedWords (text.length + 1) ⟨[], false⟩ text.toList

def groupsOf (size : Nat) : Nat → List String → List (List String)
  | 0, _ => []
  | _, [] => []
  | fuel + 1, ws => ws.take size :: groupsOf size fuel (ws.drop size)

def fillIn (mark word : String) (words : List String) : List String :=
  words.map fun w => word.intercalate (w.splitOn mark)

/-- Runs commands one after the other; the status tells of the first that stops all, or of any that
fails. -/
def runEach (next : Engine) (name : String) (shows : Bool) : Nat → List (List String) → Run Unit
  | status, [] => setStatus status
  | status, words :: more => do
    if shows then printTo 2 (" ".intercalate words ++ "\n")
    let program := words.headD ""
    let (_, result) ← fork next do
      openAt 0 .nowhere
      hand next words fun program e => complainAs name (program ++ ": " ++ e.reason)
    match result with
    | .exit 0 => runEach next name shows status more
    | .exit 127 => setStatus 127
    | .exit 126 => setStatus 126
    | .exit 255 => failAs name 124 (program ++ ": exited with status 255; aborting")
    | .exit _ => runEach next name shows 123 more
    | .signal n => failAs name 125 (program ++ ": terminated by signal " ++ Text.decimal n)

def xargs : Launcher := fun next name arguments => do
  let options := (Tool.Options.flags "0rtpxo"
    [("null", '0'), ("no-run-if-empty", 'r'), ("verbose", 't'), ("max-args", 'n'),
      ("delimiter", 'd'), ("replace", 'I'), ("max-lines", 'L'), ("max-procs", 'P')]).withValues
    "ndILPsE"
  match options.sort false arguments with
  | .error e => misuseAs name 1 e.message
  | .ok (given, operands) =>
    let input ← inputLeft
    leaveInput ""
    let command := if operands.isEmpty then ["echo"] else operands
    match inputWords given input with
    | .error c =>
      let kind := if c = '"' then "double" else "single"
      failAs name 1 ("unmatched " ++ kind ++
        " quote; by default quotes are special to xargs unless you use the -0 option")
    | .ok words =>
      let number (c : Char) : Option Nat := (Tool.valueOf? given c).bind Tool.natural?
      let calls :=
        match Tool.valueOf? given 'I', number 'n', number 'L' with
        | some mark, _, _ => words.map fun w => fillIn mark w command
        | none, some n, _ => (groupsOf (max n 1) words.length words).map fun ws => command ++ ws
        | none, none, some n =>
          let lines := (Tool.linesOf input).filter fun l => l.toList.any fun c => !isBlank c
          (groupsOf (max n 1) lines.length lines).map fun ls =>
            command ++ ls.flatMap fun l => (l.splitOn " ").filter fun w => !w.isEmpty
        | none, none, none =>
          if words.isEmpty && Tool.has given 'r' then [] else [command ++ words]
      let none_ := words.isEmpty && !Tool.has given 'r' && !Tool.has given 'I'
      runEach next name (Tool.has given 't') 0 (if calls.isEmpty && none_ then [command] else calls)

end Launcher

end NativeUi.Shell
