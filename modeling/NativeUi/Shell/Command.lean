import NativeUi.Shell.Builtin.Catalog
import NativeUi.Shell.Redirection

/-!
# Running commands

How the commands of a script run. A simple command is a function, a command of the shell or a
program; the others decide what runs next.
-/
namespace NativeUi.Shell.Run

def checkFailure (mode : Mode) : Run Unit := do
  let s ← get
  if s.status ≠ 0 && !mode.tested && s.options.contains 'e' then throw .exits else pure ()

def afterCommand (next : Engine) (mode : Mode) : Run Unit := do
  checkSignals next
  checkFailure mode

/-! ### Programs -/

def programFault (name : String) (e : FileError) : Nat × String :=
  if e = .notFound || e = .notADirectory then (127, name ++ ": not found")
  else if e = .nameTooLong || e = .tooManyLinks then (127, name ++ ": " ++ e.reason)
  else (126, name ++ ": " ++ e.reason)

def replace (next : Engine) (words : List String) : Run Unit := do
  let found ← findProgram (words.headD "")
  let e ←
    match found with
    | .ok _ => next.execute words
    | .error e => pure e
  let (status, message) := programFault (words.headD "") e
  warn status message
  throw .exits

def runProgram (next : Engine) (mode : Mode) (words : List String) : Run Unit := do
  let name := words.headD ""
  let found ← findProgram name
  let isPath := name.toList.contains '/'
  match found, isPath with
  | .error e, false => warn 127 (programFault name e).2
  | _, _ =>
    let trapped ← hasTraps
    if mode.last && !trapped then replace next words else await next (replace next words)

/-! ### Functions -/

def callLimit : Nat := 1000

def callFunction (next : Engine) (mode : Mode) (body : Command) (arguments : List String) :
    Run Unit := do
  let before ← get
  if before.functionDepth = callLimit then
    failWith ("Maximum function recursion depth (" ++ Text.decimal callLimit ++ ") reached")
  set { before with
    arguments := arguments, functionDepth := before.functionDepth + 1, loops := 0, locals := [],
    optionPlace := 0 }
  let result ← observe (next.run mode.notLast body)
  let s ← get
  forEachOf restoreVariable s.locals
  modify fun s =>
    { s with
      arguments := before.arguments, functionDepth := before.functionDepth, loops := before.loops,
      locals := before.locals, optionPlace := before.optionPlace, line := before.line }
  match result with
  | .error .returns => pure ()
  | result => resume result

/-! ### Simple commands -/

inductive Callee where
  | function (body : Command)
  | builtin (run : Builtin) (special : Bool)
  | exec
  | program

def calleeOf (functions : Bool) (name : String) : Run Callee := do
  let s ← get
  let body := (s.functions.find? fun f => f.1 == name).map fun f => f.2
  if name = "exec" then return .exec
  else
    match Builtin.find? name, Builtin.isSpecial name, body with
    | some b, true, _ => return .builtin b true
    | _, _, some body => if functions then return .function body else return .program
    | some b, _, _ => return .builtin b false
    | none, _, none => return .program

def commandOptions (words : List String) : Run (Option Bool × List String) := do
  let (given, rest) ← speaking "command" (optionsOf "pvV" "" words)
  let described :=
    if Tool.has given 'V' then some true else if Tool.has given 'v' then some false else none
  return (described, rest)

def describeFirst (full : Bool) (words : List String) : Run Unit := do
  match words with
  | [] => setStatus 0
  | name :: _ =>
    let text ← Builtin.describe full name
    match text with
    | some text =>
      printLine text
      setStatus 0
    | none =>
      if full then printLine (name ++ ": not found")
      setStatus 127

def takesAssignments (name : String) : Bool := ["export", "readonly", "local"].contains name

def expandArguments (next : Engine) (assignments : Bool) : List Word → Run (List String)
  | [] => return []
  | w :: ws => do
    let first ←
      match assignments, assignment? w with
      | true, some (name, value) => do
        let text ← expandText next true value
        pure [name ++ "=" ++ text]
      | _, _ => expandWord next w
    let more ← expandArguments next assignments ws
    return first ++ more

def expandCommand (next : Engine) : List Word → Run (List String)
  | [] => return []
  | w :: ws => do
    let first ← expandWord next w
    match first with
    | [] => expandCommand next ws
    | name :: more =>
      let rest ← expandArguments next (takesAssignments name) ws
      return name :: more ++ rest

def assignAll (next : Engine) : List (String × Word) → Run Unit
  | [] => pure ()
  | (name, w) :: rest => do
    let value ← expandText next true w
    assign name value
    assignAll next rest

/-- Runs with variables that have their values only for so long, and that programs get to know. -/
def assigning (next : Engine) : List (String × Word) → Run Unit → Run Unit
  | [], r => r
  | (name, w) :: rest, r => do
    let value ← expandText next true w
    let s ← get
    let before := s.bindings.find? fun v => v.name == name
    let result ← observe do
      changeVariable name fun v => { v with value := some value, exported := true }
      assigning next rest r
    restoreVariable (name, before)
    resume result

def trace (next : Engine) (assignments : List (String × Word)) (words : List String) :
    Run Unit := do
  let shows ← hasOption 'x'
  if shows then
    let values ← assignments.mapM fun a => do
      let value ← expandText next true a.2
      pure (a.1 ++ "=" ++ value)
    let mark ← valueOr "PS4" "+ "
    printTo 2 (mark ++ " ".intercalate (values ++ words) ++ "\n")

/-- Runs a command of the shell; an error in it ends no more than the command unless it is a special
one. -/
def runBuiltin (next : Engine) (mode : Mode) (fatal : Bool) (name : String) (b : Builtin)
    (arguments : List String) : Run Unit := do
  let result ← observe (speaking name (b next mode arguments))
  match result with
  | .error .fails => if fatal then throw .fails else pure ()
  | result => resume result

def runExec (next : Engine) (arguments : List String) : Run Unit := do
  match arguments with
  | [] => setStatus 0
  | words => speaking "exec" (replace next words)

def runCallee (next : Engine) (mode : Mode) (assignments : List (String × Word))
    (targets : List Target) (fatal : Bool) (callee : Callee) (words : List String) : Run Unit := do
  let name := words.headD ""
  let arguments := words.tail
  match callee with
  | .exec =>
    let fault ← redirect targets
    match fault with
    | some message => failWith message
    | none =>
      assignAll next assignments
      trace next assignments words
      runExec next arguments
  | .builtin b special =>
    let run : Run Unit := do
      trace next assignments words
      runBuiltin next mode (special && fatal) name b arguments
    let ran ← redirecting targets
      (if special && fatal then do
        assignAll next assignments
        run
      else assigning next assignments run)
    if !ran && special && fatal then throw .fails else pure ()
  | .function body =>
    let _ ← redirecting targets (assigning next assignments do
      trace next assignments words
      callFunction next mode body arguments)
  | .program =>
    let _ ← redirecting targets (assigning next assignments do
      trace next assignments words
      runProgram next mode words)

def runSimple (next : Engine) (mode : Mode) (line : Nat) (assignments : List (String × Word))
    (words : List Word) (redirections : List Redirection) : Run Unit := do
  modify fun s => { s with line := line, substituted := 0 }
  let words ← expandCommand next words
  let targets ← targetsOf next redirections
  match words with
  | [] =>
    let ran ← redirecting targets do
      trace next assignments []
      assignAll next assignments
    if ran then
      let s ← get
      setStatus s.substituted
  | "command" :: rest =>
    let options ← observe (commandOptions rest)
    match options with
    | .error .fails => pure ()
    | .error i => throw i
    | .ok (some full, rest) =>
      let _ ← redirecting targets (describeFirst full rest)
    | .ok (none, []) =>
      let _ ← redirecting targets (setStatus 0)
    | .ok (none, name :: rest) =>
      let callee ← calleeOf false name
      runCallee next mode assignments targets false callee (name :: rest)
  | name :: _ =>
    let callee ← calleeOf true name
    runCallee next mode assignments targets true callee words

/-! ### Loops -/

def turnLimit : Nat := 1000000

def forever : Nat := 10 ^ 12

def neverEnds {α : Type} : Run α := do
  sleepFor forever
  let s ← get
  throw (.dies s.self 9)

def turn (r : Run Unit) : Run Bool := do
  let result ← observe r
  match result with
  | .ok () => return true
  | .error (.breaks n) => if n ≤ 1 then return false else throw (.breaks (n - 1))
  | .error (.continues n) => if n ≤ 1 then return true else throw (.continues (n - 1))
  | .error i => throw i

def inLoop (r : Run Unit) : Run Unit := do
  modify fun s => { s with loops := s.loops + 1 }
  let result ← observe r
  modify fun s => { s with loops := s.loops - 1 }
  resume result

/-- Turns as long as the condition asks for it. The status is that of the last turn. -/
def turns (untilTrue : Bool) (condition body : Run Unit) : Nat → Nat → Run Unit
  | 0, _ => neverEnds
  | fuel + 1, status => do
    let goesOn ← turn condition
    let n ← getStatus
    if !goesOn then pure ()
    else if (n = 0) = untilTrue then setStatus status
    else
      let goesOn ← turn body
      let n ← getStatus
      if goesOn then turns untilTrue condition body fuel n else pure ()

def turnsOver (name : String) (body : Run Unit) : List String → Run Unit
  | [] => pure ()
  | v :: vs => do
    assign name v
    let goesOn ← turn body
    if goesOn then turnsOver name body vs else pure ()

/-! ### All commands -/

def acceptsAny (next : Engine) (text : String) : List Word → Run Bool
  | [] => return false
  | w :: ws => do
    let gs ← expandGlyphs next false w
    if (Pattern.ofGlyphs gs).accepts text.toList then return true else acceptsAny next text ws

/-- Connects the output of one command with the input of the next, each in a process of its own;
all but the last are given. -/
def connectStages (next : Engine) (last : Run Unit) : List (Run Unit) → Run Unit
  | [] => await next last
  | r :: rs => do
    let text ← capture next r
    let input ← newChannel (.text text)
    let before ← get
    connect 0 input
    let result ← observe (connectStages next last rs)
    modify fun s => { s with descriptors := before.descriptors }
    resume result

mutual

def runCommand (next : Engine) : Mode → Command → Run Unit
  | _, .nothing => setStatus 0
  | mode, .simple line assignments words redirections => do
    runSimple next mode line assignments words redirections
    afterCommand next mode
  | mode, .sequence a b => do
    runCommand next mode.notLast a
    let idle ← hasOption 'n'
    if idle then pure () else runCommand next mode b
  | mode, .both a b => do
    runCommand next .test a
    let n ← getStatus
    if n = 0 then runCommand next mode b else pure ()
  | mode, .either a b => do
    runCommand next .test a
    let n ← getStatus
    if n = 0 then pure () else runCommand next mode b
  | _, .negation c => do
    runCommand next .test c
    let n ← getStatus
    setStatus (if n = 0 then 1 else 0)
  | mode, .pipeline commands => do
    let stages := runStages next ⟨mode.tested, true⟩ commands
    connectStages next (stages.getLastD (pure ())) stages.dropLast
    afterCommand next mode
  | mode, .background c => do
    startBackground next (runCommand next ⟨false, true⟩ c)
    afterCommand next mode
  | mode, .subshell line c redirections => do
    modify fun s => { s with line := line }
    let targets ← targetsOf next redirections
    let trapped ← hasTraps
    let inner : Run Unit := do
      let ran ← redirecting targets (runCommand next ⟨mode.tested, true⟩ c)
      if ran then pure () else throw .exits
    if mode.last && !trapped then inner else await next inner
    afterCommand next mode
  | mode, .redirected line c redirections => do
    modify fun s => { s with line := line }
    let targets ← targetsOf next redirections
    let _ ← redirecting targets (runCommand next mode.notLast c)
    afterCommand next mode
  | mode, .branch condition whenTrue whenFalse => do
    runCommand next .test condition
    let n ← getStatus
    if n = 0 then runCommand next mode whenTrue else runCommand next mode whenFalse
  | mode, .loop untilTrue condition body =>
    inLoop (turns untilTrue (runCommand next .test condition) (runCommand next mode.notLast body)
      turnLimit 0)
  | mode, .each line name words body => do
    modify fun s => { s with line := line }
    let values ← expandWords next words
    setStatus 0
    inLoop (turnsOver name (runCommand next mode.notLast body) values)
  | mode, .choice line subject cases => do
    modify fun s => { s with line := line }
    let text ← expandText next false subject
    runCases next mode text cases
  | _, .function name _ body => do
    modify fun s =>
      { s with functions := (name, body) :: s.functions.filter fun f => f.1 != name }
    setStatus 0

def runStages (next : Engine) (mode : Mode) : List Command → List (Run Unit)
  | [] => []
  | c :: cs => runCommand next mode c :: runStages next mode cs

def runCases (next : Engine) (mode : Mode) (text : String) :
    List (List (List Part) × Command) → Run Unit
  | [] => setStatus 0
  | (patterns, body) :: cases => do
    let accepted ← acceptsAny next text patterns
    if accepted then runCommand next mode body else runCases next mode text cases

end

/-! ### Texts -/

/-- Runs a text line by line. What earlier lines have made known counts for reading the next. -/
def runLines (run : Command → Run Unit) : Nat → Source → Run Unit
  | 0, _ => pure ()
  | fuel + 1, source => do
    let s ← get
    match readLine
      { source with documents := s.documents, next := s.nextDocument, aliases := s.aliases } with
    | .error e =>
      modify fun s => { s with line := e.line }
      failWith ("Syntax error: " ++ e.fault.message)
    | .ok (none, _) => pure ()
    | .ok (some c, source) =>
      modify fun s => { s with documents := source.documents, nextDocument := source.next }
      let idle ← hasOption 'n'
      if idle || c.isNothing then pure () else run c
      runLines run fuel source

def runText (run : Mode → Command → Run Unit) (tested : Bool) (text : String) : Run Unit := do
  let s ← get
  runLines (run ⟨tested, false⟩) ((text.length + 1) ^ 2) (Source.ofText text)
  modify fun t => { t with line := s.line }

end NativeUi.Shell.Run
