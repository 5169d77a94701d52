import NativeUi.Shell.Command
import NativeUi.Shell.Finder
import NativeUi.Shell.Tool.Catalog

/-!
# Programs

What becomes of a process that runs a program: a tool, a program that runs others, or a shell. All
ways in which one thing runs another are tied together here, to some depth.
-/
namespace NativeUi.Shell

def launchers : List (String × Launcher) := [
  ("env", Launcher.env), ("find", Launcher.find), ("nice", Launcher.nice),
  ("nohup", Launcher.nohup), ("sleep", Launcher.sleep), ("timeout", Launcher.timeout),
  ("xargs", Launcher.xargs)]

def shellNames : List String := ["bash", "dash", "sh"]

def programNames : List String :=
  Tool.all.map Prod.fst ++ launchers.map Prod.fst ++ shellNames

namespace Run

/-! ### Tools -/

def readsFile : Run Bool := do
  let c ← channelOf? 0
  let s ← get
  match c.bind fun c => s.machine.channel? c with
  | some (.file _ _ _) => return true
  | _ => return false

def runTool (tool : Tool) (name : String) (arguments : List String) : Run Unit := do
  let s ← get
  let input ← inputLeft
  let fromFile ← readsFile
  let (status, scene) :=
    tool ⟨name, s.dir, arguments, environmentOf s, s.mask, fromFile⟩
      ⟨s.machine.tree, input, []⟩
  setTree scene.tree
  if scene.input.length = input.length then pure () else leaveInput scene.input
  forEachOf
    (fun (x : Stream × String) => printTo (if x.1 = .output then 1 else 2) x.2)
    scene.printed.reverse
  setStatus status

/-! ### Shells -/

def startVariables (s : State) : List Variable :=
  let inherited := s.bindings.filter fun v => v.exported && v.value.isSome
  let own : List Variable := [
    ⟨"IFS", some " \t\n", false, false⟩, ⟨"OPTIND", some "1", false, false⟩,
    ⟨"PPID", some (Text.decimal ((s.family.head?.map Prod.fst).getD 1)), false, false⟩,
    ⟨"PS1", some "# ", false, false⟩, ⟨"PS2", some "> ", false, false⟩,
    ⟨"PS4", some "+ ", false, false⟩, ⟨"PWD", some s.dir, true, false⟩]
  let path : List Variable :=
    if inherited.any fun v => v.name == "PATH" then []
    else [⟨"PATH", some defaultPath, false, false⟩]
  (inherited.filter fun v => !own.any fun x => x.name == v.name) ++ own ++ path

def startShell (name : String) (s : State) : State :=
  { s with
    name := name, arguments := [], bindings := startVariables s, functions := [], aliases := [],
    documents := [], nextDocument := 0, options := [], traps := inheritedTraps s.traps, status := 0,
    substituted := 0, process := s.self, background := [], line := 0, speaker := none, loops := 0,
    functionDepth := 0, locals := [], optionPlace := 0 }

/-- What a shell is asked to run: a text, with its name and arguments, or a file or the input. -/
structure Request where
  text : Bool
  operands : List String

/-- Takes the options of a shell; a text to be run is asked for by a letter of its own. -/
def shellOptions : Nat → Bool → List String → Run Request
  | 0, text, rest => return ⟨text, rest⟩
  | fuel + 1, text, arguments => do
    match arguments with
    | [] => return ⟨text, []⟩
    | a :: rest =>
      match a.toList with
      | ['-'] => return ⟨text, rest⟩
      | ['-', '-'] => return ⟨text, rest⟩
      | c :: letters =>
        if (c = '-' || c = '+') && !letters.isEmpty then
          let text := text || letters.contains 'c'
          let waits ← Builtin.setLetters (c = '-') (letters.filter fun x => x != 'c')
          match waits, rest with
          | true, name :: rest =>
            Builtin.setNamedOption (c = '-') name
            shellOptions fuel text rest
          | _, rest => shellOptions fuel text rest
        else return ⟨text, arguments⟩
      | [] => return ⟨text, arguments⟩

def runScript (next : Engine) (text : String) : Run Unit := do
  setStatus 0
  next.text false text

def runRequest (next : Engine) (arguments : List String) : Run Unit := do
  let request ← shellOptions (arguments.length + 1) false arguments
  let fromInput ← hasOption 's'
  match request.text, request.operands with
  | true, [] => failWith "-c requires an argument"
  | true, text :: rest =>
    modify fun s => { s with name := rest.headD s.name, arguments := rest.tail }
    runScript next text
  | false, operands =>
    match fromInput, operands with
    | false, file :: rest =>
      let s ← get
      match Tool.readOctets s.machine.tree (locateFrom s.dir file) with
      | .error .isADirectory => setStatus 0
      | .error e => failWith (openFault false file e)
      | .ok text =>
        modify fun s => { s with name := file, arguments := rest }
        runScript next text
    | _, operands =>
      modify fun s => { s with arguments := operands }
      let text ← inputLeft
      leaveInput ""
      runScript next text

def runShell (next : Engine) (name : String) (arguments : List String) : Run Unit := do
  modify (startShell name)
  let result ← observe (runRequest next arguments)
  let status ← finish next result
  become status

/-! ### All programs -/

def interpreter? (text : String) : Option (List String) :=
  match text.toList with
  | '#' :: '!' :: rest =>
    let line := (rest.takeWhile (· ≠ '\n')).dropWhile isBlank
    let line := (line.reverse.dropWhile isBlank).reverse
    let name := line.takeWhile fun c => !isBlank c
    let argument := (line.dropWhile fun c => !isBlank c).dropWhile isBlank
    if name.isEmpty then none
    else some (String.ofList name :: if argument.isEmpty then [] else [String.ofList argument])
  | _ => none

def programName? (text : String) : Option String :=
  if Machine.programMark.toList.isPrefixOf text.toList then
    some (String.ofList (text.toList.drop Machine.programMark.length))
  else none

def runNamed (next : Engine) (program : String) (words : List String) : Run Unit := do
  let name := words.headD program
  let arguments := words.tail
  if shellNames.contains program then runShell next name arguments
  else
    match (launchers.find? fun x => x.1 == program).map fun x => x.2 with
    | some launcher =>
      launcher next name arguments
      throw .replaced
    | none =>
      match Tool.find? program with
      | some tool =>
        runTool tool name arguments
        throw .replaced
      | none =>
        setStatus 1
        throw .replaced

def interpreterLimit : Nat := 5

/-- The program behind a path and the words that it gets. A script is a word for its interpreter,
which may be a script itself. -/
def load (t : FileTree) (dir : String) :
    Nat → String → List String → Except FileError (String × List String)
  | scripts, path, words => do
    let text ← runnable t dir path
    match programName? text, interpreter? text, scripts with
    | some program, _, _ => .ok (program, words)
    | none, some _, 0 => .error .tooManyLinks
    | none, some interpreter, scripts + 1 =>
      load t dir scripts (interpreter.headD "") (interpreter ++ path :: words.tail)
    | none, none, _ => .error .notAProgram

/-- Becomes the program that the first word names. What is no program is a script for the shell. -/
def execute (next : Engine) (words : List String) : Run FileError := do
  let found ← findProgramIn defaultPath (words.headD "")
  match found with
  | .error e => return e
  | .ok path =>
    let s ← get
    match load s.machine.tree s.dir interpreterLimit path words with
    | .ok (program, words) =>
      runNamed next program words
      throw .replaced
    | .error .notAProgram =>
      runShell next "sh" (path :: words.tail)
      throw .replaced
    | .error e => return e

def tooDeep {α : Type} : Run α := do
  let s ← get
  throw (.dies s.self 11)

def engine : Nat → Engine
  | 0 => ⟨fun _ _ => tooDeep, fun _ _ => tooDeep, fun _ => tooDeep⟩
  | depth + 1 =>
    let next := engine depth
    ⟨runCommand next, runText (runCommand next), execute next⟩

def depthLimit : Nat := 4000

end Run

/-! ### From outside -/

structure Aftermath where
  tree : FileTree
  printed : List (Stream × String)
  status : Status

def firstProcess (machine : Machine) (dir : Place) (environment : List (String × String)) : State :=
  { machine := machine, name := "", arguments := [],
    bindings := environment.map fun x => ⟨x.1, some x.2, true, false⟩, functions := [],
    aliases := [], documents := [], nextDocument := 0, descriptors := [(0, 0), (1, 1), (2, 2)],
    dir := Tool.placeText dir, options := [], traps := [],
    status := 0, substituted := 0, process := 100, self := 100, family := [], background := [], line := 0,
    speaker := none, loops := 0, functionDepth := 0, locals := [], optionPlace := 0, mask := 18 }

/-- What keeps a program from being started in a process; unlike in a shell, a file that is no
program is not taken for a script. -/
def startFault? (s : State) (program : String) : Option FileError :=
  let check : Run (Option FileError) := do
    let found ← Run.findProgramIn defaultPath program
    match found with
    | .error e => return some e
    | .ok path =>
      match Run.load s.machine.tree s.dir Run.interpreterLimit path [program] with
      | .ok _ => return none
      | .error e => return some e
  match (check s).1 with
  | .ok fault => fault
  | .error _ => none

def runToEnd (s : State) (words : List String) : Aftermath :=
  let r : Run Status := do
    let result ← Run.observe do
      let _ ← Run.execute (Run.engine Run.depthLimit) words
      pure ()
    Run.statusOf result
  let (status, s) := r s
  ⟨s.machine.project, s.machine.printed.reverse,
    match status with
    | .ok status => status
    | .error _ => .signal 9⟩

end NativeUi.Shell
