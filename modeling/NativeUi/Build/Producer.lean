import NativeUi.Build.Orchestrator
import NativeUi.Config
import NativeUi.Shell.Program

/-!
# The command that makes the bundle

The semantic bundle is the work of a command of the project's own, run in the working directory. The
command runs on a machine of its own, of which the project is a part.
-/
namespace NativeUi

structure Producer where
  program : String
  arguments : List String

namespace Producer

def ofCommand : List String → Except BuildError Producer
  | [] => .error (.failure "web" "semantic producer command is empty")
  | program :: arguments => .ok ⟨program, arguments⟩

/-- The words of a command end at a zero character, so that none may stand in them. -/
def hasZero (s : String) : Bool := s.toList.contains '\x00'

def words (p : Producer) : List String := (p.program :: p.arguments).map Octets.ofString

def environment : List (String × String) := [("HOME", "/root"), ("PATH", Shell.defaultPath)]

/-- The process of the command, once its working directory is known to be one and the program to be
there. -/
def start (p : Producer) (dir : Path) (t : FileTree) : Except FileError Shell.State := do
  if (dir.text :: p.program :: p.arguments).any hasZero then
    .error (.other "nul byte found in provided data")
  let (place, entry) ← t.find dir
  match entry with
  | .directory =>
    let process :=
      Shell.firstProcess (Shell.Machine.start Shell.programNames t) place environment
    match Shell.startFault? process (Octets.ofString p.program) with
    | some e => .error e
    | none => .ok process
  | _ => .error .notADirectory

def printedTo (s : Shell.Stream) (pieces : List (Shell.Stream × String)) : String :=
  Octets.toText (String.join ((pieces.filter fun x => x.1 = s).map fun x => x.2))

def notesOf (pieces : List (Shell.Stream × String)) : List Note :=
  [.output (printedTo .output pieces), .errorOutput (printedTo .errors pieces)]

def run (p : Producer) (process : Shell.State) : Job FileTree String Shell.Status :=
  fun _ =>
    let a := Shell.runToEnd process p.words
    ⟨notesOf a.printed, .ok a.status, a.tree⟩

/-- Runs the command to its end; an ending other than a success is a failure. -/
def produce (p : Producer) (dir : Path) : Job FileTree String Unit := do
  Job.log .debug .build "running semantic producer"
    [("program", p.program), ("args", Text.quotedList p.arguments)]
  let process ← Job.ask fun t => (p.start dir t).mapError fun e =>
    "failed to run `" ++ p.program ++ "`: " ++ e.message
  let status ← p.run process
  if status.isSuccess then Job.pure ()
  else Job.fail ("`" ++ p.program ++ "` exited with " ++ status.message)

end Producer

def Generator.stage (g : Generator) (dir : Path) : NativeStage FileTree :=
  ⟨.native g.platform, (g.generate dir).mapError (.ofProjectError g.platform.name)⟩

def Orchestrator.ofConfig (dir : Path) (c : Config) :
    Except BuildError (Orchestrator FileTree) := do
  let producer ← Producer.ofCommand c.build.webCommand
  let start := Orchestrator.ofProducer dir (Workspace.bundleExists dir) (producer.produce dir)
  .ok (Platform.all.foldl
    (fun o p => o.withNative
      (Generator.stage ⟨p, c.templateSource dir, c.projectOptions⟩ dir))
    start)

end NativeUi
