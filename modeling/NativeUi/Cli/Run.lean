import NativeUi.Build.Producer
import NativeUi.Cli.Help
import NativeUi.Inspect

/-!
# Running the program

A run takes arguments, an environment and a file tree to an exit status, printed texts and the tree
that it leaves.
-/
namespace NativeUi.Cli

structure Environment where
  dir : Option String
  log : Option String

structure RunResult where
  exitCode : Nat
  output : String
  errors : String
  tree : FileTree

def targetText : Option String → String
  | none => "None"
  | some s => "Some(" ++ Text.quoted s ++ ")"

def Invocation.describe (i : Invocation) : String :=
  match i.command with
  | .init => "Init"
  | .build => "Build \x7b target: " ++ targetText i.target ++ " \x7d"
  | .inspect => "Inspect \x7b target: " ++ targetText i.target ++ " \x7d"

def reportStage (s : StageReport) : Job FileTree BuildError Unit :=
  match s.output with
  | none => Job.pure ()
  | some output =>
    Job.log .debug .commandLine "stage output"
      [("target_name", s.target.name), ("output", output.text)]

def build (dir : Path) (target : Option String) : Job FileTree BuildError (List StageReport) := do
  let config ← Config.load dir
  let orchestrator ← Job.ofExcept (Orchestrator.ofConfig dir config)
  orchestrator.build target

def inspectNamed (out : Output) (dir : Path) (target : Option String) :
    Job FileTree BuildError Unit := do
  let target ← Job.ofExcept (InspectTarget.ofName target)
  inspectTo out dir target

def Invocation.job (out : Output) (i : Invocation) : Job FileTree BuildError Unit := do
  Job.log .debug .commandLine "running" [("workdir", i.dir.text), ("command", i.describe)]
  match i.command with
  | .init =>
    let _ ← Config.create i.dir
    Job.pure ()
  | .build =>
    let reports ← build i.dir i.target
    Job.forAll reportStage reports
  | .inspect => inspectNamed out i.dir i.target

def errorsOf (filter : Log.Filter) : Note → String
  | .log entry => if filter.admits entry then entry.line ++ "\n" else ""
  | .errorOutput text => text
  | .output _ => ""

def failureLine (e : BuildError) : String :=
  "[forge] error[" ++ e.code ++ "]: " ++ e.message ++ "\n"

def Environment.filter (e : Environment) : Log.Filter :=
  (e.log.map Log.Filter.ofString).getD .default

def Invocation.run (environment : Environment) (i : Invocation) (t : FileTree) : RunResult :=
  let o := i.job .unfailing t
  let output := o.printed
  let errors := String.join (o.notes.map (errorsOf environment.filter))
  match o.result with
  | .ok () => ⟨0, output, errors, o.state⟩
  | .error e => ⟨1, output, errors ++ failureLine e, o.state⟩

def usageText : String := Text.ofLines [
  "error: the arguments cannot be understood", "", "Usage: forge [OPTIONS] <COMMAND>", "",
  "For more information, try '--help'."]

def run (environment : Environment) (arguments : List String) (t : FileTree) : RunResult :=
  match Request.ofArguments environment.dir arguments with
  | .run i => i.run environment t
  | .help topic => ⟨0, topic.text environment.dir, "", t⟩
  | .version => ⟨0, versionText, "", t⟩
  | .misuse => ⟨2, "", usageText, t⟩

end NativeUi.Cli
