import NativeUi.Shell.Builtin.Aliases
import NativeUi.Shell.Builtin.Flow
import NativeUi.Shell.Builtin.Signals
import NativeUi.Shell.Builtin.Texts
import NativeUi.Shell.Builtin.Variables
import NativeUi.Shell.Reader

/-!
# The commands of the shell by name

Special commands are found before functions, the others behind them. Programs are looked for in the
directories of the variable `PATH`.
-/
namespace NativeUi.Shell

def defaultPath : String := "/usr/local/sbin:/usr/local/bin:/usr/sbin:/usr/bin:/sbin:/bin"

namespace Run

def runnable (t : FileTree) (dir path : String) : Except FileError String := do
  let (_, e) ← t.find (locateFrom dir path)
  match e with
  | .file content rights =>
    if rights.runs then .ok (Octets.ofContent content) else .error .permissionDenied
  | _ => .error .permissionDenied

/-- A program by its name: a path as it is, other names from the directories for programs. These
are the given ones if no variable names them. -/
def findProgramIn (directories : String) (name : String) : Run (Except FileError String) := do
  let s ← get
  let check (path : String) : Except FileError String :=
    (runnable s.machine.tree s.dir path).map fun _ => path
  if name.toList.contains '/' then return check name
  else
    let path ← valueOr "PATH" directories
    let candidates := (path.splitOn ":").map fun d => if d.isEmpty then name else d ++ "/" ++ name
    let results := candidates.map check
    match results.findSome? fun r => r.toOption with
    | some p => return .ok p
    | none =>
      let denied := results.any fun r =>
        match r with
        | .error .permissionDenied => true
        | _ => false
      return .error (if denied then .permissionDenied else .notFound)

def findProgram (name : String) : Run (Except FileError String) := findProgramIn "" name

end Run

namespace Builtin

open Run

def isSpecial (name : String) : Bool := specialCommands.contains name

def hash : Builtin := fun _ _ arguments => do
  let (_, names) ← optionsOf "rv" "" arguments
  setStatus 0
  forEachOf
    (fun name => do
      let program ← findProgram name
      match program with
      | .ok _ => pure ()
      | .error _ =>
        complain (name ++ ": not found")
        setStatus 1)
    names

def plain : List (String × Builtin) := [
  (":", colon), ("true", colon), ("false", no), ("exit", exit), ("return", return_),
  ("break", leaveLoops .breaks), ("continue", leaveLoops .continues), ("shift", shift),
  ("eval", eval), (".", source), ("export", export_), ("readonly", readonly), ("unset", unset),
  ("local", local_), ("set", set_), ("read", read), ("getopts", getopts), ("kill", kill),
  ("trap", trap), ("wait", wait), ("echo", echo), ("printf", printf), ("test", test false),
  ("[", test true), ("cd", cd), ("chdir", cd), ("pwd", pwd), ("umask", umask), ("ulimit", ulimit),
  ("times", times), ("hash", hash), ("jobs", colon), ("fg", colon), ("bg", colon),
  ("alias", alias_), ("unalias", unalias)]

def names : List String := plain.map Prod.fst ++ ["command", "exec", "type"]

def describe (full : Bool) (name : String) : Run (Option String) := do
  let s ← get
  let say (what : String) : Option String := some (if full then name ++ what else name)
  if keywords.contains name then return say " is a shell keyword"
  else if let some x := s.aliases.find? fun x => x.1 == name then
    return some (if full then name ++ " is an alias for " ++ x.2
      else "alias " ++ assignmentText name x.2)
  else if isSpecial name then return say " is a special shell builtin"
  else if s.functions.any fun f => f.1 == name then return say " is a shell function"
  else if names.contains name then return say " is a shell builtin"
  else
    let program ← findProgram name
    match program with
    | .ok path => return some (if full then name ++ " is " ++ path else path)
    | .error _ => return none

def type : Builtin := fun _ _ arguments => do
  setStatus 0
  forEachOf
    (fun name => do
      let text ← describe true name
      match text with
      | some text => printLine text
      | none =>
        printLine (name ++ ": not found")
        setStatus 127)
    arguments

def find? (name : String) : Option Builtin :=
  if name = "type" then some type else (plain.find? fun x => x.1 == name).map fun x => x.2

end Builtin

end NativeUi.Shell
