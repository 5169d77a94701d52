import NativeUi.Shell.Builtin.Basic

/-!
# Commands that lead elsewhere

Leaving loops, functions and the shell, and running texts.
-/
namespace NativeUi.Shell.Builtin

open Run

def colon : Builtin := fun _ _ _ => succeed

def no : Builtin := fun _ _ _ => setStatus 1

def exit : Builtin := fun _ _ arguments => do
  match arguments with
  | [] => throw .exits
  | a :: _ =>
    let n ← number a
    setStatus n
    throw .exits

def return_ : Builtin := fun _ _ arguments => do
  match arguments with
  | [] => throw .returns
  | a :: _ =>
    let n ← number a
    setStatus n
    throw .returns

def leaveLoops (interrupt : Nat → Interrupt) : Builtin := fun _ _ arguments => do
  let n ←
    match arguments with
    | [] => pure 1
    | a :: _ => do
      let n ← number a
      if n = 0 then failWith ("Illegal number: " ++ a) else pure n
  setStatus 0
  let s ← get
  if s.loops = 0 then pure () else throw (interrupt (min n s.loops))

def shift : Builtin := fun _ _ arguments => do
  let n ←
    match arguments with
    | [] => pure 1
    | a :: _ => number a
  let s ← get
  if s.arguments.length < n then failWith "can't shift that many"
  else
    set { s with arguments := s.arguments.drop n }
    succeed

def eval : Builtin := fun next mode arguments => do
  setStatus 0
  next.text mode.tested (" ".intercalate arguments)

/-- The script that a name stands for: a path, or a file in the directories for programs. -/
def findScript? (name : String) : Run (Option String) := do
  let s ← get
  if name.toList.contains '/' then return some name
  else
    let path ← valueOr "PATH" ""
    let candidates := (path.splitOn ":").map fun d => if d.isEmpty then name else d ++ "/" ++ name
    return candidates.find? fun c => s.machine.tree.isFile (locateFrom s.dir c)

def source : Builtin := fun next mode arguments => do
  match arguments with
  | [] => succeed
  | name :: _ =>
    let script ← findScript? name
    match script with
    | none => failWith (name ++ ": not found")
    | some script =>
      let s ← get
      match Tool.readOctets s.machine.tree (locateFrom s.dir script) with
      | .error .isADirectory => succeed
      | .error .notFound => failWith ("cannot open " ++ script ++ ": No such file")
      | .error .notADirectory => failWith ("cannot open " ++ script ++ ": No such file")
      | .error e => failWith ("cannot open " ++ script ++ ": " ++ e.reason)
      | .ok text =>
        setStatus 0
        let result ← observe (speaking script (next.text mode.tested text))
        match result with
        | .error .returns => pure ()
        | result => resume result

end NativeUi.Shell.Builtin
