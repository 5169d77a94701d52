import NativeUi.Shell.Builtin.Basic

/-!
# Commands for processes

Signals, the answers to them, and waiting.
-/
namespace NativeUi.Shell.Builtin

open Run

def killUsage : String :=
  "Usage: kill [-s sigspec | -signum | -sigspec] [pid | job]... or\nkill -l [exitstatus]"

def listSignals : List String → Run Unit
  | [] => do
    printLine "0"
    forEachOf (fun n => printLine (signalName (n + 1))) (List.range lastSignal)
    succeed
  | a :: _ => do
    let n ← number a
    let signal := if 128 < n then n - 128 else n
    if 0 < signal && signal ≤ lastSignal then
      printLine (signalName signal)
      succeed
    else failWith ("invalid signal number or exit status: " ++ a)

def killOptions (arguments : List String) : Run (Option Nat × Bool × List String) := do
  let signal? (s : String) : Option Nat := if s.toUpper = "EXIT" then none else signalNumber? s
  match arguments with
  | [] => return (none, false, [])
  | a :: rest =>
    match a.toList with
    | '-' :: cs =>
      match signal? (String.ofList cs) with
      | some n => return (some n, false, rest)
      | none =>
        let (given, operands) ← optionsOf "l" "s" arguments
        match Tool.valueOf? given 's' with
        | none => return (none, Tool.has given 'l', operands)
        | some name =>
          match signal? name with
          | some n => return (some n, Tool.has given 'l', operands)
          | none => failWith ("invalid signal number or name: " ++ name)
    | _ => return (none, false, arguments)

def processOf (a : String) : Run Nat := do
  match a.toList with
  | '%' :: digits =>
    let s ← get
    let n := (Text.natOf? digits).getD 0
    match s.background[n - 1]? with
    | some b => return b.process
    | none => failWith ("No such job: " ++ a)
  | _ => number a

def kill : Builtin := fun _ _ arguments => do
  let (signal, lists, operands) ← killOptions arguments
  if lists then listSignals operands
  else if operands.isEmpty then failWith killUsage
  else
    setStatus 0
    forEachOf
      (fun a => do
        let process ← processOf a
        let sent ← sendSignal process (signal.getD 15)
        if sent then pure ()
        else
          complain "No such process\n"
          setStatus 1)
      operands

def listTraps : Run Unit := do
  let s ← get
  forEachOf
    (fun n =>
      match findTrap? s.traps n with
      | some action => printLine ("trap -- " ++ quoted action ++ " " ++ signalName n)
      | none => pure ())
    (List.range (lastSignal + 1))

def setTraps (action : Option String) : List String → Run Unit
  | [] => succeed
  | name :: names =>
    match signalNumber? name with
    | none => do
      printTo 2 ("trap: " ++ name ++ ": bad trap\n")
      setStatus 1
    | some n => do
      modify fun s =>
        let others := s.traps.filter fun x => x.1 != n
        { s with
          traps :=
            match action with
            | some a => others ++ [(n, a)]
            | none => others }
      setTraps action names

def trap : Builtin := fun _ _ arguments => do
  let (_, operands) ← optionsOf "" "" arguments
  match operands with
  | [] =>
    listTraps
    succeed
  | [name] => setTraps none [name]
  | action :: names =>
    match Text.natOf? action.toList with
    | some _ => setTraps none operands
    | none => setTraps (if action = "-" then none else some action) names

def awaitBackground (b : Background) : Run Unit := do
  modify fun s =>
    { s with machine := { s.machine with clock := max s.machine.clock b.ends } }
  takeStatus b.status

def wait : Builtin := fun _ _ arguments => do
  let s ← get
  if arguments.isEmpty then
    forEachOf awaitBackground s.background
    succeed
  else
    forEachOf
      (fun a => do
        let process ← processOf a
        match s.background.find? fun b => b.process == process with
        | some b => awaitBackground b
        | none => setStatus 127)
      arguments

end NativeUi.Shell.Builtin
