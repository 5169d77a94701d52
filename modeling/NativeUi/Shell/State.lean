import NativeUi.Shell.Machine
import NativeUi.Shell.Script
import NativeUi.Shell.Signal

/-!
# The state of a shell

A shell has variables, functions, open descriptors and a directory of its own. What runs in it
changes this state, and may be interrupted: by leaving a loop, a function or the shell, by an error,
or by a signal that ends some process.
-/
namespace NativeUi.Shell

structure Variable where
  name : String
  value : Option String
  exported : Bool
  readOnly : Bool

structure Background where
  process : Nat
  status : Status
  ends : Nat

/-- What a signal is answered with. The empty action passes over it, and the signal with the number
zero is the end of the shell. -/
abbrev Traps := List (Nat × String)

structure State where
  machine : Machine
  name : String
  arguments : List String
  bindings : List Variable
  functions : List (String × Command)
  aliases : Aliases
  documents : Documents
  nextDocument : Nat
  descriptors : List (Nat × Nat)
  dir : String
  options : List Char
  traps : Traps
  status : Nat
  substituted : Nat
  process : Nat
  self : Nat
  family : List (Nat × Traps)
  background : List Background
  line : Nat
  speaker : Option String
  loops : Nat
  functionDepth : Nat
  locals : List (String × Option Variable)
  optionPlace : Nat
  mask : Nat

/-- What keeps a command from running on. A process may also be over because it has become another
program, which has come to its end. -/
inductive Interrupt where
  | breaks (levels : Nat)
  | continues (levels : Nat)
  | returns
  | exits
  | fails
  | replaced
  | dies (process signal : Nat)

abbrev Run := ExceptT Interrupt (StateM State)

/-- How a command is run: whether its status is looked at by another command, and whether nothing
follows it in its process. -/
structure Mode where
  tested : Bool
  last : Bool

namespace Mode

def plain : Mode := ⟨false, false⟩

def test : Mode := ⟨true, false⟩

def notLast (m : Mode) : Mode := ⟨m.tested, false⟩

end Mode

/-- The ways in which running a command may lead to running others: as a command, as a text that is
read first, whose status may be looked at by another command, or as a program that takes the place
of the process. The last comes back only if there is no such program. -/
structure Engine where
  run : Mode → Command → Run Unit
  text : Bool → String → Run Unit
  execute : List String → Run FileError

namespace Run

def observe {α : Type} (r : Run α) : Run (Except Interrupt α) := fun s =>
  let (result, s) := r s
  (.ok result, s)

def resume {α : Type} : Except Interrupt α → Run α
  | .ok a => return a
  | .error i => throw i

def setStatus (n : Nat) : Run Unit := modify fun s => { s with status := n }

def getStatus : Run Nat := do
  let s ← get
  return s.status

def getTree : Run FileTree := do
  let s ← get
  return s.machine.tree

def setTree (t : FileTree) : Run Unit :=
  modify fun s => { s with machine := { s.machine with tree := t } }

/-! ### Descriptors -/

def channelOf? (d : Nat) : Run (Option Nat) := do
  let s ← get
  return (s.descriptors.find? fun x => x.1 == d).map fun x => x.2

def writeTo (d : Nat) (text : String) : Run Bool := do
  if text.isEmpty then return true
  else
    let c ← channelOf? d
    let s ← get
    match c.bind fun c => s.machine.write? c text with
    | none => return false
    | some m =>
      set { s with machine := m }
      return true

def printTo (d : Nat) (text : String) : Run Unit := do
  let _ ← writeTo d text
  pure ()

def print (text : String) : Run Unit := printTo 1 text

def printLine (text : String) : Run Unit := printTo 1 (text ++ "\n")

def inputLeft : Run String := do
  let c ← channelOf? 0
  let s ← get
  return (c.map fun c => s.machine.left c).getD ""

def leaveInput (rest : String) : Run Unit := do
  let c ← channelOf? 0
  match c with
  | none => pure ()
  | some c => modify fun s => { s with machine := s.machine.leave c rest }

def connect (d c : Nat) : Run Unit :=
  modify fun s => { s with descriptors := (d, c) :: s.descriptors.filter fun x => x.1 != d }

def newChannel (c : Channel) : Run Nat := do
  let s ← get
  let (n, m) := s.machine.openChannel c
  set { s with machine := m }
  return n

def openAt (d : Nat) (c : Channel) : Run Unit := do
  let n ← newChannel c
  connect d n

def closeAt (d : Nat) : Run Unit :=
  modify fun s => { s with descriptors := s.descriptors.filter fun x => x.1 != d }

def copyAt (d source : Nat) : Run Bool := do
  let c ← channelOf? source
  match c with
  | none => return false
  | some c =>
    connect d c
    return true

/-! ### Messages -/

def complain (message : String) : Run Unit := do
  let s ← get
  let speaker :=
    match s.speaker with
    | some x => x ++ ": "
    | none => ""
  printTo 2 (s.name ++ ": " ++ Text.decimal s.line ++ ": " ++ speaker ++ message ++ "\n")

def warn (status : Nat) (message : String) : Run Unit := do
  complain message
  setStatus status

def failWith {α : Type} (message : String) : Run α := do
  warn 2 message
  throw .fails

def speaking {α : Type} (name : String) (r : Run α) : Run α := do
  let s ← get
  set { s with speaker := some name }
  let result ← observe r
  modify fun t => { t with speaker := s.speaker }
  resume result

/-! ### Variables -/

def findVariable? (name : String) : Run (Option Variable) := do
  let s ← get
  return s.bindings.find? fun v => v.name == name

def hasOption (c : Char) : Run Bool := do
  let s ← get
  return s.options.contains c

def value? (name : String) : Run (Option String) := do
  let v ← findVariable? name
  return v.bind Variable.value

def valueOr (name default : String) : Run String := do
  let v ← value? name
  return v.getD default

def replaceIn (v : Variable) : List Variable → List Variable
  | [] => [v]
  | x :: xs => if x.name == v.name then v :: xs else x :: replaceIn v xs

def replaceVariable (v : Variable) : Run Unit :=
  modify fun s => { s with bindings := replaceIn v s.bindings }

def changeVariable (name : String) (change : Variable → Variable) : Run Unit := do
  let v ← findVariable? name
  let v := v.getD ⟨name, none, false, false⟩
  if v.readOnly then failWith (name ++ ": is read only")
  else replaceVariable (change v)

def assign (name value : String) : Run Unit := do
  let all ← hasOption 'a'
  changeVariable name fun v => { v with value := some value, exported := v.exported || all }
  if name = "OPTIND" then modify fun s => { s with optionPlace := 0 }

def removeVariable (name : String) : Run Unit :=
  modify fun s => { s with bindings := s.bindings.filter fun v => v.name != name }

def restoreVariable (x : String × Option Variable) : Run Unit :=
  match x.2 with
  | some v => replaceVariable v
  | none => removeVariable x.1

def environmentOf (s : State) : List (String × String) :=
  s.bindings.filterMap fun v =>
    if v.exported then v.value.map fun x => (v.name, x) else none

def separators : Run String := valueOr "IFS" " \t\n"

end Run

end NativeUi.Shell
