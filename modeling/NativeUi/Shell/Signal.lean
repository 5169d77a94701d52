import NativeUi.Text.Digits

/-!
# Signals

The signals by number, name and meaning, and the ways in which a program ends.
-/
namespace NativeUi.Shell

structure Signal where
  number : Nat
  name : String
  meaning : String

def signals : List Signal := [
  ⟨1, "HUP", "Hangup"⟩, ⟨2, "INT", "Interrupt"⟩, ⟨3, "QUIT", "Quit"⟩,
  ⟨4, "ILL", "Illegal instruction"⟩, ⟨5, "TRAP", "Trace/breakpoint trap"⟩,
  ⟨6, "ABRT", "Aborted"⟩, ⟨7, "BUS", "Bus error"⟩, ⟨8, "FPE", "Floating point exception"⟩,
  ⟨9, "KILL", "Killed"⟩, ⟨10, "USR1", "User defined signal 1"⟩,
  ⟨11, "SEGV", "Segmentation fault"⟩, ⟨12, "USR2", "User defined signal 2"⟩,
  ⟨13, "PIPE", "Broken pipe"⟩, ⟨14, "ALRM", "Alarm clock"⟩, ⟨15, "TERM", "Terminated"⟩,
  ⟨16, "STKFLT", "Stack fault"⟩, ⟨17, "CHLD", "Child exited"⟩, ⟨18, "CONT", "Continued"⟩,
  ⟨19, "STOP", "Stopped (signal)"⟩, ⟨20, "TSTP", "Stopped"⟩,
  ⟨21, "TTIN", "Stopped (tty input)"⟩, ⟨22, "TTOU", "Stopped (tty output)"⟩,
  ⟨23, "URG", "Urgent I/O condition"⟩, ⟨24, "XCPU", "CPU time limit exceeded"⟩,
  ⟨25, "XFSZ", "File size limit exceeded"⟩, ⟨26, "VTALRM", "Virtual timer expired"⟩,
  ⟨27, "PROF", "Profiling timer expired"⟩, ⟨28, "WINCH", "Window changed"⟩,
  ⟨29, "IO", "I/O possible"⟩, ⟨30, "PWR", "Power failure"⟩, ⟨31, "SYS", "Bad system call"⟩]

def lastSignal : Nat := 64

def findSignal? (number : Nat) : Option Signal := signals.find? fun s => s.number == number

/-- The meaning of a signal; those without a name of their own are counted from the 34th on. -/
def signalMeaning (number : Nat) : String :=
  match findSignal? number with
  | some s => s.meaning
  | none =>
    if 34 ≤ number then "Real-time signal " ++ Text.decimal (number - 34)
    else "Unknown signal " ++ Text.decimal number

def isIdleSignal (number : Nat) : Bool := [17, 18, 23, 28].contains number

def firstNumbered : Nat := 34

def countedSignal? (cs : List Char) : Option Nat :=
  let offset (cs : List Char) (sign : Char) : Option Nat :=
    match cs with
    | [] => some 0
    | c :: digits => if c = sign then Text.natOf? digits else none
  if "RTMIN".toList.isPrefixOf cs then (offset (cs.drop 5) '+').map fun n => firstNumbered + n
  else if "RTMAX".toList.isPrefixOf cs then (offset (cs.drop 5) '-').map fun n => lastSignal - n
  else none

/-- The number of a signal, by its number or its name. The name of the end of a shell has the
number zero. -/
def signalNumber? (s : String) : Option Nat :=
  match Text.natOf? s.toList with
  | some n => if n ≤ lastSignal then some n else none
  | none =>
    let name := s.toUpper
    if name = "EXIT" then some 0
    else
      match signals.find? fun x => x.name == name with
      | some x => some x.number
      | none => countedSignal? name.toList

def signalName (number : Nat) : String :=
  if number = 0 then "EXIT"
  else
    match findSignal? number with
    | some s => s.name
    | none =>
      if number = firstNumbered then "RTMIN"
      else if number = lastSignal then "RTMAX"
      else if number < firstNumbered then Text.decimal number
      else if number < 50 then "RTMIN+" ++ Text.decimal (number - firstNumbered)
      else "RTMAX-" ++ Text.decimal (lastSignal - number)

inductive Status where
  | exit (code : Nat)
  | signal (number : Nat)
deriving DecidableEq

namespace Status

def message : Status → String
  | .exit code => "exit status: " ++ Text.decimal code
  | .signal n =>
    "signal: " ++ Text.decimal n ++
      match findSignal? n with
      | some s => " (SIG" ++ s.name ++ ")"
      | none => ""

def isSuccess (s : Status) : Bool := s = .exit 0

def code : Status → Nat
  | .exit code => code
  | .signal n => 128 + n

end Status

end NativeUi.Shell
