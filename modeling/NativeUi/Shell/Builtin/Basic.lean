import NativeUi.Shell.Process

/-!
# Commands of the shell

What the shell does itself. A command of its own gets its arguments and leaves a status.
-/
namespace NativeUi.Shell

/-- A command of the shell, called with the way in which it is run and its arguments. -/
abbrev Builtin := Engine → Mode → List String → Run Unit

namespace Run

def succeed : Run Unit := setStatus 0

def largestNumber : Nat := 2 ^ 31 - 1

def number (s : String) : Run Nat :=
  match Text.natOf? s.toList with
  | some n => if n ≤ largestNumber then return n else failWith ("Illegal number: " ++ s)
  | none => failWith ("Illegal number: " ++ s)

def optionsOf (flags withValues : String) (arguments : List String) :
    Run (List Tool.Given × List String) :=
  match ((Tool.Options.flags flags []).withValues withValues).sort false arguments with
  | .ok x => return x
  | .error (.unknownLetter c) => failWith ("Illegal option -" ++ c.toString)
  | .error (.missingValue c) => failWith ("No arg for -" ++ c.toString ++ " option")
  | .error (.unknownName _) => failWith "Illegal option --"
  | .error (.missingNamedValue _) => failWith "Illegal option --"

def quoted (s : String) : String :=
  let piece (cs : List Char) : List Char :=
    if cs.contains '\x27' then '"' :: cs ++ ['"'] else '\x27' :: cs ++ ['\x27']
  let rec cut : Nat → List Char → List Char
    | 0, _ => []
    | _, [] => []
    | fuel + 1, cs =>
      let isQuote (c : Char) : Bool := c = '\x27'
      let plain := cs.takeWhile fun c => !isQuote c
      let rest := cs.dropWhile fun c => !isQuote c
      if plain.isEmpty then piece (rest.takeWhile isQuote) ++ cut fuel (rest.dropWhile isQuote)
      else piece plain ++ cut fuel rest
  if s.isEmpty then "''" else String.ofList (cut (s.length + 1) s.toList)

def assignmentText (name value : String) : String := name ++ "=" ++ quoted value

/-- The name and the value of an argument of the form `name=value`; the value may be missing. -/
def splitArgument (a : String) : String × Option String :=
  let cs := a.toList
  let name := String.ofList (cs.takeWhile (· ≠ '='))
  match cs.dropWhile (· ≠ '=') with
  | _ :: value => (name, some (String.ofList value))
  | [] => (name, none)

def forEachOf {α : Type} (f : α → Run Unit) : List α → Run Unit
  | [] => pure ()
  | x :: xs => do
    f x
    forEachOf f xs

end Run

end NativeUi.Shell
