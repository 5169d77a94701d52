import NativeUi.Shell.Builtin.Basic
import NativeUi.Shell.Tool.Condition
import NativeUi.Shell.Tool.Names

/-!
# Commands for texts and files

Printing, testing, and the directory of the shell.
-/
namespace NativeUi.Shell.Builtin

open Run

def printChecked (text : String) : Run Unit := do
  let written ← writeTo 1 text
  if written then pure () else warn 1 "I/O error"

def echo : Builtin := fun _ _ arguments => do
  setStatus 0
  printChecked (Format.echo .shell arguments)

def printf : Builtin := fun _ _ arguments => do
  let (_, operands) ← optionsOf "" "" arguments
  match operands with
  | [] => failWith "usage: printf format [arg ...]"
  | template :: values =>
    let f := Format.format .shell template values
    setStatus (if f.warnings.isEmpty then 0 else 1)
    forEachOf complain f.warnings
    match f.failure with
    | some message =>
      complain message
      print f.text
      setStatus 2
      throw .fails
    | none => printChecked f.text

def test (bracket : Bool) : Builtin := fun _ _ arguments => do
  let s ← get
  match Condition.test .shell ⟨s.machine.tree, s.dir⟩ bracket arguments with
  | .ok true => setStatus 0
  | .ok false => setStatus 1
  | .error message => failWith message

/-! ### Directories -/

def resolveDots : List String → List String → List String
  | done, [] => done
  | done, c :: cs =>
    if c = "" || c = "." then resolveDots done cs
    else if c = ".." then resolveDots done.tail cs
    else resolveDots (c :: done) cs

/-- A directory by its name, as a path from the root. Two slashes at the start are kept. -/
def absolutePath (dir name : String) : String :=
  let full := if name.toList.head? = some '/' then name else dir ++ "/" ++ name
  let start :=
    match full.toList with
    | '/' :: '/' :: '/' :: _ => "/"
    | '/' :: '/' :: _ => "//"
    | _ => "/"
  start ++ "/".intercalate (resolveDots [] (full.splitOn "/")).reverse

def physicalPath (t : FileTree) (dir : String) : String :=
  match t.find (rooted dir) with
  | .ok (place, _) => Tool.placeText place
  | .error _ => dir

/-- Goes to a directory. Dots in its name are taken out before it is looked for, unless the name is
to be followed step by step. -/
def enter (physical : Bool) (name : String) : Run Unit := do
  let s ← get
  let t := s.machine.tree
  let target :=
    if physical then
      physicalPath t (if name.toList.head? = some '/' then name else s.dir ++ "/" ++ name)
    else absolutePath s.dir name
  if t.isDirectory (locateFrom s.dir (if physical then name else target)) then
    assign "OLDPWD" s.dir
    changeVariable "PWD" fun v => { v with value := some target, exported := true }
    modify fun s => { s with dir := target }
  else failWith ("can't cd to " ++ name)

def cd : Builtin := fun _ _ arguments => do
  let (given, operands) ← optionsOf "LP" "" arguments
  let enter := enter (Tool.has given 'P')
  setStatus 0
  match operands with
  | [] =>
    let home ← value? "HOME"
    match home with
    | none => pure ()
    | some h => enter h
  | "-" :: _ =>
    let s ← get
    let old ← valueOr "OLDPWD" s.dir
    enter old
    let s ← get
    printLine s.dir
  | "" :: _ => pure ()
  | name :: _ => enter name

def pwd : Builtin := fun _ _ arguments => do
  let (given, _) ← optionsOf "LP" "" arguments
  let s ← get
  setStatus 0
  printLine (if Tool.has given 'P' then physicalPath s.machine.tree s.dir else s.dir)

/-! ### Masks -/

def octalText (width n : Nat) : String :=
  let digits := Nat.toDigits 8 n
  String.ofList (List.replicate (width - digits.length) '0' ++ digits)

def rights (mask shift : Nat) : String :=
  let bits := mask / shift % 8
  (if bits / 4 % 2 = 0 then "r" else "") ++ (if bits / 2 % 2 = 0 then "w" else "") ++
    (if bits % 2 = 0 then "x" else "")

def rightBits (cs : List Char) : Nat :=
  (if cs.contains 'r' then 4 else 0) + (if cs.contains 'w' then 2 else 0) +
    (if cs.contains 'x' then 1 else 0)

def changeRights (op : Char) (bits old : Nat) : Nat :=
  if op = '+' then Nat.lor old bits else if op = '-' then Nat.land old (7 - bits) else bits

def changeMask (mask : Nat) (clause : List Char) : Option Nat :=
  let isUser (c : Char) : Bool := "ugoa".toList.contains c
  let who := clause.takeWhile isUser
  let who := if who.isEmpty then ['a'] else who
  match clause.dropWhile isUser with
  | op :: letters =>
    if "+-=".toList.contains op && letters.all fun c => "rwx".toList.contains c then
      let new (c : Char) (shift : Nat) : Nat :=
        let old := 7 - mask / shift % 8
        if who.contains c || who.contains 'a' then changeRights op (rightBits letters) old else old
      some ((7 - new 'u' 64) * 64 + (7 - new 'g' 8) * 8 + (7 - new 'o' 1))
    else none
  | [] => none

def umask : Builtin := fun _ _ arguments => do
  let (given, operands) ← optionsOf "S" "" arguments
  let s ← get
  setStatus 0
  match operands with
  | [] =>
    if Tool.has given 'S' then
      printLine ("u=" ++ rights s.mask 64 ++ ",g=" ++ rights s.mask 8 ++ ",o=" ++ rights s.mask 1)
    else printLine (octalText 4 s.mask)
  | a :: _ =>
    match a.toList.head? with
    | none => failWith ("Illegal mode: " ++ a)
    | some c =>
      if c.isDigit then
        if a.toList.all Expr.isOctalDigit then
          set { s with mask := Expr.valueIn 8 a.toList % 512 }
        else failWith ("Illegal number: " ++ a)
      else
        match (a.splitOn ",").foldlM (fun m clause => changeMask m clause.toList) s.mask with
        | some m => set { s with mask := m }
        | none => failWith ("Illegal mode: " ++ a)

def ulimit : Builtin := fun _ _ arguments => do
  setStatus 0
  if arguments.all fun a => a.toList.head? = some '-' then printLine "unlimited" else pure ()

def times : Builtin := fun _ _ _ => do
  setStatus 0
  printLine "0m0.000000s 0m0.000000s"
  printLine "0m0.000000s 0m0.000000s"

end NativeUi.Shell.Builtin
