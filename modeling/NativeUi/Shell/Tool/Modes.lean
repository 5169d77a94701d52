import NativeUi.Shell.Tool.Names

/-!
# Modes

Rights of files as texts: nine letters in a listing, and the digits or clauses that ask for a
change.
-/
namespace NativeUi.Shell.Tool

def usersOf (c : Char) : Rights :=
  match c with
  | 'u' => 0o4700
  | 'g' => 0o2070
  | 'o' => 0o1007
  | _ => 0o7777

/-- The rights of one class of users, as letters; `special` stands for the right to run of which a
special one is a part. -/
def classLetters (bits : Nat) (isSpecial : Bool) (special : Char) : List Char :=
  let run := bits % 2 = 1
  [if bits / 4 % 2 = 1 then 'r' else '-', if bits / 2 % 2 = 1 then 'w' else '-',
    if isSpecial then (if run then special else special.toUpper) else if run then 'x' else '-']

def rightsText (r : Rights) : String :=
  String.ofList (classLetters (r / 64) (r / 2048 % 2 = 1) 's' ++
    classLetters (r / 8) (r / 1024 % 2 = 1) 's' ++ classLetters r (r / 512 % 2 = 1) 't')

def lettersRights (directory : Bool) (r : Rights) (letters : List Char) : Rights :=
  let spread (bits : Nat) : Rights := bits % 8 * 0o111
  letters.foldl
    (fun n c => n ||| (
      match c with
      | 'r' => 0o444
      | 'w' => 0o222
      | 'x' => 0o111
      | 'X' => if directory || r.runs then 0o111 else 0
      | 's' => 0o6000
      | 't' => 0o1000
      | 'u' => spread (r / 64)
      | 'g' => spread (r / 8)
      | 'o' => spread r
      | _ => 0))
    0

/-- The change of rights that the actions of a clause ask for, behind the users who are meant. -/
def modeActions (users : Rights) (mask : Rights) (directory : Bool) :
    Nat → List Char → Rights → Option Rights
  | 0, _, _ => none
  | _, [], r => some r
  | fuel + 1, op :: cs, r =>
    if "+-=".toList.contains op then
      let letters := cs.takeWhile fun c => !"+-=".toList.contains c
      if letters.all fun c => "rwxXstugo".toList.contains c then
        let bits := lettersRights directory r letters &&& users &&& (0o7777 ^^^ mask)
        let r :=
          if op = '+' then r ||| bits
          else if op = '-' then r &&& (0o7777 ^^^ bits)
          else (r &&& (0o7777 ^^^ users)) ||| bits
        modeActions users mask directory fuel (cs.drop letters.length) r
      else none
    else none

/-- The rights behind a mode, in digits or in clauses; none if it is no mode. A clause that names no
users keeps to the mask. -/
def applyMode (mask : Rights) (directory : Bool) (mode : String) (r : Rights) : Option Rights :=
  let cs := mode.toList
  if !cs.isEmpty && cs.all Char.isDigit then
    let n := cs.foldl (fun n c => 8 * n + Text.digitValue c) 0
    if cs.all (fun c => '0' ≤ c && c ≤ '7') && n ≤ 0o7777 then some n else none
  else
    (mode.splitOn ",").foldlM
      (fun r clause =>
        let isUser (c : Char) : Bool := "ugoa".toList.contains c
        let who := clause.toList.takeWhile isUser
        let rest := clause.toList.dropWhile isUser
        let users := if who.isEmpty then 0o7777 else who.foldl (fun n c => n ||| usersOf c) 0
        let mask := if who.isEmpty then mask else 0
        if rest.isEmpty then none
        else modeActions users mask directory (clause.length + 1) rest r)
      r

def setMode (mask : Rights) (mode : String) (t : FileTree) (p : Place) : FileTree :=
  match t.get? p with
  | some (.file content rights) =>
    match applyMode mask false mode rights with
    | some r => t.fill p content r
    | none => t
  | _ => t

def isModeOption (a : String) : Bool :=
  match a.toList with
  | '-' :: cs => !cs.isEmpty && cs.all fun c => "rwxXst".toList.contains c
  | _ => false

def chmod : Tool := fun c =>
  let modes := c.arguments.filter isModeOption
  let arguments := c.arguments.filter fun a => !isModeOption a
  match ((Options.flags "Rvcf"
      [("recursive", 'R'), ("verbose", 'v'), ("changes", 'c'), ("silent", 'f'),
        ("quiet", 'f'), ("reference", 'r')]).withValues "r").sort true arguments with
  | .error e => misuse c 1 e.message
  | .ok (given, operands) => do
    let t ← getTree
    let reference := (valueOf? given 'r').bind fun name =>
      match t.find (c.locate name) with
      | .ok (_, .file _ rights) => some (String.ofList (Nat.toDigits 8 rights))
      | _ => none
    match reference.toList ++ modes ++ operands with
    | [] => misuse c 1 "missing operand"
    | [mode] => misuse c 1 ("missing operand after " ++ quote mode)
    | mode :: names =>
      if (applyMode c.mask false mode 0).isNone then
        misuse c 1 ("invalid mode: " ++ quote mode)
      else
        forEach
          (fun name => do
            let t ← getTree
            match t.find (c.locate name) with
            | .error e =>
              if has given 'f' then return 1
              else
                match e, t.findNamed (c.locate name) with
                | .notFound, .ok _ =>
                  failWith c 1 ("cannot operate on dangling symlink " ++ quote name)
                | e, _ => failWith c 1 ("cannot access " ++ quote name ++ ": " ++ e.reason)
            | .ok (p, _) =>
              let inner :=
                if has given 'R' then (entriesBelow t p).map fun x => p ++ x.1 else []
              setTree ((p :: inner).foldl (setMode c.mask mode) t)
              return 0)
          names

end NativeUi.Shell.Tool
