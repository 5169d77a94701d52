import NativeUi.Shell.Tool.Basic

/-!
# Names of files

Tools that work on the names of files, and what other tools need of them.
-/
namespace NativeUi.Shell.Tool

def getTree : Work FileTree := do
  let s ← get
  return s.tree

def setTree (t : FileTree) : Work Unit := modify fun s => { s with tree := t }

def look (c : Call) (name : String) : Work (Except FileError (Place × Entry)) := do
  let t ← getTree
  return t.find (c.locate name)

def lookNamed (c : Call) (name : String) : Work (Except FileError (Place × Entry)) := do
  let t ← getTree
  return t.findNamed (c.locate name)

def endsInSlash (name : String) : Bool := name.toList.getLast? == some '/'

def trimSlashes (name : String) : String :=
  let cs := (name.toList.reverse.dropWhile (· = '/')).reverse
  if cs.isEmpty && !name.isEmpty then "/" else String.ofList cs

def isSlashedLink (t : FileTree) (c : Call) (name : String) : Bool :=
  endsInSlash name &&
    match t.findNamed (c.locate (trimSlashes name)) with
    | .ok (_, .link _) => true
    | _ => false

def lastName (path : String) : String :=
  let path := trimSlashes path
  if path = "/" then path
  else String.ofList (path.toList.reverse.takeWhile (· ≠ '/')).reverse

def parentName (path : String) : String :=
  let path := trimSlashes path
  if path = "/" then path
  else
    match path.toList.reverse.dropWhile (· ≠ '/') with
    | [] => "."
    | before => trimSlashes (String.ofList before.reverse)

def joinName (dir name : String) : String :=
  if endsInSlash dir then dir ++ name else dir ++ "/" ++ name

def withoutSuffix (suffix name : String) : String :=
  let n := name.length - suffix.length
  if 0 < n && name.toList.drop n = suffix.toList then String.ofList (name.toList.take n) else name

/-- The places below a place, with what leads to them from there, in the order of names. -/
def entriesBelow (t : FileTree) (p : Place) : List (Place × Entry) :=
  let below := t.entries.filterMap fun x =>
    if p.isPrefixOf x.1 && x.1 != p then some (x.1.drop p.length, x.2) else none
  below.mergeSort fun a b => a.1 ≤ b.1

def childNames (t : FileTree) (p : Place) : List String :=
  ((t.children p).map fun x => Octets.ofString x.1).mergeSort fun a b => a.toList ≤ b.toList

def pathBelow (name : String) (p : Place) : String :=
  p.foldl (fun n s => joinName n (Octets.ofString s)) name

def kindOf : Entry → String
  | .file content _ => if content.size = 0 then "regular empty file" else "regular file"
  | .directory => "directory"
  | .link _ => "symbolic link"

def isExecutable : Entry → Bool
  | .file _ rights => rights.runs
  | _ => true

def placeText (p : Place) : String := "/" ++ "/".intercalate (p.map Octets.ofString)

/-! ### Tools -/

def basename : Tool := fun c =>
  let options :=
    (Options.flags "az" [("multiple", 'a'), ("zero", 'z'), ("suffix", 's')]).withValues "s"
  match options.sort false c.arguments with
  | .error e => misuse c 1 e.message
  | .ok (given, operands) =>
    let many := has given 'a' || has given 's'
    let suffix := (valueOf? given 's').getD ""
    let ending := if has given 'z' then "\x00" else "\n"
    let show_ (suffix name : String) : Work Nat := do
      print (withoutSuffix suffix (lastName name) ++ ending)
      return 0
    match many, operands with
    | _, [] => misuse c 1 "missing operand"
    | true, names => forEach (show_ suffix) names
    | false, [name] => show_ "" name
    | false, [name, suffix] => show_ suffix name
    | false, _ :: _ :: extra :: _ => misuse c 1 ("extra operand " ++ quote extra)

def dirname : Tool := withOptions (.flags "z" [("zero", 'z')]) 1 fun c given operands => do
  if operands.isEmpty then misuse c 1 "missing operand"
  else
    forEach
      (fun name => do
        print (parentName name ++ if has given 'z' then "\x00" else "\n")
        return 0)
      operands

def ownDirectory (c : Call) : Work String := do
  let found ← look c "."
  match found with
  | .ok (place, _) => return placeText place
  | .error _ => return c.dir

def pwd : Tool := withOptions (.flags "LP" []) 1 fun c given _ => do
  let own ← ownDirectory c
  printLine (if has given 'L' && !has given 'P' then (c.setting? "PWD").getD own else own)
  return 0

def looseWalk (t : FileTree) : Nat → Place → List Path.Step → Place
  | 0, p, _ => p
  | _, p, [] => p
  | fuel + 1, p, .here :: ss => looseWalk t fuel p ss
  | fuel + 1, p, .up :: ss => looseWalk t fuel p.dropLast ss
  | fuel + 1, p, .name n :: ss =>
    let q := p ++ [n]
    match t.get? q with
    | some (.link target) =>
      let (start, steps) := FileTree.beyond q target ss
      looseWalk t fuel start steps
    | _ => looseWalk t fuel q ss

inductive Missing where
  | noName
  | lastName
  | anyName

def fullPath (c : Call) (missing : Missing) (name : String) :
    Work (Except FileError String) := do
  let t ← getTree
  match t.find (c.locate name), missing with
  | .ok (place, _), _ => return .ok (placeText place)
  | .error e, .noName => return .error e
  | .error _, .lastName =>
    let path := c.locate (trimSlashes name)
    match t.destination FileTree.linkLimit [] path.steps path.endsInSlash with
    | .ok place => return .ok (placeText place)
    | .error e => return .error e
  | .error _, .anyName =>
    let steps := (c.locate name).steps
    return .ok (placeText (looseWalk t (steps.length + 4000) [] steps))

def missingBy (given : List Given) : Missing :=
  if has given 'e' then .noName else if has given 'm' then .anyName else .lastName

def spelledPath (dir name : String) : String :=
  let full := if name.toList.head? = some '/' then name else joinName dir name
  placeText ((Path.stepsOf (full.splitOn "/")).foldl
    (fun p s =>
      match s with
      | .here => p
      | .up => p.dropLast
      | .name n => p ++ [Octets.toText n])
    [])

/-- The way from one path to another; both start at the root and are free of dots. -/
def relativeText (start target : String) : String :=
  let names (path : String) : List String := (path.splitOn "/").filter fun s => !s.isEmpty
  let shared := (((names start).zip (names target)).takeWhile fun x => x.1 = x.2).length
  let way := List.replicate ((names start).length - shared) ".." ++ (names target).drop shared
  if way.isEmpty then "." else "/".intercalate way

def realpath : Tool :=
  withOptions ((Options.flags "emLPqsz"
    [("canonicalize-existing", 'e'), ("canonicalize-missing", 'm'), ("no-symlinks", 's'),
      ("strip", 's'), ("quiet", 'q'), ("zero", 'z'), ("relative-to", 'R'),
      ("logical", 'L'), ("physical", 'P')]).withValues "R") 1 fun c given operands => do
    if operands.isEmpty then misuse c 1 "missing operand"
    else
      let start ← fullPath c .anyName ((valueOf? given 'R').getD ".")
      forEach
        (fun name => do
          let path ← fullPath c (missingBy given) name
          let path := if has given 's' then path.map fun _ => spelledPath c.dir name else path
          match path, start with
          | .ok path, .ok start =>
            let shown := if has given 'R' then relativeText start path else path
            print (shown ++ if has given 'z' then "\x00" else "\n")
            return 0
          | .error e, _ =>
            if has given 'q' then return 1
            else failWith c 1 (name ++ ": " ++ e.reason)
          | _, .error e => failWith c 1 (((valueOf? given 'R').getD "") ++ ": " ++ e.reason))
        operands

def readlink : Tool :=
  withOptions (.flags "femnqsvz"
    [("canonicalize", 'f'), ("canonicalize-existing", 'e'), ("canonicalize-missing", 'm'),
      ("no-newline", 'n'), ("quiet", 'q'), ("silent", 's'), ("verbose", 'v'), ("zero", 'z')])
    1 fun c given operands => do
    let ending :=
      if has given 'n' && operands.length = 1 then ""
      else if has given 'z' then "\x00" else "\n"
    let fault (name : String) (e : FileError) : Work Nat :=
      if has given 'v' then failWith c 1 (name ++ ": " ++ e.reason) else return 1
    let show_ (text : String) : Work Nat := do
      print (text ++ ending)
      return 0
    if operands.isEmpty then misuse c 1 "missing operand"
    else
      forEach
        (fun name => do
          if has given 'f' || has given 'e' || has given 'm' then
            let path ← fullPath c (missingBy given) name
            match path with
            | .ok path => show_ path
            | .error e => fault name e
          else
            let found ← lookNamed c name
            match found with
            | .ok (_, .link target) => show_ (Octets.ofString target)
            | .ok _ => fault name (.other "Invalid argument")
            | .error e => fault name e)
        operands

end NativeUi.Shell.Tool
