import NativeUi.Shell.Tool.Calculation
import NativeUi.Shell.Tool.Calendar
import NativeUi.Shell.Tool.Columns
import NativeUi.Shell.Tool.Difference
import NativeUi.Shell.Tool.Dump
import NativeUi.Shell.Tool.Edit
import NativeUi.Shell.Tool.Files
import NativeUi.Shell.Tool.Filling
import NativeUi.Shell.Tool.Listing
import NativeUi.Shell.Tool.Pieces
import NativeUi.Shell.Tool.Precedence
import NativeUi.Shell.Tool.Relation
import NativeUi.Shell.Tool.Tabs
import NativeUi.Shell.Tool.Temporary

/-!
# The tools by name

The tools that need no other programs, and those that tell about the machine.
-/
namespace NativeUi.Shell.Tool

def succeed : Tool := fun _ => return 0

def fail : Tool := fun _ => return 1

def answer (text : String) : Tool := fun _ => do
  printLine text
  return 0

def id_ : Tool := withOptions (.flags "ugGnr" []) 1 fun _ given _ => do
  let one := has given 'u' || has given 'g' || has given 'G'
  if one then printLine (if has given 'n' then "root" else "0")
  else printLine "uid=0(root) gid=0(root) groups=0(root)"
  return 0

def uname : Tool := withOptions (.flags "asnrvmpio" []) 1 fun _ given _ => do
  if has given 'm' && !has given 's' then printLine "x86_64" else printLine "Linux"
  return 0

def printenv : Tool := fun c => do
  match c.arguments with
  | [] =>
    print (ofLines (c.environment.map fun x => x.1 ++ "=" ++ x.2))
    return 0
  | names =>
    forEach
      (fun name =>
        match c.setting? name with
        | some v => do
          printLine v
          return 0
        | none => return 1)
      names

def which : Tool := withOptions (.flags "as" []) 2 fun c given operands => do
  let t ← getTree
  let dirs := ((c.setting? "PATH").getD "").splitOn ":"
  let isProgram (path : String) : Bool :=
    match t.find (c.locate path) with
    | .ok (_, .file _ rights) => rights.runs
    | _ => false
  forEach
    (fun name => do
      let candidates :=
        if name.toList.contains '/' then [name]
        else dirs.map fun d => if d.isEmpty then name else d ++ "/" ++ name
      match candidates.filter isProgram with
      | [] => return 1
      | found =>
        if has given 's' then pure ()
        else print (ofLines (if has given 'a' then found else found.take 1))
        return 0)
    operands

def tty : Tool := fun _ => do
  printLine "not a tty"
  return 1

def logname : Tool := fun c => failWith c 1 "no login name"

def all : List (String × Tool) := [
  ("true", succeed), ("false", fail), ("sync", succeed), ("echo", echo), ("printf", printf),
  ("test", test false), ("[", test true), ("expr", expr), ("pwd", pwd), ("basename", basename),
  ("dirname", dirname), ("realpath", realpath), ("readlink", readlink), ("mkdir", mkdir),
  ("rmdir", rmdir), ("rm", rm), ("unlink", unlink), ("cp", cp), ("mv", mv), ("ln", ln),
  ("link", link), ("touch", touch),
  ("chmod", chmod), ("chown", succeed), ("truncate", truncate), ("install", install), ("ls", ls),
  ("dir", ls), ("stat", stat), ("cat", cat), ("tac", tac), ("rev", rev), ("tee", tee),
  ("head", head), ("tail", tail), ("wc", wc), ("nl", nl), ("paste", paste), ("fold", fold),
  ("seq", seq), ("base64", base64), ("yes", yes), ("sort", sort), ("uniq", uniq), ("comm", comm),
  ("cut", cut), ("tr", tr), ("cmp", cmp), ("diff", diff), ("grep", grep), ("egrep", egrep),
  ("fgrep", fgrep), ("sed", sed), ("id", id_), ("whoami", answer "root"), ("uname", uname),
  ("arch", answer "x86_64"), ("nproc", answer "1"), ("printenv", printenv), ("which", which),
  ("groups", answer "root"), ("chgrp", succeed), ("join", join), ("expand", expand),
  ("unexpand", unexpand), ("od", od), ("split", split), ("dd", dd), ("sum", sum),
  ("cksum", cksum), ("base32", base32), ("factor", factor), ("mktemp", mktemp),
  ("date", date), ("fmt", fmt), ("tsort", tsort), ("shuf", shuf), ("tty", tty),
  ("logname", logname), ("users", succeed), ("who", succeed)] ++ digestTools

def find? (name : String) : Option Tool := (all.find? fun x => x.1 == name).map fun x => x.2

end NativeUi.Shell.Tool
