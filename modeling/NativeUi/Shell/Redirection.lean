import NativeUi.Shell.Expansion

/-!
# Redirections

Descriptors are led to files, to other descriptors and to here-documents, one after the other. What
has been led elsewhere for one command is led back behind it.
-/
namespace NativeUi.Shell

inductive Target where
  | file (descriptor : Nat) (opening : Opening) (name : String)
  | copy (descriptor source : Nat)
  | close (descriptor : Nat)
  | text (descriptor : Nat) (text : String)

namespace Run

def targetOf (next : Engine) : Redirection → Run Target
  | .file d opening name => do
    let name ← expandText next false name
    return .file d opening name
  | .copy d source => do
    let source ← expandText next false source
    match source.toList with
    | ['-'] => return .close d
    | [c] =>
      if c.isDigit then return .copy d (Text.digitValue c)
      else failWith "Syntax error: Bad fd number"
    | _ => failWith "Syntax error: Bad fd number"
  | .document d number => do
    let s ← get
    match s.documents.find? fun x => x.1 == number with
    | some x =>
      let text ← expandText next false x.2
      return .text d text
    | none => return .text d ""

def targetsOf (next : Engine) : List Redirection → Run (List Target)
  | [] => return []
  | r :: rs => do
    let t ← targetOf next r
    let ts ← targetsOf next rs
    return t :: ts

def deviceDescriptor? (place : Place) : Option Nat :=
  match place with
  | ["dev", "stdin"] => some 0
  | ["dev", "stdout"] => some 1
  | ["dev", "stderr"] => some 2
  | _ => none

def openFault (creates : Bool) (name : String) (e : FileError) : String :=
  let reason :=
    if e = .notFound || e = .notADirectory then
      if creates then "Directory nonexistent" else "No such file"
    else e.reason
  "cannot " ++ (if creates then "create " else "open ") ++ name ++ ": " ++ reason

def prepareFile (opening : Opening) (name : String) : Run (Except FileError (Place × Entry)) := do
  let s ← get
  let t := s.machine.tree
  let path := locateFrom s.dir name
  let put : Run (Except FileError (Place × Entry)) :=
    match t.writeFileWith (Rights.open_.without s.mask) path (.text "") with
    | .error e => return .error e
    | .ok t => do
      setTree t
      return t.find path
  match opening, t.find path with
  | .read, found => return found
  | _, .ok (_, .directory) => return .error .isADirectory
  | .append, .ok found => return .ok found
  | .both, .ok found => return .ok found
  | .write, .ok (place, e) =>
    if place.head? = some "dev" then return .ok (place, e)
    else if s.options.contains 'C' then return .error .alreadyExists
    else put
  | .overwrite, .ok (place, e) => if place.head? = some "dev" then return .ok (place, e) else put
  | _, .error _ => put

def openFile (d : Nat) (opening : Opening) (name : String) : Run (Option String) := do
  let found ← prepareFile opening name
  match found with
  | .error e => return some (openFault (opening ≠ .read) name e)
  | .ok (place, _) =>
    match deviceDescriptor? place with
    | some source =>
      let _ ← copyAt d source
      return none
    | none =>
      let t ← getTree
      if place = Tool.nullDevice then openAt d .nowhere
      else
        match t.number? place with
        | some (n, t) =>
          setTree t
          openAt d (.file n 0 (opening = .append))
        | none => openAt d (.text "")
      return none

def redirect : List Target → Run (Option String)
  | [] => return none
  | t :: ts => do
    let fault ←
      match t with
      | .file d opening name => openFile d opening name
      | .close d => do
        closeAt d
        pure none
      | .copy d source => do
        let copied ← copyAt d source
        pure (if copied then none else some (Text.decimal source ++ ": Bad file descriptor"))
      | .text d text => do
        openAt d (.text text)
        pure none
    match fault with
    | some message => return some message
    | none => redirect ts

/-- Runs with redirections, and leads the descriptors back. If they fail, it does not run, and the
status is two; the answer says whether it has run. -/
def redirecting (targets : List Target) (r : Run Unit) : Run Bool := do
  if targets.isEmpty then
    r
    return true
  else
    let before ← get
    let restore : Run Unit := modify fun s => { s with descriptors := before.descriptors }
    let fault ← redirect targets
    match fault with
    | some message =>
      restore
      warn 2 message
      return false
    | none =>
      let result ← observe r
      restore
      resume result
      return true

end Run

end NativeUi.Shell
