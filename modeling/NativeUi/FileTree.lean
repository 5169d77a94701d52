import NativeUi.FileTree.Walk
import NativeUi.Job

/-!
# Changes of a file tree

Files are written, directories made, and both removed, by their paths. A link to a missing file is
filled by writing through it, but it takes the place of a directory; removing a link leaves what it
stands for.
-/
namespace NativeUi.FileTree

def systemDirectories : List Place := [
  ["dev"], ["etc"], ["home"], ["mnt"], ["opt"], ["proc"], ["root"], ["run"], ["srv"], ["sys"],
  ["tmp"], ["usr"], ["usr", "bin"], ["usr", "lib"], ["usr", "local"], ["usr", "local", "bin"],
  ["usr", "local", "sbin"], ["usr", "sbin"], ["usr", "share"], ["var"], ["var", "tmp"]]

def empty : FileTree :=
  ⟨(["work"] :: systemDirectories).map fun d => .at d (.own .directory), [], ["work"], 0⟩

/-- Fills the file at a place, which keeps its rights; a new one gets those given. -/
def fillFile (t : FileTree) (rights : Rights) (p : Place) (c : Content) :
    Except FileError FileTree :=
  match t.get? p with
  | some .directory => .error .isADirectory
  | some (.link _) => .error .tooManyLinks
  | some (.file _ old) => .ok (t.fill p c old)
  | none => .ok (t.put p (.file c rights))

def writeFileWith (t : FileTree) (rights : Rights) (p : Path) (c : Content) :
    Except FileError FileTree := do
  let (start, steps) ← t.route p
  let place ← t.destination linkLimit start steps p.endsInSlash
  t.fillFile rights place c

def writeFile (t : FileTree) (p : Path) (c : Content) : Except FileError FileTree :=
  t.writeFileWith .plain p c

def createDir (t : FileTree) (start : Place) (steps : List Path.Step) :
    Except FileError FileTree := do
  let place ← t.enclosing start steps
  match steps.getLast? with
  | some (.name n) => do
    let place ← child place n
    match t.get? place with
    | some _ => .error .alreadyExists
    | none => .ok (t.put place .directory)
  | _ => .error .alreadyExists

def leadsToDirectory (t : FileTree) (start : Place) (steps : List Path.Step) : Bool :=
  match t.follow true linkLimit start steps with
  | .ok (_, .directory) => true
  | _ => false

/-- Creates the first of some directories after those behind it, as far as they are missing. -/
def createChain (start : Place) : List (List Path.Step) → Job FileTree FileError Unit
  | [] => Job.pure ()
  | steps :: above =>
    let settle (e : FileError) : Job FileTree FileError Unit :=
      Job.ask fun t => if t.leadsToDirectory start steps then .ok () else .error e
    fun t =>
      match t.createDir start steps with
      | .ok t => ⟨[], .ok (), t⟩
      | .error .notFound =>
        Job.bind (createChain start above)
          (fun _ t =>
            match t.createDir start steps with
            | .ok t => ⟨[], .ok (), t⟩
            | .error e => settle e t)
          t
      | .error e => settle e t

def createDirAll (p : Path) : Job FileTree FileError Unit :=
  if p.text.isEmpty then Job.pure ()
  else do
    let (start, steps) ← Job.ask fun t => t.route p
    createChain start (steps :: Path.aboveSteps steps)

/-- Removes a directory with everything below it, or a link. The directory itself is the last to go,
and it stays if its path has led through what is gone by then. -/
def removeDirAll (t : FileTree) (p : Path) : Except FileError FileTree := do
  let (place, e) ← t.findNamed p
  match e with
  | .file _ _ => .error .notADirectory
  | .link _ => .ok (t.prune place)
  | .directory =>
    match (t.clear place).findNamed p with
    | .ok _ => .ok (t.prune place)
    | .error _ => .ok (t.clear place)

def removeFile (t : FileTree) (p : Path) : Except FileError FileTree := do
  let (place, e) ← t.findNamed p
  match e with
  | .directory => .error .isADirectory
  | _ => .ok (t.prune place)

def writeWithParents (p : Path) (c : Content) : Job FileTree FileError Unit := do
  match p.parent? with
  | none => Job.pure ()
  | some dir => createDirAll dir
  Job.change fun t => t.writeFile p c

end NativeUi.FileTree
