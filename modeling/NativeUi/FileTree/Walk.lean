import NativeUi.FileTree.Basic
import NativeUi.Path

/-!
# Walks through a file tree

Paths are resolved against a tree step by step. A link on the way is replaced by the steps of its
target, and what stands in the way is an error with the wording of the system.
-/
namespace NativeUi

namespace Path

inductive Step where
  | here
  | up
  | name (s : String)
deriving DecidableEq

def stepsOf : List String → List Step
  | [] => []
  | s :: ss =>
    if s = "" then stepsOf ss
    else if s = "." then .here :: stepsOf ss
    else if s = ".." then .up :: stepsOf ss
    else .name s :: stepsOf ss

def steps (p : Path) : List Step := stepsOf p.pieces

def climb : List Step → Nat × List Step
  | .here :: steps => climb steps
  | .up :: steps => ((climb steps).1 + 1, (climb steps).2)
  | steps => (0, steps)

/-- A dot behind other steps names nothing of its own. Steps are given in reverse here and below. -/
def trimSteps : List Step → List Step
  | .here :: s :: before => trimSteps (s :: before)
  | steps => steps

def passedBy : List Step → List (List Step)
  | [] => []
  | s :: before =>
    if s = .here && !before.isEmpty then passedBy before
    else (s :: before).reverse :: passedBy before

def aboveSteps (steps : List Step) : List (List Step) := passedBy (trimSteps steps.reverse).tail

end Path

namespace FileTree

def nameLimit : Nat := 255

def pathLimit : Nat := 4095

def linkLimit : Nat := 40

def child (p : Place) (name : String) : Except FileError Place :=
  if nameLimit < name.utf8ByteSize then .error .nameTooLong else .ok (p ++ [name])

def origin (p : Place) (path : Path) : Place := if path.isAbsolute then [] else p

/-- Where a path starts, and its steps from there. The dots in front lead up from the current
directory, also if it is lost. -/
def departure (t : FileTree) (path : Path) : Except FileError (Place × List Path.Step) :=
  if path.isAbsolute then .ok ([], path.steps)
  else
    let (ups, steps) := Path.climb path.steps
    if ups < t.lost then .error .notFound else .ok (t.base.take (t.base.length - ups), steps)

def lastStep (path : Path) : List Path.Step := if path.endsInSlash then [.here] else []

/-- The way on through a link: a place, and the steps to take from there. -/
def beyond (link : Place) (target : String) (rest : List Path.Step) : Place × List Path.Step :=
  let path : Path := ⟨target⟩
  (origin link.dropLast path, path.steps ++ lastStep path ++ rest)

/-- Follows steps from a place; only a directory lets a step through. The way through a link is
given from outside, and a link at the end is passed only if `whole` says so. -/
def walk (t : FileTree) (whole : Bool)
    (through : Place → List Path.Step → Except FileError (Place × Entry)) :
    Place → List Path.Step → Except FileError (Place × Entry)
  | p, [] =>
    match t.get? p with
    | none => .error .notFound
    | some (.link target) =>
      if whole then
        let (q, steps) := beyond p target []
        through q steps
      else .ok (p, .link target)
    | some e => .ok (p, e)
  | p, s :: ss =>
    match t.get? p with
    | none => .error .notFound
    | some (.file _ _) => .error .notADirectory
    | some (.link target) =>
      let (q, steps) := beyond p target (s :: ss)
      through q steps
    | some .directory =>
      match s with
      | .here => walk t whole through p ss
      | .up => walk t whole through p.dropLast ss
      | .name n => do
        let q ← child p n
        walk t whole through q ss

def follow (t : FileTree) (whole : Bool) :
    Nat → Place → List Path.Step → Except FileError (Place × Entry)
  | 0 => t.walk whole fun _ _ => .error .tooManyLinks
  | links + 1 => t.walk whole (follow t whole links)

/-- The start of a path and its steps, without what a slash at its end asks for. -/
def route (t : FileTree) (p : Path) : Except FileError (Place × List Path.Step) :=
  if p.text.toList.contains '\x00' then .error .zeroInName
  else if p.text.isEmpty then .error .notFound
  else if pathLimit < p.text.utf8ByteSize then .error .nameTooLong
  else t.departure p

def find (t : FileTree) (p : Path) : Except FileError (Place × Entry) := do
  let (start, steps) ← t.route p
  t.follow true linkLimit start (steps ++ lastStep p)

def findNamed (t : FileTree) (p : Path) : Except FileError (Place × Entry) := do
  let (start, steps) ← t.route p
  t.follow false linkLimit start (steps ++ lastStep p)

def isFile (t : FileTree) (p : Path) : Bool :=
  match t.find p with
  | .ok (_, .file _ _) => true
  | _ => false

def isDirectory (t : FileTree) (p : Path) : Bool :=
  match t.find p with
  | .ok (_, .directory) => true
  | _ => false

def pathExists (t : FileTree) (p : Path) : Bool :=
  match t.find p with
  | .ok _ => true
  | .error _ => false

def readText (t : FileTree) (p : Path) : Except FileError String := do
  let (_, e) ← t.find p
  match e with
  | .file (.text s) _ => .ok s
  | .file (.binary _) _ => .error .notText
  | .directory => .error .isADirectory
  | .link _ => .error .tooManyLinks

def enclosing (t : FileTree) (p : Place) (steps : List Path.Step) : Except FileError Place := do
  let (place, e) ← t.follow true linkLimit p steps.dropLast
  match e with
  | .directory => .ok place
  | .file _ _ => .error .notADirectory
  | .link _ => .error .tooManyLinks

/-- The place of the file that some steps name, of a path that may end in a slash. The file may be
missing; the way through a link is given from outside. -/
def landing (t : FileTree) (through : Place → Path → Except FileError Place) (p : Place)
    (steps : List Path.Step) (slash : Bool) : Except FileError Place := do
  let dir ← t.enclosing p steps
  match steps.getLast?, slash with
  | some (.name n), false => do
    let q ← child dir n
    match t.get? q with
    | some (.link target) => through dir ⟨target⟩
    | _ => .ok q
  | _, _ => .error .isADirectory

def destination (t : FileTree) : Nat → Place → List Path.Step → Bool → Except FileError Place
  | 0 => t.landing fun _ _ => .error .tooManyLinks
  | links + 1 => t.landing fun dir target =>
    destination t links (origin dir target) target.steps target.endsInSlash

/-- The place of a name that is to be made or replaced; a link is not followed. -/
def newPlace (t : FileTree) (p : Path) : Except FileError Place := do
  let (start, steps) ← t.route p
  let dir ← t.enclosing start steps
  match steps.getLast? with
  | some (.name n) => child dir n
  | _ => .error .alreadyExists

def children (t : FileTree) (p : Place) : List (String × Entry) :=
  let depth := p.length + 1
  t.slots.filterMap fun h =>
    if h.depth = depth && p.isPrefixOf h.place then
      match h.place.getLast?, t.entryOf? h.slot with
      | some n, some e => some (n, e)
      | _, _ => none
    else none

/-- What stands below a place, by the names that lead there from it. Links are passed, unless they
lead back to one of the places that have been passed. -/
def below (t : FileTree) : Nat → List Place → Place → List (Place × Entry)
  | 0, _, _ => []
  | fuel + 1, passed, p =>
    (t.children p).flatMap fun x =>
      match t.walk true (t.follow true (linkLimit - 1)) (p ++ [x.1]) [] with
      | .ok (q, .directory) =>
        let inner := if passed.contains q then [] else below t fuel (q :: passed) q
        ([x.1], .directory) :: inner.map fun y => (x.1 :: y.1, y.2)
      | .ok (_, e) => [([x.1], e)]
      | .error _ => []

def belowPath (t : FileTree) (p : Path) : List (Place × Entry) :=
  match t.find p with
  | .ok (place, .directory) => t.below (t.slots.length + 1) [place] place
  | _ => []

end FileTree

end NativeUi
