import NativeUi.Instances

/-!
# Paths

A path is kept as it is spelt, because messages show it that way. Joining adds a slash unless one
is there already, and an absolute right side replaces the left. `Path.components` is the reading
under which two spellings name the same file: repeated slashes and inner dots do not count.
-/
namespace NativeUi

structure Path where
  text : String
deriving DecidableEq

namespace Path

def pieces (p : Path) : List String := (p.text.toList.splitOn '/').map String.ofList

def isAbsolute (p : Path) : Bool := p.text.toList.head? == some '/'

def endsInSlash (p : Path) : Bool := p.text.toList.getLast? == some '/'

def join (p q : Path) : Path :=
  if q.isAbsolute then q
  else if p.text.isEmpty || p.endsInSlash then ⟨p.text ++ q.text⟩
  else ⟨p.text ++ "/" ++ q.text⟩

instance : HDiv Path String Path := ⟨fun p q => p.join ⟨q⟩⟩

def joinAll (p : Path) (names : List String) : Path := names.foldl (fun p n => p / n) p

inductive Component where
  | root
  | here
  | up
  | name (s : String)
deriving DecidableEq

def componentsOf (first : Bool) : List String → List Component
  | [] => []
  | s :: ss =>
    if s = "" then componentsOf false ss
    else if s = "." then
      if first then .here :: componentsOf false ss else componentsOf false ss
    else if s = ".." then .up :: componentsOf false ss
    else .name s :: componentsOf false ss

def components (p : Path) : List Component :=
  if p.isAbsolute then .root :: componentsOf false p.pieces else componentsOf true p.pieces

def sameAs (p q : Path) : Bool := p.components == q.components

/-- Drops the pieces at the end that name nothing: empty ones, and dots that are not the first. -/
def trimPieces (reversed : List String) : List String :=
  match reversed with
  | [] => []
  | [s] => if s = "" then [] else [s]
  | s :: rest => if s = "" || s = "." then trimPieces rest else s :: rest

/-- The path without its last component; none for an empty path and for the root. -/
def parent? (p : Path) : Option Path :=
  match trimPieces p.pieces.reverse with
  | [] => none
  | _ :: rest =>
    match trimPieces rest with
    | [] => some ⟨if p.isAbsolute then "/" else ""⟩
    | kept => some ⟨"/".intercalate kept.reverse⟩

end Path

end NativeUi
