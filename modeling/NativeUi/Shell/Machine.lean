import NativeUi.Shell.Tool.Basic

/-!
# Machines

What programs share while they run: the file tree of the machine, the channels behind their
descriptors, the signals on their way and the time that has passed.
-/
namespace NativeUi.Shell

/-- Where an open descriptor leads: nowhere, to what the first program prints, to a text that is
left to be read, to a text that is being collected (its last piece first), or into a file, which may
have lost its name. -/
inductive Channel where
  | nowhere
  | stream (s : Stream)
  | text (rest : String)
  | buffer (pieces : List String)
  | file (number : Nat) (offset : Nat) (appends : Bool)

structure Machine where
  tree : FileTree
  channels : List (Nat × Channel)
  nextChannel : Nat
  printed : List (Stream × String)
  nextProcess : Nat
  signals : List (Nat × Nat)
  clock : Nat

namespace Machine

def openChannel (m : Machine) (c : Channel) : Nat × Machine :=
  (m.nextChannel,
    { m with channels := (m.nextChannel, c) :: m.channels, nextChannel := m.nextChannel + 1 })

def channel? (m : Machine) (n : Nat) : Option Channel :=
  (m.channels.find? fun x => x.1 == n).map fun x => x.2

def setChannel (m : Machine) (n : Nat) (c : Channel) : Machine :=
  { m with channels := (n, c) :: m.channels.filter fun x => x.1 != n }

def contentOf (m : Machine) (number : Nat) : String :=
  match m.tree.shared[number]? with
  | some (content, _) => Octets.ofContent content
  | none => ""

def overwrite (old new : String) (offset : Nat) : String :=
  let cs := old.toList
  let start := cs.take offset ++ List.replicate (offset - cs.length) '\x00'
  String.ofList (start ++ new.toList ++ cs.drop (offset + new.length))

def write? (m : Machine) (n : Nat) (text : String) : Option Machine :=
  if text.isEmpty then some m
  else
    match m.channel? n with
    | none => none
    | some .nowhere => some m
    | some (.stream s) => some { m with printed := (s, text) :: m.printed }
    | some (.text _) => none
    | some (.buffer pieces) => some (m.setChannel n (.buffer (text :: pieces)))
    | some (.file number offset appends) =>
      match m.tree.shared[number]? with
      | some (content, rights) =>
        let old := Octets.ofContent content
        let offset := if appends then old.length else offset
        let new := if offset = old.length then old ++ text else overwrite old text offset
        let m := { m with tree := m.tree.setFile number (Octets.toContent new) rights }
        some (m.setChannel n (.file number (offset + text.length) appends))
      | none => some m

def left (m : Machine) (n : Nat) : String :=
  match m.channel? n with
  | some (.text rest) => rest
  | some (.file number offset _) => String.ofList ((m.contentOf number).toList.drop offset)
  | _ => ""

def leave (m : Machine) (n : Nat) (rest : String) : Machine :=
  match m.channel? n with
  | some (.text _) => m.setChannel n (.text rest)
  | some (.file number _ appends) =>
    m.setChannel n (.file number ((m.contentOf number).length - rest.length) appends)
  | _ => m

def collected (m : Machine) (n : Nat) : String :=
  match m.channel? n with
  | some (.buffer pieces) => String.join pieces.reverse
  | _ => ""

def linkedDirectories : List String := ["bin", "lib", "sbin"]

def programMark : String := "\x7fELF\x00"

def programEntry (name : String) : Entry := .file (.text (programMark ++ name)) .program

def zeros : Content := .text ("".pushn '\x00' 1048576)

def systemEntries (programs : List String) : List (Place × Entry) :=
  (linkedDirectories.map fun n => ([n], .link ("usr/" ++ n))) ++
    ([Tool.nullDevice, ["dev", "stdin"], ["dev", "stdout"], ["dev", "stderr"]].map
      fun d => (d, .file (.text "") .open_)) ++
    [(["dev", "zero"], .file zeros .open_)] ++
    (programs.map fun p => (["usr", "bin", p], programEntry p))

def isOfSystem (p : Place) : Bool :=
  match p with
  | [name] => linkedDirectories.contains name
  | ["dev", _] => true
  | ["usr", "bin", _] => true
  | _ => false

def treeOf (programs : List String) (t : FileTree) : FileTree :=
  let directories := FileTree.systemDirectories.filter fun d => (FileTree.lookup t.slots d).isNone
  { t with
    slots := t.slots ++ (directories.map fun d => .at d (.own .directory)) ++
      ((systemEntries programs).map fun x => .at x.1 (.own x.2)) }

def project (m : Machine) : FileTree :=
  FileTree.settle { m.tree with slots := m.tree.slots.filter fun h => !isOfSystem h.place }

def start (programs : List String) (t : FileTree) : Machine :=
  ⟨treeOf programs t, [(0, .nowhere), (1, .stream .output), (2, .stream .errors)], 3, [], 101, [],
    0⟩

end Machine

end NativeUi.Shell
