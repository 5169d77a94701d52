import NativeUi.Cli.Run

/-!
# The program

Takes the files below the current directory into a tree, runs on it, and writes back what has
changed.
-/
namespace NativeUi.Main

/-- Adds a file, or a directory with everything below it, to a tree. Links are passed over. -/
partial def readEntry (place : Place) (t : FileTree) (e : IO.FS.DirEntry) : IO FileTree := do
  let here := place ++ [e.fileName]
  match (← e.path.symlinkMetadata).type with
  | .dir => (← e.path.readDir).foldlM (readEntry here) (t.put here .directory)
  | .file => return t.put here (.file (.ofBytes (← IO.FS.readBinFile e.path)) .plain)
  | _ => return t

def readTree : IO FileTree := do
  let here ← IO.FS.realPath "."
  (← here.readDir).foldlM (readEntry []) .empty

def placeText (place : Place) : String := "/".intercalate place

def isFileEntry : Option Entry → Bool
  | some (.file _ _) => true
  | _ => false

def bytesOf : Content → ByteArray
  | .text s => s.toUTF8
  | .binary bytes => bytes

def directories (t : FileTree) : List Place :=
  ((t.entries.filter fun x => x.2 == .directory).map fun x => x.1).mergeSort fun p q =>
    p.length ≤ q.length

def writeTree (before after : FileTree) : IO Unit := do
  for (place, entry) in before.entries do
    if isFileEntry (some entry) && !isFileEntry (after.get? place) then
      IO.FS.removeFile (placeText place)
  for place in (directories before).reverse do
    if after.get? place != some .directory then IO.FS.removeDir (placeText place)
  for place in directories after do
    if before.get? place != some .directory then IO.FS.createDir (placeText place)
  for (place, entry) in after.entries do
    match entry with
    | .file content _ =>
      if before.get? place != some entry then
        IO.FS.writeBinFile (placeText place) (bytesOf content)
    | _ => pure ()

end NativeUi.Main

def main (arguments : List String) : IO UInt32 := do
  let environment : NativeUi.Cli.Environment :=
    ⟨← IO.getEnv "FORGE_DIR", ← IO.getEnv "RUST_LOG"⟩
  let tree ← NativeUi.Main.readTree
  let result := NativeUi.Cli.run environment arguments tree
  NativeUi.Main.writeTree tree result.tree
  IO.print result.output
  IO.eprint result.errors
  return UInt32.ofNat result.exitCode
