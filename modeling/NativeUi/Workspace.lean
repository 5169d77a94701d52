import NativeUi.FileTree
import NativeUi.Platform.Basic

/-!
# The places of a project

Where the bundle, the configuration and the generated projects stand in a working directory.
-/
namespace NativeUi.Workspace

def bundlePath (dir : Path) : Path := dir / ".forge" / "semantic" / "semantic.json"

def nativeRoot (dir : Path) : Path := dir / ".forge" / "native"

def configPath (dir : Path) : Path := dir / "forge.config.json"

def outputDir (p : Platform) (dir : Path) : Path := (nativeRoot dir).joinAll p.outputNames

def bundleExists (dir : Path) (t : FileTree) : Bool := t.isFile (bundlePath dir)

end NativeUi.Workspace
