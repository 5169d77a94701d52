import NativeUi.Build.Error

/-!
# Looking into a bundle

The trees of a bundle with one node to a line, or the whole bundle as JSON. Either is printed text
by text to an output, which may fail at any of them.
-/
namespace NativeUi

/-- What texts are printed to. Behind those that it has taken it takes the next text, or only so
many of its characters before it fails. -/
structure Output where
  refuses : String → String → Option (Nat × FileError)

namespace Output

def unfailing : Output := ⟨fun _ _ => none⟩

def printAll (out : Output) (taken : String) : List String → Job FileTree FileError Unit
  | [] => Job.pure ()
  | text :: texts =>
    match out.refuses taken text with
    | none => do
      Job.print text
      out.printAll (taken ++ text) texts
    | some (n, e) => do
      Job.print (String.ofList (text.toList.take n))
      Job.fail e

end Output

inductive InspectTarget where
  | ui
  | semantic
deriving DecidableEq

namespace InspectTarget

def name : InspectTarget → String
  | .ui => "ui"
  | .semantic => "semantic"

def ofName : Option String → Except BuildError InspectTarget
  | some "ui" => .ok .ui
  | some "semantic" => .ok .semantic
  | some name => .error (.unknownInspectTarget name)
  | none => .error (.unknownInspectTarget "(none)")

end InspectTarget

namespace Inspect

def nodeLine (depth : Nat) (kind : Kind) (props : Fields Json) : String :=
  Text.spaces (2 * depth) ++ kind.name ++
    (if props.isEmpty then "" else " " ++ (Json.object props).compact) ++ "\n"

mutual

/-- The lines of a tree that stands at a depth, each node before its children. -/
def lines (depth : Nat) : Node → List String
  | ⟨_, kind, props, children⟩ => nodeLine depth kind props :: linesAll (depth + 1) children

def linesAll (depth : Nat) : List Node → List String
  | [] => []
  | n :: ns => lines depth n ++ linesAll depth ns

end

def treesTexts (b : Bundle) : List String := "UI Tree:\n\n" :: linesAll 0 b.roots

def valueTexts (v : Json) : List String := ["Semantic Bundle:\n\n", v.pretty ++ "\n"]

end Inspect

def inspectTo (out : Output) (dir : Path) (target : InspectTarget) :
    Job FileTree BuildError Unit :=
  let path := Workspace.bundlePath dir
  match target with
  | .ui => do
    let b ← (Generator.loadBundle path).mapError .ofBundleError
    (out.printAll "" (Inspect.treesTexts b)).mapError .io
  | .semantic => do
    let v ← Job.ask fun t => (Bundle.readRaw t path).mapError .ofBundleError
    (out.printAll "" (Inspect.valueTexts v)).mapError .io

def inspect (dir : Path) (target : InspectTarget) : Job FileTree BuildError Unit :=
  inspectTo .unfailing dir target

end NativeUi
