import NativeUi.Bundle.Basic
import NativeUi.FileTree

/-!
# Loading bundles

Only the UI trees decide whether a bundle is accepted. A section that is missing, null or malformed
counts as empty; the malformed ones are reported. Taking a section out of its object moves the last
member into its place, and what remains is kept in that order.
-/
namespace NativeUi

inductive Malformation where
  | rootNotObject
  | uiMissing
  | uiNotObject
  | componentsMissing
  | componentsNotSequence
  | component (index : Nat) (error : Json.ReadError)
  | custom (text : String)

def Malformation.message : Malformation → String
  | .rootNotObject => "bundle root is not an object"
  | .uiMissing => "missing `ui` section"
  | .uiNotObject => "`ui` is not an object"
  | .componentsMissing => "missing `ui.components`"
  | .componentsNotSequence => "`ui.components` is not a sequence"
  | .component index error =>
    "ui.components[" ++ Text.decimal index ++ "]: " ++ error.message
  | .custom text => text

inductive BundleError where
  | notFound (path : Path)
  | malformed (reason : Malformation)
  | io (error : FileError)
  | json (error : Json.ReadError)

def BundleError.message : BundleError → String
  | .notFound path => "semantic bundle not found at " ++ path.text
  | .malformed reason => "malformed semantic bundle: " ++ reason.message
  | .io error => "io error: " ++ error.message
  | .json error => "json error: " ++ error.message

structure IgnoredSection where
  name : String
  error : Json.ReadError

structure LoadedBundle where
  bundle : Bundle
  ignored : List IgnoredSection

namespace Bundle

def readComponents (index : Nat) : List Json → Except BundleError (List Node)
  | [] => .ok []
  | v :: vs =>
    match Node.ofJson v with
    | .error e => .error (.malformed (.component index e))
    | .ok n => do
      let ns ← readComponents (index + 1) vs
      .ok (n :: ns)

def layoutOf : Option Json → Json
  | none => .emptyObject
  | some .null => .emptyObject
  | some v => v

def readUi (fields : Fields Json) : Except BundleError UiSection :=
  match Fields.find? fields "components" with
  | none => .error (.malformed .componentsMissing)
  | some (.list items) => do
    let components ← readComponents 0 items
    let rest := Fields.swapErase fields "components"
    .ok ⟨components, layoutOf (Fields.find? rest "layout"), Fields.swapErase rest "layout"⟩
  | some _ => .error (.malformed .componentsNotSequence)

/-- A section out of the members of the root, with the report of a malformed one. -/
def lenientSection {α : Type} (shape : SectionShape α) :
    Option Json → Section α × List IgnoredSection
  | none => (.empty shape, [])
  | some .null => (.empty shape, [])
  | some v =>
    match Section.read shape (.ofJson v) with
    | .ok s => (s, [])
    | .error e => (.empty shape, [⟨shape.name, e⟩])

def ofJson : Json → Except BundleError LoadedBundle
  | .object root =>
    match Fields.find? root "ui" with
    | none => .error (.malformed .uiMissing)
    | some (.object fields) => do
      let ui ← readUi fields
      let root := Fields.swapErase root "ui"
      let state := lenientSection .state (Fields.find? root "state")
      let root := Fields.swapErase root "state"
      let action := lenientSection .action (Fields.find? root "action")
      let root := Fields.swapErase root "action"
      let design := lenientSection .design (Fields.find? root "design")
      let root := Fields.swapErase root "design"
      .ok ⟨⟨ui, state.1, action.1, design.1, root⟩, state.2 ++ action.2 ++ design.2⟩
    | some _ => .error (.malformed .uiNotObject)
  | _ => .error (.malformed .rootNotObject)

def parse (text : String) : Except BundleError LoadedBundle :=
  match Json.parse text with
  | .error e => .error (.json e)
  | .ok v => ofJson v

def readRaw (t : FileTree) (path : Path) : Except BundleError Json :=
  if !t.isFile path then .error (.notFound path)
  else
    match t.readText path with
    | .error e => .error (.io e)
    | .ok text =>
      match Json.parse text with
      | .error e => .error (.json e)
      | .ok v => .ok v

def load (t : FileTree) (path : Path) : Except BundleError LoadedBundle := do
  let v ← readRaw t path
  ofJson v

def store (path : Path) (b : Bundle) : Job FileTree FileError Unit :=
  FileTree.writeWithParents path (.text b.pretty)

end Bundle

end NativeUi
