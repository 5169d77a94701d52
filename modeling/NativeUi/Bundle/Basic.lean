import NativeUi.Node.Reader

/-!
# Semantic bundles

A bundle holds the UI trees and three sections that nothing but the bundle itself looks at. Each
section has two fields of its own and keeps all others.
-/
namespace NativeUi

structure UiSection where
  components : List Node
  layout : Json
  extra : Fields Json

structure Section (α : Type) where
  first : α
  second : α
  extra : Fields Json

/-- The names of a section and its fields, the value of a missing field, and its JSON form. -/
structure SectionShape (α : Type) where
  name : String
  title : String
  firstName : String
  secondName : String
  default : α
  read : Json.Draft → Except Json.ReadError α
  toJson : α → Json

namespace SectionShape

def state : SectionShape (List Json) :=
  ⟨"state", "struct StateSection", "entities", "relationships", [],
    Json.Draft.readSequence Json.Draft.value, .list⟩

def action : SectionShape (List Json) :=
  ⟨"action", "struct ActionSection", "actions", "flows", [],
    Json.Draft.readSequence Json.Draft.value, .list⟩

def design : SectionShape Json :=
  ⟨"design", "struct DesignSection", "theme", "tokens", .emptyObject, Json.Draft.value, id⟩

end SectionShape

structure Bundle where
  ui : UiSection
  state : Section (List Json)
  action : Section (List Json)
  design : Section Json
  extra : Fields Json

namespace Section

variable {α : Type}

def empty (shape : SectionShape α) : Section α := ⟨shape.default, shape.default, []⟩

def toJson (shape : SectionShape α) (s : Section α) : Json :=
  .object ([(shape.firstName, shape.toJson s.first), (shape.secondName, shape.toJson s.second)] ++
    s.extra)

structure Parts (α : Type) where
  first : Option α
  second : Option α
  extra : Fields Json

def fieldReaders (shape : SectionShape α) : List (Json.FieldReader (Parts α)) := [
  ⟨shape.firstName, fun p => p.first.isSome, fun p d => do
    let a ← shape.read d
    .ok ⟨some a, p.second, p.extra⟩⟩,
  ⟨shape.secondName, fun p => p.second.isSome, fun p d => do
    let a ← shape.read d
    .ok ⟨p.first, some a, p.extra⟩⟩]

def read (shape : SectionShape α) (d : Json.Draft) : Except Json.ReadError (Section α) := do
  let p ← Json.readOpenRecord shape.title (fieldReaders shape)
    (fun p name v => ⟨p.first, p.second, Fields.insert p.extra name v⟩) ⟨none, none, []⟩ d
  .ok ⟨p.first.getD shape.default, p.second.getD shape.default, p.extra⟩

end Section

namespace UiSection

def toJson (s : UiSection) : Json :=
  .object ([("components", .list (Node.toJsonAll s.components)), ("layout", s.layout)] ++ s.extra)

structure Parts where
  components : Option (List Node)
  layout : Option Json
  extra : Fields Json

def fieldReaders : List (Json.FieldReader Parts) := [
  ⟨"components", fun p => p.components.isSome, fun p d => do
    let nodes ← d.readSequence (Node.read .text)
    .ok ⟨some nodes, p.layout, p.extra⟩⟩,
  ⟨"layout", fun p => p.layout.isSome, fun p d => do
    let v ← d.value
    .ok ⟨p.components, some v, p.extra⟩⟩]

def read (d : Json.Draft) : Except Json.ReadError UiSection := do
  let p ← Json.readOpenRecord "struct UiSection" fieldReaders
    (fun p name v => ⟨p.components, p.layout, Fields.insert p.extra name v⟩) ⟨none, none, []⟩ d
  match p.components with
  | none => .error (.missingField "components")
  | some components => .ok ⟨components, p.layout.getD .emptyObject, p.extra⟩

end UiSection

namespace Bundle

def ofRoots (roots : List Node) : Bundle :=
  ⟨⟨roots, .emptyObject, []⟩, .empty .state, .empty .action, .empty .design, []⟩

def roots (b : Bundle) : List Node := b.ui.components

def toJson (b : Bundle) : Json :=
  .object ([("ui", b.ui.toJson), ("state", b.state.toJson .state),
    ("action", b.action.toJson .action), ("design", b.design.toJson .design)] ++ b.extra)

def pretty (b : Bundle) : String := b.toJson.pretty

def same (a b : Bundle) : Bool :=
  Node.sameAll a.roots b.roots && Json.same a.toJson b.toJson

structure Parts where
  ui : Option UiSection
  state : Option (Section (List Json))
  action : Option (Section (List Json))
  design : Option (Section Json)
  extra : Fields Json

def fieldReaders : List (Json.FieldReader Parts) := [
  ⟨"ui", fun p => p.ui.isSome, fun p d => do
    let s ← UiSection.read d
    .ok ⟨some s, p.state, p.action, p.design, p.extra⟩⟩,
  ⟨"state", fun p => p.state.isSome, fun p d => do
    let s ← Section.read .state d
    .ok ⟨p.ui, some s, p.action, p.design, p.extra⟩⟩,
  ⟨"action", fun p => p.action.isSome, fun p d => do
    let s ← Section.read .action d
    .ok ⟨p.ui, p.state, some s, p.design, p.extra⟩⟩,
  ⟨"design", fun p => p.design.isSome, fun p d => do
    let s ← Section.read .design d
    .ok ⟨p.ui, p.state, p.action, some s, p.extra⟩⟩]

/-- The strict reading: every section that is there has to be well-formed. -/
def read (d : Json.Draft) : Except Json.ReadError Bundle := do
  let p ← Json.readOpenRecord "struct SemanticBundle" fieldReaders
    (fun p name v => ⟨p.ui, p.state, p.action, p.design, Fields.insert p.extra name v⟩)
    ⟨none, none, none, none, []⟩ d
  match p.ui with
  | none => .error (.missingField "ui")
  | some ui =>
    .ok ⟨ui, p.state.getD (.empty .state), p.action.getD (.empty .action),
      p.design.getD (.empty .design), p.extra⟩

end Bundle

end NativeUi
