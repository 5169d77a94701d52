import NativeUi.Json.Reader
import NativeUi.Node.Basic

/-!
# Reading nodes

A node is an object with a `type`, or a list of identifier, type, properties and children in this
order. A null stands for no identifier, no properties and no children.
-/
namespace NativeUi.Node

open NativeUi.Json

structure Parts where
  id : Option (Option String)
  kind : Option Kind
  props : Option (Fields Json)
  children : Option (List Node)

def Parts.empty : Parts := ⟨none, none, none, none⟩

def Parts.finish (p : Parts) : Except ReadError Node :=
  match p.kind with
  | none => .error (.missingField "type")
  | some kind => .ok ⟨p.id.getD none, kind, p.props.getD [], p.children.getD []⟩

def readId (d : Draft) : Except ReadError (Option String) :=
  d.readOptional (Draft.readString "a string")

def readKind (d : Draft) : Except ReadError Kind := do
  let name ← d.readString "a string"
  .ok (.ofName name)

def readProps (d : Draft) : Except ReadError (Fields Json) := do
  let props ← d.readOptional Draft.readMap
  .ok (props.getD [])

def surplus (origin : Origin) (length : Nat) : ReadError :=
  match origin with
  | .text => .trailingCharacters
  | .value => .wrongLength length "fewer elements in array"

def tooShort : ReadError := .wrongLength 1 "struct UiNode with 4 elements"

mutual

def read (origin : Origin) : Draft → Except ReadError Node
  | .list deep items ending =>
    if deep then .error .tooDeep
    else
      match items with
      | [] => do
        ending.listReading
        .error tooShort
      | [i] => do
        let _ ← readId i
        ending.listReading
        .error tooShort
      | [i, k] => do
        let id ← readId i
        let kind ← readKind k
        ending.listReading
        .ok ⟨id, kind, [], []⟩
      | [i, k, p] => do
        let id ← readId i
        let kind ← readKind k
        let props ← readProps p
        ending.listReading
        .ok ⟨id, kind, props, []⟩
      | i :: k :: p :: c :: rest => do
        let id ← readId i
        let kind ← readKind k
        let props ← readProps p
        let children ← readChildren origin c
        if rest.isEmpty then ending.listClosing else .error (surplus origin (rest.length + 4))
        .ok ⟨id, kind, props, children⟩
  | .object deep members ending =>
    if deep then .error .tooDeep
    else do
      let parts ← readMembers origin .empty members
      ending.objectReading
      parts.finish
  | d => .error (d.mismatch "struct UiNode")

def readMembers (origin : Origin) (parts : Parts) :
    List (Literal × Draft) → Except ReadError Parts
  | [] => .ok parts
  | (l, d) :: ms => do
    let name ← l.text
    if name = "id" then
      if parts.id.isSome then .error (.duplicateField name)
      let id ← readId d
      readMembers origin ⟨some id, parts.kind, parts.props, parts.children⟩ ms
    else if name = "type" then
      if parts.kind.isSome then .error (.duplicateField name)
      let kind ← readKind d
      readMembers origin ⟨parts.id, some kind, parts.props, parts.children⟩ ms
    else if name = "props" then
      if parts.props.isSome then .error (.duplicateField name)
      let props ← readProps d
      readMembers origin ⟨parts.id, parts.kind, some props, parts.children⟩ ms
    else if name = "children" then
      if parts.children.isSome then .error (.duplicateField name)
      let children ← readChildren origin d
      readMembers origin ⟨parts.id, parts.kind, parts.props, some children⟩ ms
    else
      d.skip
      readMembers origin parts ms

def readChildren (origin : Origin) : Draft → Except ReadError (List Node)
  | .null => .ok []
  | .list deep items ending =>
    if deep then .error .tooDeep
    else do
      let nodes ← readAll origin items
      ending.listReading
      .ok nodes
  | d => .error (d.mismatch "a sequence")

def readAll (origin : Origin) : List Draft → Except ReadError (List Node)
  | [] => .ok []
  | d :: ds => do
    let n ← read origin d
    let ns ← readAll origin ds
    .ok (n :: ns)

end

def parse (text : String) : Except ReadError Node := readText (read .text) text

def parseAll (text : String) : Except ReadError (List Node) :=
  readText (Draft.readSequence (read .text)) text

def ofJson (v : Json) : Except ReadError Node := read .value (.ofJson v)

end NativeUi.Node
