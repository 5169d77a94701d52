import NativeUi.Json.Printer

/-!
# UI nodes

A node has a kind, named properties in order, and children in order. Kinds outside the known
vocabulary are kept by name.
-/
namespace NativeUi

inductive Kind where
  | ui
  | column
  | row
  | text
  | button
  | other (name : String)
deriving DecidableEq

namespace Kind

def name : Kind → String
  | .ui => "ui"
  | .column => "column"
  | .row => "row"
  | .text => "text"
  | .button => "button"
  | .other name => name

def ofName (name : String) : Kind :=
  if name = "ui" then .ui
  else if name = "column" then .column
  else if name = "row" then .row
  else if name = "text" then .text
  else if name = "button" then .button
  else .other name

def isSupported : Kind → Bool
  | .other _ => false
  | _ => true

theorem name_ofName (s : String) : (ofName s).name = s := by
  unfold ofName
  repeat' split
  all_goals simp_all [name]

end Kind

inductive Setting where
  | text (s : String)
  | flag (b : Bool)
  | integer (i : Int64)
  /-- There is no value for a double that is not finite. -/
  | double (x : Option Double)

def Setting.toJson : Setting → Json
  | .text s => .string s
  | .flag b => .bool b
  | .integer i => .number (.ofInt64 i)
  | .double none => .null
  | .double (some x) => .number (.double x)

structure Node where
  id : Option String
  kind : Kind
  props : Fields Json
  children : List Node

namespace Node

def ofKind (kind : String) : Node := ⟨none, .ofName kind, [], []⟩

def withProp (n : Node) (name : String) (value : Json) : Node :=
  ⟨n.id, n.kind, Fields.insert n.props name value, n.children⟩

def withSetting (n : Node) (name : String) (value : Setting) : Node :=
  n.withProp name value.toJson

def withChild (n child : Node) : Node := ⟨n.id, n.kind, n.props, n.children ++ [child]⟩

def prop? (n : Node) (name : String) : Option Json := Fields.find? n.props name

def propText? (n : Node) (name : String) : Option String := (n.prop? name).bind Json.plainText?

mutual

def count : Node → Nat
  | ⟨_, _, _, children⟩ => 1 + countAll children

def countAll : List Node → Nat
  | [] => 0
  | n :: ns => count n + countAll ns

end

mutual

def collectUnsupported (met : List String) : Node → List String
  | ⟨_, kind, _, children⟩ =>
    let met := if kind.isSupported || met.contains kind.name then met else met ++ [kind.name]
    collectUnsupportedAll met children

def collectUnsupportedAll (met : List String) : List Node → List String
  | [] => met
  | n :: ns => collectUnsupportedAll (collectUnsupported met n) ns

end

/-- The unknown kinds of a tree, each once, in the order of their first nodes. -/
def unsupportedKinds (n : Node) : List String := collectUnsupported [] n

mutual

def isWellFormed : Node → Bool
  | ⟨_, kind, _, children⟩ => kind.isSupported && allWellFormed children

def allWellFormed : List Node → Bool
  | [] => true
  | n :: ns => isWellFormed n && allWellFormed ns

end

mutual

def same : Node → Node → Bool
  | ⟨i, k, ps, cs⟩, ⟨j, l, qs, ds⟩ =>
    i == j && k == l && Json.same (.object ps) (.object qs) && sameAll cs ds

def sameAll : List Node → List Node → Bool
  | [], [] => true
  | n :: ns, m :: ms => same n m && sameAll ns ms
  | _, _ => false

end

mutual

/-- The object of a node: an identifier only if there is one, children only if there are any. -/
def toJson : Node → Json
  | ⟨id, kind, props, children⟩ =>
    .object
      ((match id with
        | none => []
        | some id => [("id", .string id)]) ++
      [("type", .string kind.name), ("props", .object props)] ++
      (match children with
        | [] => []
        | child :: rest => [("children", .list (toJson child :: toJsonAll rest))]))

def toJsonAll : List Node → List Json
  | [] => []
  | n :: ns => toJson n :: toJsonAll ns

end

end Node

end NativeUi
