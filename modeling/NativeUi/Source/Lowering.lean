import NativeUi.Node.Basic
import NativeUi.Source.Dialect

/-!
# Lowering

`lower` turns a tree into source text of a dialect. Texts and buttons become leaves, columns and
rows become stacks whose children are indented one level further, and a `ui` node around one child
is that child. A kind that is not known shows as a text that names it.
-/
namespace NativeUi.Source

def defaultLabel : String := "Button"

def unknownText (kind : String) : String := "Unknown component: " ++ kind

def nonEmptyProp? (n : Node) (name : String) : Option String :=
  (n.propText? name).filter fun s => !s.isEmpty

def lowerText (d : Dialect) (n : Node) : String :=
  d.text (d.escape ((n.propText? "content").getD ""))

def lowerButton (d : Dialect) (n : Node) : String :=
  d.button (d.escape ((nonEmptyProp? n "label").getD defaultLabel))
    (d.escape ((nonEmptyProp? n "action").getD d.defaultAction))

def lowerUnknown (d : Dialect) (kind : String) : String := d.text (d.escape (unknownText kind))

def indentLine (line : String) : String :=
  if line.isEmpty then "\n" else Dialect.indent ++ line ++ "\n"

def indentBlock (code : String) : String := String.join ((Text.lines code).map indentLine)

def stack (opener body : String) : String := opener ++ " \x7b\n" ++ body ++ "\x7d"

mutual

def lower (d : Dialect) : Node → String
  | ⟨id, kind, props, children⟩ =>
    match kind with
    | .text => lowerText d ⟨id, kind, props, children⟩
    | .button => lowerButton d ⟨id, kind, props, children⟩
    | .column => stack d.vertical (lowerAll d children)
    | .row => stack d.horizontal (lowerAll d children)
    | .ui =>
      match children with
      | [child] => lower d child
      | children => stack d.vertical (lowerAll d children)
    | .other name => lowerUnknown d name

def lowerAll (d : Dialect) : List Node → String
  | [] => ""
  | n :: ns => indentBlock (lower d n) ++ lowerAll d ns

end

def lowerStack (d : Dialect) (nodes : List Node) : String := stack d.vertical (lowerAll d nodes)

end NativeUi.Source
