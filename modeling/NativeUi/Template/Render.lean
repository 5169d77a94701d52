import NativeUi.Json.Printer
import NativeUi.Source.Escape
import NativeUi.Template.Reader

/-!
# Filling templates

A place must name a value that is there; only as the argument of a helper a missing value counts as
null. Helpers take a text and pass over arguments that they do not know.
-/
namespace NativeUi.Template

mutual

def showValue : Json → List Char
  | .null => []
  | .bool b => Json.boolChars b
  | .number n => n.text
  | .string s => s.toList
  | .list [] => ['[', ']']
  | .list (x :: xs) => '[' :: showValue x ++ showItems xs
  | .object _ => "[object]".toList

def showItems : List Json → List Char
  | [] => [']']
  | x :: xs => ',' :: ' ' :: showValue x ++ showItems xs

end

def indexOf? (name : String) : Option Nat :=
  let digits :=
    match name.toList with
    | '+' :: cs => cs
    | cs => cs
  match Text.natOf? digits with
  | some i => if i < 2 ^ 64 then some i else none
  | none => none

def find : List String → Json → Except Fault (Option Json)
  | [], v => .ok (some v)
  | name :: names, .object fields =>
    match Fields.find? fields name with
    | none => .ok none
    | some v => find names v
  | name :: names, .list items =>
    match indexOf? name with
    | none => .error (.badIndex name)
    | some i =>
      match items[i]? with
      | none => .ok none
      | some v => find names v
  | _ :: _, _ => .ok none

def Reference.value (data : Json) : Reference → Except Fault (Option Json)
  | .data names => find names data
  | .bound _ => .ok none

def indentLines (n : Nat) (s : String) : String :=
  "\n".intercalate <| (Text.lines s).map fun line =>
    if Text.allBlank line then line else Text.spaces n ++ line

def textArgument (arguments : List Json) : String :=
  match arguments.head? with
  | some (.string s) => s
  | _ => ""

def countArgument (arguments : List Json) : Nat :=
  match arguments with
  | _ :: .number n :: _ => n.toNat?.getD 4
  | _ => 4

def isNonZero : Number → Bool
  | .integer i _ => i != 0
  | .double x => 2 ^ 52 ≤ x.mantissa

def holds (withZero : Bool) : Json → Bool
  | .null => false
  | .bool b => b
  | .number n => withZero || isNonZero n
  | .string s => !s.isEmpty
  | .list items => !items.isEmpty
  | .object fields => !fields.isEmpty

/-- The integer that a value is, if it fits into 64 bits with a sign. -/
def integer? : Json → Option Int
  | .number (.integer i _) => if -2 ^ 63 ≤ i && i < 2 ^ 63 then some i else none
  | _ => none

def member? : Json → Json → Option Json
  | .list items, .number n => n.toNat?.bind fun i => items[i]?
  | .object fields, .string name => Fields.find? fields name
  | _, _ => none

def length : Json → Nat
  | .string s => s.utf8ByteSize
  | .list items => items.length
  | .object fields => fields.length
  | _ => 0

def countJson (n : Nat) : Json :=
  match Number.ofInt? n with
  | some n => .number n
  | none => .null

def logLevels : List String := ["error", "warn", "info", "debug", "trace"]

def checkLevel (named : List (String × Option Json)) : Except Fault Json :=
  match Fields.find? named "level" with
  | some (some (.string name)) =>
    if logLevels.contains name.toLower then .ok (.string "")
    else .error (.badLevel name)
  | _ => .ok (.string "")

/-- The helpers that compare two values, both of which must be there; only integers have an
order. -/
def compareWith? (name : String) (a b : Json) : Option Bool := do
  match name with
  | "eq" => some (Json.same a b)
  | "ne" => some (!Json.same a b)
  | "and" => some (holds false a && holds false b)
  | "or" => some (holds false a || holds false b)
  | _ =>
    let i ← integer? a
    let j ← integer? b
    match name with
    | "gt" => some (j < i)
    | "gte" => some (j ≤ i)
    | "lt" => some (i < j)
    | "lte" => some (i ≤ j)
    | _ => none

def callCommon (name : String) (arguments : List (Option Json))
    (named : List (String × Option Json)) : Except Fault Json :=
  let empty : Json := .string ""
  match name, arguments with
  | "raw", _ => .ok empty
  | "log", _ => checkLevel named
  | "if", _ :: _ => .ok empty
  | "unless", _ :: _ => .ok empty
  | "each", _ :: _ => .ok empty
  | "with", v :: _ =>
    if holds false (v.getD .null) then .ok empty else .error (.missingValue "with")
  | "lookup", v :: key :: _ =>
    match member? (v.getD .null) (key.getD .null) with
    | some x => .ok x
    | none => .error (.missingValue "lookup")
  | "len", some v :: _ => .ok (countJson (length v))
  | "not", some v :: _ => .ok (.bool (!holds false v))
  | name, some a :: some b :: _ =>
    match compareWith? name a b with
    | some x => .ok (.bool x)
    | none => .error (.missingArgument name)
  | name, _ => .error (.missingArgument name)

def callHelper (name : String) (arguments : List (Option Json))
    (named : List (String × Option Json)) : Except Fault Json :=
  let values := arguments.map fun v => v.getD .null
  if name = "indent" then
    .ok (.string (indentLines (countArgument values) (textArgument values)))
  else if name = "xml_escape" then .ok (.string (Source.escapeXml (textArgument values)))
  else if name = "kotlin_string" then .ok (.string (Source.escapeKotlin (textArgument values)))
  else if commonHelpers.contains name then callCommon name arguments named
  else .error (.unknownHelper name)

mutual

def evaluate (data : Json) : Expression → Except Fault (Option Json)
  | .reference r => r.value data
  | .literal v => .ok (some v)
  | .call helper arguments named => do
    let values ← evaluateAll data arguments
    let namedValues ← evaluateNamed data named
    let v ← callHelper helper values namedValues
    .ok (some v)

def evaluateAll (data : Json) : List Expression → Except Fault (List (Option Json))
  | [] => .ok []
  | e :: es => do
    let v ← evaluate data e
    let vs ← evaluateAll data es
    .ok (v :: vs)

def evaluateNamed (data : Json) :
    List (String × Expression) → Except Fault (List (String × Option Json))
  | [] => .ok []
  | (name, e) :: es => do
    let v ← evaluate data e
    let vs ← evaluateNamed data es
    .ok ((name, v) :: vs)

end

def Expression.text : Expression → String
  | .reference r => r.text
  | .literal _ => ""
  | .call helper _ _ => helper

def fillSegment (data : Json) : Segment → Except Fault (List Char)
  | .text cs => .ok cs
  | .place e => do
    let v ← evaluate data e
    match v with
    | none => .error (.missingValue e.text)
    | some v => .ok (showValue v)

def fill (data : Json) : List Segment → Except Fault (List Char)
  | [] => .ok []
  | s :: ss => do
    let cs ← fillSegment data s
    let rest ← fill data ss
    .ok (cs ++ rest)

def render (template : String) (data : Json) : Except Fault String := do
  let ss ← parse template
  let cs ← fill data ss
  .ok (String.ofList cs)

end NativeUi.Template
