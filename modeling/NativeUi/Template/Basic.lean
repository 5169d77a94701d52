import NativeUi.Json.Basic

/-!
# Templates

A template is text with places to fill. A place names a value by a path or calls a helper with
arguments; nothing that is filled in is ever escaped or looked at again.

Blocks, raw blocks, partials and decorators are left out: a template with any of them counts as
faulty here. What is known of filled templates is known of those that have none.
-/
namespace NativeUi.Template

/-- What a place may name: a value of the data by the names that lead to it, or a variable, which
only a block could bind. -/
inductive Reference where
  | data (names : List String)
  | bound (name : String)

inductive Expression where
  | reference (r : Reference)
  | literal (value : Json)
  | call (helper : String) (arguments : List Expression) (named : List (String × Expression))

inductive Segment where
  | text (cs : List Char)
  | place (e : Expression)

inductive Fault where
  | badTag
  | missingValue (path : String)
  | missingArgument (helper : String)
  | unknownHelper (name : String)
  | badIndex (name : String)
  | badLevel (name : String)

def Fault.message : Fault → String
  | .badTag => "a tag cannot be understood"
  | .missingValue path => "there is no value `" ++ path ++ "`"
  | .missingArgument helper => "the helper `" ++ helper ++ "` lacks an argument"
  | .unknownHelper name => "there is no helper `" ++ name ++ "`"
  | .badIndex name => "`" ++ name ++ "` is no place in a list"
  | .badLevel name => "`" ++ name ++ "` is no level of a log"

def Reference.text : Reference → String
  | .data names => ".".intercalate names
  | .bound name => "@" ++ name

def ownHelpers : List String := ["indent", "xml_escape", "kotlin_string"]

/-- The helpers that every template knows. A tag that is just such a name is a call. -/
def commonHelpers : List String := [
  "if", "unless", "each", "with", "lookup", "raw", "log", "eq", "ne", "gt", "gte", "lt", "lte",
  "and", "or", "not", "len"]

def isHelper (name : String) : Bool := ownHelpers.contains name || commonHelpers.contains name

end NativeUi.Template
