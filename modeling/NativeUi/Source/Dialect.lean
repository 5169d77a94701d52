import NativeUi.Source.Escape

/-!
# Dialects

A dialect says how one framework spells texts, buttons and stacks. Texts come to it escaped.
-/
namespace NativeUi.Source

structure Dialect where
  name : String
  vertical : String
  horizontal : String
  defaultAction : String
  escape : String → String
  text : String → String
  button : String → String → String

namespace Dialect

def indent : String := "    "

def swiftText (content : String) : String := "Text(\"" ++ content ++ "\")"

def composeText (content : String) : String := "Text(text = \"" ++ content ++ "\")"

def swiftAction (action : String) : String :=
  "Button(action: \x7b print(\"Action: " ++ action ++ "\") \x7d) \x7b"

def swiftui : Dialect where
  name := "swiftui"
  vertical := "VStack"
  horizontal := "HStack"
  defaultAction := "unknown"
  escape := escapeSwift
  text := swiftText
  button label action :=
    swiftAction action ++ "\n" ++ indent ++ swiftText label ++ "\n\x7d"

def swiftuiCompact : Dialect where
  name := "swiftui-compact"
  vertical := "VStack"
  horizontal := "HStack"
  defaultAction := ""
  escape := escapeSwift
  text := swiftText
  button label action := swiftAction action ++ " " ++ swiftText label ++ " \x7d"

def compose : Dialect where
  name := "compose"
  vertical := "Column"
  horizontal := "Row"
  defaultAction := "unknown"
  escape := escapeKotlin
  text := composeText
  button label action :=
    "Button(onClick = \x7b Log.d(\"ForgeApp\", \"Button clicked: " ++ action ++
      "\") \x7d) \x7b\n" ++ indent ++ composeText label ++ "\n\x7d"

def all : List Dialect := [swiftui, swiftuiCompact, compose]

end Dialect

end NativeUi.Source
