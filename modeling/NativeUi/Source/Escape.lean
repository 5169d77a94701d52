import NativeUi.Text.Lines

/-!
# Text in foreign literals

Escapes that let any text stand in a string literal of Swift or Kotlin, or in an XML document.
-/
namespace NativeUi.Source

def escapeChar (control : Char → List Char) (c : Char) : List Char :=
  if c = '\\' then ['\\', '\\']
  else if c = '"' then ['\\', '"']
  else if c = '\n' then ['\\', 'n']
  else if c = '\r' then ['\\', 'r']
  else if c = '\t' then ['\\', 't']
  else if Text.isControl c then control c
  else [c]

def escapeChars (control : Char → List Char) (cs : List Char) : List Char :=
  cs.flatMap (escapeChar control)

def swiftControl (c : Char) : List Char :=
  ['\\', 'u', '\x7b'] ++ Text.hex c.toNat ++ ['\x7d']

def kotlinControl (c : Char) : List Char := ['\\', 'u'] ++ Text.hex4 c.toNat

def escapeDollar (c : Char) : List Char := if c = '$' then ['\\', '$'] else [c]

def escapeSwift (s : String) : String := String.ofList (escapeChars swiftControl s.toList)

/-- A dollar sign opens a template in Kotlin; it is escaped once everything else is. -/
def escapeKotlin (s : String) : String :=
  String.ofList ((escapeChars kotlinControl s.toList).flatMap escapeDollar)

def escapeXmlChar (c : Char) : List Char :=
  if c = '&' then ['&', 'a', 'm', 'p', ';']
  else if c = '<' then ['&', 'l', 't', ';']
  else if c = '>' then ['&', 'g', 't', ';']
  else if c = '"' then ['&', 'q', 'u', 'o', 't', ';']
  else if c = '\x27' then ['&', 'a', 'p', 'o', 's', ';']
  else [c]

def escapeXml (s : String) : String := String.ofList (s.toList.flatMap escapeXmlChar)

end NativeUi.Source
