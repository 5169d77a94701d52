import NativeUi.Json.Basic
import NativeUi.Text.Lines

/-!
# JSON texts

`Json.compact` writes a value without blanks, `Json.pretty` with one item a line and two spaces a
level. In strings only the quote, the backslash and the characters below the space are escaped.
-/
namespace NativeUi.Json

def escapeChar (c : Char) : List Char :=
  if c = '"' then ['\\', '"']
  else if c = '\\' then ['\\', '\\']
  else if c = '\x08' then ['\\', 'b']
  else if c = '\x0c' then ['\\', 'f']
  else if c = '\n' then ['\\', 'n']
  else if c = '\r' then ['\\', 'r']
  else if c = '\t' then ['\\', 't']
  else if c.toNat < 0x20 then '\\' :: 'u' :: Text.hex4 c.toNat
  else [c]

def stringChars (s : String) : List Char := '"' :: s.toList.flatMap escapeChar ++ ['"']

def boolChars (b : Bool) : List Char :=
  if b then ['t', 'r', 'u', 'e'] else ['f', 'a', 'l', 's', 'e']

mutual

def compactChars : Json → List Char
  | .null => ['n', 'u', 'l', 'l']
  | .bool b => boolChars b
  | .number n => n.text
  | .string s => stringChars s
  | .list [] => ['[', ']']
  | .list (x :: xs) => '[' :: compactChars x ++ compactItems xs
  | .object [] => ['\x7b', '\x7d']
  | .object ((name, x) :: fs) =>
    '\x7b' :: stringChars name ++ ':' :: compactChars x ++ compactFields fs

def compactItems : List Json → List Char
  | [] => [']']
  | x :: xs => ',' :: compactChars x ++ compactItems xs

def compactFields : List (String × Json) → List Char
  | [] => ['\x7d']
  | (name, x) :: fs => ',' :: stringChars name ++ ':' :: compactChars x ++ compactFields fs

end

def newline (level : Nat) : List Char := '\n' :: List.replicate (2 * level) ' '

mutual

def prettyChars (level : Nat) : Json → List Char
  | .null => ['n', 'u', 'l', 'l']
  | .bool b => boolChars b
  | .number n => n.text
  | .string s => stringChars s
  | .list [] => ['[', ']']
  | .list (x :: xs) =>
    '[' :: newline (level + 1) ++ prettyChars (level + 1) x ++ prettyItems level xs
  | .object [] => ['\x7b', '\x7d']
  | .object ((name, x) :: fs) =>
    '\x7b' :: newline (level + 1) ++ stringChars name ++ ':' :: ' ' :: prettyChars (level + 1) x ++
      prettyFields level fs

def prettyItems (level : Nat) : List Json → List Char
  | [] => newline level ++ [']']
  | x :: xs => ',' :: newline (level + 1) ++ prettyChars (level + 1) x ++ prettyItems level xs

def prettyFields (level : Nat) : List (String × Json) → List Char
  | [] => newline level ++ ['\x7d']
  | (name, x) :: fs =>
    ',' :: newline (level + 1) ++ stringChars name ++ ':' :: ' ' :: prettyChars (level + 1) x ++
      prettyFields level fs

end

def compact (v : Json) : String := String.ofList (compactChars v)

def pretty (v : Json) : String := String.ofList (prettyChars 0 v)

/-- The plain text of a scalar, the compact text of a list or an object, nothing for null. -/
def plainText? : Json → Option String
  | .null => none
  | .string s => some s
  | v => some v.compact

end NativeUi.Json
