import NativeUi.FileTree

/-!
# Octets

Tools and shells work on octets. Their texts are strings in which every character stands for one
octet, so that cutting, counting and comparing characters means octets. Names and contents are
taken from the file tree and given back to it in this form.
-/
namespace NativeUi.Octets

def ofBytes (bytes : ByteArray) : String :=
  String.ofList (bytes.toList.map fun b => Char.ofNat b.toNat)

def toBytes (s : String) : ByteArray :=
  ⟨(s.toList.map fun c => UInt8.ofNat c.toNat).toArray⟩

def isAscii (s : String) : Bool := s.utf8ByteSize = s.length

def ofString (s : String) : String := if isAscii s then s else ofBytes s.toUTF8

def ofContent : Content → String
  | .text s => ofString s
  | .binary bytes => ofBytes bytes

def toContent (s : String) : Content := if isAscii s then .text s else .ofBytes (toBytes s)

def toText (s : String) : String :=
  if isAscii s then s else Text.ofFaultyBytes (s.toList.map Char.toNat)

end NativeUi.Octets
