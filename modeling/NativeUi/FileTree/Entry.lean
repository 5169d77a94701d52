import NativeUi.Text.Digits
import NativeUi.Text.Utf8

/-!
# Entries of a file tree

What can stand at a place, and what can keep somebody from reaching or changing it.
-/
namespace NativeUi

inductive Content where
  | text (s : String)
  | binary (bytes : ByteArray)
deriving DecidableEq

namespace Content

def ofBytes (bytes : ByteArray) : Content :=
  match String.fromUTF8? bytes with
  | some s => .text s
  | none => .binary bytes

def size : Content → Nat
  | .text s => s.utf8ByteSize
  | .binary bytes => bytes.size

def shown : Content → String
  | .text s => s
  | .binary bytes => Text.ofFaultyBytes (bytes.toList.map UInt8.toNat)

end Content

/-- The rights of users to read, write and run a file, as the bits of a number. -/
abbrev Rights := Nat

namespace Rights

def plain : Rights := 0o644

def program : Rights := 0o755

/-- A file that all may read and write, as programs make it where nothing is held back. -/
def open_ : Rights := 0o666

def without (r mask : Rights) : Rights := r &&& (0o777 ^^^ (mask &&& 0o777))

def runs (r : Rights) : Bool := r / 64 % 2 = 1 || r / 8 % 2 = 1 || r % 2 = 1

end Rights

inductive Entry where
  | file (content : Content) (rights : Rights)
  | directory
  | link (target : String)
deriving DecidableEq

inductive FileError where
  | notFound
  | permissionDenied
  | alreadyExists
  | notADirectory
  | isADirectory
  | nameTooLong
  | notEmpty
  | tooManyLinks
  | notAProgram
  | zeroInName
  | notText
  | other (text : String)
deriving DecidableEq

def FileError.reason : FileError → String
  | .notFound => "No such file or directory"
  | .permissionDenied => "Permission denied"
  | .alreadyExists => "File exists"
  | .notADirectory => "Not a directory"
  | .isADirectory => "Is a directory"
  | .nameTooLong => "File name too long"
  | .notEmpty => "Directory not empty"
  | .tooManyLinks => "Too many levels of symbolic links"
  | .notAProgram => "Exec format error"
  | .zeroInName => "file name contained an unexpected NUL byte"
  | .notText => "stream did not contain valid UTF-8"
  | .other text => text

def FileError.number? : FileError → Option Nat
  | .notFound => some 2
  | .permissionDenied => some 13
  | .alreadyExists => some 17
  | .notADirectory => some 20
  | .isADirectory => some 21
  | .nameTooLong => some 36
  | .notEmpty => some 39
  | .tooManyLinks => some 40
  | .notAProgram => some 8
  | .zeroInName => none
  | .notText => none
  | .other _ => none

def FileError.message (e : FileError) : String :=
  match e.number? with
  | none => e.reason
  | some n => e.reason ++ " (os error " ++ Text.decimal n ++ ")"

end NativeUi
