import NativeUi.Json.Basic
import NativeUi.Json.Error

/-!
# JSON texts before they are understood

A draft is what a text says before anyone asks for a value of some type: members that repeat a name
are all kept, escapes of surrogates are unpaired, and where the text breaks the grammar the draft
breaks off with a fault. Whoever goes through a draft in order therefore meets the first fault of
the text, be it one of grammar or of type.

Skipping a part is more lenient than reading it: surrogates, the size of numbers and the depth of
nesting do not matter then, and some faults go by another name.
-/
namespace NativeUi.Json

/-- A unit of a string literal: a character, or the code unit of a `\u` escape. -/
inductive Piece where
  | char (c : Char)
  | unit (n : Nat)

inductive LiteralFault where
  | cut
  | controlCharacter
  | badEscape
  | badHex

structure Literal where
  pieces : List Piece
  fault : Option LiteralFault

inductive Fault where
  | absent
  | noValue
  | word (cut : Bool)
  | number (cut : Bool)
  | colon (cut : Bool)

inductive Ending where
  | closed
  | cut
  | noComma
  | commaThenClosed
  | commaThenCut
  | badKey

/-- The flag `deep` marks the lists and objects that are nested too deeply to be read; a number is
missing if it is too large. -/
inductive Draft where
  | null
  | bool (b : Bool)
  | number (n : Option Number)
  | string (s : Literal)
  | list (deep : Bool) (items : List Draft) (ending : Ending)
  | object (deep : Bool) (members : List (Literal × Draft)) (ending : Ending)
  | fault (f : Fault)

def LiteralFault.error : LiteralFault → ReadError
  | .cut => .endOfString
  | .controlCharacter => .controlCharacter
  | .badEscape => .invalidEscape
  | .badHex => .invalidEscape

def LiteralFault.errorInPair : LiteralFault → ReadError
  | .cut => .endOfString
  | .controlCharacter => .unfinishedSurrogate
  | .badEscape => .unfinishedSurrogate
  | .badHex => .invalidEscape

def Fault.reading : Fault → ReadError
  | .absent => .endOfValue
  | .noValue => .expectedValue
  | .word cut => if cut then .endOfValue else .expectedWord
  | .number cut => if cut then .endOfValue else .invalidNumber
  | .colon cut => if cut then .endOfObject else .expectedColon

def Fault.skipping : Fault → ReadError
  | .number _ => .invalidNumber
  | f => f.reading

namespace Ending

def listReading : Ending → Except ReadError Unit
  | .closed => .ok ()
  | .cut => .error .endOfList
  | .noComma => .error .expectedListComma
  | .commaThenClosed => .error .trailingComma
  | .commaThenCut => .error .endOfValue
  | .badKey => .error .keyNotString

def listSkipping : Ending → Except ReadError Unit
  | .commaThenClosed => .error .expectedValue
  | e => e.listReading

def listClosing : Ending → Except ReadError Unit
  | .noComma => .error .trailingCharacters
  | .commaThenCut => .error .trailingCharacters
  | e => e.listReading

def objectReading : Ending → Except ReadError Unit
  | .closed => .ok ()
  | .cut => .error .endOfObject
  | .noComma => .error .expectedObjectComma
  | .commaThenClosed => .error .trailingComma
  | .commaThenCut => .error .endOfValue
  | .badKey => .error .keyNotString

def objectSkipping : Ending → Except ReadError Unit
  | .commaThenClosed => .error .keyNotString
  | .commaThenCut => .error .endOfObject
  | e => e.objectReading

def objectClosing : Ending → Except ReadError Unit
  | .closed => .ok ()
  | .cut => .error .endOfObject
  | _ => .error .expectedValue

end Ending

namespace Literal

def isHighSurrogate (n : Nat) : Bool := 0xD800 ≤ n && n ≤ 0xDBFF

def isLowSurrogate (n : Nat) : Bool := 0xDC00 ≤ n && n ≤ 0xDFFF

def pairSurrogates (high low : Nat) : Char :=
  Char.ofNat (0x10000 + (high - 0xD800) * 0x400 + (low - 0xDC00))

def charsOf (fault : Option LiteralFault) : List Piece → Except ReadError (List Char)
  | [] =>
    match fault with
    | none => .ok []
    | some f => .error f.error
  | .char c :: ps => do
    let cs ← charsOf fault ps
    .ok (c :: cs)
  | [.unit n] =>
    if isHighSurrogate n then
      match fault with
      | none => .error .unfinishedSurrogate
      | some f => .error f.errorInPair
    else if isLowSurrogate n then .error .loneSurrogate
    else
      match fault with
      | none => .ok [Char.ofNat n]
      | some f => .error f.error
  | .unit n :: .unit m :: ps =>
    if isHighSurrogate n then
      if isLowSurrogate m then do
        let cs ← charsOf fault ps
        .ok (pairSurrogates n m :: cs)
      else .error .loneSurrogate
    else if isLowSurrogate n then .error .loneSurrogate
    else do
      let cs ← charsOf fault (.unit m :: ps)
      .ok (Char.ofNat n :: cs)
  | .unit n :: .char c :: ps =>
    if isHighSurrogate n then .error .unfinishedSurrogate
    else if isLowSurrogate n then .error .loneSurrogate
    else do
      let cs ← charsOf fault (.char c :: ps)
      .ok (Char.ofNat n :: cs)

def text (l : Literal) : Except ReadError String := do
  let cs ← charsOf l.fault l.pieces
  .ok (String.ofList cs)

def skip (l : Literal) : Except ReadError Unit :=
  match l.fault with
  | none => .ok ()
  | some f => .error f.error

def ofString (s : String) : Literal := ⟨s.toList.map .char, none⟩

end Literal

namespace Draft

/-- The error of a value of the wrong type, unless reading that far fails before. -/
def mismatch (expected : String) : Draft → ReadError
  | .null => .wrongType .null expected
  | .bool b => .wrongType (.bool b) expected
  | .number none => .numberOutOfRange
  | .number (some n) => .wrongType (.number n) expected
  | .string l =>
    match l.text with
    | .ok s => .wrongType (.string s) expected
    | .error e => e
  | .list _ _ _ => .wrongType .sequence expected
  | .object _ _ _ => .wrongType .map expected
  | .fault f => f.reading

mutual

def skip : Draft → Except ReadError Unit
  | .string l => l.skip
  | .list _ items ending => do
    skipItems items
    ending.listSkipping
  | .object _ members ending => do
    skipMembers members
    ending.objectSkipping
  | .fault f => .error f.skipping
  | _ => .ok ()

def skipItems : List Draft → Except ReadError Unit
  | [] => .ok ()
  | d :: ds => do
    skip d
    skipItems ds

def skipMembers : List (Literal × Draft) → Except ReadError Unit
  | [] => .ok ()
  | (l, d) :: ms => do
    l.skip
    skip d
    skipMembers ms

end

mutual

/-- The value of a draft; of members with one name the last counts, in the place of the first. -/
def value : Draft → Except ReadError Json
  | .null => .ok .null
  | .bool b => .ok (.bool b)
  | .number none => .error .numberOutOfRange
  | .number (some n) => .ok (.number n)
  | .string l => do
    let s ← l.text
    .ok (.string s)
  | .list deep items ending =>
    if deep then .error .tooDeep
    else do
      let xs ← valueItems items
      ending.listReading
      .ok (.list xs)
  | .object deep members ending =>
    if deep then .error .tooDeep
    else do
      let fs ← valueMembers [] members
      ending.objectReading
      .ok (.object fs)
  | .fault f => .error f.reading

def valueItems : List Draft → Except ReadError (List Json)
  | [] => .ok []
  | d :: ds => do
    let x ← value d
    let xs ← valueItems ds
    .ok (x :: xs)

def valueMembers (seen : Fields Json) : List (Literal × Draft) → Except ReadError (Fields Json)
  | [] => .ok seen
  | (l, d) :: ms => do
    let name ← l.text
    let x ← value d
    valueMembers (Fields.insert seen name x) ms

end

mutual

def ofJson : Json → Draft
  | .null => .null
  | .bool b => .bool b
  | .number n => .number (some n)
  | .string s => .string (.ofString s)
  | .list items => .list false (ofItems items) .closed
  | .object fields => .object false (ofFields fields) .closed

def ofItems : List Json → List Draft
  | [] => []
  | x :: xs => ofJson x :: ofItems xs

def ofFields : List (String × Json) → List (Literal × Draft)
  | [] => []
  | (name, x) :: fs => (.ofString name, ofJson x) :: ofFields fs

end

end Draft

end NativeUi.Json
