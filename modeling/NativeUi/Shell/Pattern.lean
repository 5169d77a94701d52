import NativeUi.Shell.Script

/-!
# Patterns

A pattern is a text in which a star stands for any text, a question mark for any character and
brackets for one of several characters. What is quoted stands for itself.
-/
namespace NativeUi.Shell

structure Glyph where
  char : Char
  quoted : Bool

abbrev Glyphs := List Glyph

namespace Glyphs

def ofText (quoted : Bool) (cs : List Char) : Glyphs := cs.map fun c => ⟨c, quoted⟩

def text (gs : Glyphs) : String := String.ofList (gs.map Glyph.char)

end Glyphs

inductive Member where
  | range (low high : Char)
  | named (name : String)

def inClass (name : String) (c : Char) : Bool :=
  let n := c.toNat
  match name with
  | "alpha" => c.isAlpha
  | "digit" => c.isDigit
  | "alnum" => c.isAlphanum
  | "upper" => c.isUpper
  | "lower" => c.isLower
  | "space" => c = ' ' || (9 ≤ n && n ≤ 13)
  | "blank" => isBlank c
  | "punct" => 33 ≤ n && n ≤ 126 && !c.isAlphanum
  | "print" => 32 ≤ n && n ≤ 126
  | "graph" => 33 ≤ n && n ≤ 126
  | "cntrl" => n < 32 || n = 127
  | "xdigit" => c.isDigit || ('a' ≤ c && c ≤ 'f') || ('A' ≤ c && c ≤ 'F')
  | _ => false

def Member.holds (c : Char) : Member → Bool
  | .range low high => low ≤ c && c ≤ high
  | .named name => inClass name c

inductive Atom where
  | char (c : Char)
  | any
  | many
  | oneOf (negated : Bool) (members : List Member)

abbrev Pattern := List Atom

namespace Pattern

def className? (gs : Glyphs) : Option (String × Glyphs) :=
  let name := (gs.takeWhile fun g => g.char.isAlpha).map Glyph.char
  match gs.dropWhile fun g => g.char.isAlpha with
  | ⟨':', _⟩ :: ⟨']', _⟩ :: rest => some (String.ofList name, rest)
  | _ => none

/-- The members of a set up to its closing bracket; `first` says that none has been read, so that a
bracket stands for itself. -/
def members? : Nat → Bool → Glyphs → Option (List Member × Glyphs)
  | 0, _, _ => none
  | _, _, [] => none
  | fuel + 1, first, ⟨c, quoted⟩ :: rest =>
    let one : Option (List Member × Glyphs) :=
      match rest with
      | ⟨'-', false⟩ :: ⟨d, q⟩ :: more =>
        if d = ']' && !q then
          (members? fuel false rest).map fun (ms, rest) => (.range c c :: ms, rest)
        else (members? fuel false more).map fun (ms, rest) => (.range c d :: ms, rest)
      | rest => (members? fuel false rest).map fun (ms, rest) => (.range c c :: ms, rest)
    if quoted then one
    else if c = ']' && !first then some ([], rest)
    else if c = '[' then
      match rest with
      | ⟨':', false⟩ :: more =>
        match className? more with
        | some (name, rest) =>
          (members? fuel false rest).map fun (ms, rest) => (.named name :: ms, rest)
        | none => one
      | _ => one
    else one

def set? (gs : Glyphs) : Option (Atom × Glyphs) :=
  let (negated, gs) :=
    match gs with
    | ⟨'!', false⟩ :: rest => (true, rest)
    | ⟨'^', false⟩ :: rest => (true, rest)
    | gs => (false, gs)
  (members? (gs.length + 1) true gs).map fun (ms, rest) => (.oneOf negated ms, rest)

def compile : Nat → Glyphs → Pattern
  | 0, _ => []
  | _, [] => []
  | fuel + 1, ⟨c, quoted⟩ :: rest =>
    if quoted then .char c :: compile fuel rest
    else if c = '*' then .many :: compile fuel rest
    else if c = '?' then .any :: compile fuel rest
    else if c = '[' then
      match set? rest with
      | some (a, rest) => a :: compile fuel rest
      | none => .char c :: compile fuel rest
    else .char c :: compile fuel rest

def ofGlyphs (gs : Glyphs) : Pattern := compile (gs.length + 1) gs

def ofText (s : String) : Pattern := ofGlyphs (Glyphs.ofText false s.toList)

def stands (c : Char) : Atom → Bool
  | .char d => c = d
  | .any => true
  | .many => false
  | .oneOf negated ms => ms.any (Member.holds c) != negated

/-- What is left of a pattern and of a text at the next star, or at the end of the pattern. -/
def toStar? : Pattern → List Char → Option (Pattern × List Char)
  | [], cs => some ([], cs)
  | .many :: ps, cs => some (.many :: ps, cs)
  | _ :: _, [] => none
  | p :: ps, c :: cs => if stands c p then toStar? ps cs else none

/-- The pattern behind a star stands for an end of the text. What leads to the next star may be
taken at the first place where it fits. -/
def acceptsEnd : Nat → Pattern → List Char → Bool
  | 0, _, _ => false
  | fuel + 1, ps, cs =>
    match toStar? ps cs with
    | some ([], []) => true
    | some (_ :: qs, rest) => acceptsEnd fuel qs rest
    | _ => !cs.isEmpty && acceptsEnd fuel ps cs.tail

def accepts (p : Pattern) (cs : List Char) : Bool :=
  match toStar? p cs with
  | none => false
  | some ([], rest) => rest.isEmpty
  | some (_ :: ps, rest) => acceptsEnd (ps.length + rest.length + 1) ps rest

def isOpen (p : Pattern) : Bool :=
  p.any fun a =>
    match a with
    | .char _ => false
    | _ => true

/-- The start of a text that a pattern accepts, of the first of some lengths that will do. -/
def startAmong? (p : Pattern) (cs : List Char) : List Nat → Option Nat
  | [] => none
  | n :: ns => if accepts p (cs.take n) then some n else startAmong? p cs ns

def trimStart (longest : Bool) (p : Pattern) (cs : List Char) : List Char :=
  let lengths := List.range (cs.length + 1)
  match startAmong? p cs (if longest then lengths.reverse else lengths) with
  | some n => cs.drop n
  | none => cs

def endAmong? (p : Pattern) (cs : List Char) : List Nat → Option Nat
  | [] => none
  | n :: ns => if accepts p (cs.drop n) then some n else endAmong? p cs ns

def trimEnd (longest : Bool) (p : Pattern) (cs : List Char) : List Char :=
  let places := List.range (cs.length + 1)
  match endAmong? p cs (if longest then places else places.reverse) with
  | some n => cs.take n
  | none => cs

end Pattern

end NativeUi.Shell
