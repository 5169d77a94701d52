import NativeUi.Instances

/-!
# Visible text

A text may hold control sequences that steer a terminal. Where no terminal reads it they are left
out, and so are the controls that stand for no white space.
-/
namespace NativeUi.Text

inductive Terminal where
  | ground
  | escape
  | escapeIntermediate
  | controlEntry
  | controlParameter
  | controlIntermediate
  | controlIgnore
  | deviceEntry
  | deviceParameter
  | deviceIntermediate
  | devicePassage
  | deviceIgnore
  | command
  | message
deriving DecidableEq

namespace Terminal

def within (low high : Nat) (c : Char) : Bool := low ≤ c.toNat && c.toNat ≤ high

def isPlainControl (c : Char) : Bool :=
  c.toNat < 0x20 && c.toNat != 0x18 && c.toNat != 0x1A && c.toNat != 0x1B

def isLayout (c : Char) : Bool := c = '\t' || c = '\n' || c = '\r' || c = '\x0c'

def obeysControls : Terminal → Bool
  | .ground => true
  | .escape => true
  | .escapeIntermediate => true
  | .controlEntry => true
  | .controlParameter => true
  | .controlIntermediate => true
  | .controlIgnore => true
  | _ => false

def afterEscape (c : Char) : Terminal :=
  if c = '[' then .controlEntry
  else if c = ']' then .command
  else if c = 'P' then .deviceEntry
  else if c = 'X' || c = '^' || c = '_' then .message
  else if within 0x20 0x2F c then .escapeIntermediate
  else if within 0x30 0x7E c then .ground
  else .escape

def step (s : Terminal) (c : Char) : Terminal :=
  if c = '\x18' || c = '\x1a' then .ground
  else if c = '\x1b' then .escape
  else
    match s with
    | .ground => .ground
    | .escape => afterEscape c
    | .escapeIntermediate => if within 0x30 0x7E c then .ground else s
    | .controlEntry =>
      if within 0x20 0x2F c then .controlIntermediate
      else if within 0x30 0x3F c then .controlParameter
      else if within 0x40 0x7E c then .ground
      else s
    | .controlParameter =>
      if within 0x20 0x2F c then .controlIntermediate
      else if within 0x3C 0x3F c then .controlIgnore
      else if within 0x40 0x7E c then .ground
      else s
    | .controlIntermediate =>
      if within 0x30 0x3F c then .controlIgnore
      else if within 0x40 0x7E c then .ground
      else s
    | .controlIgnore => if within 0x40 0x7E c then .ground else s
    | .deviceEntry =>
      if within 0x20 0x2F c then .deviceIntermediate
      else if within 0x30 0x3F c then .deviceParameter
      else if within 0x40 0x7E c then .devicePassage
      else s
    | .deviceParameter =>
      if within 0x20 0x2F c then .deviceIntermediate
      else if within 0x3C 0x3F c then .deviceIgnore
      else if within 0x40 0x7E c then .devicePassage
      else s
    | .deviceIntermediate =>
      if within 0x30 0x3F c then .deviceIgnore
      else if within 0x40 0x7E c then .devicePassage
      else s
    | s => s

end Terminal

def visibleFrom : Terminal → List Char → List Char
  | _, [] => []
  | s, c :: cs =>
    if Terminal.isPlainControl c then
      if Terminal.isLayout c && s.obeysControls then c :: visibleFrom .ground cs
      else if c = '\x07' && s = .command then visibleFrom .ground cs
      else visibleFrom s cs
    else if s = .ground && c ≠ '\x18' && c ≠ '\x1a' && c ≠ '\x1b' then
      if c = '\x7f' then visibleFrom .ground cs else c :: visibleFrom .ground cs
    else visibleFrom (s.step c) cs

def visible (s : String) : String := String.ofList (visibleFrom .ground s.toList)

end NativeUi.Text
